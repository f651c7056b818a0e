import KakeyaEngine.Verifier.MlxModel
import KakeyaEngine.Verifier.Snapshot

/-!
# Computing snapshots

A snapshot of a prompt is computed in two places.  `MLXPrefillComputeEngine` runs on a worker: it forwards the prompt in
chunks of a size of its own and exports one snapshot at the end.  The prefill cache hook runs on the node that serves the
prompt: it forwards one cache block after the other and exports a snapshot at every boundary.  Both export the state of
an MLX verifier (`exportMlxPrefillSnapshot`).

The tensors and their wire format stay a parameter (`WireFormat`); `SnapshotState` is what is written to the wire.
-/

namespace KakeyaEngine

/-! ### Snapshots -/

/-- What a snapshot holds: the metadata, the K/V tensors of all layers and the logits of the next token. -/
structure SnapshotState (κ Λ : Type) where
  compatibilitySha256 : Bytes
  tokenCount : Nat
  cachedTokenIds : List Token
  layerCount : Nat
  entries : List κ
  nextTokenLogits : Option Λ
  blockHash : Bytes
deriving DecidableEq

section Snapshots

variable {κ Λ : Type} (cfg : VerifierConfig) (c : CacheCompatibility)

/-- `export_mlx_prefill_snapshot`, up to the packing. -/
def exportMlxPrefillSnapshot (v : MLXSinkWindowVerifier κ Λ) (tokenCount : Nat) (blockHash : Bytes) :
    Except HookError (SnapshotState κ Λ) :=
  if tokenCount = 0 then .error (.valueError "token_count must be > 0")
  else
    match v.cache with
    | none => .error (.raised "TypeError" "'NoneType' object is not iterable")
    | some caches =>
      match caches.keys with
      | none => .error (.valueError "cache layer 0 is empty")
      | some entries =>
        .ok
          { compatibilitySha256 := compatibilityFingerprint c, tokenCount := tokenCount,
            cachedTokenIds := v.cachedTokenSequence, layerCount := cfg.layerCount, entries := entries,
            nextTokenLogits := v.nextTokenLogits, blockHash := blockHash }

/-- `import_mlx_prefill_snapshot` on an unpacked snapshot.  The logits are returned to the hook, which hands them to the
verifier when it installs the rest; both happen here. -/
def importMlxPrefillSnapshot (s : SnapshotState κ Λ) :
    Proc (MLXSinkWindowVerifier κ Λ) HookError ImportedSnapshot :=
  if s.compatibilitySha256 ≠ compatibilityFingerprint c then
    Proc.raise (.valueError "prefill snapshot compatibility fingerprint mismatch")
  else if s.layerCount ≠ cfg.layerCount then
    Proc.raise (.valueError ("snapshot layer_count " ++ toString s.layerCount ++ " != allocated cache " ++
      toString cfg.layerCount))
  else do
    Proc.modify fun v =>
      { v with
        cache := some ⟨some s.entries, s.tokenCount⟩, nextTokenLogits := s.nextTokenLogits.or v.nextTokenLogits }
    pure ⟨s.tokenCount, s.cachedTokenIds, some s.blockHash, s.nextTokenLogits.isSome⟩

end Snapshots

/-- The packing of a snapshot: the JSON metadata and the raw tensors. -/
structure WireFormat (κ Λ : Type) where
  pack : SnapshotState κ Λ → Bytes
  unpack : Bytes → Except HookError (SnapshotState κ Λ)

namespace MLXSinkWindowVerifier

variable {κ Λ : Type} (m : KvModel κ Λ) (cfg : VerifierConfig)

/-- An operation of the verifier, with its exceptions as its callers outside of the verifier see them. -/
def outside {α : Type} (x : Proc (MLXSinkWindowVerifier κ Λ) VerifierError α) :
    Proc (MLXSinkWindowVerifier κ Λ) HookError α :=
  Proc.focus id (fun v _ => v) VerifierError.raised x

theorem run_outside_ok {α : Type} {x : Proc (MLXSinkWindowVerifier κ Λ) VerifierError α} {v v' : MLXSinkWindowVerifier κ Λ}
    {a : α} (h : x.run v = (.ok a, v')) : (outside x).run v = (.ok a, v') :=
  Proc.run_focus_ok h

/-- The verifier as the hook drives it. -/
def prefillVerifier (c : CacheCompatibility) (wire : WireFormat κ Λ) : PrefillVerifier (MLXSinkWindowVerifier κ Λ) where
  cachedTokenSequence := cachedTokenSequence
  nextGlobalPosition := nextGlobalPosition
  isDecodeWorkerProxy := false
  sinkWindowSlice := some (MlxVerifier.sinkWindowSlice cfg)
  reset := outside reset
  prefill := fun ts => outside (prefill m cfg ts)
  appendAcceptedTokens := some fun ts => outside (appendAcceptedTokens m cfg ts)
  forwardBlock := fun ts => outside (do let _ ← forwardBlock m cfg ts)
  commitOrTruncate := fun forwarded accepted => outside (commitOrTruncate cfg forwarded accepted)
  importRemote := none
  importLocal := fun raw c => do
    let s ← Proc.ofExcept (wire.unpack raw)
    importMlxPrefillSnapshot cfg c s
  exportSnapshot := fun v tokenCount blockHash => (exportMlxPrefillSnapshot cfg c v tokenCount blockHash).map wire.pack
  install := fun ids n v => { v with cachedTokenSequence := ids, nextGlobalPosition := n }

end MLXSinkWindowVerifier

/-! ### The compute engine -/

/-- `MLXPrefillComputeEngine`.  The constructor refuses a chunk size of zero. -/
structure MLXPrefillComputeEngine where
  compatibility : CacheCompatibility
  computeChunkTokens : Nat
  chunk_pos : 0 < computeChunkTokens

/-- `range(start, stop, step)`. -/
def stepRange (start stop step : Nat) : List Nat :=
  (List.range ((stop - start + step - 1) / step)).map fun i => start + i * step

namespace MLXPrefillComputeEngine

variable {κ Λ : Type} (engine : MLXPrefillComputeEngine) (m : KvModel κ Λ) (cfg : VerifierConfig)

/-- The loop of `compute_prefill` over the starts of the chunks.  `cancelled` is what the event says when it is asked for
the `n`-th time. -/
def computeChunks (tokens : List Token) (cancelled : Nat → Bool) :
    List Nat → Nat → Proc (MLXSinkWindowVerifier κ Λ) HookError Unit
  | [], _ => pure ()
  | start :: starts, n =>
    if cancelled n then Proc.raise (.raised "InterruptedError" "prefill job cancelled")
    else do
      let block := (tokens.drop start).take engine.computeChunkTokens
      MLXSinkWindowVerifier.outside (MLXSinkWindowVerifier.commitBlock m cfg block)
      computeChunks tokens cancelled starts (n + 1)

/-- `compute_prefill`, up to the snapshot that is packed into a block. -/
def computeSnapshot (tokens : List Token) (blockHashes : List Bytes) (cancelled : Nat → Bool) :
    Proc (MLXSinkWindowVerifier κ Λ) HookError (SnapshotState κ Λ) :=
  if tokens = [] ∨ blockHashes = [] then
    Proc.raise (.valueError "token_ids and block_hashes must be non-empty")
  else
    let size := engine.compatibility.blockSizeTokens.toNat
    let expectedBlocks := (tokens.length + size - 1) / size
    if blockHashes.length ≠ expectedBlocks then
      Proc.raise (.valueError ("expected " ++ toString expectedBlocks ++ " block hashes, got " ++
        toString blockHashes.length))
    else if cancelled 0 then Proc.raise (.raised "InterruptedError" "prefill job cancelled")
    else do
      let firstEnd := min engine.computeChunkTokens tokens.length
      MLXSinkWindowVerifier.outside (MLXSinkWindowVerifier.prefill m cfg (tokens.take firstEnd))
      computeChunks engine m cfg tokens cancelled (stepRange firstEnd tokens.length engine.computeChunkTokens) 1
      let v ← Proc.get
      Proc.ofExcept (exportMlxPrefillSnapshot cfg engine.compatibility v tokens.length (blockHashes.getLastD []))

/-- `compute_prefill`. -/
def computePrefill (wire : WireFormat κ Λ) (compressPayload : Bytes → Except HookError Bytes) (tokens : List Token)
    (blockHashes : List Bytes) (cancelled : Nat → Bool) :
    Proc (MLXSinkWindowVerifier κ Λ) HookError (List CacheBlock) := do
  let s ← computeSnapshot engine m cfg tokens blockHashes cancelled
  let payload ← Proc.ofExcept (compressPayload (wire.pack s))
  let block ← Proc.ofExcept ((CacheBlock.create s.blockHash s.tokenCount payload).mapError HookError.cache)
  pure [block]

end MLXPrefillComputeEngine

end KakeyaEngine
