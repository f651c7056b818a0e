import KakeyaEngine.Verifier.Cpu

/-!
# The restored verifier

`RestoredSinkWindowVerifier` models `CrossModelRestoredSinkWindowVerifier`.  It keeps the whole committed prefix and runs
the restored forward pass over it; the bounded token sequence and the two counters are recomputed from the prefix at every
commit.  In the incremental mode the restored K/V of the prompt are captured into a cache, which later blocks extend.
-/

namespace KakeyaEngine

structure RestoredSinkWindowVerifier where
  past : Option (List LayerSlots) := none
  pastLen : Nat := 0
  cacheLogicalSize : Nat := 0
  nextGlobalPosition : Nat := 0
  cachedTokenSequence : List Token := []
  committed : List Token := []
  pending : List Token := []
deriving DecidableEq

abbrev RestoredProc (α : Type) : Type := Proc RestoredSinkWindowVerifier VerifierError α

/-- `compute_evicted_positions`: the positions outside sink and window. -/
def computeEvictedPositions (seqLen sinkSize windowSize : Nat) : List Nat :=
  if seqLen ≤ sinkSize + windowSize then []
  else (List.range (seqLen - windowSize)).drop sinkSize

namespace RestoredSinkWindowVerifier

variable (cfg : VerifierConfig) (incremental : Bool)

/-- `reset`. -/
def reset : RestoredProc Unit := Proc.modify fun _ => {}

/-- What the restored forward pass leaves in `capture_kv`: only a pass that restores evicted positions runs the patched
attention that fills it. -/
def captureKv (ids : List Token) : List LayerSlots :=
  if computeEvictedPositions ids.length cfg.sinkSize cfg.windowSize = [] then List.replicate cfg.layerCount none
  else List.replicate cfg.layerCount (some (newSlots 0 ids))

/-- `_build_restored_cache`. -/
def buildRestoredCache (promptIds : List Token) : RestoredProc (List LayerSlots) :=
  if (captureKv cfg promptIds).any Option.isNone then
    Proc.raise (.runtimeError ("Incremental prefill requires an evicted-position restored " ++
      "forward (prompt must exceed sink+window); some layers were " ++
      "not captured. Use a longer prompt or incremental=False."))
  else pure (captureKv cfg promptIds)

/-- `_native_forward`: without a cache the model starts a fresh one. -/
def nativeForward (tokens : List Token) : RestoredProc Unit :=
  Proc.modify fun v =>
    { v with
      past := some (CpuVerifier.forward v.pastLen tokens (v.past.getD (List.replicate cfg.layerCount none))) }

/-- The bounded mirror of the committed prefix. -/
def boundedSequence (seq : List Token) : List Token :=
  if seq.length ≤ cfg.budget then seq
  else if 0 < cfg.budget - cfg.sinkSize then
    seq.take cfg.sinkSize ++ seq.drop (seq.length - (cfg.budget - cfg.sinkSize))
  else seq.take cfg.sinkSize

/-- `_sync_bounded_state`. -/
def syncBoundedState : RestoredProc Unit :=
  Proc.modify fun v =>
    { v with
      cachedTokenSequence := boundedSequence cfg v.committed,
      cacheLogicalSize := (boundedSequence cfg v.committed).length,
      nextGlobalPosition := v.committed.length }

/-- `prefill`. -/
def prefill (promptIds : List Token) : RestoredProc Unit := do
  if promptIds = [] then Proc.raise (.valueError "prompt_ids must be non-empty")
  else do
    reset
    Proc.modify fun v => { v with committed := promptIds }
    if incremental then do
      let past ← buildRestoredCache cfg promptIds
      Proc.modify fun v => { v with past := some past, pastLen := v.committed.length }
    else pure ()
    syncBoundedState cfg

/-- `forward_block`. -/
def forwardBlock (tokens : List Token) : RestoredProc Unit := do
  let v ← Proc.get
  if v.committed = [] then Proc.raise (.runtimeError "Verifier not prefilled.")
  else if tokens = [] then Proc.raise (.valueError "tokens must be non-empty")
  else do
    Proc.modify fun v => { v with pending := tokens }
    if incremental then nativeForward cfg tokens else pure ()
    Proc.modify fun v => { v with cacheLogicalSize := v.committed.length + tokens.length }

/-- The rejected tail of a block leaves the incremental cache. -/
def dropRejected (forwarded accepted : Nat) (v : RestoredSinkWindowVerifier) : RestoredSinkWindowVerifier :=
  match v.past with
  | none => v
  | some layers =>
    let drop := forwarded - accepted
    let keep := v.pastLen + forwarded - drop
    { v with
      past := some (if 0 < drop then layers.map (Option.map (List.take keep)) else layers),
      pastLen := v.pastLen + accepted }

/-- `commit_or_truncate`. -/
def commitOrTruncate (forwarded accepted : Nat) : RestoredProc Unit := do
  if forwarded < accepted then Proc.raise (.valueError "accepted must satisfy 0 <= accepted <= forwarded")
  else do
    if incremental then Proc.modify (dropRejected forwarded accepted) else pure ()
    Proc.modify fun v => { v with committed := v.committed ++ v.pending.take accepted, pending := [] }
    syncBoundedState cfg

/-- `append_token`. -/
def appendToken (tokenId : Token) : RestoredProc Unit := do
  forwardBlock cfg incremental [tokenId]
  commitOrTruncate cfg incremental 1 1

end RestoredSinkWindowVerifier

end KakeyaEngine
