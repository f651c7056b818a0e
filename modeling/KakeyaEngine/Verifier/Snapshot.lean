import KakeyaEngine.PrefixCache.Runtime
import KakeyaEngine.Verifier.Parity

/-!
# The MLX verifier under the prefill cache hook

`MlxVerifier.prefillVerifier` is the MLX verifier as the hook drives it, with the codec of its snapshots as a parameter.
Its operations do not fail (`MlxVerifier.reliable`): from a standing cache they keep the cache standing, and a snapshot
that the codec decodes gives a standing cache.
-/

namespace KakeyaEngine

/-- `export_mlx_prefill_snapshot` and the decoding part of `import_mlx_prefill_snapshot`, for verifiers with a
configuration.  What is decoded are the slots of every layer, which belong to the listed tokens. -/
structure SnapshotCodec (cfg : VerifierConfig) where
  encode : MlxVerifier → Nat → Bytes → Except HookError Bytes
  decode : Bytes → CacheCompatibility → Except HookError (List (List Slot) × ImportedSnapshot)
  decoded : ∀ raw c layers i, decode raw c = .ok (layers, i) →
    ∃ slots : List Slot, layers = List.replicate cfg.layerCount slots ∧ slots.map Slot.token = i.cachedTokenIds

/-- The exceptions of the verifier as the hook sees them. -/
def VerifierError.raised : VerifierError → HookError
  | .valueError m => .valueError m
  | .runtimeError m => .runtimeError m
  | .typeError m => .raised "TypeError" m
  | .assertionError n m => .raised "AssertionError" (toString n ++ " cached entries for " ++ toString m ++ " slots")

namespace MlxVerifier

variable {cfg : VerifierConfig} (codec : SnapshotCodec cfg)

/-- An operation of the verifier, with its exceptions as the hook sees them. -/
def hooked {α : Type} (x : MlxProc α) : Proc MlxVerifier HookError α :=
  Proc.focus id (fun v _ => v) VerifierError.raised x

/-- `import_mlx_prefill_snapshot` on the cache of the verifier. -/
def importSnapshot (raw : Bytes) (c : CacheCompatibility) : Proc MlxVerifier HookError ImportedSnapshot := do
  let (layers, imported) ← Proc.ofExcept (codec.decode raw c)
  let v ← Proc.get
  let allocated := (v.cache.getD []).length
  if layers.length ≠ allocated then
    Proc.raise (.valueError ("snapshot layer_count " ++ toString layers.length ++ " != allocated cache " ++
      toString allocated))
  else do
    Proc.modify fun v => { v with cache := some (layers.map fun slots => ⟨some slots, imported.tokenCount.toNat⟩) }
    pure imported

/-- The verifier as the hook drives it. -/
def prefillVerifier : PrefillVerifier MlxVerifier where
  cachedTokenSequence := cachedTokenSequence
  nextGlobalPosition := nextGlobalPosition
  isDecodeWorkerProxy := false
  sinkWindowSlice := some (sinkWindowSlice cfg)
  reset := hooked (reset cfg)
  prefill := fun ts => hooked (prefill cfg ts)
  appendAcceptedTokens := some fun ts => hooked (appendAcceptedTokens cfg ts)
  forwardBlock := fun ts => hooked (forwardBlock cfg ts)
  commitOrTruncate := fun forwarded accepted => hooked (commitOrTruncate forwarded accepted)
  importRemote := none
  importLocal := importSnapshot codec
  exportSnapshot := codec.encode
  install := fun ids n v => { v with cachedTokenSequence := ids, nextGlobalPosition := n }

/-- Tokens can be appended to a verifier whose layers all hold the slots of its token sequence. -/
def Ready (cfg : VerifierConfig) (v : MlxVerifier) : Prop := ∃ slots pos off, v.Standing cfg slots pos off

private theorem Standing.cached_trim {slots : List Slot} {pos off : Nat} {v : MlxVerifier} {ts : List Token}
    (h : v.Standing cfg (SinkWindow.trim cfg.sinkSize cfg.windowSize slots) pos off) (hts : slots.map Slot.token = ts) :
    v.cachedTokenSequence = SinkWindow.trim cfg.sinkSize cfg.windowSize ts := by
  rw [h.tokens_eq, ← SinkWindow.trim_map, hts]

/-- A decoded snapshot gives a standing cache. -/
private theorem importSnapshot_ready {raw : Bytes} {c : CacheCompatibility} {v v' : MlxVerifier} {i : ImportedSnapshot}
    (h : (importSnapshot codec raw c).run v = (.ok i, v')) (n : Nat) :
    Ready cfg { v' with cachedTokenSequence := i.cachedTokenIds, nextGlobalPosition := n } := by
  unfold importSnapshot at h
  cases hd : codec.decode raw c with
  | error e =>
    rw [hd] at h
    cases (Prod.mk.inj h).1
  | ok p =>
    obtain ⟨layers, imported⟩ := p
    rw [hd] at h
    obtain ⟨slots, hlayers, htokens⟩ := codec.decoded raw c layers imported hd
    have hrun : (Proc.ofExcept (.ok (layers, imported)) >>= _).run v = _ := h
    rw [Proc.run_bind_ok (show (Proc.ofExcept (.ok (layers, imported)) : Proc MlxVerifier HookError _).run v =
      (.ok (layers, imported), v) from rfl), Proc.run_get_bind] at hrun
    dsimp only at hrun
    split at hrun
    · cases (Prod.mk.inj hrun).1
    · rw [Proc.run_modify_bind] at hrun
      obtain ⟨hi, rfl⟩ := Prod.mk.inj hrun
      obtain rfl := Except.ok.inj hi
      refine ⟨slots, n, imported.tokenCount.toNat, ?_, rfl, htokens.symm⟩
      rw [hlayers, List.map_replicate]

/-- The operations of the MLX verifier do not fail under the hook. -/
theorem reliable : (prefillVerifier codec).Reliable cfg.sinkSize cfg.windowSize (Ready cfg) where
  slice := rfl
  reset := by
    intro v
    have h : (MlxVerifier.reset cfg).run v = _ := run_reset v
    exact ⟨_, Proc.run_focus_ok h⟩
  prefill := by
    intro v ts hne
    obtain ⟨v', hrun, hst⟩ := prefill_standing cfg hne v
    exact ⟨v', Proc.run_focus_ok hrun, ⟨_, _, _, hst⟩, hst.cached_trim (token_newSlots 0 ts), hst.pos_eq⟩
  advance := by
    rintro v ts ⟨slots, pos, off, h⟩ hne
    obtain ⟨v', hrun, hst⟩ := h.extend hne ts.length
    refine ⟨v', Proc.run_focus_ok hrun, ⟨_, _, _, hst⟩, hst.cached_trim ?_, ?_⟩
    · rw [List.map_append, token_newSlots, ← h.tokens_eq]
      rfl
    · show v'.nextGlobalPosition = v.nextGlobalPosition + ts.length
      rw [hst.pos_eq, h.pos_eq]
  installed := fun _ _ _ => ⟨rfl, rfl⟩
  imported := fun _ _ _ _ _ n h => importSnapshot_ready codec h n
  importedRemote := by
    intro f raw c v v' i n hf
    cases hf

end MlxVerifier

end KakeyaEngine
