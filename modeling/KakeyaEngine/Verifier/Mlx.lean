import KakeyaEngine.Verifier.Cpu

/-!
# The MLX verifier

`MlxVerifier` models `MLXSinkWindowVerifier`.  Each layer holds a `SinkWindowKVCache`, which trims itself to sink and
window inside `update_and_fetch`, before the outcome of a speculative block is known; a rejected tail is cut off the
trimmed buffer afterwards.
-/

namespace KakeyaEngine

/-- `SinkWindowKVCache`. -/
structure SinkWindowKVCache where
  keys : LayerSlots := none
  offset : Nat := 0
deriving DecidableEq

namespace SinkWindowKVCache

variable (cfg : VerifierConfig)

/-- `update_and_fetch`, on the slots for new tokens; the new keys are rotated at the offset. -/
def updateAndFetch (tokens : List Token) (c : SinkWindowKVCache) : SinkWindowKVCache :=
  let full := c.keys.getD [] ++ newSlots c.offset tokens
  if cfg.budget < full.length then
    ⟨some (full.take cfg.sinkSize ++ full.drop (full.length - cfg.windowSize)), c.offset + tokens.length⟩
  else ⟨some full, c.offset + tokens.length⟩

/-- `trim`: the number of slots dropped, and the cache without them. -/
def trim (n : Nat) (c : SinkWindowKVCache) : Nat × SinkWindowKVCache :=
  match c.keys with
  | none => (0, c)
  | some slots =>
    let n := min slots.length n
    if 0 < n then (n, ⟨some (slots.take (slots.length - n)), c.offset - n⟩) else (n, c)

end SinkWindowKVCache

structure MlxVerifier where
  cache : Option (List SinkWindowKVCache) := none
  cacheLogicalSize : Nat := 0
  nextGlobalPosition : Nat := 0
  cachedTokenSequence : List Token := []
deriving DecidableEq

abbrev MlxProc (α : Type) : Type := Proc MlxVerifier VerifierError α

namespace MlxVerifier

variable (cfg : VerifierConfig)

/-- `_cache_buffer_size`. -/
def cacheBufferSize (v : MlxVerifier) : Nat :=
  match v.cache with
  | none => 0
  | some layers => seqLength (layers.map SinkWindowKVCache.keys)

/-- `_assert_cache_invariant_1`. -/
def assertCacheInvariant1 : MlxProc Unit := do
  let v ← Proc.get
  if v.cachedTokenSequence.length ≠ v.cacheBufferSize then
    Proc.raise (.assertionError v.cachedTokenSequence.length v.cacheBufferSize)
  else pure ()

/-- `_sink_window_slice`. -/
def sinkWindowSlice (sequence : List Token) : List Token :=
  if sequence.length ≤ cfg.sinkSize + cfg.windowSize then sequence
  else sequence.take cfg.sinkSize ++ sequence.drop (sequence.length - cfg.windowSize)

/-- `reset`. -/
def reset : MlxProc Unit := do
  Proc.modify fun _ => { cache := some (List.replicate cfg.layerCount {}) }
  assertCacheInvariant1

/-- The forward pass of the model: every layer updates its cache. -/
def forward (tokens : List Token) (layers : List SinkWindowKVCache) : List SinkWindowKVCache :=
  layers.map (SinkWindowKVCache.updateAndFetch cfg tokens)

/-- Reads the size of the buffer back from the cache. -/
def syncLogicalSize (v : MlxVerifier) : MlxVerifier := { v with cacheLogicalSize := v.cacheBufferSize }

/-- `prefill`. -/
def prefill (promptIds : List Token) : MlxProc Unit := do
  if promptIds = [] then Proc.raise (.valueError "prompt_ids must be non-empty")
  else do
    reset cfg
    Proc.modify fun v =>
      { v with
        cache := v.cache.map (forward cfg promptIds), nextGlobalPosition := promptIds.length,
        cachedTokenSequence := sinkWindowSlice cfg promptIds }
    Proc.modify syncLogicalSize
    assertCacheInvariant1

/-- The part that `forward_block` and `append_accepted_tokens` have in common, with the number of tokens by which the
global position advances. -/
def extend (tokens : List Token) (advance : Nat) : MlxProc Unit := do
  let v ← Proc.get
  match v.cache with
  | none => Proc.raise (.runtimeError "Verifier not prefilled.")
  | some layers =>
    if tokens = [] then Proc.raise (.valueError "tokens must be non-empty")
    else do
      Proc.modify fun v =>
        { v with
          cache := some (forward cfg tokens layers),
          cachedTokenSequence := sinkWindowSlice cfg (v.cachedTokenSequence ++ tokens),
          nextGlobalPosition := v.nextGlobalPosition + advance }
      Proc.modify syncLogicalSize
      assertCacheInvariant1

/-- `forward_block`. -/
def forwardBlock (tokens : List Token) : MlxProc Unit := extend cfg tokens 0

/-- `append_accepted_tokens`. -/
def appendAcceptedTokens (tokens : List Token) : MlxProc Unit := extend cfg tokens tokens.length

/-- Cuts a rejected tail off every layer and off the token sequence. -/
def truncateTail (drop : Nat) : MlxProc Unit := do
  let v ← Proc.get
  match v.cache with
  | none => Proc.raise (.typeError "'NoneType' object is not iterable")
  | some layers => do
    let trims := layers.map fun c => c.trim drop
    Proc.modify fun v => { v with cache := some (trims.map Prod.snd) }
    if trims.any fun t => t.1 ≠ drop then
      Proc.raise (.runtimeError ("per-layer trim mismatch (asked drop=" ++ toString drop ++ ", got " ++
        toString (trims.map Prod.fst) ++ "); SinkWindowKVCache state diverged across layers"))
    else
      Proc.modify fun v =>
        { v with cachedTokenSequence := v.cachedTokenSequence.take (v.cachedTokenSequence.length - drop) }

/-- `commit_or_truncate`. -/
def commitOrTruncate (forwarded accepted : Nat) : MlxProc Unit := do
  if forwarded < accepted then Proc.raise (.valueError "accepted must satisfy 0 <= accepted <= forwarded")
  else do
    if 0 < forwarded - accepted then truncateTail (forwarded - accepted) else pure ()
    Proc.modify fun v => { v with nextGlobalPosition := v.nextGlobalPosition + accepted }
    Proc.modify syncLogicalSize
    assertCacheInvariant1

/-- `append_token`. -/
def appendToken (tokenId : Token) : MlxProc Unit := appendAcceptedTokens cfg [tokenId]

end MlxVerifier

end KakeyaEngine
