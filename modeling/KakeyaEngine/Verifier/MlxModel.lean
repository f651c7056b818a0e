import KakeyaEngine.Verifier.Continuation
import KakeyaEngine.Verifier.Mlx

/-!
# The MLX verifier with its values

`MlxVerifier` follows which token sits in which slot.  `MLXSinkWindowVerifier` is the same class with what a deterministic
model computes, as `SinkWindowVerifier` is for the CPU.  The MLX caches trim themselves inside the forward pass: the pass
attends to everything that was stored before it and to its own keys, and stores sink and window of both.

When every token of a call is accepted, the call leaves what the CPU verifier holds after the same call (`Holds`), so
`absorb` describes both.
-/

namespace KakeyaEngine

/-- The `SinkWindowKVCache`s of all layers: an entry is what all layers hold at a slot. -/
structure KvCaches (κ : Type) where
  keys : Option (List κ) := none
  offset : Nat := 0
deriving DecidableEq

namespace KvCaches

variable {κ Λ : Type} (m : KvModel κ Λ) (cfg : VerifierConfig)

/-- A forward pass, in which every layer calls `update_and_fetch`: the logits, and the caches with sink and window of the
full sequence.  The new keys are rotated at the offset. -/
def forward (tokens : List Token) (c : KvCaches κ) : List Λ × KvCaches κ :=
  let full := m.forward c.offset (c.keys.getD []) tokens
  if cfg.budget < full.1.length then
    (full.2, ⟨some (full.1.take cfg.sinkSize ++ full.1.drop (full.1.length - cfg.windowSize)),
      c.offset + tokens.length⟩)
  else (full.2, ⟨some full.1, c.offset + tokens.length⟩)

/-- `trim`: the number of slots dropped, and the caches without them. -/
def trim (n : Nat) (c : KvCaches κ) : Nat × KvCaches κ :=
  match c.keys with
  | none => (0, c)
  | some entries =>
    let n := min entries.length n
    if 0 < n then (n, ⟨some (entries.take (entries.length - n)), c.offset - n⟩) else (n, c)

end KvCaches

/-- `MLXSinkWindowVerifier`. -/
structure MLXSinkWindowVerifier (κ Λ : Type) where
  cache : Option (KvCaches κ) := none
  cacheLogicalSize : Nat := 0
  nextGlobalPosition : Nat := 0
  nextTokenLogits : Option Λ := none
  cachedTokenSequence : List Token := []
deriving DecidableEq

namespace MLXSinkWindowVerifier

variable {κ Λ : Type} (m : KvModel κ Λ) (cfg : VerifierConfig)

/-- `_cache_buffer_size`. -/
def cacheBufferSize (v : MLXSinkWindowVerifier κ Λ) : Nat :=
  match v.cache with
  | none => 0
  | some c => (c.keys.getD []).length

/-- `_assert_cache_invariant_1`. -/
def assertCacheInvariant1 : Proc (MLXSinkWindowVerifier κ Λ) VerifierError Unit := do
  let v ← Proc.get
  if v.cachedTokenSequence.length ≠ v.cacheBufferSize then
    Proc.raise (.assertionError v.cachedTokenSequence.length v.cacheBufferSize)
  else pure ()

/-- Reads the size of the buffer back from the cache. -/
def syncLogicalSize (v : MLXSinkWindowVerifier κ Λ) : MLXSinkWindowVerifier κ Λ :=
  { v with cacheLogicalSize := v.cacheBufferSize }

/-- `reset`. -/
def reset : Proc (MLXSinkWindowVerifier κ Λ) VerifierError Unit := do
  Proc.modify fun _ => { cache := some {} }
  assertCacheInvariant1

/-- `prefill`. -/
def prefill (promptIds : List Token) : Proc (MLXSinkWindowVerifier κ Λ) VerifierError Unit := do
  if promptIds = [] then Proc.raise (.valueError "prompt_ids must be non-empty")
  else do
    reset
    Proc.modify fun v =>
      { v with
        cache := v.cache.map fun c => (c.forward m cfg promptIds).2,
        nextTokenLogits := v.cache.bind fun c => (c.forward m cfg promptIds).1.getLast?,
        nextGlobalPosition := promptIds.length, cachedTokenSequence := MlxVerifier.sinkWindowSlice cfg promptIds }
    Proc.modify syncLogicalSize
    assertCacheInvariant1

/-- `forward_block`: the logits after each of the tokens. -/
def forwardBlock (tokens : List Token) : Proc (MLXSinkWindowVerifier κ Λ) VerifierError (List Λ) := do
  let v ← Proc.get
  match v.cache with
  | none => Proc.raise (.runtimeError "Verifier not prefilled.")
  | some c =>
    if tokens = [] then Proc.raise (.valueError "tokens must be non-empty")
    else do
      let outputs := c.forward m cfg tokens
      Proc.modify fun v =>
        { v with
          cache := some outputs.2,
          cachedTokenSequence := MlxVerifier.sinkWindowSlice cfg (v.cachedTokenSequence ++ tokens) }
      Proc.modify syncLogicalSize
      assertCacheInvariant1
      pure outputs.1

/-- `append_accepted_tokens`. -/
def appendAcceptedTokens (tokens : List Token) : Proc (MLXSinkWindowVerifier κ Λ) VerifierError Unit := do
  let v ← Proc.get
  match v.cache with
  | none => Proc.raise (.runtimeError "Verifier not prefilled.")
  | some c =>
    if tokens = [] then Proc.raise (.valueError "tokens must be non-empty")
    else do
      let outputs := c.forward m cfg tokens
      Proc.modify fun v =>
        { v with
          cache := some outputs.2, nextGlobalPosition := v.nextGlobalPosition + tokens.length,
          cachedTokenSequence := MlxVerifier.sinkWindowSlice cfg (v.cachedTokenSequence ++ tokens),
          nextTokenLogits := outputs.1.getLast? }
      Proc.modify syncLogicalSize
      assertCacheInvariant1

/-- Cuts a rejected tail off the caches and off the token sequence. -/
def truncateTail (drop : Nat) : Proc (MLXSinkWindowVerifier κ Λ) VerifierError Unit := do
  let v ← Proc.get
  match v.cache with
  | none => Proc.raise (.typeError "'NoneType' object is not iterable")
  | some c => do
    let trimmed := c.trim drop
    Proc.modify fun v => { v with cache := some trimmed.2 }
    if trimmed.1 ≠ drop then
      Proc.raise (.runtimeError ("per-layer trim mismatch (asked drop=" ++ toString drop ++ ", got " ++
        toString (List.replicate cfg.layerCount trimmed.1) ++ "); SinkWindowKVCache state diverged across layers"))
    else
      Proc.modify fun v =>
        { v with cachedTokenSequence := v.cachedTokenSequence.take (v.cachedTokenSequence.length - drop) }

/-- `commit_or_truncate`. -/
def commitOrTruncate (forwarded accepted : Nat) : Proc (MLXSinkWindowVerifier κ Λ) VerifierError Unit := do
  if forwarded < accepted then Proc.raise (.valueError "accepted must satisfy 0 <= accepted <= forwarded")
  else do
    if 0 < forwarded - accepted then truncateTail cfg (forwarded - accepted) else pure ()
    Proc.modify fun v => { v with nextGlobalPosition := v.nextGlobalPosition + accepted }
    Proc.modify syncLogicalSize
    assertCacheInvariant1

/-! ### Calls in which everything is accepted -/

/-- The verifier holds what a CPU verifier holds; the caches have come to the global position. -/
structure Holds (v : MLXSinkWindowVerifier κ Λ) (u : SinkWindowVerifier κ Λ) : Prop where
  cache : v.cache = u.cache.map fun entries => ⟨some entries, u.nextGlobalPosition⟩
  position : v.nextGlobalPosition = u.nextGlobalPosition
  logits : v.nextTokenLogits = u.nextTokenLogits
  tokens : v.cachedTokenSequence = u.cachedTokenSequence

variable {m cfg}

theorem forward_eq (tokens : List Token) (entries : Option (List κ)) (pos : Nat) :
    KvCaches.forward m cfg tokens ⟨entries, pos⟩ =
      ((m.forward pos (entries.getD []) tokens).2,
        ⟨some (SinkWindow.trim cfg.sinkSize cfg.windowSize (m.forward pos (entries.getD []) tokens).1),
          pos + tokens.length⟩) := by
  unfold KvCaches.forward SinkWindow.trim VerifierConfig.budget
  dsimp only
  by_cases h : cfg.sinkSize + cfg.windowSize < (m.forward pos (entries.getD []) tokens).1.length
  · rw [if_pos h, if_neg (by omega)]
  · rw [if_neg h, if_pos (by omega)]

theorem sinkWindowSlice_eq (ts : List Token) :
    MlxVerifier.sinkWindowSlice cfg ts = SinkWindow.trim cfg.sinkSize cfg.windowSize ts := rfl

private theorem run_assert {v : MLXSinkWindowVerifier κ Λ} (h : v.cachedTokenSequence.length = v.cacheBufferSize) :
    assertCacheInvariant1.run v = (.ok (), v) := by
  unfold assertCacheInvariant1
  rw [Proc.run_get_bind, if_neg (not_not_intro h)]
  rfl

/-- A verifier that holds what a standing one holds has as many tokens as entries. -/
private theorem Holds.buffer {v : MLXSinkWindowVerifier κ Λ} {u : SinkWindowVerifier κ Λ} (h : v.Holds u)
    (hu : u.Standing) : v.cachedTokenSequence.length = v.cacheBufferSize := by
  obtain ⟨entries, tokens, pos, logits, hlen, rfl⟩ := hu
  have hbuf : v.cacheBufferSize = entries.length := by
    unfold cacheBufferSize
    rw [h.cache]
    rfl
  rw [hbuf, h.tokens]
  exact hlen

/-- Reading the size of the buffer back changes nothing of what is held. -/
private theorem Holds.sync {v : MLXSinkWindowVerifier κ Λ} {u : SinkWindowVerifier κ Λ} (h : v.Holds u) :
    v.syncLogicalSize.Holds u := ⟨h.cache, h.position, h.logits, h.tokens⟩

variable (m cfg) in
theorem run_prefill {ts : List Token} (hne : ts ≠ []) (v : MLXSinkWindowVerifier κ Λ) :
    ∃ v', (prefill m cfg ts).run v = (.ok (), v') ∧
      v'.Holds (SinkWindowVerifier.absorb m cfg SinkWindowVerifier.empty ts) := by
  have hreset : (reset : Proc (MLXSinkWindowVerifier κ Λ) VerifierError Unit).run v = (.ok (), { cache := some {} }) := by
    unfold reset
    rw [Proc.run_modify_bind]
    rfl
  unfold prefill
  rw [if_neg hne, Proc.run_bind_ok hreset, Proc.run_modify_bind, Proc.run_modify_bind]
  generalize hv : MLXSinkWindowVerifier.mk _ _ _ _ _ = v'
  have hholds : v'.Holds (SinkWindowVerifier.absorb m cfg SinkWindowVerifier.empty ts) := by
    rw [← hv]
    refine ⟨?_, (Nat.zero_add _).symm, ?_, ?_⟩
    · simp [forward_eq, SinkWindowVerifier.absorb, SinkWindowVerifier.empty, SinkWindowVerifier.held]
    · simp [forward_eq, SinkWindowVerifier.absorb, SinkWindowVerifier.empty, SinkWindowVerifier.held,
        SinkWindowVerifier.lastLogits]
    · simp [sinkWindowSlice_eq, SinkWindowVerifier.absorb, SinkWindowVerifier.empty, SinkWindowVerifier.held]
  exact ⟨_, run_assert (hholds.sync.buffer (SinkWindowVerifier.absorb_standing m cfg SinkWindowVerifier.empty_standing ts)), hholds.sync⟩

variable (m cfg) in
/-- What the caches hold after a forward pass. -/
private theorem Holds.forwarded {v : MLXSinkWindowVerifier κ Λ} {u : SinkWindowVerifier κ Λ} (h : v.Holds u)
    (hu : u.Standing) (ts : List Token) :
    ∃ c, v.cache = some c ∧ (c.forward m cfg ts).1.getLast? = (SinkWindowVerifier.absorb m cfg u ts).nextTokenLogits ∧
      some (c.forward m cfg ts).2 = (SinkWindowVerifier.absorb m cfg u ts).cache.map fun entries =>
        ⟨some entries, u.nextGlobalPosition + ts.length⟩ := by
  obtain ⟨entries, tokens, pos, logits, hlen, rfl⟩ := hu
  refine ⟨_, h.cache, ?_, ?_⟩
  · rw [forward_eq]
    rfl
  · rw [forward_eq]
    rfl

variable (m cfg) in
/-- `append_accepted_tokens` leaves what the call absorbs. -/
theorem run_appendAcceptedTokens {v : MLXSinkWindowVerifier κ Λ} {u : SinkWindowVerifier κ Λ} (h : v.Holds u)
    (hu : u.Standing) {ts : List Token} (hne : ts ≠ []) :
    ∃ v', (appendAcceptedTokens m cfg ts).run v = (.ok (), v') ∧ v'.Holds (SinkWindowVerifier.absorb m cfg u ts) := by
  obtain ⟨c, hc, hlogits, hcache⟩ := h.forwarded m cfg hu ts
  unfold appendAcceptedTokens
  rw [Proc.run_get_bind, hc]
  dsimp only
  rw [if_neg hne, Proc.run_modify_bind, Proc.run_modify_bind]
  generalize hv : MLXSinkWindowVerifier.mk _ _ _ _ _ = v'
  have hholds : v'.Holds (SinkWindowVerifier.absorb m cfg u ts) := by
    rw [← hv]
    refine ⟨hcache, ?_, hlogits, ?_⟩
    · rw [h.position]
      rfl
    · rw [h.tokens]
      rfl
  exact ⟨_, run_assert (hholds.sync.buffer (SinkWindowVerifier.absorb_standing m cfg hu ts)), hholds.sync⟩

/-- A forward pass whose tokens are all committed, with the last row as the logits of the next token. -/
def commitBlock (m : KvModel κ Λ) (cfg : VerifierConfig) (tokens : List Token) :
    Proc (MLXSinkWindowVerifier κ Λ) VerifierError Unit := do
  let logits ← forwardBlock m cfg tokens
  commitOrTruncate cfg tokens.length tokens.length
  Proc.modify fun v => { v with nextTokenLogits := logits.getLast? }

variable (m cfg) in
/-- A committed forward pass leaves what the call absorbs. -/
theorem run_commitBlock {v : MLXSinkWindowVerifier κ Λ} {u : SinkWindowVerifier κ Λ} (h : v.Holds u)
    (hu : u.Standing) {ts : List Token} (hne : ts ≠ []) :
    ∃ v', (commitBlock m cfg ts).run v = (.ok (), v') ∧ v'.Holds (SinkWindowVerifier.absorb m cfg u ts) := by
  obtain ⟨c, hc, hlogits, hcache⟩ := h.forwarded m cfg hu ts
  -- the forward pass does not move the global position yet
  generalize hw : { v with
    cache := some (c.forward m cfg ts).2,
    cachedTokenSequence := MlxVerifier.sinkWindowSlice cfg (v.cachedTokenSequence ++ ts) } = w
  have hholds : Holds { w with
      nextGlobalPosition := w.nextGlobalPosition + ts.length, nextTokenLogits := (c.forward m cfg ts).1.getLast? }
      (SinkWindowVerifier.absorb m cfg u ts) := by
    rw [← hw]
    refine ⟨hcache, ?_, hlogits, ?_⟩
    · dsimp only
      rw [h.position]
      rfl
    · dsimp only
      rw [h.tokens]
      rfl
  have hbuf : w.cachedTokenSequence.length = w.cacheBufferSize :=
    hholds.buffer (SinkWindowVerifier.absorb_standing m cfg hu ts)
  have hforward : (forwardBlock m cfg ts).run v = (.ok (c.forward m cfg ts).1, w.syncLogicalSize) := by
    unfold forwardBlock
    rw [Proc.run_get_bind, hc]
    dsimp only
    rw [if_neg hne, Proc.run_modify_bind, Proc.run_modify_bind, hw]
    exact Proc.run_bind_ok (run_assert hbuf)
  have hcommit : (commitOrTruncate cfg ts.length ts.length).run w.syncLogicalSize =
      (.ok (), syncLogicalSize { w.syncLogicalSize with nextGlobalPosition := w.nextGlobalPosition + ts.length }) := by
    unfold commitOrTruncate
    rw [if_neg (Nat.lt_irrefl _), Nat.sub_self, if_neg (Nat.lt_irrefl _)]
    dsimp only
    rw [Proc.run_modify_bind, Proc.run_modify_bind]
    exact run_assert hbuf
  unfold commitBlock
  rw [Proc.run_bind_ok hforward, Proc.run_bind_ok hcommit]
  exact ⟨_, rfl, hholds.cache, hholds.position, hholds.logits, hholds.tokens⟩

end MLXSinkWindowVerifier

end KakeyaEngine
