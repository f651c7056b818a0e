import KakeyaEngine.Verifier.Cpu

/-!
# The verifier with its values

`CpuVerifier` follows which token sits in which slot of the cache.  `SinkWindowVerifier` is the same class with what a
deterministic model computes: an entry of the cache is what all layers hold at a slot, and it depends on the token, on its
global position and on the entries that are visible when it is forwarded; so do the logits.

`held` is a verifier between two calls, and there is one lemma for each operation that says what it holds afterwards.
-/

namespace KakeyaEngine

/-- A deterministic model: the K/V entry and the logits of a token, from its position and the entries it attends to. -/
structure KvModel (κ Λ : Type) where
  entry : Token → Nat → List κ → κ
  logits : Token → Nat → List κ → Λ

namespace KvModel

variable {κ Λ : Type} (m : KvModel κ Λ)

/-- A forward pass from a global position on: the cache after it, and the logits of every token. -/
def forward : Nat → List κ → List Token → List κ × List Λ
  | _, cache, [] => (cache, [])
  | pos, cache, t :: ts =>
    ((forward (pos + 1) (cache ++ [m.entry t pos cache]) ts).1,
      m.logits t pos cache :: (forward (pos + 1) (cache ++ [m.entry t pos cache]) ts).2)

variable {m}

theorem forward_append (pos : Nat) (cache : List κ) (xs ys : List Token) :
    m.forward pos cache (xs ++ ys) =
      ((m.forward (pos + xs.length) (m.forward pos cache xs).1 ys).1,
        (m.forward pos cache xs).2 ++ (m.forward (pos + xs.length) (m.forward pos cache xs).1 ys).2) := by
  induction xs generalizing pos cache with
  | nil => rfl
  | cons x xs ih =>
    simp only [List.cons_append, forward, ih, List.length_cons]
    rw [show pos + (xs.length + 1) = pos + 1 + xs.length by omega]

@[simp] theorem length_forward (pos : Nat) (cache : List κ) (ts : List Token) :
    (m.forward pos cache ts).1.length = cache.length + ts.length := by
  induction ts generalizing pos cache with
  | nil => rfl
  | cons t ts ih =>
    simp only [forward, ih, List.length_append, List.length_cons, List.length_nil]
    omega

@[simp] theorem length_logits (pos : Nat) (cache : List κ) (ts : List Token) :
    (m.forward pos cache ts).2.length = ts.length := by
  induction ts generalizing pos cache with
  | nil => rfl
  | cons t ts ih => simp [forward, ih]

/-- A forward pass only appends to the cache. -/
theorem take_forward (pos : Nat) (cache : List κ) (xs ys : List Token) :
    (m.forward pos cache (xs ++ ys)).1.take (cache.length + xs.length) = (m.forward pos cache xs).1 := by
  rw [forward_append]
  generalize hc : (m.forward pos cache xs).1 = c
  have hlen : c.length = cache.length + xs.length := by rw [← hc, length_forward]
  rw [← hlen]
  clear hc hlen
  generalize pos + xs.length = q
  induction ys generalizing q c with
  | nil => simp [forward]
  | cons y ys ih =>
    simp only [forward]
    have := congrArg (List.take c.length) (ih (c ++ [m.entry y q c]) (q + 1))
    rw [List.take_take] at this
    simpa using this

end KvModel

/-- `SinkWindowVerifier`. -/
structure SinkWindowVerifier (κ Λ : Type) where
  cache : Option (List κ) := none
  cacheLogicalSize : Nat := 0
  nextGlobalPosition : Nat := 0
  nextTokenLogits : Option Λ := none
  cachedTokenSequence : List Token := []
deriving DecidableEq

namespace SinkWindowVerifier

variable {κ Λ : Type} (m : KvModel κ Λ) (cfg : VerifierConfig)

/-- `_cache_seq_length`. -/
def cacheSeqLength (v : SinkWindowVerifier κ Λ) : Nat := (v.cache.getD []).length

/-- `_assert_cache_invariant_1`. -/
def assertCacheInvariant1 : Proc (SinkWindowVerifier κ Λ) VerifierError Unit := do
  let v ← Proc.get
  if v.cachedTokenSequence.length ≠ v.cacheSeqLength then
    Proc.raise (.assertionError v.cachedTokenSequence.length v.cacheSeqLength)
  else pure ()

/-- `reset`. -/
def reset : Proc (SinkWindowVerifier κ Λ) VerifierError Unit := do
  Proc.modify fun _ => { cache := some [] }
  assertCacheInvariant1

/-- `_trim_cache_in_place`. -/
def trimCacheInPlace : Proc (SinkWindowVerifier κ Λ) VerifierError Unit := do
  let v ← Proc.get
  match v.cache with
  | none => Proc.raise (.runtimeError "No cache to trim.")
  | some entries =>
    if v.cacheLogicalSize ≤ cfg.budget then pure ()
    else if entries.length ≠ v.cacheLogicalSize then
      Proc.raise (.runtimeError ("Cache shape " ++ toString entries.length ++ " inconsistent with logical size " ++
        toString v.cacheLogicalSize ++ "; layout invariant violated."))
    else
      let keepWindow := cfg.budget - cfg.sinkSize
      Proc.modify fun v =>
        { v with
          cache := some (CpuVerifier.sinkAndTail cfg.sinkSize keepWindow entries),
          cachedTokenSequence := CpuVerifier.sinkAndTail cfg.sinkSize keepWindow v.cachedTokenSequence,
          cacheLogicalSize := cfg.budget }

/-- `prefill`. -/
def prefill (promptIds : List Token) : Proc (SinkWindowVerifier κ Λ) VerifierError Unit := do
  if promptIds = [] then Proc.raise (.valueError "prompt_ids must be non-empty")
  else do
    reset
    Proc.modify fun v =>
      { v with
        cache := v.cache.map fun entries => (m.forward 0 entries promptIds).1,
        cacheLogicalSize := promptIds.length, nextGlobalPosition := promptIds.length,
        nextTokenLogits := (m.forward 0 (v.cache.getD []) promptIds).2.getLast?,
        cachedTokenSequence := promptIds }
    trimCacheInPlace cfg
    assertCacheInvariant1

/-- `forward_block`: the logits after each of the tokens. -/
def forwardBlock (tokens : List Token) : Proc (SinkWindowVerifier κ Λ) VerifierError (List Λ) := do
  let v ← Proc.get
  match v.cache with
  | none => Proc.raise (.runtimeError "Verifier not prefilled.")
  | some entries =>
    if tokens = [] then Proc.raise (.valueError "tokens must be non-empty")
    else do
      let outputs := m.forward v.nextGlobalPosition entries tokens
      Proc.modify fun v =>
        { v with
          cache := some outputs.1, cacheLogicalSize := v.cacheLogicalSize + tokens.length,
          cachedTokenSequence := v.cachedTokenSequence ++ tokens }
      assertCacheInvariant1
      pure outputs.2

/-- `_truncate_tail_in_place` for a positive number of tokens. -/
def truncateTailInPlace (drop : Nat) : Proc (SinkWindowVerifier κ Λ) VerifierError Unit := do
  let v ← Proc.get
  match v.cache with
  | none => Proc.raise (.runtimeError "No cache to truncate.")
  | some entries =>
    if v.cacheLogicalSize < drop then
      Proc.raise (.runtimeError ("Cannot drop " ++ toString drop ++ " tokens from cache of size " ++
        toString v.cacheLogicalSize))
    else Proc.modify fun v => { v with cache := some (entries.take (v.cacheLogicalSize - drop)) }

/-- The rejected tail is cut from the cache and from the token sequence. -/
def dropTail (drop : Nat) : Proc (SinkWindowVerifier κ Λ) VerifierError Unit :=
  if 0 < drop then do
    truncateTailInPlace drop
    Proc.modify fun v =>
      { v with cachedTokenSequence := v.cachedTokenSequence.take (v.cachedTokenSequence.length - drop) }
  else pure ()

/-- `commit_or_truncate`. -/
def commitOrTruncate (forwarded accepted : Nat) : Proc (SinkWindowVerifier κ Λ) VerifierError Unit := do
  if forwarded < accepted then Proc.raise (.valueError "accepted must satisfy 0 <= accepted <= forwarded")
  else do
    let drop := forwarded - accepted
    dropTail drop
    Proc.modify fun v =>
      { v with
        cacheLogicalSize := v.cacheLogicalSize - drop, nextGlobalPosition := v.nextGlobalPosition + accepted }
    trimCacheInPlace cfg
    assertCacheInvariant1

/-- `forward_block`, `commit_or_truncate` with everything accepted, and the last row as the logits of the next token:
what `append_token` does with one token and the coordinator with many. -/
def appendBlock (tokens : List Token) : Proc (SinkWindowVerifier κ Λ) VerifierError Unit := do
  let logits ← forwardBlock m tokens
  commitOrTruncate cfg tokens.length tokens.length
  Proc.modify fun v => { v with nextTokenLogits := logits.getLast? }

/-- `append_token`. -/
def appendToken (tokenId : Token) : Proc (SinkWindowVerifier κ Λ) VerifierError Unit := appendBlock m cfg [tokenId]

/-! ### What each operation leaves -/

/-- A verifier between two calls. -/
def held (entries : List κ) (tokens : List Token) (pos : Nat) (logits : Option Λ) : SinkWindowVerifier κ Λ :=
  { cache := some entries, cacheLogicalSize := entries.length, nextGlobalPosition := pos, nextTokenLogits := logits,
    cachedTokenSequence := tokens }

variable {m cfg} {entries : List κ} {tokens : List Token} {pos : Nat} {logits : Option Λ}

theorem run_inv1 (h : tokens.length = entries.length) :
    assertCacheInvariant1.run (held entries tokens pos logits) = (.ok (), held entries tokens pos logits) := by
  unfold assertCacheInvariant1
  rw [Proc.run_get_bind, if_neg (by simpa [held, cacheSeqLength] using h)]
  rfl

private theorem sinkAndTail_trim {α : Type} (l : List α) (h : ¬ l.length ≤ cfg.budget) :
    CpuVerifier.sinkAndTail cfg.sinkSize (cfg.budget - cfg.sinkSize) l =
      SinkWindow.trim cfg.sinkSize cfg.windowSize l := by
  unfold CpuVerifier.sinkAndTail SinkWindow.trim
  rw [if_neg (show ¬ l.length ≤ cfg.sinkSize + cfg.windowSize from h), VerifierConfig.budget, Nat.add_sub_cancel_left]

theorem run_trim (cfg : VerifierConfig) (pos : Nat) (logits : Option Λ) (h : tokens.length = entries.length) :
    (trimCacheInPlace cfg).run (held entries tokens pos logits) =
      (.ok (), held (SinkWindow.trim cfg.sinkSize cfg.windowSize entries)
        (SinkWindow.trim cfg.sinkSize cfg.windowSize tokens) pos logits) := by
  unfold trimCacheInPlace
  rw [Proc.run_get_bind]
  by_cases hle : entries.length ≤ cfg.budget
  · rw [SinkWindow.trim_of_le _ _ hle, SinkWindow.trim_of_le _ _ (by rw [h]; exact hle)]
    simp only [held, hle, ↓reduceIte]
    rfl
  · simp only [held, hle, ne_eq, not_true_eq_false, ↓reduceIte]
    rw [sinkAndTail_trim entries hle]
    have hlen := SinkWindow.length_trim cfg.sinkSize cfg.windowSize entries
    have hbud : (SinkWindow.trim cfg.sinkSize cfg.windowSize entries).length = cfg.budget := by
      unfold VerifierConfig.budget at hle ⊢
      omega
    rw [← hbud, Proc.run_modify, hbud, sinkAndTail_trim tokens (by rw [h]; exact hle)]

/-- The logits after a non-empty list of tokens. -/
def lastLogits (m : KvModel κ Λ) (pos : Nat) (entries : List κ) (tokens : List Token) : Option Λ :=
  (m.forward pos entries tokens).2.getLast?

theorem run_prefill (m : KvModel κ Λ) (cfg : VerifierConfig) {promptIds : List Token} (hne : promptIds ≠ [])
    (v : SinkWindowVerifier κ Λ) :
    (prefill m cfg promptIds).run v =
      (.ok (), held (SinkWindow.trim cfg.sinkSize cfg.windowSize (m.forward 0 [] promptIds).1)
        (SinkWindow.trim cfg.sinkSize cfg.windowSize promptIds) promptIds.length (lastLogits m 0 [] promptIds)) := by
  unfold prefill
  rw [if_neg hne]
  have hreset : (reset : Proc (SinkWindowVerifier κ Λ) VerifierError Unit).run v = (.ok (), { cache := some [] }) := by
    unfold reset assertCacheInvariant1
    rw [Proc.run_modify_bind, Proc.run_get_bind, if_neg (by simp [cacheSeqLength])]
    rfl
  have hlen : promptIds.length = (m.forward 0 [] promptIds).1.length := by simp
  have hheld : (⟨some (m.forward 0 [] promptIds).1, promptIds.length, promptIds.length,
      (m.forward 0 [] promptIds).2.getLast?, promptIds⟩ : SinkWindowVerifier κ Λ) =
      held (m.forward 0 [] promptIds).1 promptIds promptIds.length (lastLogits m 0 [] promptIds) := by
    unfold held lastLogits
    rw [← hlen]
  rw [Proc.run_bind_ok hreset, Proc.run_modify_bind]
  dsimp only [Option.map_some, Option.getD_some]
  rw [hheld, Proc.run_bind_ok (run_trim cfg _ _ hlen)]
  exact run_inv1 (by simp only [SinkWindow.length_trim, hlen])

theorem run_forwardBlock (h : tokens.length = entries.length) {ts : List Token} (hne : ts ≠ []) :
    (forwardBlock m ts).run (held entries tokens pos logits) =
      (.ok (m.forward pos entries ts).2,
        held (m.forward pos entries ts).1 (tokens ++ ts) pos logits) := by
  unfold forwardBlock
  have hheld : (⟨some (m.forward pos entries ts).1, entries.length + ts.length, pos, logits, tokens ++ ts⟩ :
      SinkWindowVerifier κ Λ) = held (m.forward pos entries ts).1 (tokens ++ ts) pos logits := by
    unfold held
    rw [KvModel.length_forward]
  rw [Proc.run_get_bind]
  dsimp only [held]
  rw [if_neg hne, Proc.run_modify_bind]
  dsimp only
  rw [hheld, Proc.run_bind_ok (run_inv1 (by simp [h]))]
  rfl

private theorem run_dropTail {drop : Nat} (hd : drop ≤ entries.length) :
    (dropTail drop).run (held entries tokens pos logits) =
      (.ok (), { held entries tokens pos logits with
        cache := some (entries.take (entries.length - drop)),
        cachedTokenSequence := tokens.take (tokens.length - drop) }) := by
  unfold dropTail
  by_cases h0 : 0 < drop
  · rw [if_pos h0]
    have htrunc : (truncateTailInPlace drop).run (held entries tokens pos logits) =
        (.ok (), { held entries tokens pos logits with cache := some (entries.take (entries.length - drop)) }) := by
      unfold truncateTailInPlace
      have hnot : ¬ entries.length < drop := by omega
      rw [Proc.run_get_bind]
      simp only [held, hnot, ↓reduceIte]
      rfl
    rw [Proc.run_bind_ok htrunc]
    rfl
  · rw [if_neg h0]
    obtain rfl : drop = 0 := by omega
    simp [held]

theorem run_commitOrTruncate (cfg : VerifierConfig) (pos : Nat) (logits : Option Λ)
    (h : tokens.length = entries.length) {forwarded accepted : Nat}
    (ha : accepted ≤ forwarded) (hf : forwarded ≤ entries.length) :
    (commitOrTruncate cfg forwarded accepted).run (held entries tokens pos logits) =
      (.ok (), held
        (SinkWindow.trim cfg.sinkSize cfg.windowSize (entries.take (entries.length - (forwarded - accepted))))
        (SinkWindow.trim cfg.sinkSize cfg.windowSize (tokens.take (entries.length - (forwarded - accepted))))
        (pos + accepted) logits) := by
  unfold commitOrTruncate
  rw [if_neg (by omega)]
  dsimp only
  rw [Proc.run_bind_ok (run_dropTail (by omega)), Proc.run_modify_bind]
  generalize hk : entries.length - (forwarded - accepted) = k
  have hlen : (entries.take k).length = k := by
    rw [List.length_take]
    omega
  have hlen' : (tokens.take k).length = k := by
    rw [List.length_take, h]
    omega
  have hheld : (⟨some (entries.take k), entries.length - (forwarded - accepted), pos + accepted, logits,
      tokens.take (tokens.length - (forwarded - accepted))⟩ : SinkWindowVerifier κ Λ) =
      held (entries.take k) (tokens.take k) (pos + accepted) logits := by
    unfold held
    rw [hlen, h, hk]
  have hrun := run_trim cfg (pos + accepted) logits (hlen'.trans hlen.symm)
  rw [← hheld] at hrun
  exact (Proc.run_bind_ok hrun).trans (run_inv1 (by simp only [SinkWindow.length_trim, hlen, hlen']))

theorem run_appendBlock (h : tokens.length = entries.length) {ts : List Token} (hne : ts ≠ []) :
    (appendBlock m cfg ts).run (held entries tokens pos logits) =
      (.ok (), held (SinkWindow.trim cfg.sinkSize cfg.windowSize (m.forward pos entries ts).1)
        (SinkWindow.trim cfg.sinkSize cfg.windowSize (tokens ++ ts)) (pos + ts.length)
        (lastLogits m pos entries ts)) := by
  unfold appendBlock
  have hlen : (tokens ++ ts).length = (m.forward pos entries ts).1.length := by simp [h]
  rw [Proc.run_bind_ok (run_forwardBlock h hne),
    Proc.run_bind_ok (run_commitOrTruncate cfg _ _ hlen (Nat.le_refl _) (by simp))]
  simp only [Nat.sub_self, Nat.sub_zero, List.take_length]
  rw [← hlen, List.take_length]
  rfl

end SinkWindowVerifier

end KakeyaEngine
