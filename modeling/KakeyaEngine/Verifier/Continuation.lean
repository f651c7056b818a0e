import KakeyaEngine.Verifier.Model

/-!
# Cutting a history into calls

A history reaches the verifier in one call or in several.  Every call forwards its tokens against the cache that the call
before it has trimmed, so a token sees a trimmed history exactly when its call starts beyond sink and window.  `walk`
forwards the history token by token and trims where a call starts; the calls and the walk hold the same in the end
(`absorbAll_eq`), and the cuts within the first `sink + window` tokens do not matter (`walk_congr`).  Any other cut can be
seen in the result: `probe` is a model that carries the number of entries that were visible at a position to the end.
-/

namespace KakeyaEngine

variable {κ Λ : Type} {m : KvModel κ Λ} {cfg : VerifierConfig}

/-- The positions at which the calls start. -/
def startsFrom : Nat → List (List Token) → List Nat
  | _, [] => []
  | pos, ts :: calls => pos :: startsFrom (pos + ts.length) calls

theorem le_of_mem_startsFrom {pos q : Nat} {calls : List (List Token)} (h : q ∈ startsFrom pos calls) : pos ≤ q := by
  induction calls generalizing pos with
  | nil => cases h
  | cons ts calls ih =>
    simp only [startsFrom, List.mem_cons] at h
    rcases h with rfl | h
    · omega
    · have := ih h
      omega

theorem lt_of_mem_startsFrom {pos q : Nat} {calls : List (List Token)} (hne : ∀ ts ∈ calls, ts ≠ [])
    (h : q ∈ startsFrom pos calls) : q < pos + calls.flatten.length := by
  induction calls generalizing pos with
  | nil => cases h
  | cons ts calls ih =>
    have hpos := List.length_pos_of_ne_nil (hne ts (by simp))
    simp only [startsFrom, List.mem_cons] at h
    rw [List.flatten_cons, List.length_append]
    rcases h with rfl | h
    · omega
    · have := ih (fun u hu => hne u (by simp [hu])) h
      omega

namespace SinkWindowVerifier

/-- What a call with more tokens leaves of a verifier. -/
def absorb (m : KvModel κ Λ) (cfg : VerifierConfig) (v : SinkWindowVerifier κ Λ) (ts : List Token) :
    SinkWindowVerifier κ Λ :=
  held (SinkWindow.trim cfg.sinkSize cfg.windowSize (m.forward v.nextGlobalPosition (v.cache.getD []) ts).1)
    (SinkWindow.trim cfg.sinkSize cfg.windowSize (v.cachedTokenSequence ++ ts)) (v.nextGlobalPosition + ts.length)
    (lastLogits m v.nextGlobalPosition (v.cache.getD []) ts)

/-- A verifier that holds nothing. -/
def empty : SinkWindowVerifier κ Λ := held [] [] 0 none

/-- A verifier between two calls: as many tokens as entries. -/
def Standing (v : SinkWindowVerifier κ Λ) : Prop :=
  ∃ entries tokens pos logits, tokens.length = entries.length ∧ v = held entries tokens pos logits

theorem empty_standing : (empty : SinkWindowVerifier κ Λ).Standing := ⟨[], [], 0, none, rfl, rfl⟩

variable (m cfg) in
theorem absorb_standing {v : SinkWindowVerifier κ Λ} (h : v.Standing) (ts : List Token) :
    (absorb m cfg v ts).Standing := by
  obtain ⟨entries, tokens, pos, logits, hlen, rfl⟩ := h
  refine ⟨_, _, _, _, ?_, rfl⟩
  simp [SinkWindow.length_trim, held, hlen]

variable (m cfg) in
theorem prefill_absorb {ts : List Token} (hne : ts ≠ []) (v : SinkWindowVerifier κ Λ) :
    (prefill m cfg ts).run v = (.ok (), absorb m cfg empty ts) := by
  rw [run_prefill m cfg hne]
  simp [absorb, empty, held]

variable (m cfg) in
theorem appendBlock_absorb {v : SinkWindowVerifier κ Λ} (h : v.Standing) {ts : List Token} (hne : ts ≠ []) :
    (appendBlock m cfg ts).run v = (.ok (), absorb m cfg v ts) := by
  obtain ⟨entries, tokens, pos, logits, hlen, rfl⟩ := h
  exact run_appendBlock hlen hne

/-- What all the calls leave. -/
def absorbAll (m : KvModel κ Λ) (cfg : VerifierConfig) (v : SinkWindowVerifier κ Λ) (calls : List (List Token)) :
    SinkWindowVerifier κ Λ :=
  calls.foldl (absorb m cfg) v

end SinkWindowVerifier

/-! ### The walk -/

namespace KvModel

/-- The entries that the token at a position sees. -/
def seen (cfg : VerifierConfig) (cuts : List Nat) (pos : Nat) (cache : List κ) : List κ :=
  if pos ∈ cuts then SinkWindow.trim cfg.sinkSize cfg.windowSize cache else cache

/-- Forwards the tokens one by one, and trims the cache at the cuts. -/
def walk (m : KvModel κ Λ) (cfg : VerifierConfig) (cuts : List Nat) : Nat → List κ → List Token → List κ × List Λ
  | _, cache, [] => (cache, [])
  | pos, cache, t :: ts =>
    let visible := seen cfg cuts pos cache
    ((walk m cfg cuts (pos + 1) (visible ++ [m.entry t pos visible]) ts).1,
      m.logits t pos visible :: (walk m cfg cuts (pos + 1) (visible ++ [m.entry t pos visible]) ts).2)

variable {cuts cuts' : List Nat}

theorem walk_append (pos : Nat) (cache : List κ) (xs ys : List Token) :
    m.walk cfg cuts pos cache (xs ++ ys) =
      ((m.walk cfg cuts (pos + xs.length) (m.walk cfg cuts pos cache xs).1 ys).1,
        (m.walk cfg cuts pos cache xs).2 ++ (m.walk cfg cuts (pos + xs.length) (m.walk cfg cuts pos cache xs).1 ys).2) := by
  induction xs generalizing pos cache with
  | nil => rfl
  | cons x xs ih =>
    simp only [List.cons_append, walk, ih, List.length_cons]
    rw [show pos + (xs.length + 1) = pos + 1 + xs.length by omega]

/-- Without a cut on the way the walk is a forward pass. -/
theorem walk_forward {pos : Nat} {ts : List Token} (h : ∀ q, pos ≤ q → q < pos + ts.length → q ∉ cuts)
    (cache : List κ) : m.walk cfg cuts pos cache ts = m.forward pos cache ts := by
  induction ts generalizing pos cache with
  | nil => rfl
  | cons t ts ih =>
    have hpos : pos ∉ cuts := h pos (Nat.le_refl _) (by simp)
    have hrest : ∀ c, m.walk cfg cuts (pos + 1) c ts = m.forward (pos + 1) c ts :=
      ih fun q h1 h2 => h q (by omega) (by simp only [List.length_cons]; omega)
    simp only [walk, forward, seen, hpos, ↓reduceIte, hrest]

/-- A cut at the start of a forward pass trims the cache before it. -/
theorem walk_call {pos : Nat} {ts : List Token} (hne : ts ≠ []) (hcut : pos ∈ cuts)
    (h : ∀ q, pos < q → q < pos + ts.length → q ∉ cuts) (cache : List κ) :
    m.walk cfg cuts pos cache ts = m.forward pos (SinkWindow.trim cfg.sinkSize cfg.windowSize cache) ts := by
  cases ts with
  | nil => exact absurd rfl hne
  | cons t ts =>
    have hrest : ∀ c, m.walk cfg cuts (pos + 1) c ts = m.forward (pos + 1) c ts :=
      walk_forward fun q h1 h2 => h q (by omega) (by simp only [List.length_cons]; omega)
    simp only [walk, forward, seen, hcut, ↓reduceIte, hrest]

/-- Only the cuts beyond sink and window matter. -/
theorem walk_congr {pos : Nat} {ts : List Token}
    (h : ∀ q, cfg.budget < q → pos ≤ q → q < pos + ts.length → (q ∈ cuts ↔ q ∈ cuts')) {cache : List κ}
    (hlen : cache.length ≤ pos) : m.walk cfg cuts pos cache ts = m.walk cfg cuts' pos cache ts := by
  induction ts generalizing pos cache with
  | nil => rfl
  | cons t ts ih =>
    have hseen : seen cfg cuts pos cache = seen cfg cuts' pos cache := by
      by_cases hb : cfg.budget < pos
      · have hiff := h pos hb (Nat.le_refl _) (by simp)
        simp only [seen, hiff]
      · -- the cache is still whole, so a cut changes nothing
        have htrim : SinkWindow.trim cfg.sinkSize cfg.windowSize cache = cache :=
          SinkWindow.trim_of_le _ _ (show cache.length ≤ cfg.budget by omega)
        simp only [seen, htrim, ite_self]
    have hle : (seen cfg cuts' pos cache).length ≤ pos := by
      have := SinkWindow.length_trim cfg.sinkSize cfg.windowSize cache
      unfold seen
      split <;> omega
    simp only [walk, hseen]
    rw [ih (fun q h1 h2 h3 => h q h1 (by omega) (by simp only [List.length_cons]; omega))
      (by rw [List.length_append, List.length_singleton]; omega)]

end KvModel

namespace SinkWindowVerifier

open KvModel (walk walk_append walk_call walk_congr)

variable (m cfg) in
/-- The calls hold in the end what the walk with their starts as cuts holds. -/
theorem absorbAll_walk {calls : List (List Token)} (hne : ∀ ts ∈ calls, ts ≠ []) (pos : Nat) (cache : List κ)
    (hlen : cache.length ≤ pos) (tokens : List Token) (logits : Option Λ) :
    absorbAll m cfg (held (SinkWindow.trim cfg.sinkSize cfg.windowSize cache)
        (SinkWindow.trim cfg.sinkSize cfg.windowSize tokens) pos logits) calls =
      held (SinkWindow.trim cfg.sinkSize cfg.windowSize
          (m.walk cfg (startsFrom pos calls) pos cache calls.flatten).1)
        (SinkWindow.trim cfg.sinkSize cfg.windowSize (tokens ++ calls.flatten)) (pos + calls.flatten.length)
        ((m.walk cfg (startsFrom pos calls) pos cache calls.flatten).2.getLast?.or logits) := by
  induction calls generalizing pos cache tokens logits with
  | nil => simp [absorbAll, walk]
  | cons ts calls ih =>
    have hts : ts ≠ [] := hne ts (by simp)
    have hpos := List.length_pos_of_ne_nil hts
    -- the first call, as a walk
    have hfirst : m.walk cfg (startsFrom pos (ts :: calls)) pos cache ts =
        m.forward pos (SinkWindow.trim cfg.sinkSize cfg.windowSize cache) ts := by
      refine walk_call hts (by simp [startsFrom]) ?_ cache
      intro q h1 h2 hq
      simp only [startsFrom, List.mem_cons] at hq
      rcases hq with rfl | hq
      · omega
      · have := le_of_mem_startsFrom hq
        omega
    have hlen' : (m.forward pos (SinkWindow.trim cfg.sinkSize cfg.windowSize cache) ts).1.length ≤ pos + ts.length := by
      have := SinkWindow.length_trim cfg.sinkSize cfg.windowSize cache
      rw [KvModel.length_forward]
      omega
    -- the other calls do not see its start
    have hrest : m.walk cfg (startsFrom pos (ts :: calls)) (pos + ts.length)
        (m.forward pos (SinkWindow.trim cfg.sinkSize cfg.windowSize cache) ts).1 calls.flatten =
        m.walk cfg (startsFrom (pos + ts.length) calls) (pos + ts.length)
          (m.forward pos (SinkWindow.trim cfg.sinkSize cfg.windowSize cache) ts).1 calls.flatten := by
      refine walk_congr (fun q _ h1 _ => ?_) hlen'
      simp only [startsFrom, List.mem_cons, or_iff_right_iff_imp]
      omega
    have hcall : absorb m cfg (held (SinkWindow.trim cfg.sinkSize cfg.windowSize cache)
        (SinkWindow.trim cfg.sinkSize cfg.windowSize tokens) pos logits) ts =
        held (SinkWindow.trim cfg.sinkSize cfg.windowSize
            (m.forward pos (SinkWindow.trim cfg.sinkSize cfg.windowSize cache) ts).1)
          (SinkWindow.trim cfg.sinkSize cfg.windowSize (tokens ++ ts)) (pos + ts.length)
          (m.forward pos (SinkWindow.trim cfg.sinkSize cfg.windowSize cache) ts).2.getLast? := by
      simp only [absorb, held, Option.getD_some, lastLogits, SinkWindow.trim_append]
    have hind := ih (fun u hu => hne u (by simp [hu])) _ _ hlen' (tokens ++ ts)
      (m.forward pos (SinkWindow.trim cfg.sinkSize cfg.windowSize cache) ts).2.getLast?
    unfold absorbAll at hind ⊢
    rw [List.foldl_cons, hcall, hind, List.flatten_cons, walk_append, hfirst, hrest, List.append_assoc,
      List.length_append, Nat.add_assoc]
    congr 1
    -- the last row is one of the other calls, or of the first one
    dsimp only
    rw [List.getLast?_append, Option.or_assoc]
    congr 1
    have hrow : (m.forward pos (SinkWindow.trim cfg.sinkSize cfg.windowSize cache) ts).2 ≠ [] := by
      intro h
      have := congrArg List.length h
      rw [KvModel.length_logits, List.length_nil] at this
      omega
    rw [List.getLast?_eq_some_getLast hrow]
    rfl

/-- The calls with which a session starts. -/
theorem absorbAll_eq {calls : List (List Token)} (hne : ∀ ts ∈ calls, ts ≠ []) :
    absorbAll m cfg empty calls =
      held (SinkWindow.trim cfg.sinkSize cfg.windowSize (m.walk cfg (startsFrom 0 calls) 0 [] calls.flatten).1)
        (SinkWindow.trim cfg.sinkSize cfg.windowSize calls.flatten) calls.flatten.length
        (m.walk cfg (startsFrom 0 calls) 0 [] calls.flatten).2.getLast? := by
  have hnil : ∀ {α : Type}, SinkWindow.trim cfg.sinkSize cfg.windowSize ([] : List α) = [] :=
    SinkWindow.trim_of_le _ _ (Nat.zero_le _)
  have h := absorbAll_walk m cfg hne 0 [] (Nat.le_refl _) [] none
  rw [hnil, hnil] at h
  simpa [empty] using h

/-- Two ways of cutting a history agree for every model when they have the same cuts beyond sink and window. -/
theorem absorbAll_congr {a b : List (List Token)} (ha : ∀ ts ∈ a, ts ≠ []) (hb : ∀ ts ∈ b, ts ≠ [])
    (hflat : a.flatten = b.flatten) (h : ∀ q, cfg.budget < q → (q ∈ startsFrom 0 a ↔ q ∈ startsFrom 0 b)) :
    absorbAll m cfg empty a = absorbAll m cfg empty b := by
  rw [absorbAll_eq ha, absorbAll_eq hb, hflat, walk_congr (fun q h1 _ _ => h q h1) (Nat.le_refl 0)]

end SinkWindowVerifier

/-! ### Seeing a cut -/

namespace KvModel

/-- The model that notes how many entries are visible at position `q` and carries the number on. -/
def probe (q : Nat) : KvModel Nat Nat where
  entry _ pos visible := if pos = q then visible.length else visible.getLastD 0
  logits _ pos visible := if pos = q then visible.length else visible.getLastD 0

/-- The cache of a walk is never shorter than its position or than one more than sink and window. -/
theorem le_length_walk (m : KvModel κ Λ) (cfg : VerifierConfig) (cuts : List Nat) {pos : Nat} {cache : List κ} (h : min pos (cfg.budget + 1) ≤ cache.length)
    (ts : List Token) : min (pos + ts.length) (cfg.budget + 1) ≤ (m.walk cfg cuts pos cache ts).1.length := by
  induction ts generalizing pos cache with
  | nil => exact h
  | cons t ts ih =>
    have htrim := SinkWindow.length_trim cfg.sinkSize cfg.windowSize cache
    have hbud : cfg.budget = cfg.sinkSize + cfg.windowSize := rfl
    have hgrow : min (pos + 1) (cfg.budget + 1) ≤
        (seen cfg cuts pos cache ++ [m.entry t pos (seen cfg cuts pos cache)]).length := by
      rw [List.length_append, List.length_singleton]
      unfold seen
      split <;> omega
    simp only [walk, List.length_cons]
    rw [show pos + (ts.length + 1) = pos + 1 + ts.length by omega]
    exact ih hgrow

/-- Trimming keeps the last entry. -/
theorem getLast?_trim {α : Type} (l : List α) :
    (SinkWindow.trim cfg.sinkSize cfg.windowSize l).getLast? = l.getLast? := by
  have hw := cfg.window_pos
  unfold SinkWindow.trim
  split
  · rfl
  · rename_i h
    have hne : l.drop (l.length - cfg.windowSize) ≠ [] := by
      intro hnil
      have := congrArg List.length hnil
      rw [List.length_drop, List.length_nil] at this
      omega
    rw [List.getLast?_append_of_ne_nil _ hne, List.getLast?_drop, if_neg (by omega)]

private theorem getLast?_seen (cfg : VerifierConfig) (cuts : List Nat) (pos : Nat) (cache : List κ) :
    (seen cfg cuts pos cache).getLast? = cache.getLast? := by
  unfold seen
  split
  · exact getLast?_trim cache
  · rfl

/-- Past the position of the probe, the number is carried on. -/
theorem probe_carries {q pos w : Nat} {cuts cache : List Nat} (hq : q < pos) (h : cache.getLast? = some w)
    (ts : List Token) : ((probe q).walk cfg cuts pos cache ts).1.getLast? = some w := by
  induction ts generalizing pos cache with
  | nil => exact h
  | cons t ts ih =>
    simp only [walk]
    apply ih (by omega)
    rw [List.getLast?_concat]
    have hseen := getLast?_seen cfg cuts pos cache
    simp only [probe, show ¬ pos = q by omega, ↓reduceIte, List.getLastD_eq_getLast?, hseen, h, Option.getD_some]

/-- The probe tells whether a call starts at its position. -/
theorem probe_detects {q : Nat} (hq : cfg.budget < q) {ts : List Token} (hlen : q < ts.length) (cuts : List Nat) :
    ∃ w, ((probe q).walk cfg cuts 0 [] ts).1.getLast? = some w ∧ (q ∈ cuts ↔ w = cfg.budget) := by
  have hsplit : ts = ts.take q ++ ts[q] :: ts.drop (q + 1) := by
    rw [← List.drop_eq_getElem_cons hlen, List.take_append_drop]
  have htake : (ts.take q).length = q := by rw [List.length_take]; omega
  have hlong : min (0 + (ts.take q).length) (cfg.budget + 1) ≤
      ((probe q).walk cfg cuts 0 [] (ts.take q)).1.length := le_length_walk (probe q) cfg cuts (by simp) (ts.take q)
  rw [htake, Nat.zero_add] at hlong
  generalize hc : ((probe q).walk cfg cuts 0 [] (ts.take q)).1 = cache at hlong
  refine ⟨(seen cfg cuts q cache).length, ?_, ?_⟩
  · rw [hsplit, walk_append, htake, Nat.zero_add, hc]
    simp only [walk]
    refine probe_carries (by omega) ?_ _
    rw [List.getLast?_concat]
    simp [probe]
  · have htrim := SinkWindow.length_trim cfg.sinkSize cfg.windowSize cache
    have hbud : cfg.budget = cfg.sinkSize + cfg.windowSize := rfl
    unfold seen
    split
    · rename_i hin
      exact ⟨fun _ => by omega, fun _ => hin⟩
    · rename_i hout
      exact ⟨fun h => absurd h hout, fun h => by omega⟩

end KvModel

/-- A cut beyond sink and window shows in what the verifier holds. -/
theorem SinkWindowVerifier.cuts_of_absorbAll {a b : List (List Token)} (ha : ∀ ts ∈ a, ts ≠ [])
    (hb : ∀ ts ∈ b, ts ≠ []) (hflat : a.flatten = b.flatten)
    (h : ∀ q, absorbAll (KvModel.probe q) cfg empty a = absorbAll (KvModel.probe q) cfg empty b) (q : Nat)
    (hq : cfg.budget < q) : q ∈ startsFrom 0 a ↔ q ∈ startsFrom 0 b := by
  by_cases hlen : q < a.flatten.length
  · obtain ⟨w, hw, hcut⟩ := KvModel.probe_detects hq hlen (startsFrom 0 a)
    obtain ⟨w', hw', hcut'⟩ := KvModel.probe_detects hq (hflat ▸ hlen) (startsFrom 0 b)
    have heq := congrArg SinkWindowVerifier.cache (h q)
    rw [absorbAll_eq ha, absorbAll_eq hb] at heq
    have hlast := congrArg List.getLast? (Option.some.inj heq)
    rw [KvModel.getLast?_trim, KvModel.getLast?_trim, hw, hw'] at hlast
    rw [hcut, hcut', Option.some.inj hlast]
  · constructor
    · intro h
      have := lt_of_mem_startsFrom ha h
      omega
    · intro h
      have := lt_of_mem_startsFrom hb h
      rw [← hflat] at this
      omega

end KakeyaEngine
