import KakeyaEngine.Speculative.Equivalence
import KakeyaEngine.Speculative.Fused

/-!
# When the fused loops are greedy decoding

Every block of a fused loop commits a part of the greedy stream of the prefilled target, and the cache follows it: with
`Prefilled.holds` each of the four loops has one lemma for an iteration.  The loops on one host stop after the block that
holds an EOS, with all that the block committed; they return the greedy decode exactly when that block ends with the
EOS.  The distributed decoder cuts the block, and always returns it.
-/

namespace KakeyaEngine

variable {κ Λ : Type}

/-! ### The greedy stream of a prefilled target -/

namespace Prefilled

variable (m : KvModel κ Λ) (argmax : Λ → Token) (P : Prefilled κ Λ)

/-- The cache once the tokens `g` follow the prompt. -/
def entries (g : List Token) : List κ := (m.forward P.cache.length P.cache g).1

/-- The logits after the tokens `g`. -/
def row (g : List Token) : Λ := (m.forward P.cache.length P.cache g).2.getLast?.getD P.logits

/-- The logits of the tokens of a block that follows `g`. -/
def rows (g d : List Token) : List Λ := (m.forward (P.entries m g).length (P.entries m g) d).2

/-- The greedy choice after the tokens `g`. -/
def greedyNext (g : List Token) : Token := argmax (P.row m g)

variable {m P}

@[simp] theorem length_entries (g : List Token) : (P.entries m g).length = P.cache.length + g.length :=
  KvModel.length_forward _ _ _

@[simp] theorem length_rows (g d : List Token) : (P.rows m g d).length = d.length := KvModel.length_logits _ _ _

theorem forward_entries (g d : List Token) :
    (m.forward (P.entries m g).length (P.entries m g) d).1 = P.entries m (g ++ d) := by
  unfold entries
  rw [KvModel.forward_append, KvModel.length_forward]

theorem take_entries (g d : List Token) :
    (P.entries m (g ++ d)).take (P.cache.length + g.length) = P.entries m g :=
  KvModel.take_forward _ _ _ _

theorem rows_cons (g : List Token) (t : Token) (d : List Token) :
    P.rows m g (t :: d) = P.row m (g ++ [t]) :: P.rows m (g ++ [t]) d := by
  have hrow : P.row m (g ++ [t]) = m.logits t (P.entries m g).length (P.entries m g) := by
    unfold row
    rw [KvModel.forward_append, length_entries]
    simp [KvModel.forward, entries]
  have hcache : P.entries m (g ++ [t]) = P.entries m g ++ [m.entry t (P.entries m g).length (P.entries m g)] := by
    rw [← forward_entries]
    rfl
  unfold rows
  rw [hrow, hcache, List.length_append, List.length_singleton]
  rfl

theorem rows_append (g d e : List Token) : P.rows m g (d ++ e) = P.rows m g d ++ P.rows m (g ++ d) e := by
  induction d generalizing g with
  | nil => simp [rows, KvModel.forward]
  | cons t d ih =>
    rw [List.cons_append, rows_cons, rows_cons, ih, List.cons_append, List.append_assoc]
    rfl

theorem getLast_rows {g d : List Token} (hd : d ≠ []) : (P.rows m g d).getLast? = some (P.row m (g ++ d)) := by
  rw [← List.dropLast_append_getLast hd, rows_append, rows_cons, ← List.append_assoc]
  simp [rows, KvModel.forward]

/-- The verifier of a prompt of `p` tokens that holds the entries of the tokens `g` after it. -/
def holds (m : KvModel κ Λ) (P : Prefilled κ Λ) (p : Nat) (g : List Token) (snapshot : Option (List κ)) :
    RestoredVerifier κ Λ :=
  ⟨some (P.entries m g), p + g.length, some (P.row m g), snapshot⟩

end Prefilled

open Prefilled (holds)

namespace RestoredVerifier

variable {m : KvModel κ Λ} {P : Prefilled κ Λ} {restored : List Token → Prefilled κ Λ} {p : Nat}

variable (m restored) in
theorem run_prefill {promptIds : List Token} (hne : promptIds ≠ []) (v : RestoredVerifier κ Λ) :
    (prefill restored promptIds).run v = (.ok (), holds m (restored promptIds) promptIds.length [] none) := by
  unfold prefill
  rw [if_neg hne]
  rfl

theorem run_forwardBlock {d : List Token} (hd : d ≠ []) (g : List Token) (n : Nat) (row : Option Λ)
    (s : Option (List κ)) :
    (forwardBlock m d).run ⟨some (P.entries m g), n, row, s⟩ =
      (.ok (P.rows m g d), ⟨some (P.entries m (g ++ d)), n, row, s⟩) := by
  unfold forwardBlock
  rw [Proc.run_get_bind]
  dsimp only
  rw [if_neg hd, Proc.run_modify_bind, Prefilled.forward_entries]
  rfl

theorem run_forwardBlockLazy (d g : List Token) (n : Nat) (row : Option Λ) (s : Option (List κ)) :
    (forwardBlockLazy m d).run ⟨some (P.entries m g), n, row, s⟩ =
      (.ok (P.rows m g d), ⟨some (P.entries m (g ++ d)), n, row, some (P.entries m g)⟩) := by
  unfold forwardBlockLazy
  rw [Proc.run_get_bind]
  dsimp only
  rw [Proc.run_modify_bind, Prefilled.forward_entries]
  rfl

/-- Trimming the rejected part of a block leaves the entries of the accepted part. -/
theorem take_accepted {g d : List Token} {k n : Nat} (hk : k ≤ d.length) (hn : n = d.length - k) :
    (P.entries m (g ++ d)).take ((P.entries m (g ++ d)).length - n) = P.entries m (g ++ d.take k) := by
  have htake := Prefilled.take_entries (m := m) (P := P) (g ++ d.take k) (d.drop k)
  rw [List.append_assoc, List.take_append_drop] at htake
  rw [← htake]
  congr 1
  simp only [Prefilled.length_entries, List.length_append, List.length_take]
  omega

theorem run_commitOrTruncate {g d : List Token} {k : Nat} (hk : k ≤ d.length) (n : Nat) (row : Option Λ)
    (s : Option (List κ)) :
    (commitOrTruncate d.length k).run ⟨some (P.entries m (g ++ d)), n, row, s⟩ =
      (.ok (), ⟨some (P.entries m (g ++ d.take k)), n + k, row, s⟩) := by
  unfold commitOrTruncate
  rw [if_neg (by omega), Proc.run_modify]
  simp only [trimPromptCache, Option.map_some, take_accepted hk rfl]

theorem run_appendToken (t : Token) (g : List Token) (row : Option Λ) (s : Option (List κ)) :
    (appendToken m t).run ⟨some (P.entries m g), p + g.length, row, s⟩ = (.ok (), holds m P p (g ++ [t]) s) := by
  have hcommit := run_commitOrTruncate (m := m) (P := P) (g := g) (d := [t]) (Nat.le_refl _) (p + g.length) row s
  unfold appendToken
  rw [Proc.run_bind_ok (run_forwardBlock (by simp) _ _ _ _)]
  rw [List.length_singleton, List.take_of_length_le (by simp)] at hcommit
  rw [Proc.run_bind_ok hcommit, Proc.run_modify, Prefilled.getLast_rows (by simp)]
  simp only [holds, List.length_append, List.length_singleton, Nat.add_assoc]

end RestoredVerifier

namespace Fused

variable {m : KvModel κ Λ} {argmax : Λ → Token} {P : Prefilled κ Λ} {o : FusedOptions} {p : Nat}

/-! ### Accepting a block -/

/-- The loop over a block accepts what the greedy choices match, and ends with the logits after it. -/
theorem acceptLoop_rows (g d : List Token) :
    SpeculativeDecoder.acceptLoop argmax (P.row m g) d (P.rows m g d) =
      (Greedy.matched (P.greedyNext m argmax) g d, P.row m (g ++ d.take (Greedy.matched (P.greedyNext m argmax) g d))) := by
  induction d generalizing g with
  | nil => simp [SpeculativeDecoder.acceptLoop, Greedy.matched]
  | cons t d ih =>
    rw [Prefilled.rows_cons]
    unfold Greedy.matched SpeculativeDecoder.acceptLoop
    by_cases ht : argmax (P.row m g) = t
    · have ht' : P.greedyNext m argmax g = t := ht
      rw [if_pos ht, if_pos ht', ih, List.take_succ_cons, List.append_assoc]
      rfl
    · have ht' : ¬ P.greedyNext m argmax g = t := ht
      rw [if_neg ht, if_neg ht', List.take_zero, List.append_nil]

theorem cumprod_zero_sum (l : List Nat) : (cumprod 0 l).sum = 0 := by
  induction l with
  | nil => rfl
  | cons x l ih => simp [cumprod, ih]

/-- The in-graph acceptance is the loop over the block. -/
theorem leadingMatches_eq {d : List Token} {rows : List Λ} (h : rows.length = d.length) (prev : Λ) :
    leadingMatches argmax (prev :: rows) d = (SpeculativeDecoder.acceptLoop argmax prev d rows).1 ∧
      (prev :: rows)[(SpeculativeDecoder.acceptLoop argmax prev d rows).1]? =
        some (SpeculativeDecoder.acceptLoop argmax prev d rows).2 := by
  induction d generalizing prev rows with
  | nil =>
    obtain rfl : rows = [] := List.eq_nil_of_length_eq_zero h
    exact ⟨rfl, rfl⟩
  | cons t d ih =>
    obtain ⟨row, rows, rfl⟩ : ∃ row rest, rows = row :: rest := List.exists_cons_of_length_eq_add_one h
    have hlen : rows.length = d.length := by simpa using h
    obtain ⟨hcount, hnext⟩ := ih hlen row
    unfold SpeculativeDecoder.acceptLoop
    by_cases ht : argmax prev = t
    · simp only [ht, ↓reduceIte, List.getElem?_cons_succ]
      refine ⟨?_, hnext⟩
      rw [← hcount]
      simp only [leadingMatches, List.zipWith_cons_cons, ht, ↓reduceIte, cumprod, Nat.one_mul, List.sum_cons]
      exact Nat.add_comm _ _
    · simp only [ht, ↓reduceIte]
      refine ⟨?_, rfl⟩
      simp [leadingMatches, cumprod, ht, cumprod_zero_sum]

/-- The in-graph acceptance reads one row for each token of the block. -/
theorem leadingMatches_take (d : List Token) (rows : List Λ) :
    leadingMatches argmax (rows.take d.length) d = leadingMatches argmax rows d := by
  unfold leadingMatches
  congr 2
  induction d generalizing rows with
  | nil => simp
  | cons t d ih =>
    cases rows with
    | nil => rfl
    | cons row rows => simp only [List.length_cons, List.take_succ_cons, List.zipWith_cons_cons, ih]

variable (m argmax P) in
/-- The in-graph acceptance of a block that follows `g`: the number of accepted tokens, and the logits after them. -/
theorem leadingMatches_rows (g : List Token) {d : List Token} {n : Nat} (hn : n + 1 = d.length) :
    leadingMatches argmax (P.row m g :: (P.rows m g d).take n) d = Greedy.matched (P.greedyNext m argmax) g d ∧
      (P.row m g :: P.rows m g d)[Greedy.matched (P.greedyNext m argmax) g d]? =
        some (P.row m (g ++ d.take (Greedy.matched (P.greedyNext m argmax) g d))) := by
  have hlen : (P.rows m g d).length = d.length := Prefilled.length_rows g d
  have hloop : leadingMatches argmax (P.row m g :: P.rows m g d) d = _ ∧ _ := leadingMatches_eq hlen (P.row m g)
  rw [acceptLoop_rows] at hloop
  rw [← List.take_succ_cons, hn, leadingMatches_take]
  exact hloop

theorem matched_pos (g ds : List Token) :
    0 < Greedy.matched (P.greedyNext m argmax) g (P.greedyNext m argmax g :: ds) := by
  unfold Greedy.matched
  rw [if_pos rfl]
  omega

/-! ### The loop -/

/-- How many tokens are left. -/
def remaining (o : FusedOptions) (g : List Token) : Nat := o.genTokens.toNat - g.length

/-- The block that a plan commits after `g`. -/
def block {σ : Type} (next : List Token → Token) (o : FusedOptions) (plan : Greedy.Plan Token σ) (s : σ)
    (g : List Token) : List Token :=
  Greedy.stream next g (plan.width s g (remaining o g))

section Loop

variable {σ : Type} (m argmax P o p) (plan : Greedy.Plan Token σ) (I : σ → Progress Λ → RestoredVerifier κ Λ → Prop)

/-- The loop left for the greedy loop, or goes on in a state of the plan. -/
def Proceeds (st : Progress Λ) (v : RestoredVerifier κ Λ) : Option σ → Prop
  | none => st.stop = true ∧ st.fallbackToGreedy = true ∧ ∃ snapshot, v = holds m P p st.generated snapshot
  | some s => st.stop = false ∧ st.fallbackToGreedy = false ∧ I s st v

/-- An iteration from `st` in the state `s` of the plan: the block is committed, and the loop stops after an EOS and
proceeds as the plan says otherwise. -/
structure Commits (s : σ) (st st' : Progress Λ) (v' : RestoredVerifier κ Λ) : Prop where
  generated : st'.generated = st.generated ++ block (P.greedyNext m argmax) o plan s st.generated
  eos : (block (P.greedyNext m argmax) o plan s st.generated).any o.eos = true →
    st'.stop = true ∧ st'.fallbackToGreedy = false
  proceeds : (block (P.greedyNext m argmax) o plan s st.generated).any o.eos = false →
    Proceeds m P p I st' v' (plan.after s st.generated (remaining o st.generated))

/-- The loop ended with the tokens `out`, or with the greedy loop to complete them. -/
def Ends (out : List Token) (st : Progress Λ) (v : RestoredVerifier κ Λ) : Prop :=
  (st.fallbackToGreedy = false ∧ st.generated = out) ∨
    (st.fallbackToGreedy = true ∧ (∃ snapshot, v = holds m P p st.generated snapshot) ∧
      st.generated ++ Greedy.upTo o.eos (Greedy.stream (P.greedyNext m argmax) st.generated (remaining o st.generated)) =
        out)

variable {m argmax P o p plan I} {round : Progress Λ → Proc (RestoredVerifier κ Λ) VerifierError (Progress Λ)}

theorem loop_stopped {st : Progress Λ} (h : st.stop = true) (n : Nat) : loop o round n st = pure st := by
  cases n with
  | zero => rfl
  | succ n =>
    unfold loop
    rw [if_neg (by simp [h])]

theorem loop_full {st : Progress Λ} (h : remaining o st.generated = 0) (n : Nat) : loop o round n st = pure st := by
  cases n with
  | zero => rfl
  | succ n =>
    unfold loop
    rw [if_neg (by unfold remaining at h; omega)]

/-- A loop whose iterations commit the blocks of a plan ends with them. -/
theorem run_loop (hfit : plan.Fits)
    (hround : ∀ s st v, I s st v → st.stop = false → 0 < remaining o st.generated →
      ∃ st' v', (round st).run v = (.ok st', v') ∧ Commits m argmax P o p plan I s st st' v')
    (n : Nat) {s : σ} {st : Progress Λ} {v : RestoredVerifier κ Λ} (hI : I s st v) (hstop : st.stop = false)
    (hfb : st.fallbackToGreedy = false) (hn : remaining o st.generated ≤ n) :
    ∃ st' v', (loop o round n st).run v = (.ok st', v') ∧
      Ends m argmax P o p (st.generated ++
        plan.blocks (P.greedyNext m argmax) o.eos n s st.generated (remaining o st.generated)) st' v' ∧
      (st'.fallbackToGreedy = true → ∃ s g r, plan.after s g r = none) := by
  induction n generalizing s st v with
  | zero =>
    refine ⟨st, v, rfl, Or.inl ⟨hfb, ?_⟩, fun h => by rw [hfb] at h; cases h⟩
    simp [Greedy.Plan.blocks]
  | succ n ih =>
    by_cases hr : remaining o st.generated = 0
    · rw [loop_full hr]
      refine ⟨st, v, rfl, Or.inl ⟨hfb, ?_⟩, fun h => by rw [hfb] at h; cases h⟩
      simp [Greedy.Plan.blocks, hr]
    · obtain ⟨st₁, v₁, hrun, hcommits⟩ := hround s st v hI hstop (by omega)
      obtain ⟨hpos, hle⟩ := hfit s st.generated (remaining o st.generated) (by omega)
      have hgen := hcommits.generated
      have hlen : (block (P.greedyNext m argmax) o plan s st.generated).length =
          plan.width s st.generated (remaining o st.generated) := Greedy.length_stream _ _
      have hleft : remaining o st₁.generated = remaining o st.generated -
          (block (P.greedyNext m argmax) o plan s st.generated).length := by
        unfold remaining
        rw [hgen, List.length_append]
        omega
      unfold loop
      rw [if_pos ⟨by unfold remaining at hr; omega, hstop⟩, Proc.run_bind_ok hrun]
      unfold Greedy.Plan.blocks
      rw [if_neg hr]
      dsimp only
      rw [← block]
      by_cases hany : (block (P.greedyNext m argmax) o plan s st.generated).any o.eos = true
      · obtain ⟨hs, hf⟩ := hcommits.eos hany
        rw [if_pos hany, loop_stopped hs]
        exact ⟨st₁, v₁, rfl, Or.inl ⟨hf, hgen⟩, fun h => by rw [hf] at h; cases h⟩
      · rw [if_neg hany, ← List.append_assoc, ← hgen, ← hleft]
        have hproceeds := hcommits.proceeds (by simpa using hany)
        cases hafter : plan.after s st.generated (remaining o st.generated) with
        | none =>
          rw [hafter] at hproceeds
          obtain ⟨hs, hf, hv⟩ := hproceeds
          rw [loop_stopped hs]
          exact ⟨st₁, v₁, rfl, Or.inr ⟨hf, hv, rfl⟩, fun _ => ⟨_, _, _, hafter⟩⟩
        | some s₁ =>
          rw [hafter] at hproceeds
          obtain ⟨hs, hf, hI₁⟩ := hproceeds
          exact ih hI₁ hs hf (by omega)

/-- What a loop returns that never leaves for the greedy one. -/
theorem run_tokensOf (hfit : plan.Fits) (hsome : ∀ s g r, plan.after s g r ≠ none)
    (hround : ∀ s st v, I s st v → st.stop = false → 0 < remaining o st.generated →
      ∃ st' v', (round st).run v = (.ok st', v') ∧ Commits m argmax P o p plan I s st st' v')
    {s : σ} {st : Progress Λ} {v : RestoredVerifier κ Λ} (hI : I s st v) (hstop : st.stop = false)
    (hfb : st.fallbackToGreedy = false) (hle : st.generated.length ≤ o.genTokens.toNat) :
    ∃ v', (tokensOf o round st).run v =
      (.ok (st.generated ++
        plan.blocks (P.greedyNext m argmax) o.eos o.genTokens.toNat s st.generated (remaining o st.generated)), v') := by
  obtain ⟨st', v', hrun, hends, hnone⟩ := run_loop hfit hround o.genTokens.toNat hI hstop hfb (Nat.sub_le _ _)
  have hfb' : st'.fallbackToGreedy = false := by
    cases hf : st'.fallbackToGreedy with
    | false => rfl
    | true =>
      obtain ⟨s, g, r, h⟩ := hnone hf
      exact absurd h (hsome s g r)
  rcases hends with ⟨-, hgen⟩ | ⟨hf, -⟩
  · refine ⟨v', ?_⟩
    unfold tokensOf
    rw [Proc.run_bind_ok hrun, Proc.run_pure, hgen, List.take_of_length_le]
    have hblocks := hfit.length_blocks_le (P.greedyNext m argmax) o.eos o.genTokens.toNat s st.generated
      (remaining o st.generated)
    rw [List.length_append]
    unfold remaining at hblocks ⊢
    omega
  · rw [hfb'] at hf
    cases hf

end Loop

theorem blockLen_eq {g : List Token} (h : 0 < remaining o g) : o.blockLen g = min o.blockSize (remaining o g : Int) := by
  unfold FusedOptions.blockLen
  unfold remaining at h ⊢
  congr 1
  omega

/-- The end of an iteration without the detection of runaway loops. -/
theorem commit_eq (hrun : o.stopOnRunaway = false) (tokens : List Token) (k : Nat) {st : Progress Λ}
    (hstop : st.stop = false) :
    commit o tokens k st =
      ⟨st.generated ++ tokens, st.accepts ++ [k], tokens.any o.eos, st.fallbackToGreedy, st.tail, st.tailLogits,
        st.emitted ++ [st.generated ++ tokens]⟩ := by
  unfold commit
  dsimp only
  by_cases hany : tokens.any o.eos = true
  · rw [if_pos hany, hany]
  · rw [if_neg hany, hrun]
    simp [hstop, hany]

/-! ### Blocks with a carried correction -/

/-- The bonus token and the drafts that the two MLX loops check after `g`, with `r` tokens left. -/
def checkIds (next : List Token → Token) (o : FusedOptions) (p : Nat) (draftBlockIds : DraftBlockIds) (blocks : Nat)
    (g : List Token) (r : Nat) : List Token :=
  next g :: (draftBlockIds blocks (next g) (p + g.length) (min o.blockSize (r : Int) - 1).toNat).toList

/-- A block commits the matched part of what is checked.  The state is the number of blocks. -/
def carryPlan (next : List Token → Token) (o : FusedOptions) (p : Nat) (draftBlockIds : DraftBlockIds) :
    Greedy.Plan Token Nat where
  width blocks g r := Greedy.matched next g (checkIds next o p draftBlockIds blocks g r)
  after blocks _ _ := some (blocks + 1)

variable {draftBlockIds : DraftBlockIds}

theorem length_checkIds (next : List Token → Token) (blocks : Nat) (g : List Token) (r : Nat) :
    (checkIds next o p draftBlockIds blocks g r).length = (min o.blockSize (r : Int) - 1).toNat + 1 := by
  simp [checkIds]

theorem carryPlan_fits (m : KvModel κ Λ) (argmax : Λ → Token) (P : Prefilled κ Λ) (o : FusedOptions) (p : Nat)
    (draftBlockIds : DraftBlockIds) : (carryPlan (P.greedyNext m argmax) o p draftBlockIds).Fits := by
  intro blocks g r hr
  refine ⟨matched_pos _ _, ?_⟩
  have hle := Greedy.matched_le (P.greedyNext m argmax) g
    (checkIds (P.greedyNext m argmax) o p draftBlockIds blocks g r)
  rw [length_checkIds] at hle
  have : (min o.blockSize (r : Int) - 1).toNat + 1 ≤ r := by omega
  exact Nat.le_trans hle this

/-- Between two iterations of the loop that truncates. -/
structure Trimmed (m : KvModel κ Λ) (P : Prefilled κ Λ) (p blocks : Nat) (st : Progress Λ) (v : RestoredVerifier κ Λ) :
    Prop where
  blocks : st.accepts.length = blocks
  ahead : st.fallbackToGreedy = false
  verifier : ∃ snapshot, v = holds m P p st.generated snapshot

variable (m argmax P o p draftBlockIds) in
/-- What is checked after `g`, with the facts that both loops use: its length is that of the block, and a token or more
of it is matched. -/
theorem checkIds_spec (blocks : Nat) (g : List Token) :
    let check := checkIds (P.greedyNext m argmax) o p draftBlockIds blocks g (remaining o g)
    let k := Greedy.matched (P.greedyNext m argmax) g check
    check.length = (min o.blockSize (remaining o g : Int) - 1).toNat + 1 ∧ 0 < k ∧ k ≤ check.length ∧
      check.take k = Greedy.stream (P.greedyNext m argmax) g k :=
  ⟨length_checkIds _ _ _ _, matched_pos _ _, Greedy.matched_le _ _ _, Greedy.take_matched _ _ _⟩

/-- Truncating the cache after the acceptance leaves a verifier of the committed tokens. -/
theorem run_trimSettle {g check : List Token} {len : Int} {k n : Nat} (hlen : check.length = (len - 1).toNat + 1)
    (hk : Greedy.matched (P.greedyNext m argmax) g check = k) (hpos : 0 < k) (row : Option Λ) (s : Option (List κ))
    (st : Progress Λ) :
    (trimSettle argmax o (p + g.length) len (P.row m g) check (P.rows m g check) st).run
        ⟨some (P.entries m (g ++ check)), n, row, s⟩ =
      (.ok (commit o (check.take k) k st), holds m P p (g ++ check.take k) s) := by
  subst hk
  have hle := Greedy.matched_le (P.greedyNext m argmax) g check
  obtain ⟨hcount, hnext⟩ := leadingMatches_rows m argmax P g hlen.symm
  unfold trimSettle
  dsimp only
  rw [hcount, hnext, Proc.run_modify_bind, Proc.run_pure]
  simp only [RestoredVerifier.trimPromptCache, Option.map_some, holds, List.length_append, List.length_take,
    Nat.min_eq_left hle, Nat.add_assoc]
  rw [RestoredVerifier.take_accepted hle (by omega)]

/-- An iteration that commits the matched part of what is checked commits the block of the plan. -/
theorem commits_of_matched (hrun : o.stopOnRunaway = false) {I : Nat → Progress Λ → RestoredVerifier κ Λ → Prop}
    {st st₀ : Progress Λ} {v' : RestoredVerifier κ Λ} {blocks k : Nat} {c : List Token}
    (hc : c = block (P.greedyNext m argmax) o (carryPlan (P.greedyNext m argmax) o p draftBlockIds) blocks st.generated)
    (hgen : st₀.generated = st.generated) (hstop : st₀.stop = false) (hfb : st₀.fallbackToGreedy = false)
    (hI : I (blocks + 1) (commit o c k st₀) v') :
    Commits m argmax P o p (carryPlan (P.greedyNext m argmax) o p draftBlockIds) I blocks st (commit o c k st₀) v' := by
  rw [commit_eq hrun c k hstop] at hI ⊢
  subst hc
  exact ⟨by rw [hgen], fun h => ⟨h, hfb⟩, fun h => ⟨h, hfb, hI⟩⟩

variable (m argmax P p o draftBlockIds) in
/-- An iteration of the loop that truncates commits the block of the plan. -/
theorem run_trimRound (st : Progress Λ) (snapshot : Option (List κ)) (hr : 0 < remaining o st.generated) :
    ∃ c k snapshot', c = block (P.greedyNext m argmax) o (carryPlan (P.greedyNext m argmax) o p draftBlockIds)
        st.accepts.length st.generated ∧
      (trimRound m argmax o draftBlockIds st).run (holds m P p st.generated snapshot) =
        (.ok (commit o c k st), holds m P p (st.generated ++ c) snapshot') := by
  obtain ⟨hlen, hpos, -, htake⟩ := checkIds_spec m argmax P o p draftBlockIds st.accepts.length st.generated
  have hsettle := run_trimSettle (o := o) (p := p) (n := p + st.generated.length) hlen rfl hpos
    (some (P.row m st.generated)) (some (P.entries m st.generated)) st
  refine ⟨_, _, _, htake, Eq.trans ?_ hsettle⟩
  unfold trimRound
  dsimp only
  rw [blockLen_eq hr, Proc.run_get_bind]
  show (RestoredVerifier.forwardBlockLazy m _ >>= _).run _ = _
  rw [holds, Proc.run_bind_ok (RestoredVerifier.run_forwardBlockLazy _ _ _ _ _)]
  rfl

theorem trimRound_commits (hrun : o.stopOnRunaway = false) {blocks : Nat} {st : Progress Λ} {v : RestoredVerifier κ Λ}
    (hI : Trimmed m P p blocks st v) (hstop : st.stop = false) (hr : 0 < remaining o st.generated) :
    ∃ st' v', (trimRound m argmax o draftBlockIds st).run v = (.ok st', v') ∧
      Commits m argmax P o p (carryPlan (P.greedyNext m argmax) o p draftBlockIds) (Trimmed m P p) blocks st st' v' := by
  obtain ⟨rfl, hfb, snapshot, rfl⟩ := hI
  obtain ⟨c, k, snapshot', hc, hround⟩ := run_trimRound m argmax P o p draftBlockIds st snapshot hr
  refine ⟨_, _, hround, commits_of_matched hrun hc rfl hstop hfb ?_⟩
  rw [commit_eq hrun _ _ hstop]
  exact ⟨by simp, hfb, _, rfl⟩

/-- Between two iterations of the loop that rolls back: the cache holds what was generated but for the tail. -/
structure Carried (m : KvModel κ Λ) (P : Prefilled κ Λ) (p blocks : Nat) (st : Progress Λ) (v : RestoredVerifier κ Λ) :
    Prop where
  blocks : st.accepts.length = blocks
  ahead : st.fallbackToGreedy = false
  logits : st.tailLogits = some (P.row m st.generated)
  verifier : ∃ base row snapshot, st.generated = base ++ st.tail ∧
    v = ⟨some (P.entries m base), p + base.length, row, snapshot⟩

/-- After the acceptance the whole block is in the cache, or the accepted part of it in the tail. -/
theorem run_carrySettle {base check : List Token} {len : Int} {k : Nat} {st : Progress Λ}
    (hgen : st.generated = base ++ st.tail) (hlen : check.length = (len - 1).toNat + 1)
    (hk : Greedy.matched (P.greedyNext m argmax) st.generated check = k) (hpos : 0 < k) (row : Option Λ) :
    ∃ base' tail' row' s', st.generated ++ check.take k = base' ++ tail' ∧
      (carrySettle argmax o (p + base.length) len (P.row m st.generated) check (P.rows m base (st.tail ++ check)) st).run
          ⟨some (P.entries m (base ++ (st.tail ++ check))), p + base.length, row, some (P.entries m base)⟩ =
        (.ok (commit o (check.take k) k
            { st with tail := tail', tailLogits := some (P.row m (st.generated ++ check.take k)) }),
          ⟨some (P.entries m base'), p + base'.length, row', s'⟩) := by
  subst hk
  have hle := Greedy.matched_le (P.greedyNext m argmax) st.generated check
  obtain ⟨hcount, hnext⟩ := leadingMatches_rows m argmax P st.generated hlen.symm
  have hdrop : (P.rows m base (st.tail ++ check)).drop st.tail.length = P.rows m st.generated check := by
    rw [Prefilled.rows_append, hgen]
    exact List.drop_left' (Prefilled.length_rows _ _)
  generalize Greedy.matched (P.greedyNext m argmax) st.generated check = k at hpos hle hcount hnext ⊢
  unfold carrySettle
  dsimp only
  rw [hdrop, hcount, hnext, Proc.run_modify_bind]
  by_cases hfull : (k : Int) = len
  · -- the whole block is accepted and stays in the cache
    have hall : k = check.length := by omega
    refine ⟨st.generated ++ check, [], some (P.row m (st.generated ++ check.take k)), some (P.entries m base),
      by rw [hall]; simp, ?_⟩
    rw [if_pos hfull, Proc.run_modify_bind, Proc.run_pure]
    have hcache : base ++ (st.tail ++ check) = st.generated ++ check := by rw [hgen, List.append_assoc]
    have hpast : p + base.length + st.tail.length + len.toNat = p + (st.generated ++ check).length := by
      rw [hgen]
      simp only [List.length_append]
      omega
    rw [hcache, hpast]
  · -- the block is rolled back
    refine ⟨base, st.tail ++ check.take k, some (P.row m (st.generated ++ check.take k)), some (P.entries m base),
      by rw [hgen, List.append_assoc], ?_⟩
    rw [if_neg hfull]
    rfl

variable (m argmax P p o draftBlockIds) in
/-- An iteration of the loop that rolls back commits the block of the plan, in the cache or in the tail. -/
theorem run_carryRound {st : Progress Λ} {base : List Token} (hgen : st.generated = base ++ st.tail)
    (hlogits : st.tailLogits = some (P.row m st.generated)) (row : Option Λ) (snapshot : Option (List κ))
    (hr : 0 < remaining o st.generated) :
    ∃ c k base' tail' row' snapshot', c = block (P.greedyNext m argmax) o
        (carryPlan (P.greedyNext m argmax) o p draftBlockIds) st.accepts.length st.generated ∧
      st.generated ++ c = base' ++ tail' ∧
      (carryRound m argmax o draftBlockIds st).run ⟨some (P.entries m base), p + base.length, row, snapshot⟩ =
        (.ok (commit o c k { st with tail := tail', tailLogits := some (P.row m (st.generated ++ c)) }),
          ⟨some (P.entries m base'), p + base'.length, row', snapshot'⟩) := by
  obtain ⟨hlen, hpos, -, htake⟩ := checkIds_spec m argmax P o p draftBlockIds st.accepts.length st.generated
  obtain ⟨base', tail', row', s', hgen', hsettle⟩ := run_carrySettle (o := o) (p := p) hgen hlen rfl hpos row
  refine ⟨_, _, base', tail', row', s', htake, hgen', Eq.trans ?_ hsettle⟩
  unfold carryRound
  dsimp only
  have hpast : p + base.length + st.tail.length = p + st.generated.length := by
    rw [hgen, List.length_append, Nat.add_assoc]
  rw [blockLen_eq hr, Proc.run_get_bind, hlogits, hpast]
  show (RestoredVerifier.forwardBlockLazy m _ >>= _).run _ = _
  rw [Proc.run_bind_ok (RestoredVerifier.run_forwardBlockLazy _ _ _ _ _)]
  rfl

theorem carryRound_commits (hrun : o.stopOnRunaway = false) {blocks : Nat} {st : Progress Λ} {v : RestoredVerifier κ Λ}
    (hI : Carried m P p blocks st v) (hstop : st.stop = false) (hr : 0 < remaining o st.generated) :
    ∃ st' v', (carryRound m argmax o draftBlockIds st).run v = (.ok st', v') ∧
      Commits m argmax P o p (carryPlan (P.greedyNext m argmax) o p draftBlockIds) (Carried m P p) blocks st st' v' := by
  obtain ⟨rfl, hfb, hlogits, base, row, snapshot, hgen, rfl⟩ := hI
  obtain ⟨c, k, base', tail', row', snapshot', hc, hgen', hround⟩ :=
    run_carryRound m argmax P o p draftBlockIds hgen hlogits row snapshot hr
  refine ⟨_, _, hround, commits_of_matched hrun hc rfl hstop hfb ?_⟩
  rw [commit_eq hrun _ _ (by exact hstop)]
  exact ⟨by simp, hfb, rfl, base', row', snapshot', hgen', rfl⟩

/-! ### Blocks with a forwarded correction -/

/-- How many tokens a candidate commits: the matched ones, and the correction if some of it was rejected. -/
def keepWidth (next : List Token → Token) (g candidate : List Token) : Nat :=
  if Greedy.matched next g candidate = candidate.length then candidate.length else Greedy.matched next g candidate + 1

theorem keepWidth_le {next : List Token → Token} {g candidate : List Token} :
    keepWidth next g candidate ≤ candidate.length := by
  have hle := Greedy.matched_le next g candidate
  unfold keepWidth
  split <;> omega

variable (m argmax P p) in
theorem run_keepOrCorrect (g : List Token) {candidate : List Token} (hne : candidate ≠ []) (row : Option Λ) (s : Option (List κ)) :
    (keepOrCorrect m argmax candidate (P.rows m g candidate) (Greedy.matched (P.greedyNext m argmax) g candidate)
        (P.row m (g ++ candidate.take (Greedy.matched (P.greedyNext m argmax) g candidate)))).run
        ⟨some (P.entries m (g ++ candidate)), p + g.length, row, s⟩ =
      (.ok (Greedy.stream (P.greedyNext m argmax) g (keepWidth (P.greedyNext m argmax) g candidate)),
        holds m P p (g ++ Greedy.stream (P.greedyNext m argmax) g (keepWidth (P.greedyNext m argmax) g candidate)) s) := by
  have hle := Greedy.matched_le (P.greedyNext m argmax) g candidate
  have htake := Greedy.take_matched (P.greedyNext m argmax) g candidate
  unfold keepOrCorrect keepWidth
  generalize Greedy.matched (P.greedyNext m argmax) g candidate = k at hle htake ⊢
  rw [Proc.run_bind_ok (RestoredVerifier.run_commitOrTruncate hle _ _ _)]
  by_cases hfull : k = candidate.length
  · subst hfull
    rw [List.take_length] at htake
    rw [if_pos rfl, if_pos rfl, List.take_length, Proc.run_modify_bind, Prefilled.getLast_rows hne, ← htake,
      Proc.run_pure]
    simp only [holds, List.length_append, Nat.add_assoc]
  · have hpast : p + g.length + k = p + (g ++ candidate.take k).length := by
      rw [List.length_append, List.length_take]
      omega
    have hcorr : candidate.take k ++ [argmax (P.row m (g ++ candidate.take k))] =
        Greedy.stream (P.greedyNext m argmax) g (k + 1) := by
      rw [Greedy.stream_add, ← htake]
      rfl
    rw [if_neg hfull, if_neg hfull, hpast, Proc.run_bind_ok (RestoredVerifier.run_appendToken _ _ _ _), Proc.run_pure,
      List.append_assoc, hcorr]

/-- The block size of `fused_specdecode_generate`, with `r` tokens left and an offset of the caches. -/
def ringLen (o : FusedOptions) (rings : List Nat) (offset r : Nat) : Int :=
  if slidingRingWouldWrap rings offset (min o.blockSize (r : Int)) then 1 else min o.blockSize (r : Int)

/-- The bonus token and the drafts that `fused_specdecode_generate` forwards after `g`, with `r` tokens left. -/
def candidate (next : List Token → Token) (o : FusedOptions) (p : Nat) (rings : List Nat) (cached : Nat)
    (draftBlockCached : DraftBlock) (accepts : List Nat) (g : List Token) (r : Nat) : List Token :=
  let len := ringLen o rings (cached + g.length) r
  next g :: (draftBlockCached accepts.length (next g) (p + g.length) (max (len - 1) 1).toNat).take (len - 1).toNat

/-- A block commits the matched part of the candidate and the correction.  The state is the accept counts, which decide
when the loop leaves for the greedy one. -/
def eagerPlan (next : List Token → Token) (o : FusedOptions) (p : Nat) (rings : List Nat) (cached : Nat)
    (draftBlockCached : DraftBlock) : Greedy.Plan Token (List Nat) where
  width accepts g r := keepWidth next g (candidate next o p rings cached draftBlockCached accepts g r)
  after accepts g r :=
    let accepts' := accepts ++ [Greedy.matched next g (candidate next o p rings cached draftBlockCached accepts g r)]
    if o.allowGreedyFallback && poorAcceptance accepts' then none else some accepts'

variable {rings : List Nat} {draftBlockCached : DraftBlock}

theorem eagerPlan_fits (m : KvModel κ Λ) (argmax : Λ → Token) (P : Prefilled κ Λ) (o : FusedOptions) (p : Nat)
    (rings : List Nat) (cached : Nat) (draftBlockCached : DraftBlock) :
    (eagerPlan (P.greedyNext m argmax) o p rings cached draftBlockCached).Fits := by
  intro accepts g r hr
  constructor
  · have hpos : 0 < Greedy.matched (P.greedyNext m argmax) g
        (candidate (P.greedyNext m argmax) o p rings cached draftBlockCached accepts g r) := matched_pos _ _
    show 0 < keepWidth _ _ _
    unfold keepWidth
    split <;> omega
  · refine Nat.le_trans keepWidth_le ?_
    have hlen : (ringLen o rings (cached + g.length) r - 1).toNat + 1 ≤ r := by
      unfold ringLen
      split <;> omega
    simp only [candidate, List.length_cons, List.length_take]
    omega

/-- Between two iterations of `fused_specdecode_generate`. -/
structure Kept (m : KvModel κ Λ) (P : Prefilled κ Λ) (p : Nat) (accepts : List Nat) (st : Progress Λ)
    (v : RestoredVerifier κ Λ) : Prop where
  accepts : st.accepts = accepts
  ahead : st.fallbackToGreedy = false
  verifier : ∃ snapshot, v = holds m P p st.generated snapshot

/-- The end of an iteration of `fused_specdecode_generate`. -/
theorem commitEager_commits (hrun : o.stopOnRunaway = false) {st : Progress Λ} (snapshot : Option (List κ)) {cached k : Nat}
    {c : List Token} (hstop : st.stop = false) (hfb : st.fallbackToGreedy = false)
    (hk : k = Greedy.matched (P.greedyNext m argmax) st.generated (candidate (P.greedyNext m argmax) o p rings cached
      draftBlockCached st.accepts st.generated (remaining o st.generated)))
    (hc : c = block (P.greedyNext m argmax) o (eagerPlan (P.greedyNext m argmax) o p rings cached draftBlockCached)
      st.accepts st.generated) :
    Commits m argmax P o p (eagerPlan (P.greedyNext m argmax) o p rings cached draftBlockCached) (Kept m P p) st.accepts
      st (commitEager o c k st) (holds m P p (st.generated ++ c) snapshot) := by
  unfold commitEager
  rw [commit_eq hrun c k hstop]
  dsimp only
  by_cases hany : c.any o.eos = true
  · -- the block holds an EOS
    rw [if_neg (by simp [hany])]
    exact ⟨by rw [hc], fun _ => ⟨hany, hfb⟩, fun h => by rw [← hc, hany] at h; cases h⟩
  · have hno : c.any o.eos = false := by simpa using hany
    rw [hno]
    by_cases hpoor : (o.allowGreedyFallback && poorAcceptance (st.accepts ++ [k])) = true
    · rw [if_pos ⟨rfl, hpoor⟩]
      refine ⟨by rw [hc], fun h => by rw [← hc] at h; exact absurd h hany, fun _ => ?_⟩
      have hafter : (eagerPlan (P.greedyNext m argmax) o p rings cached draftBlockCached).after st.accepts st.generated
          (remaining o st.generated) = none := by
        rw [hk] at hpoor
        exact if_pos hpoor
      rw [hafter]
      exact ⟨rfl, rfl, _, rfl⟩
    · rw [if_neg (by simpa using hpoor)]
      refine ⟨by rw [hc], fun h => by rw [← hc] at h; exact absurd h hany, fun _ => ?_⟩
      have hafter : (eagerPlan (P.greedyNext m argmax) o p rings cached draftBlockCached).after st.accepts st.generated
          (remaining o st.generated) = some (st.accepts ++ [k]) := by
        rw [hk] at hpoor ⊢
        exact if_neg hpoor
      rw [hafter]
      exact ⟨rfl, hfb, rfl, hfb, _, rfl⟩

variable (m argmax P p o rings draftBlockCached) in
/-- An iteration of `fused_specdecode_generate` commits the block of the plan. -/
theorem run_eagerRound (st : Progress Λ) (snapshot : Option (List κ)) (hr : 0 < remaining o st.generated) :
    ∃ c k, k = Greedy.matched (P.greedyNext m argmax) st.generated (candidate (P.greedyNext m argmax) o p rings
        P.cache.length draftBlockCached st.accepts st.generated (remaining o st.generated)) ∧
      c = block (P.greedyNext m argmax) o (eagerPlan (P.greedyNext m argmax) o p rings P.cache.length draftBlockCached)
        st.accepts st.generated ∧
      (eagerRound m argmax o rings draftBlockCached st).run (holds m P p st.generated snapshot) =
        (.ok (commitEager o c k st), holds m P p (st.generated ++ c) snapshot) := by
  have hlen : eagerLen o rings (P.entries m st.generated).length st.generated =
      ringLen o rings (P.cache.length + st.generated.length) (remaining o st.generated) := by
    unfold eagerLen ringLen
    rw [blockLen_eq hr, Prefilled.length_entries]
  have hne : candidate (P.greedyNext m argmax) o p rings P.cache.length draftBlockCached st.accepts st.generated
      (remaining o st.generated) ≠ [] := by simp [candidate]
  have hkeep := run_keepOrCorrect m argmax P p st.generated hne (some (P.row m st.generated)) snapshot
  refine ⟨_, _, rfl, rfl, ?_⟩
  unfold eagerRound
  rw [Proc.run_get_bind]
  dsimp only [holds]
  rw [Option.getD_some, hlen]
  show (RestoredVerifier.forwardBlock m _ >>= _).run _ = _
  rw [Proc.run_bind_ok (RestoredVerifier.run_forwardBlock (by simp) _ _ _ _), acceptLoop_rows]
  exact (Proc.run_bind_ok hkeep).trans rfl

theorem eagerRound_commits (hrun : o.stopOnRunaway = false) {accepts : List Nat} {st : Progress Λ}
    {v : RestoredVerifier κ Λ} (hI : Kept m P p accepts st v) (hstop : st.stop = false)
    (hr : 0 < remaining o st.generated) :
    ∃ st' v', (eagerRound m argmax o rings draftBlockCached st).run v = (.ok st', v') ∧
      Commits m argmax P o p (eagerPlan (P.greedyNext m argmax) o p rings P.cache.length draftBlockCached) (Kept m P p)
        accepts st st' v' := by
  obtain ⟨rfl, hfb, snapshot, rfl⟩ := hI
  obtain ⟨c, k, hk, hc, hround⟩ := run_eagerRound m argmax P o p rings draftBlockCached st snapshot hr
  exact ⟨_, _, hround, commitEager_commits hrun snapshot hstop hfb hk hc⟩

/-! ### The greedy loop -/

variable (m argmax P p o) in
/-- An iteration of the greedy loop commits the next token. -/
theorem run_greedyRound (st : Progress Λ) (snapshot : Option (List κ)) :
    (greedyRound m argmax o st).run (holds m P p st.generated snapshot) =
      (.ok { commit o [P.greedyNext m argmax st.generated] 1 st with accepts := st.accepts },
        holds m P p (st.generated ++ [P.greedyNext m argmax st.generated]) snapshot) := by
  unfold greedyRound
  rw [Proc.run_get_bind]
  show (RestoredVerifier.appendToken m _ >>= _).run _ = _
  rw [holds, Proc.run_bind_ok (RestoredVerifier.run_appendToken _ _ _ _), Proc.run_pure]
  rfl

/-- The end of an iteration of the greedy loop. -/
theorem commitGreedy_commits (hrun : o.stopOnRunaway = false) {st : Progress Λ} (snapshot : Option (List κ))
    (hstop : st.stop = false) (hfb : st.fallbackToGreedy = false) :
    Commits m argmax P o p (Greedy.Plan.single Token) (fun _ st => Trimmed m P p st.accepts.length st) () st
      { commit o [P.greedyNext m argmax st.generated] 1 st with accepts := st.accepts }
      (holds m P p (st.generated ++ [P.greedyNext m argmax st.generated]) snapshot) := by
  rw [commit_eq hrun _ _ hstop]
  exact ⟨rfl, fun h => ⟨h, hfb⟩, fun h => ⟨h, hfb, rfl, hfb, _, rfl⟩⟩

theorem greedyRound_commits (hrun : o.stopOnRunaway = false) {st : Progress Λ} {v : RestoredVerifier κ Λ}
    (hI : Trimmed m P p st.accepts.length st v) (hstop : st.stop = false) :
    ∃ st' v', (greedyRound m argmax o st).run v = (.ok st', v') ∧
      Commits m argmax P o p (Greedy.Plan.single Token) (fun _ st => Trimmed m P p st.accepts.length st) () st st' v' := by
  obtain ⟨-, hfb, snapshot, rfl⟩ := hI
  exact ⟨_, _, run_greedyRound m argmax P o p st snapshot, commitGreedy_commits hrun snapshot hstop hfb⟩

variable (argmax) in
/-- The greedy loop completes the stream up to an EOS. -/
theorem run_greedyLoop (hrun : o.stopOnRunaway = false) (st : Progress Λ) {v : RestoredVerifier κ Λ}
    (hI : Trimmed m P p st.accepts.length st v) (hstop : st.stop = false) (hle : st.generated.length ≤ o.genTokens.toNat) :
    ∃ v', (tokensOf o (greedyRound m argmax o) st).run v =
      (.ok (st.generated ++
        Greedy.upTo o.eos (Greedy.stream (P.greedyNext m argmax) st.generated (remaining o st.generated))), v') := by
  have hle' : remaining o st.generated ≤ o.genTokens.toNat := Nat.sub_le _ _
  rw [← (Greedy.Plan.blocks_iff Greedy.Plan.single_fits hle' () st.generated).2 (Greedy.Plan.single_aligned _ _ _ _)]
  exact run_tokensOf Greedy.Plan.single_fits (fun _ _ _ => by simp [Greedy.Plan.single])
    (fun _ _ _ hI hstop _ => greedyRound_commits hrun hI hstop) hI hstop hI.ahead hle

/-! ### What the loops return -/

theorem run_trim (hrun : o.stopOnRunaway = false) :
    ∃ v', (fusedSpecdecodeGenerateMlxTrim m argmax o draftBlockIds).run (holds m P p [] none) =
      (.ok ((carryPlan (P.greedyNext m argmax) o p draftBlockIds).blocks (P.greedyNext m argmax) o.eos
        o.genTokens.toNat 0 [] o.genTokens.toNat), v') :=
  run_tokensOf (carryPlan_fits m argmax P o p draftBlockIds) (fun _ _ _ => by simp [carryPlan])
    (fun _ _ _ => trimRound_commits hrun) ⟨rfl, rfl, none, rfl⟩ rfl rfl (Nat.zero_le _)

theorem run_carry (hrun : o.stopOnRunaway = false) :
    ∃ v', (fusedSpecdecodeGenerateMlx m argmax o draftBlockIds).run (holds m P p [] none) =
      (.ok ((carryPlan (P.greedyNext m argmax) o p draftBlockIds).blocks (P.greedyNext m argmax) o.eos
        o.genTokens.toNat 0 [] o.genTokens.toNat), v') :=
  run_tokensOf (carryPlan_fits m argmax P o p draftBlockIds) (fun _ _ _ => by simp [carryPlan])
    (fun _ _ _ => carryRound_commits hrun) ⟨rfl, rfl, rfl, [], _, none, rfl, rfl⟩ rfl rfl (Nat.zero_le _)

theorem run_eager (hrun : o.stopOnRunaway = false) :
    ∃ v', (fusedSpecdecodeGenerate m argmax o rings draftBlockCached).run (holds m P p [] none) =
      (.ok ((eagerPlan (P.greedyNext m argmax) o p rings P.cache.length draftBlockCached).blocks
        (P.greedyNext m argmax) o.eos o.genTokens.toNat [] [] o.genTokens.toNat), v') := by
  have hfit := eagerPlan_fits m argmax P o p rings P.cache.length draftBlockCached
  have hlen := hfit.length_blocks_le (P.greedyNext m argmax) o.eos o.genTokens.toNat [] [] o.genTokens.toNat
  have hround : ∀ accepts (st : Progress Λ) v, Kept m P p accepts st v → st.stop = false →
      0 < remaining o st.generated →
      ∃ st' v', (eagerRound m argmax o rings draftBlockCached st).run v = (.ok st', v') ∧
        Commits m argmax P o p (eagerPlan (P.greedyNext m argmax) o p rings P.cache.length draftBlockCached)
          (Kept m P p) accepts st st' v' := fun _ _ _ => eagerRound_commits hrun
  have hstart : Kept m P p [] ({} : Progress Λ) (holds m P p [] none) := ⟨rfl, rfl, none, rfl⟩
  obtain ⟨st, v, hloop, hends, -⟩ := run_loop hfit hround o.genTokens.toNat hstart rfl rfl (Nat.sub_le _ _)
  unfold fusedSpecdecodeGenerate
  rw [Proc.run_bind_ok hloop]
  unfold fallback
  rcases hends with ⟨hf, hgen⟩ | ⟨hf, ⟨snapshot, rfl⟩, hgen⟩
  · rw [hf, if_neg (by simp), hgen]
    refine ⟨v, ?_⟩
    rw [List.take_of_length_le (by simpa [remaining] using hlen)]
    rfl
  · rw [hf, if_pos rfl]
    have hle : st.generated.length ≤ o.genTokens.toNat := by
      have := congrArg List.length hgen
      simp only [List.length_append, List.nil_append] at this
      simp only [remaining, List.length_nil, Nat.sub_zero] at this
      omega
    obtain ⟨v', hgreedy⟩ := run_greedyLoop argmax hrun { st with stop := false, fallbackToGreedy := false }
      ⟨rfl, rfl, snapshot, rfl⟩ rfl hle
    refine ⟨v', hgreedy.trans ?_⟩
    dsimp only
    rw [hgen]
    rfl

end Fused

/-! ### The distributed decoder -/

namespace DistributedFusedDecoder

open Fused (keepWidth acceptLoop_rows)

variable {m : KvModel κ Λ} {argmax : Λ → Token} {P : Prefilled κ Λ} {p : Nat} {dec : DistributedFusedDecoder}
  {maxNewTokens : Nat}

/-- Within the budget, the committed tokens are put out up to an EOS. -/
theorem output_eq (c : List Token) {r : DistributedFusedResult} (hle : r.outputTokenIds.length + c.length ≤ maxNewTokens)
    (hgo : r.stoppedOnEos = false) :
    dec.output maxNewTokens c r =
      { r with outputTokenIds := r.outputTokenIds ++ Greedy.upTo dec.eos c, stoppedOnEos := c.any dec.eos } := by
  induction c generalizing r with
  | nil =>
    simp only [output, Greedy.upTo, List.append_nil, List.any_nil]
    rw [← hgo]
  | cons t c ih =>
    rw [List.length_cons] at hle
    unfold output Greedy.upTo
    rw [if_neg (by omega), List.any_cons]
    cases ht : dec.eos t with
    | true => simp
    | false =>
      simp only [Bool.false_eq_true, ↓reduceIte, Bool.false_or]
      have hnext := ih (r := { r with outputTokenIds := r.outputTokenIds ++ [t] })
        (by simp only [List.length_append, List.length_singleton]; omega) hgo
      simpa using hnext

theorem run_onAdapter {α : Type} {x : Proc (RestoredVerifier κ Λ) VerifierError α} {a a' : RestoredVerifier κ Λ} {y : α}
    (h : x.run a = (.ok y, a')) (cand : List Token) (logits : List Λ) (running : Option Λ) :
    (RestoringVerifierAdapter.onAdapter x).run ⟨a, cand, logits, running⟩ = (.ok y, ⟨a', cand, logits, running⟩) := by
  unfold RestoringVerifierAdapter.onAdapter
  rw [Proc.run_focus, h]

variable (m argmax P p) in
/-- Verifying a candidate and committing it gives the tokens of the stream, with the verifier after them. -/
theorem run_verify_commit {β : Type} {c : List Token} (hne : c ≠ []) (g : List Token) (s : Option (List κ))
    (cand : List Token) (logits : List Λ) (running : Option Λ)
    (f : Nat → List Token → Proc (RestoringVerifierAdapter κ Λ) VerifierError β) :
    (do
        let accepted ← RestoringVerifierAdapter.verifyBlock m argmax c
        let tokens ← RestoringVerifierAdapter.commit m argmax accepted
        f accepted tokens).run ⟨holds m P p g s, cand, logits, running⟩ =
      (f (Greedy.matched (P.greedyNext m argmax) g c)
          (Greedy.stream (P.greedyNext m argmax) g (keepWidth (P.greedyNext m argmax) g c))).run
        ⟨holds m P p (g ++ Greedy.stream (P.greedyNext m argmax) g (keepWidth (P.greedyNext m argmax) g c)) s, c,
          P.rows m g c, some (P.row m (g ++ c.take (Greedy.matched (P.greedyNext m argmax) g c)))⟩ := by
  have hforward := RestoredVerifier.run_forwardBlock (m := m) (P := P) hne g (p + g.length) (some (P.row m g)) s
  have hkeep := Fused.run_keepOrCorrect m argmax P p g hne (some (P.row m g)) s
  have hverify : (RestoringVerifierAdapter.verifyBlock m argmax c).run ⟨holds m P p g s, cand, logits, running⟩ =
      (.ok (Greedy.matched (P.greedyNext m argmax) g c),
        ⟨⟨some (P.entries m (g ++ c)), p + g.length, some (P.row m g), s⟩, c, P.rows m g c,
          some (P.row m (g ++ c.take (Greedy.matched (P.greedyNext m argmax) g c)))⟩) := by
    unfold RestoringVerifierAdapter.verifyBlock
    rw [Proc.run_get_bind, holds, Proc.run_bind_ok (run_onAdapter hforward _ _ _)]
    show (Except.ok _, _) = _
    rw [acceptLoop_rows]
  have hcommit := run_onAdapter hkeep c (P.rows m g c)
    (some (P.row m (g ++ c.take (Greedy.matched (P.greedyNext m argmax) g c))))
  rw [Proc.run_bind_ok hverify]
  exact Proc.run_bind_ok hcommit

variable (argmax dec) in
/-- An iteration commits a token or more of the stream, and puts them out up to an EOS. -/
theorem run_round {r : DistributedFusedResult} {snapshot : Option (List κ)} {v : RestoringVerifierAdapter κ Λ}
    (hv : v.adapter = holds m P p r.outputTokenIds snapshot) (hgo : r.stoppedOnEos = false)
    (hroom : r.outputTokenIds.length < maxNewTokens) :
    ∃ r' v' w, (dec.round m argmax maxNewTokens r).run v = (.ok r', v') ∧ 0 < w ∧
      r.outputTokenIds.length + w ≤ maxNewTokens ∧
      r'.outputTokenIds =
        r.outputTokenIds ++ Greedy.upTo dec.eos (Greedy.stream (P.greedyNext m argmax) r.outputTokenIds w) ∧
      r'.stoppedOnEos = (Greedy.stream (P.greedyNext m argmax) r.outputTokenIds w).any dec.eos ∧
      ∃ snapshot', v'.adapter =
        holds m P p (r.outputTokenIds ++ Greedy.stream (P.greedyNext m argmax) r.outputTokenIds w) snapshot' := by
  obtain ⟨adapter, cand, logits, running⟩ := v
  dsimp only at hv
  subst hv
  generalize hlen : min dec.blockSize (maxNewTokens - r.outputTokenIds.length) = len
  have hlenpos : 0 < len ∧ r.outputTokenIds.length + len ≤ maxNewTokens := by
    have := dec.blockSize_pos
    omega
  generalize hg : r.outputTokenIds = g at hroom hlen hlenpos ⊢
  generalize hc : P.greedyNext m argmax g ::
    (dec.draftBlock r.blocks (P.greedyNext m argmax g) (p + g.length) (max (len - 1) 1)).take (len - 1) = candidate
  have hne : candidate ≠ [] := by rw [← hc]; simp
  have hclen : candidate.length ≤ len := by
    rw [← hc, List.length_cons, List.length_take]
    omega
  have hpos : 0 < Greedy.matched (P.greedyNext m argmax) g candidate := by
    rw [← hc]
    exact Fused.matched_pos _ _
  have hwidth : 0 < keepWidth (P.greedyNext m argmax) g candidate := by
    unfold keepWidth
    split <;> omega
  have hwle : keepWidth (P.greedyNext m argmax) g candidate ≤ candidate.length := Fused.keepWidth_le
  have hgreedy : (RestoringVerifierAdapter.nextGreedy argmax).run ⟨holds m P p g snapshot, cand, logits, running⟩ =
      (.ok (P.greedyNext m argmax g), ⟨holds m P p g snapshot, cand, logits, running⟩) := rfl
  unfold round
  dsimp only
  rw [hg, hlen, Proc.run_bind_ok hgreedy, Proc.run_get_bind]
  dsimp only [holds]
  rw [hc]
  have hle : g.length + (Greedy.stream (P.greedyNext m argmax) g (keepWidth (P.greedyNext m argmax) g candidate)).length ≤
      maxNewTokens := by
    rw [Greedy.length_stream]
    omega
  refine ⟨_, _, keepWidth (P.greedyNext m argmax) g candidate,
    (run_verify_commit m argmax P p hne g snapshot cand logits running _).trans rfl, hwidth, by omega, ?_, ?_, snapshot, rfl⟩
  · rw [output_eq _ (by exact hle) (by exact hgo)]
  · rw [output_eq _ (by exact hle) (by exact hgo)]

/-- The loop with enough iterations ends with the greedy tokens up to an EOS or the budget. -/
theorem run_loop (n : Nat) {r : DistributedFusedResult} {snapshot : Option (List κ)} {v : RestoringVerifierAdapter κ Λ}
    (hv : v.adapter = holds m P p r.outputTokenIds snapshot) (hgo : r.stoppedOnEos = false)
    (hn : maxNewTokens - r.outputTokenIds.length ≤ n) :
    ∃ r' v', (dec.loop m argmax maxNewTokens n r).run v = (.ok r', v') ∧
      r'.outputTokenIds = r.outputTokenIds ++
        Greedy.upTo dec.eos (Greedy.stream (P.greedyNext m argmax) r.outputTokenIds
          (maxNewTokens - r.outputTokenIds.length)) := by
  induction n generalizing r v snapshot with
  | zero =>
    rw [show maxNewTokens - r.outputTokenIds.length = 0 by omega]
    exact ⟨r, v, rfl, by simp [Greedy.stream, Greedy.upTo]⟩
  | succ n ih =>
    unfold loop
    by_cases hroom : r.outputTokenIds.length < maxNewTokens
    · rw [if_pos ⟨hroom, hgo⟩]
      obtain ⟨r₁, v₁, w, hround, hpos, hle, hout, hstop, snapshot₁, hv₁⟩ :=
        run_round argmax dec hv hgo hroom
      rw [Proc.run_bind_ok hround]
      obtain ⟨k, hk⟩ := Nat.exists_eq_add_of_le (show w ≤ maxNewTokens - r.outputTokenIds.length by omega)
      rw [hk, Greedy.stream_add]
      by_cases hany : (Greedy.stream (P.greedyNext m argmax) r.outputTokenIds w).any dec.eos = true
      · -- the loop stops at the EOS
        rw [hany] at hstop
        refine ⟨r₁, v₁, ?_, by rw [Greedy.upTo_append_of_any hany, hout]⟩
        cases n with
        | zero => rfl
        | succ n =>
          unfold loop
          rw [if_neg (by simp [hstop])]
          rfl
      · have hno : (Greedy.stream (P.greedyNext m argmax) r.outputTokenIds w).any dec.eos = false := by simpa using hany
        rw [Greedy.upTo_of_none hno] at hout
        rw [hno] at hstop
        have hlen : r₁.outputTokenIds.length = r.outputTokenIds.length + w := by
          rw [hout, List.length_append, Greedy.length_stream]
        rw [← hout] at hv₁
        obtain ⟨r₂, v₂, hrun, hout₂⟩ := ih hv₁ hstop (by omega)
        refine ⟨r₂, v₂, hrun, ?_⟩
        rw [hout₂, Greedy.upTo_append_of_none hno, ← hout, ← List.append_assoc, ← hout,
          show maxNewTokens - r₁.outputTokenIds.length = k by omega]
    · rw [if_neg (by simp [hroom]), show maxNewTokens - r.outputTokenIds.length = 0 by omega]
      exact ⟨r, v, rfl, by simp [Greedy.stream, Greedy.upTo]⟩

end DistributedFusedDecoder

namespace Fused

/-- When the fused loops are greedy decoding.  Without the detection of runaway loops, each loop on one host returns the
target's greedy tokens up to the first EOS or the budget if and only if the block that commits the first EOS ends with
it, whatever the drafts.  The distributed decoder always returns them. -/
theorem greedy_iff_aligned (m : KvModel κ Λ) (argmax : Λ → Token) (restored : List Token → Prefilled κ Λ)
    (promptIds : List Token) (hne : promptIds ≠ []) (o : FusedOptions) (hrun : o.stopOnRunaway = false)
    (draftBlockIds : DraftBlockIds) (rings : List Nat) (draftBlockCached : DraftBlock) (dec : DistributedFusedDecoder)
    (maxNewTokens : Int) (hmax : 1 ≤ maxNewTokens) (v : RestoredVerifier κ Λ) (w : RestoringVerifierAdapter κ Λ) :
    let P := restored promptIds
    let next := P.greedyNext m argmax
    let n := o.genTokens.toNat
    ((∃ v', (do RestoredVerifier.prefill restored promptIds
                fusedSpecdecodeGenerateMlxTrim m argmax o draftBlockIds).run v =
        (.ok (Greedy.upTo o.eos (Greedy.stream next [] n)), v')) ↔
      (carryPlan next o promptIds.length draftBlockIds).Aligned next o.eos n 0 [] n) ∧
    ((∃ v', (do RestoredVerifier.prefill restored promptIds
                fusedSpecdecodeGenerateMlx m argmax o draftBlockIds).run v =
        (.ok (Greedy.upTo o.eos (Greedy.stream next [] n)), v')) ↔
      (carryPlan next o promptIds.length draftBlockIds).Aligned next o.eos n 0 [] n) ∧
    ((∃ v', (do RestoredVerifier.prefill restored promptIds
                fusedSpecdecodeGenerate m argmax o rings draftBlockCached).run v =
        (.ok (Greedy.upTo o.eos (Greedy.stream next [] n)), v')) ↔
      (eagerPlan next o promptIds.length rings P.cache.length draftBlockCached).Aligned next o.eos n [] [] n) ∧
    ∃ r w', (dec.generate m argmax restored promptIds maxNewTokens).run w = (.ok r, w') ∧
      r.outputTokenIds = Greedy.upTo dec.eos (Greedy.stream next [] maxNewTokens.toNat) := by
  intro P next n
  -- a run that returns `out` returns the greedy decode exactly when `out` is the greedy decode
  have hiff : ∀ {x : Proc (RestoredVerifier κ Λ) VerifierError (List Token)} {out : List Token},
      (∃ v', x.run (holds m P promptIds.length [] none) = (.ok out, v')) →
      ((∃ v', (do RestoredVerifier.prefill restored promptIds; x).run v =
          (.ok (Greedy.upTo o.eos (Greedy.stream next [] n)), v')) ↔
        out = Greedy.upTo o.eos (Greedy.stream next [] n)) := by
    rintro x out ⟨v', hx⟩
    rw [Proc.run_bind_ok (RestoredVerifier.run_prefill m restored hne v), hx]
    constructor
    · rintro ⟨v'', h⟩
      exact Except.ok.inj (Prod.mk.inj h).1
    · intro h
      exact ⟨v', by rw [h]⟩
  refine ⟨?_, ?_, ?_, ?_⟩
  · rw [hiff (run_trim hrun), Greedy.Plan.blocks_iff (carryPlan_fits _ _ _ _ _ _) (Nat.le_refl _)]
  · rw [hiff (run_carry hrun), Greedy.Plan.blocks_iff (carryPlan_fits _ _ _ _ _ _) (Nat.le_refl _)]
  · rw [hiff (run_eager hrun), Greedy.Plan.blocks_iff (eagerPlan_fits _ _ _ _ _ _ _ _) (Nat.le_refl _)]
  · unfold DistributedFusedDecoder.generate
    rw [if_neg hne, if_neg (by omega)]
    obtain ⟨adapter, cand, logits, running⟩ := w
    have hpre := DistributedFusedDecoder.run_onAdapter (RestoredVerifier.run_prefill m restored hne adapter) cand logits
      running
    rw [Proc.run_bind_ok hpre]
    exact DistributedFusedDecoder.run_loop maxNewTokens.toNat rfl rfl (Nat.sub_le _ _)

/-- A target that counts up, with the tokens as the entries of its cache. -/
def countingTarget (promptIds : List Token) : Prefilled Token Token := ⟨promptIds, promptIds.getLastD 0 + 1⟩

/-- A drafter that counts up from the bonus token. -/
def countingDrafts : DraftBlock := fun _ bonus _ n => (List.range n).map fun i => bonus + 1 + (i : Int)

/-- The same drafter as an array. -/
def countingDraftIds : DraftBlockIds := fun _ bonus _ _ => Vector.ofFn fun i => bonus + 1 + (i.val : Int)

/-- Blocks of three that count up, with `t` as EOS. -/
def countingOptions (t : Token) : FusedOptions := { genTokens := 5, blockSize := 3, eosIds := [t], stopOnRunaway := false }

/-- A distributed decoder of blocks of three that counts up, with `t` as EOS. -/
def countingDistributed (t : Token) : DistributedFusedDecoder := ⟨countingDrafts, 3, [t], pos_three⟩

/-- With 3 as EOS, the first block ends with it. -/
theorem counting_aligned :
    ∃ v', (do RestoredVerifier.prefill countingTarget [0]
              fusedSpecdecodeGenerateMlxTrim (KvModel.ofTokens fun c => c.getLastD 0 + 1) id (countingOptions 3)
                countingDraftIds).run {} = (.ok [1, 2, 3], v') := by
  have h := (greedy_iff_aligned (KvModel.ofTokens fun c => c.getLastD 0 + 1) id countingTarget [0] (by decide)
    (countingOptions 3) rfl countingDraftIds [] countingDrafts (countingDistributed 3) 5 (by decide) {} {}).1
  exact h.2 (by decide +kernel)

/-- With 2 as EOS, every loop on one host returns the token that the first block has after it; the greedy decode and the
distributed decoder end with the EOS. -/
theorem eos_inside_block :
    ((do RestoredVerifier.prefill countingTarget [0]
         fusedSpecdecodeGenerateMlxTrim (KvModel.ofTokens fun c => c.getLastD 0 + 1) id (countingOptions 2)
          countingDraftIds).run {}).1 = .ok [1, 2, 3] ∧
    ((do RestoredVerifier.prefill countingTarget [0]
         fusedSpecdecodeGenerateMlx (KvModel.ofTokens fun c => c.getLastD 0 + 1) id (countingOptions 2)
          countingDraftIds).run {}).1 = .ok [1, 2, 3] ∧
    ((do RestoredVerifier.prefill countingTarget [0]
         fusedSpecdecodeGenerate (KvModel.ofTokens fun c => c.getLastD 0 + 1) id (countingOptions 2) [] countingDrafts).run
        {}).1 = .ok [1, 2, 3] ∧
    Greedy.upTo (countingOptions 2).eos (Greedy.stream
      ((countingTarget [0]).greedyNext (KvModel.ofTokens fun c => c.getLastD 0 + 1) id) [] 5) = [1, 2] ∧
    (((countingDistributed 2).generate (KvModel.ofTokens fun c => c.getLastD 0 + 1) id countingTarget [0] 5).run {}).1 =
      .ok ⟨[1, 2], 1, 2, 2, true⟩ := by
  decide +kernel

end Fused

end KakeyaEngine
