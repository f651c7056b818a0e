import Mathlib.Data.List.Chain
import KakeyaEngine.Speculative.FusedEquivalence

/-!
# What the fused loops emit

Each fused loop on one host gives its callback all the tokens after every block, before it looks for a runaway loop at
their end.  What is emitted always grows, but a runaway loop that is found is cut from the tokens that are returned, not
from those that were emitted: both agree exactly when no block ends in one (`delivered_iff_quiet`).
-/

namespace KakeyaEngine

variable {κ Λ : Type}

namespace FusedOptions

/-- Whether a runaway loop is looked for, and stands at the end of the tokens. -/
def runsAway (o : FusedOptions) (ids : List Token) : Bool := o.stopOnRunaway && decide (0 < Fused.trailingRunawayDrop ids)

/-- The options without the detection of runaway loops. -/
def unguarded (o : FusedOptions) : FusedOptions := { o with stopOnRunaway := false }

@[simp] theorem unguarded_eos (o : FusedOptions) : o.unguarded.eos = o.eos := rfl

@[simp] theorem unguarded_allowGreedyFallback (o : FusedOptions) :
    o.unguarded.allowGreedyFallback = o.allowGreedyFallback := rfl

end FusedOptions

namespace Fused

open Prefilled (holds)

/-! ### The loops with a callback -/

/-- What the callback holds at the end is what is returned, and every list it was given is a prefix of the next one.  One
that was never called holds nothing. -/
def Delivered (emitted : List (List Token)) (tokens : List Token) : Prop :=
  emitted.IsChain (fun a b => a <+: b) ∧ tokens = emitted.getLast?.getD []

instance (emitted : List (List Token)) (tokens : List Token) : Decidable (Delivered emitted tokens) :=
  inferInstanceAs (Decidable (_ ∧ _))

/-- A run returns, the lists that it emits grow, and they and what is returned agree if and only if `quiet` holds. -/
def DeliversIff {τ : Type} (quiet : Prop) (x : Proc τ VerifierError (List (List Token) × List Token)) (v : τ) : Prop :=
  ∃ emitted tokens v', x.run v = (.ok (emitted, tokens), v') ∧ emitted.IsChain (fun a b => a <+: b) ∧
    (Delivered emitted tokens ↔ quiet)

/-- Runs a loop as `tokensOf` does: the lists that the callback is given, and the tokens that are returned. -/
def deliver {τ : Type} (o : FusedOptions) (round : Progress Λ → Proc τ VerifierError (Progress Λ)) (st : Progress Λ) :
    Proc τ VerifierError (List (List Token) × List Token) := do
  let st ← loop o round o.genTokens.toNat st
  pure (st.emitted, st.generated.take o.genTokens.toNat)

section Loops

variable (m : KvModel κ Λ) (argmax : Λ → Token) (o : FusedOptions)

/-- `fused_specdecode_generate_mlx_trim` with `on_commit`. -/
def trimOnCommit (draftBlockIds : DraftBlockIds) :
    Proc (RestoredVerifier κ Λ) VerifierError (List (List Token) × List Token) :=
  deliver o (trimRound m argmax o draftBlockIds) {}

/-- `fused_specdecode_generate_mlx` with `on_commit`. -/
def carryOnCommit (draftBlockIds : DraftBlockIds) :
    Proc (RestoredVerifier κ Λ) VerifierError (List (List Token) × List Token) := do
  let v ← Proc.get
  deliver o (carryRound m argmax o draftBlockIds) { tailLogits := v.nextTokenLogits }

/-- What follows the blocks of `fused_specdecode_generate` with `on_commit`. -/
def fallbackOnCommit (st : Progress Λ) : Proc (RestoredVerifier κ Λ) VerifierError (List (List Token) × List Token) :=
  if st.fallbackToGreedy then deliver o (greedyRound m argmax o) { st with stop := false, fallbackToGreedy := false }
  else pure (st.emitted, st.generated.take o.genTokens.toNat)

/-- `fused_specdecode_generate` with `on_commit`. -/
def eagerOnCommit (rings : List Nat) (draftBlockCached : DraftBlock) :
    Proc (RestoredVerifier κ Λ) VerifierError (List (List Token) × List Token) := do
  let st ← loop o (eagerRound m argmax o rings draftBlockCached) o.genTokens.toNat {}
  fallbackOnCommit m argmax o st

end Loops

/-! ### The end of an iteration -/

/-- What the detection of runaway loops makes of the end of an iteration. -/
def stopRunaway (o : FusedOptions) (st : Progress Λ) : Progress Λ :=
  if st.stop = true ∧ st.fallbackToGreedy = false then st
  else if o.runsAway st.generated then
    { st with
      generated := st.generated.take (st.generated.length - trailingRunawayDrop st.generated)
      stop := true
      fallbackToGreedy := false }
  else st

variable {m : KvModel κ Λ} {argmax : Λ → Token} {P : Prefilled κ Λ} {o : FusedOptions} {p : Nat}

/-- The end of an iteration, by how it ends. -/
theorem commit_cases (o : FusedOptions) (tokens : List Token) (k : Nat) (st : Progress Λ) :
    commit o tokens k st =
      if tokens.any o.eos then
        { st with
          generated := st.generated ++ tokens, accepts := st.accepts ++ [k], stop := true
          emitted := st.emitted ++ [st.generated ++ tokens] }
      else if o.runsAway (st.generated ++ tokens) then
        { st with
          generated := (st.generated ++ tokens).take
            ((st.generated ++ tokens).length - trailingRunawayDrop (st.generated ++ tokens))
          accepts := st.accepts ++ [k], stop := true, emitted := st.emitted ++ [st.generated ++ tokens] }
      else
        { st with
          generated := st.generated ++ tokens, accepts := st.accepts ++ [k]
          emitted := st.emitted ++ [st.generated ++ tokens] } := by
  unfold commit FusedOptions.runsAway
  cases o.stopOnRunaway with
  | false => simp
  | true => simp

theorem commit_guarded (tokens : List Token) (k : Nat) {st : Progress Λ} (hstop : st.stop = false)
    (hfb : st.fallbackToGreedy = false) :
    commit o tokens k st = stopRunaway o (commit o.unguarded tokens k st) := by
  obtain ⟨generated, accepts, stop, fallback, tail, tailLogits, emitted⟩ := st
  dsimp only at hstop hfb
  subst hstop hfb
  rw [commit_cases, commit_eq (o := o.unguarded) rfl tokens k rfl, FusedOptions.unguarded_eos]
  unfold stopRunaway
  cases hany : tokens.any o.eos with
  | true => simp
  | false => simp

theorem commitEager_guarded (tokens : List Token) (k : Nat) {st : Progress Λ} (hstop : st.stop = false)
    (hfb : st.fallbackToGreedy = false) :
    commitEager o tokens k st = stopRunaway o (commitEager o.unguarded tokens k st) := by
  obtain ⟨generated, accepts, stop, fallback, tail, tailLogits, emitted⟩ := st
  dsimp only at hstop hfb
  subst hstop hfb
  unfold commitEager
  rw [commit_cases, commit_eq (o := o.unguarded) rfl tokens k rfl, FusedOptions.unguarded_eos]
  unfold stopRunaway
  cases hany : tokens.any o.eos with
  | true => simp
  | false =>
    cases hdrop : o.runsAway (generated ++ tokens) with
    | true =>
      by_cases hpoor : (o.allowGreedyFallback && poorAcceptance (accepts ++ [k])) = true
      · simp [hdrop, hpoor]
      · simp [hdrop, hpoor]
    | false =>
      by_cases hpoor : (o.allowGreedyFallback && poorAcceptance (accepts ++ [k])) = true
      · simp [hdrop, hpoor]
      · simp [hdrop, hpoor]

/-! ### A run -/

theorem Delivered.append {emitted : List (List Token)} {g : List Token} (h : Delivered emitted g) (c : List Token) :
    Delivered (emitted ++ [g ++ c]) (g ++ c) := by
  obtain ⟨hchain, rfl⟩ := h
  refine ⟨?_, by simp⟩
  rw [List.isChain_append]
  refine ⟨hchain, List.isChain_singleton _, ?_⟩
  intro x hx y hy
  obtain rfl : y = _ := by simpa using hy.symm
  rw [Option.mem_def.1 hx]
  exact List.prefix_append _ _

section Loop

variable {σ : Type} (m argmax P o p) (plan : Greedy.Plan Token σ) (I : σ → Progress Λ → RestoredVerifier κ Λ → Prop)

/-- An iteration with the detection of runaway loops: without it the block of the plan would be committed and emitted, and
the detection cuts that. -/
structure Guards (s : σ) (st st' : Progress Λ) (v' : RestoredVerifier κ Λ) : Prop extends
    Commits m argmax P o p plan I s st st' v' where
  emitted : st'.emitted = st.emitted ++ [st'.generated]

/-- How a loop with the detection ends: what was emitted grows, and is what was generated if every block before the first
EOS was `quiet`; the loop may have left for the greedy one. -/
structure EndsGuarded (quiet : Prop) (st : Progress Λ) (v : RestoredVerifier κ Λ) : Prop where
  chain : st.emitted.IsChain (fun a b => a <+: b)
  bounded : st.generated.length ≤ o.genTokens.toNat
  ends : (st.fallbackToGreedy = false ∧ (st.generated = st.emitted.getLast?.getD [] ↔ quiet)) ∨
    (st.fallbackToGreedy = true ∧ st.generated = st.emitted.getLast?.getD [] ∧
      (∃ snapshot, v = holds m P p st.generated snapshot) ∧
      (Greedy.Plan.QuietSteps (P.greedyNext m argmax) o.eos o.runsAway st.generated (remaining o st.generated) ↔ quiet))

variable {m argmax P o p plan I} {round : Progress Λ → Proc (RestoredVerifier κ Λ) VerifierError (Progress Λ)}

/-- Cutting a runaway loop leaves fewer tokens. -/
theorem take_ne_of_runsAway {ids : List Token} (h : o.runsAway ids = true) :
    ids.take (ids.length - trailingRunawayDrop ids) ≠ ids := by
  have hdrop : 0 < trailingRunawayDrop ids := by
    unfold FusedOptions.runsAway at h
    simp only [Bool.and_eq_true, decide_eq_true_eq] at h
    exact h.2
  have hne : ids ≠ [] := by
    rintro rfl
    exact absurd hdrop (by decide)
  have hpos := List.length_pos_of_ne_nil hne
  intro heq
  have hlen := congrArg List.length heq
  rw [List.length_take] at hlen
  omega

/-- A loop whose iterations are guarded ends with what was emitted exactly when the plan is quiet. -/
theorem run_guarded (hfit : plan.Fits)
    (hround : ∀ s st v, I s st v → st.stop = false → 0 < remaining o st.generated →
      ∃ st' v', (round st).run v = (.ok (stopRunaway o st'), v') ∧ Guards m argmax P o p plan I s st st' v')
    (n : Nat) {s : σ} {st : Progress Λ} {v : RestoredVerifier κ Λ} (hI : I s st v) (hstop : st.stop = false)
    (hfb : st.fallbackToGreedy = false) (hn : remaining o st.generated ≤ n) (hle : st.generated.length ≤ o.genTokens.toNat)
    (hs : Delivered st.emitted st.generated) :
    ∃ st' v', (loop o round n st).run v = (.ok st', v') ∧
      EndsGuarded m argmax P o p
        (plan.Quiet (P.greedyNext m argmax) o.eos o.runsAway n s st.generated (remaining o st.generated)) st' v' ∧
      (st'.fallbackToGreedy = true → ∃ s g r, plan.after s g r = none) := by
  induction n generalizing s st v with
  | zero => exact ⟨st, v, rfl, ⟨hs.1, hle, Or.inl ⟨hfb, iff_of_true hs.2 trivial⟩⟩, fun h => by rw [hfb] at h; cases h⟩
  | succ n ih =>
    by_cases hr : remaining o st.generated = 0
    · rw [loop_full hr]
      refine ⟨st, v, rfl, ⟨hs.1, hle, Or.inl ⟨hfb, iff_of_true hs.2 ?_⟩⟩, fun h => by rw [hfb] at h; cases h⟩
      unfold Greedy.Plan.Quiet
      rw [if_pos hr]
      trivial
    · obtain ⟨st₁, v₁, hrun, hguards⟩ := hround s st v hI hstop (by omega)
      obtain ⟨hpos, hwidth⟩ := hfit s st.generated (remaining o st.generated) (by omega)
      have hgen := hguards.generated
      have hlen : (block (P.greedyNext m argmax) o plan s st.generated).length =
          plan.width s st.generated (remaining o st.generated) := Greedy.length_stream _ _
      have hleft : remaining o st₁.generated = remaining o st.generated -
          (block (P.greedyNext m argmax) o plan s st.generated).length := by
        unfold remaining
        rw [hgen, List.length_append]
        omega
      have hle₁ : st₁.generated.length ≤ o.genTokens.toNat := by
        rw [hgen, List.length_append, hlen]
        unfold remaining at hwidth hr ⊢
        omega
      have hs₁ : Delivered st₁.emitted st₁.generated := by
        rw [hguards.emitted, hgen]
        exact hs.append _
      unfold loop
      rw [if_pos ⟨by unfold remaining at hr; omega, hstop⟩, Proc.run_bind_ok hrun]
      unfold Greedy.Plan.Quiet
      rw [if_neg hr]
      dsimp only
      rw [← block]
      by_cases hany : (block (P.greedyNext m argmax) o plan s st.generated).any o.eos = true
      · -- the loop stops at an EOS, and nothing is cut
        obtain ⟨hs', hf⟩ := hguards.eos hany
        have hkeep : stopRunaway o st₁ = st₁ := if_pos ⟨hs', hf⟩
        rw [if_pos hany, hkeep, loop_stopped hs']
        exact ⟨st₁, v₁, rfl, ⟨hs₁.1, hle₁, Or.inl ⟨hf, iff_of_true hs₁.2 trivial⟩⟩, fun h => by rw [hf] at h; cases h⟩
      · rw [if_neg hany, ← hgen, ← hleft]
        have hproceeds := hguards.proceeds (by simpa using hany)
        have hgo : ¬ (st₁.stop = true ∧ st₁.fallbackToGreedy = false) := by
          cases hafter : plan.after s st.generated (remaining o st.generated) with
          | none =>
            rw [hafter] at hproceeds
            simp [hproceeds.2.1]
          | some s₁ =>
            rw [hafter] at hproceeds
            simp [hproceeds.1]
        by_cases hbad : o.runsAway st₁.generated = true
        · -- a runaway loop is cut from what was emitted
          have hcut : stopRunaway o st₁ = _ := (if_neg hgo).trans (if_pos hbad)
          rw [hcut, loop_stopped rfl]
          refine ⟨_, v₁, rfl, ⟨hs₁.1, ?_, Or.inl ⟨rfl, iff_of_false ?_ ?_⟩⟩, fun h => by cases h⟩
          · dsimp only
            rw [List.length_take]
            omega
          · rw [← hs₁.2]
            exact take_ne_of_runsAway hbad
          · rw [hbad]
            exact fun h => Bool.noConfusion h.1
        · have hkeep : stopRunaway o st₁ = st₁ := (if_neg hgo).trans (if_neg hbad)
          have hgood : o.runsAway st₁.generated = false := by simpa using hbad
          rw [hkeep]
          cases hafter : plan.after s st.generated (remaining o st.generated) with
          | none =>
            rw [hafter] at hproceeds
            obtain ⟨hs', hf, hv⟩ := hproceeds
            rw [loop_stopped hs']
            exact ⟨st₁, v₁, rfl, ⟨hs₁.1, hle₁, Or.inr ⟨hf, hs₁.2, hv, (and_iff_right hgood).symm⟩⟩, fun _ => ⟨_, _, _, hafter⟩⟩
          | some s₁ =>
            rw [hafter] at hproceeds
            obtain ⟨hs', hf, hI₁⟩ := hproceeds
            obtain ⟨st₂, v₂, hrun₂, hends, hnone⟩ := ih hI₁ hs' hf (by omega) hle₁ hs₁
            refine ⟨st₂, v₂, hrun₂, ?_, hnone⟩
            rw [and_iff_right hgood]
            exact hends

end Loop

/-- What a loop delivers that never leaves for the greedy one. -/
theorem run_deliver {σ : Type} {plan : Greedy.Plan Token σ} {I : σ → Progress Λ → RestoredVerifier κ Λ → Prop}
    {round : Progress Λ → Proc (RestoredVerifier κ Λ) VerifierError (Progress Λ)} (hfit : plan.Fits)
    (hsome : ∀ s g r, plan.after s g r ≠ none)
    (hround : ∀ s st v, I s st v → st.stop = false → 0 < remaining o st.generated →
      ∃ st' v', (round st).run v = (.ok (stopRunaway o st'), v') ∧ Guards m argmax P o p plan I s st st' v')
    {s : σ} {st : Progress Λ} {v : RestoredVerifier κ Λ} (hI : I s st v) (hstop : st.stop = false)
    (hfb : st.fallbackToGreedy = false) (hle : st.generated.length ≤ o.genTokens.toNat)
    (hs : Delivered st.emitted st.generated) :
    DeliversIff
      (plan.Quiet (P.greedyNext m argmax) o.eos o.runsAway o.genTokens.toNat s st.generated (remaining o st.generated))
      (deliver o round st) v := by
  obtain ⟨st', v', hrun, ⟨hchain, hbounded, hends⟩, hnone⟩ :=
    run_guarded hfit hround o.genTokens.toNat hI hstop hfb (Nat.sub_le _ _) hle hs
  refine ⟨st'.emitted, st'.generated, v', ?_, hchain, ?_⟩
  · unfold deliver
    rw [Proc.run_bind_ok hrun, Proc.run_pure, List.take_of_length_le hbounded]
  · rcases hends with ⟨-, hquiet⟩ | ⟨hf, -⟩
    · rw [← hquiet]
      exact and_iff_right hchain
    · obtain ⟨s, g, r, h⟩ := hnone hf
      exact absurd h (hsome s g r)

/-! ### The three loops -/

section Rounds

variable {draftBlockIds : DraftBlockIds} {rings : List Nat} {draftBlockCached : DraftBlock}

theorem commit_emitted (hrun : o.stopOnRunaway = false) (tokens : List Token) (k : Nat) {st : Progress Λ}
    (hstop : st.stop = false) :
    (commit o tokens k st).emitted = st.emitted ++ [(commit o tokens k st).generated] := by
  rw [commit_eq hrun tokens k hstop]

/-- An iteration without the detection, and what it emits. -/
theorem Commits.guards {σ : Type} {plan : Greedy.Plan Token σ} {I : σ → Progress Λ → RestoredVerifier κ Λ → Prop} {s : σ}
    {st st' : Progress Λ} {v' : RestoredVerifier κ Λ} (h : Commits m argmax P o.unguarded p plan I s st st' v')
    (hemitted : st'.emitted = st.emitted ++ [st'.generated]) : Guards m argmax P o p plan I s st st' v' :=
  ⟨⟨h.generated, h.eos, h.proceeds⟩, hemitted⟩

theorem trimRound_guards {blocks : Nat} {st : Progress Λ} {v : RestoredVerifier κ Λ} (hI : Trimmed m P p blocks st v)
    (hstop : st.stop = false) (hr : 0 < remaining o st.generated) :
    ∃ st' v', (trimRound m argmax o draftBlockIds st).run v = (.ok (stopRunaway o st'), v') ∧
      Guards m argmax P o p (carryPlan (P.greedyNext m argmax) o p draftBlockIds) (Trimmed m P p) blocks st st' v' := by
  obtain ⟨rfl, hfb, snapshot, rfl⟩ := hI
  obtain ⟨c, k, snapshot', hc, hround⟩ := run_trimRound m argmax P o p draftBlockIds st snapshot hr
  rw [commit_guarded c k hstop hfb] at hround
  have hI' : Trimmed m P p (st.accepts.length + 1) (commit o.unguarded c k st) (holds m P p (st.generated ++ c) snapshot') := by
    rw [commit_eq (o := o.unguarded) rfl _ _ hstop]
    exact ⟨by simp, hfb, _, rfl⟩
  have hcommits : Commits m argmax P o.unguarded p (carryPlan (P.greedyNext m argmax) o.unguarded p draftBlockIds) _ _ _ _ _ :=
    commits_of_matched rfl hc rfl hstop hfb hI'
  exact ⟨_, _, hround, hcommits.guards (commit_emitted rfl c k hstop)⟩

theorem carryRound_guards {blocks : Nat} {st : Progress Λ} {v : RestoredVerifier κ Λ} (hI : Carried m P p blocks st v)
    (hstop : st.stop = false) (hr : 0 < remaining o st.generated) :
    ∃ st' v', (carryRound m argmax o draftBlockIds st).run v = (.ok (stopRunaway o st'), v') ∧
      Guards m argmax P o p (carryPlan (P.greedyNext m argmax) o p draftBlockIds) (Carried m P p) blocks st st' v' := by
  obtain ⟨rfl, hfb, hlogits, base, row, snapshot, hgen, rfl⟩ := hI
  obtain ⟨c, k, base', tail', row', snapshot', hc, hgen', hround⟩ :=
    run_carryRound m argmax P o p draftBlockIds hgen hlogits row snapshot hr
  rw [commit_guarded c k (by exact hstop) (by exact hfb)] at hround
  have hI' : Carried m P p (st.accepts.length + 1)
      (commit o.unguarded c k { st with tail := tail', tailLogits := some (P.row m (st.generated ++ c)) })
      ⟨some (P.entries m base'), p + base'.length, row', snapshot'⟩ := by
    rw [commit_eq (o := o.unguarded) rfl _ _ (by exact hstop)]
    exact ⟨by simp, hfb, rfl, base', row', snapshot', hgen', rfl⟩
  have hcommits : Commits m argmax P o.unguarded p (carryPlan (P.greedyNext m argmax) o.unguarded p draftBlockIds) _ _ st
      (commit o.unguarded c k { st with tail := tail', tailLogits := some (P.row m (st.generated ++ c)) }) _ :=
    commits_of_matched rfl hc rfl hstop hfb hI'
  exact ⟨_, _, hround, hcommits.guards (commit_emitted rfl c k (by exact hstop))⟩

theorem eagerRound_guards {accepts : List Nat} {st : Progress Λ} {v : RestoredVerifier κ Λ} (hI : Kept m P p accepts st v)
    (hstop : st.stop = false) (hr : 0 < remaining o st.generated) :
    ∃ st' v', (eagerRound m argmax o rings draftBlockCached st).run v = (.ok (stopRunaway o st'), v') ∧
      Guards m argmax P o p (eagerPlan (P.greedyNext m argmax) o p rings P.cache.length draftBlockCached) (Kept m P p)
        accepts st st' v' := by
  obtain ⟨rfl, hfb, snapshot, rfl⟩ := hI
  obtain ⟨c, k, hk, hc, hround⟩ := run_eagerRound m argmax P o p rings draftBlockCached st snapshot hr
  rw [commitEager_guarded c k hstop hfb] at hround
  have hcommits : Commits m argmax P o.unguarded p
      (eagerPlan (P.greedyNext m argmax) o.unguarded p rings P.cache.length draftBlockCached) _ _ _ _ _ :=
    commitEager_commits rfl snapshot hstop hfb hk hc
  refine ⟨_, _, hround, hcommits.guards ?_⟩
  unfold commitEager
  rw [commit_eq (o := o.unguarded) rfl c k hstop]
  dsimp only
  split
  · rfl
  · rfl

theorem stopRunaway_accepts (st : Progress Λ) (accepts : List Nat) :
    { stopRunaway o st with accepts := accepts } = stopRunaway o { st with accepts := accepts } := by
  unfold stopRunaway
  dsimp only
  by_cases heos : st.stop = true ∧ st.fallbackToGreedy = false
  · rw [if_pos heos, if_pos heos]
  · rw [if_neg heos, if_neg heos]
    split
    · rfl
    · rfl

theorem greedyRound_guards {st : Progress Λ} {v : RestoredVerifier κ Λ} (hI : Trimmed m P p st.accepts.length st v)
    (hstop : st.stop = false) :
    ∃ st' v', (greedyRound m argmax o st).run v = (.ok (stopRunaway o st'), v') ∧
      Guards m argmax P o p (Greedy.Plan.single Token) (fun _ st => Trimmed m P p st.accepts.length st) () st st' v' := by
  obtain ⟨-, hfb, snapshot, rfl⟩ := hI
  have hround := run_greedyRound m argmax P o p st snapshot
  have hcommits : Commits m argmax P o.unguarded p _ _ _ _ _ _ := commitGreedy_commits rfl snapshot hstop hfb
  refine ⟨_, _, hround.trans ?_, hcommits.guards (commit_emitted rfl _ 1 hstop)⟩
  rw [commit_guarded _ 1 hstop hfb, stopRunaway_accepts]

theorem trim_deliversIff :
    DeliversIff
      ((carryPlan (P.greedyNext m argmax) o p draftBlockIds).Quiet (P.greedyNext m argmax) o.eos o.runsAway
        o.genTokens.toNat 0 [] o.genTokens.toNat)
      (trimOnCommit m argmax o draftBlockIds) (holds m P p [] none) :=
  run_deliver (carryPlan_fits m argmax P o p draftBlockIds) (fun _ _ _ => by simp [carryPlan])
    (fun _ _ _ => trimRound_guards) ⟨rfl, rfl, none, rfl⟩ rfl rfl (Nat.zero_le _) ⟨List.isChain_nil, rfl⟩

theorem carry_deliversIff :
    DeliversIff
      ((carryPlan (P.greedyNext m argmax) o p draftBlockIds).Quiet (P.greedyNext m argmax) o.eos o.runsAway
        o.genTokens.toNat 0 [] o.genTokens.toNat)
      (carryOnCommit m argmax o draftBlockIds) (holds m P p [] none) :=
  run_deliver (carryPlan_fits m argmax P o p draftBlockIds) (fun _ _ _ => by simp [carryPlan])
    (fun _ _ _ => carryRound_guards) ⟨rfl, rfl, rfl, [], _, none, rfl, rfl⟩ rfl rfl (Nat.zero_le _) ⟨List.isChain_nil, rfl⟩

variable (m argmax P p o) in
/-- The greedy loop goes on from what was emitted before it. -/
theorem greedy_deliversIff (st : Progress Λ) (snapshot : Option (List κ)) (hstop : st.stop = false)
    (hfb : st.fallbackToGreedy = false) (hle : st.generated.length ≤ o.genTokens.toNat)
    (hs : Delivered st.emitted st.generated) :
    DeliversIff
      (Greedy.Plan.QuietSteps (P.greedyNext m argmax) o.eos o.runsAway st.generated (remaining o st.generated))
      (deliver o (greedyRound m argmax o) st) (holds m P p st.generated snapshot) := by
  have hsingle : (Greedy.Plan.single Token).Quiet (P.greedyNext m argmax) o.eos o.runsAway o.genTokens.toNat () _ _ ↔ _ :=
    Greedy.Plan.single_quiet (Nat.sub_le o.genTokens.toNat st.generated.length) st.generated
  unfold remaining
  rw [← hsingle]
  exact run_deliver Greedy.Plan.single_fits (fun _ _ _ => by simp [Greedy.Plan.single])
    (fun _ _ _ hI hstop _ => greedyRound_guards hI hstop) ⟨rfl, hfb, snapshot, rfl⟩ hstop hfb hle hs

theorem eager_deliversIff :
    DeliversIff
      ((eagerPlan (P.greedyNext m argmax) o p rings P.cache.length draftBlockCached).Quiet (P.greedyNext m argmax) o.eos
        o.runsAway o.genTokens.toNat [] [] o.genTokens.toNat)
      (eagerOnCommit m argmax o rings draftBlockCached) (holds m P p [] none) := by
  have hround : ∀ accepts (st : Progress Λ) v, Kept m P p accepts st v → st.stop = false →
      0 < remaining o st.generated →
      ∃ st' v', (eagerRound m argmax o rings draftBlockCached st).run v = (.ok (stopRunaway o st'), v') ∧
        Guards m argmax P o p (eagerPlan (P.greedyNext m argmax) o p rings P.cache.length draftBlockCached)
          (Kept m P p) accepts st st' v' := fun _ _ _ => eagerRound_guards
  have hstart : Kept m P p [] ({} : Progress Λ) (holds m P p [] none) := ⟨rfl, rfl, none, rfl⟩
  obtain ⟨st, v, hloop, ⟨hchain, hbounded, hends⟩, -⟩ :=
    run_guarded (eagerPlan_fits m argmax P o p rings P.cache.length draftBlockCached) hround o.genTokens.toNat hstart rfl
      rfl (Nat.sub_le _ _) (Nat.zero_le _) ⟨List.isChain_nil, rfl⟩
  unfold DeliversIff eagerOnCommit
  rw [Proc.run_bind_ok hloop]
  unfold fallbackOnCommit
  rcases hends with ⟨hf, hquiet⟩ | ⟨hf, hlast, ⟨snapshot, rfl⟩, hquiet⟩
  · rw [hf, if_neg (by simp)]
    refine ⟨st.emitted, st.generated, v, ?_, hchain, ?_⟩
    · rw [Proc.run_pure, List.take_of_length_le hbounded]
    · exact (and_iff_right hchain).trans hquiet
  · -- the greedy loop goes on with what was emitted so far
    rw [hf, if_pos rfl]
    have hgreedy := greedy_deliversIff m argmax P o p { st with stop := false, fallbackToGreedy := false } snapshot rfl rfl
      hbounded ⟨hchain, hlast⟩
    obtain ⟨emitted, tokens, v', hrun, hgrow, hdelivered⟩ := hgreedy
    exact ⟨emitted, tokens, v', hrun, hgrow, hdelivered.trans hquiet⟩

end Rounds

/-- When the callback holds what is returned.  In each fused loop on one host every list that is emitted is a prefix of the
next one, and the last one is what is returned if and only if none of the blocks before the first EOS ends in a runaway
loop while those are looked for, whatever the drafts. -/
theorem delivered_iff_quiet (m : KvModel κ Λ) (argmax : Λ → Token) (restored : List Token → Prefilled κ Λ)
    (promptIds : List Token) (hne : promptIds ≠ []) (o : FusedOptions) (draftBlockIds : DraftBlockIds) (rings : List Nat)
    (draftBlockCached : DraftBlock) (v : RestoredVerifier κ Λ) :
    let P := restored promptIds
    let next := P.greedyNext m argmax
    let n := o.genTokens.toNat
    let carried := (carryPlan next o promptIds.length draftBlockIds).Quiet next o.eos o.runsAway n 0 [] n
    let eager := (eagerPlan next o promptIds.length rings P.cache.length draftBlockCached).Quiet next o.eos o.runsAway n [] [] n
    DeliversIff carried (do RestoredVerifier.prefill restored promptIds; trimOnCommit m argmax o draftBlockIds) v ∧
    DeliversIff carried (do RestoredVerifier.prefill restored promptIds; carryOnCommit m argmax o draftBlockIds) v ∧
    DeliversIff eager (do RestoredVerifier.prefill restored promptIds; eagerOnCommit m argmax o rings draftBlockCached) v := by
  intro P next n carried eager
  have hprefill := RestoredVerifier.run_prefill m restored hne v
  unfold DeliversIff
  rw [Proc.run_bind_ok hprefill, Proc.run_bind_ok hprefill, Proc.run_bind_ok hprefill]
  exact ⟨trim_deliversIff, carry_deliversIff, eager_deliversIff⟩

/-- Looking for runaway loops in blocks of four, without EOS. -/
def guardedOptions : FusedOptions := { genTokens := 40, blockSize := 4 }

/-- A target that counts up never runs away: the callback holds what is returned. -/
theorem counting_delivered :
    ∃ emitted tokens v', (do RestoredVerifier.prefill countingTarget [0]
                             trimOnCommit (KvModel.ofTokens fun c => c.getLastD 0 + 1) id guardedOptions
                              countingDraftIds).run {} = (.ok (emitted, tokens), v') ∧ Delivered emitted tokens := by
  obtain ⟨emitted, tokens, v', hrun, -, hiff⟩ := (delivered_iff_quiet (KvModel.ofTokens fun c => c.getLastD 0 + 1) id
    countingTarget [0] (by decide) guardedOptions countingDraftIds [] countingDrafts {}).1
  exact ⟨emitted, tokens, v', hrun, hiff.2 (by decide +kernel)⟩

/-- A target that repeats its last token. -/
def repeatingTarget (promptIds : List Token) : Prefilled Token Token := ⟨promptIds, promptIds.getLastD 0⟩

/-- Twelve tokens of a runaway loop were emitted by each of the loops, and three of them are returned. -/
theorem runaway_not_retracted :
    let emitted : List (List Token) := [List.replicate 4 7, List.replicate 8 7, List.replicate 12 7]
    ((do RestoredVerifier.prefill repeatingTarget [7]
         trimOnCommit (KvModel.ofTokens fun c => c.getLastD 0) id guardedOptions
          (fun _ bonus _ n => Vector.replicate n bonus)).run {}).1 = .ok (emitted, [7, 7, 7]) ∧
    ((do RestoredVerifier.prefill repeatingTarget [7]
         carryOnCommit (KvModel.ofTokens fun c => c.getLastD 0) id guardedOptions
          (fun _ bonus _ n => Vector.replicate n bonus)).run {}).1 = .ok (emitted, [7, 7, 7]) ∧
    ((do RestoredVerifier.prefill repeatingTarget [7]
         eagerOnCommit (KvModel.ofTokens fun c => c.getLastD 0) id guardedOptions []
          (fun _ bonus _ n => List.replicate n bonus)).run {}).1 = .ok (emitted, [7, 7, 7]) ∧
    ¬ Delivered emitted [7, 7, 7] := by
  decide +kernel

end Fused

end KakeyaEngine
