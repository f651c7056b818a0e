import Mathlib.Data.Fintype.Card
import Mathlib.Data.Set.Finite.Basic
import Mathlib.Logic.Relation
import Mathlib.Order.WellFounded

/-!
# Cycles of a relation

A relation without cycles has, in every nonempty part of a finite set, an element that is related to nothing in the part
(`exists_closed`).  A relation that is made of steps without cycles and of jumps has a cycle exactly when one of the points
that jumps lead to leads back to itself by runs of steps that each end in a jump (`exists_cycle_iff`).
-/

namespace Cycles

open Relation

variable {α : Type}

/-- No element is related to itself, directly or through others. -/
def Acyclic (r : α → α → Prop) : Prop := ∀ x, ¬ TransGen r x x

/-- What raises a number has no cycle. -/
theorem acyclic_of_rank {r : α → α → Prop} (rank : α → Nat) (h : ∀ x y, r x y → rank y < rank x) : Acyclic r := by
  have hlt : ∀ x y, TransGen r x y → rank y < rank x := by
    intro x y hxy
    induction hxy with
    | single hxy => exact h _ _ hxy
    | tail _ hyz ih => exact lt_trans (h _ _ hyz) ih
  exact fun x hx => lt_irrefl _ (hlt x x hx)

/-- Of finitely many elements with a property one is related to none of them. -/
theorem exists_closed {r : α → α → Prop} (hr : Acyclic r) (nodes : List α) (p : α → Prop) (h : ∃ x ∈ nodes, p x) :
    ∃ x ∈ nodes, p x ∧ ∀ y ∈ nodes, p y → ¬ r x y := by
  let s : {x // x ∈ nodes} → {x // x ∈ nodes} → Prop := fun a b => TransGen r b.1 a.1
  have hfinite : Finite {x // x ∈ nodes} := (List.finite_toSet nodes).to_subtype
  have htrans : IsTrans {x // x ∈ nodes} s := ⟨fun a b c hab hbc => hbc.trans hab⟩
  have hirrefl : Std.Irrefl s := ⟨fun a ha => hr a.1 ha⟩
  have hwf : WellFounded s := Finite.wellFounded_of_trans_of_irrefl s
  obtain ⟨x, hx, hpx⟩ := h
  obtain ⟨⟨m, hm⟩, hpm, hmin⟩ := WellFounded.has_min hwf {a | p a.1} ⟨⟨x, hx⟩, hpx⟩
  exact ⟨m, hm, hpm, fun y hy hpy hmy => hmin ⟨y, hy⟩ hpy (TransGen.single hmy)⟩

/-! ### Steps and jumps -/

variable (step jump : α → α → Prop)

/-- A run of steps that ends in a jump. -/
def Hop (t t' : α) : Prop := ∃ x, ReflTransGen step t x ∧ jump x t'

variable {step jump}

theorem Hop.transGen {t t' : α} (h : Hop step jump t t') : TransGen (fun x y => step x y ∨ jump x y) t t' := by
  obtain ⟨x, hsteps, hjump⟩ := h
  exact TransGen.tail' (ReflTransGen.mono (fun _ _ h => .inl h) _ _ hsteps) (.inr hjump)

/-- A path is a run of steps, or it hops and ends with a run of steps. -/
theorem transGen_cases {x y : α} (h : TransGen (fun x y => step x y ∨ jump x y) x y) :
    TransGen step x y ∨ ∃ t, TransGen (Hop step jump) x t ∧ ReflTransGen step t y := by
  induction h with
  | single hxy =>
    rcases hxy with hstep | hjump
    · exact .inl (.single hstep)
    · exact .inr ⟨_, .single ⟨x, .refl, hjump⟩, .refl⟩
  | tail _ hyz ih =>
    rcases ih with hsteps | ⟨t, hhops, hsteps⟩
    · rcases hyz with hstep | hjump
      · exact .inl (hsteps.tail hstep)
      · exact .inr ⟨_, .single ⟨_, hsteps.to_reflTransGen, hjump⟩, .refl⟩
    · rcases hyz with hstep | hjump
      · exact .inr ⟨t, hhops, hsteps.tail hstep⟩
      · exact .inr ⟨_, hhops.tail ⟨_, hsteps, hjump⟩, .refl⟩

/-- Steps have no cycle, so every cycle hops. -/
theorem acyclic_iff (hstep : Acyclic step) :
    Acyclic (fun x y => step x y ∨ jump x y) ↔ Acyclic (Hop step jump) := by
  constructor
  · intro h t ht
    exact h t (TransGen.closed (fun _ _ hop => hop.transGen) t t ht)
  · intro h x hx
    rcases transGen_cases hx with hsteps | ⟨t, hhops, hsteps⟩
    · exact hstep x hsteps
    · -- the first hop can start where the last one ended
      obtain ⟨t', ⟨y, hy, hjump⟩, hrest⟩ := TransGen.head'_iff.mp hhops
      exact h t (TransGen.head' ⟨y, hsteps.trans hy, hjump⟩ hrest)

end Cycles
