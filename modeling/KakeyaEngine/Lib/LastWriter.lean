import Mathlib.Order.Defs.LinearOrder
import Mathlib.Data.List.Basic
import Mathlib.Order.Lattice

/-!
# Last writer wins

A register holds at most one value, and a new value replaces it when its stamp is greater.  What a register holds in the
end has the greatest stamp (`latest_absorbAll`).  It does not depend on the order and the repetitions of the values
exactly when the greatest stamp belongs to one value only, or to the value that was held before (`Settled`).
-/

namespace LastWriter

variable {α τ : Type} [LinearOrder τ] (stamp : α → τ)

/-- A value arrives: it is kept when its stamp is greater than that of the value held. -/
def absorb (held : Option α) (a : α) : Option α :=
  match held with
  | none => some a
  | some h => if stamp a ≤ stamp h then some h else some a

/-- The values of a list arrive in order. -/
def absorbAll (held : Option α) (l : List α) : Option α := l.foldl (absorb stamp) held

/-- At most one value arrives. -/
def offer (held o : Option α) : Option α :=
  match o with
  | none => held
  | some a => absorb stamp held a

/-- `o` has the greatest stamp among the values in `p`, and is absent when there are none. -/
def Latest (p : α → Prop) : Option α → Prop
  | none => ∀ a, ¬ p a
  | some a => p a ∧ ∀ b, p b → stamp b ≤ stamp a

/-- A value with the greatest stamp that would replace the one held is the only one. -/
def Settled (held : Option α) (l : List α) : Prop :=
  ∀ a ∈ l, ∀ b ∈ l, stamp a = stamp b → (∀ c ∈ l, stamp c ≤ stamp a) → (∀ h, held = some h → stamp h < stamp a) → a = b

variable {stamp}

@[simp] theorem absorbAll_nil (held : Option α) : absorbAll stamp held [] = held := rfl

@[simp] theorem absorbAll_cons (held : Option α) (a : α) (l : List α) :
    absorbAll stamp held (a :: l) = absorbAll stamp (absorb stamp held a) l := rfl

@[simp] theorem offer_none (held : Option α) : offer stamp held none = held := rfl

@[simp] theorem offer_to_none (a : α) : offer stamp none (some a) = some a := rfl

@[simp] theorem offer_some (h a : α) :
    offer stamp (some h) (some a) = if stamp a ≤ stamp h then some h else some a := rfl

@[simp] theorem latest_none {p : α → Prop} : Latest stamp p none ↔ ∀ a, ¬ p a := Iff.rfl

@[simp] theorem latest_some {p : α → Prop} {a : α} : Latest stamp p (some a) ↔ p a ∧ ∀ b, p b → stamp b ≤ stamp a :=
  Iff.rfl

/-- The later one of two values. -/
theorem latest_two {x y : α} {o : Option α} :
    Latest stamp (fun a => some x = some a ∨ some y = some a) o ↔
      (o = some x ∨ o = some y) ∧ ∀ z, o = some z → stamp x ≤ stamp z ∧ stamp y ≤ stamp z := by
  cases o with
  | none =>
    simp only [latest_none, reduceCtorEq, or_self, false_and, iff_false]
    exact fun h => h x (Or.inl rfl)
  | some a =>
    simp only [latest_some, Option.some.injEq, eq_comm (a := a), or_imp, forall_and, forall_eq, forall_eq']

variable (stamp) in
theorem latest_absorb (held : Option α) (a : α) :
    Latest stamp (fun b => held = some b ∨ b = a) (absorb stamp held a) := by
  unfold absorb
  cases held with
  | none => simp [Latest]
  | some h =>
    dsimp only
    split
    · rename_i hle
      refine ⟨Or.inl rfl, ?_⟩
      rintro b (hb | rfl)
      · obtain rfl := Option.some.inj hb
        exact le_refl _
      · exact hle
    · rename_i hlt
      refine ⟨Or.inr rfl, ?_⟩
      rintro b (hb | rfl)
      · obtain rfl := Option.some.inj hb
        exact le_of_lt (not_le.1 hlt)
      · exact le_refl _

variable (stamp) in
/-- The register ends with a value that has the greatest stamp. -/
theorem latest_absorbAll (held : Option α) (l : List α) :
    Latest stamp (fun a => held = some a ∨ a ∈ l) (absorbAll stamp held l) := by
  induction l generalizing held with
  | nil =>
    cases held with
    | none => simp [Latest]
    | some h =>
      refine ⟨Or.inl rfl, ?_⟩
      rintro b (hb | hb)
      · obtain rfl := Option.some.inj hb
        exact le_refl _
      · cases hb
  | cons a l ih =>
    rw [absorbAll_cons]
    have hfirst := latest_absorb stamp held a
    have hrest := ih (absorb stamp held a)
    rcases ho : absorbAll stamp (absorb stamp held a) l with _ | c
    · rw [ho] at hrest
      cases hx : absorb stamp held a with
      | none =>
        rw [hx] at hfirst
        exact absurd (Or.inr rfl) (hfirst a)
      | some x => exact absurd (Or.inl hx) (hrest x)
    · rw [ho] at hrest
      obtain ⟨hc, hmax⟩ := hrest
      -- what the first step drops is not later than what it keeps
      have hkept : ∀ b, held = some b ∨ b = a → stamp b ≤ stamp c := by
        intro b hb
        cases hx : absorb stamp held a with
        | none =>
          rw [hx] at hfirst
          exact absurd hb (hfirst b)
        | some x =>
          rw [hx] at hfirst
          exact le_trans (hfirst.2 b hb) (hmax x (Or.inl hx))
      refine ⟨?_, ?_⟩
      · rcases hc with hc | hc
        · rw [hc] at hfirst
          rcases hfirst.1 with h | h
          · exact Or.inl h
          · exact Or.inr (by simp [h])
        · exact Or.inr (List.mem_cons_of_mem _ hc)
      · rintro b (hb | hb)
        · exact hkept b (Or.inl hb)
        · rcases List.mem_cons.1 hb with hb | hb
          · exact hkept b (Or.inr hb)
          · exact hmax b (Or.inr hb)

/-- A value that nothing exceeds stays. -/
theorem absorbAll_of_le {h : α} {l : List α} (hle : ∀ a ∈ l, stamp a ≤ stamp h) : absorbAll stamp (some h) l = some h := by
  induction l with
  | nil => rfl
  | cons a l ih =>
    have hstep : absorb stamp (some h) a = some h := if_pos (hle a (by simp))
    rw [absorbAll_cons, hstep]
    exact ih fun b hb => hle b (List.mem_cons_of_mem _ hb)

variable (stamp) in
/-- A register that ends with another value than before ends with a later one of the list. -/
theorem absorbAll_eq_or (held : Option α) (l : List α) :
    absorbAll stamp held l = held ∨
      ∃ a ∈ l, absorbAll stamp held l = some a ∧ ∀ h, held = some h → stamp h < stamp a := by
  induction l generalizing held with
  | nil => exact Or.inl rfl
  | cons a l ih =>
    rw [absorbAll_cons]
    have hfirst : absorb stamp held a = held ∨ (absorb stamp held a = some a ∧ ∀ h, held = some h → stamp h < stamp a) := by
      cases held with
      | none => exact Or.inr ⟨rfl, fun h hh => by cases hh⟩
      | some x =>
        by_cases hle : stamp a ≤ stamp x
        · exact Or.inl (if_pos hle)
        · refine Or.inr ⟨if_neg hle, fun h hh => ?_⟩
          obtain rfl := Option.some.inj hh
          exact not_le.1 hle
    rcases hfirst with hfirst | ⟨hfirst, hlater⟩
    · rw [hfirst]
      rcases ih held with h | ⟨b, hb, h⟩
      · exact Or.inl h
      · exact Or.inr ⟨b, List.mem_cons_of_mem _ hb, h⟩
    · rw [hfirst]
      right
      rcases ih (some a) with h | ⟨b, hb, h, hb'⟩
      · exact ⟨a, by simp, h, hlater⟩
      · exact ⟨b, List.mem_cons_of_mem _ hb, h, fun x hx => lt_trans (hlater x hx) (hb' a rfl)⟩

/-- Values that are settled may arrive in any order, any number of times. -/
theorem Settled.absorbAll_eq {held : Option α} {l l' : List α} (h : Settled stamp held l) (hl : ∀ a, a ∈ l' ↔ a ∈ l) :
    absorbAll stamp held l' = absorbAll stamp held l := by
  have hlatest := latest_absorbAll stamp held l
  have hlatest' := latest_absorbAll stamp held l'
  rcases absorbAll_eq_or stamp held l with he | ⟨a, ha, he, hlater⟩
  · rcases absorbAll_eq_or stamp held l' with he' | ⟨b, hb, he', hlater'⟩
    · rw [he, he']
    · -- the later value is in both lists
      rw [he] at hlatest
      cases held with
      | none => exact absurd (Or.inr ((hl b).1 hb)) (hlatest b)
      | some x => exact absurd (hlatest.2 b (Or.inr ((hl b).1 hb))) (not_le.2 (hlater' x rfl))
  · rcases absorbAll_eq_or stamp held l' with he' | ⟨b, hb, he', hlater'⟩
    · rw [he'] at hlatest'
      cases held with
      | none => exact absurd (Or.inr ((hl a).2 ha)) (hlatest' a)
      | some x => exact absurd (hlatest'.2 a (Or.inr ((hl a).2 ha))) (not_le.2 (hlater x rfl))
    · rw [he] at hlatest
      rw [he'] at hlatest'
      have hab : stamp a = stamp b :=
        le_antisymm (hlatest'.2 a (Or.inr ((hl a).2 ha))) (hlatest.2 b (Or.inr ((hl b).1 hb)))
      rw [he, he', h a ha b ((hl b).1 hb) hab (fun c hc => hlatest.2 c (Or.inr hc)) hlater]

/-- Values that may arrive in any order are settled: a value with the greatest stamp that comes first stays. -/
theorem settled_of_absorbAll_eq {held : Option α} {l : List α}
    (h : ∀ a ∈ l, ∀ b ∈ l, absorbAll stamp held (a :: l) = absorbAll stamp held (b :: l)) : Settled stamp held l := by
  intro a ha b hb hab hmax hlater
  have hfirst : ∀ x, stamp x = stamp a → absorbAll stamp held (x :: l) = some x := by
    intro x hx
    have hstep : absorb stamp held x = some x := by
      cases held with
      | none => rfl
      | some y => exact if_neg (not_le.2 (by rw [hx]; exact hlater y rfl))
    rw [absorbAll_cons, hstep]
    exact absorbAll_of_le fun c hc => by rw [hx]; exact hmax c hc
  have heq := h a ha b hb
  rw [hfirst a rfl, hfirst b hab.symm] at heq
  exact Option.some.inj heq

/-- One value at most is offered. -/
theorem absorbAll_offer {held o : Option α} {l : List α} (h : ∀ a, a ∈ l ↔ o = some a) :
    absorbAll stamp held l = offer stamp held o := by
  have hsettled : Settled stamp held o.toList := by
    intro a ha b hb _ _ _
    rw [Option.mem_toList] at ha hb
    exact Option.some.inj (ha.symm.trans hb)
  have hmem : ∀ a, a ∈ l ↔ a ∈ o.toList := by
    intro a
    rw [h, Option.mem_toList]
  rw [hsettled.absorbAll_eq hmem]
  cases o <;> rfl

end LastWriter
