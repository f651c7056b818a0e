import Mathlib.Data.List.Basic

/-!
# Counting down

`descending lo hi` lists the numbers from `lo` on below `hi`, the greatest first.  A search through it finds the greatest
number at which something is found (`findSome?_descending_eq_some`).
-/

/-- The numbers from `lo` on below `hi`, the greatest first. -/
def descending (lo : Nat) : (hi : Nat) → List Nat
  | 0 => []
  | hi + 1 => if lo ≤ hi then hi :: descending lo hi else []

section Search

variable {α : Type} {lo hi : Nat} {f : Nat → Option α}

theorem findSome?_descending_eq_none : (descending lo hi).findSome? f = none ↔ ∀ i, lo ≤ i → i < hi → f i = none := by
  induction hi with
  | zero =>
    refine ⟨fun _ i _ hi => ?_, fun _ => rfl⟩
    omega
  | succ hi ih =>
    unfold descending
    split
    · rename_i hle
      rw [List.findSome?_cons]
      cases hfound : f hi with
      | none =>
        rw [ih]
        constructor
        · intro h i hlo hlt
          by_cases heq : i = hi
          · rw [heq, hfound]
          · exact h i hlo (by omega)
        · intro h i hlo hlt
          exact h i hlo (by omega)
      | some a =>
        constructor
        · intro h
          cases h
        · intro h
          rw [h hi hle (by omega)] at hfound
          cases hfound
    · refine ⟨fun _ i _ hlt => ?_, fun _ => rfl⟩
      omega

/-- What is found is found at the greatest number at which there is something. -/
theorem findSome?_descending_eq_some {a : α} : (descending lo hi).findSome? f = some a ↔
    ∃ i, lo ≤ i ∧ i < hi ∧ f i = some a ∧ ∀ j, i < j → j < hi → f j = none := by
  induction hi with
  | zero =>
    constructor
    · intro h
      cases h
    · rintro ⟨i, -, hlt, -⟩
      omega
  | succ hi ih =>
    unfold descending
    split
    · rename_i hle
      rw [List.findSome?_cons]
      cases hfound : f hi with
      | none =>
        rw [ih]
        constructor
        · rintro ⟨i, hlo, hlt, hi', hlast⟩
          refine ⟨i, hlo, by omega, hi', fun j hj hj' => ?_⟩
          by_cases heq : j = hi
          · rw [heq, hfound]
          · exact hlast j hj (by omega)
        · rintro ⟨i, hlo, hlt, hi', hlast⟩
          have hne : i ≠ hi := by
            rintro rfl
            rw [hfound] at hi'
            cases hi'
          exact ⟨i, hlo, by omega, hi', fun j hj hj' => hlast j hj (by omega)⟩
      | some b =>
        constructor
        · intro h
          exact ⟨hi, hle, by omega, hfound.trans h, fun j hj hj' => by omega⟩
        · rintro ⟨i, hlo, hlt, hi', hlast⟩
          by_cases heq : i = hi
          · rw [← hfound, ← heq, hi']
          · rw [hlast hi (by omega) (by omega)] at hfound
            cases hfound
    · constructor
      · intro h
        cases h
      · rintro ⟨i, hlo, hlt, -⟩
        omega

end Search
