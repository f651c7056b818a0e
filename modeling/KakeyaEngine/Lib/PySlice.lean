import Mathlib.Data.List.Basic

/-!
# Slices

`pySlice l lo hi` is what `l[lo:hi]` gives for integers: an index that is negative counts from the end, and one that is
outside the list stands for its nearest end.
-/

/-- A slice of a list. -/
def pySlice {α : Type} (l : List α) (lo hi : Int) : List α :=
  let clamp := fun i : Int => if i < 0 then (max 0 (i + l.length)).toNat else min i.toNat l.length
  (l.take (clamp hi)).drop (clamp lo)

theorem pySlice_of_nonneg {α : Type} {l : List α} {lo hi : Nat} (hhi : hi ≤ l.length) :
    pySlice l lo hi = (l.take hi).drop lo := by
  unfold pySlice
  dsimp only
  rw [if_neg (by omega), if_neg (by omega), Int.toNat_natCast, Int.toNat_natCast, Nat.min_eq_left hhi]
  by_cases hlo : lo ≤ l.length
  · rw [Nat.min_eq_left hlo]
  · rw [Nat.min_eq_right (by omega), List.drop_of_length_le (by rw [List.length_take]; omega),
      List.drop_of_length_le (by rw [List.length_take]; omega)]

/-- A slice in the middle of a list. -/
theorem pySlice_append {α : Type} (front middle back : List α) :
    pySlice (front ++ (middle ++ back)) front.length (front.length + middle.length : Nat) = middle := by
  rw [pySlice_of_nonneg (by simp only [List.length_append]; omega), ← List.append_assoc,
    List.take_left' List.length_append, List.drop_left]
