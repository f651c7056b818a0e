import Mathlib.Data.List.Sort
import Mathlib.Order.Basic

/-!
# Sorting by a key

A list sorted by a key in a linear order: the first element with a property has the least key of those that have it
(`find?_sortOn`), and where no two elements share a key the sorted list depends on the elements alone (`sortOn_perm`).
-/

namespace SortOn

variable {α κ : Type} [LinearOrder κ] (key : α → κ)

theorem pairwise_sortOn (l : List α) :
    (l.mergeSort fun a b => decide (key a ≤ key b)).Pairwise fun a b => key a ≤ key b := by
  have h : (l.mergeSort fun a b => decide (key a ≤ key b)).Pairwise fun a b => decide (key a ≤ key b) = true :=
    List.pairwise_mergeSort (fun a b c => by simpa using le_trans)
      (fun a b => by simpa using le_total (key a) (key b)) l
  simpa using h

variable {key}

/-- The first element of a sorted list with a property has the least key. -/
theorem find?_sortOn {l : List α} {p : α → Bool} {a : α}
    (h : (l.mergeSort fun a b => decide (key a ≤ key b)).find? p = some a) :
    a ∈ l ∧ p a = true ∧ ∀ b ∈ l, p b = true → key a ≤ key b := by
  have hpw := pairwise_sortOn key l
  obtain ⟨hp, as, bs, heq, hno⟩ := List.find?_eq_some_iff_append.mp h
  refine ⟨List.mem_mergeSort.mp (List.mem_of_find?_eq_some h), hp, fun b hb hpb => ?_⟩
  have hb' : b ∈ l.mergeSort fun a b => decide (key a ≤ key b) := List.mem_mergeSort.mpr hb
  rw [heq] at hpw hb'
  rcases List.mem_append.mp hb' with hin | hin
  · exact absurd hpb (by simpa using hno b hin)
  · rcases List.mem_cons.mp hin with rfl | hin
    · exact le_rfl
    · exact (List.pairwise_cons.mp (List.pairwise_append.mp hpw).2.1).1 b hin

theorem find?_sortOn_eq_none {l : List α} {p : α → Bool}
    (h : (l.mergeSort fun a b => decide (key a ≤ key b)).find? p = none) : ∀ b ∈ l, p b = false := by
  intro b hb
  have hnone := List.find?_eq_none.mp h b (List.mem_mergeSort.mpr hb)
  simpa using hnone

/-- Where no two elements share a key the order of the list does not matter. -/
theorem sortOn_perm {l l' : List α} (h : l.Perm l') (hinj : ∀ a ∈ l, ∀ b ∈ l, key a = key b → a = b) :
    (l.mergeSort fun a b => decide (key a ≤ key b)) = l'.mergeSort fun a b => decide (key a ≤ key b) := by
  have hperm := ((List.mergeSort_perm l fun a b => decide (key a ≤ key b)).trans h).trans
    (List.mergeSort_perm l' fun a b => decide (key a ≤ key b)).symm
  refine hperm.eq_of_pairwise (fun a b ha hb hab hba => ?_) (pairwise_sortOn key l) (pairwise_sortOn key l')
  exact hinj a (List.mem_mergeSort.mp ha) b (h.mem_iff.mpr (List.mem_mergeSort.mp hb)) (le_antisymm hab hba)

end SortOn
