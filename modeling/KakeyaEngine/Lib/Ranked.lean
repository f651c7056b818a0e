import Mathlib.Data.List.Sort
import Mathlib.Order.Basic

/-!
# The best candidates of different kinds

Candidates are sorted from the greatest down, and of each kind only the first is kept.  The first `n` of these depend on
the set of candidates alone (`best_perm`), a further candidate brings in no kind but its own (`best_cons`), and one that is
not among them can be left out (`best_of_not_mem`).
-/

namespace Ranked

section

variable {α κ : Type} [DecidableEq κ] (key : α → κ)

/-- The first candidate of each kind that has not been seen. -/
def firsts : (seen : List κ) → List α → List α
  | _, [] => []
  | seen, a :: l => if key a ∈ seen then firsts seen l else a :: firsts (key a :: seen) l

variable {key}

theorem firsts_congr {s s' : List κ} (h : ∀ k, k ∈ s ↔ k ∈ s') (l : List α) : firsts key s l = firsts key s' l := by
  induction l generalizing s s' with
  | nil => rfl
  | cons a l ih =>
    unfold firsts
    by_cases hs : key a ∈ s
    · rw [if_pos hs, if_pos ((h _).mp hs), ih h]
    · have hcons : ∀ k, k ∈ key a :: s ↔ k ∈ key a :: s' := by simp [h]
      rw [if_neg hs, if_neg fun hs' => hs ((h _).mpr hs'), ih hcons]

/-- A kind that has been seen is left out. -/
theorem firsts_cons (k : κ) (s : List κ) (l : List α) :
    firsts key (k :: s) l = (firsts key s l).filter fun a => key a ≠ k := by
  induction l generalizing s with
  | nil => rfl
  | cons a l ih =>
    unfold firsts
    by_cases hs : key a ∈ s
    · rw [if_pos (List.mem_cons_of_mem _ hs), if_pos hs, ih]
    · by_cases hk : key a = k
      · rw [if_pos (by rw [hk]; exact List.mem_cons_self), if_neg hs, List.filter_cons_of_neg (by simpa using hk), ← ih, hk]
        exact firsts_congr (by simp) l
      · rw [if_neg (by simp [hs, hk]), if_neg hs, List.filter_cons_of_pos (by simpa using hk), ← ih]
        exact congrArg (a :: ·) (firsts_congr (by simp [or_left_comm]) l)

theorem mem_of_mem_firsts {s : List κ} {l : List α} {a : α} (h : a ∈ firsts key s l) : a ∈ l ∧ key a ∉ s := by
  induction l generalizing s with
  | nil => cases h
  | cons b l ih =>
    unfold firsts at h
    split at h
    · exact ⟨List.mem_cons_of_mem _ (ih h).1, (ih h).2⟩
    · rename_i hs
      rcases List.mem_cons.mp h with rfl | h
      · exact ⟨List.mem_cons_self, hs⟩
      · obtain ⟨hmem, hseen⟩ := ih h
        exact ⟨List.mem_cons_of_mem _ hmem, fun hk => hseen (List.mem_cons_of_mem _ hk)⟩

variable (key) in
theorem nodup_firsts (s : List κ) (l : List α) : ((firsts key s l).map key).Nodup := by
  induction l generalizing s with
  | nil => exact List.nodup_nil
  | cons a l ih =>
    unfold firsts
    split
    · exact ih s
    · rw [List.map_cons, List.nodup_cons]
      refine ⟨fun hmem => ?_, ih _⟩
      obtain ⟨b, hb, hkey⟩ := List.mem_map.mp hmem
      exact (mem_of_mem_firsts hb).2 (by rw [hkey]; exact List.mem_cons_self)

variable (key) in
/-- A further candidate changes nothing, or is kept and takes the place of a later one of its kind. -/
theorem firsts_insert (s : List κ) (A : List α) (c : α) (B : List α) :
    firsts key s (A ++ c :: B) = firsts key s (A ++ B) ∨
      ∃ X Y, firsts key s (A ++ B) = X ++ Y ∧ firsts key s (A ++ c :: B) = X ++ c :: Y.filter fun a => key a ≠ key c := by
  induction A generalizing s with
  | nil =>
    by_cases hc : key c ∈ s
    · left
      rw [List.nil_append, List.nil_append, firsts, if_pos hc]
    · right
      refine ⟨[], firsts key s B, rfl, ?_⟩
      rw [List.nil_append, List.nil_append, firsts, if_neg hc, firsts_cons]
  | cons a A ih =>
    rw [List.cons_append, List.cons_append]
    unfold firsts
    split
    · exact ih s
    · rcases ih (key a :: s) with hsame | ⟨X, Y, hold, hnew⟩
      · exact .inl (by rw [hsame])
      · exact .inr ⟨a :: X, Y, by rw [hold]; rfl, by rw [hnew]; rfl⟩

/-- Of distinct kinds, one that is left out moves the others up by one place at most. -/
theorem take_filter_subset (k : κ) (n : Nat) (Y : List α) (hY : (Y.map key).Nodup) :
    (Y.filter fun a => key a ≠ k).take n ⊆ Y.take (n + 1) := by
  induction Y generalizing n with
  | nil => simp
  | cons a Y ih =>
    rw [List.map_cons, List.nodup_cons] at hY
    by_cases hk : key a = k
    · have hrest : (Y.filter fun a => key a ≠ k) = Y := by
        refine List.filter_eq_self.mpr fun b hb => ?_
        have hne : key b ≠ k := fun heq => hY.1 (by rw [hk, ← heq]; exact List.mem_map_of_mem hb)
        simpa using hne
      rw [List.filter_cons_of_neg (by simpa using hk), hrest, List.take_succ_cons]
      exact List.subset_cons_of_subset _ (List.Subset.refl _)
    · rw [List.filter_cons_of_pos (by simpa using hk)]
      cases n with
      | zero => simp
      | succ n =>
        rw [List.take_succ_cons, List.take_succ_cons]
        exact List.cons_subset_cons a (ih n hY.2)

end

section

variable {α κ : Type} [LinearOrder α] [DecidableEq κ] (key : α → κ)

/-- The `n` best candidates of different kinds. -/
def best (n : Nat) (l : List α) : List α := (firsts key [] (l.insertionSort (· ≥ ·))).take n

variable {key}

theorem length_best_le (n : Nat) (l : List α) : (best key n l).length ≤ n := List.length_take_le _ _

theorem nodup_best (n : Nat) (l : List α) : ((best key n l).map key).Nodup := by
  unfold best
  rw [List.map_take]
  exact (nodup_firsts key [] _).sublist (List.take_sublist _ _)

theorem best_perm (n : Nat) {l l' : List α} (h : l.Perm l') : best key n l = best key n l' := by
  have hsorted : l.insertionSort (· ≥ ·) = l'.insertionSort (· ≥ ·) :=
    List.Perm.eq_of_pairwise' (List.pairwise_insertionSort _ l) (List.pairwise_insertionSort _ l')
      (((List.perm_insertionSort _ l).trans h).trans (List.perm_insertionSort _ l').symm)
  unfold best
  rw [hsorted]

variable (key) in
/-- A further candidate changes nothing, or is kept before some of the best. -/
theorem best_insert (n : Nat) (a : α) (l : List α) : best key n (a :: l) = best key n l ∨
    ∃ X Y, best key n l = (X ++ Y).take n ∧ (Y.map key).Nodup ∧
      best key n (a :: l) = (X ++ a :: Y.filter fun b => key b ≠ key a).take n := by
  have hsplit : l.insertionSort (· ≥ ·) = (l.insertionSort (· ≥ ·)).takeWhile (fun b => ¬ a ≥ b) ++
      (l.insertionSort (· ≥ ·)).dropWhile fun b => ¬ a ≥ b := (List.takeWhile_append_dropWhile).symm
  unfold best
  rw [List.insertionSort_cons_eq_take_drop]
  rcases firsts_insert key [] ((l.insertionSort (· ≥ ·)).takeWhile fun b => ¬ a ≥ b) a
    ((l.insertionSort (· ≥ ·)).dropWhile fun b => ¬ a ≥ b) with hsame | ⟨X, Y, hold, hnew⟩
  · left
    rw [hsame, ← hsplit]
  · right
    rw [← hsplit] at hold
    refine ⟨X, Y, by rw [hold], ?_, by rw [hnew]⟩
    have hnodup := nodup_firsts key [] (l.insertionSort (· ≥ ·))
    rw [hold, List.map_append] at hnodup
    exact hnodup.of_append_right

/-- A further candidate brings in no kind but its own. -/
theorem best_cons (n : Nat) (a : α) (l : List α) : (best key n (a :: l)).map key ⊆ key a :: (best key n l).map key := by
  rcases best_insert key n a l with hsame | ⟨X, Y, hold, hnodup, hnew⟩
  · rw [hsame]
    exact List.subset_cons_self _ _
  · rw [hold, hnew]
    intro k hk
    obtain ⟨b, hb, rfl⟩ := List.mem_map.mp hk
    rw [List.take_append] at hb
    rcases List.mem_append.mp hb with hX | hY
    · refine List.mem_cons_of_mem _ (List.mem_map_of_mem ?_)
      rw [List.take_append]
      exact List.mem_append_left _ hX
    · rcases hm : n - X.length with _ | m
      · rw [hm] at hY
        cases hY
      · rw [hm, List.take_succ_cons] at hY
        rcases List.mem_cons.mp hY with rfl | hY
        · exact List.mem_cons_self
        · refine List.mem_cons_of_mem _ (List.mem_map_of_mem ?_)
          rw [List.take_append, hm]
          exact List.mem_append_right _ (take_filter_subset (key a) m Y hnodup hY)

/-- A candidate that is not among the best can be left out. -/
theorem best_of_not_mem {n : Nat} {a : α} {l : List α} (h : a ∉ best key n (a :: l)) :
    best key n (a :: l) = best key n l := by
  rcases best_insert key n a l with hsame | ⟨X, Y, hold, -, hnew⟩
  · exact hsame
  · have hshort : n ≤ X.length := by
      by_contra hlong
      refine h ?_
      rw [hnew, List.take_append]
      obtain ⟨m, hm⟩ : ∃ m, n - X.length = m + 1 := ⟨n - X.length - 1, by omega⟩
      rw [hm, List.take_succ_cons]
      exact List.mem_append_right _ List.mem_cons_self
    rw [hnew, hold, List.take_append_of_le_length hshort, List.take_append_of_le_length hshort]

theorem best_append (n : Nat) (as l : List α) : (best key n (as ++ l)).map key ⊆ as.map key ++ (best key n l).map key := by
  induction as with
  | nil => exact List.Subset.refl _
  | cons a as ih =>
    refine List.Subset.trans (best_cons n a (as ++ l)) ?_
    rw [List.map_cons, List.cons_append]
    exact List.cons_subset_cons _ ih

theorem best_of_forall_not_mem {n : Nat} {as l : List α} (h : ∀ a ∈ as, a ∉ best key n (as ++ l)) :
    best key n (as ++ l) = best key n l := by
  induction as with
  | nil => rfl
  | cons a as ih =>
    rw [List.forall_mem_cons] at h
    have hfirst : best key n (a :: (as ++ l)) = best key n (as ++ l) := best_of_not_mem h.1
    rw [List.cons_append, hfirst] at h ⊢
    exact ih h.2

end

end Ranked
