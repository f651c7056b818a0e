import Mathlib.Data.List.Basic

/-!
# Sink and window

A list that may keep `sink + window` entries keeps its first `sink` and its last `window` ones.  Trimming a list that is
extended piece by piece gives the same entries at the end as trimming it once (`trim_append`), so a stream can be held in
bounded space.
-/

namespace SinkWindow

variable {α β : Type} (sink window : Nat)

/-- The first `sink` and the last `window` entries of a list that is longer than both together. -/
def trim (l : List α) : List α :=
  if l.length ≤ sink + window then l else l.take sink ++ l.drop (l.length - window)

theorem trim_of_le {l : List α} (h : l.length ≤ sink + window) : trim sink window l = l := if_pos h

theorem length_trim (l : List α) : (trim sink window l).length = min l.length (sink + window) := by
  unfold trim
  split
  · omega
  · simp only [List.length_append, List.length_take, List.length_drop]
    omega

theorem trim_map (f : α → β) (l : List α) : trim sink window (l.map f) = (trim sink window l).map f := by
  unfold trim
  rw [List.length_map]
  split
  · rfl
  · rw [List.map_append, List.map_take, List.map_drop]

/-- What a list keeps are the entries at the positions that are kept. -/
theorem trim_eq_map (l : List α) (d : α) :
    trim sink window l = (trim sink window (List.range l.length)).map fun i => l.getD i d := by
  rw [← trim_map]
  congr 1
  refine List.ext_getElem (by simp) fun i hi _ => ?_
  simp [hi]

/-- The positions that are kept. -/
theorem mem_trim_range {n p : Nat} :
    p ∈ trim sink window (List.range n) ↔ p < n ∧ (p < sink ∨ n ≤ p + window) := by
  unfold trim
  rw [List.length_range]
  split
  · rw [List.mem_range]
    omega
  · rw [List.mem_append, List.take_range, List.mem_range, List.range_eq_range', List.drop_range', List.mem_range'_1]
    omega

/-- A position that is kept finds its entry in the slot that it occupies. -/
theorem getElem?_trim_idxOf {l : List α} {p : Nat} (hp : p ∈ trim sink window (List.range l.length)) :
    (trim sink window l)[(trim sink window (List.range l.length)).idxOf p]? = l[p]? := by
  have hlt := ((mem_trim_range sink window).mp hp).1
  rw [trim_eq_map sink window l l[p], List.getElem?_map,
    List.getElem?_eq_getElem (List.idxOf_lt_length_of_mem hp), List.getElem_idxOf]
  simp [hlt]

private theorem drop_past {A B : List α} {n m : Nat} (h : n = A.length + m) : (A ++ B).drop n = B.drop m := by
  rw [h, List.drop_append, List.drop_of_length_le (by omega), List.nil_append]
  congr 1
  omega

/-- Trimming before a list is extended changes nothing. -/
theorem trim_append (l r : List α) : trim sink window (trim sink window l ++ r) = trim sink window (l ++ r) := by
  by_cases hl : l.length ≤ sink + window
  · rw [trim_of_le sink window hl]
  · have hsink : (l.take sink).length = sink := by rw [List.length_take]; omega
    have htail : (l.drop (l.length - window)).length = window := by rw [List.length_drop]; omega
    have hpre : (l.take (l.length - window)).length = l.length - window := by rw [List.length_take]; omega
    unfold trim
    rw [if_neg hl]
    simp only [List.length_append, hsink, htail]
    rw [if_neg (show ¬ l.length + r.length ≤ sink + window by omega)]
    split
    · -- nothing was appended
      rename_i hr
      obtain rfl : r = [] := List.eq_nil_of_length_eq_zero (by omega)
      simp only [List.append_nil, List.length_nil, Nat.add_zero]
    · congr 1
      · rw [List.append_assoc, List.take_append_of_le_length (by omega), List.take_of_length_le (by omega),
          List.take_append_of_le_length (by omega)]
      · -- both tails are the last `window` entries of `l.drop (l.length - window) ++ r`
        have hleft : (l.take sink ++ (l.drop (l.length - window) ++ r)).drop (sink + window + r.length - window) =
            (l.drop (l.length - window) ++ r).drop r.length := drop_past (by omega)
        have hright : (l ++ r).drop (l.length + r.length - window) =
            (l.drop (l.length - window) ++ r).drop r.length := by
          conv => lhs; rw [← List.take_append_drop (l.length - window) l, List.append_assoc]
          exact drop_past (by rw [List.take_append_drop]; omega)
        rw [List.append_assoc, hleft, hright]

end SinkWindow
