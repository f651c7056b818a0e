import Mathlib.Data.List.Basic

/-!
# Buffers

`overwrite` writes a block into a buffer.  `copyWithin` copies a range of the buffer to a lower place in it, slot by slot in
ascending order: where the ranges overlap every slot is read before it is written, so the range arrives as it was
(`take_copyWithin`).
-/

namespace Buffer

variable {α : Type}

/-- The buffer with a block written at `start`. -/
def overwrite (buf : List α) (start : Nat) (block : List α) : List α :=
  buf.take start ++ block ++ buf.drop (start + block.length)

/-- The buffer after the `n` slots from `src` were copied to the slots from `dst`, one after the other. -/
def copyWithin (buf : List α) (dst src : Nat) : Nat → List α
  | 0 => buf
  | n + 1 =>
    match (copyWithin buf dst src n)[src + n]? with
    | some x => (copyWithin buf dst src n).set (dst + n) x
    | none => copyWithin buf dst src n

theorem length_overwrite {buf block : List α} {start : Nat} (h : start + block.length ≤ buf.length) :
    (overwrite buf start block).length = buf.length := by
  unfold overwrite
  simp only [List.length_append, List.length_take, List.length_drop]
  omega

/-- A block that is written at the end of a prefix extends it. -/
theorem take_overwrite {buf block : List α} {start : Nat} (h : start + block.length ≤ buf.length) :
    (overwrite buf start block).take (start + block.length) = buf.take start ++ block := by
  have hlen : (buf.take start ++ block).length = start + block.length := by
    rw [List.length_append, List.length_take]
    omega
  unfold overwrite
  rw [← hlen]
  exact List.take_left

theorem length_copyWithin (buf : List α) (dst src n : Nat) : (copyWithin buf dst src n).length = buf.length := by
  induction n with
  | zero => rfl
  | succ n ih =>
    unfold copyWithin
    split
    · rw [List.length_set, ih]
    · exact ih

/-- The slots of the destination hold what the source held, and the others are unchanged. -/
theorem getElem?_copyWithin {buf : List α} {dst src n : Nat} (h : dst ≤ src) (hn : src + n ≤ buf.length) (i : Nat) :
    (copyWithin buf dst src n)[i]? = if dst ≤ i ∧ i < dst + n then buf[src + (i - dst)]? else buf[i]? := by
  induction n generalizing i with
  | zero =>
    rw [if_neg (by omega)]
    rfl
  | succ n ih =>
    -- the slot that is read is above all that are written
    have hread : (copyWithin buf dst src n)[src + n]? = buf[src + n]? := by
      rw [ih (by omega), if_neg (by omega)]
    have hin : src + n < buf.length := by omega
    unfold copyWithin
    rw [hread, List.getElem?_eq_getElem hin]
    dsimp only
    rw [List.getElem?_set, length_copyWithin]
    by_cases hi : dst + n = i
    · subst hi
      rw [if_pos rfl, if_pos (by omega), if_pos (by omega), Nat.add_sub_cancel_left, List.getElem?_eq_getElem hin]
    · rw [if_neg hi, ih (by omega)]
      by_cases hwritten : dst ≤ i ∧ i < dst + n
      · rw [if_pos hwritten, if_pos (by omega)]
      · rw [if_neg hwritten, if_neg (by omega)]

/-- The range arrives as it was, behind the prefix before it. -/
theorem take_copyWithin {buf : List α} {dst src n : Nat} (h : dst ≤ src) (hn : src + n ≤ buf.length) :
    (copyWithin buf dst src n).take (dst + n) = buf.take dst ++ (buf.drop src).take n := by
  have hpre : (buf.take dst).length = dst := by
    rw [List.length_take]
    omega
  apply List.ext_getElem?
  intro i
  rw [List.getElem?_take, List.getElem?_append, hpre, List.getElem?_take, List.getElem?_take, List.getElem?_drop,
    getElem?_copyWithin h hn]
  by_cases hlow : i < dst
  · rw [if_pos (by omega), if_neg (by omega), if_pos hlow, if_pos hlow]
  · rw [if_neg hlow]
    by_cases hhigh : i < dst + n
    · rw [if_pos hhigh, if_pos (by omega), if_pos (by omega)]
    · rw [if_neg hhigh, if_neg (by omega)]

end Buffer
