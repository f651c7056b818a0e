import Mathlib.Data.List.Basic

/-!
# Greedy streams

A deterministic `next` continues every list by one element.  `stream` is the list of the elements it produces one after
the other, `matched` the number of leading elements of a draft that it would have produced, and `upTo` cuts a list after
the first element with a property.  A procedure that commits matched drafts and corrections produces the stream block by
block (`take_matched`, `stream_add`).

A `Plan` says how many elements each block commits.  Stopping after the block in which the property first holds gives the
cut stream exactly when that block ends there (`blocks_iff`).  `Quiet` says that none of the lists at the ends of the
blocks before it is a bad one.
-/

namespace Greedy

variable {α : Type}

/-! ### The stream -/

/-- The `n` elements that follow a list. -/
def stream (next : List α → α) (l : List α) : Nat → List α
  | 0 => []
  | n + 1 => next l :: stream next (l ++ [next l]) n

variable {next : List α → α}

@[simp] theorem stream_zero (l : List α) : stream next l 0 = [] := rfl

theorem stream_succ (l : List α) (n : Nat) :
    stream next l (n + 1) = next l :: stream next (l ++ [next l]) n := rfl

@[simp] theorem length_stream (l : List α) (n : Nat) : (stream next l n).length = n := by
  induction n generalizing l with
  | zero => rfl
  | succ n ih => simp [stream_succ, ih]

theorem stream_add (l : List α) (m n : Nat) :
    stream next l (m + n) = stream next l m ++ stream next (l ++ stream next l m) n := by
  induction m generalizing l with
  | zero => simp
  | succ m ih =>
    rw [Nat.succ_add]
    simp only [stream_succ, List.cons_append, List.cons.injEq, true_and]
    rw [ih, List.append_assoc]
    rfl

/-! ### Drafts -/

section Drafts

/-- How many leading elements of a draft are those that follow `l`. -/
def matched [DecidableEq α] (next : List α → α) : List α → List α → Nat
  | _, [] => 0
  | l, d :: ds => if next l = d then matched next (l ++ [d]) ds + 1 else 0

variable [DecidableEq α]

theorem matched_cons (l : List α) (d : α) (ds : List α) :
    matched next l (d :: ds) = if next l = d then matched next (l ++ [d]) ds + 1 else 0 := rfl

theorem matched_le (next : List α → α) (l ds : List α) : matched next l ds ≤ ds.length := by
  induction ds generalizing l with
  | nil => exact Nat.le_refl _
  | cons d ds ih =>
    rw [matched_cons]
    split
    · have := ih (l ++ [d])
      simp only [List.length_cons]
      omega
    · omega

/-- The matched part of a draft is the stream. -/
theorem take_matched (next : List α → α) (l ds : List α) : ds.take (matched next l ds) = stream next l (matched next l ds) := by
  induction ds generalizing l with
  | nil => rfl
  | cons d ds ih =>
    rw [matched_cons]
    split
    · rename_i h
      subst h
      rw [List.take_succ_cons, ih]
      rfl
    · rfl

end Drafts

/-! ### Cutting after the first element with a property -/

/-- The elements up to the first one with `p`, which is included. -/
def upTo (p : α → Bool) : List α → List α
  | [] => []
  | x :: xs => if p x then [x] else x :: upTo p xs

variable {p : α → Bool}

theorem upTo_cons (x : α) (xs : List α) : upTo p (x :: xs) = if p x then [x] else x :: upTo p xs := rfl

theorem upTo_of_none {l : List α} (h : l.any p = false) : upTo p l = l := by
  induction l with
  | nil => rfl
  | cons x l ih =>
    rw [List.any_cons, Bool.or_eq_false_iff] at h
    simp [upTo_cons, h.1, ih h.2]

theorem upTo_append_of_none {l : List α} (h : l.any p = false) (r : List α) : upTo p (l ++ r) = l ++ upTo p r := by
  induction l with
  | nil => rfl
  | cons x l ih =>
    rw [List.any_cons, Bool.or_eq_false_iff] at h
    simp [upTo_cons, h.1, ih h.2]

theorem upTo_append_of_any {l : List α} (h : l.any p = true) (r : List α) : upTo p (l ++ r) = upTo p l := by
  induction l with
  | nil => cases h
  | cons x l ih =>
    cases hx : p x with
    | true => simp [upTo_cons, hx]
    | false =>
      rw [List.any_cons, hx, Bool.false_or] at h
      simp [upTo_cons, hx, ih h]

/-- Cutting is taking as many elements as stand up to the first one with `p`. -/
theorem upTo_eq_take {l : List α} (h : l.any p = true) : upTo p l = l.take (l.findIdx p + 1) := by
  induction l with
  | nil => cases h
  | cons x l ih =>
    cases hx : p x with
    | true => simp [upTo_cons, hx, List.findIdx_cons]
    | false =>
      rw [List.any_cons, hx, Bool.false_or] at h
      simp [upTo_cons, hx, List.findIdx_cons, ih h]

theorem length_upTo_le (l : List α) : (upTo p l).length ≤ l.length := by
  induction l with
  | nil => exact Nat.le_refl _
  | cons x l ih =>
    rw [upTo_cons]
    split
    · simp
    · simpa using ih

theorem upTo_eq_self_iff {l : List α} (h : l.any p = true) : upTo p l = l ↔ l.findIdx p + 1 = l.length := by
  have hlt : l.findIdx p < l.length := by
    rw [List.any_eq_true] at h
    exact List.findIdx_lt_length_of_exists h
  rw [upTo_eq_take h]
  constructor
  · intro heq
    have := congrArg List.length heq
    rw [List.length_take] at this
    omega
  · intro heq
    exact List.take_of_length_le (by omega)

/-! ### Blocks -/

/-- How a decoder proceeds in blocks: from its state, the list so far and the number of elements that are left, how many
elements the block commits, and in which state it goes on.  Without one it goes on element by element. -/
structure Plan (α σ : Type) where
  width : σ → List α → Nat → Nat
  after : σ → List α → Nat → Option σ

namespace Plan

variable {σ : Type} (plan : Plan α σ) (next : List α → α) (p : α → Bool)

/-- Every block commits an element or more, and no more than are left. -/
def Fits : Prop := ∀ s l r, 0 < r → 0 < plan.width s l r ∧ plan.width s l r ≤ r

/-- The elements of the blocks up to the one in which `p` first holds, with the number of blocks there may be. -/
def blocks : Nat → σ → List α → Nat → List α
  | 0, _, _, _ => []
  | n + 1, s, l, r =>
    if r = 0 then []
    else
      let c := stream next l (plan.width s l r)
      if c.any p then c
      else
        c ++
          match plan.after s l r with
          | none => upTo p (stream next (l ++ c) (r - c.length))
          | some s' => blocks n s' (l ++ c) (r - c.length)

/-- The block in which `p` first holds ends there. -/
def Aligned : Nat → σ → List α → Nat → Prop
  | 0, _, _, _ => True
  | n + 1, s, l, r =>
    if r = 0 then True
    else
      let c := stream next l (plan.width s l r)
      if c.any p then c.findIdx p + 1 = c.length
      else
        match plan.after s l r with
        | none => True
        | some s' => Aligned n s' (l ++ c) (r - c.length)

instance decidableAligned : ∀ (n : Nat) (s : σ) (l : List α) (r : Nat), Decidable (plan.Aligned next p n s l r)
  | 0, _, _, _ => isTrue trivial
  | n + 1, s, l, r =>
    let c := stream next l (plan.width s l r)
    if hr : r = 0 then isTrue (by simp [Aligned, hr])
    else if hany : c.any p then
      decidable_of_iff (c.findIdx p + 1 = c.length) (by unfold Aligned; rw [if_neg hr, if_pos hany])
    else
      match hafter : plan.after s l r with
      | none => isTrue (by unfold Aligned; rw [if_neg hr, if_neg hany, hafter]; trivial)
      | some s' =>
        have := decidableAligned n s' (l ++ c) (r - c.length)
        decidable_of_iff (plan.Aligned next p n s' (l ++ c) (r - c.length))
          (by conv_rhs => unfold Aligned
              rw [if_neg hr, if_neg hany, hafter])

/-- None of the lists to which the stream extends `l` is a `bad` one, up to the element for which `p` first holds. -/
def QuietSteps (next : List α → α) (p : α → Bool) (bad : List α → Bool) (l : List α) (r : Nat) : Prop :=
  ∀ k < r, (stream next l (k + 1)).any p = false → bad (l ++ stream next l (k + 1)) = false

instance (next : List α → α) (p : α → Bool) (bad : List α → Bool) (l : List α) (r : Nat) :
    Decidable (QuietSteps next p bad l r) :=
  inferInstanceAs (Decidable (∀ k < r, _ → _))

/-- None of the lists at the end of a block is a `bad` one, up to the block in which `p` first holds. -/
def Quiet (bad : List α → Bool) : Nat → σ → List α → Nat → Prop
  | 0, _, _, _ => True
  | n + 1, s, l, r =>
    if r = 0 then True
    else
      let c := stream next l (plan.width s l r)
      if c.any p then True
      else
        bad (l ++ c) = false ∧
          match plan.after s l r with
          | none => QuietSteps next p bad (l ++ c) (r - c.length)
          | some s' => Quiet bad n s' (l ++ c) (r - c.length)

instance decidableQuiet (bad : List α → Bool) :
    ∀ (n : Nat) (s : σ) (l : List α) (r : Nat), Decidable (plan.Quiet next p bad n s l r)
  | 0, _, _, _ => isTrue trivial
  | n + 1, s, l, r =>
    let c := stream next l (plan.width s l r)
    if hr : r = 0 then isTrue (by simp [Quiet, hr])
    else if hany : c.any p then isTrue (by unfold Quiet; rw [if_neg hr, if_pos hany]; trivial)
    else
      match hafter : plan.after s l r with
      | none =>
        decidable_of_iff (bad (l ++ c) = false ∧ QuietSteps next p bad (l ++ c) (r - c.length))
          (by unfold Quiet; rw [if_neg hr, if_neg hany, hafter])
      | some s' =>
        have := decidableQuiet bad n s' (l ++ c) (r - c.length)
        decidable_of_iff (bad (l ++ c) = false ∧ plan.Quiet next p bad n s' (l ++ c) (r - c.length))
          (by conv_rhs => unfold Quiet
              rw [if_neg hr, if_neg hany, hafter])

variable {plan next p}

/-- Stopping after the block gives the cut stream exactly when the blocks are aligned. -/
theorem blocks_iff (hfit : plan.Fits) {n r : Nat} (hn : r ≤ n) (s : σ) (l : List α) :
    plan.blocks next p n s l r = upTo p (stream next l r) ↔ plan.Aligned next p n s l r := by
  induction n generalizing r s l with
  | zero =>
    obtain rfl : r = 0 := by omega
    exact ⟨fun _ => trivial, fun _ => rfl⟩
  | succ n ih =>
    unfold blocks Aligned
    by_cases hr : r = 0
    · subst hr
      rw [if_pos rfl, if_pos rfl]
      exact ⟨fun _ => trivial, fun _ => rfl⟩
    · rw [if_neg hr, if_neg hr]
      obtain ⟨hpos, hle⟩ := hfit s l r (by omega)
      generalize plan.width s l r = w at hpos hle
      obtain ⟨k, rfl⟩ := Nat.exists_eq_add_of_le hle
      dsimp only
      rw [stream_add, length_stream, Nat.add_sub_cancel_left]
      by_cases hany : (stream next l w).any p = true
      · have hself := upTo_eq_self_iff hany
        rw [length_stream] at hself
        rw [if_pos hany, if_pos hany, upTo_append_of_any hany, ← hself]
        exact eq_comm
      · rw [if_neg hany, if_neg hany, upTo_append_of_none (by simpa using hany), List.append_cancel_left_eq]
        cases plan.after s l (w + k) with
        | none => exact ⟨fun _ => trivial, fun _ => rfl⟩
        | some s' => exact ih (by omega) s' (l ++ stream next l w)

variable (next p) in
theorem Fits.length_blocks_le (hfit : plan.Fits) (n : Nat) (s : σ) (l : List α) (r : Nat) :
    (plan.blocks next p n s l r).length ≤ r := by
  induction n generalizing s l r with
  | zero => exact Nat.zero_le _
  | succ n ih =>
    unfold blocks
    by_cases hr : r = 0
    · rw [if_pos hr]
      exact Nat.zero_le _
    · rw [if_neg hr]
      obtain ⟨-, hle⟩ := hfit s l r (by omega)
      dsimp only
      rw [length_stream]
      split
      · simpa using hle
      · rw [List.length_append, length_stream]
        split
        · have := length_upTo_le (p := p) (stream next (l ++ stream next l (plan.width s l r)) (r - plan.width s l r))
          rw [length_stream] at this
          omega
        · rename_i s' _
          have := ih s' (l ++ stream next l (plan.width s l r)) (r - plan.width s l r)
          omega

/-- Element by element. -/
def single (α : Type) : Plan α Unit where
  width _ _ _ := 1
  after _ _ _ := some ()

theorem single_fits : (single α).Fits := fun _ _ _ hr => ⟨Nat.one_pos, hr⟩

/-- Blocks of one element are aligned. -/
theorem single_aligned (n : Nat) (s : Unit) (l : List α) (r : Nat) : (single α).Aligned next p n s l r := by
  induction n generalizing l r with
  | zero => trivial
  | succ n ih =>
    unfold Aligned
    split
    · trivial
    · dsimp only [single]
      split
      · rename_i hany
        have hp : p (next l) = true := by simpa [stream_succ] using hany
        simp [stream_succ, List.findIdx_cons, hp]
      · exact ih _ _

/-- Blocks of one element are quiet when the elements are. -/
theorem single_quiet {bad : List α → Bool} {n r : Nat} (hn : r ≤ n) (l : List α) :
    (single α).Quiet next p bad n () l r ↔ QuietSteps next p bad l r := by
  induction n generalizing l r with
  | zero =>
    obtain rfl : r = 0 := by omega
    exact ⟨fun _ k hk => absurd hk (Nat.not_lt_zero k), fun _ => trivial⟩
  | succ n ih =>
    unfold Quiet
    by_cases hr : r = 0
    · subst hr
      rw [if_pos rfl]
      exact ⟨fun _ k hk => absurd hk (Nat.not_lt_zero k), fun _ => trivial⟩
    · have hwidth : stream next l ((single α).width () l r) = [next l] := rfl
      rw [if_neg hr]
      dsimp only
      rw [hwidth, List.any_cons, List.any_nil, Bool.or_false]
      by_cases hp : p (next l) = true
      · rw [if_pos hp]
        refine ⟨fun _ k _ hany => ?_, fun _ => trivial⟩
        simp [stream_succ, hp] at hany
      · rw [if_neg hp]
        have hnext := ih (r := r - 1) (by omega) (l ++ [next l])
        dsimp only [single, List.length_singleton] at hnext ⊢
        rw [hnext]
        constructor
        · rintro ⟨hbad, hsteps⟩ k hk hany
          cases k with
          | zero => exact hbad
          | succ k =>
            have := hsteps k (by omega) (by simp only [stream_succ, List.any_cons, Bool.or_eq_false_iff] at hany ⊢; exact hany.2)
            simpa [stream_succ] using this
        · intro hsteps
          refine ⟨hsteps 0 (by omega) (by simpa [stream_succ] using hp), fun k hk hany => ?_⟩
          have := hsteps (k + 1) (by omega) (by
            rw [stream_succ, List.any_cons, hany, Bool.or_false]
            simpa using hp)
          simpa [stream_succ] using this

end Plan

end Greedy
