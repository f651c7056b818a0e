import Mathlib.Data.List.TakeWhile

/-!
# Repairing backslashes

A model writes backslashes into a JSON text as they are.  `repair_json_backslashes` goes over the runs of backslashes and adds
one to those that have an odd number of them and no escape at their end.  What comes out can be read from left to right, with
every backslash in an escape (`escaped_repair`), differs from the text by at most one more backslash a run
(`repaired_repair`), and is not changed by another repair (`repair_repair`).
-/

namespace KakeyaEngine

namespace Transport

/-! ### The repair -/

def isHex (c : Char) : Bool := "0123456789abcdefABCDEF".toList.contains c

/-- What follows a single backslash is an escape that is kept. -/
def validSingleEscape : List Char → Bool
  | '"' :: _ => true
  | '/' :: _ => true
  | 'u' :: a :: b :: c :: d :: _ => isHex a && isHex b && isHex c && isHex d
  | _ => false

def repairJsonBackslashes (value : List Char) : List Char :=
  match value with
  | [] => []
  | c :: rest =>
    if c ≠ '\\' then c :: repairJsonBackslashes rest
    else
      let count := 1 + (rest.takeWhile (· = '\\')).length
      let nextText := rest.dropWhile (· = '\\')
      let count := if count % 2 = 1 ∧ validSingleEscape nextText = false then count + 1 else count
      List.replicate count '\\' ++ repairJsonBackslashes nextText
termination_by value.length
decreasing_by
  · rw [List.length_cons]
    omega
  · have hle := (List.dropWhile_sublist (l := rest) fun c => decide (c = '\\')).length_le
    rw [List.length_cons]
    omega

/-! ### Reading from left to right -/

/-- Every backslash belongs to an escape, when the text is read from left to right. -/
inductive Escaped : List Char → Prop
  | nil : Escaped []
  | plain {c : Char} {rest : List Char} (hc : c ≠ '\\') (h : Escaped rest) : Escaped (c :: rest)
  | single {c : Char} {rest : List Char} (hc : c = '\\' ∨ c = '"' ∨ c = '/') (h : Escaped rest) : Escaped ('\\' :: c :: rest)
  | unicode {a b c d : Char} {rest : List Char} (ha : isHex a = true) (hb : isHex b = true) (hc : isHex c = true)
      (hd : isHex d = true) (h : Escaped rest) : Escaped ('\\' :: 'u' :: a :: b :: c :: d :: rest)

/-- The second text has at most one more backslash in each run of the first one, and is the same otherwise. -/
inductive Repaired : List Char → List Char → Prop
  | nil : Repaired [] []
  | plain {c : Char} {rest rest' : List Char} (hc : c ≠ '\\') (h : Repaired rest rest') : Repaired (c :: rest) (c :: rest')
  | run {count count' : Nat} {rest rest' : List Char} (hpos : 0 < count) (hmaximal : rest.head? ≠ some '\\')
      (hcount : count' = count ∨ count' = count + 1) (h : Repaired rest rest') :
      Repaired (List.replicate count '\\' ++ rest) (List.replicate count' '\\' ++ rest')

/-! ### Runs -/

theorem takeWhile_replicate_append {c : Char} {rest : List Char} (n : Nat) (h : rest.head? ≠ some c) :
    (List.replicate n c ++ rest).takeWhile (· = c) = List.replicate n c ∧
      (List.replicate n c ++ rest).dropWhile (· = c) = rest := by
  induction n with
  | zero =>
    cases rest with
    | nil => exact ⟨rfl, rfl⟩
    | cons d rest =>
      have hd : ¬ d = c := fun heq => h (congrArg some heq)
      simp [hd]
  | succ n ih =>
    rw [List.replicate_succ, List.cons_append]
    simp [ih.1, ih.2]

/-- Every text is empty, or begins with another character, or with a maximal run of backslashes. -/
theorem runs_induction {P : List Char → Prop} (nil : P []) (plain : ∀ c rest, c ≠ '\\' → P rest → P (c :: rest))
    (run : ∀ count rest, rest.head? ≠ some '\\' → P rest → P (List.replicate (count + 1) '\\' ++ rest))
    (text : List Char) : P text := by
  induction hn : text.length using Nat.strong_induction_on generalizing text with
  | _ n ih =>
    cases text with
    | nil => exact nil
    | cons c rest =>
      rw [List.length_cons] at hn
      by_cases hc : c = '\\'
      · have hle := (List.dropWhile_sublist (l := rest) fun c => decide (c = '\\')).length_le
        have hhead : (rest.dropWhile (· = '\\')).head? ≠ some '\\' := by
          intro hsome
          have hnot := List.head?_dropWhile_not (fun c => decide (c = '\\')) rest
          rw [hsome] at hnot
          simp at hnot
        have hrun : rest.takeWhile (· = '\\') = List.replicate (rest.takeWhile (· = '\\')).length '\\' := by
          refine List.eq_replicate_of_mem fun d hd => ?_
          simpa using List.mem_takeWhile_imp hd
        have hsplit : c :: rest =
            List.replicate ((rest.takeWhile (· = '\\')).length + 1) '\\' ++ rest.dropWhile (· = '\\') := by
          rw [hc, List.replicate_succ, List.cons_append, ← hrun, List.takeWhile_append_dropWhile]
        rw [hsplit]
        exact run _ _ hhead (ih _ (by omega) _ rfl)
      · exact plain c rest hc (ih _ (by omega) rest rfl)

/-! ### The repair, run by run -/

/-- The number of backslashes that a run has after the repair. -/
def repairedCount (count : Nat) (nextText : List Char) : Nat :=
  if count % 2 = 1 ∧ validSingleEscape nextText = false then count + 1 else count

@[simp] theorem repair_nil : repairJsonBackslashes [] = [] := by
  unfold repairJsonBackslashes
  rfl

theorem repair_plain {c : Char} (hc : c ≠ '\\') (rest : List Char) :
    repairJsonBackslashes (c :: rest) = c :: repairJsonBackslashes rest := by
  rw [repairJsonBackslashes, if_pos hc]

theorem repair_run (count : Nat) {rest : List Char} (h : rest.head? ≠ some '\\') :
    repairJsonBackslashes (List.replicate (count + 1) '\\' ++ rest) =
      List.replicate (repairedCount (count + 1) rest) '\\' ++ repairJsonBackslashes rest := by
  obtain ⟨htake, hdrop⟩ := takeWhile_replicate_append count h
  rw [List.replicate_succ, List.cons_append, repairJsonBackslashes, if_neg (not_not.mpr rfl)]
  dsimp only
  rw [htake, hdrop, List.length_replicate, Nat.add_comm 1 count]
  rfl

theorem repair_head {rest : List Char} (h : rest.head? ≠ some '\\') : (repairJsonBackslashes rest).head? ≠ some '\\' := by
  cases rest with
  | nil =>
    rw [repair_nil]
    exact h
  | cons c rest =>
    have hc : c ≠ '\\' := fun heq => h (congrArg some heq)
    rw [repair_plain hc]
    exact h

theorem repairedCount_eq (count : Nat) (nextText : List Char) :
    repairedCount count nextText = count ∨ repairedCount count nextText = count + 1 := by
  unfold repairedCount
  split
  · exact .inr rfl
  · exact .inl rfl

/-- A repaired run is even, or ends in an escape that is kept. -/
theorem repairedCount_even (count : Nat) (nextText : List Char) :
    repairedCount count nextText % 2 = 0 ∨ validSingleEscape nextText = true := by
  unfold repairedCount
  split
  · left
    omega
  · rename_i hnot
    cases hvalid : validSingleEscape nextText with
    | true => exact .inr rfl
    | false =>
      left
      have hodd : ¬ count % 2 = 1 := fun h => hnot ⟨h, hvalid⟩
      omega

/-- Such a run is left as it is. -/
theorem repairedCount_of_even {count : Nat} {nextText : List Char}
    (h : count % 2 = 0 ∨ validSingleEscape nextText = true) : repairedCount count nextText = count := by
  unfold repairedCount
  rcases h with heven | hvalid
  · rw [if_neg fun h => by omega]
  · rw [hvalid, if_neg fun h => absurd h.2 (by decide)]

theorem isHex_ne {c : Char} (h : isHex c = true) : c ≠ '\\' := by
  rintro rfl
  revert h
  decide

/-- An escape that is kept is still there after the repair. -/
theorem validSingleEscape_repair {rest : List Char} (h : validSingleEscape rest = true) :
    validSingleEscape (repairJsonBackslashes rest) = true := by
  unfold validSingleEscape at h
  split at h
  · rw [repair_plain (by decide)]
    rfl
  · rw [repair_plain (by decide)]
    rfl
  · rename_i a b c d rest
    simp only [Bool.and_eq_true] at h
    obtain ⟨⟨⟨ha, hb⟩, hc⟩, hd⟩ := h
    rw [repair_plain (by decide), repair_plain (isHex_ne ha), repair_plain (isHex_ne hb), repair_plain (isHex_ne hc),
      repair_plain (isHex_ne hd)]
    simp only [validSingleEscape, ha, hb, hc, hd, Bool.and_self]
  · cases h

/-! ### What comes out -/

theorem Escaped.tail {c : Char} {rest : List Char} (h : Escaped (c :: rest)) (hc : c ≠ '\\') : Escaped rest := by
  cases h with
  | plain _ h => exact h
  | single _ _ => exact absurd rfl hc
  | unicode _ _ _ _ _ => exact absurd rfl hc

/-- A backslash before an escape that is kept. -/
theorem Escaped.backslash {rest : List Char} (h : Escaped rest) (hvalid : validSingleEscape rest = true) :
    Escaped ('\\' :: rest) := by
  unfold validSingleEscape at hvalid
  split at hvalid
  · exact .single (.inr (.inl rfl)) (h.tail (by decide))
  · exact .single (.inr (.inr rfl)) (h.tail (by decide))
  · simp only [Bool.and_eq_true] at hvalid
    obtain ⟨⟨⟨ha, hb⟩, hc⟩, hd⟩ := hvalid
    have hrest := h.tail (by decide)
    exact .unicode ha hb hc hd
      ((((hrest.tail (isHex_ne ha)).tail (isHex_ne hb)).tail (isHex_ne hc)).tail (isHex_ne hd))
  · cases hvalid

theorem Escaped.pairs {rest : List Char} (h : Escaped rest) (k : Nat) : Escaped (List.replicate (2 * k) '\\' ++ rest) := by
  induction k with
  | zero => exact h
  | succ k ih => exact .single (.inl rfl) ih

theorem Escaped.run {rest : List Char} (h : Escaped rest) {count : Nat}
    (hcount : count % 2 = 0 ∨ validSingleEscape rest = true) : Escaped (List.replicate count '\\' ++ rest) := by
  obtain ⟨k, rfl | rfl⟩ : ∃ k, count = 2 * k ∨ count = 2 * k + 1 := ⟨count / 2, by omega⟩
  · exact h.pairs k
  · have hvalid : validSingleEscape rest = true := hcount.resolve_left (by omega)
    rw [List.replicate_succ', List.append_assoc]
    exact (h.backslash hvalid).pairs k

/-- Every backslash of the repaired text belongs to an escape, when it is read from left to right. -/
theorem escaped_repair (value : List Char) : Escaped (repairJsonBackslashes value) := by
  induction value using runs_induction with
  | nil =>
    rw [repair_nil]
    exact .nil
  | plain c rest hc ih =>
    rw [repair_plain hc]
    exact .plain hc ih
  | run count rest hhead ih =>
    rw [repair_run count hhead]
    exact ih.run ((repairedCount_even _ rest).imp_right validSingleEscape_repair)

/-- A run has at most one more backslash than before, and nothing else changes. -/
theorem repaired_repair (value : List Char) : Repaired value (repairJsonBackslashes value) := by
  induction value using runs_induction with
  | nil =>
    rw [repair_nil]
    exact .nil
  | plain c rest hc ih =>
    rw [repair_plain hc]
    exact .plain hc ih
  | run count rest hhead ih =>
    rw [repair_run count hhead]
    exact .run (Nat.succ_pos count) hhead (repairedCount_eq _ rest) ih

/-- Another repair changes nothing. -/
theorem repair_repair (value : List Char) :
    repairJsonBackslashes (repairJsonBackslashes value) = repairJsonBackslashes value := by
  induction value using runs_induction with
  | nil => rw [repair_nil, repair_nil]
  | plain c rest hc ih => rw [repair_plain hc, repair_plain hc, ih]
  | run count rest hhead ih =>
    have hsame : repairedCount (repairedCount (count + 1) rest) (repairJsonBackslashes rest) =
        repairedCount (count + 1) rest :=
      repairedCount_of_even ((repairedCount_even _ rest).imp_right validSingleEscape_repair)
    obtain ⟨more, hmore⟩ : ∃ more, repairedCount (count + 1) rest = more + 1 := by
      rcases repairedCount_eq (count + 1) rest with h | h
      · exact ⟨count, h⟩
      · exact ⟨count + 1, h⟩
    rw [repair_run count hhead]
    rw [hmore] at hsame ⊢
    rw [repair_run more (repair_head hhead), hsame, ih]

/-- The three properties of a repaired text. -/
theorem repair_correct (value : List Char) :
    Escaped (repairJsonBackslashes value) ∧ Repaired value (repairJsonBackslashes value) ∧
      repairJsonBackslashes (repairJsonBackslashes value) = repairJsonBackslashes value :=
  ⟨escaped_repair value, repaired_repair value, repair_repair value⟩

end Transport

end KakeyaEngine
