import KakeyaEngine.Lib.Dict

/-!
# Numbered pieces of a list

A list is cut into pieces of one size, the last of them possibly shorter, and an empty list is one empty piece.  The
pieces are numbered and may arrive in any order.  `Collected` says that a dictionary holds exactly the numbered parts
that have arrived; when these are the pieces of a list, putting them together in the order of their numbers gives the
list back (`join_collected`).
-/

namespace Chunks

variable {α : Type}

/-- The number of pieces. -/
def count (size n : Nat) : Nat := max 1 ((n + size - 1) / size)

/-- The piece with a number. -/
def piece (size : Nat) (l : List α) (i : Nat) : List α := (l.drop (i * size)).take size

/-- The first pieces, one after the other. -/
theorem flatMap_piece (size : Nat) (l : List α) (n : Nat) :
    (List.range n).flatMap (piece size l) = l.take (n * size) := by
  induction n with
  | zero => simp
  | succ n ih =>
    rw [List.range_succ, List.flatMap_append, ih, Nat.succ_mul, List.take_add]
    simp [piece]

theorem length_le_count_mul {size : Nat} (hsize : 0 < size) (n : Nat) : n ≤ count size n * size := by
  have hdiv : n ≤ (n + size - 1) / size * size := by
    have := Nat.lt_mul_div_succ (n + size - 1) hsize
    rw [Nat.mul_succ] at this
    rw [Nat.mul_comm]
    omega
  have hle : (n + size - 1) / size ≤ count size n := Nat.le_max_right _ _
  exact Nat.le_trans hdiv (Nat.mul_le_mul_right size hle)

/-- All the pieces are the list. -/
theorem flatMap_pieces {size : Nat} (hsize : 0 < size) (l : List α) :
    (List.range (count size l.length)).flatMap (piece size l) = l := by
  rw [flatMap_piece, List.take_of_length_le (length_le_count_mul hsize l.length)]

/-! ### Collecting parts -/

/-- The dictionary holds exactly the numbered parts. -/
structure Collected (parts : Dict Nat (List α)) (received : List (Nat × List α)) : Prop where
  get : ∀ i d, parts.get? i = some d ↔ (i, d) ∈ received
  size : parts.size = received.length

theorem Collected.empty : Collected (Dict.empty : Dict Nat (List α)) [] := ⟨by simp, rfl⟩

/-- A part with a new number is added. -/
theorem Collected.add {parts : Dict Nat (List α)} {received : List (Nat × List α)} (h : Collected parts received)
    {i : Nat} (hnew : parts.contains i = false) (d : List α) : Collected (parts.set i d) (received ++ [(i, d)]) := by
  have habsent : parts.get? i = none := by
    cases hi : parts.get? i with
    | none => rfl
    | some v =>
      rw [Dict.contains_iff.2 ⟨v, hi⟩] at hnew
      cases hnew
  constructor
  · intro j e
    rw [Dict.get?_set, List.mem_append, List.mem_singleton, Prod.mk.injEq]
    by_cases hj : j = i
    · subst hj
      rw [if_pos rfl]
      constructor
      · intro he
        exact Or.inr ⟨rfl, (Option.some.inj he).symm⟩
      · rintro (hmem | ⟨-, rfl⟩)
        · have := (h.get j e).2 hmem
          rw [habsent] at this
          cases this
        · rfl
    · rw [if_neg hj, h.get]
      exact ⟨Or.inl, fun hor => hor.resolve_right fun heq => hj heq.1⟩
  · rw [Dict.size_set_new d habsent, h.size, List.length_append, List.length_singleton]

/-- A number that has not arrived is not in the dictionary. -/
theorem Collected.not_contains {parts : Dict Nat (List α)} {received : List (Nat × List α)} (h : Collected parts received)
    {i : Nat} (hi : i ∉ received.map Prod.fst) : parts.contains i = false := by
  cases hc : parts.contains i with
  | false => rfl
  | true =>
    obtain ⟨d, hd⟩ := Dict.contains_iff.1 hc
    exact absurd (List.mem_map.2 ⟨(i, d), (h.get i d).1 hd, rfl⟩) hi

/-- The number of a part is new when it differs from those of the parts before it. -/
theorem Collected.not_contains_next {parts : Dict Nat (List α)} {received rest : List (Nat × List α)} {p : Nat × List α}
    (h : Collected parts received) (hnodup : ((received ++ p :: rest).map Prod.fst).Nodup) :
    parts.contains p.1 = false := by
  apply h.not_contains
  intro hmem
  rw [List.map_append, List.nodup_append] at hnodup
  exact hnodup.2.2 p.1 hmem p.1 (by simp) rfl

/-- The numbered pieces of a list. -/
def numbered (size : Nat) (l : List α) : List (Nat × List α) :=
  (List.range (count size l.length)).map fun i => (i, piece size l i)

theorem length_numbered (size : Nat) (l : List α) : (numbered size l).length = count size l.length := by
  simp [numbered]

theorem numbered_fst (size : Nat) (l : List α) :
    (numbered size l).map Prod.fst = List.range (count size l.length) := by
  simp [numbered, Function.comp_def]

/-- The pieces have as many elements as the list. -/
theorem sum_numbered {size : Nat} (hsize : 0 < size) (l : List α) :
    ((numbered size l).map fun p => p.2.length).sum = l.length := by
  have h := congrArg List.length (flatMap_pieces hsize l)
  rw [List.length_flatMap] at h
  unfold numbered
  rw [List.map_map]
  exact h

/-- Once all the pieces of a list have arrived, in whatever order, they give the list. -/
theorem join_collected {size : Nat} (hsize : 0 < size) {l : List α} {parts : Dict Nat (List α)}
    {received : List (Nat × List α)} (h : Collected parts received) (hperm : received.Perm (numbered size l)) :
    (List.range (count size l.length)).flatMap (fun i => (parts.get? i).getD []) = l := by
  have hpart : ∀ i ∈ List.range (count size l.length), (parts.get? i).getD [] = piece size l i := by
    intro i hi
    have hmem : (i, piece size l i) ∈ received := hperm.mem_iff.2 (List.mem_map.2 ⟨i, hi, rfl⟩)
    rw [(h.get i _).2 hmem, Option.getD_some]
  have hmap : (List.range (count size l.length)).map (fun i => (parts.get? i).getD []) =
      (List.range (count size l.length)).map (piece size l) := List.map_congr_left hpart
  have hall := flatMap_pieces hsize l
  rw [List.flatMap_def] at hall ⊢
  rw [hmap, hall]

end Chunks
