import Mathlib.Data.List.Basic

/-!
# Streams that arrive in pieces

A stream is the list of the pieces in which it will arrive; no piece is empty, since an empty one says that the stream has
ended.  `recv` takes at most a number of elements, and no more than the first piece has.  `recvExact` calls it until it has as
many as it was asked for: how the stream was cut into pieces does not matter then (`recvExact_append`), and it fails exactly
when the stream is too short (`recvExact_of_short`).
-/

namespace ByteStream

variable {α : Type}

def recv (size : Nat) : List (List α) → List α × List (List α)
  | [] => ([], [])
  | piece :: pieces =>
    if piece.length ≤ size then (piece, pieces) else (piece.take size, piece.drop size :: pieces)

/-- No piece is empty. -/
def Pieces (s : List (List α)) : Prop := ∀ piece ∈ s, piece ≠ []

/-- Receives exactly `size` elements, or fails at the end of the stream. -/
def recvExact : (size : Nat) → List (List α) → Option (List α) × List (List α)
  | 0, s => (some [], s)
  | size + 1, s =>
    match recv (size + 1) s with
    | ([], s') => (none, s')
    | (x :: chunk, s') =>
      let rest := recvExact (size - chunk.length) s'
      (rest.1.map (x :: chunk ++ ·), rest.2)
termination_by size => size
decreasing_by omega

theorem recv_nil {size : Nat} {s : List (List α)} (hs : Pieces s) (h : s.flatten = []) : recv size s = ([], []) := by
  cases s with
  | nil => rfl
  | cons piece pieces =>
    have hpiece : piece = [] := (List.append_eq_nil_iff.mp h).1
    exact absurd hpiece (hs piece List.mem_cons_self)

/-- A call gives at least one element of a stream that has not ended, and at most as many as it was asked for. -/
theorem recv_cons {size : Nat} (hsize : 0 < size) {s : List (List α)} (hs : Pieces s) (h : s.flatten ≠ []) :
    ∃ x chunk s', recv size s = (x :: chunk, s') ∧ chunk.length < size ∧ s.flatten = x :: chunk ++ s'.flatten ∧ Pieces s' := by
  cases s with
  | nil => exact absurd rfl h
  | cons piece pieces =>
    have hpieces : Pieces pieces := fun p hp => hs p (List.mem_cons_of_mem _ hp)
    obtain ⟨x, chunk, rfl⟩ := List.exists_cons_of_ne_nil (hs piece List.mem_cons_self)
    unfold recv
    dsimp only
    by_cases hle : (x :: chunk).length ≤ size
    · rw [if_pos hle]
      exact ⟨x, chunk, pieces, rfl, hle, rfl, hpieces⟩
    · rw [if_neg hle]
      obtain ⟨n, rfl⟩ : ∃ n, size = n + 1 := ⟨size - 1, by omega⟩
      rw [List.length_cons] at hle
      refine ⟨x, chunk.take n, chunk.drop n :: pieces, rfl, ?_, ?_, ?_⟩
      · rw [List.length_take]
        omega
      · rw [List.flatten_cons, List.flatten_cons, List.cons_append, List.cons_append, ← List.append_assoc,
          List.take_append_drop]
      · refine List.forall_mem_cons.mpr ⟨fun hnil => ?_, hpieces⟩
        have hlength := congrArg List.length hnil
        rw [List.length_drop, List.length_nil] at hlength
        omega

/-- What is received does not depend on the pieces. -/
theorem recvExact_append {s : List (List α)} (hs : Pieces s) {front back : List α} (h : s.flatten = front ++ back) :
    ∃ s', recvExact front.length s = (some front, s') ∧ s'.flatten = back ∧ Pieces s' := by
  induction hn : front.length using Nat.strongRecOn generalizing front s with
  | ind n ih =>
    cases n with
    | zero =>
      obtain rfl := List.length_eq_zero_iff.mp hn
      unfold recvExact
      exact ⟨s, rfl, h, hs⟩
    | succ n =>
      have hne : s.flatten ≠ [] := by
        rw [h]
        exact fun hnil => by
          rw [(List.append_eq_nil_iff.mp hnil).1] at hn
          cases hn
      obtain ⟨x, chunk, s', hrecv, hlt, hflatten, hs'⟩ := recv_cons (Nat.succ_pos n) hs hne
      -- what has arrived is the beginning of what was asked for
      have hfront : front = x :: chunk ++ front.drop (chunk.length + 1) ∧ s'.flatten = front.drop (chunk.length + 1) ++ back := by
        rw [hflatten] at h
        have htake := congrArg (List.take (chunk.length + 1)) h
        have hdrop := congrArg (List.drop (chunk.length + 1)) h
        rw [List.take_left' List.length_cons, List.take_append_of_le_length (by omega)] at htake
        rw [List.drop_left' List.length_cons, List.drop_append_of_le_length (by omega)] at hdrop
        refine ⟨?_, hdrop⟩
        conv_lhs => rw [← List.take_append_drop (chunk.length + 1) front, ← htake]
      have hrest : (front.drop (chunk.length + 1)).length = n - chunk.length := by
        rw [List.length_drop]
        omega
      obtain ⟨s'', hexact, hback, hs''⟩ := ih (n - chunk.length) (by omega) hs' hfront.2 hrest
      refine ⟨s'', ?_, hback, hs''⟩
      unfold recvExact
      rw [hrecv]
      dsimp only
      rw [hexact, Option.map_some, ← hfront.1]

/-- A stream that is too short ends first. -/
theorem recvExact_of_short {s : List (List α)} (hs : Pieces s) {size : Nat} (h : s.flatten.length < size) :
    (recvExact size s).1 = none := by
  induction size using Nat.strongRecOn generalizing s with
  | ind n ih =>
    cases n with
    | zero => omega
    | succ n =>
      unfold recvExact
      by_cases hnil : s.flatten = []
      · rw [recv_nil hs hnil]
      · obtain ⟨x, chunk, s', hrecv, hlt, hflatten, hs'⟩ := recv_cons (Nat.succ_pos n) hs hnil
        rw [hflatten, List.length_append, List.length_cons] at h
        rw [hrecv]
        dsimp only
        rw [ih (n - chunk.length) (by omega) hs' (by omega), Option.map_none]

end ByteStream
