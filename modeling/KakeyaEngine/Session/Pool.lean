import Mathlib.Data.Finset.Card

/-!
# The slab pool

`SlabPool` hands out preallocated K/V slabs.  A slab is identified by its index; what is in it is not the pool's
business.  The structure carries its invariant: every slab is either free or in use, and no slab is listed twice.
-/

namespace KakeyaEngine

/-- `SlabPool`.  The free list is used from its end. -/
structure SlabPool where
  totalCount : Nat
  free : List Nat
  inUse : Finset Nat
  free_nodup : free.Nodup
  partition : ∀ i, i < totalCount ↔ i ∈ free ∨ i ∈ inUse
  disjoint : ∀ i ∈ free, i ∉ inUse

/-- The exceptions of the pool. -/
inductive PoolError
  | valueError (message : String)
  | exhausted (message : String)
deriving DecidableEq

namespace SlabPool

/-- `SlabPool.__init__`. -/
def create (numSlabs : Int) : Except PoolError SlabPool :=
  if numSlabs ≤ 0 then .error (.valueError ("num_slabs must be positive, got " ++ toString numSlabs))
  else
    .ok
      { totalCount := numSlabs.toNat
        free := List.range numSlabs.toNat
        inUse := ∅
        free_nodup := List.nodup_range
        partition := by simp
        disjoint := by simp }

/-- `acquire`. -/
def acquire (p : SlabPool) : Except PoolError (Nat × SlabPool) :=
  match h : p.free.getLast? with
  | none =>
    .error (.exhausted ("all " ++ toString p.totalCount ++
      " slabs in use; admission control must reject or queue this session"))
  | some idx =>
    have hfree : p.free = p.free.dropLast ++ [idx] := by
      obtain ⟨init, hinit⟩ := List.getLast?_eq_some_iff.1 h
      rw [hinit, List.dropLast_concat]
    .ok (idx,
      { totalCount := p.totalCount
        free := p.free.dropLast
        inUse := insert idx p.inUse
        free_nodup := p.free_nodup.sublist (List.dropLast_sublist _)
        partition := by
          intro i
          have hi := p.partition i
          rw [hfree] at hi
          simp only [hi, List.mem_append, List.mem_singleton, Finset.mem_insert]
          tauto
        disjoint := by
          intro i hi hmem
          rcases Finset.mem_insert.1 hmem with rfl | hmem
          · have hnd := p.free_nodup
            rw [hfree, List.nodup_append] at hnd
            exact hnd.2.2 i hi i (by simp) rfl
          · exact p.disjoint i (List.dropLast_subset _ hi) hmem })

/-- `release`. -/
def release (p : SlabPool) (idx : Nat) : Except PoolError SlabPool :=
  if hidx : ¬ idx < p.totalCount then .error (.valueError "slab does not belong to this pool")
  else if huse : idx ∉ p.inUse then
    .error (.valueError ("slab at index " ++ toString idx ++ " is not currently in use (double release?)"))
  else
    .ok
      { totalCount := p.totalCount
        free := p.free ++ [idx]
        inUse := p.inUse.erase idx
        free_nodup := by
          rw [List.nodup_append]
          refine ⟨p.free_nodup, by simp, ?_⟩
          intro a ha b hb hab
          rw [List.mem_singleton] at hb
          subst hab hb
          exact p.disjoint a ha (not_not.1 huse)
        partition := by
          intro i
          rw [p.partition i, List.mem_append, List.mem_singleton, Finset.mem_erase]
          by_cases hi : i = idx
          · subst hi
            simp [not_not.1 huse]
          · simp [hi]
        disjoint := by
          intro i hi hmem
          obtain ⟨hne, hmem⟩ := Finset.mem_erase.1 hmem
          rcases List.mem_append.1 hi with hi | hi
          · exact p.disjoint i hi hmem
          · exact hne (List.mem_singleton.1 hi) }

/-! ### What the operations do -/

/-- An acquired slab was free and is in use afterwards. -/
theorem acquire_ok {p p' : SlabPool} {i : Nat} (h : p.acquire = .ok (i, p')) :
    i ∉ p.inUse ∧ p'.inUse = insert i p.inUse ∧ p'.totalCount = p.totalCount := by
  unfold acquire at h
  split at h
  · cases h
  · rename_i idx hlast
    obtain ⟨rfl, rfl⟩ := Prod.mk.inj (Except.ok.inj h)
    exact ⟨p.disjoint idx (List.mem_of_getLast? hlast), rfl, rfl⟩

/-- The pool is exhausted only when all slabs are in use. -/
theorem acquire_error {p : SlabPool} {e : PoolError} (h : p.acquire = .error e) : p.inUse.card = p.totalCount := by
  unfold acquire at h
  split at h
  · rename_i hlast
    have hnil : p.free = [] := List.getLast?_eq_none_iff.1 hlast
    have hall : p.inUse = Finset.range p.totalCount := by
      ext i
      rw [Finset.mem_range, p.partition i, hnil]
      simp
    rw [hall, Finset.card_range]
  · cases h

/-- A slab that is in use can be released. -/
theorem release_ok {p : SlabPool} {i : Nat} (hi : i ∈ p.inUse) :
    ∃ p', p.release i = .ok p' ∧ p'.inUse = p.inUse.erase i ∧ p'.totalCount = p.totalCount := by
  have hlt : i < p.totalCount := (p.partition i).2 (Or.inr hi)
  unfold release
  rw [dif_neg (not_not.2 hlt), dif_neg (not_not.2 hi)]
  exact ⟨_, rfl, rfl, rfl⟩

end SlabPool

end KakeyaEngine
