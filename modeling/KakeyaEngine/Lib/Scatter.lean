import Mathlib.Data.List.Basic

/-!
# Copying entries to given places

`scatter l index source` is `l` with the entries of `source` written over the places that `index` lists.  When no place is
listed twice, each listed place holds the entry that was written there, and every other place what it held before.
-/

variable {α : Type}

/-- The list with the entries of `source` at the places of `index`. -/
def scatter (l : List α) (index : List Nat) (source : List α) : List α :=
  (index.zip source).foldl (fun acc p => acc.set p.1 p.2) l

@[simp] theorem scatter_nil (l source : List α) : scatter l [] source = l := rfl

@[simp] theorem scatter_cons (l : List α) (i : Nat) (index : List Nat) (a : α) (source : List α) :
    scatter l (i :: index) (a :: source) = scatter (l.set i a) index source := rfl

@[simp] theorem length_scatter (l : List α) (index : List Nat) (source : List α) :
    (scatter l index source).length = l.length := by
  unfold scatter
  induction index.zip source generalizing l with
  | nil => rfl
  | cons p ps ih => rw [List.foldl_cons, ih, List.length_set]

/-- A place that is not listed keeps its entry. -/
theorem getElem?_scatter_of_notMem {l : List α} {index : List Nat} {source : List α} {p : Nat} (hp : p ∉ index) :
    (scatter l index source)[p]? = l[p]? := by
  induction index generalizing l source with
  | nil => rfl
  | cons i index ih =>
    cases source with
    | nil => rfl
    | cons a source =>
      rw [List.mem_cons, not_or] at hp
      rw [scatter_cons, ih hp.2, List.getElem?_set_ne (Ne.symm hp.1)]

/-- A listed place holds the entry that was written there. -/
theorem getElem?_scatter {l : List α} {index : List Nat} {source : List α} (hnodup : index.Nodup)
    (hlen : index.length = source.length) (hlt : ∀ i ∈ index, i < l.length) {k p : Nat} (hk : index[k]? = some p) :
    (scatter l index source)[p]? = source[k]? := by
  induction index generalizing l source k with
  | nil => cases hk
  | cons i index ih =>
    cases source with
    | nil => cases hlen
    | cons a source =>
      rw [List.nodup_cons] at hnodup
      rw [scatter_cons]
      cases k with
      | zero =>
        obtain rfl : i = p := Option.some.inj hk
        rw [getElem?_scatter_of_notMem hnodup.1, List.getElem?_set_self (hlt i (List.mem_cons_self ..))]
        rfl
      | succ k =>
        refine ih hnodup.2 (Nat.succ.inj hlen) (fun j hj => ?_) hk
        rw [List.length_set]
        exact hlt j (List.mem_cons_of_mem _ hj)
