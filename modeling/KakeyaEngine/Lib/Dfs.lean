import Mathlib.Data.List.Nodup
import Mathlib.Data.List.Perm.Subperm

/-!
# A depth-first search for cycles

`visit` walks along `deps` with the nodes that it is inside of and a list of those that it has finished.  It fails at a
node that it is inside of.  When it does not, the list of finished nodes is a topological order (`Ordered`), and every part of
it that is closed under `deps` has a node without dependencies.
-/

namespace Dfs

/-- Why a search fails.  `outOfFuel` is not seen where the fuel exceeds the number of nodes (`visit_ne_outOfFuel`). -/
inductive Failure
  | cycle
  | outOfFuel
deriving DecidableEq

variable {ι : Type}

/-- One visit after another. -/
def visitAll (visit : List ι → ι → Except Failure (List ι)) : List ι → List ι → Except Failure (List ι)
  | visited, [] => .ok visited
  | visited, n :: ns =>
    match visit visited n with
    | .error e => .error e
    | .ok visited' => visitAll visit visited' ns

section

variable [DecidableEq ι] (deps : ι → List ι)

/-- One visit: the nodes that the search is inside of, the finished nodes in the order in which they were finished, and
the node to visit. -/
def visit : (fuel : Nat) → (visiting visited : List ι) → ι → Except Failure (List ι)
  | 0, _, _, _ => .error .outOfFuel
  | fuel + 1, visiting, visited, n =>
    if n ∈ visiting then .error .cycle
    else if n ∈ visited then .ok visited
    else
      match visitAll (visit fuel (n :: visiting)) visited (deps n) with
      | .error e => .error e
      | .ok visited' => .ok (visited' ++ [n])

end

/-! ### The order of the finished nodes -/

variable {deps : ι → List ι}

variable (deps) in
/-- Every node of the list comes after all that it depends on. -/
def Ordered (visited : List ι) : Prop := ∀ before n after, visited = before ++ n :: after → deps n ⊆ before

theorem Ordered.nil : Ordered deps [] := fun before n after h => by
  have := congrArg List.length h
  simp at this

theorem Ordered.snoc {visited : List ι} (h : Ordered deps visited) {n : ι} (hn : deps n ⊆ visited) :
    Ordered deps (visited ++ [n]) := by
  intro before m after heq
  rcases List.eq_nil_or_concat after with rfl | ⟨after', x, rfl⟩
  · obtain ⟨rfl, hm⟩ := List.append_inj' heq rfl
    obtain rfl : n = m := List.singleton_inj.mp hm
    exact hn
  · have hsplit : visited ++ [n] = (before ++ m :: after') ++ [x] := by simpa using heq
    exact h before m after' (List.append_inj' hsplit rfl).1

variable (deps) in
/-- What a successful visit adds. -/
structure Extends (visited visited' : List ι) : Prop where
  subset : visited ⊆ visited'
  ordered : Ordered deps visited → Ordered deps visited'

theorem visitAll_ok {visit : List ι → ι → Except Failure (List ι)}
    (hvisit : ∀ {visited visited' n}, visit visited n = .ok visited' →
      Extends deps visited visited' ∧ n ∈ visited') {ns visited visited' : List ι}
    (h : visitAll visit visited ns = .ok visited') : Extends deps visited visited' ∧ ns ⊆ visited' := by
  induction ns generalizing visited with
  | nil =>
    cases h
    exact ⟨⟨List.Subset.refl _, id⟩, List.nil_subset _⟩
  | cons n ns ih =>
    unfold visitAll at h
    split at h
    · cases h
    · rename_i visited'' hn
      obtain ⟨hext, hmem⟩ := hvisit hn
      obtain ⟨hext', hsub⟩ := ih h
      exact ⟨⟨List.Subset.trans hext.subset hext'.subset, fun ho => hext'.ordered (hext.ordered ho)⟩,
        List.cons_subset.mpr ⟨hext'.subset hmem, hsub⟩⟩

theorem visitAll_ne_outOfFuel {visit : List ι → ι → Except Failure (List ι)} {ns : List ι}
    (hvisit : ∀ visited, ∀ n ∈ ns, visit visited n ≠ .error .outOfFuel) (visited : List ι) :
    visitAll visit visited ns ≠ .error .outOfFuel := by
  induction ns generalizing visited with
  | nil => exact nofun
  | cons n ns ih =>
    unfold visitAll
    split
    · rename_i e he
      exact fun h => hvisit visited n List.mem_cons_self (he.trans h)
    · exact ih (fun visited m hm => hvisit visited m (List.mem_cons_of_mem _ hm)) _

variable [DecidableEq ι]

/-- A visit that succeeds keeps the order and finishes its node. -/
theorem visit_ok {fuel : Nat} {visiting visited visited' : List ι} {n : ι}
    (h : visit deps fuel visiting visited n = .ok visited') :
    Extends deps visited visited' ∧ n ∈ visited' := by
  induction fuel generalizing visiting visited visited' n with
  | zero => cases h
  | succ fuel ih =>
    unfold visit at h
    split at h
    · cases h
    · split at h
      · rename_i hmem
        cases h
        exact ⟨⟨List.Subset.refl _, id⟩, hmem⟩
      · split at h
        · cases h
        · rename_i visited'' hall
          cases h
          obtain ⟨hext, hsub⟩ := visitAll_ok ih hall
          exact ⟨⟨List.Subset.trans hext.subset (List.subset_append_left _ _), fun ho => (hext.ordered ho).snoc hsub⟩, by simp⟩

/-- What a node depends on stands before it. -/
theorem Ordered.idxOf_lt {visited : List ι} (h : Ordered deps visited) {a b : ι} (ha : a ∈ visited) (hb : b ∈ deps a) :
    visited.idxOf b < visited.idxOf a := by
  obtain ⟨before, after, heq, hnot⟩ := List.eq_append_cons_of_mem ha
  have hmem := h before a after heq hb
  rw [heq, List.idxOf_append_of_mem hmem, List.idxOf_append_of_notMem hnot, List.idxOf_cons_self]
  have := List.idxOf_lt_length_iff.mpr hmem
  omega

/-- A part of an ordered list that is closed under `deps` has a node without dependencies. -/
theorem Ordered.exists_source {visited nodes : List ι} (h : Ordered deps visited) (hsub : nodes ⊆ visited)
    (hclosed : ∀ n ∈ nodes, deps n ⊆ nodes) (hne : nodes ≠ []) : ∃ n ∈ nodes, deps n = [] := by
  have hdown : ∀ k, ∀ n ∈ nodes, visited.idxOf n = k → ∃ m ∈ nodes, deps m = [] := by
    intro k
    induction k using Nat.strongRecOn with
    | ind k ih =>
      intro n hn hk
      cases hdeps : deps n with
      | nil => exact ⟨n, hn, hdeps⟩
      | cons d ds =>
        have hd : d ∈ deps n := by rw [hdeps]; exact List.mem_cons_self
        exact ih _ (hk ▸ h.idxOf_lt (hsub hn) hd) d (hclosed n hn hd) rfl
  obtain ⟨n, hn⟩ := List.exists_mem_of_ne_nil nodes hne
  exact hdown _ n hn rfl

/-! ### Fuel -/

/-- A search among finitely many nodes does not run out of fuel: it is inside of different nodes all the time. -/
theorem visit_ne_outOfFuel {nodes : List ι} (hclosed : ∀ n ∈ nodes, deps n ⊆ nodes) {fuel : Nat}
    {visiting visited : List ι} {n : ι} (hnodup : visiting.Nodup) (hsub : visiting ⊆ nodes) (hn : n ∈ nodes)
    (hfuel : nodes.length < fuel + visiting.length) : visit deps fuel visiting visited n ≠ .error .outOfFuel := by
  induction fuel generalizing visiting visited n with
  | zero =>
    have := (hnodup.subperm hsub).length_le
    omega
  | succ fuel ih =>
    unfold visit
    split
    · exact nofun
    · rename_i hfresh
      split
      · exact nofun
      · split
        · rename_i e he
          intro h
          refine visitAll_ne_outOfFuel (fun visited m hm => ?_) visited (he.trans h)
          refine ih (List.nodup_cons.mpr ⟨hfresh, hnodup⟩) (List.cons_subset.mpr ⟨hn, hsub⟩) (hclosed n hn hm) ?_
          rw [List.length_cons]
          omega
        · exact nofun

end Dfs
