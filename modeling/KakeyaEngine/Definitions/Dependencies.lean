import KakeyaEngine.Lib.Cycles
import KakeyaEngine.Lib.Dict

/-!
# The order of missing definitions

A gap depends on the gaps that are the first to list one of its symbols, and its required type may add a dependency and
drop another.  Ownership follows the order of the list, an added dependency need not, so the audits that can be resolved gap
by gap are exactly those in which the added dependencies close no cycle (`audit_resolves_iff`).
-/

namespace KakeyaEngine

namespace Definitions

/-- What is read of a missing definition. -/
structure MissingDefinition where
  definitionId : String
  symbolIds : List String
  requiredTypeId : String
deriving DecidableEq

/-- `ids`: the gaps with an id, of several with the same id the last one at the place of the first. -/
def byId (missing : List MissingDefinition) : Dict String MissingDefinition :=
  Dict.ofEntries ((missing.filter fun item => item.definitionId ≠ "").map fun item => (item.definitionId, item))

/-! ### The dependency graph -/

/-- `d.setdefault(key, value)`. -/
def setdefault (d : Dict String String) (key value : String) : Dict String String :=
  if (d.get? key).isSome then d else d.set key value

def symbolOwner (ids : Dict String MissingDefinition) : Dict String String :=
  ids.entries.foldl
    (fun owner e => e.2.symbolIds.foldl (fun owner symbol => setdefault owner symbol e.1) owner) Dict.empty

/-- The owners of the symbols of a gap. -/
def ownerDependencies (owner : Dict String String) (gapId : String) (item : MissingDefinition) : List String :=
  item.symbolIds.foldl
    (fun dependencies symbol =>
      match owner.get? symbol with
      | some o => if o ≠ "" ∧ o ≠ gapId then dependencies.insert o else dependencies
      | none => dependencies)
    []

/-- `dependencies.discard(id)`. -/
def discard (dependencies : List String) (id : String) : List String := dependencies.filter (· ≠ id)

/-- The corrections by the required type. -/
def refineByType (requiredType : String) (dependencies : List String) : List String :=
  match requiredType with
  | "TYPE_CANONICAL_PRODUCT_BINDING" =>
    (discard dependencies "DEF_SEQUENCE_DENSITY").insert "DEF_POLE_NEIGHBORHOOD"
  | "TYPE_CONVERGENCE_MODE" => discard (dependencies.insert "DEF_FUNCTION_BINDING") "DEF_SEQUENCE_DENSITY"
  | "TYPE_ENTIRE_FUNCTION_ORDER" => discard (dependencies.insert "DEF_FUNCTION_BINDING") "DEF_GENUS"
  | "TYPE_SEQUENCE_DENSITY" => dependencies.insert "DEF_FUNCTION_BINDING"
  | "TYPE_DENSITY_THRESHOLD" => discard (dependencies.insert "DEF_SEQUENCE_DENSITY") "DEF_FUNCTION_BINDING"
  | _ => dependencies

def dependencyGraphForAudit (missing : List MissingDefinition) : Dict String (List String) :=
  let ids := byId missing
  let owner := symbolOwner ids
  Dict.ofEntries (ids.entries.map fun e =>
    let dependencies := refineByType e.2.requiredTypeId (ownerDependencies owner e.1 e.2)
    (e.1, (dependencies.filter fun id => (ids.get? id).isSome).mergeSort fun a b => decide (a ≤ b)))

/-! ### The next gap -/

/-- The order of the registered gaps. -/
def gapOrder : String → Nat
  | "DEF_EPSILON" => 0
  | "DEF_GENUS" => 1
  | "DEF_POLE_NEIGHBORHOOD" => 2
  | "DEF_FUNCTION_BINDING" => 3
  | "DEF_SERIES_CONVERGENCE" => 4
  | "DEF_GROWTH_ORDER" => 5
  | "DEF_SEQUENCE_DENSITY" => 6
  | "DEF_CRITICAL_DENSITY" => 7
  | _ => 100

/-- The comparison of two candidates. -/
def Precedes (a b : MissingDefinition) : Prop :=
  gapOrder a.definitionId < gapOrder b.definitionId ∨
    (gapOrder a.definitionId = gapOrder b.definitionId ∧ a.definitionId < b.definitionId)

instance (a b : MissingDefinition) : Decidable (Precedes a b) := inferInstanceAs (Decidable (_ ∨ _))

/-- `min(candidates)`: the first of the least ones. -/
def least : List MissingDefinition → Option MissingDefinition
  | [] => none
  | item :: rest =>
    match least rest with
    | none => some item
    | some other => if Precedes other item then some other else some item

def firstDependencyClosedGap (missing : List MissingDefinition) (graph : Dict String (List String))
    (resolved : List String) : Option MissingDefinition :=
  least (missing.filter fun item =>
    item.definitionId ∉ resolved ∧ ((graph.get? item.definitionId).getD []).all (· ∈ resolved))

/-- Resolving the returned gaps one after another, at most so many. -/
def resolveInTurn (missing : List MissingDefinition) (graph : Dict String (List String)) : Nat → List String → List String
  | 0, resolved => resolved
  | n + 1, resolved =>
    match firstDependencyClosedGap missing graph resolved with
    | none => resolved
    | some item => resolveInTurn missing graph n (resolved ++ [item.definitionId])

/-! ### What an audit says -/

/-- The gap lists the symbol. -/
def Lists (missing : List MissingDefinition) (gap symbol : String) : Prop :=
  ∃ item, (byId missing).get? gap = some item ∧ symbol ∈ item.symbolIds

/-- The gap is the first one to list the symbol. -/
def Owns (missing : List MissingDefinition) (gap symbol : String) : Prop :=
  Lists missing gap symbol ∧
    ∀ other, Lists missing other symbol → (byId missing).keys.idxOf gap ≤ (byId missing).keys.idxOf other

/-- The dependency that a required type adds. -/
def addedBy : String → Option String
  | "TYPE_CANONICAL_PRODUCT_BINDING" => some "DEF_POLE_NEIGHBORHOOD"
  | "TYPE_CONVERGENCE_MODE" => some "DEF_FUNCTION_BINDING"
  | "TYPE_ENTIRE_FUNCTION_ORDER" => some "DEF_FUNCTION_BINDING"
  | "TYPE_SEQUENCE_DENSITY" => some "DEF_FUNCTION_BINDING"
  | "TYPE_DENSITY_THRESHOLD" => some "DEF_SEQUENCE_DENSITY"
  | _ => none

/-- The dependency that a required type drops. -/
def droppedBy : String → Option String
  | "TYPE_CANONICAL_PRODUCT_BINDING" => some "DEF_SEQUENCE_DENSITY"
  | "TYPE_CONVERGENCE_MODE" => some "DEF_SEQUENCE_DENSITY"
  | "TYPE_ENTIRE_FUNCTION_ORDER" => some "DEF_GENUS"
  | "TYPE_DENSITY_THRESHOLD" => some "DEF_FUNCTION_BINDING"
  | _ => none

/-- The gap shares a symbol with the other one, which is the first to list it, and its type does not drop it. -/
def Shares (missing : List MissingDefinition) (gap other : String) : Prop :=
  ∃ item symbol, (byId missing).get? gap = some item ∧ symbol ∈ item.symbolIds ∧ Owns missing other symbol ∧
    other ≠ gap ∧ droppedBy item.requiredTypeId ≠ some other

/-- The type of the gap adds the other one, which is missing too. -/
def Requires (missing : List MissingDefinition) (gap other : String) : Prop :=
  ∃ item, (byId missing).get? gap = some item ∧ addedBy item.requiredTypeId = some other ∧ other ∈ (byId missing).keys

/-! ### Owners -/

@[simp] theorem get?_setdefault (d : Dict String String) (key value k : String) :
    (setdefault d key value).get? k = (d.get? k).or (if k = key then some value else none) := by
  unfold setdefault
  split
  · rename_i hsome
    split
    · rename_i hk
      subst hk
      exact (Option.or_of_isSome hsome).symm
    · exact (Option.or_none).symm
  · rename_i hnone
    rw [Option.not_isSome_iff_eq_none] at hnone
    rw [Dict.get?_set]
    split
    · rename_i hk
      subst hk
      rw [hnone]
      rfl
    · exact (Option.or_none).symm

/-- A gap becomes the owner of those of its symbols that have none. -/
theorem get?_setSymbols (symbols : List String) (gap : String) (d : Dict String String) (symbol : String) :
    (symbols.foldl (fun owner s => setdefault owner s gap) d).get? symbol =
      (d.get? symbol).or (if symbol ∈ symbols then some gap else none) := by
  induction symbols generalizing d with
  | nil => simp
  | cons s symbols ih =>
    rw [List.foldl_cons, ih, get?_setdefault, Option.or_assoc]
    congr 1
    by_cases hs : symbol = s
    · simp [hs]
    · simp [hs]

theorem get?_foldOwners (entries : List (String × MissingDefinition)) (d : Dict String String) (symbol : String) :
    (entries.foldl (fun owner e => e.2.symbolIds.foldl (fun owner s => setdefault owner s e.1) owner) d).get? symbol =
      (d.get? symbol).or ((entries.find? fun e => symbol ∈ e.2.symbolIds).map Prod.fst) := by
  induction entries generalizing d with
  | nil => simp
  | cons e entries ih =>
    rw [List.foldl_cons, ih, get?_setSymbols, Option.or_assoc, List.find?_cons]
    congr 1
    by_cases hs : symbol ∈ e.2.symbolIds
    · simp [hs]
    · simp [hs]

/-- The owner of a symbol is the first gap that lists it. -/
theorem symbolOwner_get? (ids : Dict String MissingDefinition) (symbol : String) :
    (symbolOwner ids).get? symbol = (ids.entries.find? fun e => symbol ∈ e.2.symbolIds).map Prod.fst := by
  unfold symbolOwner
  rw [get?_foldOwners, Dict.get?_empty]
  rfl

section Audit

variable {missing : List MissingDefinition}

/-- Before the first gap with a symbol no gap lists it. -/
theorem owns_of_symbolOwner {symbol gap : String} (h : (symbolOwner (byId missing)).get? symbol = some gap) :
    Owns missing gap symbol := by
  rw [symbolOwner_get?, Option.map_eq_some_iff] at h
  obtain ⟨⟨g, item⟩, hfind, rfl⟩ := h
  obtain ⟨hsymbol, before, after, heq, hno⟩ := List.find?_eq_some_iff_append.mp hfind
  have hget : (byId missing).get? g = some item := Dict.mem_entries_iff.mp (heq ▸ by simp)
  refine ⟨⟨item, hget, of_decide_eq_true hsymbol⟩, ?_⟩
  rintro other ⟨item', hget', hsymbol'⟩
  have hkeys : (byId missing).keys = before.map Prod.fst ++ g :: after.map Prod.fst := by
    unfold Dict.keys
    rw [heq, List.map_append, List.map_cons]
  have hnodup := (byId missing).nodup
  rw [← Dict.keys, hkeys, List.nodup_append] at hnodup
  have hnotin : ∀ k, k ∈ before.map Prod.fst → k ≠ g := fun k hk heq => hnodup.2.2 k hk g List.mem_cons_self heq
  have hother : other ∉ before.map Prod.fst := by
    intro hmem
    obtain ⟨⟨k, item''⟩, he, rfl⟩ := List.mem_map.mp hmem
    have hget'' : (byId missing).get? k = some item'' :=
      Dict.mem_entries_iff.mp (heq ▸ List.mem_append_left _ he)
    obtain rfl := Option.some.inj (hget'.symm.trans hget'')
    have hnone := hno _ he
    simp only [Bool.not_eq_true', decide_eq_false_iff_not] at hnone
    exact hnone hsymbol'
  rw [hkeys, List.idxOf_append_of_notMem (fun hmem => hnotin g hmem rfl), List.idxOf_append_of_notMem hother,
    List.idxOf_cons_self]
  omega

theorem mem_keys_byId {gap : String} :
    gap ∈ (byId missing).keys ↔ gap ≠ "" ∧ ∃ item ∈ missing, item.definitionId = gap := by
  unfold byId
  rw [Dict.mem_keys_ofEntries, List.map_map, List.mem_map]
  constructor
  · rintro ⟨item, hitem, rfl⟩
    obtain ⟨hmem, hid⟩ := List.mem_filter.mp hitem
    exact ⟨of_decide_eq_true hid, item, hmem, rfl⟩
  · rintro ⟨hid, item, hmem, rfl⟩
    exact ⟨item, List.mem_filter.mpr ⟨hmem, decide_eq_true hid⟩, rfl⟩

theorem mem_keys_of_lists {gap symbol : String} (h : Lists missing gap symbol) : gap ∈ (byId missing).keys := by
  obtain ⟨item, hget, -⟩ := h
  exact Dict.mem_keys_iff.mpr ⟨item, hget⟩

theorem symbolOwner_iff {symbol gap : String} :
    (symbolOwner (byId missing)).get? symbol = some gap ↔ Owns missing gap symbol := by
  refine ⟨owns_of_symbolOwner, fun h => ?_⟩
  obtain ⟨⟨item, hget, hsymbol⟩, hfirst⟩ := h
  have hsome : ((byId missing).entries.find? fun e => symbol ∈ e.2.symbolIds).isSome = true :=
    List.find?_isSome.mpr ⟨(gap, item), Dict.mem_entries_iff.mpr hget, decide_eq_true hsymbol⟩
  obtain ⟨⟨g, item'⟩, hfind⟩ := Option.isSome_iff_exists.mp hsome
  have howner : (symbolOwner (byId missing)).get? symbol = some g := by
    rw [symbolOwner_get?, hfind]
    rfl
  have howns := owns_of_symbolOwner howner
  have hle := hfirst g howns.1
  have hge := howns.2 gap ⟨item, hget, hsymbol⟩
  rw [howner, (List.idxOf_inj (mem_keys_of_lists howns.1)).mp (le_antisymm hge hle)]

/-- Sharing leads to gaps that come before. -/
theorem idxOf_lt_of_shares {gap other : String} (h : Shares missing gap other) :
    (byId missing).keys.idxOf other < (byId missing).keys.idxOf gap := by
  obtain ⟨item, symbol, hget, hsymbol, howns, hne, -⟩ := h
  have hle := howns.2 gap ⟨item, hget, hsymbol⟩
  have hdiff : (byId missing).keys.idxOf other ≠ (byId missing).keys.idxOf gap :=
    fun heq => hne ((List.idxOf_inj (mem_keys_of_lists howns.1)).mp heq)
  omega

theorem shares_acyclic : Cycles.Acyclic (Shares missing) :=
  Cycles.acyclic_of_rank (fun gap => (byId missing).keys.idxOf gap) fun _ _ => idxOf_lt_of_shares

/-! ### Edges -/

theorem mem_ownerDependencies {owner : Dict String String} {gapId : String} {item : MissingDefinition} {other : String} :
    other ∈ ownerDependencies owner gapId item ↔
      ∃ symbol ∈ item.symbolIds, owner.get? symbol = some other ∧ other ≠ "" ∧ other ≠ gapId := by
  unfold ownerDependencies
  have hfold : ∀ (symbols : List String) (start : List String),
      other ∈ symbols.foldl (fun dependencies symbol =>
        match owner.get? symbol with
        | some o => if o ≠ "" ∧ o ≠ gapId then dependencies.insert o else dependencies
        | none => dependencies) start ↔
      other ∈ start ∨ ∃ symbol ∈ symbols, owner.get? symbol = some other ∧ other ≠ "" ∧ other ≠ gapId := by
    intro symbols
    induction symbols with
    | nil => simp
    | cons s symbols ih =>
      intro start
      rw [List.foldl_cons, ih]
      rcases hs : owner.get? s with _ | o
      · simp [hs]
      · dsimp only
        split
        · rename_i ho
          rw [List.mem_insert_iff]
          constructor
          · rintro ((rfl | hmem) | ⟨symbol, hsymbol, h⟩)
            · exact .inr ⟨s, List.mem_cons_self, hs, ho⟩
            · exact .inl hmem
            · exact .inr ⟨symbol, List.mem_cons_of_mem _ hsymbol, h⟩
          · rintro (hmem | ⟨symbol, hsymbol, h⟩)
            · exact .inl (.inr hmem)
            · rcases List.mem_cons.mp hsymbol with rfl | hsymbol
              · rw [hs] at h
                exact .inl (.inl (Option.some.inj h.1).symm)
              · exact .inr ⟨symbol, hsymbol, h⟩
        · rename_i ho
          refine or_congr_right ⟨?_, ?_⟩
          · rintro ⟨symbol, hsymbol, h⟩
            exact ⟨symbol, List.mem_cons_of_mem _ hsymbol, h⟩
          · rintro ⟨symbol, hsymbol, h⟩
            rcases List.mem_cons.mp hsymbol with rfl | hsymbol
            · rw [hs] at h
              exact absurd (Option.some.inj h.1 ▸ h.2) ho
            · exact ⟨symbol, hsymbol, h⟩
  rw [hfold]
  simp

theorem mem_discard {dependencies : List String} {id dropped : String} :
    id ∈ discard dependencies dropped ↔ id ∈ dependencies ∧ some dropped ≠ some id := by
  unfold discard
  rw [List.mem_filter, decide_eq_true_eq, ne_comm (a := id), Ne, Ne, Option.some.injEq]

theorem mem_insert {dependencies : List String} {id added : String} :
    id ∈ dependencies.insert added ↔ some added = some id ∨ id ∈ dependencies := by
  rw [List.mem_insert_iff, Option.some.injEq, eq_comm]

/-- A correction adds a dependency and drops another. -/
theorem mem_refineByType {requiredType : String} {dependencies : List String} {id : String} :
    id ∈ refineByType requiredType dependencies ↔
      addedBy requiredType = some id ∨ (id ∈ dependencies ∧ droppedBy requiredType ≠ some id) := by
  have hafter : ∀ {added dropped : String}, added ≠ dropped →
      (id ∈ discard (dependencies.insert added) dropped ↔
        some added = some id ∨ (id ∈ dependencies ∧ some dropped ≠ some id)) := by
    intro added dropped hne
    rw [mem_discard, mem_insert, or_and_right]
    refine or_congr_left (and_iff_left_of_imp fun hid h => hne ?_)
    exact Option.some.inj (hid.trans h.symm)
  unfold refineByType
  split
  · exact mem_insert.trans (or_congr_right mem_discard)
  · exact hafter (by decide)
  · exact hafter (by decide)
  · exact mem_insert.trans (or_congr_right (and_iff_left nofun).symm)
  · exact hafter (by decide)
  · have hadded : addedBy requiredType = none := by
      unfold addedBy
      split <;> first | rfl | contradiction
    have hdropped : droppedBy requiredType = none := by
      unfold droppedBy
      split <;> first | rfl | contradiction
    rw [hadded, hdropped]
    simp

end Audit

/-! ### Resolving gap by gap -/

section Resolve

variable (missing : List MissingDefinition)

/-- The graph has the edge. -/
def Edge (gap other : String) : Prop := other ∈ ((dependencyGraphForAudit missing).get? gap).getD []

variable {missing}

theorem edge_iff {gap other : String} : Edge missing gap other ↔ Shares missing gap other ∨ Requires missing gap other := by
  unfold Edge dependencyGraphForAudit
  dsimp only
  rw [Dict.get?_ofEntries_map (byId missing) fun gapId item =>
    ((refineByType item.requiredTypeId (ownerDependencies (symbolOwner (byId missing)) gapId item)).filter fun id =>
      ((byId missing).get? id).isSome).mergeSort fun a b => decide (a ≤ b)]
  have hkey : ∀ id, ((byId missing).get? id).isSome = true ↔ id ∈ (byId missing).keys := by
    intro id
    rw [Option.isSome_iff_exists, Dict.mem_keys_iff]
  rcases hget : (byId missing).get? gap with _ | item
  · constructor
    · exact fun h => nomatch h
    · rintro (⟨item, -, hitem, -⟩ | ⟨item, hitem, -⟩)
      · rw [hget] at hitem
        cases hitem
      · rw [hget] at hitem
        cases hitem
  rw [Option.map_some, Option.getD_some, List.mem_mergeSort, List.mem_filter, hkey, mem_refineByType,
    mem_ownerDependencies]
  constructor
  · rintro ⟨hadded | ⟨⟨symbol, hsymbol, howner, -, hne⟩, hdropped⟩, hmem⟩
    · exact .inr ⟨item, hget, hadded, hmem⟩
    · exact .inl ⟨item, symbol, hget, hsymbol, symbolOwner_iff.mp howner, hne, hdropped⟩
  · rintro (⟨item', symbol, hitem, hsymbol, howns, hne, hdropped⟩ | ⟨item', hitem, hadded, hmem⟩)
    · obtain rfl := Option.some.inj (hget.symm.trans hitem)
      have hmem := mem_keys_of_lists howns.1
      exact ⟨.inr ⟨⟨symbol, hsymbol, symbolOwner_iff.mpr howns, (mem_keys_byId.mp hmem).1, hne⟩, hdropped⟩, hmem⟩
    · obtain rfl := Option.some.inj (hget.symm.trans hitem)
      exact ⟨.inl hadded, hmem⟩

theorem mem_ids_of_edge {gap other : String} (h : Edge missing gap other) : other ∈ missing.map (·.definitionId) := by
  have hkey : other ∈ (byId missing).keys := by
    rcases edge_iff.mp h with ⟨_, _, -, -, howns, -⟩ | ⟨_, -, -, hmem⟩
    · exact mem_keys_of_lists howns.1
    · exact hmem
  obtain ⟨-, item, hitem, rfl⟩ := mem_keys_byId.mp hkey
  exact List.mem_map_of_mem hitem

theorem least_eq_none {items : List MissingDefinition} : least items = none ↔ items = [] := by
  cases items with
  | nil => exact ⟨fun _ => rfl, fun _ => rfl⟩
  | cons item rest =>
    refine ⟨fun h => ?_, nofun⟩
    unfold least at h
    split at h
    · cases h
    · split at h
      · cases h
      · cases h

theorem mem_of_least {items : List MissingDefinition} {item : MissingDefinition} (h : least items = some item) :
    item ∈ items := by
  induction items generalizing item with
  | nil => cases h
  | cons first rest ih =>
    unfold least at h
    split at h
    · obtain rfl := Option.some.inj h
      exact List.mem_cons_self
    · rename_i other hother
      split at h
      · obtain rfl := Option.some.inj h
        exact List.mem_cons_of_mem _ (ih hother)
      · obtain rfl := Option.some.inj h
        exact List.mem_cons_self

/-- The returned gap is one that is not resolved. -/
theorem first_spec {graph : Dict String (List String)} {resolved : List String} {item : MissingDefinition}
    (h : firstDependencyClosedGap missing graph resolved = some item) :
    item ∈ missing ∧ item.definitionId ∉ resolved := by
  obtain ⟨hmem, hopen⟩ := List.mem_filter.mp (mem_of_least h)
  rw [decide_eq_true_eq] at hopen
  exact ⟨hmem, hopen.1⟩

/-- Without a cycle some unresolved gap has all its dependencies resolved. -/
theorem first_isSome (hacyclic : Cycles.Acyclic (Edge missing)) {resolved : List String}
    (h : ∃ item ∈ missing, item.definitionId ∉ resolved) :
    (firstDependencyClosedGap missing (dependencyGraphForAudit missing) resolved).isSome = true := by
  obtain ⟨item, hitem, hopen⟩ := h
  obtain ⟨gap, hgap, hgapOpen, hclosed⟩ := Cycles.exists_closed hacyclic (missing.map (·.definitionId))
    (fun id => id ∉ resolved) ⟨item.definitionId, List.mem_map_of_mem hitem, hopen⟩
  obtain ⟨candidate, hcandidate, rfl⟩ := List.mem_map.mp hgap
  have hdependencies : ∀ id ∈ ((dependencyGraphForAudit missing).get? candidate.definitionId).getD [], id ∈ resolved := by
    intro id hid
    by_contra hidOpen
    exact hclosed id (mem_ids_of_edge hid) hidOpen hid
  rw [Option.isSome_iff_ne_none]
  intro hnone
  have hempty := least_eq_none.mp hnone
  rw [List.filter_eq_nil_iff] at hempty
  refine hempty candidate hcandidate (decide_eq_true ⟨hgapOpen, ?_⟩)
  rw [List.all_eq_true]
  exact fun id hid => decide_eq_true (hdependencies id hid)

/-- Each step resolves one more gap. -/
theorem resolveInTurn_all (hacyclic : Cycles.Acyclic (Edge missing)) (n : Nat) {resolved : List String}
    (h : (missing.filter fun item => item.definitionId ∉ resolved).length ≤ n) :
    ∀ item ∈ missing, item.definitionId ∈ resolveInTurn missing (dependencyGraphForAudit missing) n resolved := by
  induction n generalizing resolved with
  | zero =>
    intro item hitem
    have hnil := List.length_eq_zero_iff.mp (Nat.le_zero.mp h)
    rw [List.filter_eq_nil_iff] at hnil
    by_contra hopen
    exact hnil item hitem (decide_eq_true hopen)
  | succ n ih =>
    unfold resolveInTurn
    split
    · rename_i hnone
      intro item hitem
      by_contra hopen
      have hsome := first_isSome hacyclic ⟨item, hitem, hopen⟩
      rw [hnone] at hsome
      cases hsome
    · rename_i next hnext
      obtain ⟨hmem, hopen⟩ := first_spec hnext
      have hfilter : (missing.filter fun item => item.definitionId ∉ resolved ++ [next.definitionId]) =
          (missing.filter fun item => item.definitionId ∉ resolved).filter fun item =>
            item.definitionId ≠ next.definitionId := by
        rw [List.filter_filter]
        refine List.filter_congr fun item _ => ?_
        simp [and_comm]
      have hfewer : ((missing.filter fun item => item.definitionId ∉ resolved).filter fun item =>
          item.definitionId ≠ next.definitionId).length <
          (missing.filter fun item => item.definitionId ∉ resolved).length :=
        List.length_filter_lt_length_iff_exists.mpr
          ⟨next, List.mem_filter.mpr ⟨hmem, decide_eq_true hopen⟩, by simp⟩
      refine ih ?_
      rw [hfilter]
      omega

end Resolve

/-! ### Audits that can be resolved -/

/-- The graph is acyclic, a gap is returned as long as one is unresolved, and resolving the returned gaps resolves all. -/
structure NeverDeadlocks (missing : List MissingDefinition) : Prop where
  acyclic : Cycles.Acyclic (Edge missing)
  returns : ∀ resolved, (∃ item ∈ missing, item.definitionId ∉ resolved) →
    (firstDependencyClosedGap missing (dependencyGraphForAudit missing) resolved).isSome = true
  resolves : ∀ resolved, ∀ item ∈ missing,
    item.definitionId ∈ resolveInTurn missing (dependencyGraphForAudit missing) missing.length resolved

/-- A gap leads to one that a type adds: by shared symbols it leads to a gap whose type adds it. -/
abbrev LeadsTo (missing : List MissingDefinition) : String → String → Prop :=
  Cycles.Hop (Shares missing) (Requires missing)

theorem mem_targets_of_leadsTo {missing : List MissingDefinition} {gap other : String} (h : Relation.TransGen (LeadsTo missing) gap other) :
    other ∈ ["DEF_POLE_NEIGHBORHOOD", "DEF_FUNCTION_BINDING", "DEF_SEQUENCE_DENSITY"] := by
  obtain ⟨_, -, _, -, item, -, hadded, -⟩ := Relation.TransGen.tail'_iff.mp h
  unfold addedBy at hadded
  split at hadded
  all_goals cases hadded
  all_goals decide

/-- An audit never deadlocks exactly when no gap that a required type adds leads back to itself. -/
theorem audit_resolves_iff (missing : List MissingDefinition) :
    NeverDeadlocks missing ↔
      ∀ gap ∈ ["DEF_POLE_NEIGHBORHOOD", "DEF_FUNCTION_BINDING", "DEF_SEQUENCE_DENSITY"],
        ¬ Relation.TransGen (LeadsTo missing) gap gap := by
  have hedges : Cycles.Acyclic (Edge missing) ↔ Cycles.Acyclic (LeadsTo missing) := by
    have hedge : Edge missing = fun gap other => Shares missing gap other ∨ Requires missing gap other := by
      funext gap other
      exact propext edge_iff
    rw [hedge]
    exact Cycles.acyclic_iff shares_acyclic
  constructor
  · intro h gap _
    exact hedges.mp h.acyclic gap
  · intro h
    have hacyclic : Cycles.Acyclic (Edge missing) := by
      refine hedges.mpr fun gap hgap => h gap ?_ hgap
      exact mem_targets_of_leadsTo hgap
    refine ⟨hacyclic, fun resolved => first_isSome hacyclic, fun resolved => ?_⟩
    exact resolveInTurn_all hacyclic missing.length (List.length_filter_le _ _)

/-! ### A deadlock -/

/-- The convergence mode is listed before the function binding, with which it shares a symbol. -/
def convergenceFirst : List MissingDefinition :=
  [⟨"DEF_SERIES_CONVERGENCE", ["SYM_SEQUENCE"], "TYPE_CONVERGENCE_MODE"⟩,
    ⟨"DEF_FUNCTION_BINDING", ["SYM_FUNCTION", "SYM_SEQUENCE"], "TYPE_CANONICAL_PRODUCT_BINDING"⟩]

/-- The two gaps wait for each other. -/
theorem audit_deadlocks : Edge convergenceFirst "DEF_SERIES_CONVERGENCE" "DEF_FUNCTION_BINDING" ∧
    Edge convergenceFirst "DEF_FUNCTION_BINDING" "DEF_SERIES_CONVERGENCE" ∧
    firstDependencyClosedGap convergenceFirst (dependencyGraphForAudit convergenceFirst) [] = none ∧
    ¬ NeverDeadlocks convergenceFirst := by
  have hrequires : Edge convergenceFirst "DEF_SERIES_CONVERGENCE" "DEF_FUNCTION_BINDING" :=
    edge_iff.mpr (.inr ⟨_, rfl, rfl, by decide⟩)
  have hshares : Edge convergenceFirst "DEF_FUNCTION_BINDING" "DEF_SERIES_CONVERGENCE" := by
    have howns : Owns convergenceFirst "DEF_SERIES_CONVERGENCE" "SYM_SEQUENCE" := symbolOwner_iff.mp (by decide +kernel)
    exact edge_iff.mpr (.inl ⟨_, "SYM_SEQUENCE", rfl, by decide, howns, by decide, by decide⟩)
  have hacyclic : ¬ Cycles.Acyclic (Edge convergenceFirst) :=
    fun h => h _ ((Relation.TransGen.single hrequires).tail hshares)
  refine ⟨hrequires, hshares, ?_, fun h => hacyclic h.acyclic⟩
  decide +kernel

end Definitions

end KakeyaEngine
