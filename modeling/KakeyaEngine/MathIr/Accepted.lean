import KakeyaEngine.MathIr.Trees

/-!
# What validation accepts

An accepted IR has well-formed and distinct names, and a table of types that orders its nodes and reaches all of them from
the roots.  The levels that the search is given are always enough: no path without a repetition is longer than the list of
nodes.
-/

namespace KakeyaEngine

namespace MathIr

open Fallible
open Readable (text Legible AllLegible)

namespace MathIR

/-- The types of the binders. -/
def binderTypes (m : MathIR) : Dict String String := Dict.ofEntries (m.binders.map fun b => (b.binderId, b.typeId))

end MathIR

/-! ### The loops over binders and nodes -/

/-- The keys of items are new after one was added exactly when they were new before it and are not its key. -/
theorem fresh_set_iff {α ν : Type} (d : Dict String ν) (key : α → String) (v : ν) (good : α → Prop) (a : α) (as : List α) :
    (∀ x ∈ as, good x ∧ (d.set (key a) v).get? (key x) = none) ↔
      (∀ x ∈ as, good x ∧ d.get? (key x) = none) ∧ key a ∉ as.map key := by
  constructor
  · intro h
    refine ⟨fun x hx => ?_, fun hmem => ?_⟩
    · obtain ⟨hgood, hnone⟩ := h x hx
      rw [Dict.get?_set] at hnone
      split at hnone
      · cases hnone
      · exact ⟨hgood, hnone⟩
    · obtain ⟨x, hx, heq⟩ := List.mem_map.mp hmem
      have hnone := (h x hx).2
      rw [heq, Dict.get?_set_self] at hnone
      cases hnone
  · rintro ⟨h, hmem⟩ x hx
    have hne : key x ≠ key a := fun heq => hmem (List.mem_map.mpr ⟨x, hx, heq⟩)
    rw [Dict.get?_set_ne _ hne]
    exact h x hx

/-- A binder with a well-formed name and a registered type. -/
def GoodBinder (b : Binder) : Prop := isIdentifier b.binderId = true ∧ typeSpec? b.typeId ≠ none

theorem checkBinders_eq_ok {d d' : Dict String String} {bs : List Binder} :
    checkBinders d bs = .ok d' ↔ (∀ b ∈ bs, GoodBinder b ∧ d.get? b.binderId = none) ∧ (bs.map (·.binderId)).Nodup ∧
      d' = d.update (bs.map fun b => (b.binderId, b.typeId)) := by
  induction bs generalizing d with
  | nil =>
    constructor
    · intro h
      exact ⟨List.forall_mem_nil _, List.nodup_nil, (Except.ok.inj h).symm⟩
    · rintro ⟨-, -, rfl⟩
      rfl
  | cons b bs ih =>
    have hrest := ih (d := d.set b.binderId b.typeId)
    rw [fresh_set_iff d Binder.binderId b.typeId GoodBinder b bs] at hrest
    rw [List.map_cons, List.nodup_cons, List.forall_mem_cons,
      show (d.update ((b :: bs).map fun b => (b.binderId, b.typeId))) =
        (d.set b.binderId b.typeId).update (bs.map fun b => (b.binderId, b.typeId)) from rfl]
    unfold checkBinders
    by_cases hgood : GoodBinder b
    · rcases hget : d.get? b.binderId with _ | type
      · rw [if_neg (by simp [hgood.1]), if_neg (by simp [Dict.contains, hget]),
          if_neg (by simp [hgood.2]), hrest]
        tauto
      · rw [if_neg (by simp [hgood.1]), if_pos (by simp [Dict.contains, hget])]
        simp
    · constructor
      · intro h
        split at h
        · cases h
        · split at h
          · cases h
          · split at h
            · cases h
            · rename_i hid _ htype
              exact absurd ⟨by simpa using hid, by simpa using htype⟩ hgood
      · intro h
        exact absurd h.1.1.1 hgood

theorem checkNodes_eq_ok {d d' : Dict String ExprNode} {ns : List ExprNode} :
    checkNodes d ns = .ok d' ↔ (∀ n ∈ ns, isIdentifier n.nodeId = true ∧ d.get? n.nodeId = none) ∧
      (ns.map (·.nodeId)).Nodup ∧ d' = d.update (ns.map fun n => (n.nodeId, n)) := by
  induction ns generalizing d with
  | nil =>
    constructor
    · intro h
      exact ⟨List.forall_mem_nil _, List.nodup_nil, (Except.ok.inj h).symm⟩
    · rintro ⟨-, -, rfl⟩
      rfl
  | cons n ns ih =>
    have hrest := ih (d := d.set n.nodeId n)
    rw [fresh_set_iff d ExprNode.nodeId n (fun n => isIdentifier n.nodeId = true) n ns] at hrest
    rw [List.map_cons, List.nodup_cons, List.forall_mem_cons,
      show (d.update ((n :: ns).map fun n => (n.nodeId, n))) =
        (d.set n.nodeId n).update (ns.map fun n => (n.nodeId, n)) from rfl]
    unfold checkNodes
    by_cases hgood : isIdentifier n.nodeId = true ∧ d.get? n.nodeId = none
    · rw [if_neg (by simp [hgood.1, Dict.contains, hgood.2]), hrest]
      tauto
    · rw [if_pos (by
        rw [not_and, ← ne_eq, ← Option.isSome_iff_ne_none] at hgood
        by_cases hid : isIdentifier n.nodeId = true
        · simp [Dict.contains, hgood hid]
        · simp [hid])]
      constructor
      · intro h
        cases h
      · intro h
        exact absurd h.1.1 hgood

/-! ### Acceptance -/

theorem validate_eq_ok {m : MathIR} {v : ValidatedMathIR} : validateMathIr m = .ok v ↔
    m.schemaVersion = mathIrVersion ∧ m.registryVersion = registryVersion ∧ isIdentifier m.theoremId = true ∧
      checkBinders Dict.empty m.binders = .ok m.binderTypes ∧ checkNodes Dict.empty m.nodes = .ok m.nodeMap ∧
      m.conclusion ≠ "" ∧
      ∃ nodeTypes, checkRoots (infer m.binderTypes m.nodeMap m.levels []) Dict.empty m.roots = .ok nodeTypes ∧
        m.nodeMap.keys.filter (fun id => !nodeTypes.contains id) = [] ∧
        v = ⟨m, nodeTypes, LeanGate.hexdigest (canonicalIr m)⟩ := by
  unfold validateMathIr
  constructor
  · intro h
    split at h
    · cases h
    · rename_i hschema
      split at h
      · cases h
      · rename_i hregistry
        split at h
        · cases h
        · rename_i hid
          obtain ⟨binderTypes, hbinders, h⟩ := bind_eq_ok.mp h
          obtain ⟨nodeMap, hnodes, h⟩ := bind_eq_ok.mp h
          obtain rfl : binderTypes = m.binderTypes := (checkBinders_eq_ok.mp hbinders).2.2
          obtain rfl : nodeMap = m.nodeMap := (checkNodes_eq_ok.mp hnodes).2.2
          split at h
          · cases h
          · rename_i hconclusion
            obtain ⟨nodeTypes, hroots, h⟩ := bind_eq_ok.mp h
            dsimp only at h
            split at h
            · cases h
            · rename_i hreached
              exact ⟨not_not.mp hschema, not_not.mp hregistry, by simpa using hid, hbinders, hnodes, hconclusion, nodeTypes,
                hroots, not_not.mp hreached, (Except.ok.inj h).symm⟩
  · rintro ⟨hschema, hregistry, hid, hbinders, hnodes, hconclusion, nodeTypes, hroots, hreached, rfl⟩
    rw [if_neg fun h => h hschema, if_neg fun h => h hregistry, if_neg (by simp [hid]), hbinders, hnodes]
    refine bind_eq_ok.mpr ⟨_, rfl, bind_eq_ok.mpr ⟨_, rfl, ?_⟩⟩
    rw [if_neg hconclusion, hroots]
    refine bind_eq_ok.mpr ⟨_, rfl, ?_⟩
    dsimp only
    rw [if_neg fun h => h hreached]

/-- What validation has checked. -/
structure Accepted (m : MathIR) (nodeTypes : NodeTypes) : Prop where
  theoremId : isIdentifier m.theoremId = true
  binders : ∀ b ∈ m.binders, GoodBinder b
  distinctBinders : (m.binders.map (·.binderId)).Nodup
  nodeIds : ∀ n ∈ m.nodes, isIdentifier n.nodeId = true
  distinctNodes : (m.nodes.map (·.nodeId)).Nodup
  ordered : Ordered m.binderTypes m.nodeMap nodeTypes
  roots : ∀ root ∈ m.roots, nodeTypes.get? root = some "Prop"
  -- every node has a type, and was reached from a root
  typed : ∀ n ∈ m.nodes, ∃ type, nodeTypes.get? n.nodeId = some type
  reached : ∀ n ∈ m.nodes, ∃ root ∈ m.roots, Reaches m.nodeMap root n.nodeId

theorem nodeMap_entries {m : MathIR} (h : (m.nodes.map (·.nodeId)).Nodup) :
    m.nodeMap.entries = m.nodes.map fun n => (n.nodeId, n) := by
  unfold MathIR.nodeMap
  refine Dict.entries_ofEntries ?_
  rw [List.map_map]
  exact h

theorem nodeMap_get? {m : MathIR} (h : (m.nodes.map (·.nodeId)).Nodup) {id : String} {n : ExprNode} :
    m.nodeMap.get? id = some n ↔ n ∈ m.nodes ∧ n.nodeId = id := by
  rw [← Dict.mem_entries_iff, nodeMap_entries h, List.mem_map]
  constructor
  · rintro ⟨n', hn', heq⟩
    obtain ⟨rfl, rfl⟩ := Prod.mk.inj heq
    exact ⟨hn', rfl⟩
  · rintro ⟨hn, rfl⟩
    exact ⟨n, hn, rfl⟩

theorem binderTypes_get? {m : MathIR} (h : (m.binders.map (·.binderId)).Nodup) {id type : String} :
    m.binderTypes.get? id = some type ↔ ⟨id, type⟩ ∈ m.binders := by
  have hentries : m.binderTypes.entries = m.binders.map fun b => (b.binderId, b.typeId) := by
    refine Dict.entries_ofEntries ?_
    rw [List.map_map]
    exact h
  rw [← Dict.mem_entries_iff, hentries, List.mem_map]
  constructor
  · rintro ⟨b, hb, heq⟩
    obtain ⟨rfl, rfl⟩ := Prod.mk.inj heq
    exact hb
  · intro hb
    exact ⟨_, hb, rfl⟩

theorem accepted_of_validate {m : MathIR} {v : ValidatedMathIR} (h : validateMathIr m = .ok v) :
    Accepted m v.nodeTypes := by
  obtain ⟨-, -, hid, hbinders, hnodes, -, nodeTypes, hroots, hreached, rfl⟩ := validate_eq_ok.mp h
  obtain ⟨hgood, hdistinct, -⟩ := checkBinders_eq_ok.mp hbinders
  obtain ⟨hnodeIds, hdistinctNodes, -⟩ := checkNodes_eq_ok.mp hnodes
  obtain ⟨hgrown, hprop⟩ := checkRoots_spec .empty hroots
  have htyped : ∀ n ∈ m.nodes, ∃ type, nodeTypes.get? n.nodeId = some type := by
    intro n hn
    have hkey : n.nodeId ∈ m.nodeMap.keys := Dict.mem_keys_iff.mpr ⟨n, (nodeMap_get? hdistinctNodes).mpr ⟨hn, rfl⟩⟩
    rw [List.filter_eq_nil_iff] at hreached
    have hcontains := hreached n.nodeId hkey
    rw [Bool.not_eq_true, Bool.not_eq_false', Dict.contains_iff] at hcontains
    exact hcontains
  refine ⟨hid, fun b hb => (hgood b hb).1, hdistinct, fun n hn => (hnodeIds n hn).1, hdistinctNodes, hgrown.ordered, hprop,
    htyped, fun n hn => ?_⟩
  obtain ⟨type, hfound⟩ := htyped n hn
  rcases hgrown.reached n.nodeId type hfound with hold | hstart
  · cases hold
  · exact hstart

/-! ### Levels -/

/-- The search does not run out of levels. -/
def Enough (child : NodeTypes → String → Except TypedIRError (String × NodeTypes)) : Prop :=
  ∀ nodeTypes id, child nodeTypes id ≠ .error outOfLevels

/-- The errors of validation have a code. -/
theorem ne_outOfLevels {α : Type} {code message nodeId owner : String} {status : GateStatus} (hcode : code ≠ "") :
    (.error ⟨code, message, nodeId, owner, status⟩ : Except TypedIRError α) ≠ .error outOfLevels := by
  intro h
  exact hcode (congrArg TypedIRError.code (Except.error.inj h))

theorem inferAll_enough {child : NodeTypes → String → Except TypedIRError (String × NodeTypes)} (hchild : Enough child)
    (nodeTypes : NodeTypes) (ids : List String) : inferAll child nodeTypes ids ≠ .error outOfLevels := by
  induction ids generalizing nodeTypes with
  | nil =>
    intro h
    cases h
  | cons id ids ih =>
    intro h
    unfold inferAll at h
    rcases bind_eq_error.mp h with hfirst | ⟨first, -, h⟩
    · exact hchild nodeTypes id hfirst
    · rcases bind_eq_error.mp h with hrest | ⟨rest, -, h⟩
      · exact ih first.2 hrest
      · cases h

theorem inferNode_enough {child : NodeTypes → String → Except TypedIRError (String × NodeTypes)} (hchild : Enough child)
    (binderTypes : Dict String String) (nodeTypes : NodeTypes) (node : ExprNode) :
    inferNode binderTypes child nodeTypes node ≠ .error outOfLevels := by
  intro h
  unfold inferNode backjump at h
  split at h
  · split at h
    · exact ne_outOfLevels (by decide) h
    · cases h
  · split at h
    · split at h
      · exact ne_outOfLevels (by decide) h
      · rcases bind_eq_error.mp h with hall | ⟨actual, -, h⟩
        · exact inferAll_enough hchild _ _ hall
        · split at h
          · exact ne_outOfLevels (by decide) h
          · cases h
    · split at h
      · split at h
        · exact ne_outOfLevels (by decide) h
        · split at h
          · exact ne_outOfLevels (by decide) h
          · rcases bind_eq_error.mp h with hall | ⟨actual, -, h⟩
            · exact inferAll_enough hchild _ _ hall
            · split at h
              · exact ne_outOfLevels (by decide) h
              · cases h
      · exact ne_outOfLevels (by decide) h

/-- A path that does not repeat a node is no longer than the list of nodes, so the search never runs out of levels. -/
theorem infer_enough (binderTypes : Dict String String) (nodeMap : Dict String ExprNode) (levels : Nat)
    (visiting : List String) (hdistinct : visiting.Nodup) (hnodes : visiting ⊆ nodeMap.keys)
    (hlevels : nodeMap.size < levels + visiting.length) : Enough (infer binderTypes nodeMap levels visiting) := by
  induction levels generalizing visiting with
  | zero =>
    have hshort : visiting.length ≤ nodeMap.keys.length := (List.subperm_of_subset hdistinct hnodes).length_le
    unfold Dict.keys at hshort
    rw [List.length_map] at hshort
    unfold Dict.size at hlevels
    omega
  | succ levels ih =>
    intro nodeTypes id h
    unfold infer at h
    split at h
    · cases h
    · split at h
      · exact ne_outOfLevels (by decide) h
      · rename_i hvisiting
        split at h
        · exact ne_outOfLevels (by decide) h
        · rename_i node hnode
          have hkeys : id :: visiting ⊆ nodeMap.keys :=
            List.cons_subset.mpr ⟨Dict.mem_keys_iff.mpr ⟨node, hnode⟩, hnodes⟩
          have hinner := inferNode_enough
            (ih (id :: visiting) (List.nodup_cons.mpr ⟨hvisiting, hdistinct⟩) hkeys (by rw [List.length_cons]; omega))
            binderTypes nodeTypes node
          rcases bind_eq_error.mp h with hresult | ⟨result, -, h⟩
          · exact hinner hresult
          · cases h

theorem checkBinders_enough (d : Dict String String) (bs : List Binder) : checkBinders d bs ≠ .error outOfLevels := by
  induction bs generalizing d with
  | nil =>
    intro h
    cases h
  | cons b bs ih =>
    intro h
    unfold checkBinders backjump at h
    split at h
    · exact ne_outOfLevels (by decide) h
    · split at h
      · exact ne_outOfLevels (by decide) h
      · split at h
        · exact ne_outOfLevels (by decide) h
        · exact ih _ h

theorem checkNodes_enough (d : Dict String ExprNode) (ns : List ExprNode) : checkNodes d ns ≠ .error outOfLevels := by
  induction ns generalizing d with
  | nil =>
    intro h
    cases h
  | cons n ns ih =>
    intro h
    unfold checkNodes at h
    split at h
    · exact ne_outOfLevels (by decide) h
    · exact ih _ h

theorem checkRoots_enough {child : NodeTypes → String → Except TypedIRError (String × NodeTypes)} (hchild : Enough child)
    (nodeTypes : NodeTypes) (roots : List String) : checkRoots child nodeTypes roots ≠ .error outOfLevels := by
  induction roots generalizing nodeTypes with
  | nil =>
    intro h
    cases h
  | cons root roots ih =>
    intro h
    unfold checkRoots backjump at h
    rcases bind_eq_error.mp h with hroot | ⟨result, -, h⟩
    · exact hchild nodeTypes root hroot
    · split at h
      · exact ne_outOfLevels (by decide) h
      · exact ih _ h

namespace Accepted

variable {m : MathIR} {nodeTypes : NodeTypes}

theorem size_le (h : Accepted m nodeTypes) : nodeTypes.size ≤ m.levels := by
  have hkeys : nodeTypes.keys ⊆ m.nodeMap.keys := by
    have hordered := h.ordered
    clear h
    induction hordered with
    | empty => exact List.nil_subset _
    | @add nodeTypes node nodeId type hordered hnew hnode htype ih =>
      intro id hid
      obtain ⟨type', hfound⟩ := Dict.mem_keys_iff.mp hid
      rw [Dict.get?_set] at hfound
      split at hfound
      · rename_i heq
        subst heq
        exact Dict.mem_keys_iff.mpr ⟨node, hnode⟩
      · exact ih (Dict.mem_keys_iff.mpr ⟨type', hfound⟩)
  have hlength := (List.subperm_of_subset nodeTypes.nodup hkeys).length_le
  unfold Dict.keys at hlength
  rw [List.length_map, nodeMap_entries h.distinctNodes, List.length_map, List.length_map] at hlength
  unfold MathIR.levels Dict.size
  omega

/-- The roots unfold to propositions. -/
theorem trees (h : Accepted m nodeTypes) :
    ∃ ts, m.roots.mapM (unfold m.nodeMap m.levels) = some ts ∧
      HasTypes m.binderTypes ts (m.roots.map fun _ => "Prop") ∧
      m.roots.mapM (renderExpr m.nodeMap m.levels) = some (ts.map fun t => text (shape t)) := by
  refine arguments_of_table (h.ordered.tree m.levels h.size_le) ?_
  rw [List.map_map]
  exact List.map_congr_left h.roots

end Accepted

/-- The text of a type. -/
def typeName (typeId : String) : List Char := ((typeSpec? typeId).map (·.leanName.toList)).getD []

/-- The text of the binders, each after a blank. -/
def binderList : List Binder → List Char
  | [] => []
  | b :: bs => ' ' :: '(' :: (b.binderId.toList ++ ' ' :: ':' :: ' ' :: (typeName b.typeId ++ ')' :: binderList bs))

/-- The text of the roots. -/
def rootList : List (List Char) → List Char
  | [] => []
  | [t] => '(' :: (t ++ [')'])
  | t :: ts => '(' :: (t ++ ')' :: ' ' :: '→' :: ' ' :: rootList ts)

theorem rootList_eq (ts : List (List Char)) :
    List.intercalate " → ".toList (ts.map fun item => '(' :: (item ++ [')'])) = rootList ts := by
  induction ts with
  | nil => rfl
  | cons t ts ih =>
    cases ts with
    | nil => simp [rootList]
    | cons t' ts =>
      rw [List.map_cons] at ih ⊢
      rw [List.map_cons, List.intercalate_cons_cons, ih]
      simp [rootList]

theorem binderText_eq {b : Binder} (h : typeSpec? b.typeId ≠ none) :
    binderText b = some ('(' :: (b.binderId.toList ++ ' ' :: ':' :: ' ' :: (typeName b.typeId ++ [')']))) := by
  obtain ⟨spec, hspec⟩ := Option.ne_none_iff_exists'.mp h
  unfold binderText typeName
  rw [hspec]
  simp

theorem blank_intercalate (t : List Char) (ts : List (List Char)) :
    ' ' :: List.intercalate [' '] (t :: ts) = (t :: ts).flatMap fun t => ' ' :: t := by
  induction ts generalizing t with
  | nil => simp
  | cons t' ts ih =>
    rw [List.intercalate_cons_cons, List.flatMap_cons, ← ih]
    simp

/-- `(id : type)` of a binder with a registered type. -/
def binderBlock (b : Binder) : List Char :=
  '(' :: (b.binderId.toList ++ ' ' :: ':' :: ' ' :: (typeName b.typeId ++ [')']))

theorem binderList_eq (bs : List Binder) : binderList bs = (bs.map binderBlock).flatMap fun t => ' ' :: t := by
  induction bs with
  | nil => rfl
  | cons b bs ih =>
    rw [binderList, ih]
    simp [binderBlock]

theorem bindersText_eq {m : MathIR} (h : ∀ b ∈ m.binders, GoodBinder b) :
    ∃ text, bindersText m = some text ∧ (if text ≠ [] then ' ' :: text else []) = binderList m.binders := by
  have htexts : m.binders.mapM binderText = some (m.binders.map binderBlock) := by
    generalize m.binders = bs at h
    induction bs with
    | nil => rfl
    | cons b bs ih =>
      rw [List.forall_mem_cons] at h
      rw [List.mapM_cons, binderText_eq h.1.2, ih h.2]
      rfl
  unfold bindersText
  rw [htexts, binderList_eq]
  refine ⟨_, rfl, ?_⟩
  rcases m.binders with _ | ⟨b, bs⟩
  · rfl
  · have hnonempty : List.intercalate [' '] ((b :: bs).map binderBlock) ≠ [] := by
      cases bs with
      | nil => simp [binderBlock]
      | cons b' bs => simp [binderBlock, List.intercalate_cons_cons]
    rw [if_pos hnonempty, List.map_cons, blank_intercalate]

/-- The declaration of an accepted IR, from the trees of its roots. -/
theorem Accepted.declarationCore {m : MathIR} {nodeTypes : NodeTypes} (h : Accepted m nodeTypes) :
    ∃ ts, m.roots.mapM (unfold m.nodeMap m.levels) = some ts ∧
      HasTypes m.binderTypes ts (m.roots.map fun _ => "Prop") ∧
      propositionText m = some (rootList (ts.map fun t => text (shape t))) ∧
      MathIr.declarationCore m = some ("theorem ".toList ++ m.theoremId.toList ++ (binderList m.binders ++
        ' ' :: ':' :: ' ' :: rootList (ts.map fun t => text (shape t)))) := by
  obtain ⟨ts, hunfold, htypes, hrender⟩ := h.trees
  obtain ⟨binders, hbinders, hlist⟩ := bindersText_eq h.binders
  have hproposition : propositionText m = some (rootList (ts.map fun t => text (shape t))) := by
    unfold propositionText
    rw [hrender]
    simp only [Option.bind_eq_bind, Option.bind_some, rootList_eq]
  refine ⟨ts, hunfold, htypes, hproposition, ?_⟩
  unfold MathIr.declarationCore
  rw [hbinders, hproposition]
  simp only [Option.bind_eq_bind, Option.bind_some, hlist]
  simp

end MathIr

end KakeyaEngine
