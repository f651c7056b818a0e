import KakeyaEngine.MathIr.Accepted

/-!
# Validation against a declarative typing

An IR is well formed when its names are well formed and distinct, all of its nodes are reached from the roots without a
cycle, and some assignment of types to the nodes agrees with the registries at each of them and makes the roots
propositions.  Validation accepts exactly the well-formed IRs, its table is the only assignment there is, and every node has
a text (`validate_exact`).
-/

namespace KakeyaEngine

namespace MathIr

open Relation
open Fallible

/-! ### The declarative typing -/

/-- The first node has the second one as an argument. -/
def Argument (m : MathIR) (id argument : String) : Prop := ∃ node ∈ m.nodes, node.nodeId = id ∧ argument ∈ node.arguments

/-- A premise or the conclusion leads to the node. -/
def Reachable (m : MathIR) (id : String) : Prop := ∃ root ∈ m.roots, ReflTransGen (Argument m) root id

/-- The type of the node is the one that its binder or its registered reference gives, for the types of its arguments. -/
inductive WellTyped (m : MathIR) (types : String → String) (node : ExprNode) : Prop
  | var (hkind : node.kind = "var") (hleaf : node.arguments = []) (hbinder : ⟨node.ref, types node.nodeId⟩ ∈ m.binders)
  | symbol (hkind : node.kind = "symbol") (spec : SymbolSpec) (hspec : symbolSpec? node.ref = some spec)
      (harguments : node.arguments.map types = spec.argumentTypes) (hresult : types node.nodeId = spec.resultType)
  | operator (hkind : node.kind = "operator") (spec : OperatorSpec) (hspec : operatorSpec? node.ref = some spec)
      (harguments : node.arguments.map types = spec.argumentTypes) (hresult : types node.nodeId = spec.resultType)

/-- Every node that is reached is listed and well typed. -/
def Typing (m : MathIR) (types : String → String) : Prop :=
  ∀ id, Reachable m id → ∃ node ∈ m.nodes, node.nodeId = id ∧ WellTyped m types node

structure WellFormed (m : MathIR) : Prop where
  theoremId : isIdentifier m.theoremId = true
  binderIds : ∀ b ∈ m.binders, isIdentifier b.binderId = true
  distinctBinders : (m.binders.map (·.binderId)).Nodup
  binderTypes : ∀ b ∈ m.binders, ∃ spec, typeSpec? b.typeId = some spec
  nodeIds : ∀ n ∈ m.nodes, isIdentifier n.nodeId = true
  distinctNodes : (m.nodes.map (·.nodeId)).Nodup
  acyclic : ∀ id, Reachable m id → ¬ TransGen (Argument m) id id
  typed : ∃ types, Typing m types ∧ ∀ root ∈ m.roots, types root = "Prop"
  reached : ∀ n ∈ m.nodes, Reachable m n.nodeId

variable {m : MathIR}

theorem argument_iff (h : (m.nodes.map (·.nodeId)).Nodup) (id argument : String) :
    Argument m id argument ↔ ∃ node, m.nodeMap.get? id = some node ∧ argument ∈ node.arguments := by
  constructor
  · rintro ⟨node, hnode, hid, hmem⟩
    exact ⟨node, (nodeMap_get? h).mpr ⟨hnode, hid⟩, hmem⟩
  · rintro ⟨node, hget, hmem⟩
    obtain ⟨hnode, hid⟩ := (nodeMap_get? h).mp hget
    exact ⟨node, hnode, hid, hmem⟩

theorem reaches_iff (h : (m.nodes.map (·.nodeId)).Nodup) (id id' : String) :
    Reaches m.nodeMap id id' ↔ ReflTransGen (Argument m) id id' := by
  have heq : (fun a b => ∃ node, m.nodeMap.get? a = some node ∧ b ∈ node.arguments) = Argument m := by
    funext a b
    exact propext (argument_iff h a b).symm
  unfold Reaches
  rw [heq]

theorem Reachable.argument {id argument : String} (h : Reachable m id) (harg : Argument m id argument) :
    Reachable m argument := by
  obtain ⟨root, hroot, hreach⟩ := h
  exact ⟨root, hroot, hreach.tail harg⟩

theorem reachable_root {root : String} (h : root ∈ m.roots) : Reachable m root := ⟨root, h, .refl⟩

/-! ### Searches that agree with a typing -/

/-- The types that were found are those of the typing. -/
def Agrees (types : String → String) (nodeTypes : NodeTypes) : Prop :=
  ∀ id type, nodeTypes.get? id = some type → type = types id

theorem Agrees.set {types : String → String} {nodeTypes : NodeTypes} (h : Agrees types nodeTypes) (id : String) :
    Agrees types (nodeTypes.set id (types id)) := by
  intro id' type hget
  rw [Dict.get?_set] at hget
  split at hget
  · rename_i heq
    rw [heq]
    exact (Option.some.inj hget).symm
  · exact h id' type hget

/-- A search ends with what the typing says, or without levels. -/
def Answers {α : Type} (types : String → String) (answer : α) (x : Except TypedIRError (α × NodeTypes)) : Prop :=
  (∀ e, x = .error e → e = outOfLevels) ∧
    ∀ answer' after, x = .ok (answer', after) → answer' = answer ∧ Agrees types after

/-- A search answers for the nodes with a property. -/
def Faithful (types : String → String) (p : String → Prop)
    (child : NodeTypes → String → Except TypedIRError (String × NodeTypes)) : Prop :=
  ∀ before id, Agrees types before → p id → Answers types (types id) (child before id)

theorem Answers.bind {α β : Type} {types : String → String} {a : α} {b : β} {x : Except TypedIRError (α × NodeTypes)}
    {f : α × NodeTypes → Except TypedIRError (β × NodeTypes)} (hx : Answers types a x)
    (hf : ∀ after, Agrees types after → Answers types b (f (a, after))) : Answers types b (x >>= f) := by
  refine ⟨fun e h => ?_, fun answer after h => ?_⟩
  · rcases bind_eq_error.mp h with h | ⟨⟨a', after⟩, hok, h⟩
    · exact hx.1 e h
    · obtain ⟨rfl, hagrees⟩ := hx.2 a' after hok
      exact (hf after hagrees).1 e h
  · obtain ⟨⟨a', middle⟩, hok, h⟩ := bind_eq_ok.mp h
    obtain ⟨rfl, hagrees⟩ := hx.2 a' middle hok
    exact (hf middle hagrees).2 answer after h

theorem Answers.ok {α : Type} {types : String → String} (a : α) {after : NodeTypes} (h : Agrees types after) :
    Answers types a (.ok (a, after)) := by
  refine ⟨fun e herror => (by cases herror), fun a' after' hok => ?_⟩
  obtain ⟨rfl, rfl⟩ := Prod.mk.inj (Except.ok.inj hok)
  exact ⟨rfl, h⟩

theorem inferAll_answers {types : String → String} {p : String → Prop}
    {child : NodeTypes → String → Except TypedIRError (String × NodeTypes)} (hchild : Faithful types p child)
    {before : NodeTypes} (hbefore : Agrees types before) {ids : List String} (hids : ∀ id ∈ ids, p id) :
    Answers types (ids.map types) (inferAll child before ids) := by
  induction ids generalizing before with
  | nil => exact .ok [] hbefore
  | cons id ids ih =>
    rw [List.forall_mem_cons] at hids
    unfold inferAll
    refine (hchild before id hbefore hids.1).bind fun middle hmiddle => ?_
    refine (ih hmiddle hids.2).bind fun after hafter => ?_
    exact .ok _ hafter

/-- A well-typed node gets its type. -/
theorem inferNode_answers {types : String → String} {p : String → Prop}
    {child : NodeTypes → String → Except TypedIRError (String × NodeTypes)} (hchild : Faithful types p child)
    {before : NodeTypes} (hbefore : Agrees types before) {node : ExprNode} (hbinders : (m.binders.map (·.binderId)).Nodup)
    (hnode : WellTyped m types node) (harguments : ∀ id ∈ node.arguments, p id) :
    Answers types (types node.nodeId) (inferNode m.binderTypes child before node) := by
  have hall := inferAll_answers hchild hbefore harguments
  unfold inferNode
  cases hnode with
  | var hkind hleaf hbinder =>
    rw [if_pos hkind, if_pos hleaf, (binderTypes_get? hbinders).mpr hbinder]
    exact .ok _ hbefore
  | symbol hkind spec hspec htypes hresult =>
    have hvar : ¬ node.kind = "var" := by rw [hkind]; decide
    rw [if_neg hvar, if_pos hkind, hspec]
    refine hall.bind fun after hafter => ?_
    rw [if_neg (fun hne => hne htypes), hresult]
    exact .ok _ hafter
  | operator hkind spec hspec htypes hresult =>
    have hvar : ¬ node.kind = "var" := by rw [hkind]; decide
    have hsymbol : ¬ node.kind = "symbol" := by rw [hkind]; decide
    have harity : node.arguments.length = spec.arity := by
      have hlength := congrArg List.length htypes
      rw [List.length_map] at hlength
      rcases operator_arity hspec with ⟨hone, htypesLength⟩ | ⟨htwo, htypesLength⟩ <;> omega
    rw [if_neg hvar, if_neg hsymbol, if_pos hkind, hspec]
    dsimp only
    rw [if_neg (fun hne => hne harity)]
    refine hall.bind fun after hafter => ?_
    rw [if_neg (fun hne => hne htypes), hresult]
    exact .ok _ hafter

/-- Below nodes that are being visited a search of a well-formed IR answers: it meets neither a cycle nor an unknown node. -/
theorem infer_faithful (h : WellFormed m) {types : String → String} (htyping : Typing m types) (levels : Nat)
    (visiting : List String) :
    Faithful types (fun id => Reachable m id ∧ ∀ v ∈ visiting, TransGen (Argument m) v id)
      (infer m.binderTypes m.nodeMap levels visiting) := by
  induction levels generalizing visiting with
  | zero =>
    intro before id _ _
    refine ⟨fun e herror => (Except.error.inj herror).symm, fun answer after hok => ?_⟩
    cases hok
  | succ levels ih =>
    rintro before id hbefore ⟨hreach, hvisiting⟩
    unfold infer
    rcases hknown : before.get? id with _ | type
    · have hnew : id ∉ visiting := fun hmem => h.acyclic id hreach (hvisiting id hmem)
      obtain ⟨node, hnode, hid, htyped⟩ := htyping id hreach
      have hget : m.nodeMap.get? id = some node := (nodeMap_get? h.distinctNodes).mpr ⟨hnode, hid⟩
      dsimp only
      rw [if_neg hnew, hget]
      have harguments : ∀ argument ∈ node.arguments,
          Reachable m argument ∧ ∀ v ∈ id :: visiting, TransGen (Argument m) v argument := by
        intro argument hmem
        have hedge : Argument m id argument := ⟨node, hnode, hid, hmem⟩
        refine ⟨hreach.argument hedge, fun v hv => ?_⟩
        rcases List.mem_cons.mp hv with rfl | hv
        · exact .single hedge
        · exact (hvisiting v hv).tail hedge
      have hinner := inferNode_answers (ih (id :: visiting)) hbefore h.distinctBinders htyped harguments
      rw [hid] at hinner
      refine hinner.bind fun after hafter => ?_
      exact .ok _ (hafter.set id)
    · dsimp only
      rw [hbefore id type hknown]
      exact .ok _ hbefore

theorem checkRoots_agrees {types : String → String} {p : String → Prop}
    {child : NodeTypes → String → Except TypedIRError (String × NodeTypes)} (hchild : Faithful types p child)
    (henough : Enough child) {before : NodeTypes} (hbefore : Agrees types before) {roots : List String}
    (hroots : ∀ root ∈ roots, p root ∧ types root = "Prop") : ∃ after, checkRoots child before roots = .ok after := by
  induction roots generalizing before with
  | nil => exact ⟨before, rfl⟩
  | cons root roots ih =>
    rw [List.forall_mem_cons] at hroots
    obtain ⟨herror, hok⟩ := hchild before root hbefore hroots.1.1
    unfold checkRoots
    cases hx : child before root with
    | error e => exact absurd (by rw [hx, herror e hx]) (henough before root)
    | ok answer =>
      obtain ⟨htype, hagrees⟩ := hok answer.1 answer.2 hx
      obtain ⟨after, hafter⟩ := ih hagrees hroots.2
      refine ⟨after, ?_⟩
      refine bind_eq_ok.mpr ⟨answer, rfl, ?_⟩
      rw [if_neg (fun hne => hne (htype.trans hroots.1.2)), hafter]

/-! ### The table as a typing -/

variable {binderTypes : Dict String String} {nodeMap : Dict String ExprNode} {nodeTypes : NodeTypes}

theorem NodeType.arguments {node : ExprNode} {type : String} (h : NodeType binderTypes nodeTypes node type) :
    ∀ argument ∈ node.arguments, argument ∈ nodeTypes.keys := by
  have hmap : ∀ {types : List String}, node.arguments.map nodeTypes.get? = types.map some →
      ∀ argument ∈ node.arguments, argument ∈ nodeTypes.keys := by
    intro types heq argument hmem
    have hget : nodeTypes.get? argument ∈ types.map some := heq ▸ List.mem_map_of_mem hmem
    obtain ⟨type, -, hsome⟩ := List.mem_map.mp hget
    exact Dict.mem_keys_iff.mpr ⟨type, hsome.symm⟩
  rcases h with ⟨-, hleaf, -⟩ | ⟨-, _, -, harguments, -⟩ | ⟨-, _, -, -, harguments, -⟩
  · rw [hleaf]
    exact List.forall_mem_nil _
  · exact hmap harguments
  · exact hmap harguments

/-- The arguments of a node are earlier in the table. -/
theorem Ordered.earlier (h : Ordered binderTypes nodeMap nodeTypes) {id argument : String} {node : ExprNode}
    (hid : id ∈ nodeTypes.keys) (hnode : nodeMap.get? id = some node) (hmem : argument ∈ node.arguments) :
    argument ∈ nodeTypes.keys ∧ nodeTypes.keys.idxOf argument < nodeTypes.keys.idxOf id := by
  induction h with
  | empty => cases hid
  | @add nodeTypes node' nodeId type _ hnew hnode' htype ih =>
    have hfresh : nodeId ∉ nodeTypes.keys := Dict.not_mem_keys_iff.mpr hnew
    have hkeys : (nodeTypes.set nodeId type).keys = nodeTypes.keys ++ [nodeId] := by
      unfold Dict.keys
      rw [Dict.entries_set_new type hfresh, List.map_append]
      rfl
    rw [hkeys] at hid ⊢
    rcases List.mem_append.mp hid with hold | hlast
    · obtain ⟨hargument, hlt⟩ := ih hold
      rw [List.idxOf_append_of_mem hargument, List.idxOf_append_of_mem hold]
      exact ⟨List.mem_append_left _ hargument, hlt⟩
    · obtain rfl := List.mem_singleton.mp hlast
      obtain rfl : node = node' := Option.some.inj (hnode.symm.trans hnode')
      have hargument := htype.arguments argument hmem
      refine ⟨List.mem_append_left _ hargument, ?_⟩
      rw [List.idxOf_append_of_mem hargument, List.idxOf_append_of_notMem hfresh]
      have hlt := List.idxOf_lt_length_of_mem hargument
      omega

/-- The types of a table. -/
def recorded (nodeTypes : NodeTypes) (id : String) : String := (nodeTypes.get? id).getD ""

theorem recorded_map {ids types : List String} (h : ids.map nodeTypes.get? = types.map some) :
    ids.map (recorded nodeTypes) = types := by
  have hget := congrArg (List.map fun type : Option String => type.getD "") h
  rw [List.map_map, List.map_map] at hget
  exact hget.trans (List.map_id types)

theorem NodeType.wellTyped {node : ExprNode} {type : String} (hbinders : (m.binders.map (·.binderId)).Nodup)
    (hget : nodeTypes.get? node.nodeId = some type) (h : NodeType m.binderTypes nodeTypes node type) :
    WellTyped m (recorded nodeTypes) node := by
  have htype : recorded nodeTypes node.nodeId = type := by
    unfold recorded
    rw [hget]
    rfl
  rcases h with ⟨hkind, hleaf, hbinder⟩ | ⟨hkind, spec, hspec, harguments, hresult⟩ |
    ⟨hkind, spec, hspec, -, harguments, hresult⟩
  · refine .var hkind hleaf ?_
    rw [htype]
    exact (binderTypes_get? hbinders).mp hbinder
  · exact .symbol hkind spec hspec (recorded_map harguments) (htype.trans hresult.symm)
  · exact .operator hkind spec hspec (recorded_map harguments) (htype.trans hresult.symm)

theorem Ordered.argument (h : Ordered m.binderTypes m.nodeMap nodeTypes) (hnodes : (m.nodes.map (·.nodeId)).Nodup)
    {id argument : String} (hid : id ∈ nodeTypes.keys) (hedge : Argument m id argument) :
    argument ∈ nodeTypes.keys ∧ nodeTypes.keys.idxOf argument < nodeTypes.keys.idxOf id := by
  obtain ⟨node, hnode, hmem⟩ := (argument_iff hnodes id argument).mp hedge
  exact h.earlier hid hnode hmem

/-- A table with the roots has every node that they lead to. -/
theorem Ordered.mem_of_reachable (h : Ordered m.binderTypes m.nodeMap nodeTypes)
    (hnodes : (m.nodes.map (·.nodeId)).Nodup) (hroots : ∀ root ∈ m.roots, nodeTypes.get? root = some "Prop") {id : String}
    (hreach : Reachable m id) : id ∈ nodeTypes.keys := by
  obtain ⟨root, hroot, hpath⟩ := hreach
  induction hpath with
  | refl => exact Dict.mem_keys_iff.mpr ⟨"Prop", hroots root hroot⟩
  | tail _ hedge ih => exact (h.argument hnodes ih hedge).1

namespace Accepted

theorem mem_of_reachable (h : Accepted m nodeTypes) {id : String} (hreach : Reachable m id) : id ∈ nodeTypes.keys :=
  h.ordered.mem_of_reachable h.distinctNodes h.roots hreach

theorem typing (h : Accepted m nodeTypes) : Typing m (recorded nodeTypes) := by
  intro id hreach
  obtain ⟨type, hget⟩ := Dict.mem_keys_iff.mp (h.mem_of_reachable hreach)
  obtain ⟨node, hnode, htype⟩ := h.ordered.nodeType hget
  obtain ⟨hmem, rfl⟩ := (nodeMap_get? h.distinctNodes).mp hnode
  exact ⟨node, hmem, rfl, htype.wellTyped h.distinctBinders hget⟩

theorem wellFormed (h : Accepted m nodeTypes) : WellFormed m where
  theoremId := h.theoremId
  binderIds := fun b hb => (h.binders b hb).1
  distinctBinders := h.distinctBinders
  binderTypes := fun b hb => Option.ne_none_iff_exists'.mp (h.binders b hb).2
  nodeIds := h.nodeIds
  distinctNodes := h.distinctNodes
  acyclic := by
    intro id hreach hcycle
    have hlt : ∀ id', TransGen (Argument m) id id' →
        id' ∈ nodeTypes.keys ∧ nodeTypes.keys.idxOf id' < nodeTypes.keys.idxOf id := by
      intro id' hpath
      induction hpath with
      | single hedge => exact h.ordered.argument h.distinctNodes (h.mem_of_reachable hreach) hedge
      | tail _ hedge ih =>
        obtain ⟨hmem, hrank⟩ := h.ordered.argument h.distinctNodes ih.1 hedge
        exact ⟨hmem, Nat.lt_trans hrank ih.2⟩
    exact Nat.lt_irrefl _ (hlt id hcycle).2
  typed := by
    refine ⟨recorded nodeTypes, h.typing, fun root hroot => ?_⟩
    unfold recorded
    rw [h.roots root hroot]
    rfl
  reached := by
    intro n hn
    obtain ⟨root, hroot, hreach⟩ := h.reached n hn
    exact ⟨root, hroot, (reaches_iff h.distinctNodes root n.nodeId).mp hreach⟩

end Accepted

/-! ### Acceptance of the well-formed -/

theorem nodeMap_size (h : (m.nodes.map (·.nodeId)).Nodup) : m.nodeMap.size = m.nodes.length := by
  unfold Dict.size
  rw [nodeMap_entries h, List.length_map]

theorem isIdentifier_ne_empty {name : String} (h : isIdentifier name = true) : name ≠ "" := by
  rintro rfl
  exact absurd h (by decide)

theorem WellFormed.accepted (h : WellFormed m) (hschema : m.schemaVersion = mathIrVersion)
    (hregistry : m.registryVersion = registryVersion) : ∃ v, validateMathIr m = .ok v := by
  obtain ⟨types, htyping, hprop⟩ := h.typed
  have hbinders : checkBinders Dict.empty m.binders = .ok m.binderTypes := by
    refine checkBinders_eq_ok.mpr ⟨fun b hb => ⟨⟨h.binderIds b hb, ?_⟩, rfl⟩, h.distinctBinders, rfl⟩
    exact Option.ne_none_iff_exists'.mpr (h.binderTypes b hb)
  have hnodes : checkNodes Dict.empty m.nodes = .ok m.nodeMap :=
    checkNodes_eq_ok.mpr ⟨fun n hn => ⟨h.nodeIds n hn, rfl⟩, h.distinctNodes, rfl⟩
  have hconclusion : m.conclusion ≠ "" := by
    have hroot : m.conclusion ∈ m.roots := List.mem_append_right _ (List.mem_singleton_self _)
    obtain ⟨node, hnode, hid, -⟩ := htyping m.conclusion (reachable_root hroot)
    rw [← hid]
    exact isIdentifier_ne_empty (h.nodeIds node hnode)
  have henough : Enough (infer m.binderTypes m.nodeMap m.levels []) := by
    refine infer_enough m.binderTypes m.nodeMap m.levels [] List.nodup_nil (List.nil_subset _) ?_
    rw [nodeMap_size h.distinctNodes]
    unfold MathIR.levels
    rw [List.length_nil]
    omega
  have hempty : Agrees types Dict.empty := fun id type hget => by cases hget
  have hgood : ∀ root ∈ m.roots, (Reachable m root ∧ ∀ v ∈ [], TransGen (Argument m) v root) ∧ types root = "Prop" :=
    fun root hroot => ⟨⟨reachable_root hroot, List.forall_mem_nil _⟩, hprop root hroot⟩
  obtain ⟨nodeTypes, hroots⟩ := checkRoots_agrees (infer_faithful h htyping m.levels []) henough hempty hgood
  obtain ⟨hgrown, htypes⟩ := checkRoots_spec .empty hroots
  refine ⟨_, validate_eq_ok.mpr ⟨hschema, hregistry, h.theoremId, hbinders, hnodes, hconclusion, nodeTypes, hroots, ?_, rfl⟩⟩
  rw [List.filter_eq_nil_iff]
  intro id hid
  obtain ⟨node, hnode⟩ := Dict.mem_keys_iff.mp hid
  obtain ⟨hmem, rfl⟩ := (nodeMap_get? h.distinctNodes).mp hnode
  have hreached := hgrown.ordered.mem_of_reachable h.distinctNodes htypes (h.reached node hmem)
  rw [Bool.not_eq_true, Bool.not_eq_false', Dict.contains_iff]
  exact Dict.mem_keys_iff.mp hreached

theorem agrees_of_checkRoots {types : String → String} {p : String → Prop}
    {child : NodeTypes → String → Except TypedIRError (String × NodeTypes)} (hchild : Faithful types p child)
    {before after : NodeTypes} (hbefore : Agrees types before) {roots : List String} (hroots : ∀ root ∈ roots, p root)
    (h : checkRoots child before roots = .ok after) : Agrees types after := by
  induction roots generalizing before with
  | nil =>
    obtain rfl := Except.ok.inj h
    exact hbefore
  | cons root roots ih =>
    rw [List.forall_mem_cons] at hroots
    unfold checkRoots at h
    obtain ⟨⟨type, middle⟩, hroot, h⟩ := bind_eq_ok.mp h
    obtain ⟨-, hmiddle⟩ := (hchild before root hbefore hroots.1).2 type middle hroot
    split at h
    · cases h
    · exact ih hmiddle hroots.2 h

/-- The table of a validated IR has the types of every typing. -/
theorem agrees_of_validate {v : ValidatedMathIR} (h : validateMathIr m = .ok v) {types : String → String}
    (htyping : Typing m types) : Agrees types v.nodeTypes := by
  have hformed := (accepted_of_validate h).wellFormed
  obtain ⟨-, -, -, -, -, -, nodeTypes, hroots, -, rfl⟩ := validate_eq_ok.mp h
  exact agrees_of_checkRoots (infer_faithful hformed htyping m.levels []) (fun id type hget => by cases hget)
    (fun root hroot => ⟨reachable_root hroot, List.forall_mem_nil _⟩) hroots

/-! ### Texts -/

theorem mapM_mono {α β : Type} {f g : α → Option β} (h : ∀ a b, f a = some b → g a = some b) {l : List α} {bs : List β}
    (hf : l.mapM f = some bs) : l.mapM g = some bs := by
  induction l generalizing bs with
  | nil => exact hf
  | cons a l ih =>
    rw [List.mapM_cons] at hf ⊢
    obtain ⟨b, hb, hf⟩ := Option.bind_eq_some_iff.mp hf
    obtain ⟨bs', hbs, hf⟩ := Option.bind_eq_some_iff.mp hf
    exact Option.bind_eq_some_iff.mpr ⟨b, h a b hb, Option.bind_eq_some_iff.mpr ⟨bs', ih hbs, hf⟩⟩

/-- More levels do not change a text. -/
theorem renderExpr_mono {levels : Nat} {id : String} {t : List Char} (h : renderExpr nodeMap levels id = some t) :
    renderExpr nodeMap (levels + 1) id = some t := by
  induction levels generalizing id t with
  | zero => cases h
  | succ levels ih =>
    unfold renderExpr at h ⊢
    obtain ⟨node, hnode, h⟩ := Option.bind_eq_some_iff.mp h
    refine Option.bind_eq_some_iff.mpr ⟨node, hnode, ?_⟩
    split at h
    · rename_i hvar
      rw [if_pos hvar]
      exact h
    · rename_i hvar
      rw [if_neg hvar]
      split at h
      · rename_i hsymbol
        rw [if_pos hsymbol]
        obtain ⟨spec, hspec, h⟩ := Option.bind_eq_some_iff.mp h
        obtain ⟨rendered, hrendered, h⟩ := Option.bind_eq_some_iff.mp h
        exact Option.bind_eq_some_iff.mpr ⟨spec, hspec, Option.bind_eq_some_iff.mpr
          ⟨rendered, mapM_mono (fun a b hab => ih hab) hrendered, h⟩⟩
      · rename_i hsymbol
        rw [if_neg hsymbol]
        obtain ⟨spec, hspec, h⟩ := Option.bind_eq_some_iff.mp h
        obtain ⟨rendered, hrendered, h⟩ := Option.bind_eq_some_iff.mp h
        exact Option.bind_eq_some_iff.mpr ⟨spec, hspec, Option.bind_eq_some_iff.mpr
          ⟨rendered, mapM_mono (fun a b hab => ih hab) hrendered, h⟩⟩

theorem renderExpr_of_le {levels levels' : Nat} (hle : levels ≤ levels') {id : String} {t : List Char}
    (h : renderExpr nodeMap levels id = some t) : renderExpr nodeMap levels' id = some t := by
  induction hle with
  | refl => exact h
  | step _ ih => exact renderExpr_mono ih

/-- An IR of the current versions is accepted exactly when it is well formed.  The table then has a type for each node and
no other, the only typing there is, and every node has a text. -/
theorem validate_exact (m : MathIR) (hschema : m.schemaVersion = mathIrVersion)
    (hregistry : m.registryVersion = registryVersion) :
    ((∃ v, validateMathIr m = .ok v) ↔ WellFormed m) ∧
      ∀ v, validateMathIr m = .ok v →
        (∀ id, (∃ type, v.nodeTypes.get? id = some type) ↔ ∃ n ∈ m.nodes, n.nodeId = id) ∧
        Typing m (recorded v.nodeTypes) ∧
        (∀ types, Typing m types → ∀ n ∈ m.nodes, v.nodeTypes.get? n.nodeId = some (types n.nodeId)) ∧
        ∀ n ∈ m.nodes, ∃ t, ∀ levels, m.levels ≤ levels → renderExpr m.nodeMap levels n.nodeId = some t := by
  constructor
  · constructor
    · rintro ⟨v, h⟩
      exact (accepted_of_validate h).wellFormed
    · exact fun h => h.accepted hschema hregistry
  · intro v h
    have haccepted := accepted_of_validate h
    refine ⟨fun id => ⟨?_, ?_⟩, haccepted.typing, fun types htyping n hn => ?_, fun n hn => ?_⟩
    · rintro ⟨type, hget⟩
      obtain ⟨node, hnode, -⟩ := haccepted.ordered.nodeType hget
      obtain ⟨hmem, hid⟩ := (nodeMap_get? haccepted.distinctNodes).mp hnode
      exact ⟨node, hmem, hid⟩
    · rintro ⟨n, hn, rfl⟩
      exact haccepted.typed n hn
    · obtain ⟨type, hget⟩ := haccepted.typed n hn
      rw [hget, agrees_of_validate h htyping n.nodeId type hget]
    · obtain ⟨type, hget⟩ := haccepted.typed n hn
      obtain ⟨tree, -, -, hrender⟩ := haccepted.ordered.tree m.levels haccepted.size_le n.nodeId type hget
      exact ⟨_, fun levels hle => renderExpr_of_le hle hrender⟩

/-- The negation of a falsehood. -/
def notFalse : MathIR where
  theoremId := "t"
  binders := []
  nodes := [⟨"q", "operator", "not", ["p"]⟩, ⟨"p", "symbol", "False", []⟩]
  premises := []
  conclusion := "q"

theorem validate_exact_notFalse : ∃ v, validateMathIr notFalse = .ok v ∧ v.nodeTypes.get? "p" = some "Prop" := by
  have hedge : ∀ {x y : String}, Argument notFalse x y → x = "q" ∧ y = "p" := by
    rintro x y ⟨node, hnode, rfl, hy⟩
    have hall : ∀ node ∈ notFalse.nodes, ∀ y ∈ node.arguments, node.nodeId = "q" ∧ y = "p" := by decide
    exact hall node hnode y hy
  have hq : Reachable notFalse "q" := reachable_root (by decide)
  have hp : Reachable notFalse "p" := hq.argument ⟨⟨"q", "operator", "not", ["p"]⟩, by decide⟩
  have htyping : Typing notFalse fun _ => "Prop" := by
    rintro id ⟨root, hroot, hpath⟩
    have hid : id = "q" ∨ id = "p" := by
      rcases ReflTransGen.cases_tail hpath with rfl | ⟨_, -, harg⟩
      · exact .inl (by simpa [MathIR.roots, notFalse] using hroot)
      · exact .inr (hedge harg).2
    rcases hid with rfl | rfl
    · exact ⟨_, List.mem_cons_self, rfl, .operator rfl ⟨"not", 1, ["Prop"], "Prop", '¬'⟩ rfl rfl rfl⟩
    · exact ⟨_, List.mem_cons_of_mem _ List.mem_cons_self, rfl, .symbol rfl ⟨"False", "False", [], "Prop"⟩ rfl rfl rfl⟩
  have hformed : WellFormed notFalse := by
    refine ⟨by decide, by decide, by decide, fun b hb => (by cases hb), by decide, by decide, ?_,
      ⟨_, htyping, fun _ _ => rfl⟩, ?_⟩
    · intro id _ hcycle
      obtain ⟨_, hfirst, -⟩ := TransGen.head'_iff.mp hcycle
      obtain ⟨_, -, hlast⟩ := TransGen.tail'_iff.mp hcycle
      exact absurd ((hedge hfirst).1.symm.trans (hedge hlast).2) (by decide)
    · intro n hn
      have hall : ∀ n ∈ notFalse.nodes, n.nodeId = "q" ∨ n.nodeId = "p" := by decide
      rcases hall n hn with h | h
      · rw [h]
        exact hq
      · rw [h]
        exact hp
  obtain ⟨haccepts, hresult⟩ := validate_exact notFalse rfl rfl
  obtain ⟨v, hv⟩ := haccepts.mpr hformed
  obtain ⟨-, -, hunique, -⟩ := hresult v hv
  exact ⟨v, hv, hunique _ htyping ⟨"p", "symbol", "False", []⟩ (by decide)⟩

end MathIr

end KakeyaEngine
