import KakeyaEngine.Lib.Fallible
import KakeyaEngine.Lib.Readable
import KakeyaEngine.MathIr.Syntax
import Mathlib.Logic.Relation

/-!
# Expression trees

A node that validation accepts unfolds to a finite tree: the table of types lists the nodes in an order in which the
arguments come first.  The tree has the type of the table, and the text of the node is the text of the tree.
-/

namespace KakeyaEngine

namespace MathIr

open Fallible

inductive Tree
  | var (ref : String)
  | symbol (ref : String) (arguments : List Tree)
  | operator (ref : String) (arguments : List Tree)

/-- The tree of a node. -/
def treeOf (node : ExprNode) (arguments : List Tree) : Tree :=
  if node.kind = "var" then .var node.ref
  else if node.kind = "symbol" then .symbol node.ref arguments
  else .operator node.ref arguments

/-- The tree of a node id. -/
def unfold (nodeMap : Dict String ExprNode) : (levels : Nat) → String → Option Tree
  | 0, _ => none
  | levels + 1, nodeId => do
    let node ← nodeMap.get? nodeId
    let arguments ← node.arguments.mapM (unfold nodeMap levels)
    some (treeOf node arguments)

namespace MathIR

/-- The trees of the premises. -/
def premiseTrees (m : MathIR) : List (Option Tree) := m.premises.map (MathIr.unfold m.nodeMap m.levels)

def conclusionTree (m : MathIR) : Option Tree := MathIr.unfold m.nodeMap m.levels m.conclusion

end MathIR

/-! ### Types of trees -/

-- the types of the binders
variable (binderTypes : Dict String String)

mutual

/-- The tree has the type. -/
def HasType : Tree → String → Prop
  | .var ref, type => binderTypes.get? ref = some type
  | .symbol ref arguments, type =>
    ∃ symbol, symbolSpec? ref = some symbol ∧ HasTypes arguments symbol.argumentTypes ∧ symbol.resultType = type
  | .operator ref arguments, type =>
    ∃ operator, operatorSpec? ref = some operator ∧ HasTypes arguments operator.argumentTypes ∧
      operator.resultType = type

def HasTypes : List Tree → List String → Prop
  | [], [] => True
  | t :: ts, type :: types => HasType t type ∧ HasTypes ts types
  | _, _ => False

end

theorem HasTypes.length : ∀ {ts : List Tree} {types : List String}, HasTypes binderTypes ts types →
    ts.length = types.length
  | [], [], _ => rfl
  | _ :: ts, _ :: types, h => by
    unfold HasTypes at h
    rw [List.length_cons, List.length_cons, HasTypes.length h.2]
  | [], _ :: _, h => h.elim
  | _ :: _, [], h => h.elim

/-! ### The table of types -/

variable (nodeMap : Dict String ExprNode)

/-- A node has a type, given the types of its arguments. -/
def NodeType (nodeTypes : NodeTypes) (node : ExprNode) (type : String) : Prop :=
  (node.kind = "var" ∧ node.arguments = [] ∧ binderTypes.get? node.ref = some type) ∨
    (node.kind = "symbol" ∧ ∃ symbol, symbolSpec? node.ref = some symbol ∧
      node.arguments.map nodeTypes.get? = symbol.argumentTypes.map some ∧ symbol.resultType = type) ∨
    (node.kind = "operator" ∧ ∃ operator, operatorSpec? node.ref = some operator ∧
      node.arguments.length = operator.arity ∧
      node.arguments.map nodeTypes.get? = operator.argumentTypes.map some ∧ operator.resultType = type)

/-- A table in which every node comes after its arguments. -/
inductive Ordered : NodeTypes → Prop
  | empty : Ordered Dict.empty
  | add {nodeTypes : NodeTypes} {node : ExprNode} {nodeId type : String} (h : Ordered nodeTypes)
      (hnew : nodeTypes.get? nodeId = none) (hnode : nodeMap.get? nodeId = some node)
      (htype : NodeType binderTypes nodeTypes node type) : Ordered (nodeTypes.set nodeId type)

/-- One table extends another. -/
def Extends (nodeTypes nodeTypes' : NodeTypes) : Prop :=
  ∀ id type, nodeTypes.get? id = some type → nodeTypes'.get? id = some type

theorem Extends.refl (nodeTypes : NodeTypes) : Extends nodeTypes nodeTypes := fun _ _ h => h

theorem Extends.trans {t t' t'' : NodeTypes} (h : Extends t t') (h' : Extends t' t'') : Extends t t'' :=
  fun id type hid => h' id type (h id type hid)

theorem Extends.set {t : NodeTypes} {id : String} (type : String) (hnew : t.get? id = none) : Extends t (t.set id type) := by
  intro id' type' h
  rw [Dict.get?_set_ne _ fun heq => by rw [heq, hnew] at h; cases h]
  exact h

theorem NodeType.mono {binderTypes : Dict String String} {nodeTypes nodeTypes' : NodeTypes} (h : Extends nodeTypes nodeTypes') {node : ExprNode} {type : String}
    (htype : NodeType binderTypes nodeTypes node type) : NodeType binderTypes nodeTypes' node type := by
  have hmap : ∀ {ids types : List String}, ids.map nodeTypes.get? = types.map some →
      ids.map nodeTypes'.get? = types.map some := by
    intro ids types
    induction ids generalizing types with
    | nil => exact id
    | cons i ids ih =>
      intro heq
      cases types with
      | nil => cases heq
      | cons t types =>
        rw [List.map_cons, List.map_cons, List.cons.injEq] at heq
        rw [List.map_cons, List.map_cons, h i t heq.1, ih heq.2]
  rcases htype with hvar | ⟨hkind, spec, hspec, harguments, hresult⟩ | ⟨hkind, spec, hspec, harity, harguments, hresult⟩
  · exact .inl hvar
  · exact .inr (.inl ⟨hkind, spec, hspec, hmap harguments, hresult⟩)
  · exact .inr (.inr ⟨hkind, spec, hspec, harity, hmap harguments, hresult⟩)

/-- A node of the table has its type from the types of the table. -/
theorem Ordered.nodeType {binderTypes : Dict String String} {nodeMap : Dict String ExprNode} {nodeTypes : NodeTypes}
    (h : Ordered binderTypes nodeMap nodeTypes) {id type : String} (hget : nodeTypes.get? id = some type) :
    ∃ node, nodeMap.get? id = some node ∧ NodeType binderTypes nodeTypes node type := by
  induction h with
  | empty => cases hget
  | @add nodeTypes node nodeId type' _ hnew hnode htype ih =>
    have hextends := Extends.set type' hnew
    rw [Dict.get?_set] at hget
    split at hget
    · rename_i heq
      subst heq
      obtain rfl := Option.some.inj hget
      exact ⟨node, hnode, htype.mono hextends⟩
    · obtain ⟨node', hnode', htype'⟩ := ih hget
      exact ⟨node', hnode', htype'.mono hextends⟩

/-- A node leads to another one through arguments. -/
def Reaches : String → String → Prop :=
  Relation.ReflTransGen fun a b => ∃ node, nodeMap.get? a = some node ∧ b ∈ node.arguments

/-- What a search from several nodes does to the table. -/
structure Grown (visiting nodeIds : List String) (before after : NodeTypes) : Prop where
  ordered : Ordered binderTypes nodeMap after
  grows : Extends before after
  -- no node that is being visited gets a type
  visiting : ∀ id ∈ visiting, before.get? id = none → after.get? id = none
  reached : ∀ id type, after.get? id = some type → before.get? id = some type ∨ ∃ start ∈ nodeIds, Reaches nodeMap start id

variable {binderTypes nodeMap}

theorem Grown.refl {visiting ids : List String} {table : NodeTypes} (h : Ordered binderTypes nodeMap table) :
    Grown binderTypes nodeMap visiting ids table table :=
  ⟨h, Extends.refl _, fun _ _ hnone => hnone, fun _ _ hfound => .inl hfound⟩

theorem Grown.trans {visiting ids ids' : List String} {t t' t'' : NodeTypes} (h : Grown binderTypes nodeMap visiting ids t t')
    (h' : Grown binderTypes nodeMap visiting ids' t' t'') : Grown binderTypes nodeMap visiting (ids ++ ids') t t'' := by
  refine ⟨h'.ordered, h.grows.trans h'.grows, fun id hid hnone => h'.visiting id hid (h.visiting id hid hnone),
    fun id type hfound => ?_⟩
  rcases h'.reached id type hfound with hfound' | ⟨start, hstart, hreach⟩
  · rcases h.reached id type hfound' with hold | ⟨start, hstart, hreach⟩
    · exact .inl hold
    · exact .inr ⟨start, List.mem_append_left _ hstart, hreach⟩
  · exact .inr ⟨start, List.mem_append_right _ hstart, hreach⟩

/-- What is asked of the search from one node. -/
def Sound (binderTypes : Dict String String) (nodeMap : Dict String ExprNode) (visiting : List String)
    (child : NodeTypes → String → Except TypedIRError (String × NodeTypes)) : Prop :=
  ∀ before id type after, Ordered binderTypes nodeMap before → child before id = .ok (type, after) →
    Grown binderTypes nodeMap visiting [id] before after ∧ after.get? id = some type

theorem inferAll_spec {child : NodeTypes → String → Except TypedIRError (String × NodeTypes)} {visiting : List String}
    (hchild : Sound binderTypes nodeMap visiting child) {before after : NodeTypes} {ids types : List String}
    (hordered : Ordered binderTypes nodeMap before) (h : inferAll child before ids = .ok (types, after)) :
    Grown binderTypes nodeMap visiting ids before after ∧ ids.map after.get? = types.map some := by
  induction ids generalizing before types with
  | nil =>
    obtain ⟨rfl, rfl⟩ := Prod.mk.inj (Except.ok.inj h)
    exact ⟨.refl hordered, rfl⟩
  | cons id ids ih =>
    unfold inferAll at h
    obtain ⟨⟨type, middle⟩, hfirst, h⟩ := bind_eq_ok.mp h
    obtain ⟨⟨types', after'⟩, hrest, h⟩ := bind_eq_ok.mp h
    obtain ⟨rfl, rfl⟩ := Prod.mk.inj (Except.ok.inj h)
    obtain ⟨hone, hfound⟩ := hchild before id type middle hordered hfirst
    obtain ⟨hmany, hfounds⟩ := ih hone.ordered hrest
    refine ⟨hone.trans hmany, ?_⟩
    rw [List.map_cons, List.map_cons, hfounds, hmany.grows id type hfound]

theorem inferNode_spec {child : NodeTypes → String → Except TypedIRError (String × NodeTypes)} {visiting : List String}
    (hchild : Sound binderTypes nodeMap visiting child) {before after : NodeTypes} {node : ExprNode} {type : String}
    (hordered : Ordered binderTypes nodeMap before) (h : inferNode binderTypes child before node = .ok (type, after)) :
    Grown binderTypes nodeMap visiting node.arguments before after ∧ NodeType binderTypes after node type := by
  unfold inferNode at h
  split at h
  · rename_i hkind
    split at h
    · cases h
    · rename_i result hresult
      obtain ⟨rfl, rfl⟩ := Prod.mk.inj (Except.ok.inj h)
      split at hresult
      · rename_i hleaf
        exact ⟨.refl hordered, .inl ⟨hkind, hleaf, hresult⟩⟩
      · cases hresult
  · split at h
    · rename_i hkind
      split at h
      · cases h
      · rename_i symbol hsymbol
        obtain ⟨⟨types, after'⟩, hall, h⟩ := bind_eq_ok.mp h
        split at h
        · cases h
        · rename_i hmatch
          obtain ⟨rfl, rfl⟩ := Prod.mk.inj (Except.ok.inj h)
          obtain ⟨hgrown, hargs⟩ := inferAll_spec hchild hordered hall
          refine ⟨hgrown, .inr (.inl ⟨hkind, symbol, hsymbol, ?_, rfl⟩)⟩
          rw [hargs, show types = _ from not_not.mp hmatch]
    · split at h
      · rename_i hkind
        split at h
        · cases h
        · rename_i operator hoperator
          split at h
          · cases h
          · rename_i harity
            obtain ⟨⟨types, after'⟩, hall, h⟩ := bind_eq_ok.mp h
            split at h
            · cases h
            · rename_i hmatch
              obtain ⟨rfl, rfl⟩ := Prod.mk.inj (Except.ok.inj h)
              obtain ⟨hgrown, hargs⟩ := inferAll_spec hchild hordered hall
              refine ⟨hgrown, .inr (.inr ⟨hkind, operator, hoperator, not_not.mp harity, ?_, rfl⟩)⟩
              rw [hargs, show types = _ from not_not.mp hmatch]
      · cases h

/-- A search that finds a type leaves an ordered table. -/
theorem infer_spec (levels : Nat) (visiting : List String) :
    Sound binderTypes nodeMap visiting (infer binderTypes nodeMap levels visiting) := by
  induction levels generalizing visiting with
  | zero =>
    intro before nodeId type after _ h
    cases h
  | succ levels ih =>
    intro before nodeId type after hordered h
    unfold infer at h
    split at h
    · rename_i result hknown
      obtain ⟨rfl, rfl⟩ := Prod.mk.inj (Except.ok.inj h)
      exact ⟨.refl hordered, hknown⟩
    · rename_i hunknown
      split at h
      · cases h
      · rename_i hvisiting
        split at h
        · cases h
        · rename_i node hnode
          obtain ⟨⟨type', middle⟩, hinner, h⟩ := bind_eq_ok.mp h
          obtain ⟨rfl, rfl⟩ := Prod.mk.inj (Except.ok.inj h)
          obtain ⟨hgrown, htype⟩ := inferNode_spec (ih (nodeId :: visiting)) hordered hinner
          have hnew : middle.get? nodeId = none := hgrown.visiting nodeId List.mem_cons_self hunknown
          refine ⟨⟨.add hgrown.ordered hnew hnode htype, hgrown.grows.trans (Extends.set _ hnew), fun id hid hnone => ?_,
            fun id type' hfound => ?_⟩, Dict.get?_set_self _ _ _⟩
          · have hne : id ≠ nodeId := fun heq => hvisiting (heq ▸ hid)
            rw [Dict.get?_set_ne _ hne]
            exact hgrown.visiting id (List.mem_cons_of_mem _ hid) hnone
          · rw [Dict.get?_set] at hfound
            split at hfound
            · rename_i heq
              subst heq
              exact .inr ⟨id, List.mem_singleton_self _, .refl⟩
            · rcases hgrown.reached id type' hfound with hold | ⟨start, hstart, hreach⟩
              · exact .inl hold
              · exact .inr ⟨nodeId, List.mem_singleton_self _, .head ⟨node, hnode, hstart⟩ hreach⟩

theorem checkRoots_spec {levels : Nat} {before after : NodeTypes} {roots : List String}
    (hordered : Ordered binderTypes nodeMap before)
    (h : checkRoots (infer binderTypes nodeMap levels []) before roots = .ok after) :
    Grown binderTypes nodeMap [] roots before after ∧ ∀ root ∈ roots, after.get? root = some "Prop" := by
  induction roots generalizing before with
  | nil =>
    obtain rfl := Except.ok.inj h
    exact ⟨.refl hordered, List.forall_mem_nil _⟩
  | cons root roots ih =>
    unfold checkRoots at h
    obtain ⟨⟨type, middle⟩, hroot, h⟩ := bind_eq_ok.mp h
    obtain ⟨hone, hfound⟩ := infer_spec levels [] before root type middle hordered hroot
    split at h
    · cases h
    · rename_i hprop
      obtain ⟨hmany, hroots⟩ := ih hone.ordered h
      refine ⟨hone.trans hmany, fun id hid => ?_⟩
      rcases List.mem_cons.mp hid with rfl | hid
      · rw [hmany.grows id type hfound, show type = _ from not_not.mp hprop]
      · exact hroots id hid

/-! ### The trees of a table -/

open Readable (Shape text argumentText Legible AllLegible)

def symbolName (ref : String) : List Char := ((symbolSpec? ref).map (·.leanName.toList)).getD []

def operatorToken (ref : String) : Char := ((operatorSpec? ref).map (·.leanToken)).getD ' '

mutual

/-- The shape of the text of a tree. -/
def shape : Tree → Shape
  | .var ref => .apply ref.toList []
  | .symbol ref arguments => .apply (symbolName ref) (shapes arguments)
  | .operator ref arguments =>
    match shapes arguments with
    | [] => .apply [] []
    | [x] => .unary (operatorToken ref) x
    | x :: y :: _ => .binary (operatorToken ref) x y

def shapes : List Tree → List Shape
  | [] => []
  | t :: ts => shape t :: shapes ts

end

theorem shapes_eq_map (ts : List Tree) : shapes ts = ts.map shape := by
  induction ts with
  | nil => rfl
  | cons t ts ih => rw [shapes, ih, List.map_cons]

/-- Operators have one operand or two. -/
theorem operator_arity {ref : String} {operator : OperatorSpec} (h : operatorSpec? ref = some operator) :
    (operator.arity = 1 ∧ operator.argumentTypes.length = 1) ∨ (operator.arity = 2 ∧ operator.argumentTypes.length = 2) := by
  have hall : ∀ o ∈ operatorRegistry, (o.arity = 1 ∧ o.argumentTypes.length = 1) ∨
      (o.arity = 2 ∧ o.argumentTypes.length = 2) := by decide
  exact hall operator (List.mem_of_find?_eq_some h)

/-- The texts of the arguments of a node in an ordered table. -/
theorem arguments_of_table {nodeTypes : NodeTypes} {levels : Nat}
    (hnodes : ∀ id type, nodeTypes.get? id = some type → ∃ t, unfold nodeMap levels id = some t ∧
      HasType binderTypes t type ∧ renderExpr nodeMap levels id = some (text (shape t)))
    {ids types : List String} (h : ids.map nodeTypes.get? = types.map some) :
    ∃ ts, ids.mapM (unfold nodeMap levels) = some ts ∧ HasTypes binderTypes ts types ∧
      ids.mapM (renderExpr nodeMap levels) = some (ts.map fun t => text (shape t)) := by
  induction ids generalizing types with
  | nil =>
    cases types with
    | nil => exact ⟨[], rfl, trivial, rfl⟩
    | cons type types => cases h
  | cons id ids ih =>
    cases types with
    | nil => cases h
    | cons type types =>
      rw [List.map_cons, List.map_cons, List.cons.injEq] at h
      obtain ⟨t, hunfold, htype, hrender⟩ := hnodes id type h.1
      obtain ⟨ts, hunfolds, htypes, hrenders⟩ := ih h.2
      refine ⟨t :: ts, ?_, ⟨htype, htypes⟩, ?_⟩
      · rw [List.mapM_cons, hunfold, hunfolds]
        rfl
      · rw [List.mapM_cons, hrender, hrenders]
        rfl

/-- The tree and the text of a node, given those of its arguments. -/
theorem tree_of_node {nodeTypes : NodeTypes} {levels : Nat}
    (hnodes : ∀ id type, nodeTypes.get? id = some type → ∃ t, unfold nodeMap levels id = some t ∧
      HasType binderTypes t type ∧ renderExpr nodeMap levels id = some (text (shape t)))
    {nodeId type : String} {node : ExprNode} (hnode : nodeMap.get? nodeId = some node)
    (htype : NodeType binderTypes nodeTypes node type) :
    ∃ t, unfold nodeMap (levels + 1) nodeId = some t ∧ HasType binderTypes t type ∧
      renderExpr nodeMap (levels + 1) nodeId = some (text (shape t)) := by
  unfold MathIr.unfold renderExpr
  rw [hnode]
  rcases htype with ⟨hkind, hleaf, hbinder⟩ | ⟨hkind, symbol, hsymbol, hargs, rfl⟩ |
    ⟨hkind, operator, hoperator, harity, hargs, rfl⟩
  · refine ⟨.var node.ref, ?_, hbinder, ?_⟩
    · simp [hleaf, treeOf, hkind]
    · simp [hkind, shape, text, argumentText]
  · obtain ⟨ts, hunfolds, htypes, hrenders⟩ := arguments_of_table hnodes hargs
    refine ⟨.symbol node.ref ts, ?_, ⟨symbol, hsymbol, htypes, rfl⟩, ?_⟩
    · simp [hunfolds, treeOf, hkind]
    · have hname : symbolName node.ref = symbol.leanName.toList := by
        unfold symbolName
        rw [hsymbol]
        rfl
      have hkind' : ¬ node.kind = "var" := by rw [hkind]; decide
      simp only [Option.bind_eq_bind, Option.bind_some, if_neg hkind', if_pos hkind, hsymbol, hrenders, shape, text, hname,
        shapes_eq_map, Readable.argumentText_eq, List.map_map]
      rfl
  · obtain ⟨ts, hunfolds, htypes, hrenders⟩ := arguments_of_table hnodes hargs
    have hvar : ¬ node.kind = "var" := by rw [hkind]; decide
    have hsymbol : ¬ node.kind = "symbol" := by rw [hkind]; decide
    refine ⟨.operator node.ref ts, ?_, ⟨operator, hoperator, htypes, rfl⟩, ?_⟩
    · simp [hunfolds, treeOf, hvar, hsymbol]
    · have htoken : operatorToken node.ref = operator.leanToken := by
        unfold operatorToken
        rw [hoperator]
        rfl
      have hlength := htypes.length
      simp only [Option.bind_eq_bind, Option.bind_some, if_neg hvar, if_neg hsymbol, hoperator, hrenders]
      rcases operator_arity hoperator with ⟨hone, htypesLength⟩ | ⟨htwo, htypesLength⟩
      · rw [htypesLength] at hlength
        obtain ⟨t, rfl⟩ := List.length_eq_one_iff.mp hlength
        rw [if_pos hone]
        simp [shape, shapes, text, htoken]
      · rw [htypesLength] at hlength
        obtain ⟨t, t', rfl⟩ := List.length_eq_two.mp hlength
        rw [if_neg (by omega)]
        simp [shape, shapes, text, htoken]

/-- Every node of an ordered table unfolds to a tree of its type, and its text is the text of the tree. -/
theorem Ordered.tree {nodeTypes : NodeTypes} (h : Ordered binderTypes nodeMap nodeTypes) :
    ∀ levels, nodeTypes.size ≤ levels → ∀ id type, nodeTypes.get? id = some type →
      ∃ t, unfold nodeMap levels id = some t ∧ HasType binderTypes t type ∧
        renderExpr nodeMap levels id = some (text (shape t)) := by
  induction h with
  | empty =>
    intro levels _ id type hid
    cases hid
  | @add nodeTypes node nodeId type' h hnew hnode htype ih =>
    intro levels hlevels id type hid
    rw [Dict.size_set_new _ hnew] at hlevels
    obtain ⟨levels, rfl⟩ := Nat.exists_eq_add_of_le' (Nat.le_trans (Nat.le_add_left 1 _) hlevels)
    rw [Dict.get?_set] at hid
    split at hid
    · rename_i heq
      subst heq
      obtain rfl := Option.some.inj hid
      exact tree_of_node (ih levels (by omega)) hnode htype
    · exact ih (levels + 1) (by omega) id type hid

end MathIr

end KakeyaEngine
