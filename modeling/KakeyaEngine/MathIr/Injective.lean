import KakeyaEngine.MathIr.Accepted

/-!
# When the declaration determines the IR

The text of a declaration determines its binders and the shapes of its propositions, and a typed shape comes from one tree
unless a proposition `True` or `False` can be a binder or the symbol.  So an accepted IR is the only one with its
declaration exactly when no binder captures a symbol (`declaration_determines_iff`).
-/

namespace KakeyaEngine

namespace MathIr

open Fallible
open Readable (Shape text argumentText Legible AllLegible Delimited text_cancel name_cancel ends_close)

/-! ### Legible shapes -/

theorem delimited_word : Delimited isWord := ⟨by decide, by decide, by decide⟩

theorem word_of_identifier {s : String} (h : isIdentifier s = true) : s.toList ≠ [] ∧ s.toList.all isWord = true := by
  unfold isIdentifier at h
  split at h
  · cases h
  · rename_i c cs hs
    rw [hs]
    rw [Bool.and_eq_true, Bool.and_eq_true] at h
    refine ⟨List.cons_ne_nil _ _, ?_⟩
    rw [List.all_cons, h.1.2, Bool.and_true]
    unfold isWord Char.isAlphanum
    rw [h.1.1]
    rfl

/-- A registered symbol is named by its id, which is a word. -/
theorem symbolName_eq {ref : String} {symbol : SymbolSpec} (h : symbolSpec? ref = some symbol) :
    symbolName ref = ref.toList ∧ ref.toList ≠ [] ∧ ref.toList.all isWord = true := by
  have hall : ∀ s ∈ symbolRegistry, s.leanName = s.symbolId ∧ s.symbolId.toList ≠ [] ∧
      s.symbolId.toList.all isWord = true := by decide
  have hmem := hall symbol (List.mem_of_find?_eq_some h)
  have hid : symbol.symbolId = ref := by simpa using List.find?_some h
  rw [hid] at hmem
  refine ⟨?_, hmem.2⟩
  unfold symbolName
  rw [h]
  exact congrArg String.toList hmem.1

theorem operatorToken_spec {ref : String} {operator : OperatorSpec} (h : operatorSpec? ref = some operator) :
    operatorToken ref = operator.leanToken ∧ isWord operator.leanToken = false ∧ operator.leanToken ≠ '(' ∧
      operator.resultType = "Prop" := by
  have hall : ∀ o ∈ operatorRegistry, isWord o.leanToken = false ∧ o.leanToken ≠ '(' ∧ o.resultType = "Prop" := by decide
  refine ⟨?_, hall operator (List.mem_of_find?_eq_some h)⟩
  unfold operatorToken
  rw [h]
  rfl

/-- The shape of a typed operator. -/
theorem shape_operator {binderTypes : Dict String String} {ref : String} {operator : OperatorSpec} {ts : List Tree}
    (h : operatorSpec? ref = some operator) (hts : HasTypes binderTypes ts operator.argumentTypes) :
    (∃ t, ts = [t] ∧ operator.argumentTypes.length = 1 ∧
        shape (.operator ref ts) = .unary operator.leanToken (shape t)) ∨
      ∃ t t', ts = [t, t'] ∧ operator.argumentTypes.length = 2 ∧
        shape (.operator ref ts) = .binary operator.leanToken (shape t) (shape t') := by
  have hlength := hts.length
  have htoken := (operatorToken_spec h).1
  rcases operator_arity h with ⟨-, hone⟩ | ⟨-, htwo⟩
  · rw [hone] at hlength
    obtain ⟨t, rfl⟩ := List.length_eq_one_iff.mp hlength
    exact .inl ⟨t, rfl, hone, by simp [shape, shapes, htoken]⟩
  · rw [htwo] at hlength
    obtain ⟨t, t', rfl⟩ := List.length_eq_two.mp hlength
    exact .inr ⟨t, t', rfl, htwo, by simp [shape, shapes, htoken]⟩

section Typed

variable {binderTypes : Dict String String}

theorem operator_ne_apply {ref type : String} {ts : List Tree} (h : HasType binderTypes (.operator ref ts) type)
    (name : List Char) (arguments : List Shape) : shape (.operator ref ts) ≠ .apply name arguments := by
  obtain ⟨operator, hoperator, hts, -⟩ := h
  intro hshape
  rcases shape_operator hoperator hts with ⟨t, rfl, -, hone⟩ | ⟨t, t', rfl, -, htwo⟩
  · rw [hone] at hshape
    cases hshape
  · rw [htwo] at hshape
    cases hshape

mutual

/-- The shape of a typed tree is legible. -/
theorem legible_shape (hbinders : ∀ id type, binderTypes.get? id = some type → isIdentifier id = true) (t : Tree)
    (type : String) (h : HasType binderTypes t type) : Legible isWord (shape t) := by
  match t with
  | .var ref =>
    obtain ⟨hne, hword⟩ := word_of_identifier (hbinders ref type h)
    exact ⟨hne, hword, trivial⟩
  | .symbol ref ts =>
    obtain ⟨symbol, hsymbol, hts, -⟩ := h
    obtain ⟨hname, hne, hword⟩ := symbolName_eq hsymbol
    unfold shape
    rw [hname]
    exact ⟨hne, hword, legible_shapes hbinders ts symbol.argumentTypes hts⟩
  | .operator ref ts =>
    obtain ⟨operator, hoperator, hts, -⟩ := h
    obtain ⟨-, hword, hparen, -⟩ := operatorToken_spec hoperator
    have hall := legible_shapes hbinders ts operator.argumentTypes hts
    rcases shape_operator hoperator hts with ⟨t, rfl, -, hshape⟩ | ⟨t, t', rfl, -, hshape⟩
    · rw [hshape]
      exact ⟨hword, hparen, hall.1⟩
    · rw [hshape]
      exact ⟨hword, hparen, hall.1, hall.2.1⟩

theorem legible_shapes (hbinders : ∀ id type, binderTypes.get? id = some type → isIdentifier id = true) (ts : List Tree)
    (types : List String) (h : HasTypes binderTypes ts types) : AllLegible isWord (shapes ts) := by
  match ts, types with
  | [], [] => trivial
  | t :: ts, type :: types => exact ⟨legible_shape hbinders t type h.1, legible_shapes hbinders ts types h.2⟩

end

/-! ### One shape, one tree -/

/-- One tree is part of another. -/
inductive Within (t : Tree) : Tree → Prop
  | refl : Within t t
  | symbol {ref : String} {arguments : List Tree} {t' : Tree} (hmem : t' ∈ arguments) (h : Within t t') :
      Within t (.symbol ref arguments)
  | operator {ref : String} {arguments : List Tree} {t' : Tree} (hmem : t' ∈ arguments) (h : Within t t') :
      Within t (.operator ref arguments)

/-- The tree of a name that stands alone. -/
def leaf (kind c : String) : Tree := if kind = "var" then .var c else .symbol c []

/-- The name stands alone somewhere in the tree. -/
def Shows (c : String) (t : Tree) : Prop := Within (leaf "var" c) t ∨ Within (leaf "symbol" c) t

theorem Shows.symbol {c ref : String} {arguments : List Tree} {t : Tree} (hmem : t ∈ arguments) (h : Shows c t) :
    Shows c (.symbol ref arguments) :=
  h.imp (Within.symbol hmem) (Within.symbol hmem)

theorem Shows.operator {c ref : String} {arguments : List Tree} {t : Tree} (hmem : t ∈ arguments) (h : Shows c t) :
    Shows c (.operator ref arguments) :=
  h.imp (Within.operator hmem) (Within.operator hmem)

/-- The symbols without arguments. -/
def constants : List String := ["True", "False"]

/-- A symbol that is shown alone is one of two propositions. -/
theorem constant_of_shapes {ref : String} {symbol : SymbolSpec} {ts : List Tree} (h : symbolSpec? ref = some symbol)
    (hts : HasTypes binderTypes ts symbol.argumentTypes) (hnil : shapes ts = []) :
    ts = [] ∧ ref ∈ constants ∧ symbol.resultType = "Prop" := by
  have hall : ∀ s ∈ symbolRegistry, s.argumentTypes = [] → s.symbolId ∈ constants ∧ s.resultType = "Prop" := by decide
  have hid : symbol.symbolId = ref := by simpa using List.find?_some h
  rw [shapes_eq_map, List.map_eq_nil_iff] at hnil
  subst hnil
  have htypes : symbol.argumentTypes = [] := List.eq_nil_of_length_eq_zero hts.length.symm
  have hconstant := hall symbol (List.mem_of_find?_eq_some h) htypes
  rw [hid] at hconstant
  exact ⟨rfl, hconstant⟩

/-- A name that is not a proposition has one type. -/
theorem type_eq_of_shape {t t' : Tree} {type type' : String} (h : HasType binderTypes t type)
    (h' : HasType binderTypes t' type') (hshape : shape t = shape t') (hprop : type ≠ "Prop") (hprop' : type' ≠ "Prop") :
    type = type' := by
  have hoperator : ∀ {ref ts type}, HasType binderTypes (.operator ref ts) type → type = "Prop" := by
    rintro ref ts type ⟨operator, hspec, -, rfl⟩
    exact (operatorToken_spec hspec).2.2.2
  match t, t' with
  | .operator _ _, _ => exact absurd (hoperator h) hprop
  | _, .operator _ _ => exact absurd (hoperator h') hprop'
  | .var ref, .var ref' =>
    unfold shape at hshape
    obtain rfl : ref = ref' := String.ext (Shape.apply.inj hshape).1
    exact Option.some.inj (h.symm.trans h')
  | .var ref, .symbol ref' ts' =>
    obtain ⟨symbol, hsymbol, hts, rfl⟩ := h'
    unfold shape at hshape
    exact absurd (constant_of_shapes hsymbol hts (Shape.apply.inj hshape).2.symm).2.2 hprop'
  | .symbol ref ts, .var ref' =>
    obtain ⟨symbol, hsymbol, hts, rfl⟩ := h
    unfold shape at hshape
    exact absurd (constant_of_shapes hsymbol hts (Shape.apply.inj hshape).2).2.2 hprop
  | .symbol ref ts, .symbol ref' ts' =>
    obtain ⟨symbol, hsymbol, -, rfl⟩ := h
    obtain ⟨symbol', hsymbol', -, rfl⟩ := h'
    unfold shape at hshape
    have hname := (Shape.apply.inj hshape).1
    rw [(symbolName_eq hsymbol).1, (symbolName_eq hsymbol').1] at hname
    obtain rfl : ref = ref' := String.ext hname
    rw [hsymbol] at hsymbol'
    rw [Option.some.inj hsymbol']

/-- Operators with one token are the same, or compare things of two types. -/
theorem operator_of_token {ref ref' : String} {operator operator' : OperatorSpec} (h : operatorSpec? ref = some operator)
    (h' : operatorSpec? ref' = some operator') (htoken : operator.leanToken = operator'.leanToken) :
    ref = ref' ∨ ∃ type types type' types', operator.argumentTypes = type :: types ∧
      operator'.argumentTypes = type' :: types' ∧ type ≠ "Prop" ∧ type' ≠ "Prop" ∧ type ≠ type' := by
  have hall : ∀ o ∈ operatorRegistry, ∀ o' ∈ operatorRegistry, o.leanToken = o'.leanToken →
      o.operatorId = o'.operatorId ∨ (o.argumentTypes.headD "Prop" ≠ "Prop" ∧ o'.argumentTypes.headD "Prop" ≠ "Prop" ∧
        o.argumentTypes.headD "Prop" ≠ o'.argumentTypes.headD "Prop") := by decide +kernel
  have hid : operator.operatorId = ref := by simpa using List.find?_some h
  have hid' : operator'.operatorId = ref' := by simpa using List.find?_some h'
  rcases hall operator (List.mem_of_find?_eq_some h) operator' (List.mem_of_find?_eq_some h') htoken with
    heq | ⟨hprop, hprop', hne⟩
  · exact .inl (by rw [← hid, ← hid', heq])
  · right
    rcases htypes : operator.argumentTypes with _ | ⟨type, types⟩
    · exact absurd (by rw [htypes]; rfl) hprop
    rcases htypes' : operator'.argumentTypes with _ | ⟨type', types'⟩
    · exact absurd (by rw [htypes']; rfl) hprop'
    rw [htypes] at hprop hne
    rw [htypes'] at hprop' hne
    exact ⟨type, types, type', types', rfl, rfl, hprop, hprop', hne⟩

/-- A binder and a symbol of one shape are a captured proposition. -/
theorem not_var_symbol {ref ref' : String} {ts : List Tree} {type : String} (h : binderTypes.get? ref = some type)
    (h' : HasType binderTypes (.symbol ref' ts) type) (hshape : shape (.var ref) = shape (.symbol ref' ts)) :
    ref = ref' ∧ ts = [] ∧ ref ∈ constants ∧ binderTypes.get? ref = some "Prop" := by
  obtain ⟨symbol, hsymbol, hts, rfl⟩ := h'
  unfold shape at hshape
  obtain ⟨hname, harguments⟩ := Shape.apply.inj hshape
  rw [(symbolName_eq hsymbol).1] at hname
  obtain rfl : ref = ref' := String.ext hname
  obtain ⟨hnil, hconstant, hprop⟩ := constant_of_shapes hsymbol hts harguments.symm
  rw [hprop] at h
  exact ⟨rfl, hnil, hconstant, h⟩

mutual

/-- A tree that shows no captured proposition is the only one of its shape and type. -/
theorem tree_eq (t t' : Tree) (type : String) (h : HasType binderTypes t type) (h' : HasType binderTypes t' type)
    (hfree : ∀ c ∈ constants, binderTypes.get? c = some "Prop" → ¬ Shows c t) (hshape : shape t = shape t') : t = t' := by
  match t, t' with
  | .var ref, .var ref' =>
    unfold shape at hshape
    rw [String.ext (Shape.apply.inj hshape).1]
  | .var ref, .symbol ref' ts' =>
    obtain ⟨-, -, hconstant, hprop⟩ := not_var_symbol h h' hshape
    exact absurd (.inl .refl) (hfree ref hconstant hprop)
  | .symbol ref ts, .var ref' =>
    obtain ⟨rfl, rfl, hconstant, hprop⟩ := not_var_symbol h' h hshape.symm
    exact absurd (.inr .refl) (hfree ref' hconstant hprop)
  | .symbol ref ts, .symbol ref' ts' =>
    obtain ⟨symbol, hsymbol, hts, -⟩ := h
    obtain ⟨symbol', hsymbol', hts', -⟩ := h'
    unfold shape at hshape
    obtain ⟨hname, harguments⟩ := Shape.apply.inj hshape
    rw [(symbolName_eq hsymbol).1, (symbolName_eq hsymbol').1] at hname
    obtain rfl : ref = ref' := String.ext hname
    obtain rfl := Option.some.inj (hsymbol.symm.trans hsymbol')
    rw [trees_eq ts ts' symbol.argumentTypes hts hts' (fun c hc hp t ht hs => hfree c hc hp (hs.symbol ht)) harguments]
  | .operator ref ts, .operator ref' ts' =>
    obtain ⟨operator, hoperator, hts, -⟩ := h
    obtain ⟨operator', hoperator', hts', -⟩ := h'
    have hsame : operator.leanToken = operator'.leanToken ∧ shapes ts = shapes ts' := by
      rcases shape_operator hoperator hts with ⟨t, rfl, -, hone⟩ | ⟨t₁, t₂, rfl, -, htwo⟩
      · rcases shape_operator hoperator' hts' with ⟨t', rfl, -, hone'⟩ | ⟨t₁', t₂', rfl, -, htwo'⟩
        · rw [hone, hone'] at hshape
          obtain ⟨htoken, hoperand⟩ := Shape.unary.inj hshape
          exact ⟨htoken, congrArg (fun x => [x]) hoperand⟩
        · rw [hone, htwo'] at hshape
          cases hshape
      · rcases shape_operator hoperator' hts' with ⟨t', rfl, -, hone'⟩ | ⟨t₁', t₂', rfl, -, htwo'⟩
        · rw [htwo, hone'] at hshape
          cases hshape
        · rw [htwo, htwo'] at hshape
          obtain ⟨htoken, hleft, hright⟩ := Shape.binary.inj hshape
          refine ⟨htoken, ?_⟩
          simp only [shapes, hleft, hright]
    rcases operator_of_token hoperator hoperator' hsame.1 with rfl | ⟨a, as, a', as', ha, ha', hprop, hprop', hne⟩
    · obtain rfl := Option.some.inj (hoperator.symm.trans hoperator')
      rw [trees_eq ts ts' operator.argumentTypes hts hts' (fun c hc hp t ht hs => hfree c hc hp (hs.operator ht)) hsame.2]
    · rw [ha] at hts
      rw [ha'] at hts'
      match ts, ts' with
      | t :: _, t' :: _ =>
        exact absurd (type_eq_of_shape hts.1 hts'.1 (List.cons.inj hsame.2).1 hprop hprop') hne
  | .var _, .operator _ _ => exact absurd hshape.symm (operator_ne_apply h' _ _)
  | .symbol _ _, .operator _ _ => exact absurd hshape.symm (operator_ne_apply h' _ _)
  | .operator _ _, .var _ => exact absurd hshape (operator_ne_apply h _ _)
  | .operator _ _, .symbol _ _ => exact absurd hshape (operator_ne_apply h _ _)

theorem trees_eq (ts ts' : List Tree) (types : List String) (h : HasTypes binderTypes ts types)
    (h' : HasTypes binderTypes ts' types)
    (hfree : ∀ c ∈ constants, binderTypes.get? c = some "Prop" → ∀ t ∈ ts, ¬ Shows c t)
    (hshapes : shapes ts = shapes ts') : ts = ts' := by
  match ts, ts', types with
  | [], [], [] => rfl
  | t :: ts, t' :: ts', type :: types =>
    obtain ⟨hhead, htail⟩ := List.cons.inj hshapes
    rw [tree_eq t t' type h.1 h'.1 (fun c hc hp => hfree c hc hp t List.mem_cons_self) hhead,
      trees_eq ts ts' types h.2 h'.2 (fun c hc hp t ht => hfree c hc hp t (List.mem_cons_of_mem _ ht)) htail]

end

end Typed

/-! ### The declaration -/

/-- The text of a type has no parenthesis, and two types have two texts. -/
theorem typeName_spec {typeId typeId' : String} (h : typeSpec? typeId ≠ none) (h' : typeSpec? typeId' ≠ none) :
    (typeName typeId).all (· ≠ ')') = true ∧ (typeName typeId = typeName typeId' → typeId = typeId') := by
  have hall : ∀ s ∈ typeRegistry, s.leanName.toList.all (· ≠ ')') = true := by decide
  have hinjective : ∀ s ∈ typeRegistry, ∀ s' ∈ typeRegistry, s.leanName.toList = s'.leanName.toList →
      s.typeId = s'.typeId := by decide +kernel
  obtain ⟨spec, hspec⟩ := Option.ne_none_iff_exists'.mp h
  obtain ⟨spec', hspec'⟩ := Option.ne_none_iff_exists'.mp h'
  have hid : spec.typeId = typeId := by simpa using List.find?_some hspec
  have hid' : spec'.typeId = typeId' := by simpa using List.find?_some hspec'
  have hmem := List.mem_of_find?_eq_some hspec
  unfold typeName
  rw [hspec, hspec']
  refine ⟨hall spec hmem, fun heq => ?_⟩
  rw [← hid, ← hid']
  exact hinjective spec hmem spec' (List.mem_of_find?_eq_some hspec') heq

/-- The binders can be read off the text. -/
theorem binderList_cancel {bs bs' : List Binder} {r r' : List Char} (h : ∀ b ∈ bs, GoodBinder b)
    (h' : ∀ b ∈ bs', GoodBinder b) (heq : binderList bs ++ ' ' :: ':' :: r = binderList bs' ++ ' ' :: ':' :: r') :
    bs = bs' ∧ r = r' := by
  induction bs generalizing bs' with
  | nil =>
    cases bs' with
    | nil =>
      rw [binderList, List.nil_append, List.nil_append] at heq
      exact ⟨rfl, (List.cons.inj (List.cons.inj heq).2).2⟩
    | cons b' bs' =>
      have hcolon := (List.cons.inj (List.cons.inj heq).2).1
      exact absurd hcolon (by decide)
  | cons b bs ih =>
    cases bs' with
    | nil =>
      have hcolon := (List.cons.inj (List.cons.inj heq).2).1
      exact absurd hcolon (by decide)
    | cons b' bs' =>
      rw [List.forall_mem_cons] at h h'
      simp only [binderList, List.cons_append, List.append_assoc, List.cons.injEq, true_and] at heq
      have hblank : ∀ rest, Readable.Breaks isWord (' ' :: rest) := by
        intro rest c hc
        obtain rfl := Option.some.inj hc
        decide
      obtain ⟨hname, heq⟩ := name_cancel (word_of_identifier h.1.1).2 (word_of_identifier h'.1.1).2 (hblank _) (hblank _) heq
      simp only [List.cons.injEq, true_and] at heq
      have hparen : ∀ rest, Readable.Breaks (fun c => decide (c ≠ ')')) (')' :: rest) := by
        intro rest c hc
        obtain rfl := Option.some.inj hc
        decide
      obtain ⟨htype, heq⟩ := name_cancel (typeName_spec h.1.2 h'.1.2).1 (typeName_spec h'.1.2 h.1.2).1 (hparen _) (hparen _)
        heq
      obtain ⟨rfl, hrest⟩ := ih h.2 h'.2 (List.cons.inj heq).2
      have hbinder : b = b' := by
        have hid : b.binderId = b'.binderId := String.ext hname
        have htypeId := (typeName_spec h.1.2 h'.1.2).2 htype
        cases b
        cases b'
        simp only at hid htypeId
        rw [hid, htypeId]
      exact ⟨by rw [hbinder], hrest⟩

/-- The shapes of the roots can be read off the text. -/
theorem rootList_injective {xs ys : List Shape} (hxs : AllLegible isWord xs) (hys : AllLegible isWord ys) (hx : xs ≠ [])
    (hy : ys ≠ []) (h : rootList (xs.map text) = rootList (ys.map text)) : xs = ys := by
  have hclose := ends_close delimited_word
  induction xs generalizing ys with
  | nil => exact absurd rfl hx
  | cons x xs ih =>
    cases ys with
    | nil => exact absurd rfl hy
    | cons y ys =>
      cases xs with
      | nil =>
        cases ys with
        | nil =>
          have htext := (List.cons.inj h).2
          rw [(text_cancel delimited_word x y _ _ hxs.1 hys.1 (hclose _) (hclose _) htext).1]
        | cons y' ys =>
          have htext := (List.cons.inj h).2
          have hend := (text_cancel delimited_word x y _ _ hxs.1 hys.1 (hclose _) (hclose _) htext).2
          cases hend
      | cons x' xs =>
        cases ys with
        | nil =>
          have htext := (List.cons.inj h).2
          have hend := (text_cancel delimited_word x y _ _ hxs.1 hys.1 (hclose _) (hclose _) htext).2
          cases hend
        | cons y' ys =>
          have htext := (List.cons.inj h).2
          obtain ⟨rfl, hend⟩ := text_cancel delimited_word x y _ _ hxs.1 hys.1 (hclose _) (hclose _) htext
          have hrest : rootList ((x' :: xs).map text) = rootList ((y' :: ys).map text) := by
            simpa using hend
          rw [ih hxs.2 hys.2 (List.cons_ne_nil _ _) (List.cons_ne_nil _ _) hrest]

/-! ### What shows a name -/

/-- A node that refers to a name as a variable or a symbol. -/
def RefersTo (c : String) (n : ExprNode) : Prop := n.ref = c ∧ (n.kind = "var" ∨ n.kind = "symbol")

/-- An unfolded tree is that of a node. -/
theorem unfold_eq_some {nodeMap : Dict String ExprNode} {levels : Nat} {id : String} {t : Tree}
    (h : unfold nodeMap levels id = some t) : ∃ levels' n ts, nodeMap.get? id = some n ∧
      n.arguments.mapM (unfold nodeMap levels') = some ts ∧ treeOf n ts = t := by
  cases levels with
  | zero => cases h
  | succ levels =>
    unfold MathIr.unfold at h
    obtain ⟨n, hn, h⟩ := Option.bind_eq_some_iff.mp h
    obtain ⟨ts, hts, h⟩ := Option.bind_eq_some_iff.mp h
    exact ⟨levels, n, ts, hn, hts, Option.some.inj h⟩

/-- Part of the tree of a node is the tree of a node. -/
theorem unfold_within {nodeMap : Dict String ExprNode} {t t' : Tree} (hwithin : Within t' t) {levels : Nat} {id : String}
    (h : unfold nodeMap levels id = some t) : ∃ levels' id', unfold nodeMap levels' id' = some t' := by
  induction hwithin generalizing levels id with
  | refl => exact ⟨levels, id, h⟩
  | symbol hmem _ ih =>
    obtain ⟨levels', n, ts, -, hts, htree⟩ := unfold_eq_some h
    unfold treeOf at htree
    split at htree
    · cases htree
    · split at htree
      · obtain rfl := (Tree.symbol.inj htree).2
        obtain ⟨id', -, hid'⟩ := mem_of_mapM hts hmem
        exact ih hid'
      · cases htree
  | operator hmem _ ih =>
    obtain ⟨levels', n, ts, -, hts, htree⟩ := unfold_eq_some h
    unfold treeOf at htree
    split at htree
    · cases htree
    · split at htree
      · cases htree
      · obtain rfl := (Tree.operator.inj htree).2
        obtain ⟨id', -, hid'⟩ := mem_of_mapM hts hmem
        exact ih hid'

/-- A name that stands alone in a tree is the reference of a node of its kind. -/
theorem node_of_leaf {nodeMap : Dict String ExprNode} {c kind : String} (hkind : kind = "var" ∨ kind = "symbol")
    {levels : Nat} {id : String} {t : Tree} (h : unfold nodeMap levels id = some t) (hwithin : Within (leaf kind c) t) :
    ∃ id' n, nodeMap.get? id' = some n ∧ n.kind = kind ∧ n.ref = c := by
  obtain ⟨levels', id', hleaf⟩ := unfold_within hwithin h
  obtain ⟨-, n, ts, hn, -, htree⟩ := unfold_eq_some hleaf
  refine ⟨id', n, hn, ?_⟩
  unfold treeOf at htree
  rcases hkind with rfl | rfl
  · split at htree
    · rename_i hvar
      exact ⟨hvar, Tree.var.inj htree⟩
    · split at htree
      · cases htree
      · cases htree
  · split at htree
    · cases htree
    · split at htree
      · rename_i hsymbol
        exact ⟨hsymbol, (Tree.symbol.inj htree).1⟩
      · cases htree

theorem node_of_shows {nodeMap : Dict String ExprNode} {c : String} {levels : Nat} {id : String} {t : Tree}
    (h : unfold nodeMap levels id = some t) (hshows : Shows c t) : ∃ id' n, nodeMap.get? id' = some n ∧ RefersTo c n := by
  rcases hshows with hvar | hsymbol
  · obtain ⟨id', n, hn, hkind, href⟩ := node_of_leaf (.inl rfl) h hvar
    exact ⟨id', n, hn, href, .inl hkind⟩
  · obtain ⟨id', n, hn, hkind, href⟩ := node_of_leaf (.inr rfl) h hsymbol
    exact ⟨id', n, hn, href, .inr hkind⟩

/-- What a node reaches is part of its tree. -/
theorem within_of_reaches {nodeMap : Dict String ExprNode}
    (hvar : ∀ id n, nodeMap.get? id = some n → n.kind = "var" → n.arguments = []) {id id' : String}
    (h : Reaches nodeMap id id') {levels : Nat} {t : Tree} (hid : unfold nodeMap levels id = some t) :
    ∃ levels' t', unfold nodeMap levels' id' = some t' ∧ Within t' t := by
  induction h using Relation.ReflTransGen.head_induction_on generalizing levels t with
  | refl => exact ⟨levels, t, hid, .refl⟩
  | @head id b hstep _ ih =>
    obtain ⟨n, hn, hb⟩ := hstep
    obtain ⟨levels', n', ts, hn', hts, rfl⟩ := unfold_eq_some hid
    obtain rfl := Option.some.inj (hn.symm.trans hn')
    have hkind : ¬ n.kind = "var" := by
      intro hkind
      rw [hvar id n hn hkind] at hb
      exact absurd hb List.not_mem_nil
    have hchild : unfold nodeMap levels' b ∈ ts.map some := by
      rw [← map_of_mapM hts]
      exact List.mem_map_of_mem hb
    obtain ⟨t, ht, hsome⟩ := List.mem_map.mp hchild
    obtain ⟨levels'', t', ht', hwithin⟩ := ih hsome.symm
    refine ⟨levels'', t', ht', ?_⟩
    unfold treeOf
    rw [if_neg hkind]
    split
    · exact .symbol ht hwithin
    · exact .operator ht hwithin

/-- A proposition that can be a binder or the symbol, and that a node refers to. -/
def Captured (m : MathIR) (c : String) : Prop := ⟨c, "Prop"⟩ ∈ m.binders ∧ ∃ n ∈ m.nodes, RefersTo c n

theorem shapes_ne_nil {m : MathIR} {binderTypes : Dict String String} {ts : List Tree}
    (h : HasTypes binderTypes ts (m.roots.map fun _ => "Prop")) : shapes ts ≠ [] := by
  have hlength := h.length
  rw [List.length_map, MathIR.roots, List.length_append, List.length_singleton] at hlength
  rw [shapes_eq_map]
  intro hnil
  rw [List.map_eq_nil_iff.mp hnil, List.length_nil] at hlength
  omega

theorem trees_of_roots {m m' : MathIR} {f f' : String → Option Tree} (h : m.roots.map f = m'.roots.map f') :
    m.premises.map f = m'.premises.map f' ∧ f m.conclusion = f' m'.conclusion := by
  unfold MathIR.roots at h
  rw [List.map_append, List.map_append] at h
  obtain ⟨hpremises, hconclusion⟩ := List.append_inj' h rfl
  exact ⟨hpremises, (List.cons.inj hconclusion).1⟩

/-- An accepted IR without a captured proposition is determined by its declaration. -/
theorem determined {m m' : MathIR} {nodeTypes nodeTypes' : NodeTypes} (h : Accepted m nodeTypes)
    (h' : Accepted m' nodeTypes') (hid : m'.theoremId = m.theoremId) (hcore : declarationCore m' = declarationCore m)
    (hfree : ∀ c ∈ constants, ¬ Captured m c) :
    m'.binders = m.binders ∧ m'.premiseTrees = m.premiseTrees ∧ m'.conclusionTree = m.conclusionTree := by
  obtain ⟨ts, hunfold, htypes, -, hdeclaration⟩ := h.declarationCore
  obtain ⟨ts', hunfold', htypes', -, hdeclaration'⟩ := h'.declarationCore
  rw [hdeclaration, hdeclaration', hid] at hcore
  obtain ⟨hbinders, hroots⟩ := binderList_cancel h'.binders h.binders (List.append_cancel_left (Option.some.inj hcore))
  -- both lists of trees are typed by the same binders
  have hbinderTypes : m'.binderTypes = m.binderTypes := by
    unfold MathIR.binderTypes
    rw [hbinders]
  rw [hbinderTypes] at htypes'
  have hidentifiers : ∀ id type, m.binderTypes.get? id = some type → isIdentifier id = true :=
    fun id type hget => (h.binders _ ((binderTypes_get? h.distinctBinders).mp hget)).1
  have htexts : ∀ ts : List Tree, (ts.map fun t => text (shape t)) = (shapes ts).map text := by
    intro ts
    rw [shapes_eq_map, List.map_map]
    rfl
  rw [htexts, htexts] at hroots
  have hshapes : shapes ts' = shapes ts :=
    rootList_injective (legible_shapes hidentifiers ts' _ htypes') (legible_shapes hidentifiers ts _ htypes)
      (shapes_ne_nil htypes') (shapes_ne_nil htypes) (List.cons.inj hroots).2
  -- and as many of them are propositions
  have hroot : (m'.roots.map fun _ => "Prop") = m.roots.map fun _ => "Prop" := by
    have hlength := congrArg List.length hshapes
    rw [shapes_eq_map, shapes_eq_map, List.length_map, List.length_map, htypes.length, htypes'.length, List.length_map,
      List.length_map] at hlength
    rw [List.map_const', List.map_const', hlength]
  rw [hroot] at htypes'
  have htrees : ts = ts' := by
    refine trees_eq ts ts' _ htypes htypes' (fun c hc hprop t ht hshows => hfree c hc ?_) hshapes.symm
    obtain ⟨root, -, hrootTree⟩ := mem_of_mapM hunfold ht
    obtain ⟨id', n, hn, hrefers⟩ := node_of_shows hrootTree hshows
    exact ⟨(binderTypes_get? h.distinctBinders).mp hprop, n, ((nodeMap_get? h.distinctNodes).mp hn).1, hrefers⟩
  subst htrees
  refine ⟨hbinders, trees_of_roots ?_⟩
  rw [map_of_mapM hunfold, map_of_mapM hunfold']

/-! ### The captured name switched -/

/-- A node that refers to the name becomes one of another kind. -/
def switched (c kind kind' : String) (n : ExprNode) : ExprNode :=
  if n.kind = kind ∧ n.ref = c then { n with kind := kind' } else n

/-- The IR with the nodes switched. -/
def MathIR.switch (m : MathIR) (c kind kind' : String) : MathIR := { m with nodes := m.nodes.map (switched c kind kind') }

/-- Variables become symbols, or symbols variables. -/
def Opposite (kind kind' : String) : Prop := (kind = "var" ∧ kind' = "symbol") ∨ (kind = "symbol" ∧ kind' = "var")

@[simp] theorem switched_nodeId (c kind kind' : String) (n : ExprNode) : (switched c kind kind' n).nodeId = n.nodeId := by
  unfold switched
  split <;> rfl

@[simp] theorem switched_arguments (c kind kind' : String) (n : ExprNode) :
    (switched c kind kind' n).arguments = n.arguments := by
  unfold switched
  split <;> rfl

theorem switch_nodeMap {m : MathIR} (h : (m.nodes.map (·.nodeId)).Nodup) (c kind kind' id : String) :
    (m.switch c kind kind').nodeMap.get? id = (m.nodeMap.get? id).map (switched c kind kind') := by
  have h' : ((m.switch c kind kind').nodes.map (·.nodeId)).Nodup := by
    unfold MathIR.switch
    rw [List.map_map]
    simpa [Function.comp_def] using h
  apply Option.ext
  intro n
  rw [nodeMap_get? h', Option.map_eq_some_iff]
  unfold MathIR.switch
  rw [List.mem_map]
  constructor
  · rintro ⟨⟨n', hn', rfl⟩, hid⟩
    exact ⟨n', (nodeMap_get? h).mpr ⟨hn', by simpa using hid⟩, rfl⟩
  · rintro ⟨n', hn', rfl⟩
    obtain ⟨hmem, hid⟩ := (nodeMap_get? h).mp hn'
    exact ⟨⟨n', hmem, rfl⟩, by simpa using hid⟩

/-- A constant is a registered proposition without arguments. -/
theorem constant_spec {c : String} (hc : c ∈ constants) :
    ∃ symbol, symbolSpec? c = some symbol ∧ symbol.argumentTypes = [] ∧ symbol.resultType = "Prop" ∧ symbol.leanName = c := by
  simp only [constants, List.mem_cons, List.not_mem_nil, or_false] at hc
  rcases hc with rfl | rfl
  · exact ⟨_, rfl, rfl, rfl, rfl⟩
  · exact ⟨_, rfl, rfl, rfl, rfl⟩

/-- An accepted node that refers to a constant has no arguments. -/
theorem Accepted.arguments_nil {m : MathIR} {nodeTypes : NodeTypes} (h : Accepted m nodeTypes) {c : String}
    (hc : c ∈ constants) {n : ExprNode} (hn : n ∈ m.nodes) (hrefers : RefersTo c n) : n.arguments = [] := by
  obtain ⟨type, htype⟩ := h.typed n hn
  obtain ⟨n', hn', hnode⟩ := h.ordered.nodeType htype
  obtain rfl := Option.some.inj (((nodeMap_get? h.distinctNodes).mpr ⟨hn, rfl⟩).symm.trans hn')
  rcases hnode with ⟨-, hnil, -⟩ | ⟨hkind, symbol, hsymbol, hargs, -⟩ | ⟨hkind, -⟩
  · exact hnil
  · obtain ⟨symbol', hsymbol', htypes, -⟩ := constant_spec hc
    rw [hrefers.1, hsymbol'] at hsymbol
    rw [← Option.some.inj hsymbol, htypes] at hargs
    exact List.map_eq_nil_iff.mp hargs
  · rcases hrefers.2 with hvar | hsymbol
    · rw [hkind] at hvar
      exact absurd hvar (by decide)
    · rw [hkind] at hsymbol
      exact absurd hsymbol (by decide)

section Switch

variable {binderTypes : Dict String String} {nodeMap nodeMap' : Dict String ExprNode} {c kind kind' : String}

/-- A node that refers to a captured constant is a proposition, of whichever kind it is. -/
theorem inferNode_leaf (hc : c ∈ constants) (hbinder : binderTypes.get? c = some "Prop") {n : ExprNode}
    (hrefers : RefersTo c n) (hnil : n.arguments = [])
    (child : NodeTypes → String → Except TypedIRError (String × NodeTypes)) (nodeTypes : NodeTypes) :
    inferNode binderTypes child nodeTypes n = .ok ("Prop", nodeTypes) := by
  obtain ⟨symbol, hsymbol, htypes, hprop, -⟩ := constant_spec hc
  obtain ⟨href, hkind⟩ := hrefers
  unfold inferNode
  rcases hkind with hvar | hsymbolKind
  · rw [if_pos hvar, if_pos hnil, href, hbinder]
  · rw [if_neg (by rw [hsymbolKind]; decide), if_pos hsymbolKind, href, hsymbol, hnil]
    refine bind_eq_ok.mpr ⟨([], nodeTypes), rfl, ?_⟩
    rw [if_neg (by rw [htypes]; exact fun h => h rfl), hprop]

/-- What is switched refers to the constant before and after. -/
theorem refersTo_of_switched (hkinds : Opposite kind kind') {n : ExprNode} (hn : n.kind = kind ∧ n.ref = c) :
    RefersTo c n ∧ RefersTo c (switched c kind kind' n) := by
  unfold switched
  rw [if_pos hn]
  rcases hkinds with ⟨rfl, rfl⟩ | ⟨rfl, rfl⟩
  · exact ⟨⟨hn.2, .inl hn.1⟩, hn.2, .inr rfl⟩
  · exact ⟨⟨hn.2, .inr hn.1⟩, hn.2, .inl rfl⟩

theorem inferNode_switched (hkinds : Opposite kind kind') (hc : c ∈ constants)
    (hbinder : binderTypes.get? c = some "Prop") {n : ExprNode} (hnil : RefersTo c n → n.arguments = [])
    (child : NodeTypes → String → Except TypedIRError (String × NodeTypes)) (nodeTypes : NodeTypes) :
    inferNode binderTypes child nodeTypes (switched c kind kind' n) = inferNode binderTypes child nodeTypes n := by
  by_cases hn : n.kind = kind ∧ n.ref = c
  · obtain ⟨hbefore, hafter⟩ := refersTo_of_switched hkinds hn
    rw [inferNode_leaf hc hbinder hbefore (hnil hbefore),
      inferNode_leaf hc hbinder hafter (by rw [switched_arguments]; exact hnil hbefore)]
  · rw [switched, if_neg hn]

/-- The search finds the same types. -/
theorem infer_switched (hkinds : Opposite kind kind') (hc : c ∈ constants) (hbinder : binderTypes.get? c = some "Prop")
    (hmap : ∀ id, nodeMap'.get? id = (nodeMap.get? id).map (switched c kind kind'))
    (hnil : ∀ id n, nodeMap.get? id = some n → RefersTo c n → n.arguments = []) (levels : Nat) :
    infer binderTypes nodeMap' levels = infer binderTypes nodeMap levels := by
  induction levels with
  | zero => rfl
  | succ levels ih =>
    funext visiting nodeTypes id
    unfold infer
    rw [hmap, ih]
    rcases hn : nodeMap.get? id with _ | n
    · rfl
    · dsimp only [Option.map_some]
      rw [inferNode_switched hkinds hc hbinder (hnil id n hn)]

/-- A node that refers to a constant is rendered as its name, of whichever kind it is. -/
theorem renderExpr_leaf (hc : c ∈ constants) {id : String} {n : ExprNode} (hn : nodeMap.get? id = some n)
    (hrefers : RefersTo c n) (hnil : n.arguments = []) (levels : Nat) :
    renderExpr nodeMap (levels + 1) id = some c.toList := by
  obtain ⟨symbol, hsymbol, -, -, hname⟩ := constant_spec hc
  obtain ⟨href, hkind⟩ := hrefers
  unfold renderExpr
  rw [hn]
  rcases hkind with hvar | hsymbolKind
  · simp only [Option.bind_eq_bind, Option.bind_some, if_pos hvar, href]
  · have hvar : ¬ n.kind = "var" := by rw [hsymbolKind]; decide
    simp only [Option.bind_eq_bind, Option.bind_some, if_neg hvar, if_pos hsymbolKind, href, hsymbol, hnil, hname]
    simp

/-- The nodes have the same texts. -/
theorem renderExpr_switched (hkinds : Opposite kind kind') (hc : c ∈ constants)
    (hmap : ∀ id, nodeMap'.get? id = (nodeMap.get? id).map (switched c kind kind'))
    (hnil : ∀ id n, nodeMap.get? id = some n → RefersTo c n → n.arguments = []) (levels : Nat) :
    renderExpr nodeMap' levels = renderExpr nodeMap levels := by
  induction levels with
  | zero => rfl
  | succ levels ih =>
    funext id
    by_cases hleaf : ∃ n, nodeMap.get? id = some n ∧ n.kind = kind ∧ n.ref = c
    · obtain ⟨n, hn, hswitch⟩ := hleaf
      obtain ⟨hbefore, hafter⟩ := refersTo_of_switched hkinds hswitch
      have hn' : nodeMap'.get? id = some (switched c kind kind' n) := by rw [hmap, hn, Option.map_some]
      rw [renderExpr_leaf hc hn hbefore (hnil id n hn hbefore),
        renderExpr_leaf hc hn' hafter (by rw [switched_arguments]; exact hnil id n hn hbefore)]
    · have hsame : nodeMap'.get? id = nodeMap.get? id := by
        rw [hmap]
        rcases hn : nodeMap.get? id with _ | n
        · rfl
        · rw [Option.map_some, switched, if_neg fun hswitch => hleaf ⟨n, hn, hswitch⟩]
      unfold renderExpr
      rw [hsame, ih]

end Switch

/-- The IR with a captured constant switched is accepted, and has the same declaration. -/
theorem switch_accepted {m : MathIR} {v : ValidatedMathIR} (h : validateMathIr m = .ok v) {c kind kind' : String}
    (hc : c ∈ constants) (hbinder : ⟨c, "Prop"⟩ ∈ m.binders) (hkinds : Opposite kind kind') :
    ∃ v', validateMathIr (m.switch c kind kind') = .ok v' ∧ declarationCore (m.switch c kind kind') = declarationCore m := by
  have haccepted := accepted_of_validate h
  obtain ⟨hschema, hregistry, hid, hbinders, hnodes, hconclusion, nodeTypes, hroots, hreached, -⟩ := validate_eq_ok.mp h
  have hmap := switch_nodeMap haccepted.distinctNodes c kind kind'
  have hprop : m.binderTypes.get? c = some "Prop" := (binderTypes_get? haccepted.distinctBinders).mpr hbinder
  have hnil : ∀ id n, m.nodeMap.get? id = some n → RefersTo c n → n.arguments = [] :=
    fun id n hn hrefers => haccepted.arguments_nil hc ((nodeMap_get? haccepted.distinctNodes).mp hn).1 hrefers
  have hlevels : (m.switch c kind kind').levels = m.levels := by
    unfold MathIR.levels MathIR.switch
    rw [List.length_map]
  have hids : (m.switch c kind kind').nodes.map (·.nodeId) = m.nodes.map (·.nodeId) := by
    unfold MathIR.switch
    rw [List.map_map]
    exact List.map_congr_left fun n _ => switched_nodeId c kind kind' n
  have hdistinct : ((m.switch c kind kind').nodes.map (·.nodeId)).Nodup := by
    rw [hids]
    exact haccepted.distinctNodes
  have hkeys : (m.switch c kind kind').nodeMap.keys = m.nodeMap.keys := by
    unfold Dict.keys
    rw [nodeMap_entries hdistinct, nodeMap_entries haccepted.distinctNodes, List.map_map, List.map_map]
    exact hids
  have hinfer : infer m.binderTypes (m.switch c kind kind').nodeMap m.levels = infer m.binderTypes m.nodeMap m.levels :=
    infer_switched hkinds hc hprop hmap hnil m.levels
  have hrender := renderExpr_switched hkinds hc hmap hnil m.levels
  refine ⟨_, validate_eq_ok.mpr ⟨hschema, hregistry, hid, hbinders, ?_, hconclusion, nodeTypes, ?_, ?_, rfl⟩, ?_⟩
  · refine checkNodes_eq_ok.mpr ⟨fun n hn => ?_, hdistinct, rfl⟩
    obtain ⟨n', hn', rfl⟩ := List.mem_map.mp hn
    rw [switched_nodeId]
    exact ⟨haccepted.nodeIds n' hn', rfl⟩
  · rw [hlevels]
    have hvisiting : infer m.binderTypes (m.switch c kind kind').nodeMap m.levels [] =
        infer m.binderTypes m.nodeMap m.levels [] := by rw [hinfer]
    rw [← hroots, ← hvisiting]
    rfl
  · rw [hkeys]
    exact hreached
  · unfold declarationCore propositionText
    rw [hlevels, hrender]
    rfl

/-! ### The declaration and the meaning -/

/-- Nothing that is switched still refers to the constant as before. -/
theorem switched_ne {c kind kind' : String} (hkinds : Opposite kind kind') (n : ExprNode) :
    ¬ ((switched c kind kind' n).kind = kind ∧ (switched c kind kind' n).ref = c) := by
  unfold switched
  split
  · rintro ⟨hkind, -⟩
    dsimp only at hkind
    rcases hkinds with ⟨rfl, rfl⟩ | ⟨rfl, rfl⟩
    · exact absurd hkind (by decide)
    · exact absurd hkind (by decide)
  · rename_i hother
    exact hother

/-- The tree of a node of an accepted IR is part of the tree of a root. -/
theorem Accepted.node_within {m : MathIR} {nodeTypes : NodeTypes} (h : Accepted m nodeTypes) {n : ExprNode}
    (hn : n ∈ m.nodes) : ∃ root ∈ m.roots, ∃ t, MathIr.unfold m.nodeMap m.levels root = some t ∧
      ∃ ts, ts.length = n.arguments.length ∧ Within (treeOf n ts) t := by
  obtain ⟨root, hroot, hreach⟩ := h.reached n hn
  obtain ⟨ts, hunfold, -, -⟩ := h.trees
  have htree : MathIr.unfold m.nodeMap m.levels root ∈ ts.map some := by
    rw [← map_of_mapM hunfold]
    exact List.mem_map_of_mem hroot
  obtain ⟨t, -, ht⟩ := List.mem_map.mp htree
  have hvar : ∀ id n, m.nodeMap.get? id = some n → n.kind = "var" → n.arguments = [] := by
    intro id n hn hkind
    obtain ⟨hmem, rfl⟩ := (nodeMap_get? h.distinctNodes).mp hn
    obtain ⟨type, htype⟩ := h.typed n hmem
    obtain ⟨n', hn', hnode⟩ := h.ordered.nodeType htype
    obtain rfl := Option.some.inj (hn.symm.trans hn')
    rcases hnode with ⟨-, hnil, -⟩ | ⟨hsymbol, -⟩ | ⟨hoperator, -⟩
    · exact hnil
    · rw [hkind] at hsymbol
      exact absurd hsymbol (by decide)
    · rw [hkind] at hoperator
      exact absurd hoperator (by decide)
  obtain ⟨levels, t', ht', hwithin⟩ := within_of_reaches hvar hreach ht.symm
  obtain ⟨levels', n', ts', hn', hts', rfl⟩ := unfold_eq_some ht'
  obtain rfl := Option.some.inj (((nodeMap_get? h.distinctNodes).mpr ⟨hn, rfl⟩).symm.trans hn')
  have hlength := congrArg List.length (map_of_mapM hts')
  rw [List.length_map, List.length_map] at hlength
  exact ⟨root, hroot, t, ht.symm, ts', hlength.symm, hwithin⟩

/-- The declaration of the IR is that of no IR with other binders or other trees. -/
def Determines (m : MathIR) (v : ValidatedMathIR) : Prop :=
  ∀ m' v', validateMathIr m' = .ok v' → m'.theoremId = m.theoremId →
    (buildLeanDeclaration v').map (·.declarationSource) = (buildLeanDeclaration v).map (·.declarationSource) →
    m'.binders = m.binders ∧ m'.premiseTrees = m.premiseTrees ∧ m'.conclusionTree = m.conclusionTree

/-- No symbol of the trees has the name of a binder. -/
def Uncaptured (m : MathIR) : Prop :=
  ∀ root ∈ m.roots, ∀ t, MathIr.unfold m.nodeMap m.levels root = some t → ∀ ref arguments,
    Within (.symbol ref arguments) t → ref ∉ m.binders.map (·.binderId)

/-- The source of the declaration is that of its core. -/
theorem declarationSource_eq {m : MathIR} {v : ValidatedMathIR} (h : validateMathIr m = .ok v) :
    (buildLeanDeclaration v).map (·.declarationSource) = (declarationCore m).map fun core => core ++ " := by".toList := by
  obtain ⟨ts, -, -, hproposition, hcore⟩ := (accepted_of_validate h).declarationCore
  obtain ⟨-, -, -, -, -, -, nodeTypes, -, -, rfl⟩ := validate_eq_ok.mp h
  unfold buildLeanDeclaration
  rw [hproposition, hcore]
  rfl

theorem not_captured_of_determines {m : MathIR} {v : ValidatedMathIR} (h : validateMathIr m = .ok v)
    (hdetermines : Determines m v) {c : String} (hc : c ∈ constants) : ¬ Captured m c := by
  rintro ⟨hbinder, n, hn, href, hkind⟩
  have haccepted := accepted_of_validate h
  obtain ⟨kind', hkinds⟩ : ∃ kind', Opposite n.kind kind' := by
    rcases hkind with hvar | hsymbol
    · exact ⟨"symbol", .inl ⟨hvar, rfl⟩⟩
    · exact ⟨"var", .inr ⟨hsymbol, rfl⟩⟩
  obtain ⟨v', hv', hcore⟩ := switch_accepted h hc hbinder hkinds
  obtain ⟨-, hpremises, hconclusion⟩ := hdetermines _ v' hv' rfl
    (by rw [declarationSource_eq hv', declarationSource_eq h, hcore])
  -- the name stands alone in the tree of a root, and so in the switched tree
  obtain ⟨root, hroot, t, ht, ts, hlength, hwithin⟩ := haccepted.node_within hn
  rw [haccepted.arguments_nil hc hn ⟨href, hkind⟩, List.length_nil, List.length_eq_zero_iff] at hlength
  subst hlength
  have hleaf : treeOf n [] = leaf n.kind c := by
    unfold treeOf leaf
    rw [href]
    rcases hkind with hvar | hsymbol
    · rw [if_pos hvar, if_pos hvar]
    · have hvar : ¬ n.kind = "var" := by rw [hsymbol]; decide
      rw [if_neg hvar, if_neg hvar, if_pos hsymbol]
  rw [hleaf] at hwithin
  have hroots : ∀ root ∈ m.roots, MathIr.unfold (m.switch c n.kind kind').nodeMap (m.switch c n.kind kind').levels root =
      MathIr.unfold m.nodeMap m.levels root := by
    intro root hroot
    rcases List.mem_append.mp hroot with hpremise | hlast
    · exact List.map_inj_left.mp hpremises root hpremise
    · rw [List.mem_singleton.mp hlast]
      exact hconclusion
  obtain ⟨id, n', hn', hsame⟩ := node_of_leaf hkind ((hroots root hroot).trans ht) hwithin
  rw [switch_nodeMap haccepted.distinctNodes] at hn'
  obtain ⟨n'', -, rfl⟩ := Option.map_eq_some_iff.mp hn'
  exact switched_ne hkinds n'' hsame

/-- A theorem about one proposition. -/
def identity (name : String) (kind : String) : MathIR where
  theoremId := "t"
  binders := [⟨name, "Prop"⟩]
  nodes := [{ nodeId := "n", kind := kind, ref := name }]
  premises := ["n"]
  conclusion := "n"

theorem validate_of_isOk {m : MathIR} (h : (validateMathIr m).isOk = true) : ∃ v, validateMathIr m = .ok v := by
  rcases hresult : validateMathIr m with e | v
  · rw [hresult] at h
    cases h
  · exact ⟨v, rfl⟩

/-- An accepted IR has a compilation.  The check accepts it and, up to the fields that it does not read, no other one; of
the compilations of accepted IRs of the name it accepts none with other binders or trees, if no proposition is captured. -/
theorem verify_iff {m : MathIR} {v : ValidatedMathIR} (h : validateMathIr m = .ok v) :
    ∃ built, buildLeanDeclaration v = some built ∧
      (∀ c, verifyPropositionEquivalence v c = some (.ok ()) ↔
        c = { built with theoremId := c.theoremId, importsHash := c.importsHash }) ∧
      ((∀ c ∈ constants, ¬ Captured m c) → ∀ m' v' c, validateMathIr m' = .ok v' → m'.theoremId = m.theoremId →
        buildLeanDeclaration v' = some c → verifyPropositionEquivalence v c = some (.ok ()) →
        m'.binders = m.binders ∧ m'.premiseTrees = m.premiseTrees ∧ m'.conclusionTree = m.conclusionTree) := by
  have haccepted := accepted_of_validate h
  have hsource := declarationSource_eq h
  obtain ⟨ts, -, -, hproposition, hcore⟩ := haccepted.declarationCore
  obtain ⟨built, hbuilt⟩ : ∃ built, buildLeanDeclaration v = some built := by
    rw [hcore] at hsource
    obtain ⟨built, hbuilt, -⟩ := Option.map_eq_some_iff.mp hsource
    exact ⟨built, hbuilt⟩
  have hhash : built.mathIrHash = v.contentHash := by
    unfold buildLeanDeclaration at hbuilt
    obtain ⟨core, -, hbuilt⟩ := Option.bind_eq_some_iff.mp hbuilt
    obtain ⟨proposition, -, hbuilt⟩ := Option.bind_eq_some_iff.mp hbuilt
    rw [← Option.some.inj hbuilt]
  have hverify : ∀ c, verifyPropositionEquivalence v c = some (.ok ()) ↔
      c = { built with theoremId := c.theoremId, importsHash := c.importsHash } := by
    intro c
    unfold verifyPropositionEquivalence
    rw [hbuilt, ← hhash]
    cases c
    cases built
    simp only [Option.bind_eq_bind, Option.bind_some]
    grind
  refine ⟨built, hbuilt, hverify, fun hfree m' v' c h' hid hc hok => ?_⟩
  have hsame : c.declarationSource = built.declarationSource := by rw [(hverify c).mp hok]
  have hsource' := declarationSource_eq h'
  rw [hc, Option.map_some, hsame] at hsource'
  rw [hbuilt, Option.map_some, hsource'] at hsource
  exact determined haccepted (accepted_of_validate h') hid
    (Option.map_injective (fun _ _ heq => List.append_cancel_right heq) hsource) hfree

theorem verify_identity : ∃ v built, buildLeanDeclaration v = some built ∧
    verifyPropositionEquivalence v built = some (.ok ()) := by
  obtain ⟨v, hv⟩ := validate_of_isOk (m := identity "x" "var") (by decide +kernel)
  obtain ⟨built, hbuilt, hverify, -⟩ := verify_iff hv
  exact ⟨v, built, hbuilt, (hverify built).mpr rfl⟩

end MathIr

end KakeyaEngine
