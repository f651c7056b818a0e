import KakeyaEngine.Lib.PyJson
import KakeyaEngine.LeanGate.Contract

/-!
# The typed mathematical IR

A `MathIR` is a graph of expression nodes over the registered types, symbols and operators.  `validateMathIr` infers the
type of every node that is reached from the premises and the conclusion, depth first and with a table of the types it has
found; `buildLeanDeclaration` renders a validated IR as a Lean theorem.
-/

namespace KakeyaEngine

namespace MathIr

open LeanGate (hexdigest)

def mathIrVersion : Int := 3

def registryVersion : Int := 3

/-! ### Errors -/

inductive GateStatus
  | passed | adapterBlocked | integrationBlocked | semanticBackjump | mathematicalRejection
deriving DecidableEq

structure TypedIRError where
  code : String
  message : String
  nodeId : String := ""
  owner : String := "decomposer"
  status : GateStatus := .integrationBlocked
deriving DecidableEq

/-- An error that sends the decomposer back. -/
def backjump (code message nodeId : String) : TypedIRError := ⟨code, message, nodeId, "decomposer", .semanticBackjump⟩

/-- The search has run out of levels; `infer_enough` rules it out. -/
def outOfLevels : TypedIRError := ⟨"", "", "", "", .integrationBlocked⟩

/-! ### Registries -/

structure TypeSpec where
  typeId : String
  leanName : String

structure SymbolSpec where
  symbolId : String
  leanName : String
  argumentTypes : List String
  resultType : String

structure OperatorSpec where
  operatorId : String
  arity : Nat
  argumentTypes : List String
  resultType : String
  leanToken : Char

/-- `TYPE_REGISTRY`. -/
def typeRegistry : List TypeSpec :=
  [⟨"Prop", "Prop"⟩, ⟨"Nat", "ℕ"⟩, ⟨"Int", "ℤ"⟩, ⟨"Real", "ℝ"⟩, ⟨"Complex", "ℂ"⟩, ⟨"NatToComplex", "ℕ → ℂ"⟩,
    ⟨"ComplexToComplex", "ℂ → ℂ"⟩, ⟨"NatToComplexFunction", "ℕ → ℂ → ℂ"⟩, ⟨"SetComplex", "Set ℂ"⟩]

/-- `SYMBOL_REGISTRY`. -/
def symbolRegistry : List SymbolSpec :=
  [⟨"density", "density", ["NatToComplex"], "Real"⟩,
    ⟨"localConvergence", "localConvergence", ["NatToComplex", "Complex", "Int", "Real"], "Prop"⟩,
    ⟨"growthConstraint", "growthConstraint", ["ComplexToComplex", "Nat"], "Prop"⟩,
    ⟨"True", "True", [], "Prop"⟩, ⟨"False", "False", [], "Prop"⟩,
    ⟨"polesOutsideDisk", "polesOutsideDisk", ["SetComplex", "Complex", "Real"], "Prop"⟩,
    ⟨"localUniformConvergenceOnDisk", "localUniformConvergenceOnDisk",
      ["NatToComplexFunction", "ComplexToComplex", "Complex", "Real"], "Prop"⟩,
    ⟨"termsHolomorphicOnDisk", "termsHolomorphicOnDisk", ["NatToComplexFunction", "Complex", "Real"], "Prop"⟩,
    ⟨"holomorphicSumOnDisk", "holomorphicSumOnDisk", ["ComplexToComplex", "Complex", "Real"], "Prop"⟩,
    ⟨"agreesWithSimplePoleOnPuncturedDisk", "agreesWithSimplePoleOnPuncturedDisk",
      ["ComplexToComplex", "Complex", "Complex", "Real"], "Prop"⟩,
    ⟨"nonzeroComplex", "nonzeroComplex", ["Complex"], "Prop"⟩, ⟨"positiveRadius", "positiveRadius", ["Real"], "Prop"⟩]

/-- `OPERATOR_REGISTRY`. -/
def operatorRegistry : List OperatorSpec :=
  [⟨"not", 1, ["Prop"], "Prop", '¬'⟩, ⟨"and", 2, ["Prop", "Prop"], "Prop", '∧'⟩,
    ⟨"or", 2, ["Prop", "Prop"], "Prop", '∨'⟩, ⟨"implies", 2, ["Prop", "Prop"], "Prop", '→'⟩,
    ⟨"eq_real", 2, ["Real", "Real"], "Prop", '='⟩, ⟨"gt_real", 2, ["Real", "Real"], "Prop", '>'⟩,
    ⟨"lt_real", 2, ["Real", "Real"], "Prop", '<'⟩, ⟨"ge_real", 2, ["Real", "Real"], "Prop", '≥'⟩,
    ⟨"le_real", 2, ["Real", "Real"], "Prop", '≤'⟩, ⟨"eq_nat", 2, ["Nat", "Nat"], "Prop", '='⟩]

def typeSpec? (typeId : String) : Option TypeSpec := typeRegistry.find? fun s => s.typeId = typeId

def symbolSpec? (symbolId : String) : Option SymbolSpec := symbolRegistry.find? fun s => s.symbolId = symbolId

def operatorSpec? (operatorId : String) : Option OperatorSpec := operatorRegistry.find? fun s => s.operatorId = operatorId

/-! ### The IR -/

structure Binder where
  binderId : String
  typeId : String
deriving DecidableEq

structure ExprNode where
  nodeId : String
  kind : String
  ref : String
  arguments : List String := []
deriving DecidableEq

structure MathIR where
  theoremId : String
  binders : List Binder
  nodes : List ExprNode
  premises : List String
  conclusion : String
  dependencyIds : List String := []
  schemaVersion : Int := mathIrVersion
  registryVersion : Int := registryVersion
deriving DecidableEq

/-- `_canonical_ir`. -/
def canonicalIr (m : MathIR) : List Char :=
  PyValue.dumps ⟨true, [','], [':']⟩ (.dict [("theorem_id", .str m.theoremId),
    ("binders", .list (m.binders.map fun b => .dict [("binder_id", .str b.binderId), ("type_id", .str b.typeId)])),
    ("nodes", .list (m.nodes.map fun n => .dict [("node_id", .str n.nodeId), ("kind", .str n.kind), ("ref", .str n.ref),
      ("arguments", .list (n.arguments.map .str))])),
    ("premises", .list (m.premises.map .str)), ("conclusion", .str m.conclusion), ("dependency_ids", .list (m.dependencyIds.map .str)),
    ("schema_version", .int m.schemaVersion), ("registry_version", .int m.registryVersion)])

/-- The types that were found, in the order in which they were found. -/
abbrev NodeTypes := Dict String String

structure ValidatedMathIR where
  mathIr : MathIR
  nodeTypes : NodeTypes
  contentHash : List Char

/-- The characters of an identifier after the first one. -/
def isWord (c : Char) : Bool := c.isAlphanum || c == '_'

/-- `_IDENTIFIER.fullmatch(text)`. -/
def isIdentifier (text : String) : Bool :=
  match text.toList with
  | [] => false
  | c :: cs => c.isAlpha && cs.all isWord && decide (cs.length ≤ 63)

/-! ### Validation -/

/-- The loop over the binders. -/
def checkBinders (binderTypes : Dict String String) : List Binder → Except TypedIRError (Dict String String)
  | [] => .ok binderTypes
  | b :: bs =>
    if !isIdentifier b.binderId then .error { code := "INVALID_BINDER", message := b.binderId }
    else if binderTypes.contains b.binderId then .error { code := "DUPLICATE_BINDER", message := b.binderId }
    else if (typeSpec? b.typeId).isNone then .error (backjump "UNKNOWN_TYPE" b.typeId b.binderId)
    else checkBinders (binderTypes.set b.binderId b.typeId) bs

/-- The loop over the nodes. -/
def checkNodes (nodeMap : Dict String ExprNode) : List ExprNode → Except TypedIRError (Dict String ExprNode)
  | [] => .ok nodeMap
  | n :: ns =>
    if !isIdentifier n.nodeId || nodeMap.contains n.nodeId then
      .error { code := "INVALID_OR_DUPLICATE_NODE", message := n.nodeId }
    else checkNodes (nodeMap.set n.nodeId n) ns

/-- `str` of a tuple of identifiers. -/
def tupleText : List String → String
  | [] => "()"
  | [t] => "('" ++ t ++ "',)"
  | ts => "(" ++ ", ".intercalate (ts.map fun t => "'" ++ t ++ "'") ++ ")"

/-- Infers the types of the arguments, from the left. -/
def inferAll (child : NodeTypes → String → Except TypedIRError (String × NodeTypes)) :
    NodeTypes → List String → Except TypedIRError (List String × NodeTypes)
  | nodeTypes, [] => .ok ([], nodeTypes)
  | nodeTypes, id :: ids => do
    let first ← child nodeTypes id
    let rest ← inferAll child first.2 ids
    .ok (first.1 :: rest.1, rest.2)

/-- The type of a node whose arguments are inferred by `child`. -/
def inferNode (binderTypes : Dict String String) (child : NodeTypes → String → Except TypedIRError (String × NodeTypes))
    (nodeTypes : NodeTypes) (node : ExprNode) : Except TypedIRError (String × NodeTypes) :=
  if node.kind = "var" then
    match if node.arguments = [] then binderTypes.get? node.ref else none with
    | none => .error (backjump "BINDER_SCOPE" ("unknown binder " ++ node.ref) node.nodeId)
    | some result => .ok (result, nodeTypes)
  else if node.kind = "symbol" then
    match symbolSpec? node.ref with
    | none => .error (backjump "UNKNOWN_SYMBOL" node.ref node.nodeId)
    | some symbol => do
      let actual ← inferAll child nodeTypes node.arguments
      if actual.1 ≠ symbol.argumentTypes then
        .error (backjump "SYMBOL_TYPE_MISMATCH"
          (node.ref ++ " expects " ++ tupleText symbol.argumentTypes ++ ", got " ++ tupleText actual.1) node.nodeId)
      else .ok (symbol.resultType, actual.2)
  else if node.kind = "operator" then
    match operatorSpec? node.ref with
    | none => .error (backjump "UNKNOWN_OPERATOR" node.ref node.nodeId)
    | some operator =>
      if node.arguments.length ≠ operator.arity then
        .error { code := "OPERATOR_ARITY", message := node.ref, nodeId := node.nodeId }
      else do
        let actual ← inferAll child nodeTypes node.arguments
        if actual.1 ≠ operator.argumentTypes then
          .error (backjump "OPERATOR_TYPE_MISMATCH"
            (node.ref ++ " expects " ++ tupleText operator.argumentTypes ++ ", got " ++ tupleText actual.1) node.nodeId)
        else .ok (operator.resultType, actual.2)
  else .error { code := "UNKNOWN_NODE_KIND", message := node.kind, nodeId := node.nodeId }

/-- `infer`, with the nodes that are being visited and the number of levels that are left. -/
def infer (binderTypes : Dict String String) (nodeMap : Dict String ExprNode) :
    (levels : Nat) → (visiting : List String) → NodeTypes → String → Except TypedIRError (String × NodeTypes)
  | 0, _, _, _ => .error outOfLevels
  | levels + 1, visiting, nodeTypes, nodeId =>
    match nodeTypes.get? nodeId with
    | some result => .ok (result, nodeTypes)
    | none =>
      if nodeId ∈ visiting then .error { code := "EXPRESSION_CYCLE", message := "cyclic node", nodeId := nodeId }
      else
        match nodeMap.get? nodeId with
        | none => .error (backjump "UNKNOWN_NODE" nodeId nodeId)
        | some node => do
          let result ← inferNode binderTypes (infer binderTypes nodeMap levels (nodeId :: visiting)) nodeTypes node
          .ok (result.1, result.2.set nodeId result.1)

/-- The loop over the roots. -/
def checkRoots (child : NodeTypes → String → Except TypedIRError (String × NodeTypes)) :
    NodeTypes → List String → Except TypedIRError NodeTypes
  | nodeTypes, [] => .ok nodeTypes
  | nodeTypes, root :: roots => do
    let result ← child nodeTypes root
    if result.1 ≠ "Prop" then .error (backjump "NON_PROPOSITION_ROOT" root root)
    else checkRoots child result.2 roots

namespace MathIR

def roots (m : MathIR) : List String := m.premises ++ [m.conclusion]

/-- More levels than a search without a cycle can need. -/
def levels (m : MathIR) : Nat := m.nodes.length + 1

end MathIR

/-- `validate_math_ir`. -/
def validateMathIr (m : MathIR) : Except TypedIRError ValidatedMathIR := do
  if m.schemaVersion ≠ mathIrVersion then
    .error { code := "STALE_IR_VERSION", message := "unsupported Math IR version" }
  else if m.registryVersion ≠ registryVersion then
    .error { code := "STALE_REGISTRY", message := "unsupported registry version" }
  else if !isIdentifier m.theoremId then .error { code := "INVALID_THEOREM_ID", message := "invalid theorem ID" }
  else do
    let binderTypes ← checkBinders Dict.empty m.binders
    let nodeMap ← checkNodes Dict.empty m.nodes
    if m.conclusion = "" then .error { code := "MISSING_CONCLUSION", message := "conclusion is required" }
    else do
      let nodeTypes ← checkRoots (infer binderTypes nodeMap m.levels []) Dict.empty m.roots
      let unreachable := nodeMap.keys.filter fun id => !nodeTypes.contains id
      if unreachable ≠ [] then
        .error (backjump "UNREACHABLE_NODES" (", ".intercalate (unreachable.mergeSort (· ≤ ·))) "")
      else .ok ⟨m, nodeTypes, hexdigest (canonicalIr m)⟩

/-! ### Rendering -/

/-- `_render_expr`; there is no text where a lookup raises. -/
def renderExpr (nodeMap : Dict String ExprNode) : (levels : Nat) → String → Option (List Char)
  | 0, _ => none
  | levels + 1, nodeId => do
    let node ← nodeMap.get? nodeId
    if node.kind = "var" then some node.ref.toList
    else if node.kind = "symbol" then do
      let symbol ← symbolSpec? node.ref
      let rendered ← node.arguments.mapM (renderExpr nodeMap levels)
      some (symbol.leanName.toList ++ rendered.flatMap fun a => ' ' :: '(' :: (a ++ [')']))
    else do
      let operator ← operatorSpec? node.ref
      let rendered ← node.arguments.mapM (renderExpr nodeMap levels)
      if operator.arity = 1 then do
        let operand ← rendered[0]?
        some ('(' :: operator.leanToken :: ' ' :: (operand ++ [')']))
      else do
        let left ← rendered[0]?
        let right ← rendered[1]?
        some ('(' :: (left ++ ' ' :: operator.leanToken :: ' ' :: (right ++ [')'])))

structure LeanCompilation where
  theoremId : String
  declarationSource : List Char
  declarationHash : List Char
  propositionHash : List Char
  mathIrHash : List Char
  importsHash : List Char
deriving DecidableEq

/-- `(id : type)`. -/
def binderText (b : Binder) : Option (List Char) := do
  let spec ← typeSpec? b.typeId
  some ('(' :: (b.binderId.toList ++ " : ".toList ++ spec.leanName.toList ++ [')']))

/-- `" ".join(…)` of the binders. -/
def bindersText (m : MathIR) : Option (List Char) := do
  let texts ← m.binders.mapM binderText
  some (List.intercalate [' '] texts)

/-- `{node.node_id: node for node in nodes}`. -/
def MathIR.nodeMap (m : MathIR) : Dict String ExprNode := Dict.ofEntries (m.nodes.map fun n => (n.nodeId, n))

/-- The proposition of the declaration. -/
def propositionText (m : MathIR) : Option (List Char) := do
  let parts ← m.roots.mapM (renderExpr m.nodeMap m.levels)
  some (List.intercalate " → ".toList (parts.map fun item => '(' :: (item ++ [')'])))

/-- The declaration without its proof. -/
def declarationCore (m : MathIR) : Option (List Char) := do
  let binders ← bindersText m
  let proposition ← propositionText m
  some ("theorem ".toList ++ m.theoremId.toList ++ (if binders ≠ [] then ' ' :: binders else []) ++ " : ".toList ++ proposition)

def importsText : List Char := "import KakeyaLeanGate\nset_option autoImplicit false".toList

/-- `build_lean_declaration`. -/
def buildLeanDeclaration (validated : ValidatedMathIR) : Option LeanCompilation := do
  let core ← declarationCore validated.mathIr
  let proposition ← propositionText validated.mathIr
  some {
    theoremId := validated.mathIr.theoremId
    declarationSource := core ++ " := by".toList
    declarationHash := hexdigest core
    propositionHash := hexdigest proposition
    mathIrHash := validated.contentHash
    importsHash := hexdigest importsText }

/-- `verify_proposition_equivalence`. -/
def verifyPropositionEquivalence (validated : ValidatedMathIR) (compilation : LeanCompilation) :
    Option (Except TypedIRError Unit) := do
  let rebuilt ← buildLeanDeclaration validated
  some (if compilation.mathIrHash ≠ validated.contentHash ∨ compilation.propositionHash ≠ rebuilt.propositionHash ∨
      compilation.declarationHash ≠ rebuilt.declarationHash ∨
      compilation.declarationSource ≠ rebuilt.declarationSource then
    .error ⟨"PROPOSITION_HASH_MISMATCH", "Math IR and Lean declaration are not content-equivalent", "", "host_compiler",
      .integrationBlocked⟩
  else .ok ())

end MathIr

end KakeyaEngine
