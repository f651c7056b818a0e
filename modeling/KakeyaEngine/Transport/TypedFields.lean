import KakeyaEngine.Orchestration.CrashConsistency

/-!
# Typed fields of a role

A role answers with records of registered fields, framed in one of two ways: one line for each record, or a block of lines.
One decoder tells the framings apart and reads each with a loop of its own.  What either loop accepts is a list of records
followed by the end and nothing else, stored one after the other (`compactLoop_eq_ok_iff`, `blockLoop_eq_ok_iff`), so that an
answer is accepted exactly with an assignment of valid values (`Assignment`), and both framings of one assignment give it
back, unless a value is read as a line of the block framing (`framings_agree`).
-/

namespace KakeyaEngine

namespace Transport

open Regex (isSpace WordClass)
open LeanGate (strip hexdigest)
open Orchestration (compactLayout)

/-! ### The registry -/

inductive ValueKind
  | enum | identifier | reference | proofStep
deriving DecidableEq

/-- A first character, and a bounded number of others. -/
def isToken (first rest : Char → Bool) (max : Nat) : List Char → Bool
  | [] => false
  | c :: cs => first c && cs.all rest && cs.length ≤ max

def isWordChar (c : Char) : Bool := c.isAlphanum || c == '_'

/-- `_FIELD_NAME`. -/
def isFieldName : List Char → Bool := isToken Char.isLower (fun c => c.isLower || c.isDigit || c == '_') 47

/-- `_IDENTIFIER`. -/
def isIdentifier : List Char → Bool := isToken Char.isAlpha isWordChar 63

/-- `_REFERENCE`. -/
def isReference : List Char → Bool := isToken Char.isAlphanum (fun c => isWordChar c || c == '.' || c == ':' || c == '-') 255

structure FieldSpec where
  name : String
  repeated : Bool
  required : Bool
  maxChars : Nat
  choices : List String
  valueKind : ValueKind
  wellNamed : isFieldName name.toList = true
  positive : 0 < maxChars
  hasChoices : valueKind = .enum → choices ≠ []

structure RoleTransport where
  role : String
  fields : List FieldSpec
  version : Int
  named : role ≠ ""
  distinct : (fields.map (·.name)).Nodup

theorem refChars_pos : 0 < 256 := by decide

theorem identChars_pos : 0 < 64 := by decide

/-- `_ref`. -/
def ref (name : String) (repeated : Bool := false) (required : Bool := true)
    (h : isFieldName name.toList = true := by decide) : FieldSpec :=
  ⟨name, repeated, required, 256, [], .reference, h, refChars_pos, fun h => (nomatch h)⟩

/-- `_id`. -/
def ident (name : String) (repeated : Bool := false) (required : Bool := true)
    (h : isFieldName name.toList = true := by decide) : FieldSpec :=
  ⟨name, repeated, required, 64, [], .identifier, h, identChars_pos, fun h => (nomatch h)⟩

/-- `_enum`. -/
def enum (name first : String) (others : List String) (repeated : Bool := false) (required : Bool := true)
    (h : isFieldName name.toList = true := by decide) : FieldSpec :=
  ⟨name, repeated, required, 64, first :: others, .enum, h, identChars_pos, fun _ => List.cons_ne_nil _ _⟩

def transportOf (role : String) (fields : List FieldSpec) (named : role ≠ "" := by decide)
    (distinct : (fields.map (·.name)).Nodup := by decide) : RoleTransport :=
  ⟨role, fields, 4, named, distinct⟩

/-- The fields of both selectors. -/
def selectorFields : List FieldSpec :=
  [ident "plan_id" true,
    enum "reason_code" "MAXIMIZES_INFORMATION_GAIN"
      ["STRONGEST_THEOREM_SUPPORT", "LOWEST_COMPLEXITY", "LOWEST_RISK", "STRICTEST_REDUCTION"] true]

/-- `ROLE_TRANSPORT_REGISTRY`. -/
def roleTransportRegistry : List RoleTransport :=
  [transportOf "strategy_tournament_selector" selectorFields,
    transportOf "strategy_critic_selector" selectorFields,
    transportOf "synthesis"
      [enum "choice_code" "A" ["B", "C", "D", "E", "F", "G", "H", "I", "J", "K", "L", "M", "N", "O", "P", "Q", "R", "S", "T",
        "U", "V", "W", "X", "Y", "Z"],
        enum "reason_code" "DIRECT_LOCAL_CONTRADICTION"
          ["SUPPORTED_BY_THEOREM_CARDS", "STRICTEST_REDUCTION", "NOVEL_VIEWPOINT", "LOWEST_COMPLEXITY",
            "HIGHEST_GAP_COVERAGE", "SHALLOWEST_DEPENDENCY_DEPTH"]],
    transportOf "premise_suspicion" [ref "target_ref", ref "evidence_ref"],
    transportOf "premise_auditor"
      [ref "target_ref", ref "evidence_ref" true, ident "analysis_code" true false,
        enum "status" "CONFIRMED" ["NOT_CONFIRMED", "INCONCLUSIVE"]],
    transportOf "premise_proponent"
      [ref "target_ref", ref "correction_ref" false false, ref "evidence_ref",
        enum "status" "RESCUED" ["NOT_RESCUED", "INCONCLUSIVE"]],
    transportOf "definition_auditor"
      [ref "target_ref", ident "symbol_id" true false, ident "domain_id" true false, ident "topology_id" true false,
        ident "definition_id" true false, ident "missing_definition_id" true false,
        enum "audit_outcome" "COMPLETE" ["MISSING_DEFINITION", "REFRAME_REQUIRED"]],
    transportOf "counterexample_worker"
      [ref "target_ref", ref "case_ref" true false,
        enum "status" "COUNTEREXAMPLE_FOUND" ["NO_COUNTEREXAMPLE", "INCONCLUSIVE"]],
    transportOf "decomposer"
      [ref "parent_claim_ref", enum "child_kind" "DEFINITION" ["LEMMA", "COROLLARY"], ident "definition_id" true false,
        ref "dependency_id" true false, ident "outline_step_id" true false, enum "move_id" "A" ["B", "C", "D"]],
    transportOf "math_ir_translator" [ref "parent_claim_ref", enum "move_id" "A" ["B", "C", "D"]],
    transportOf "proof_action_selector"
      [ident "goal_id", ident "action_id", ident "operand_id" true false, ident "substitution_id" true false],
    transportOf "adversarial_proponent"
      [ref "target_proposition_ref", ident "issue_code" true false, ident "repair_step_id" true false,
        enum "status" "DEFENDED" ["REJECTED", "INCONCLUSIVE"]],
    transportOf "judge"
      [ref "target_proposition_ref", enum "decision" "ACCEPT" ["REJECT", "INCONCLUSIVE"], ident "reason_code"]]

/-! ### Values -/

structure AdapterError where
  code : String
  message : String
  role : String
  field : String
deriving DecidableEq

/-- What decoding raises; `unpack` is the error of an assignment to two names. -/
inductive TransportFailure
  | adapter (e : AdapterError)
  | unpack
deriving DecidableEq

def fail {α : Type} (code message role field : String) : Except TransportFailure α :=
  .error (.adapter ⟨code, message, role, field⟩)

def resolveTransport (role : String) : Except TransportFailure RoleTransport :=
  match roleTransportRegistry.find? fun contract => contract.role == role with
  | none => fail "UNREGISTERED_ROLE" "role has no typed transport" role ""
  | some contract => .ok contract

/-- The letters that match a letter of a pattern when case is ignored. -/
def caseless (c : Char) : List Char :=
  [c.toLower, c.toUpper] ++
    (if c.toLower = 'i' then ['\u0130', '\u0131'] else if c.toLower = 's' then ['\u017f']
      else if c.toLower = 'k' then ['\u212a'] else [])

open Regex in
/-- A text, where case is ignored. -/
def caselessLit : List Char → Regex
  | [] => eps
  | c :: cs => seq (cls fun d => d ∈ caseless c) (caselessLit cs)

open Regex in
/-- One of some words, where case is ignored. -/
def caselessWords (texts : List String) : Regex := oneOf (texts.map fun t => caselessLit t.toList)

open Regex in
/-- `_FORBIDDEN_VALUE`. -/
def forbiddenValue (w : WordClass) : Regex :=
  let opening := alt lineStart (cls isSpace)
  oneOf
    [lit ['\x60', '\x60', '\x60'],
      seq opening (seq (caselessWords ["Artifact", "schema_version"]) (seq (many isSpace) (char ':'))),
      seq opening (seq (caselessWords ["theorem", "lemma"]) (seq (many1 isSpace) (many1 w.isWord))),
      seq (lit [':', '=']) (seq (many isSpace) (caselessLit ['b', 'y'])),
      seq (char '\\') (seq (caselessWords ["frac", "sum", "forall", "exists", "mathbb", "text", "begin", "end"]) boundary),
      char '$']

/-- `TACTIC_REGISTRY`, with the number of operands. -/
def tacticRegistry : List (String × Nat) :=
  [("intro", 1), ("exact", 1), ("apply", 1), ("assumption", 0), ("constructor", 0), ("left", 0), ("right", 0), ("trivial", 0),
    ("contradiction", 0)]

/-- A registered tactic and the identifiers it takes. -/
def isProofStep (text : List Char) : Bool :=
  match (text.splitOnP isSpace).filter (· ≠ []) with
  | [] => false
  | name :: operands =>
    match tacticRegistry.lookup (String.ofList name) with
    | none => false
    | some arity => operands.length = arity && operands.all isIdentifier

/-- The syntax that the kind of a value asks for. -/
def ValueKind.accepts : ValueKind → List Char → Bool
  | .enum, _ => true
  | .identifier, text => isIdentifier text
  | .reference, text => isReference text
  | .proofStep, text => isProofStep text

/-- The error of a value that has not the syntax of its kind. -/
def ValueKind.failure : ValueKind → String × String
  | .enum => ("", "")
  | .identifier => ("INVALID_IDENTIFIER", "expected one registered DSL identifier")
  | .reference => ("INVALID_REFERENCE", "expected one host content reference")
  | .proofStep => ("INVALID_PROOF_STEP", "expected registered tactic and identifier IDs")

/-- `_validate_value`. -/
def validateValue (w : WordClass) (role : String) (spec : FieldSpec) (choices : Option (List String)) (value : List Char) :
    Except TransportFailure (List Char) :=
  if spec.name = "choice_code" ∧ value ≠ strip value then
    fail "INVALID_CHOICE" "choice code must contain exactly one scoped character" role spec.name
  else if strip value = [] then fail "EMPTY_FIELD" "field is empty" role spec.name
  else if spec.maxChars < (strip value).length then
    fail "FIELD_TOO_LARGE" ("field exceeds " ++ toString spec.maxChars ++ " characters") role spec.name
  else if ((forbiddenValue w).search w (strip value)).isSome then
    fail "MODEL_OWNED_SYNTAX" "field contains forbidden envelope, Lean, fence, or raw LaTeX syntax" role spec.name
  else
    let allowed := choices.getD spec.choices
    if (allowed ≠ [] ∧ String.ofList (strip value) ∉ allowed) ∨ (choices.isSome ∧ allowed = []) then
      fail "INVALID_CHOICE"
        (if allowed ≠ [] then "expected one of " ++ ", ".intercalate allowed
          else "field has no registered choices and must be omitted") role spec.name
    else if !spec.valueKind.accepts (strip value) then
      fail spec.valueKind.failure.1 spec.valueKind.failure.2 role spec.name
    else .ok (strip value)

/-! ### Decoding -/

abbrev Line := List Char

/-- `text.replace("\r\n", "\n")`. -/
def dropReturns : List Char → List Char
  | '\r' :: '\n' :: cs => '\n' :: dropReturns cs
  | c :: cs => c :: dropReturns cs
  | [] => []

/-- The lines of a text, less the empty ones at its end. -/
def textLines (text : List Char) : List Line :=
  (((dropReturns text).splitOn '\n').reverse.dropWhile (· = [])).reverse

/-- `line.split(maxsplit=1)`, where it has two parts. -/
def splitOnce (line : Line) : Option (List Char × List Char) :=
  let line := line.dropWhile isSpace
  let word := line.takeWhile fun c => !isSpace c
  match (line.drop word.length).dropWhile isSpace with
  | [] => none
  | c :: cs => some (word, c :: cs)

def isCompactLine (line : Line) : Bool :=
  strip line = [] || strip line = "END;".toList || ((strip line).getLast? = some ';' && (splitOnce (strip line)).isSome)

def isCompact (lines : List Line) : Bool := lines ≠ [] && lines.all isCompactLine

/-- The values of the fields, by name. -/
abbrev Decoded := Dict String (List (List Char))

/-- `decoded.get(name, [])`. -/
def Decoded.valuesIn (d : Decoded) (name : String) : List (List Char) := (d.get? name).getD []

section

variable (w : WordClass) (quote : String → String) (contract : RoleTransport)
  (registeredChoices : Option (Dict String (List String)))

def RoleTransport.spec? (marker : List Char) : Option FieldSpec := contract.fields.find? fun spec => spec.name.toList == marker

/-- The choices that the caller has registered for a field. -/
def choicesFor (spec : FieldSpec) : Option (List String) := registeredChoices.bind (·.get? spec.name)

def unknownField {α : Type} (marker : List Char) : Except TransportFailure α :=
  fail "UNKNOWN_FIELD" ("unknown field " ++ quote (String.ofList marker)) contract.role (String.ofList marker)

/-- One more value of a field. -/
def store (decoded : Decoded) (spec : FieldSpec) (rawValue : List Char) : Except TransportFailure Decoded :=
  if decoded.valuesIn spec.name ≠ [] ∧ spec.repeated = false then
    fail "DUPLICATE_FIELD" "field is not repeatable" contract.role spec.name
  else
    match validateValue w contract.role spec (choicesFor registeredChoices spec) rawValue with
    | .error e => .error e
    | .ok value => .ok (decoded.set spec.name (decoded.valuesIn spec.name ++ [value]))

def trailing (lines : List Line) (decoded : Decoded) : Except TransportFailure Decoded :=
  if lines.any fun line => strip line ≠ [] then fail "TRAILING_DATA" "tokens follow END" contract.role "" else .ok decoded

/-- The loop over lines that are records. -/
def compactLoop : List Line → Decoded → Except TransportFailure Decoded
  | [], _ => fail "INCOMPLETE" "missing END" contract.role ""
  | line :: lines, decoded =>
    if strip line = [] then compactLoop lines decoded
    else if strip line = "END;".toList then trailing contract lines decoded
    else
      match splitOnce (strip line).dropLast with
      | none => .error .unpack
      | some (marker, rawValue) =>
        match contract.spec? marker with
        | none => unknownField quote contract marker
        | some spec =>
          match store w contract registeredChoices decoded spec rawValue with
          | .error e => .error e
          | .ok decoded => compactLoop lines decoded

/-- The line that closes a block. -/
def closing (spec : FieldSpec) : Line := '/' :: spec.name.toList

/-- The loop over blocks, inside the block of a field with the lines of its value or between blocks. -/
def blockLoop : Option (FieldSpec × List Line) → List Line → Decoded → Except TransportFailure Decoded
  | none, [], _ => fail "INCOMPLETE" "missing END" contract.role ""
  | none, line :: lines, decoded =>
    if strip line = "END".toList then trailing contract lines decoded
    else
      match contract.spec? (strip line) with
      | none => unknownField quote contract (strip line)
      | some spec => blockLoop (some (spec, [])) lines decoded
  | some (spec, _), [], _ => fail "UNCLOSED_FIELD" ("missing /" ++ spec.name) contract.role spec.name
  | some (spec, valueLines), line :: lines, decoded =>
    if strip line = closing spec then
      match store w contract registeredChoices decoded spec (List.intercalate ['\n'] valueLines) with
      | .error e => .error e
      | .ok decoded => blockLoop none lines decoded
    else if strip line = "END".toList then fail "UNCLOSED_FIELD" "END occurred inside field" contract.role spec.name
    else blockLoop (some (spec, valueLines ++ [line])) lines decoded

end

/-- The value of a field: a text, or the texts of a field that may repeat. -/
inductive FieldValue
  | one (text : String)
  | many (texts : List String)
deriving DecidableEq

def FieldValue.value : FieldValue → PyValue
  | one text => .str text
  | many texts => .list (texts.map .str)

structure DecodedRoleFields where
  role : String
  values : List (String × FieldValue)
  transportHash : List Char
deriving DecidableEq

def fieldValue (spec : FieldSpec) (items : List (List Char)) : FieldValue :=
  if spec.repeated then .many (items.map String.ofList) else .one (String.ofList (items.headD []))

/-- The fields with their values and their hash. -/
def decodedFields (contract : RoleTransport) (items : String → List (List Char)) : DecodedRoleFields :=
  let values := contract.fields.map fun spec => (spec.name, fieldValue spec (items spec.name))
  ⟨contract.role, values, hexdigest (PyValue.dumps compactLayout (.dict
    [("role", .str contract.role), ("values", .dict (values.map fun v => (v.1, v.2.value))),
      ("transport_version", .int contract.version)]))⟩

/-- `_finish_decoded`. -/
def finishDecoded (contract : RoleTransport) (decoded : Decoded) : Except TransportFailure DecodedRoleFields :=
  match contract.fields.filter fun spec => spec.required && decoded.valuesIn spec.name = [] with
  | [] => .ok (decodedFields contract decoded.valuesIn)
  | missing => fail "MISSING_FIELDS" (", ".intercalate (missing.map (·.name))) contract.role ""

/-- `MAX_TRANSPORT_CHARS`. -/
def maxTransportChars : Nat := 64 * 1024

def decodeRoleFields (w : WordClass) (quote : String → String) (text : List Char) (role : String)
    (registeredChoices : Option (Dict String (List String))) : Except TransportFailure DecodedRoleFields :=
  match resolveTransport role with
  | .error e => .error e
  | .ok contract =>
    if maxTransportChars < text.length then fail "RESPONSE_TOO_LARGE" "response exceeds cap" role ""
    else
      let lines := textLines text
      match if isCompact lines then compactLoop w quote contract registeredChoices lines .empty
        else blockLoop w quote contract registeredChoices none lines .empty with
      | .error e => .error e
      | .ok decoded => finishDecoded contract decoded

/-! ### Stripped texts -/

theorem dropWhile_of_head {p : Char → Bool} {s : List Char} (h : ∀ c ∈ s.head?, p c = false) : s.dropWhile p = s := by
  cases s with
  | nil => rfl
  | cons c s => rw [List.dropWhile_cons_of_neg (by rw [h c rfl]; decide)]

theorem head_dropWhile (p : Char → Bool) (s : List Char) : ∀ c ∈ (s.dropWhile p).head?, p c = false := by
  intro c hc
  have h := List.head?_dropWhile_not p s
  rw [Option.mem_def.mp hc] at h
  simpa using h

theorem strip_of_ends {s : List Char} (hfirst : ∀ c ∈ s.head?, isSpace c = false) (hlast : ∀ c ∈ s.getLast?, isSpace c = false) :
    strip s = s := by
  unfold strip LeanGate.rstrip
  rw [dropWhile_of_head hfirst, dropWhile_of_head (by rwa [List.head?_reverse]), List.reverse_reverse]

theorem head_strip (s : List Char) : ∀ c ∈ (strip s).head?, isSpace c = false := by
  intro c hc
  have hprefix : strip s <+: s.dropWhile isSpace := by
    unfold strip LeanGate.rstrip
    have h := List.reverse_prefix.mpr (List.dropWhile_suffix (l := (s.dropWhile isSpace).reverse) isSpace)
    rwa [List.reverse_reverse] at h
  obtain ⟨t, ht⟩ := hprefix
  refine head_dropWhile isSpace s c ?_
  rw [← ht, Option.mem_def, List.head?_append, Option.mem_def.mp hc, Option.some_or]

theorem last_strip (s : List Char) : ∀ c ∈ (strip s).getLast?, isSpace c = false := by
  intro c hc
  unfold strip LeanGate.rstrip at hc
  rw [List.getLast?_reverse] at hc
  exact head_dropWhile isSpace _ c hc

theorem strip_strip (s : List Char) : strip (strip s) = strip s := strip_of_ends (head_strip s) (last_strip s)

/-! ### Validated values -/

section

variable {w : WordClass} {quote : String → String} {contract : RoleTransport}
  {registeredChoices : Option (Dict String (List String))}

/-- What a registered value is: a choice where the field has some, and of the syntax of its kind. -/
structure Admissible (spec : FieldSpec) (choices : Option (List String)) (v : List Char) : Prop where
  stripped : strip v = v
  nonempty : v ≠ []
  bounded : v.length ≤ spec.maxChars
  chosen : choices.getD spec.choices ≠ [] → String.ofList v ∈ choices.getD spec.choices
  offered : choices.isSome = true → choices.getD spec.choices ≠ []
  syntactic : spec.valueKind.accepts v = true

theorem validateValue_eq_ok_iff {role : String} {spec : FieldSpec} {choices : Option (List String)} {raw v : List Char} :
    validateValue w role spec choices raw = .ok v ↔
      v = strip raw ∧ (spec.name = "choice_code" → raw = v) ∧ Admissible spec choices v ∧
        (forbiddenValue w).search w v = none := by
  unfold validateValue fail
  constructor
  · intro h
    dsimp only at h
    split at h
    · cases h
    rename_i hchoice
    split at h
    · cases h
    rename_i hempty
    split at h
    · cases h
    rename_i hlength
    split at h
    · cases h
    rename_i hforbidden
    split at h
    · cases h
    rename_i hallowed
    split at h
    · cases h
    rename_i hkind
    obtain rfl := Except.ok.inj h
    rw [not_or, not_and_or, not_and_or, not_not, not_not] at hallowed
    refine ⟨rfl, fun hname => by_contra fun hne => hchoice ⟨hname, hne⟩, ⟨strip_strip raw, hempty, Nat.le_of_not_lt hlength, ?_, ?_, ?_⟩, ?_⟩
    · exact fun hne => hallowed.1.resolve_left hne
    · exact fun hsome => hallowed.2.resolve_left (not_not_intro hsome)
    · simpa using hkind
    · simpa using hforbidden
  · rintro ⟨rfl, hchoice, hv, hforbidden⟩
    dsimp only
    rw [if_neg fun h => h.2 (hchoice h.1), if_neg hv.nonempty, if_neg (Nat.not_lt.mpr hv.bounded),
      if_neg (by rw [hforbidden]; decide), if_neg, if_neg (by rw [hv.syntactic]; decide)]
    rintro (⟨hne, hnot⟩ | ⟨hsome, hempty⟩)
    · exact hnot (hv.chosen hne)
    · exact hv.offered hsome hempty

/-- A validated value is valid. -/
theorem validateValue_fixed {role : String} {spec : FieldSpec} {choices : Option (List String)} {raw v : List Char}
    (h : validateValue w role spec choices raw = .ok v) : validateValue w role spec choices v = .ok v := by
  obtain ⟨-, -, hv, hforbidden⟩ := validateValue_eq_ok_iff.mp h
  exact validateValue_eq_ok_iff.mpr ⟨hv.stripped.symm, fun _ => rfl, hv, hforbidden⟩

/-! ### Storing records -/

theorem spec?_eq_some_iff {marker : List Char} {spec : FieldSpec} :
    contract.spec? marker = some spec ↔ spec ∈ contract.fields ∧ spec.name.toList = marker := by
  unfold RoleTransport.spec?
  constructor
  · intro h
    exact ⟨List.mem_of_find?_eq_some h, by simpa using List.find?_some h⟩
  · rintro ⟨hmem, rfl⟩
    cases hfind : contract.fields.find? fun other => other.name.toList == spec.name.toList with
    | none =>
      have hnot := List.find?_eq_none.mp hfind spec hmem
      exact absurd (beq_self_eq_true _) hnot
    | some other =>
      have hname : other.name = spec.name := String.toList_inj.mp (by simpa using List.find?_some hfind)
      rw [List.inj_on_of_nodup_map contract.distinct (List.mem_of_find?_eq_some hfind) hmem hname]

theorem valuesIn_set (d : Decoded) (name : String) (values : List (List Char)) (other : String) :
    Decoded.valuesIn (d.set name values) other = if other = name then values else d.valuesIn other := by
  unfold Decoded.valuesIn
  rw [Dict.get?_set]
  split
  · rfl
  · rfl

theorem store_eq_ok_iff {d d' : Decoded} {spec : FieldSpec} {raw : List Char} :
    store w contract registeredChoices d spec raw = .ok d' ↔
      (d.valuesIn spec.name = [] ∨ spec.repeated = true) ∧
        ∃ v, validateValue w contract.role spec (choicesFor registeredChoices spec) raw = .ok v ∧
          d' = d.set spec.name (d.valuesIn spec.name ++ [v]) := by
  unfold store fail
  split
  · rename_i hdup
    constructor
    · intro h
      cases h
    · rintro ⟨hroom, -⟩
      rcases hroom with hnil | hrep
      · exact absurd hnil hdup.1
      · rw [hdup.2] at hrep
        cases hrep
  · rename_i hdup
    have hroom : d.valuesIn spec.name = [] ∨ spec.repeated = true := by
      rw [not_and_or, not_not, Bool.not_eq_false] at hdup
      exact hdup
    cases validateValue w contract.role spec (choicesFor registeredChoices spec) raw with
    | error e => exact ⟨fun h => (nomatch h), fun ⟨_, _, h, _⟩ => (nomatch h)⟩
    | ok v =>
      constructor
      · intro h
        exact ⟨hroom, v, rfl, (Except.ok.inj h).symm⟩
      · rintro ⟨-, v', hv, rfl⟩
        obtain rfl := Except.ok.inj hv
        rfl

end

/-! ### Framings -/

/-- Records, one after the other. -/
def storeAll (w : WordClass) (contract : RoleTransport) (registeredChoices : Option (Dict String (List String))) :
    List (FieldSpec × List Char) → Decoded → Except TransportFailure Decoded
  | [], d => .ok d
  | r :: rs, d =>
    match store w contract registeredChoices d r.1 r.2 with
    | .error e => .error e
    | .ok d => storeAll w contract registeredChoices rs d

def IsBlank (line : Line) : Prop := strip line = []

/-- Lines that are records, blank lines among them, up to the end and nothing but blank lines behind it. -/
inductive CompactFrame (contract : RoleTransport) : List Line → List (FieldSpec × List Char) → Prop
  | stop {line : Line} {rest : List Line} (hend : strip line = "END;".toList) (hrest : ∀ l ∈ rest, IsBlank l) :
      CompactFrame contract (line :: rest) []
  | blank {line : Line} {lines : List Line} {rs : List (FieldSpec × List Char)} (hblank : IsBlank line)
      (h : CompactFrame contract lines rs) : CompactFrame contract (line :: lines) rs
  | record {line : Line} {lines : List Line} {rs : List (FieldSpec × List Char)} {spec : FieldSpec} {raw : List Char}
      (hline : strip line ≠ [] ∧ strip line ≠ "END;".toList) (hspec : spec ∈ contract.fields)
      (hsplit : splitOnce (strip line).dropLast = some (spec.name.toList, raw)) (h : CompactFrame contract lines rs) :
      CompactFrame contract (line :: lines) ((spec, raw) :: rs)

/-- A line of a value, which neither closes its block nor ends the records. -/
def IsValueLine (spec : FieldSpec) (line : Line) : Prop := strip line ≠ closing spec ∧ strip line ≠ "END".toList

/-- Blocks up to the end, and nothing but blank lines behind it. -/
inductive BlockFrame (contract : RoleTransport) : List Line → List (FieldSpec × List Char) → Prop
  | stop {line : Line} {rest : List Line} (hend : strip line = "END".toList) (hrest : ∀ l ∈ rest, IsBlank l) :
      BlockFrame contract (line :: rest) []
  | record {line last : Line} {body lines : List Line} {rs : List (FieldSpec × List Char)} {spec : FieldSpec}
      (hspec : spec ∈ contract.fields) (hopen : strip line = spec.name.toList) (hbody : ∀ l ∈ body, IsValueLine spec l)
      (hclose : strip last = closing spec) (h : BlockFrame contract lines rs) :
      BlockFrame contract (line :: (body ++ last :: lines)) ((spec, List.intercalate ['\n'] body) :: rs)

section

variable {w : WordClass} {quote : String → String} {contract : RoleTransport}
  {registeredChoices : Option (Dict String (List String))}

theorem trailing_eq_ok_iff {lines : List Line} {d d' : Decoded} :
    trailing contract lines d = .ok d' ↔ (∀ l ∈ lines, IsBlank l) ∧ d = d' := by
  have hblank : (lines.any fun line => strip line ≠ []) = true ↔ ¬ ∀ l ∈ lines, IsBlank l := by
    unfold IsBlank
    simp
  unfold trailing fail
  split
  · rename_i h
    exact ⟨fun h => (nomatch h), fun h' => absurd h'.1 (hblank.mp h)⟩
  · rename_i h
    exact ⟨fun h' => ⟨not_not.mp (mt hblank.mpr h), Except.ok.inj h'⟩, fun h' => congrArg _ h'.2⟩

theorem storeAll_cons_eq_ok_iff {r : FieldSpec × List Char} {rs : List (FieldSpec × List Char)} {d d' : Decoded} :
    storeAll w contract registeredChoices (r :: rs) d = .ok d' ↔
      ∃ m, store w contract registeredChoices d r.1 r.2 = .ok m ∧ storeAll w contract registeredChoices rs m = .ok d' := by
  rw [storeAll]
  cases store w contract registeredChoices d r.1 r.2 with
  | error e => exact ⟨fun h => (nomatch h), fun ⟨_, h, _⟩ => (nomatch h)⟩
  | ok m =>
    constructor
    · exact fun h => ⟨m, rfl, h⟩
    · rintro ⟨m', hm, h⟩
      obtain rfl := Except.ok.inj hm
      exact h

/-- The loop over lines accepts records that can be stored one after the other. -/
theorem compactLoop_eq_ok_iff {lines : List Line} {d d' : Decoded} :
    compactLoop w quote contract registeredChoices lines d = .ok d' ↔
      ∃ rs, CompactFrame contract lines rs ∧ storeAll w contract registeredChoices rs d = .ok d' := by
  constructor
  · intro h
    induction lines generalizing d with
    | nil => cases h
    | cons line lines ih =>
      unfold compactLoop at h
      split at h
      · rename_i hblank
        obtain ⟨rs, hframe, hstore⟩ := ih h
        exact ⟨rs, .blank hblank hframe, hstore⟩
      rename_i hblank
      split at h
      · rename_i hend
        obtain ⟨hrest, rfl⟩ := trailing_eq_ok_iff.mp h
        exact ⟨[], .stop hend hrest, rfl⟩
      rename_i hend
      split at h
      · cases h
      rename_i marker raw hsplit
      split at h
      · cases h
      rename_i spec hspec
      obtain ⟨hmem, rfl⟩ := spec?_eq_some_iff.mp hspec
      split at h
      · cases h
      rename_i m hm
      obtain ⟨rs, hframe, hstore⟩ := ih h
      exact ⟨(spec, raw) :: rs, .record ⟨hblank, hend⟩ hmem hsplit hframe, storeAll_cons_eq_ok_iff.mpr ⟨m, hm, hstore⟩⟩
  · rintro ⟨rs, hframe, hstore⟩
    induction hframe generalizing d with
    | stop hend hrest =>
      rw [compactLoop, if_neg (by rw [hend]; decide), if_pos hend]
      exact trailing_eq_ok_iff.mpr ⟨hrest, Except.ok.inj hstore⟩
    | blank hblank _ ih =>
      unfold IsBlank at hblank
      rw [compactLoop, if_pos hblank]
      exact ih hstore
    | record hline hspec hsplit _ ih =>
      obtain ⟨m, hm, hstore⟩ := storeAll_cons_eq_ok_iff.mp hstore
      rw [compactLoop, if_neg hline.1, if_neg hline.2, hsplit]
      dsimp only
      rw [spec?_eq_some_iff.mpr ⟨hspec, rfl⟩]
      dsimp only
      rw [hm]
      exact ih hstore

/-- The loop inside a block goes on to the line that closes it. -/
theorem blockLoop_open_eq_ok_iff {spec : FieldSpec} {valueLines lines : List Line} {d d' : Decoded} :
    blockLoop w quote contract registeredChoices (some (spec, valueLines)) lines d = .ok d' ↔
      ∃ body last rest m, lines = body ++ last :: rest ∧ (∀ l ∈ body, IsValueLine spec l) ∧ strip last = closing spec ∧
        store w contract registeredChoices d spec (List.intercalate ['\n'] (valueLines ++ body)) = .ok m ∧
        blockLoop w quote contract registeredChoices none rest m = .ok d' := by
  induction lines generalizing valueLines with
  | nil =>
    constructor
    · intro h
      cases h
    · rintro ⟨body, last, rest, m, h, -⟩
      cases body with
      | nil => cases h
      | cons _ _ => cases h
  | cons line lines ih =>
    rw [blockLoop]
    split
    · rename_i hclose
      constructor
      · intro h
        split at h
        · cases h
        rename_i m hm
        exact ⟨[], line, lines, m, rfl, List.forall_mem_nil _, hclose, by rwa [List.append_nil], h⟩
      · rintro ⟨body, last, rest, m, hlines, hbody, hlast, hm, h⟩
        cases body with
        | nil =>
          obtain ⟨rfl, rfl⟩ := List.cons_eq_cons.mp hlines
          rw [List.append_nil] at hm
          rw [hm]
          exact h
        | cons first body =>
          obtain ⟨rfl, -⟩ := List.cons_eq_cons.mp hlines
          exact absurd hclose (hbody line List.mem_cons_self).1
    · rename_i hclose
      split
      · rename_i hend
        constructor
        · intro h
          cases h
        · rintro ⟨body, last, rest, m, hlines, hbody, hlast, -, -⟩
          cases body with
          | nil =>
            obtain ⟨rfl, -⟩ := List.cons_eq_cons.mp hlines
            exact absurd hlast hclose
          | cons first body =>
            obtain ⟨rfl, -⟩ := List.cons_eq_cons.mp hlines
            exact absurd hend (hbody line List.mem_cons_self).2
      · rename_i hend
        rw [ih]
        constructor
        · rintro ⟨body, last, rest, m, rfl, hbody, hlast, hm, h⟩
          refine ⟨line :: body, last, rest, m, rfl, List.forall_mem_cons.mpr ⟨⟨hclose, hend⟩, hbody⟩, hlast, ?_, h⟩
          rwa [List.append_assoc] at hm
        · rintro ⟨body, last, rest, m, hlines, hbody, hlast, hm, h⟩
          cases body with
          | nil =>
            obtain ⟨rfl, -⟩ := List.cons_eq_cons.mp hlines
            exact absurd hlast hclose
          | cons first body =>
            obtain ⟨rfl, rfl⟩ := List.cons_eq_cons.mp hlines
            refine ⟨body, last, rest, m, rfl, (List.forall_mem_cons.mp hbody).2, hlast, ?_, h⟩
            rwa [List.append_assoc]

/-- The loop over blocks accepts records that can be stored one after the other. -/
theorem blockLoop_eq_ok_iff {lines : List Line} {d d' : Decoded} :
    blockLoop w quote contract registeredChoices none lines d = .ok d' ↔
      ∃ rs, BlockFrame contract lines rs ∧ storeAll w contract registeredChoices rs d = .ok d' := by
  constructor
  · intro h
    induction hn : lines.length using Nat.strongRecOn generalizing lines d with
    | ind n ih =>
      cases lines with
      | nil => cases h
      | cons line lines =>
        rw [blockLoop] at h
        split at h
        · rename_i hend
          obtain ⟨hrest, rfl⟩ := trailing_eq_ok_iff.mp h
          exact ⟨[], .stop hend hrest, rfl⟩
        split at h
        · cases h
        rename_i spec hspec
        obtain ⟨hmem, hopen⟩ := spec?_eq_some_iff.mp hspec
        obtain ⟨body, last, rest, m, rfl, hbody, hlast, hm, h⟩ := blockLoop_open_eq_ok_iff.mp h
        have hshorter : rest.length < n := by
          rw [← hn, List.length_cons, List.length_append, List.length_cons]
          omega
        obtain ⟨rs, hframe, hstore⟩ := ih rest.length hshorter h rfl
        exact ⟨_, .record hmem hopen.symm hbody hlast hframe, storeAll_cons_eq_ok_iff.mpr ⟨m, hm, hstore⟩⟩
  · rintro ⟨rs, hframe, hstore⟩
    induction hframe generalizing d with
    | stop hend hrest =>
      rw [blockLoop, if_pos hend]
      exact trailing_eq_ok_iff.mpr ⟨hrest, Except.ok.inj hstore⟩
    | @record line last body lines rs spec hspec hopen hbody hclose _ ih =>
      obtain ⟨m, hm, hstore⟩ := storeAll_cons_eq_ok_iff.mp hstore
      have hname : spec.name.toList ≠ "END".toList := by
        intro hname
        have hwell := spec.wellNamed
        rw [hname] at hwell
        revert hwell
        decide
      rw [blockLoop, if_neg (by rw [hopen]; exact hname), spec?_eq_some_iff.mpr ⟨hspec, hopen.symm⟩]
      exact blockLoop_open_eq_ok_iff.mpr ⟨body, last, lines, m, rfl, hbody, hclose, hm, ih hstore⟩

end

/-! ### Assignments -/

/-- The values of a field, in the order of the entries. -/
def valuesOf (entries : List (FieldSpec × List Char)) (name : String) : List (List Char) :=
  (entries.filter fun e => e.1.name = name).map Prod.snd

theorem valuesOf_cons (e : FieldSpec × List Char) (entries : List (FieldSpec × List Char)) (name : String) :
    valuesOf (e :: entries) name = (if e.1.name = name then [e.2] else []) ++ valuesOf entries name := by
  unfold valuesOf
  by_cases h : e.1.name = name
  · rw [List.filter_cons_of_pos (by simpa using h), List.map_cons, if_pos h, List.singleton_append]
  · rw [List.filter_cons_of_neg (by simpa using h), if_neg h, List.nil_append]

/-- Valid values of the fields of a role, in the order in which they are given: those that are required, and no field twice
that may not repeat. -/
structure Assignment (w : WordClass) (contract : RoleTransport) (registeredChoices : Option (Dict String (List String))) where
  entries : List (FieldSpec × List Char)
  registered : ∀ e ∈ entries, e.1 ∈ contract.fields
  valid : ∀ e ∈ entries, validateValue w contract.role e.1 (choicesFor registeredChoices e.1) e.2 = .ok e.2
  once : ∀ spec ∈ contract.fields, spec.repeated = false → (valuesOf entries spec.name).length ≤ 1
  present : ∀ spec ∈ contract.fields, spec.required = true → valuesOf entries spec.name ≠ []

/-- The fields that an assignment stands for. -/
def Assignment.decoded {w : WordClass} {contract : RoleTransport} {registeredChoices : Option (Dict String (List String))}
    (a : Assignment w contract registeredChoices) : DecodedRoleFields :=
  decodedFields contract (valuesOf a.entries)

section

variable {w : WordClass} {quote : String → String} {contract : RoleTransport}
  {registeredChoices : Option (Dict String (List String))}

/-- The records of an answer and the entries that they are validated to. -/
def Validated (w : WordClass) (contract : RoleTransport) (registeredChoices : Option (Dict String (List String)))
    (rs entries : List (FieldSpec × List Char)) : Prop :=
  List.Forall₂ (fun r e => e.1 = r.1 ∧ validateValue w contract.role r.1 (choicesFor registeredChoices r.1) r.2 = .ok e.2)
    rs entries

/-- No field that may not repeat has two values. -/
def SingleValued (contract : RoleTransport) (items : String → List (List Char)) : Prop :=
  ∀ spec ∈ contract.fields, spec.repeated = false → (items spec.name).length ≤ 1

/-- Stored records are validated, and the values of a field are in their order. -/
theorem storeAll_ok {rs : List (FieldSpec × List Char)} {d d' : Decoded} (hreg : ∀ r ∈ rs, r.1 ∈ contract.fields)
    (hd : SingleValued contract d.valuesIn) (h : storeAll w contract registeredChoices rs d = .ok d') :
    SingleValued contract d'.valuesIn ∧ ∃ entries, Validated w contract registeredChoices rs entries ∧
      ∀ name, d'.valuesIn name = d.valuesIn name ++ valuesOf entries name := by
  induction rs generalizing d with
  | nil =>
    obtain rfl := Except.ok.inj h
    exact ⟨hd, [], .nil, fun name => (List.append_nil _).symm⟩
  | cons r rs ih =>
    obtain ⟨m, hm, h⟩ := storeAll_cons_eq_ok_iff.mp h
    obtain ⟨hroom, v, hv, rfl⟩ := store_eq_ok_iff.mp hm
    obtain ⟨hr, hrs⟩ := List.forall_mem_cons.mp hreg
    have hm' : SingleValued contract (Decoded.valuesIn (d.set r.1.name (d.valuesIn r.1.name ++ [v]))) := by
      intro spec hspec hrep
      rw [valuesIn_set]
      split
      · rename_i hname
        obtain rfl := List.inj_on_of_nodup_map contract.distinct hspec hr hname
        rw [hroom.resolve_right (by rw [hrep]; decide)]
        exact Nat.le_refl 1
      · exact hd spec hspec hrep
    obtain ⟨hd', entries, hvalidated, hvalues⟩ := ih hrs hm' h
    refine ⟨hd', (r.1, v) :: entries, .cons ⟨rfl, hv⟩ hvalidated, fun name => ?_⟩
    rw [hvalues, valuesIn_set, valuesOf_cons]
    by_cases hname : name = r.1.name
    · rw [if_pos hname, if_pos hname.symm, hname, List.append_assoc]
    · rw [if_neg hname, if_neg (Ne.symm hname), List.nil_append]

/-- Valid entries are stored, where no field gets a second value that may not repeat. -/
theorem storeAll_valid {entries : List (FieldSpec × List Char)} {d : Decoded} (hreg : ∀ e ∈ entries, e.1 ∈ contract.fields)
    (hvalid : ∀ e ∈ entries, validateValue w contract.role e.1 (choicesFor registeredChoices e.1) e.2 = .ok e.2)
    (honce : SingleValued contract fun name => d.valuesIn name ++ valuesOf entries name) :
    ∃ d', storeAll w contract registeredChoices entries d = .ok d' ∧
      ∀ name, d'.valuesIn name = d.valuesIn name ++ valuesOf entries name := by
  induction entries generalizing d with
  | nil => exact ⟨d, rfl, fun name => (List.append_nil _).symm⟩
  | cons e entries ih =>
    obtain ⟨he, hentries⟩ := List.forall_mem_cons.mp hreg
    obtain ⟨hv, hvalid⟩ := List.forall_mem_cons.mp hvalid
    have hvalues : ∀ name, Decoded.valuesIn (d.set e.1.name (d.valuesIn e.1.name ++ [e.2])) name ++ valuesOf entries name =
        d.valuesIn name ++ valuesOf (e :: entries) name := by
      intro name
      rw [valuesIn_set, valuesOf_cons]
      by_cases hname : name = e.1.name
      · rw [if_pos hname, if_pos hname.symm, hname, List.append_assoc]
      · rw [if_neg hname, if_neg (Ne.symm hname), List.nil_append]
    have hroom : d.valuesIn e.1.name = [] ∨ e.1.repeated = true := by
      cases hrep : e.1.repeated with
      | true => exact .inr rfl
      | false =>
        have hlength : (d.valuesIn e.1.name ++ valuesOf (e :: entries) e.1.name).length ≤ 1 := honce e.1 he hrep
        rw [valuesOf_cons, if_pos rfl, List.length_append, List.length_append, List.length_singleton] at hlength
        exact .inl (List.length_eq_zero_iff.mp (by omega))
    have honce' : SingleValued contract fun name =>
        Decoded.valuesIn (d.set e.1.name (d.valuesIn e.1.name ++ [e.2])) name ++ valuesOf entries name := by
      intro spec hspec hrep
      dsimp only
      rw [hvalues]
      exact honce spec hspec hrep
    obtain ⟨d', hd', hvalues'⟩ := ih hentries hvalid honce'
    refine ⟨d', storeAll_cons_eq_ok_iff.mpr ⟨_, store_eq_ok_iff.mpr ⟨hroom, e.2, hv, rfl⟩, hd'⟩, fun name => ?_⟩
    rw [hvalues', hvalues]

theorem finishDecoded_eq_ok_iff {d : Decoded} {r : DecodedRoleFields} :
    finishDecoded contract d = .ok r ↔
      (∀ spec ∈ contract.fields, spec.required = true → d.valuesIn spec.name ≠ []) ∧ r = decodedFields contract d.valuesIn := by
  unfold finishDecoded fail
  have hfilter : contract.fields.filter (fun spec => spec.required && decide (d.valuesIn spec.name = [])) = [] ↔
      ∀ spec ∈ contract.fields, spec.required = true → d.valuesIn spec.name ≠ [] := by
    rw [List.filter_eq_nil_iff]
    simp
  split
  · rename_i hnone
    exact ⟨fun h => ⟨hfilter.mp hnone, (Except.ok.inj h).symm⟩, fun h => congrArg _ h.2.symm⟩
  · rename_i hsome
    exact ⟨fun h => (nomatch h), fun h => absurd (hfilter.mpr h.1) hsome⟩

theorem CompactFrame.registered {lines : List Line} {rs : List (FieldSpec × List Char)} (h : CompactFrame contract lines rs) :
    ∀ r ∈ rs, r.1 ∈ contract.fields := by
  induction h with
  | stop => exact List.forall_mem_nil _
  | blank _ _ ih => exact ih
  | record _ hspec _ _ ih => exact List.forall_mem_cons.mpr ⟨hspec, ih⟩

theorem BlockFrame.registered {lines : List Line} {rs : List (FieldSpec × List Char)} (h : BlockFrame contract lines rs) :
    ∀ r ∈ rs, r.1 ∈ contract.fields := by
  induction h with
  | stop => exact List.forall_mem_nil _
  | record hspec _ _ _ _ ih => exact List.forall_mem_cons.mpr ⟨hspec, ih⟩

end

/-! ### Rendering -/

/-- One line for each record, and the end. -/
def compactLine (e : FieldSpec × List Char) : Line := e.1.name.toList ++ ' ' :: (e.2 ++ [';'])

def compactText (entries : List (FieldSpec × List Char)) : List Char :=
  List.intercalate ['\n'] (entries.map compactLine ++ ["END;".toList])

/-- A block for each record, and the end. -/
def blockOf (e : FieldSpec × List Char) : List Line := [e.1.name.toList, e.2, closing e.1]

def blockText (entries : List (FieldSpec × List Char)) : List Char :=
  List.intercalate ['\n'] (entries.flatMap blockOf ++ ["END".toList])

/-- A line that a text can hold: no line break in it, and no return before the next one. -/
def IsPlainLine (line : Line) : Prop := '\n' ∉ line ∧ line.getLast? ≠ some '\r'

theorem dropReturns_append {line rest : List Char} (hline : '\n' ∉ line)
    (hlast : line.getLast? ≠ some '\r' ∨ rest.head? ≠ some '\n') : dropReturns (line ++ rest) = line ++ dropReturns rest := by
  induction line with
  | nil => rfl
  | cons c line ih =>
    rw [List.mem_cons, not_or] at hline
    have htail : line.getLast? ≠ some '\r' ∨ rest.head? ≠ some '\n' := by
      cases line with
      | nil => exact .inl fun h => (nomatch h)
      | cons d line =>
        rwa [List.getLast?_cons_cons] at hlast
    rw [List.cons_append, dropReturns, ih hline.2 htail, List.cons_append]
    -- a return does not stand before a line break
    rintro cs rfl hcs
    cases line with
    | nil =>
      rw [List.nil_append] at hcs
      rw [hcs] at hlast
      rcases hlast with h | h
      · exact h rfl
      · exact h rfl
    | cons d line =>
      obtain ⟨rfl, -⟩ := List.cons_eq_cons.mp hcs
      exact hline.2 List.mem_cons_self

theorem dropReturns_lines {lines : List Line} (h : ∀ l ∈ lines, IsPlainLine l) :
    dropReturns (List.intercalate ['\n'] lines) = List.intercalate ['\n'] lines := by
  induction lines with
  | nil => rfl
  | cons l lines ih =>
    obtain ⟨hl, hlines⟩ := List.forall_mem_cons.mp h
    cases lines with
    | nil =>
      rw [List.intercalate_singleton]
      have hline : dropReturns (l ++ []) = l ++ dropReturns [] := dropReturns_append hl.1 (.inl hl.2)
      rwa [List.append_nil, dropReturns, List.append_nil] at hline
    | cons l' lines =>
      rw [List.intercalate_cons_cons, List.append_assoc, dropReturns_append hl.1 (.inl hl.2), List.singleton_append,
        dropReturns, ih hlines]
      intro _ h
      cases h

/-- The lines of a text are those it was put together from. -/
theorem textLines_join {lines : List Line} {last : Line} (h : ∀ l ∈ lines ++ [last], IsPlainLine l) (hlast : last ≠ []) :
    textLines (List.intercalate ['\n'] (lines ++ [last])) = lines ++ [last] := by
  unfold textLines
  rw [dropReturns_lines h, List.splitOn_intercalate _ (fun l hl => (h l hl).1) (List.concat_ne_nil _ _), List.reverse_append,
    List.reverse_singleton, List.singleton_append, List.dropWhile_cons_of_neg (by simpa using hlast), List.reverse_cons,
    List.reverse_reverse]

/-! ### The lines of a rendering -/

theorem isToken_chars {first rest : Char → Bool} {max : Nat} {text : List Char} (h : isToken first rest max text = true) :
    ∃ c cs, text = c :: cs ∧ first c = true ∧ ∀ d ∈ cs, rest d = true := by
  cases text with
  | nil => cases h
  | cons c cs =>
    unfold isToken at h
    rw [Bool.and_eq_true, Bool.and_eq_true, List.all_eq_true] at h
    exact ⟨c, cs, rfl, h.1.1, h.1.2⟩

theorem isSpace_of_lower {c : Char} (h : (c.isLower || c.isDigit || c == '_') = true) : isSpace c = false := by
  cases hspace : isSpace c with
  | false => rfl
  | true =>
    have hword : (c.isAlphanum || c == '_') = false := WordClass.asciiOnly.not_space c hspace
    have hunder : c.isAlphanum = true ∨ c = '_' := by
      have halphanum : c.isAlphanum = (c.isUpper || c.isLower || c.isDigit) := rfl
      rw [halphanum]
      simp only [Bool.or_eq_true, beq_iff_eq] at h ⊢
      tauto
    rcases hunder with h | rfl
    · rw [h] at hword
      cases hword
    · cases hword

/-- A name has no blank in it, and begins with a small letter. -/
theorem name_chars (spec : FieldSpec) :
    ∃ c cs, spec.name.toList = c :: cs ∧ c.isLower = true ∧ ∀ d ∈ spec.name.toList, isSpace d = false := by
  obtain ⟨c, cs, htext, hc, hcs⟩ := isToken_chars spec.wellNamed
  refine ⟨c, cs, htext, hc, ?_⟩
  rw [htext]
  refine List.forall_mem_cons.mpr ⟨isSpace_of_lower (by rw [hc]; rfl), fun d hd => isSpace_of_lower (hcs d hd)⟩

theorem strip_of_no_space {s : List Char} (h : ∀ c ∈ s, isSpace c = false) : strip s = s :=
  strip_of_ends (fun c hc => h c (List.mem_of_head? hc)) fun c hc => h c (List.mem_of_getLast? hc)

theorem plain_of_no_space {s : List Char} (h : ∀ c ∈ s, isSpace c = false) : IsPlainLine s := by
  constructor
  · intro hmem
    cases h _ hmem
  · intro hlast
    cases h _ (List.mem_of_getLast? hlast)

theorem closing_no_space (spec : FieldSpec) : ∀ c ∈ closing spec, isSpace c = false := by
  obtain ⟨_, _, _, _, hname⟩ := name_chars spec
  exact List.forall_mem_cons.mpr ⟨rfl, hname⟩

theorem splitOnce_append {word t : List Char} (hword : ∀ c ∈ word, isSpace c = false) (hne : word ≠ []) (ht : t ≠ [])
    (hfirst : ∀ c ∈ t.head?, isSpace c = false) : splitOnce (word ++ ' ' :: t) = some (word, t) := by
  have hskip : (word ++ ' ' :: t).dropWhile isSpace = word ++ ' ' :: t := by
    refine dropWhile_of_head fun c hc => hword c ?_
    rw [List.head?_append_of_ne_nil _ hne] at hc
    exact List.mem_of_head? hc
  have htake : (word ++ ' ' :: t).takeWhile (fun c => !isSpace c) = word := by
    rw [List.takeWhile_append_of_pos fun c hc => by rw [hword c hc]; rfl, List.takeWhile_cons_of_neg (by decide), List.append_nil]
  unfold splitOnce
  dsimp only
  rw [hskip, htake, List.drop_left, List.dropWhile_cons_of_pos (by decide), dropWhile_of_head hfirst]
  cases t with
  | nil => exact absurd rfl ht
  | cons c cs => rfl

/-- A value that can stand on a line of its own. -/
structure IsLineValue (v : List Char) : Prop where
  stripped : strip v = v
  nonempty : v ≠ []
  unbroken : '\n' ∉ v

section

variable {contract : RoleTransport} {e : FieldSpec × List Char}

theorem IsLineValue.head {v : List Char} (h : IsLineValue v) : ∀ c ∈ v.head?, isSpace c = false := by
  rw [← h.stripped]
  exact head_strip v

theorem IsLineValue.plain {v : List Char} (h : IsLineValue v) : IsPlainLine v := by
  refine ⟨h.unbroken, fun hlast => ?_⟩
  have hspace := last_strip v '\r'
  rw [h.stripped] at hspace
  cases hspace hlast

theorem strip_compactLine (e : FieldSpec × List Char) : strip (compactLine e) = compactLine e := by
  obtain ⟨c, cs, htext, -, hname⟩ := name_chars e.1
  refine strip_of_ends (fun d hd => hname d ?_) fun d hd => ?_
  · unfold compactLine at hd
    rw [List.head?_append_of_ne_nil _ (by rw [htext]; exact List.cons_ne_nil _ _)] at hd
    exact List.mem_of_head? hd
  · unfold compactLine at hd
    rw [← List.cons_append, ← List.append_assoc, List.getLast?_concat] at hd
    obtain rfl := Option.some_inj.mp hd
    rfl

/-- A line of the compact framing begins with a small letter. -/
theorem compactLine_ne (e : FieldSpec × List Char) : compactLine e ≠ [] ∧ compactLine e ≠ "END;".toList := by
  obtain ⟨c, cs, htext, hlower, -⟩ := name_chars e.1
  unfold compactLine
  rw [htext, List.cons_append]
  refine ⟨List.cons_ne_nil _ _, fun h => ?_⟩
  obtain ⟨rfl, -⟩ := List.cons_eq_cons.mp h
  cases hlower

theorem splitOnce_name (spec : FieldSpec) {t : List Char} (ht : t ≠ []) (hfirst : ∀ c ∈ t.head?, isSpace c = false) :
    splitOnce (spec.name.toList ++ ' ' :: t) = some (spec.name.toList, t) := by
  obtain ⟨c, cs, htext, -, hname⟩ := name_chars spec
  exact splitOnce_append hname (by rw [htext]; exact List.cons_ne_nil _ _) ht hfirst

theorem isCompactLine_compactLine (hv : IsLineValue e.2) : isCompactLine (compactLine e) = true := by
  have hsplit : splitOnce (compactLine e) = some (e.1.name.toList, e.2 ++ [';']) := by
    refine splitOnce_name e.1 (List.concat_ne_nil _ _) fun c hc => hv.head c ?_
    rwa [List.head?_append_of_ne_nil _ hv.nonempty] at hc
  have hlast : (compactLine e).getLast? = some ';' := by
    unfold compactLine
    rw [← List.cons_append, ← List.append_assoc, List.getLast?_concat]
  unfold isCompactLine
  rw [strip_compactLine, hsplit, hlast]
  simp

theorem splitOnce_record (hv : IsLineValue e.2) : splitOnce (compactLine e).dropLast = some (e.1.name.toList, e.2) := by
  unfold compactLine
  rw [← List.cons_append, ← List.append_assoc, List.dropLast_concat]
  exact splitOnce_name e.1 hv.nonempty hv.head

theorem plain_compactLine (hv : IsLineValue e.2) : IsPlainLine (compactLine e) := by
  obtain ⟨_, _, _, _, hname⟩ := name_chars e.1
  unfold compactLine
  constructor
  · have hname' := (plain_of_no_space hname).1
    have hvalue := hv.unbroken
    simp only [List.mem_append, List.mem_cons, List.not_mem_nil, or_false, not_or]
    exact ⟨hname', by decide, hvalue, by decide⟩
  · rw [← List.cons_append, ← List.append_assoc, List.getLast?_concat]
    decide

/-- The lines of the compact rendering frame its entries. -/
theorem compactFrame_render {entries : List (FieldSpec × List Char)} (hreg : ∀ e ∈ entries, e.1 ∈ contract.fields)
    (hv : ∀ e ∈ entries, IsLineValue e.2) :
    CompactFrame contract (entries.map compactLine ++ ["END;".toList]) entries := by
  induction entries with
  | nil => exact .stop (by decide) (List.forall_mem_nil _)
  | cons e entries ih =>
    obtain ⟨he, hreg⟩ := List.forall_mem_cons.mp hreg
    obtain ⟨hve, hv⟩ := List.forall_mem_cons.mp hv
    refine .record ?_ he ?_ (ih hreg hv)
    · rw [strip_compactLine]
      exact compactLine_ne e
    · rw [strip_compactLine]
      exact splitOnce_record hve

/-- So do the lines of the other one, where no value is read as the end or as the end of its block. -/
theorem blockFrame_render {entries : List (FieldSpec × List Char)} (hreg : ∀ e ∈ entries, e.1 ∈ contract.fields)
    (hv : ∀ e ∈ entries, IsLineValue e.2) (hlines : ∀ e ∈ entries, e.2 ≠ "END".toList ∧ e.2 ≠ closing e.1) :
    BlockFrame contract (entries.flatMap blockOf ++ ["END".toList]) entries := by
  induction entries with
  | nil => exact .stop (by decide) (List.forall_mem_nil _)
  | cons e entries ih =>
    obtain ⟨he, hreg⟩ := List.forall_mem_cons.mp hreg
    obtain ⟨hve, hv⟩ := List.forall_mem_cons.mp hv
    obtain ⟨hle, hlines⟩ := List.forall_mem_cons.mp hlines
    obtain ⟨_, _, _, _, hname⟩ := name_chars e.1
    have hrecord : BlockFrame contract (e.1.name.toList :: ([e.2] ++ closing e.1 :: (entries.flatMap blockOf ++ ["END".toList])))
        ((e.1, List.intercalate ['\n'] [e.2]) :: entries) := by
      refine .record he (strip_of_no_space hname) ?_ (strip_of_no_space (closing_no_space e.1)) (ih hreg hv hlines)
      intro l hl
      obtain rfl := List.mem_singleton.mp hl
      unfold IsValueLine
      rw [hve.stripped]
      exact ⟨hle.2, hle.1⟩
    rw [List.intercalate_singleton] at hrecord
    exact hrecord

theorem textLines_compactText {entries : List (FieldSpec × List Char)} (hv : ∀ e ∈ entries, IsLineValue e.2) :
    textLines (compactText entries) = entries.map compactLine ++ ["END;".toList] := by
  refine textLines_join ?_ (by decide)
  intro l hl
  rcases List.mem_append.mp hl with hl | hl
  · obtain ⟨e, he, rfl⟩ := List.mem_map.mp hl
    exact plain_compactLine (hv e he)
  · obtain rfl := List.mem_singleton.mp hl
    exact ⟨by decide, by decide⟩

theorem textLines_blockText {entries : List (FieldSpec × List Char)} (hv : ∀ e ∈ entries, IsLineValue e.2) :
    textLines (blockText entries) = entries.flatMap blockOf ++ ["END".toList] := by
  refine textLines_join ?_ (by decide)
  intro l hl
  rcases List.mem_append.mp hl with hl | hl
  · obtain ⟨e, he, hl⟩ := List.mem_flatMap.mp hl
    obtain ⟨_, _, _, _, hname⟩ := name_chars e.1
    rcases List.mem_cons.mp hl with rfl | hl
    · exact plain_of_no_space hname
    rcases List.mem_cons.mp hl with rfl | hl
    · exact (hv e he).plain
    · obtain rfl := List.mem_singleton.mp hl
      exact plain_of_no_space (closing_no_space e.1)
  · obtain rfl := List.mem_singleton.mp hl
    exact ⟨by decide, by decide⟩

theorem isCompact_compactLines {entries : List (FieldSpec × List Char)} (hv : ∀ e ∈ entries, IsLineValue e.2) :
    isCompact (entries.map compactLine ++ ["END;".toList]) = true := by
  unfold isCompact
  rw [Bool.and_eq_true, decide_eq_true_iff, List.all_eq_true]
  refine ⟨List.concat_ne_nil _ _, fun l hl => ?_⟩
  rcases List.mem_append.mp hl with hl | hl
  · obtain ⟨e, he, rfl⟩ := List.mem_map.mp hl
    exact isCompactLine_compactLine (hv e he)
  · obtain rfl := List.mem_singleton.mp hl
    decide

/-- The end of the block framing is no line of the compact one. -/
theorem isCompact_blockLines (lines : List Line) : isCompact (lines ++ ["END".toList]) = false := by
  unfold isCompact
  rw [List.all_append, show List.all ["END".toList] isCompactLine = false from by decide, Bool.and_false, Bool.and_false]

end

/-! ### Values of the registered roles -/

theorem registry_kinds : ∀ contract ∈ roleTransportRegistry, ∀ spec ∈ contract.fields,
    spec.valueKind ≠ .proofStep ∧ ∀ c ∈ spec.choices, isReference c.toList = true := by
  decide +kernel

theorem mem_of_resolveTransport {role : String} {contract : RoleTransport} (h : resolveTransport role = .ok contract) :
    contract ∈ roleTransportRegistry := by
  unfold resolveTransport fail at h
  split at h
  · cases h
  · rename_i found hfound
    obtain rfl := Except.ok.inj h
    exact List.mem_of_find?_eq_some hfound

/-- A reference has no line break in it and closes no block. -/
theorem line_of_reference {v : List Char} (h : isReference v = true) (spec : FieldSpec) : '\n' ∉ v ∧ v ≠ closing spec := by
  obtain ⟨c, cs, rfl, hc, hcs⟩ := isToken_chars h
  constructor
  · intro hmem
    rcases List.mem_cons.mp hmem with rfl | hmem
    · cases hc
    · cases hcs _ hmem
  · intro hclosing
    obtain ⟨rfl, -⟩ := List.cons_eq_cons.mp hclosing
    cases hc

theorem line_of_identifier {v : List Char} (h : isIdentifier v = true) (spec : FieldSpec) : '\n' ∉ v ∧ v ≠ closing spec := by
  obtain ⟨c, cs, rfl, hc, hcs⟩ := isToken_chars h
  constructor
  · intro hmem
    rcases List.mem_cons.mp hmem with rfl | hmem
    · cases hc
    · cases hcs _ hmem
  · intro hclosing
    obtain ⟨rfl, -⟩ := List.cons_eq_cons.mp hclosing
    cases hc

section

variable {w : WordClass} {quote : String → String} {role : String} {contract : RoleTransport}
  {registeredChoices : Option (Dict String (List String))}

/-- The choices that a caller registers for enumerated fields are lines that close no block. -/
def ChoicesAreLines (contract : RoleTransport) (registeredChoices : Option (Dict String (List String))) : Prop :=
  ∀ spec ∈ contract.fields, spec.valueKind = .enum → ∀ choices, choicesFor registeredChoices spec = some choices →
    ∀ c ∈ choices, '\n' ∉ c.toList ∧ c.toList ≠ closing spec

theorem line_of_valid (hrole : resolveTransport role = .ok contract) (hchoices : ChoicesAreLines contract registeredChoices)
    {spec : FieldSpec} {v : List Char} (hspec : spec ∈ contract.fields)
    (hv : Admissible spec (choicesFor registeredChoices spec) v) : '\n' ∉ v ∧ v ≠ closing spec := by
  obtain ⟨hkind, hlisted⟩ := registry_kinds contract (mem_of_resolveTransport hrole) spec hspec
  have hsyntax := hv.syntactic
  cases hspecKind : spec.valueKind with
  | proofStep => exact absurd hspecKind hkind
  | identifier =>
    rw [hspecKind] at hsyntax
    exact line_of_identifier hsyntax spec
  | reference =>
    rw [hspecKind] at hsyntax
    exact line_of_reference hsyntax spec
  | enum =>
    cases hchosen : choicesFor registeredChoices spec with
    | none =>
      have hmem := hv.chosen
      rw [hchosen, Option.getD_none] at hmem
      have hreference := hlisted _ (hmem (spec.hasChoices hspecKind))
      rw [String.toList_ofList] at hreference
      exact line_of_reference hreference spec
    | some choices =>
      have hmem := hv.chosen
      have hoffered := hv.offered
      rw [hchosen, Option.getD_some] at hmem hoffered
      have hline := hchoices spec hspec hspecKind choices hchosen _ (hmem (hoffered rfl))
      rwa [String.toList_ofList] at hline

theorem Assignment.admissible (a : Assignment w contract registeredChoices) {e : FieldSpec × List Char} (he : e ∈ a.entries) :
    Admissible e.1 (choicesFor registeredChoices e.1) e.2 :=
  (validateValue_eq_ok_iff.mp (a.valid e he)).2.2.1

/-! ### Decoding an answer -/

/-- The framing that the decoder takes a text for. -/
def Framed (contract : RoleTransport) (lines : List Line) (rs : List (FieldSpec × List Char)) : Prop :=
  (isCompact lines = true ∧ CompactFrame contract lines rs) ∨ (isCompact lines = false ∧ BlockFrame contract lines rs)

theorem Framed.registered {lines : List Line} {rs : List (FieldSpec × List Char)} (h : Framed contract lines rs) :
    ∀ r ∈ rs, r.1 ∈ contract.fields := by
  rcases h with ⟨-, h⟩ | ⟨-, h⟩
  · exact h.registered
  · exact h.registered

theorem decode_eq_ok_iff (hrole : resolveTransport role = .ok contract) {text : List Char} {r : DecodedRoleFields} :
    decodeRoleFields w quote text role registeredChoices = .ok r ↔
      text.length ≤ maxTransportChars ∧ ∃ rs d, Framed contract (textLines text) rs ∧
        storeAll w contract registeredChoices rs .empty = .ok d ∧ finishDecoded contract d = .ok r := by
  unfold decodeRoleFields Framed
  rw [hrole]
  dsimp only
  by_cases hcap : maxTransportChars < text.length
  · rw [if_pos hcap]
    exact ⟨fun h => (nomatch h), fun h => absurd h.1 (Nat.not_le.mpr hcap)⟩
  rw [if_neg hcap]
  have hloop : ∀ d, (if isCompact (textLines text) then compactLoop w quote contract registeredChoices (textLines text) .empty
      else blockLoop w quote contract registeredChoices none (textLines text) .empty) = .ok d ↔
      ∃ rs, Framed contract (textLines text) rs ∧ storeAll w contract registeredChoices rs .empty = .ok d := by
    intro d
    unfold Framed
    cases isCompact (textLines text) with
    | true =>
      rw [if_pos rfl, compactLoop_eq_ok_iff]
      simp
    | false =>
      rw [if_neg (by decide), blockLoop_eq_ok_iff]
      simp
  constructor
  · intro h
    split at h
    · cases h
    rename_i d hd
    obtain ⟨rs, hframed, hstore⟩ := (hloop d).mp hd
    exact ⟨Nat.le_of_not_lt hcap, rs, d, hframed, hstore, h⟩
  · rintro ⟨-, rs, d, hframed, hstore, hfinish⟩
    rw [(hloop d).mpr ⟨rs, hframed, hstore⟩]
    exact hfinish

/-- A text that frames an assignment is decoded to it. -/
theorem decode_of_framed (hrole : resolveTransport role = .ok contract) (a : Assignment w contract registeredChoices)
    {text : List Char} (hcap : text.length ≤ maxTransportChars) (hframed : Framed contract (textLines text) a.entries) :
    decodeRoleFields w quote text role registeredChoices = .ok a.decoded := by
  obtain ⟨d, hstore, hvalues⟩ := storeAll_valid (d := .empty) a.registered a.valid a.once
  have hitems : d.valuesIn = valuesOf a.entries := funext hvalues
  refine (decode_eq_ok_iff hrole).mpr ⟨hcap, a.entries, d, hframed, hstore, finishDecoded_eq_ok_iff.mpr ⟨?_, ?_⟩⟩
  · rw [hitems]
    exact a.present
  · rw [hitems]
    rfl

/-- A decoded text frames the records of an assignment, which it is decoded to. -/
theorem framed_of_decode (hrole : resolveTransport role = .ok contract) {text : List Char} {r : DecodedRoleFields}
    (h : decodeRoleFields w quote text role registeredChoices = .ok r) :
    ∃ (a : Assignment w contract registeredChoices) (rs : List (FieldSpec × List Char)),
      Framed contract (textLines text) rs ∧ Validated w contract registeredChoices rs a.entries ∧ r = a.decoded := by
  obtain ⟨-, rs, d, hframed, hstore, hfinish⟩ := (decode_eq_ok_iff hrole).mp h
  obtain ⟨hpresent, rfl⟩ := finishDecoded_eq_ok_iff.mp hfinish
  have hnone : SingleValued contract (Decoded.valuesIn .empty) := fun _ _ _ => Nat.zero_le 1
  obtain ⟨hsingle, entries, hvalidated, hvalues⟩ := storeAll_ok hframed.registered hnone hstore
  have hitems : d.valuesIn = valuesOf entries := funext hvalues
  have hentries : ∀ e ∈ entries, e.1 ∈ contract.fields ∧
      validateValue w contract.role e.1 (choicesFor registeredChoices e.1) e.2 = .ok e.2 := by
    have hreg := hframed.registered
    clear hframed hstore hsingle hpresent hvalues hitems hfinish h
    induction hvalidated with
    | nil => exact List.forall_mem_nil _
    | @cons r e rs entries hre _ ih =>
      obtain ⟨hr, hrs⟩ := List.forall_mem_cons.mp hreg
      refine List.forall_mem_cons.mpr ⟨?_, ih hrs⟩
      rw [hre.1]
      exact ⟨hr, validateValue_fixed hre.2⟩
  rw [hitems] at hsingle hpresent
  exact ⟨⟨entries, fun e he => (hentries e he).1, fun e he => (hentries e he).2, hsingle, hpresent⟩, rs, hframed, hvalidated,
    by rw [hitems]; rfl⟩

/-- A valid value can stand on a line of its own. -/
theorem Assignment.lineValues (hrole : resolveTransport role = .ok contract) (hchoices : ChoicesAreLines contract registeredChoices)
    (a : Assignment w contract registeredChoices) : ∀ e ∈ a.entries, IsLineValue e.2 :=
  fun e he => ⟨(a.admissible he).stripped, (a.admissible he).nonempty,
    (line_of_valid hrole hchoices (a.registered e he) (a.admissible he)).1⟩

theorem decode_compactText (hrole : resolveTransport role = .ok contract) (hchoices : ChoicesAreLines contract registeredChoices)
    (a : Assignment w contract registeredChoices) (hcap : (compactText a.entries).length ≤ maxTransportChars) :
    decodeRoleFields w quote (compactText a.entries) role registeredChoices = .ok a.decoded := by
  have hvalues := a.lineValues hrole hchoices
  refine decode_of_framed hrole a hcap (.inl ?_)
  rw [textLines_compactText hvalues]
  exact ⟨isCompact_compactLines hvalues, compactFrame_render a.registered hvalues⟩

theorem decode_blockText (hrole : resolveTransport role = .ok contract) (hchoices : ChoicesAreLines contract registeredChoices)
    (a : Assignment w contract registeredChoices) (hend : ∀ e ∈ a.entries, e.2 ≠ "END".toList)
    (hcap : (blockText a.entries).length ≤ maxTransportChars) :
    decodeRoleFields w quote (blockText a.entries) role registeredChoices = .ok a.decoded := by
  have hvalues := a.lineValues hrole hchoices
  have hclosing : ∀ e ∈ a.entries, e.2 ≠ closing e.1 :=
    fun e he => (line_of_valid hrole hchoices (a.registered e he) (a.admissible he)).2
  refine decode_of_framed hrole a hcap (.inr ?_)
  rw [textLines_blockText hvalues]
  exact ⟨isCompact_blockLines _, blockFrame_render a.registered hvalues fun e he => ⟨hend e he, hclosing e he⟩⟩

end

/-- Both framings of an assignment are decoded to it, where no value is the end of the block framing and the texts fit; and
what is decoded is an assignment, framed up to the end with nothing behind it. -/
theorem framings_agree (w : WordClass) (quote : String → String) (registeredChoices : Option (Dict String (List String)))
    {role : String} {contract : RoleTransport} (hrole : resolveTransport role = .ok contract) :
    (ChoicesAreLines contract registeredChoices → ∀ a : Assignment w contract registeredChoices,
      ((compactText a.entries).length ≤ maxTransportChars →
        decodeRoleFields w quote (compactText a.entries) role registeredChoices = .ok a.decoded) ∧
      ((∀ e ∈ a.entries, e.2 ≠ "END".toList) → (blockText a.entries).length ≤ maxTransportChars →
        decodeRoleFields w quote (blockText a.entries) role registeredChoices = .ok a.decoded)) ∧
    ∀ text r, decodeRoleFields w quote text role registeredChoices = .ok r →
      ∃ (a : Assignment w contract registeredChoices) (rs : List (FieldSpec × List Char)),
        (CompactFrame contract (textLines text) rs ∨ BlockFrame contract (textLines text) rs) ∧
        Validated w contract registeredChoices rs a.entries ∧
        (∀ e ∈ a.entries, Admissible e.1 (choicesFor registeredChoices e.1) e.2) ∧ r = a.decoded := by
  refine ⟨fun hchoices a => ⟨decode_compactText hrole hchoices a, decode_blockText hrole hchoices a⟩, fun text r h => ?_⟩
  obtain ⟨a, rs, hframed, hvalidated, rfl⟩ := framed_of_decode hrole h
  refine ⟨a, rs, ?_, hvalidated, fun e he => a.admissible he, rfl⟩
  rcases hframed with ⟨-, h⟩ | ⟨-, h⟩
  · exact .inl h
  · exact .inr h

/-- The fields of the judge. -/
def judge : RoleTransport :=
  transportOf "judge" [ref "target_proposition_ref", enum "decision" "ACCEPT" ["REJECT", "INCONCLUSIVE"], ident "reason_code"]

/-- A judgement with a code for its reason. -/
def judgement (code : List Char) : List (FieldSpec × List Char) :=
  [(ref "target_proposition_ref", "claim.1".toList), (enum "decision" "ACCEPT" ["REJECT", "INCONCLUSIVE"], "ACCEPT".toList),
    (ident "reason_code", code)]

def judgementOf (code : List Char)
    (hcode : validateValue .asciiOnly "judge" (ident "reason_code") none code = .ok code) :
    Assignment .asciiOnly judge none where
  entries := judgement code
  registered e he := by
    unfold judge transportOf judgement at *
    simp only [List.mem_cons, List.not_mem_nil, or_false] at he ⊢
    rcases he with rfl | rfl | rfl
    · exact .inl rfl
    · exact .inr (.inl rfl)
    · exact .inr (.inr rfl)
  valid e he := by
    unfold judgement at he
    simp only [List.mem_cons, List.not_mem_nil, or_false] at he
    rcases he with rfl | rfl | rfl
    · rfl
    · rfl
    · exact hcode
  once spec hspec _ := by
    unfold judge transportOf at hspec
    simp only [List.mem_cons, List.not_mem_nil, or_false] at hspec
    rcases hspec with rfl | rfl | rfl
    · exact Nat.le_refl 1
    · exact Nat.le_refl 1
    · exact Nat.le_refl 1
  present spec hspec _ := by
    unfold judge transportOf at hspec
    simp only [List.mem_cons, List.not_mem_nil, or_false] at hspec
    rcases hspec with rfl | rfl | rfl
    · exact List.cons_ne_nil _ _
    · exact List.cons_ne_nil _ _
    · exact List.cons_ne_nil _ _

/-- A value that is the end of the block framing can be given in the compact one only, and no text above the cap is decoded. -/
theorem end_value_unclosed :
    (decodeRoleFields .asciiOnly id (compactText (judgement "END".toList)) "judge" none =
      .ok (judgementOf "END".toList rfl).decoded ∧
    decodeRoleFields .asciiOnly id (blockText (judgement "END".toList)) "judge" none =
      .error (.adapter ⟨"UNCLOSED_FIELD", "END occurred inside field", "judge", "reason_code"⟩)) ∧
    ∀ text : List Char, maxTransportChars < text.length → decodeRoleFields .asciiOnly id text "premise_auditor" none =
      .error (.adapter ⟨"RESPONSE_TOO_LARGE", "response exceeds cap", "premise_auditor", ""⟩) := by
  have hrole : resolveTransport "judge" = .ok judge := rfl
  have hchoices : ChoicesAreLines judge none := fun _ _ _ _ h => (nomatch h)
  refine ⟨⟨decode_compactText hrole hchoices (judgementOf "END".toList rfl) (by decide +kernel), by decide +kernel⟩, ?_⟩
  intro text hcap
  obtain ⟨contract, hcontract⟩ : ∃ contract, resolveTransport "premise_auditor" = .ok contract := ⟨_, rfl⟩
  unfold decodeRoleFields
  rw [hcontract]
  dsimp only
  rw [if_pos hcap]
  rfl

theorem framings_agree_judgement :
    decodeRoleFields .asciiOnly id (compactText (judgement "SOUND".toList)) "judge" none =
      .ok (judgementOf "SOUND".toList rfl).decoded ∧
    decodeRoleFields .asciiOnly id (blockText (judgement "SOUND".toList)) "judge" none =
      .ok (judgementOf "SOUND".toList rfl).decoded := by
  have hrole : resolveTransport "judge" = .ok judge := rfl
  have hchoices : ChoicesAreLines judge none := fun _ _ _ _ h => (nomatch h)
  obtain ⟨hcompact, hblock⟩ := (framings_agree .asciiOnly id none hrole).1 hchoices (judgementOf "SOUND".toList rfl)
  exact ⟨hcompact (by decide +kernel), hblock (by decide +kernel) (by decide +kernel)⟩

end Transport

end KakeyaEngine
