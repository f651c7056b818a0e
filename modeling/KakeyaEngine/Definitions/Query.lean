import KakeyaEngine.Orchestration.CrashConsistency
import Mathlib.Data.List.Sort

/-!
# Definition queries and their candidates

A missing concept is asked for by a `DefinitionQuery`, which is known by the hash of all its fields.  The sources of a
registry answer it with untyped candidates and a record of what was searched, and `normalizeCandidates` makes typed
candidates of the answers: each known by its own hash, one for each hash, in the order of the hashes.
-/

namespace KakeyaEngine

namespace Definitions

open LeanGate (strip squeeze occursIn)
open Orchestration (CheckpointError sha256Text compactLayout iterate strings)
open PyValue (dumps)

/-- `digest`. -/
def digest (value : PyValue) : String := sha256Text (dumps compactLayout value)

/-- `" ".join(text.split())`. -/
def squeezed (text : String) : String := String.ofList (squeeze text.toList)

/-- `text.strip()`. -/
def stripped (text : String) : String := String.ofList (strip text.toList)

-- how strings are quoted inside other values
variable (quote : String → String)

/-- `_stable_tuple` of values that were listed. -/
def stableTuple (values : List PyValue) : List String :=
  (((values.filter fun v => stripped (v.text quote) ≠ "").map fun v => squeezed (v.text quote)).dedup).insertionSort (· ≤ ·)

/-- `_stable_tuple`. -/
def stableTupleOf (values : PyValue) : Except CheckpointError (List String) := (iterate values).map (stableTuple quote)

/-- `a.get(x) or a.get(y) or … or default`. -/
def firstOf (mapping : Dict String PyValue) (names : List String) (default : PyValue) : PyValue :=
  ((names.filterMap mapping.get?).find? PyValue.truthy).getD default

/-- `str(a.get(name, default))`. -/
def textField (mapping : Dict String PyValue) (name default : String) : String :=
  ((mapping.get? name).getD (.str default)).text quote

/-- A value that has `get`. -/
def mappingOf (v : PyValue) : Except CheckpointError (Dict String PyValue) :=
  match v.mapping? with
  | some m => .ok m
  | none => .error .attributeError

/-! ### Queries -/

structure DefinitionQuery where
  conceptId : String
  useSites : List String
  parentHash : String
  typedIrHash : String
  auditorHash : String
  criticEvidenceHashes : List String
  counterexampleEvidenceHashes : List String
  domain : String
  codomain : String
  requiredProperties : List String
  hardProperties : List String
  theoremDependencies : List String
  environmentHash : String
  priorFailureHashes : List String
deriving DecidableEq

namespace DefinitionQuery

/-- `asdict(query)`. -/
def asdict (q : DefinitionQuery) : List (String × PyValue) :=
  [("concept_id", .str q.conceptId), ("use_sites", strings q.useSites), ("parent_hash", .str q.parentHash),
    ("typed_ir_hash", .str q.typedIrHash), ("auditor_hash", .str q.auditorHash),
    ("critic_evidence_hashes", strings q.criticEvidenceHashes),
    ("counterexample_evidence_hashes", strings q.counterexampleEvidenceHashes), ("domain", .str q.domain),
    ("codomain", .str q.codomain), ("required_properties", strings q.requiredProperties),
    ("hard_properties", strings q.hardProperties), ("theorem_dependencies", strings q.theoremDependencies),
    ("environment_hash", .str q.environmentHash), ("prior_failure_hashes", strings q.priorFailureHashes)]

def fingerprint (q : DefinitionQuery) : String := digest (.dict q.asdict)

end DefinitionQuery

/-- `build_definition_query`. -/
def buildDefinitionQuery (gap : Dict String PyValue) (parentHash typedIrHash auditorHash : String)
    (criticEvidenceHashes counterexampleEvidenceHashes theoremDependencies : List String) (environmentHash : String)
    (priorFailureHashes : List String) : Except CheckpointError DefinitionQuery := do
  let concept := stripped ((firstOf gap ["definition_id", "concept_id"] (.str "")).text quote)
  if concept = "" then .error (.valueError "definition query requires exactly one concept ID")
  else do
    let required := firstOf gap ["required_properties", "properties"] (.list [])
    let useSites ← stableTupleOf quote (firstOf gap ["use_sites", "usage_sites", "symbol_ids"] (.list []))
    let requiredProperties ← stableTupleOf quote required
    let hardProperties ← stableTupleOf quote (firstOf gap ["hard_properties"] required)
    .ok {
      conceptId := concept
      useSites := useSites
      parentHash := parentHash
      typedIrHash := typedIrHash
      auditorHash := auditorHash
      criticEvidenceHashes := stableTuple quote (criticEvidenceHashes.map .str)
      counterexampleEvidenceHashes := stableTuple quote (counterexampleEvidenceHashes.map .str)
      domain := squeezed ((firstOf gap ["domain", "required_domain"] (.str "")).text quote)
      codomain := squeezed ((firstOf gap ["codomain", "required_codomain", "required_type_id"] (.str "")).text quote)
      requiredProperties := requiredProperties
      hardProperties := hardProperties
      theoremDependencies := stableTuple quote (theoremDependencies.map .str)
      environmentHash := environmentHash
      priorFailureHashes := stableTuple quote (priorFailureHashes.map .str) }

/-! ### Sources -/

structure SourceProvenance where
  sourceId : String
  sourceKind : String
  status : String
  locator : String
  environmentHash : String
  evidenceHash : String
  detail : String := ""
deriving DecidableEq

/-- `asdict(provenance)`. -/
def SourceProvenance.asdict (s : SourceProvenance) : PyValue :=
  .dict [("source_id", .str s.sourceId), ("source_kind", .str s.sourceKind), ("status", .str s.status),
    ("locator", .str s.locator), ("environment_hash", .str s.environmentHash), ("evidence_hash", .str s.evidenceHash),
    ("detail", .str s.detail)]

/-- `_status`. -/
def sourceStatus (sourceId kind status : String) (query : DefinitionQuery) (locator : String) (evidence : List PyValue)
    (detail : String) : SourceProvenance :=
  ⟨sourceId, kind, status, locator, query.environmentHash, digest (.list evidence), detail⟩

/-- What a source answers. -/
abbrev SourceAdapter :=
  DefinitionQuery → Dict String PyValue → Except CheckpointError (List PyValue × SourceProvenance)

/-- `[item for item in items if test(item)]`, with a test that may raise. -/
def filterItems (test : Dict String PyValue → Except CheckpointError Bool) :
    List PyValue → Except CheckpointError (List PyValue)
  | [] => .ok []
  | item :: items => do
    let m ← mappingOf item
    let keep ← test m
    let rest ← filterItems test items
    .ok (if keep then item :: rest else rest)

/-- The items of the context that pass a test. -/
def contextItems (context : Dict String PyValue) (name : String)
    (test : Dict String PyValue → Except CheckpointError Bool) : Except CheckpointError (List PyValue) := do
  let items ← iterate ((context.get? name).getD (.list []))
  filterItems test items

/-- `query.concept_id in set(map(str, item.get("concept_ids", ())))`. -/
def hasConcept (query : DefinitionQuery) (item : Dict String PyValue) : Except CheckpointError Bool :=
  (iterate ((item.get? "concept_ids").getD (.list []))).map fun ids =>
    decide (query.conceptId ∈ ids.map (PyValue.text quote))

/-- A text with every occurrence of a part removed, from the left; `skip` characters of the last one are still to come. -/
def removeAll (part : List Char) : (skip : Nat) → List Char → List Char
  | _, [] => []
  | skip + 1, _ :: rest => removeAll part skip rest
  | 0, c :: rest =>
    if part.isPrefixOf (c :: rest) then removeAll part (part.length - 1) rest else c :: removeAll part 0 rest

variable (u : Auth.Unicode) (projectRoot : String) (oproofsRoot : Option String)

/-- `_mathlib_source`. -/
def mathlibSource : SourceAdapter := fun query context => do
  let name := removeAll "def_".toList 0 (Auth.lower u query.conceptId)
  let found ← contextItems context "mathlib_declarations" fun item =>
    .ok (occursIn name (Auth.lower u (textField quote item "tags" "")))
  .ok (found, sourceStatus "mathlib" "LOCAL_MATHLIB" "QUERIED" query projectRoot found
    (toString found.length ++ " typed declaration matches"))

/-- `_theorem_cards_source`. -/
def theoremCardsSource : SourceAdapter := fun query context => do
  let found ← contextItems context "definition_cards" (hasConcept quote query)
  .ok (found, sourceStatus "pinned_cards" "PINNED_CARD" "QUERIED" query "content-addressed-card-index" found
    (toString found.length ++ " cards matched"))

/-- `_local_corpus_source`, with the root that the environment names if it exists. -/
def localCorpusSource : SourceAdapter := fun query context =>
  match oproofsRoot with
  | none =>
    .ok ([], sourceStatus "oproofs" "LOCAL_PROOF_CORPUS" "UNAVAILABLE" query "" []
      "KAKEYA_OPROOFS_ROOT is not configured or does not exist")
  | some root => do
    let found ← contextItems context "oproofs_cards" (hasConcept quote query)
    .ok (found, sourceStatus "oproofs" "LOCAL_PROOF_CORPUS" "QUERIED" query root found "")

/-- `_local_publication_source`. -/
def localPublicationSource : SourceAdapter := fun query context => do
  let found ← contextItems context "publication_cards" (hasConcept quote query)
  .ok (found, sourceStatus "publications" "LOCAL_PUBLICATION_CARD" "QUERIED" query "local-definition-cards" found
    (toString found.length ++ " cards matched"))

/-- `item.get(name) == text`. -/
def fieldIs (item : Dict String PyValue) (name text : String) : Bool :=
  match item.get? name with
  | some v => v.same (.str text)
  | none => false

/-- `str(item.get(name)) == text`. -/
def fieldTextIs (item : Dict String PyValue) (name text : String) : Bool :=
  ((item.get? name).getD .null).text quote = text

/-- `_historical_source`. -/
def historicalSource : SourceAdapter := fun query context => do
  let found ← contextItems context "validated_history" fun item =>
    .ok (fieldIs item "semantic_validation" "VERIFIED" && fieldTextIs quote item "concept_id" query.conceptId)
  .ok (found, sourceStatus "validated_history" "VALIDATED_HISTORICAL" "QUERIED" query
    "resolution-store:historical_audit" found (toString found.length ++ " semantically validated definitions"))

/-- `_typed_synthesis_source`. -/
def typedSynthesisSource : SourceAdapter := fun query context => do
  let found ← contextItems context "typed_operator_synthesis" fun item =>
    .ok (fieldTextIs quote item "concept_id" query.conceptId &&
      (query.codomain = "" || fieldTextIs quote item "codomain" query.codomain))
  .ok (found, sourceStatus "typed_synthesis" "HOST_TYPED_SYNTHESIS" "QUERIED" query "registered-types-and-operators" found
    (toString found.length ++ " inhabitants constructed"))

/-- The adapters by their ids; `register` admits each id once. -/
abbrev DefinitionSourceRegistry := Dict String SourceAdapter

/-- `default_source_registry`. -/
def defaultSourceRegistry : DefinitionSourceRegistry :=
  Dict.ofEntries [("mathlib", mathlibSource quote u projectRoot), ("oproofs", localCorpusSource quote oproofsRoot),
    ("pinned_cards", theoremCardsSource quote), ("publications", localPublicationSource quote),
    ("typed_synthesis", typedSynthesisSource quote), ("validated_history", historicalSource quote)]

/-- Asks the sources one after the other. -/
def askAll (registry : DefinitionSourceRegistry) (query : DefinitionQuery) (context : Dict String PyValue) :
    List String → Except CheckpointError (List PyValue × List SourceProvenance)
  | [] => .ok ([], [])
  | sourceId :: ids =>
    match registry.get? sourceId with
    | none => .error (.keyError sourceId)
    | some adapter => do
      let answer ← adapter query context
      if answer.2.sourceId ≠ sourceId then .error (.valueError "source adapter returned mismatched provenance")
      else do
        let rest ← askAll registry query context ids
        .ok (answer.1 ++ rest.1, answer.2 :: rest.2)

/-- `registry.retrieve`. -/
def retrieve (registry : DefinitionSourceRegistry) (query : DefinitionQuery) (context : Dict String PyValue) :
    Except CheckpointError (List PyValue × List SourceProvenance) :=
  askAll registry query context (registry.keys.insertionSort (· ≤ ·))

/-! ### Candidates -/

structure TypedDefinitionCandidate where
  shortId : String
  conceptId : String
  branchId : String
  declarationName : String
  domain : String
  codomain : String
  binders : List String
  typedExpression : String
  dependencies : List String
  provenance : SourceProvenance
  requiredProperties : List String
  claimedProperties : List String
  existingReference : String := ""
  declarationKind : String := "def"
deriving DecidableEq

namespace TypedDefinitionCandidate

/-- The fields but the short id. -/
def payload (c : TypedDefinitionCandidate) : List (String × PyValue) :=
  [("concept_id", .str c.conceptId), ("branch_id", .str c.branchId), ("declaration_name", .str c.declarationName),
    ("domain", .str c.domain), ("codomain", .str c.codomain), ("binders", strings c.binders),
    ("typed_expression", .str c.typedExpression), ("dependencies", strings c.dependencies),
    ("provenance", c.provenance.asdict), ("required_properties", strings c.requiredProperties),
    ("claimed_properties", strings c.claimedProperties), ("existing_reference", .str c.existingReference),
    ("declaration_kind", .str c.declarationKind)]

/-- `asdict(candidate)`. -/
def asdict (c : TypedDefinitionCandidate) : PyValue := .dict (("short_id", .str c.shortId) :: c.payload)

def contentHash (c : TypedDefinitionCandidate) : String := digest (.dict c.payload)

end TypedDefinitionCandidate

/-- The typed candidate of a raw one, unless it has neither an expression nor a reference. -/
def normalizeCandidate (query : DefinitionQuery) (provenance : Dict String SourceProvenance) (raw : PyValue) :
    Except CheckpointError (Option TypedDefinitionCandidate) := do
  let m ← mappingOf raw
  match provenance.get? (textField quote m "source_id" "") with
  | none => .error (.valueError "candidate has no queried source provenance")
  | some source =>
    let expression := squeezed (textField quote m "typed_expression" "")
    let reference := squeezed (textField quote m "existing_reference" "")
    if expression = "" ∧ reference = "" then .ok none
    else do
      let binders ← stableTupleOf quote ((m.get? "binders").getD (.list []))
      let dependencies ← stableTupleOf quote ((m.get? "dependencies").getD (.list []))
      let claimed ← stableTupleOf quote ((m.get? "claimed_properties").getD (.list []))
      .ok (some {
        shortId := ""
        conceptId := query.conceptId
        branchId := textField quote m "branch_id" ""
        declarationName := stripped (textField quote m "declaration_name" "")
        domain := squeezed (textField quote m "domain" query.domain)
        codomain := squeezed (textField quote m "codomain" query.codomain)
        binders := binders
        typedExpression := expression
        dependencies := dependencies
        provenance := source
        requiredProperties := query.requiredProperties
        claimedProperties := claimed
        existingReference := reference
        declarationKind := textField quote m "declaration_kind" "def" })

/-- `normalize_candidates`. -/
def normalizeCandidates (query : DefinitionQuery) (rawCandidates : List PyValue) (sourceStatuses : List SourceProvenance) :
    Except CheckpointError (List TypedDefinitionCandidate) := do
  let provenance := Dict.ofEntries (sourceStatuses.map fun s => (s.sourceId, s))
  let normalized ← rawCandidates.mapM (normalizeCandidate quote query provenance)
  let dedup := Dict.ofEntries ((normalized.filterMap id).map fun c => (c.contentHash, c))
  let ordered := (dedup.keys.insertionSort (· ≤ ·)).filterMap dedup.get?
  .ok (ordered.mapIdx fun index c => { c with shortId := "C" ++ toString (index + 1) })

end Definitions

end KakeyaEngine
