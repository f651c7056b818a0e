import KakeyaEngine.Definitions.Query

/-!
# Resolving one concept

`resolveOneConcept` is one transaction on the resolution store: a query that the store has settled is answered from its
record, and any other query is put to the sources, its candidates are compiled and judged, and the store is written once
with the outcome.
-/

namespace KakeyaEngine

namespace Definitions

open Regex (WordClass seq alt cls char lineStart many many1 boundary oneOf)
open LeanGate (strip words anyCase)
open Orchestration (CheckpointError strings iterate)

def protocolVersion : Int := 1

def storeSchemaVersion : Int := 1

/-! ### The store -/

structure ResolutionStore where
  schemaVersion : Int
  protocolVersion : Int
  environmentBaseHash : String
  queries : Dict String PyValue := Dict.empty
  sources : Dict String PyValue := Dict.empty
  candidates : Dict String PyValue := Dict.empty
  properties : Dict String PyValue := Dict.empty
  branches : Dict String PyValue := Dict.empty
  exhaustions : Dict String PyValue := Dict.empty
  interfaces : Dict String PyValue := Dict.empty
  commits : Dict String PyValue := Dict.empty
  historicalAudit : Dict String PyValue := Dict.empty
  storeHash : String := ""
  environmentHash : String := ""

namespace ResolutionStore

/-- `store_hash(store)`. -/
def hash (s : ResolutionStore) : String :=
  digest (.dict [("schema_version", .int s.schemaVersion), ("protocol_version", .int s.protocolVersion),
    ("queries", .dict s.queries.entries), ("sources", .dict s.sources.entries),
    ("candidates", .dict s.candidates.entries), ("properties", .dict s.properties.entries),
    ("branches", .dict s.branches.entries), ("exhaustions", .dict s.exhaustions.entries),
    ("interfaces", .dict s.interfaces.entries), ("commits", .dict s.commits.entries),
    ("historical_audit", .dict s.historicalAudit.entries)])

/-- `resolution_environment_hash(store)`. -/
def resolutionEnvironmentHash (s : ResolutionStore) : String :=
  digest (.dict [("base", .str s.environmentBaseHash), ("commits", .dict s.commits.entries)])

/-- The store with its two hashes brought up to date. -/
def sealed (s : ResolutionStore) : ResolutionStore :=
  { s with storeHash := s.hash, environmentHash := s.resolutionEnvironmentHash }

end ResolutionStore

/-- `empty_store`. -/
def emptyStore (baseEnvironmentHash : String) : ResolutionStore :=
  ResolutionStore.sealed ⟨storeSchemaVersion, protocolVersion, baseEnvironmentHash, Dict.empty, Dict.empty, Dict.empty,
    Dict.empty, Dict.empty, Dict.empty, Dict.empty, Dict.empty, Dict.empty, "", ""⟩

/-- `load_resolution_store`, from the store that the file holds if it exists. -/
def loadResolutionStore (file : Option ResolutionStore) (baseEnvironmentHash : String) :
    Except CheckpointError ResolutionStore :=
  match file with
  | none => .ok (emptyStore baseEnvironmentHash)
  | some store =>
    if store.schemaVersion ≠ storeSchemaVersion then .error (.valueError "definition resolution store schema mismatch")
    else if store.protocolVersion ≠ protocolVersion then .error (.valueError "definition resolution protocol mismatch")
    else if store.storeHash ≠ store.hash then .error (.valueError "definition resolution store hash mismatch")
    else if store.environmentHash ≠ store.resolutionEnvironmentHash then
      .error (.valueError "definition resolution environment hash mismatch")
    else .ok store

/-! ### Judging a candidate -/

/-- `_FORBIDDEN`. -/
def forbidden : Regex :=
  oneOf [seq boundary (seq (oneOf (["axiom", "opaque", "unsafe", "sorry", "admit", "placeholder", "todo"].map fun t =>
      anyCase t.toList)) boundary), LeanGate.word "...", char '…']

/-- The declarations that would add an assumption. -/
def hiddenAssumption : Regex :=
  seq lineStart (seq (many Regex.isSpace) (seq (words ["variable", "noncomputable section"]) boundary))

/-- `lean_source`. -/
def leanSource (c : TypedDefinitionCandidate) : Except CheckpointError String :=
  if c.existingReference ≠ "" then .ok ("#check " ++ c.existingReference)
  else if c.declarationKind ∉ ["def", "abbrev"] then .error (.valueError "candidate declaration kind must be def or abbrev")
  else if c.declarationName = "" then .error (.valueError "generated declaration requires a name")
  else
    let binders := " ".intercalate c.binders
    .ok (c.declarationKind ++ " " ++ c.declarationName ++ (if binders ≠ "" then " " ++ binders else "") ++
      (if c.codomain ≠ "" then " : " ++ c.codomain else "") ++ " := " ++ c.typedExpression)

structure LeanRun where
  timedOut : Bool
  returncode : Int
  output : String

/-- The last characters of a text. -/
def lastCharacters (n : Nat) (text : String) : String := String.ofList (text.toList.drop (text.toList.length - n))

structure Compilation where
  compiled : Bool
  status : String
  hash : String

/-- `compile_candidate`. -/
def compileCandidate (w : WordClass) (runCompiler : String → LeanRun) (environmentHash : String)
    (c : TypedDefinitionCandidate) : Except CheckpointError Compilation := do
  let source ← leanSource c
  if (forbidden.search w source.toList).isSome || (hiddenAssumption.search w source.toList).isSome then
    .ok ⟨false, "HIDDEN_ASSUMPTION_OR_PLACEHOLDER", digest (.str source)⟩
  else
    let content := "import Mathlib\n\nset_option autoImplicit false\n\n-- environment:" ++ environmentHash ++ "\n" ++
      source ++ "\n"
    let run := runCompiler content
    if run.timedOut then .ok ⟨false, "LEAN_TIMEOUT", digest (.str content)⟩
    else if run.returncode ≠ 0 then
      .ok ⟨false, "LEAN_REJECTED:" ++ lastCharacters 800 run.output, digest (.str content)⟩
    else .ok ⟨true, "ELABORATED", digest (.str content)⟩

structure PropertyEvidence where
  propertyId : String
  status : String
  evidenceKind : String
  evidenceRef : String
  detail : String := ""
deriving DecidableEq

/-- `asdict(evidence)`. -/
def PropertyEvidence.asdict (e : PropertyEvidence) : PyValue :=
  .dict [("property_id", .str e.propertyId), ("status", .str e.status), ("evidence_kind", .str e.evidenceKind),
    ("evidence_ref", .str e.evidenceRef), ("detail", .str e.detail)]

/-- What the functions of the language's library and the process depend on. -/
structure Runtime where
  unicode : Auth.Unicode
  upper : String → String
  wordClass : WordClass
  quote : String → String
  runCompiler : String → LeanRun
  now : PyValue

variable (rt : Runtime)

/-- One pass of `verify_properties`. -/
def verifyProperty (candidateHash : String) (evidence : Dict String PyValue) (propertyId : String) :
    Except CheckpointError PropertyEvidence := do
  let record ← mappingOf ((evidence.get? propertyId).getD (.dict []))
  let hashes ← iterate ((record.get? "candidate_hashes").getD (.list []))
  let hashes := hashes.map (PyValue.text rt.quote)
  let status := if hashes = [] ∨ candidateHash ∈ hashes then rt.upper (textField rt.quote record "status" "UNKNOWN")
    else "UNKNOWN"
  let status := if status ∈ ["VERIFIED", "REFUTED", "UNKNOWN"] then status else "UNKNOWN"
  let evidenceRef := textField rt.quote record "evidence_ref" ""
  let status := if status = "VERIFIED" ∧ evidenceRef = "" then "UNKNOWN" else status
  .ok ⟨propertyId, status, textField rt.quote record "evidence_kind" "NONE", evidenceRef,
    textField rt.quote record "detail" ""⟩

/-- `verify_properties`. -/
def verifyProperties (query : DefinitionQuery) (candidateHash : String) (evidence : Dict String PyValue) :
    Except CheckpointError (List PropertyEvidence) :=
  query.requiredProperties.mapM (verifyProperty rt candidateHash evidence)

/-! ### Branches and interfaces -/

structure DefinitionInterpretationBranch where
  branchId : String
  queryHash : String
  candidateHash : String
  rewrittenParentHash : String
  rewrittenTypedIrHash : String
  assumptions : List String
  theoremDependencies : List String
  falsificationCriteria : List String
  successCriteria : List String
  equivalenceObligationHash : String

/-- `asdict(branch)`. -/
def DefinitionInterpretationBranch.asdict (b : DefinitionInterpretationBranch) : PyValue :=
  .dict [("branch_id", .str b.branchId), ("query_hash", .str b.queryHash), ("candidate_hash", .str b.candidateHash),
    ("rewritten_parent_hash", .str b.rewrittenParentHash), ("rewritten_typed_ir_hash", .str b.rewrittenTypedIrHash),
    ("assumptions", strings b.assumptions), ("theorem_dependencies", strings b.theoremDependencies),
    ("falsification_criteria", strings b.falsificationCriteria), ("success_criteria", strings b.successCriteria),
    ("equivalence_obligation_hash", .str b.equivalenceObligationHash)]

/-- `_branch`. -/
def branchOf (query : DefinitionQuery) (candidateHash : String) : DefinitionInterpretationBranch :=
  let rewrittenParent := digest (.dict [("parent", .str query.parentHash), ("concept", .str query.conceptId),
    ("candidate", .str candidateHash)])
  { branchId := "B-" ++ String.ofList (candidateHash.toList.take 16)
    queryHash := query.fingerprint
    candidateHash := candidateHash
    rewrittenParentHash := rewrittenParent
    rewrittenTypedIrHash := digest (.dict [("typed_ir", .str query.typedIrHash), ("candidate", .str candidateHash)])
    assumptions := []
    theoremDependencies := query.theoremDependencies
    falsificationCriteria := query.hardProperties.map ("refute:" ++ ·)
    successCriteria := query.hardProperties.map ("verify:" ++ ·)
    equivalenceObligationHash := digest (.dict [("original_parent", .str query.parentHash),
      ("rewritten_parent", .str rewrittenParent), ("obligation", .str "semantic_equivalence_or_explicit_reduction")]) }

structure DefinitionInterface where
  interfaceId : String
  queryHash : String
  conceptId : String
  operatorType : String
  minimumProperties : List String
  conditionalParentHash : String
  missingAxiomObligations : List String
  viable : Bool

/-- `asdict(interface)`. -/
def DefinitionInterface.asdict (i : DefinitionInterface) : PyValue :=
  .dict [("interface_id", .str i.interfaceId), ("query_hash", .str i.queryHash), ("concept_id", .str i.conceptId),
    ("operator_type", .str i.operatorType), ("minimum_properties", strings i.minimumProperties),
    ("conditional_parent_hash", .str i.conditionalParentHash),
    ("missing_axiom_obligations", strings i.missingAxiomObligations), ("viable", .bool i.viable)]

/-- The ids of the auditor's ontology, which are not executable types. -/
def ontologyId : Regex :=
  seq (alt Regex.textStart (cls fun c => c == ' ' || c == '→')) (seq (words ["TYPE", "DOM"]) (seq (char '_')
    (many1 fun c => c.isUpper || c.isDigit || c == '_')))

/-- `synthesize_interface`. -/
def synthesizeInterface (w : WordClass) (query : DefinitionQuery) : DefinitionInterface :=
  let operatorType :=
    if query.domain ≠ "" ∧ query.codomain ≠ "" then query.domain ++ " → " ++ query.codomain
    else if query.codomain ≠ "" then query.codomain
    else query.domain
  let interfaceId := digest (.dict [("query", .str query.fingerprint), ("operator_type", .str operatorType),
    ("minimum_properties", strings query.hardProperties), ("uses", strings query.useSites)])
  { interfaceId := interfaceId
    queryHash := query.fingerprint
    conceptId := query.conceptId
    operatorType := if operatorType ≠ "" then operatorType else "USAGE_DERIVED_UNKNOWN_TYPE"
    minimumProperties := query.hardProperties
    conditionalParentHash := digest (.dict [("parent", .str query.parentHash), ("interface", .str interfaceId)])
    missingAxiomObligations := query.hardProperties.map ("AXIOM_OBLIGATION:" ++ ·)
    viable := operatorType ≠ "" && (ontologyId.search w operatorType.toList).isNone }

/-! ### The transaction -/

structure ResolutionResult where
  status : String
  conceptId : String
  queryHash : String
  sourceStatuses : List SourceProvenance
  candidateHashes : List PyValue
  branchHashes : List PyValue
  propertyStatuses : PyValue
  exhaustionHash : String
  interfaceHash : String
  committedCandidateHash : String
  storeHashBefore : String
  storeHashAfter : String
  environmentHashBefore : String
  environmentHashAfter : String
  reason : String

/-- The status with which a record of the store is answered again. -/
def replayStatus (status : PyValue) : String :=
  if status.same (.str "EXHAUSTED") then "IDENTICAL_QUERY_EXHAUSTED" else "IDEMPOTENT_REPLAY"

/-- The answer from the record of a terminal query. -/
def replay (query : DefinitionQuery) (store : ResolutionStore) (previous : Dict String PyValue) :
    Except CheckpointError ResolutionResult :=
  match previous.get? "status" with
  | none => .error (.keyError "status")
  | some status => do
    let candidateHashes ← iterate ((previous.get? "candidate_hashes").getD (.list []))
    let branchHashes ← iterate ((previous.get? "branch_hashes").getD (.list []))
    .ok {
      status := replayStatus status
      conceptId := query.conceptId
      queryHash := query.fingerprint
      sourceStatuses := []
      candidateHashes := candidateHashes
      branchHashes := branchHashes
      propertyStatuses := (previous.get? "property_statuses").getD (.dict [])
      exhaustionHash := textField rt.quote previous "exhaustion_hash" ""
      interfaceHash := textField rt.quote previous "interface_hash" ""
      committedCandidateHash := textField rt.quote previous "committed_candidate_hash" ""
      storeHashBefore := store.hash
      storeHashAfter := store.hash
      environmentHashBefore := store.resolutionEnvironmentHash
      environmentHashAfter := store.resolutionEnvironmentHash
      reason := "identical terminal query cannot rerun without semantic input change" }

/-- A candidate with what was found out about it. -/
structure Judged where
  candidate : TypedDefinitionCandidate
  compilation : Compilation
  evidence : List PropertyEvidence

namespace Judged

/-- The statuses by property. -/
def statuses (j : Judged) : Dict String String := Dict.ofEntries (j.evidence.map fun e => (e.propertyId, e.status))

/-- The hard properties that are not verified. -/
def unmet (query : DefinitionQuery) (j : Judged) : List String :=
  query.hardProperties.filter fun p => j.statuses.get? p ≠ some "VERIFIED"

def survives (query : DefinitionQuery) (j : Judged) : Bool := j.compilation.compiled && j.unmet query = []

def statusesDict (j : Judged) : PyValue := .dict (j.statuses.entries.map fun e => (e.1, .str e.2))

/-- What the exhaustion record says of a rejected candidate. -/
def rejection (query : DefinitionQuery) (j : Judged) : PyValue :=
  .dict [("compile_status", .str j.compilation.status), ("compilation_hash", .str j.compilation.hash),
    ("unmet_hard_properties", strings (j.unmet query))]

end Judged

/-- One pass of the loop over the candidates. -/
def judge (query : DefinitionQuery) (evidence : Dict String PyValue) (c : TypedDefinitionCandidate) :
    Except CheckpointError Judged := do
  let compilation ← compileCandidate rt.wordClass rt.runCompiler query.environmentHash c
  let found ← verifyProperties rt query c.contentHash evidence
  .ok ⟨c, compilation, found⟩

/-- The place of a candidate under the model's ranking. -/
def rank (rankings : List String) (c : TypedDefinitionCandidate) : Nat := rankings.idxOf c.shortId

/-- The candidates in the order of the ranking, then of their hashes. -/
def rankCandidates (rankings : List String) (cs : List TypedDefinitionCandidate) :
    Except CheckpointError (List TypedDefinitionCandidate) :=
  if rankings ≠ [] ∧ (¬ rankings.Nodup ∨ ¬ rankings ⊆ cs.map (·.shortId)) then
    .error (.valueError "model ranking may contain scoped short candidate IDs only")
  else .ok (cs.insertionSort fun a b => rank rankings a < rank rankings b ∨
    (rank rankings a = rank rankings b ∧ a.contentHash ≤ b.contentHash))

/-- What the judged candidates amount to. -/
structure Outcome where
  status : String
  reason : String
  store : ResolutionStore
  exhaustionHash : String := ""
  interfaceHash : String := ""
  committedHash : String := ""

/-- The outcome for the survivors, from the store with the candidates and branches in it. -/
def settle (query : DefinitionQuery) (statuses : List SourceProvenance) (judged : List Judged) (store : ResolutionStore) :
    Except CheckpointError Outcome :=
  match judged.filter (Judged.survives query) with
  | [] =>
    let interface := synthesizeInterface rt.wordClass query
    let interfaceHash := digest interface.asdict
    let exhaustion : PyValue := .dict [("schema_version", .int 1), ("query_hash", .str query.fingerprint),
      ("concept_id", .str query.conceptId), ("parent_hash", .str query.parentHash),
      ("environment_hash", .str query.environmentHash), ("sources", .list (statuses.map SourceProvenance.asdict)),
      ("candidate_hashes", strings (judged.map fun j => j.candidate.contentHash)),
      ("rejections", .dict (Dict.ofEntries (judged.map fun j => (j.candidate.contentHash, j.rejection query))).entries),
      ("unmet_properties", strings query.hardProperties), ("interface_hash", .str interfaceHash)]
    .ok {
      status := if interface.viable then "INTERFACE_REQUIRED" else "PARENT_STATEMENT_UNDERSPECIFIED"
      reason :=
        if interface.viable then "concrete retrieval exhausted; conditional theorem requires explicit interface axioms"
        else "no concrete definition, viable typed interface, or equivalent rewrite"
      store := { store with
        interfaces := store.interfaces.set interfaceHash interface.asdict
        exhaustions := store.exhaustions.set (digest exhaustion) exhaustion }
      exhaustionHash := digest exhaustion
      interfaceHash := interfaceHash }
  | [j] => do
    let source ← leanSource j.candidate
    .ok {
      status := "COMMITTED"
      reason := "Lean elaborated, hard properties verified, provenance complete"
      store := { store with
        commits := store.commits.set query.conceptId (.dict [("query_hash", .str query.fingerprint),
          ("candidate_hash", .str j.candidate.contentHash), ("provenance", j.candidate.provenance.asdict),
          ("properties", j.statusesDict), ("lean_source_hash", .str (digest (.str source))), ("committed_at", rt.now)]) }
      committedHash := j.candidate.contentHash }
  | _ => .ok ⟨"PARENT_STATEMENT_UNDERSPECIFIED", "multiple hard-feasible interpretations require branch tournament", store,
      "", "", ""⟩

/-- The record of a query. -/
def queryRecord (query : DefinitionQuery) (survived : Bool) (outcome : Outcome) (judged : List Judged)
    (branchHashes : List String) (propertyMap : Dict String PyValue) : Dict String PyValue :=
  (Dict.ofEntries query.asdict).update [("query_hash", .str query.fingerprint),
    ("status", .str (if survived then outcome.status else "EXHAUSTED")), ("terminal", .bool true),
    ("candidate_hashes", strings (judged.map fun j => j.candidate.contentHash)), ("branch_hashes", strings branchHashes),
    ("property_statuses", .dict propertyMap.entries), ("exhaustion_hash", .str outcome.exhaustionHash),
    ("interface_hash", .str outcome.interfaceHash), ("committed_candidate_hash", .str outcome.committedHash),
    ("completed_at", rt.now)]

/-- The candidates and branches that the loop stores. -/
def storeCandidates (query : DefinitionQuery) (judged : List Judged) (store : ResolutionStore) : ResolutionStore :=
  { store with
    candidates := store.candidates.update (judged.map fun j => (j.candidate.contentHash, j.candidate.asdict))
    properties := store.properties.update
      (judged.map fun j => (j.candidate.contentHash, .list (j.evidence.map PropertyEvidence.asdict)))
    branches := store.branches.update ((judged.filter (Judged.survives query)).map fun j =>
      let branch := (branchOf query j.candidate.contentHash).asdict
      (digest branch, branch)) }

/-- The entries in the order of their keys, as the file has them. -/
def byKey (d : Dict String PyValue) : Dict String PyValue := Dict.ofEntries (d.entries.insertionSort fun a b => a.1 ≤ b.1)

-- The historical audit is the one section that is read in its order.
/-- The end of the transaction: the outcome, and the store that is written. -/
def conclude (query : DefinitionQuery) (statuses : List SourceProvenance) (judged : List Judged)
    (store : ResolutionStore) : Except CheckpointError (ResolutionResult × ResolutionStore) := do
  let branchHashes := (judged.filter (Judged.survives query)).map fun j =>
    digest (branchOf query j.candidate.contentHash).asdict
  let propertyMap := Dict.ofEntries (judged.map fun j => (j.candidate.contentHash, j.statusesDict))
  let outcome ← settle rt query statuses judged (storeCandidates query judged store)
  let record := queryRecord rt query (judged.any (Judged.survives query)) outcome judged branchHashes propertyMap
  let written := ResolutionStore.sealed { outcome.store with
    historicalAudit := byKey outcome.store.historicalAudit
    sources := outcome.store.sources.set query.fingerprint (.list (statuses.map SourceProvenance.asdict))
    queries := outcome.store.queries.set query.fingerprint (.dict record.entries) }
  .ok ({
    status := outcome.status
    conceptId := query.conceptId
    queryHash := query.fingerprint
    sourceStatuses := statuses
    candidateHashes := judged.map fun j => .str j.candidate.contentHash
    branchHashes := branchHashes.map .str
    propertyStatuses := .dict propertyMap.entries
    exhaustionHash := outcome.exhaustionHash
    interfaceHash := outcome.interfaceHash
    committedCandidateHash := outcome.committedHash
    storeHashBefore := store.hash
    storeHashAfter := written.storeHash
    environmentHashBefore := store.resolutionEnvironmentHash
    environmentHashAfter := written.environmentHash
    reason := outcome.reason }, written)

/-- The record of a query that was settled before. -/
def settledRecord (store : ResolutionStore) (query : DefinitionQuery) :
    Except CheckpointError (Option (Dict String PyValue)) :=
  match store.queries.get? query.fingerprint with
  | none => .ok none
  | some previous =>
    if previous.truthy then do
      let record ← mappingOf previous
      .ok (if ((record.get? "terminal").getD .null).truthy then some record else none)
    else .ok none

/-- `resolve_one_concept`, from the store in the file: the result, and the store that is written if one is. -/
def resolveOneConcept (registry : DefinitionSourceRegistry) (query : DefinitionQuery) (file : Option ResolutionStore)
    (sourceContext propertyEvidence : Dict String PyValue) (rankedShortIds : List String) :
    Except CheckpointError (ResolutionResult × Option ResolutionStore) := do
  let store ← loadResolutionStore file query.environmentHash
  let previous ← settledRecord store query
  match previous with
  | some record => (replay rt query store record).map fun result => (result, none)
  | none => do
    let answer ← retrieve registry query sourceContext
    let candidates ← normalizeCandidates rt.quote query answer.1 answer.2
    let ranked ← rankCandidates rankedShortIds candidates
    let judged ← ranked.mapM (judge rt query propertyEvidence)
    (conclude rt query answer.2 judged store).map fun r => (r.1, some r.2)

end Definitions

end KakeyaEngine
