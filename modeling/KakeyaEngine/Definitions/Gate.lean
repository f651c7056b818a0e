import KakeyaEngine.Definitions.Resolution

/-!
# The definition gate

`runHostDefinitionGate` chooses one missing definition of the audit, resolves it in the resolution store, and routes the
checkpoint by the outcome.  It commits to two files: the store, and then the checkpoint, which it saves once before the
routing and once after it.
-/

namespace KakeyaEngine

namespace Definitions

open Orchestration (CheckpointError OrchestrationCheckpoint ArtifactRef ProofState transition iterate strings sha256Text
  compactLayout itemsOf)
open Orchestration.ProofState

/-- The checkpoint, with the fields that the gate reads or assigns. -/
structure GateCheckpoint extends OrchestrationCheckpoint where
  targetObligationId : String := ""
  parentStatementSha256 : String := ""
  rootGoalSha256 : String := ""
  propositionHash : String := ""
  typedIrHash : String := ""
  theoremCardIds : List String := []
  forbiddenSemanticFingerprints : List String := []
  candidateCount : Int := 0
  selectedMoveId : String := ""
  activeGate : String := ""
  stagnationReason : String := ""
  semanticStagnationCount : Int := 0
  progressVector : Dict String Int := Dict.empty
  definitionsAdded : Int := 0
  newElaboratedDefinitions : Int := 0
  currentDefinitionGapId : String := ""
  definitionQueryHash : String := ""
  definitionCandidateCount : Int := 0
  leanDefinitionStatus : String := ""
  definitionStoreHash : String := ""
  definitionEnvironmentHash : String := ""
  definitionStoreHashDelta : String := ""
  definitionEnvironmentHashDelta : String := ""
  definitionSourceStatuses : Dict String String := Dict.empty
  definitionPropertyStatuses : Dict String (Dict String PyValue) := Dict.empty
  definitionBranchHashes : List PyValue := []
  definitionExhaustionHash : String := ""
  definitionInterfaceHash : String := ""
  definitionBackjumpTarget : String := ""

/-- What the gate reads but does not change. -/
structure GateInputs where
  /-- the audit in a file, if it can be read -/
  readAudit : String → Option PyValue
  environmentHash : String
  projectRoot : String
  oproofsRoot : Option String
  /-- `str` of the path of an artifact -/
  artifactPath : String → String

/-- The two files. -/
structure Files where
  store : Option ResolutionStore
  checkpoint : GateCheckpoint

/-- One write to one of the files. -/
inductive Commit
  | store (s : ResolutionStore)
  | checkpoint (c : GateCheckpoint)

/-- The checkpoint in memory, and the writes so far. -/
structure GateState where
  checkpoint : GateCheckpoint
  commits : List Commit

abbrev Gate := Proc GateState CheckpointError

/-- Assigns fields of the checkpoint. -/
def assign (f : GateCheckpoint → GateCheckpoint) : Gate Unit := Proc.modify fun s => { s with checkpoint := f s.checkpoint }

def commit (c : Commit) : Gate Unit := Proc.modify fun s => { s with commits := s.commits ++ [c] }

/-- `checkpoint.updated_at = time.time()`. -/
def GateCheckpoint.stamped (c : GateCheckpoint) (now : PyValue) : GateCheckpoint := { c with updatedAt := now }

/-- `save_checkpoint`. -/
def save (now : PyValue) : Gate Unit := do
  assign fun c => c.stamped now
  let s ← Proc.get
  commit (.checkpoint s.checkpoint)

/-- `checkpoint.transition`. -/
def move (next : ProofState) (reason : String) (strategyReused : Bool) (now : PyValue) : Gate Unit :=
  Proc.focus (fun s => s.checkpoint.toOrchestrationCheckpoint)
    (fun c s => { s with checkpoint := { s.checkpoint with toOrchestrationCheckpoint := c } }) id
    (transition next reason { strategyReused := some strategyReused } now)

/-! ### The gap -/

/-- `item.get("definition_id")` is set. -/
def isGap (item : Dict String PyValue) : Bool := ((item.get? "definition_id").getD .null).truthy

/-- The missing definitions of the audit. -/
def missingDefinitions (audit : PyValue) : Except CheckpointError (List (Dict String PyValue)) := do
  let m ← mappingOf audit
  let items ← iterate ((m.get? "missing_definitions").getD (.list []))
  .ok ((items.filterMap PyValue.mapping?).filter isGap)

variable (rt : Runtime)

def gapId (item : Dict String PyValue) : String := textField rt.quote item "definition_id" ""

/-- The gap that is asked for, or the first one that is not committed. -/
def chooseGap (missing : List (Dict String PyValue)) (requested : String) (committed : List String) :
    Option (Dict String PyValue) :=
  ((if requested ≠ "" then missing.find? fun item => gapId rt item = requested else none)).or
    (missing.find? fun item => gapId rt item ∉ committed)

/-- The states in which the gate does something. -/
def gateStates : List ProofState := [definitionResolution, decomposer, strategyTournament, mathematicalStagnation]

/-- The part of the gate that looks for an audit with missing definitions. -/
def openDefinitions (inputs : GateInputs) (c : GateCheckpoint) :
    Except CheckpointError (Option (ArtifactRef × List (Dict String PyValue))) :=
  match ProofState.ofValue? c.state with
  | none => .error (Orchestration.invalidState c.state)
  | some state =>
    if state ∈ gateStates then
      match c.validatedArtifacts.get? "definition_auditor" with
      | none => .ok none
      | some reference =>
        match inputs.readAudit reference.path with
        | none => .ok none
        | some audit => (missingDefinitions audit).map fun missing =>
            if missing = [] then none else some (reference, missing)
    else .ok none

/-! ### The transaction -/

/-- The hash of an artifact that the checkpoint refers to. -/
def evidenceHash (c : GateCheckpoint) (role : String) : String := ((c.validatedArtifacts.get? role).map (·.sha256)).getD ""

/-- The first text that is not empty. -/
def firstText (texts : List String) : String := (texts.find? (· ≠ "")).getD ""

/-- The query for a gap. -/
def gateQuery (inputs : GateInputs) (c : GateCheckpoint) (reference : ArtifactRef) (gap : Dict String PyValue) :
    Except CheckpointError DefinitionQuery :=
  buildDefinitionQuery rt.quote gap (firstText [c.parentStatementSha256, c.propositionHash, c.targetObligationId])
    c.typedIrHash reference.sha256 [evidenceHash c "critic", evidenceHash c "adversarial_proponent"]
    [evidenceHash c "counterexample_worker"] c.theoremCardIds inputs.environmentHash c.forbiddenSemanticFingerprints

/-- The definitions of the historical audit that were verified. -/
def verifiedHistory (store : ResolutionStore) : Except CheckpointError (List PyValue) :=
  filterItems (fun item => .ok (fieldIs item "semantic_validation" "VERIFIED")) store.historicalAudit.values

/-- The call of `resolve_one_concept`. -/
def gateResolve (inputs : GateInputs) (file : Option ResolutionStore) (store : ResolutionStore) (query : DefinitionQuery) :
    Except CheckpointError (ResolutionResult × Option ResolutionStore) := do
  let history ← verifiedHistory store
  resolveOneConcept rt (defaultSourceRegistry rt.quote rt.unicode inputs.projectRoot inputs.oproofsRoot) query file
    (Dict.ofEntries [("validated_history", .list history)]) Dict.empty []

/-- `{key: dict(value) for key, value in statuses.items()}`. -/
def copyStatuses (statuses : PyValue) : Except CheckpointError (Dict String (Dict String PyValue)) := do
  let m ← itemsOf statuses
  let entries ← m.entries.mapM fun e =>
    match e.2 with
    | .dict es => .ok (e.1, Dict.ofEntries es)
    | .list [] => .ok (e.1, Dict.empty)
    | _ => .error .typeError
  .ok (Dict.ofEntries entries)

/-- The progress of a run of the gate. -/
def gateProgress (committed : Int) : Dict String Int :=
  Dict.ofEntries [("definitions_added", committed), ("existing_definitions_resolved", 0), ("lemmas_proved", 0),
    ("accepted_children", 0), ("subgoals_closed", 0), ("verified_counterexamples", 0)]

/-- The assignments before the statuses of the properties are copied. -/
def GateCheckpoint.noteResult (c : GateCheckpoint) (gap : String) (r : ResolutionResult) : GateCheckpoint :=
  { c with
    currentDefinitionGapId := gap
    definitionQueryHash := r.queryHash
    definitionCandidateCount := r.candidateHashes.length
    candidateCount := r.candidateHashes.length
    selectedMoveId := "RESOLVE_ONE_DEFINITION_QUERY"
    activeGate := "AUTONOMOUS_DEFINITION_RESOLUTION"
    leanDefinitionStatus := r.status
    definitionStoreHash := r.storeHashAfter
    definitionEnvironmentHash := r.environmentHashAfter
    definitionStoreHashDelta := r.storeHashBefore ++ "->" ++ r.storeHashAfter
    definitionEnvironmentHashDelta := r.environmentHashBefore ++ "->" ++ r.environmentHashAfter
    definitionSourceStatuses := Dict.ofEntries (r.sourceStatuses.map fun s => (s.sourceId, s.status)) }

/-- The assignments after it. -/
def GateCheckpoint.noteProgress (c : GateCheckpoint) (r : ResolutionResult)
    (properties : Dict String (Dict String PyValue)) : GateCheckpoint :=
  let committed : Int := if r.status = "COMMITTED" then 1 else 0
  { c with
    definitionPropertyStatuses := properties
    definitionBranchHashes := r.branchHashes
    definitionExhaustionHash := r.exhaustionHash
    definitionInterfaceHash := r.interfaceHash
    progressVector := gateProgress committed
    definitionsAdded := c.definitionsAdded + committed
    newElaboratedDefinitions := c.definitionsAdded + committed }

/-- `{"schema_version": 1, **asdict(result)}`. -/
def resultPayload (r : ResolutionResult) : PyValue :=
  .dict [("schema_version", .int 1), ("status", .str r.status), ("concept_id", .str r.conceptId),
    ("query_hash", .str r.queryHash), ("source_statuses", .list (r.sourceStatuses.map SourceProvenance.asdict)),
    ("candidate_hashes", .list r.candidateHashes), ("branch_hashes", .list r.branchHashes),
    ("property_statuses", r.propertyStatuses), ("exhaustion_hash", .str r.exhaustionHash),
    ("interface_hash", .str r.interfaceHash), ("committed_candidate_hash", .str r.committedCandidateHash),
    ("store_hash_before", .str r.storeHashBefore), ("store_hash_after", .str r.storeHashAfter),
    ("environment_hash_before", .str r.environmentHashBefore), ("environment_hash_after", .str r.environmentHashAfter),
    ("reason", .str r.reason)]

/-- The reference of the result's artifact. -/
def resultRef (inputs : GateInputs) (reference : ArtifactRef) (gap : String) (r : ResolutionResult) : ArtifactRef :=
  let sha256 := digest (resultPayload r)
  { role := "definition_resolution"
    sha256 := sha256
    schemaVersion := 1
    dependencies := [reference.sha256]
    path := inputs.artifactPath sha256
    sourceRunId := "host:definition-resolution:" ++ gap
    validatedAt := rt.now }

/-- `checkpoint.validated_artifacts["definition_resolution"] = …`. -/
def GateCheckpoint.noteArtifact (c : GateCheckpoint) (ref : ArtifactRef) : GateCheckpoint :=
  { c with validatedArtifacts := c.validatedArtifacts.set "definition_resolution" ref }

/-- The assignments between the two saves. -/
def GateCheckpoint.noteStagnation (c : GateCheckpoint) (r : ResolutionResult) : GateCheckpoint :=
  { c with
    semanticStagnationCount := 0
    stagnationReason := if r.status = "COMMITTED" then "" else r.status ++ ":" ++ r.reason
    forbiddenSemanticFingerprints :=
      if r.queryHash ∈ c.forbiddenSemanticFingerprints then c.forbiddenSemanticFingerprints
      else c.forbiddenSemanticFingerprints ++ [r.queryHash] }

/-- `checkpoint.definition_backjump_target = …`. -/
def GateCheckpoint.noteBackjump (c : GateCheckpoint) : GateCheckpoint :=
  { c with definitionBackjumpTarget := firstText [c.parentStatementSha256, c.rootGoalSha256] }

/-- The routing by the outcome. -/
def route (status : String) : Gate Unit :=
  if status = "COMMITTED" then
    move strategyTournament "definition-resolution-commit:environment-changed" false rt.now
  else if status = "PARENT_STATEMENT_UNDERSPECIFIED" then do
    move parentStatementUnderspecified "definition-interpretations-change-parent-truth" true rt.now
    assign GateCheckpoint.noteBackjump
    move premiseAudit "parent-statement-underspecified:premise-audit-and-backjump" true rt.now
  else if status = "INTERFACE_REQUIRED" then do
    assign GateCheckpoint.noteBackjump
    move premiseAudit "definition-exhaustion:conditional-interface-axioms-required" true rt.now
  else do
    assign GateCheckpoint.noteBackjump
    move parentStatementUnderspecified "definition-exhaustion:no-viable-interface:typed-backjump" true rt.now

/-- The part of the gate between its saves. -/
def finish (r : ResolutionResult) : Gate String := do
  assign fun c => c.noteStagnation r
  route rt r.status
  save rt.now
  pure r.status

/-- The part of the gate after the transaction. -/
def settleGap (inputs : GateInputs) (reference : ArtifactRef) (gap : String) (r : ResolutionResult) : Gate String := do
  assign fun c => c.noteResult gap r
  let properties ← Proc.ofExcept (copyStatuses r.propertyStatuses)
  assign fun c => c.noteProgress r properties
  assign fun c => c.noteArtifact (resultRef rt inputs reference gap r)
  save rt.now
  finish rt r

/-- Enters the state of the gate. -/
def enter : Gate Unit := do
  let s ← Proc.get
  if s.checkpoint.state = definitionResolution.value then pure ()
  else move definitionResolution "missing-concept:autonomous-definition-resolution" true rt.now

/-- The part of the gate that works on a gap. -/
def workOn (inputs : GateInputs) (file : Option ResolutionStore) (store : ResolutionStore) (reference : ArtifactRef)
    (gap : Dict String PyValue) : Gate String := do
  enter rt
  let s ← Proc.get
  let query ← Proc.ofExcept (gateQuery rt inputs s.checkpoint reference gap)
  let resolved ← Proc.ofExcept (gateResolve rt inputs file store query)
  match resolved.2 with
  | some written => commit (.store written)
  | none => pure ()
  settleGap rt inputs reference (gapId rt gap) resolved.1

/-- The part of the gate that finds every definition committed. -/
def noOpenQuery : Gate String := do
  assign fun c => { c with
    currentDefinitionGapId := ""
    leanDefinitionStatus := "NO_OPEN_DEFINITION_QUERY"
    stagnationReason := "NO_OPEN_DEFINITION_QUERY" }
  save rt.now
  pure "NO_OPEN_DEFINITION_QUERY"

/-- `run_host_definition_gate`. -/
def runHostDefinitionGate (inputs : GateInputs) (file : Option ResolutionStore) : Gate String := do
  let s ← Proc.get
  let opened ← Proc.ofExcept (openDefinitions inputs s.checkpoint)
  match opened with
  | none => pure ""
  | some (reference, missing) => do
    let store ← Proc.ofExcept (loadResolutionStore file inputs.environmentHash)
    match chooseGap rt missing s.checkpoint.currentDefinitionGapId store.commits.keys with
    | none => noOpenQuery rt
    | some gap => workOn rt inputs file store reference gap

/-- The writes of a run of the gate on the two files. -/
def gateCommits (inputs : GateInputs) (files : Files) : List Commit :=
  ((runHostDefinitionGate rt inputs files.store).run ⟨files.checkpoint, []⟩).2.commits

end Definitions

end KakeyaEngine
