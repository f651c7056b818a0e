import KakeyaEngine.Lib.Proc
import KakeyaEngine.Lib.PyValue
import KakeyaEngine.LeanGate.Contract

/-!
# The orchestration checkpoint

`OrchestrationCheckpoint` is the persisted state of a proof orchestration: the proof state, the artifacts that were
validated, and the counters of the search.  `transition` moves it along the table of allowed transitions, `retry` and
`beginDecompositionIteration` count before they move it, and `applyBlockedExitEvent` is the only way out of `BLOCKED`.
The current time is an argument wherever the clock is read.
-/

namespace KakeyaEngine

namespace Orchestration

open LeanGate (strip squeeze occursIn hexdigest)

/-! ### Proof states -/

inductive ProofState
  | strategyTournament | researchContractGate | needsStrategy | generator | critic | definitionAuditor
  | counterexampleWorker | synthesis | reframe | definitionResolution | parentStatementUnderspecified | decomposer
  | mathIrTranslation | hostTypedIrGate | leanElaborationGate | proofSearch | adversarialReview | judge | commit
  | approachFailed | premiseAudit | decompositionStagnated | mathematicalStagnation | blocked | idle
deriving DecidableEq

namespace ProofState

def value : ProofState → String
  | strategyTournament => "STRATEGY_TOURNAMENT"
  | researchContractGate => "RESEARCH_CONTRACT_GATE"
  | needsStrategy => "NEEDS_STRATEGY"
  | generator => "GENERATOR"
  | critic => "CRITIC"
  | definitionAuditor => "DEFINITION_AUDITOR"
  | counterexampleWorker => "COUNTEREXAMPLE_WORKER"
  | synthesis => "SYNTHESIS"
  | reframe => "REFRAME"
  | definitionResolution => "DEFINITION_RESOLUTION"
  | parentStatementUnderspecified => "PARENT_STATEMENT_UNDERSPECIFIED"
  | decomposer => "DECOMPOSER"
  | mathIrTranslation => "MATH_IR_TRANSLATION"
  | hostTypedIrGate => "HOST_TYPED_IR_GATE"
  | leanElaborationGate => "LEAN_ELABORATION_GATE"
  | proofSearch => "PROOF_SEARCH"
  | adversarialReview => "ADVERSARIAL_REVIEW"
  | judge => "JUDGE"
  | commit => "COMMIT"
  | approachFailed => "APPROACH_FAILED"
  | premiseAudit => "PREMISE_AUDIT"
  | decompositionStagnated => "DECOMPOSITION_STAGNATED"
  | mathematicalStagnation => "MATHEMATICAL_STAGNATION"
  | blocked => "BLOCKED"
  | idle => "IDLE"

def all : List ProofState :=
  [strategyTournament, researchContractGate, needsStrategy, generator, critic, definitionAuditor, counterexampleWorker,
    synthesis, reframe, definitionResolution, parentStatementUnderspecified, decomposer, mathIrTranslation,
    hostTypedIrGate, leanElaborationGate, proofSearch, adversarialReview, judge, commit, approachFailed, premiseAudit,
    decompositionStagnated, mathematicalStagnation, blocked, idle]

/-- `ProofState(text)`. -/
def ofValue? (text : String) : Option ProofState := all.find? fun s => s.value = text

theorem value_injective {s t : ProofState} (h : s.value = t.value) : s = t := by
  revert h
  cases s <;> cases t <;> decide

@[simp] theorem ofValue?_value (s : ProofState) : ofValue? s.value = some s := by cases s <;> decide

theorem ofValue?_eq_some {text : String} {s : ProofState} : ofValue? text = some s ↔ text = s.value := by
  constructor
  · intro h
    have hs := List.find?_some h
    simp only [decide_eq_true_eq] at hs
    exact hs.symm
  · rintro rfl
    exact ofValue?_value s

end ProofState

open ProofState

/-- `ROLE_ORDER`. -/
def roleOrder : List ProofState :=
  [definitionAuditor, counterexampleWorker, decomposer, mathIrTranslation, hostTypedIrGate, leanElaborationGate,
    proofSearch, adversarialReview, judge, commit]

/-- `ROLE_ARTIFACT_KEYS`. -/
def roleArtifactKeys : ProofState → Option String
  | strategyTournament => some "strategy_tournament"
  | researchContractGate => some "research_contract"
  | definitionAuditor => some "definition_auditor"
  | counterexampleWorker => some "counterexample_worker"
  | decomposer => some "decomposer"
  | mathIrTranslation => some "math_ir_translator"
  | proofSearch => some "proof_search"
  | adversarialReview => some "adversarial_proponent"
  | judge => some "judge"
  | _ => none

/-- `ALLOWED_TRANSITIONS`. -/
def allowedTransitions : ProofState → List ProofState
  | strategyTournament => [researchContractGate, decomposer, definitionResolution, blocked]
  | researchContractGate =>
    [decomposer, mathIrTranslation, hostTypedIrGate, strategyTournament, proofSearch, blocked]
  | needsStrategy => []
  | generator => []
  | critic => []
  | definitionAuditor => [definitionAuditor, counterexampleWorker, blocked]
  | counterexampleWorker => [counterexampleWorker, decomposer, synthesis, premiseAudit, blocked]
  | synthesis => [synthesis, definitionResolution, decomposer, blocked]
  | reframe => []
  | definitionResolution =>
    [strategyTournament, parentStatementUnderspecified, mathematicalStagnation, premiseAudit, blocked]
  | parentStatementUnderspecified => [strategyTournament, premiseAudit, blocked]
  | decomposer =>
    [decomposer, mathIrTranslation, synthesis, definitionResolution, decompositionStagnated, mathematicalStagnation,
      blocked]
  | mathIrTranslation => [mathIrTranslation, decomposer, hostTypedIrGate, proofSearch, blocked]
  | hostTypedIrGate =>
    [leanElaborationGate, decomposer, mathIrTranslation, synthesis, strategyTournament, blocked]
  | leanElaborationGate => [proofSearch, decomposer, mathIrTranslation, strategyTournament, blocked]
  | proofSearch => [proofSearch, decomposer, mathIrTranslation, adversarialReview, blocked]
  | adversarialReview =>
    [adversarialReview, decomposer, mathIrTranslation, hostTypedIrGate, leanElaborationGate, proofSearch, judge,
      blocked]
  | judge =>
    [judge, definitionAuditor, counterexampleWorker, decomposer, mathIrTranslation, hostTypedIrGate,
      leanElaborationGate, proofSearch, adversarialReview, commit, approachFailed, premiseAudit, blocked]
  | commit => [idle, commit]
  | approachFailed => [strategyTournament, blocked]
  | premiseAudit => [premiseAudit, strategyTournament, blocked]
  | decompositionStagnated => [synthesis, definitionResolution, decomposer, strategyTournament, blocked]
  | mathematicalStagnation => [definitionResolution, strategyTournament, blocked]
  | blocked => blocked :: strategyTournament :: researchContractGate :: roleOrder.dropLast
  | idle => [idle, strategyTournament, blocked]

/-- The states of architectures before the tournament, which no transition leaves. -/
def auditOnly : List ProofState := [needsStrategy, generator, critic]

/-! ### The checkpoint -/

/-- The exceptions of the checkpoint operations. -/
inductive CheckpointError
  | valueError (message : String)
  | typeError
  | keyError (key : String)
  | attributeError
deriving DecidableEq

structure ArtifactRef where
  role : String
  sha256 : String
  schemaVersion : Int
  dependencies : List String
  path : String
  sourceRunId : String
  validatedAt : PyValue

/-- `asdict(ref)`. -/
def ArtifactRef.asdict (ref : ArtifactRef) : List (String × PyValue) :=
  [("role", .str ref.role), ("sha256", .str ref.sha256), ("schema_version", .int ref.schemaVersion),
    ("dependencies", .list (ref.dependencies.map .str)), ("path", .str ref.path),
    ("source_run_id", .str ref.sourceRunId), ("validated_at", ref.validatedAt)]

/-- The checkpoint, with the fields that no operation of this module reads or assigns in `others`. -/
structure OrchestrationCheckpoint where
  state : String := strategyTournament.value
  currentRole : String := "strategy_tournament"
  validatedArtifacts : Dict String ArtifactRef := Dict.empty
  retryCounters : Dict String Int := Dict.empty
  decompositionIteration : Int := 0
  viewpoint : String := ""
  viewpointsTried : List String := []
  lastTransitionReason : String := "new-checkpoint"
  resumeOrigin : String := ""
  strategyReused : Bool := false
  sourceRunIds : List String := []
  blockedReason : String := ""
  lastFailureFingerprint : String := ""
  identicalFailureCount : Int := 0
  lastBlockedEventId : String := ""
  invalidatedArtifacts : Dict String (Dict String PyValue) := Dict.empty
  advisoryArtifacts : Dict String (Dict String PyValue) := Dict.empty
  reuseMap : Dict String String := Dict.empty
  recoveryEvents : List (Dict String PyValue) := []
  updatedAt : PyValue
  others : Dict String PyValue := Dict.empty

inductive BlockedEventType
  | operatorUnblock | hostGateDefectsBackjump | targetBranchChange | validatedEvidenceBackjump | newStrategyTrigger
deriving DecidableEq

namespace BlockedEventType

def value : BlockedEventType → String
  | operatorUnblock => "OPERATOR_UNBLOCK"
  | hostGateDefectsBackjump => "HOST_GATE_DEFECTS_BACKJUMP"
  | targetBranchChange => "TARGET_BRANCH_CHANGE"
  | validatedEvidenceBackjump => "VALIDATED_EVIDENCE_BACKJUMP"
  | newStrategyTrigger => "NEW_STRATEGY_TRIGGER"

/-- `BlockedEventType(text)`. -/
def ofValue? (text : String) : Option BlockedEventType :=
  [operatorUnblock, hostGateDefectsBackjump, targetBranchChange, validatedEvidenceBackjump, newStrategyTrigger].find?
    fun t => t.value = text

/-- The metadata that an event of the type must have. -/
def requiredMetadata : BlockedEventType → List String
  | operatorUnblock => []
  | hostGateDefectsBackjump => ["defects", "invalidated_artifact_hashes", "reuse_map"]
  | targetBranchChange => ["target_or_branch"]
  | validatedEvidenceBackjump => ["evidence_sha256"]
  | newStrategyTrigger => ["strategy_trigger"]

end BlockedEventType

structure BlockedExitEvent where
  eventId : String
  eventType : String
  reason : String
  targetState : String
  resetRole : String
  metadata : Dict String PyValue := Dict.empty
  createdAt : PyValue
  schemaVersion : Int := 1

abbrev Update := Proc OrchestrationCheckpoint CheckpointError

/-! ### Transitions -/

/-- The keyword arguments of `transition`. -/
structure TransitionArgs where
  sourceRunId : String := ""
  resumeOrigin : String := ""
  strategyReused : Option Bool := none
  blockedExitEvent : Option BlockedExitEvent := none

/-- The assignments of `transition`. -/
def OrchestrationCheckpoint.moveTo (c : OrchestrationCheckpoint) (next : ProofState) (reason : String)
    (args : TransitionArgs) (now : PyValue) : OrchestrationCheckpoint :=
  { c with
    state := next.value
    currentRole := next.value.toLower
    lastTransitionReason := reason
    resumeOrigin := args.resumeOrigin
    lastBlockedEventId := (args.blockedExitEvent.map (·.eventId)).getD c.lastBlockedEventId
    blockedReason := if args.blockedExitEvent.isSome then "" else c.blockedReason
    strategyReused := args.strategyReused.getD c.strategyReused
    sourceRunIds :=
      if args.sourceRunId ≠ "" ∧ args.sourceRunId ∉ c.sourceRunIds then c.sourceRunIds ++ [args.sourceRunId]
      else c.sourceRunIds
    updatedAt := now }

/-- The exception of `ProofState(text)`. -/
def invalidState (text : String) : CheckpointError :=
  .valueError ("'" ++ text ++ "' is not a valid ProofState")

def transition (next : ProofState) (reason : String) (args : TransitionArgs) (now : PyValue) : Update Unit := do
  let c ← Proc.get
  match ofValue? c.state with
  | none => Proc.raise (invalidState c.state)
  | some current =>
    if current ∈ auditOnly then
      Proc.raise (.valueError ("legacy architecture state is audit-only: " ++ current.value))
    else if current = blocked ∧ next ≠ blocked ∧ args.blockedExitEvent.isNone then
      Proc.raise (.valueError "BLOCKED can be exited only by an explicit typed event")
    else if current = blocked ∧ next = blocked then pure ()
    else if next ∉ allowedTransitions current then
      Proc.raise (.valueError ("illegal proof transition " ++ current.value ++ "->" ++ next.value))
    else Proc.modify fun c => c.moveTo next reason args now

/-- The digest by which `retry` recognises a failure. -/
def failureFingerprint (c : OrchestrationCheckpoint) (role : ProofState) (reason : String) : String :=
  let artifact := c.validatedArtifacts.get? ((roleArtifactKeys role).getD "")
  String.ofList (hexdigest (Json.obj
    [("state", Json.str role.value), ("artifact", Json.str ((artifact.map (·.sha256)).getD "")),
      ("error", Json.str (String.ofList (squeeze reason.toList)))]))

/-- The count of a failure in a row. -/
def OrchestrationCheckpoint.noteFailure (c : OrchestrationCheckpoint) (fingerprint : String) :
    OrchestrationCheckpoint :=
  if fingerprint = c.lastFailureFingerprint then { c with identicalFailureCount := c.identicalFailureCount + 1 }
  else { c with lastFailureFingerprint := fingerprint, identicalFailureCount := 1 }

def retryCount (c : OrchestrationCheckpoint) (role : ProofState) : Int :=
  (c.retryCounters.get? role.value).getD 0 + 1

def retry (role : ProofState) (reason : String) (limit : Int) (now : PyValue) : Update Bool := do
  let c ← Proc.get
  match ofValue? c.state with
  | none => Proc.raise (invalidState c.state)
  | some current =>
    if current = blocked then pure false
    else do
      Proc.modify fun c => c.noteFailure (failureFingerprint c role reason)
      let c ← Proc.get
      if c.identicalFailureCount ≥ 2 then do
        let message := role.value ++ " identical state/artifact/error cycle: " ++ reason
        Proc.modify fun c => { c with blockedReason := message }
        transition blocked message {} now
        pure false
      else do
        let count := retryCount c role
        Proc.modify fun c => { c with retryCounters := c.retryCounters.set role.value count }
        if count > limit then do
          let message := role.value ++ " retry budget exhausted (" ++ toString limit ++ "): " ++ reason
          Proc.modify fun c => { c with blockedReason := message }
          transition blocked message {} now
          pure false
        else do
          transition role reason { resumeOrigin := role.value } now
          pure true

def beginDecompositionIteration (viewpoint reason : String) (now : PyValue) : Update Unit := do
  let viewpoint := String.ofList (strip viewpoint.toList)
  if viewpoint = "" then Proc.raise (.valueError "decomposition viewpoint must be non-empty")
  else do
    Proc.modify fun c => { c with
      decompositionIteration := c.decompositionIteration + 1
      viewpoint := viewpoint
      viewpointsTried :=
        if viewpoint ∈ c.viewpointsTried then c.viewpointsTried else c.viewpointsTried ++ [viewpoint] }
    transition decomposer reason { resumeOrigin := decomposer.value, strategyReused := some true } now

/-! ### Host gate defects -/

structure HostGateDefect where
  code : String
  sourceRole : String
  message : String
  hardInvalid : Bool := true

/-- `HOST_GATE_DEFECT_RULES`: code, source role, marker and whether the defect is hard. -/
def hostGateDefectRules : List (String × String × String × Bool) :=
  [("UNVERIFIED_COUNTEREXAMPLE", "counterexample_worker", "claimed counterexample has no verified evidence", false),
    ("REDUCTION_CONCLUSION_MISMATCH", "formalizer",
      "reduction theorem conclusion differs from exact parent proposition", true),
    ("PARENT_SIGNATURE_INVALID", "formalizer", "parent signature failed:", true),
    ("CHILD_SIGNATURE_INVALID", "formalizer", "child L1 signature failed:", true),
    ("CYCLIC_OR_EQUIVALENT_CHILD", "decomposer", "child L1 rejected:", true),
    ("REDUCTION_SIGNATURE_INVALID", "formalizer", "reduction theorem signature failed or changed", true),
    ("REDUCTION_PROOF_INVALID", "prover", "complete reduction proof failed or targets another theorem", true)]

/-- One error of `classify_host_gate_defects`. -/
def classifyHostGateDefect (error : String) : Except CheckpointError HostGateDefect :=
  let normalized := squeeze error.toList
  match hostGateDefectRules.filter fun rule => occursIn rule.2.2.1.toList normalized with
  | [(code, role, _, hard)] => .ok ⟨code, role, String.ofList normalized, hard⟩
  | _ => .error (.valueError ("unclassified or ambiguous host-gate defect: " ++ error))

def classifyHostGateDefects (errors : List String) : Except CheckpointError (List HostGateDefect) :=
  errors.mapM classifyHostGateDefect

def stateForRole (role : String) : Except CheckpointError ProofState :=
  match role with
  | "definition_auditor" => .ok definitionAuditor
  | "counterexample_worker" => .ok counterexampleWorker
  | "decomposer" => .ok decomposer
  | "formalizer" => .ok mathIrTranslation
  | "math_ir_translator" => .ok mathIrTranslation
  | "prover" => .ok proofSearch
  | "proof_search" => .ok proofSearch
  | "adversarial_proponent" => .ok adversarialReview
  | "judge" => .ok judge
  | role => .error (.keyError role)

def earliestInvalidRole (defects : List HostGateDefect) : Except CheckpointError ProofState := do
  let hardRoles ← (defects.filter (·.hardInvalid)).mapM fun d => stateForRole d.sourceRole
  match roleOrder.find? (· ∈ hardRoles) with
  | some state => .ok state
  | none => .error (.valueError "host-gate recovery requires at least one hard defect")

/-! ### Leaving `BLOCKED` -/

/-- The checks of `apply_blocked_exit_event` on every event: the event type and the target. -/
def checkEvent (c : OrchestrationCheckpoint) (event : BlockedExitEvent) :
    Except CheckpointError (BlockedEventType × ProofState) := do
  match ofValue? c.state with
  | none => .error (invalidState c.state)
  | some current =>
    if current ≠ blocked then .error (.valueError "blocked exit event requires BLOCKED checkpoint")
    else if event.eventId = "" ∨ strip event.reason.toList = [] then
      .error (.valueError "blocked exit event requires ID and reason")
    else
      match BlockedEventType.ofValue? event.eventType with
      | none => .error (.valueError ("'" ++ event.eventType ++ "' is not a valid BlockedEventType"))
      | some eventType =>
        match ofValue? event.targetState, ofValue? event.resetRole with
        | none, _ => .error (invalidState event.targetState)
        | some _, none => .error (invalidState event.resetRole)
        | some target, some resetRole =>
          if resetRole ≠ target then .error (.valueError "blocked event may reset only its target role")
          else if target ∉ allowedTransitions blocked then
            .error (.valueError "blocked event target is not permitted")
          else if eventType = .newStrategyTrigger ∧ target ≠ strategyTournament then
            .error (.valueError "new strategy trigger must target STRATEGY_TOURNAMENT")
          else if eventType.requiredMetadata.any fun key => !((event.metadata.get? key).getD .null).truthy then
            .error (.valueError (eventType.value ++ " missing required metadata"))
          else .ok (eventType, target)

section Backjump

-- how strings are quoted inside other values
variable (quote : String → String)

/-- `str(item["message"])` of the defects of an event. -/
def defectMessages : PyValue → Except CheckpointError (List String)
  | .list items => items.mapM fun item =>
    match item.mapping? with
    | none => .error .typeError
    | some m =>
      match m.get? "message" with
      | none => .error (.keyError "message")
      | some message => .ok (message.text quote)
  | _ => .error .typeError

/-- The comparison of the hashes of the artifacts to invalidate. -/
def checkInvalidated (c : OrchestrationCheckpoint) : List (String × PyValue) → Except CheckpointError Unit
  | [] => .ok ()
  | (role, digest) :: rest =>
    match c.validatedArtifacts.get? role, digest with
    | some ref, .str sha256 =>
      if ref.sha256 = sha256 then checkInvalidated c rest
      else .error (.valueError ("invalidated artifact hash mismatch for " ++ role))
    | _, _ => .error (.valueError ("invalidated artifact hash mismatch for " ++ role))

/-- The checks of a backjump: its defects and the artifacts to invalidate. -/
def checkBackjump (c : OrchestrationCheckpoint) (event : BlockedExitEvent) (target : ProofState) :
    Except CheckpointError (List HostGateDefect × Dict String PyValue) := do
  let messages ← defectMessages quote ((event.metadata.get? "defects").getD .null)
  let defects ← classifyHostGateDefects messages
  let earliest ← earliestInvalidRole defects
  if target ≠ earliest then .error (.valueError "host-gate backjump target is not earliest invalid role")
  else
    match ((event.metadata.get? "invalidated_artifact_hashes").getD .null).mapping? with
    | none => .error .attributeError
    | some invalidated => do
      checkInvalidated c invalidated.entries
      .ok (defects, invalidated)

def strings (texts : List String) : PyValue := .list (texts.map .str)

/-- Takes an artifact out of the validated ones and keeps it for audit. -/
def invalidate (event : BlockedExitEvent) (defects : List HostGateDefect) (role : String) : Update Unit := do
  let c ← Proc.get
  match c.validatedArtifacts.get? role with
  | none => Proc.raise (.keyError role)
  | some ref =>
    Proc.modify fun c => { c with
      validatedArtifacts := c.validatedArtifacts.erase role
      invalidatedArtifacts := c.invalidatedArtifacts.set ref.sha256 (Dict.ofEntries (ref.asdict ++
        [("reason_codes", strings ((defects.filter (·.hardInvalid)).map (·.code))), ("event_id", .str event.eventId),
          ("audit_only", .bool true)])) }

def invalidateAll (event : BlockedExitEvent) (defects : List HostGateDefect) : List String → Update Unit
  | [] => pure ()
  | role :: roles => do
    invalidate event defects role
    invalidateAll event defects roles

/-- Demotes the counterexample to an advisory artifact. -/
def OrchestrationCheckpoint.advise (c : OrchestrationCheckpoint) (event : BlockedExitEvent) : OrchestrationCheckpoint :=
  match c.validatedArtifacts.get? "counterexample_worker" with
  | none => c
  | some ref =>
    { c with
      advisoryArtifacts := c.advisoryArtifacts.set ref.sha256 (Dict.ofEntries (ref.asdict ++
        [("verified", .bool false), ("premise", .bool false), ("public", .bool false),
          ("certificate_gate", .bool false), ("event_id", .str event.eventId)])) }

/-- The host gate branch of `apply_blocked_exit_event`. -/
def backjump (event : BlockedExitEvent) (target : ProofState) : Update Unit := do
  let c ← Proc.get
  let (defects, invalidated) ← Proc.ofExcept (checkBackjump quote c event target)
  invalidateAll event defects invalidated.keys
  Proc.modify fun c => c.advise event
  match ((event.metadata.get? "reuse_map").getD .null).mapping? with
  | none => Proc.raise .attributeError
  | some reused => do
    Proc.modify fun c => { c with
      reuseMap := Dict.ofEntries (reused.entries.map fun e => (e.1, e.2.text quote)) }
    Proc.modify fun c => { c with
      recoveryEvents := c.recoveryEvents ++ [Dict.ofEntries
        [("event_id", .str event.eventId), ("event_type", .str event.eventType),
          ("defect_codes", strings (defects.map (·.code))), ("target_state", .str target.value),
          ("invalidated_artifact_hashes", .dict invalidated.entries),
          ("reuse_map", .dict (c.reuseMap.entries.map fun e => (e.1, .str e.2))), ("created_at", event.createdAt)]] }

def applyBlockedExitEvent (event : BlockedExitEvent) (now : PyValue) : Update Unit := do
  let c ← Proc.get
  let (eventType, target) ← Proc.ofExcept (checkEvent c event)
  if eventType = .hostGateDefectsBackjump then backjump quote event target
  Proc.modify fun c => { c with
    retryCounters := c.retryCounters.set target.value 0
    lastFailureFingerprint := ""
    identicalFailureCount := 0 }
  transition target (eventType.value ++ ":" ++ event.reason)
    { resumeOrigin := blocked.value, strategyReused := some (target ≠ strategyTournament),
      blockedExitEvent := some event } now

end Backjump

end Orchestration

end KakeyaEngine
