import KakeyaEngine.Lib.JsonCodec
import KakeyaEngine.Lib.Machine
import KakeyaEngine.Orchestration.CrashConsistency

/-!
# Stepwise proof search

`attemptStep` renders one registered action for the first open goal, has Lean check it and enters the result into the search
state: an accepted step replaces the open goals, a rejected one may use up the budget.  The step never looks at the status;
the search loop makes no call once the status is not `SEARCHING`.  Lean is a parameter, and so is the JSON text of a stored
state.
-/

namespace KakeyaEngine

namespace Planning

open Orchestration (sha256Text compactLayout)

/-! ### The search state -/

inductive SearchError
  | valueError (message : String)
  | keyError (key : String)
  | typeError
  | indexError
  | jsonError
deriving DecidableEq

structure ProofGoal where
  goalId : String
  propositionHash : String
  localContextIds : List String
  subgoalSignature : String
deriving DecidableEq

structure ProofAction where
  actionId : String
  kind : String
  operandIds : List String
  theoremCardId : String := ""
  novelty : Int := 0
deriving DecidableEq

structure ActionSelection where
  goalId : String
  actionId : String
  operandIds : List String
  substitutionMapIds : List (String × String)
  expectedSubgoalSignatures : List String
deriving DecidableEq

structure ProofStep where
  proofStepId : String
  goalId : String
  selectedLemmaOrActionId : String
  substitutionMapIds : List (String × String)
  expectedSubgoalSignatures : List String
  renderedAst : String
  resultingSubgoalSignatures : List String
  leanFeedbackCode : String
deriving DecidableEq

structure LeanStepResult where
  accepted : Bool
  feedbackCode : String
  subgoalSignatures : List String
  messageRef : String := ""
deriving DecidableEq

/-- An entry of `rejected_feedback`. -/
structure RejectedFeedback where
  goalId : String
  actionId : String
  feedbackCode : String
  messageRef : String
deriving DecidableEq

structure ProofSearchState where
  contractId : String
  theoremId : String
  propositionHash : String
  environmentHash : String
  openGoals : List ProofGoal
  acceptedSteps : List ProofStep := []
  rejectedFeedback : List RejectedFeedback := []
  semanticFailures : Int := 0
  proofBudget : Int := 32
  tokensConsumed : Int := 0
  status : String := "SEARCHING"
  schemaVersion : Int := 1
deriving DecidableEq

/-- What `new_search_state` reads of a `ResearchContract`. -/
structure SearchContract where
  contractId : String
  theoremId : String
  propositionHash : String
  environmentHash : String

def newSearchState (contract : SearchContract) (goals : List ProofGoal) (proofBudget : Int) :
    Except SearchError ProofSearchState :=
  if contract.theoremId = "" ∨ contract.propositionHash = "" then
    .error (.valueError "PROOF_SEARCH_REFUSES_UNELABORATED_GOAL")
  else if goals = [] ∨ (goals.take 1).any fun goal => goal.propositionHash ≠ contract.propositionHash then
    .error (.valueError "PROOF_SEARCH_REQUIRES_CURRENT_LEAN_PROOF_STATE")
  else
    .ok { contractId := contract.contractId, theoremId := contract.theoremId
          propositionHash := contract.propositionHash, environmentHash := contract.environmentHash
          openGoals := goals, proofBudget := proofBudget }

/-! ### Selecting and rendering an action -/

def validateSelection (selection : ActionSelection) (actions : List ProofAction) (s : ProofSearchState) :
    Except SearchError ProofAction :=
  if (s.openGoals.head?.map (·.goalId)) ≠ some selection.goalId then
    .error (.valueError "SELECTION_NOT_AT_FIRST_UNPROVED_SUBGOAL")
  else
    match (Dict.ofEntries (actions.map fun action => (action.actionId, action))).get? selection.actionId with
    | none => .error (.valueError "UNREGISTERED_PROOF_ACTION_ID")
    | some action =>
      if selection.operandIds ≠ action.operandIds then .error (.valueError "UNREGISTERED_ACTION_OPERAND_ID")
      else if (Dict.ofEntries selection.substitutionMapIds).size ≠ selection.substitutionMapIds.length then
        .error (.valueError "DUPLICATE_SUBSTITUTION_ID")
      else .ok action

/-- `sources[id]`, or the exception for an id that is not there. -/
def sourceOf (sources : Dict String String) (message : String) (id : String) : Except SearchError String :=
  match sources.get? id with
  | some source => .ok source
  | none => .error (.valueError message)

/-- One substitution of an action. -/
def renderSubstitution (sources : Dict String String) (pair : String × String) : Except SearchError String := do
  let variableSource ← sourceOf sources "UNKNOWN_SUBSTITUTION_VARIABLE" pair.1
  let valueSource ← sourceOf sources "UNKNOWN_SUBSTITUTION_VALUE" pair.2
  .ok ("(" ++ variableSource ++ " := " ++ valueSource ++ ")")

/-- `operands[0]`. -/
def firstOperand : List String → Except SearchError String
  | [] => .error .indexError
  | operand :: _ => .ok operand

def renderLeanAst (action : ProofAction) (operandSources substitutionSources : Dict String String)
    (substitutionMapIds : List (String × String)) : Except SearchError String := do
  let operands ← action.operandIds.mapM (sourceOf operandSources "UNKNOWN_OPERAND_SOURCE")
  let substitutions ← substitutionMapIds.mapM (renderSubstitution substitutionSources)
  let suffix := if substitutions = [] then "" else " " ++ " ".intercalate substitutions
  match action.kind with
  | "INTRO" => .ok "intro"
  | "ASSUMPTION" => .ok "assumption"
  | "SIMP" => .ok "simp"
  | "CONSTRUCTOR" => .ok "constructor"
  | "EXACT" => do
    let operand ← firstOperand operands
    .ok ("exact " ++ operand ++ suffix)
  | "APPLY" => do
    let operand ← firstOperand operands
    .ok ("apply " ++ operand ++ suffix)
  | "REWRITE" => do
    let operand ← firstOperand operands
    .ok ("rw [" ++ operand ++ "]")
  | "CASES" => do
    let operand ← firstOperand operands
    .ok ("cases " ++ operand)
  | kind => .error (.valueError ("'" ++ kind ++ "' is not a valid ActionKind"))

/-! ### One step -/

/-- A Lean executor, which reads neither the rejections of the state nor its status. -/
structure LeanExecutor where
  execute : String → ProofSearchState → Except SearchError LeanStepResult
  ignores : ∀ (rendered : String) (s : ProofSearchState) (feedback : List RejectedFeedback) (status : String),
    execute rendered { s with rejectedFeedback := feedback, status := status } = execute rendered s

/-- The text that `lean_step_executor` has Lean check. -/
def leanSource (declaration : String) (importNames : List String) (rendered : String) (s : ProofSearchState) : String :=
  "\n".intercalate (importNames.map ("import " ++ ·) ++ ["", declaration] ++
    (s.acceptedSteps.map (·.renderedAst) ++ [rendered]).map ("  " ++ ·) ++ [""])

/-- `lean_step_executor`, with the run of Lean on a text as a parameter. -/
def leanStepExecutor (declaration : String) (importNames : List String) (lean : String → Except SearchError LeanStepResult) :
    LeanExecutor where
  execute rendered s := lean (leanSource declaration importNames rendered s)
  ignores _ _ _ _ := rfl

def zeroBudgetCodes : List String := ["ADAPTER_ERROR", "HOST_ERROR", "SYNTAX_ERROR"]

/-- `_digest(canonical)[:20]` with its prefix. -/
def stepId (s : ProofSearchState) (selection : ActionSelection) (action : ProofAction) (rendered : String)
    (result : LeanStepResult) : String :=
  let strings (texts : List String) := PyValue.list (texts.map .str)
  let canonical := PyValue.dict
    [("contract_id", .str s.contractId), ("prior_steps", strings (s.acceptedSteps.map (·.proofStepId))),
      ("goal_id", .str selection.goalId), ("action_id", .str action.actionId),
      ("substitutions", .list (selection.substitutionMapIds.map fun p => strings [p.1, p.2])),
      ("expected", strings selection.expectedSubgoalSignatures), ("rendered_ast", .str rendered),
      ("resulting", strings result.subgoalSignatures)]
  "PS-" ++ String.ofList ((sha256Text (PyValue.dumps compactLayout canonical)).toList.take 20)

/-- The assignments for an accepted step. -/
def ProofSearchState.accept (s : ProofSearchState) (selection : ActionSelection) (action : ProofAction) (rendered : String)
    (result : LeanStepResult) : ProofSearchState :=
  let openGoals : List ProofGoal := (result.subgoalSignatures.zipIdx 1).map fun p =>
    ⟨selection.goalId ++ "." ++ toString p.2, s.propositionHash, [], p.1⟩
  { s with
    acceptedSteps := s.acceptedSteps ++
      [⟨stepId s selection action rendered result, selection.goalId, action.actionId, selection.substitutionMapIds,
        selection.expectedSubgoalSignatures, rendered, result.subgoalSignatures, "ACCEPTED"⟩]
    openGoals := openGoals
    status := if openGoals = [] then "PROVED" else "SEARCHING" }

/-- The assignments for a rejected step. -/
def ProofSearchState.reject (s : ProofSearchState) (selection : ActionSelection) (result : LeanStepResult) :
    ProofSearchState :=
  let s := { s with
    rejectedFeedback := s.rejectedFeedback ++
      [⟨selection.goalId, selection.actionId, result.feedbackCode, result.messageRef⟩] }
  if result.feedbackCode ∈ zeroBudgetCodes then s
  else
    { s with
      semanticFailures := s.semanticFailures + 1
      status := if s.semanticFailures + 1 ≥ s.proofBudget then "BUDGET_EXHAUSTED" else s.status }

/-- What the step makes of the result: an accepted one with other subgoals than expected is rejected. -/
def judged (selection : ActionSelection) (result : LeanStepResult) : LeanStepResult :=
  if result.accepted ∧ selection.expectedSubgoalSignatures ≠ [] ∧
      selection.expectedSubgoalSignatures ≠ result.subgoalSignatures then
    ⟨false, "EXPECTED_SUBGOAL_MISMATCH", result.subgoalSignatures, result.messageRef⟩
  else result

/-- The arguments of a call. -/
structure StepCall where
  selection : ActionSelection
  actions : List ProofAction
  operandSources : Dict String String
  substitutionSources : Dict String String
  leanExecutor : LeanExecutor
  tokenCount : Int := 0

def attemptStep (call : StepCall) : Proc ProofSearchState SearchError LeanStepResult := do
  let s ← Proc.get
  let action ← Proc.ofExcept (validateSelection call.selection call.actions s)
  let rendered ← Proc.ofExcept
    (renderLeanAst action call.operandSources call.substitutionSources call.selection.substitutionMapIds)
  let result ← Proc.ofExcept (call.leanExecutor.execute rendered s)
  Proc.modify fun s => { s with tokensConsumed := s.tokensConsumed + max 0 call.tokenCount }
  let result := judged call.selection result
  if result.accepted then do
    Proc.modify fun s => s.accept call.selection action rendered result
    pure result
  else do
    Proc.modify fun s => s.reject call.selection result
    pure result

/-! ### Storing the state -/

def strings (texts : List String) : PyValue := .list (texts.map .str)

def ProofGoal.fields (goal : ProofGoal) : List (String × PyValue) :=
  [("goal_id", .str goal.goalId), ("proposition_hash", .str goal.propositionHash),
    ("local_context_ids", strings goal.localContextIds), ("subgoal_signature", .str goal.subgoalSignature)]

def ProofGoal.asdict (goal : ProofGoal) : PyValue := .dict goal.fields

def ProofStep.fields (step : ProofStep) : List (String × PyValue) :=
  [("proof_step_id", .str step.proofStepId), ("goal_id", .str step.goalId),
    ("selected_lemma_or_action_id", .str step.selectedLemmaOrActionId),
    ("substitution_map_ids", .list (step.substitutionMapIds.map fun p => strings [p.1, p.2])),
    ("expected_subgoal_signatures", strings step.expectedSubgoalSignatures), ("rendered_ast", .str step.renderedAst),
    ("resulting_subgoal_signatures", strings step.resultingSubgoalSignatures),
    ("lean_feedback_code", .str step.leanFeedbackCode)]

def ProofStep.asdict (step : ProofStep) : PyValue := .dict step.fields

/-- The fields of the state, without its rejections. -/
def ProofSearchState.fields (s : ProofSearchState) : List (String × PyValue) :=
  [("contract_id", .str s.contractId), ("theorem_id", .str s.theoremId),
    ("proposition_hash", .str s.propositionHash), ("environment_hash", .str s.environmentHash),
    ("open_goals", .list (s.openGoals.map ProofGoal.asdict)),
    ("accepted_steps", .list (s.acceptedSteps.map ProofStep.asdict)), ("rejected_feedback", .list []),
    ("semantic_failures", .int s.semanticFailures), ("proof_budget", .int s.proofBudget),
    ("tokens_consumed", .int s.tokensConsumed), ("status", .str s.status), ("schema_version", .int s.schemaVersion)]

/-- What `persist_search_state` writes. -/
def ProofSearchState.durable (s : ProofSearchState) : PyValue := .dict s.fields

/-! ### Loading the state -/

/-- Reading a part of a document; a value of another type than the stored one is a `typeError`. -/
abbrev Reader (α : Type) := PyValue → Except SearchError α

def readStr : Reader String
  | .str s => .ok s
  | _ => .error .typeError

def readInt : Reader Int
  | .int n => .ok n
  | _ => .error .typeError

def readList {α : Type} (item : Reader α) : Reader (List α)
  | .list items => items.mapM item
  | _ => .error .typeError

def readPair : Reader (String × String) := fun v => do
  let texts ← readList readStr v
  match texts with
  | [a, b] => .ok (a, b)
  | _ => .error .typeError

/-- `d[key]`, read. -/
def readKey {α : Type} (d : Dict String PyValue) (key : String) (value : Reader α) : Except SearchError α :=
  match d.get? key with
  | some v => value v
  | none => .error (.keyError key)

/-- A field with a default. -/
def readOptional {α : Type} (d : Dict String PyValue) (key : String) (value : Reader α) (default : α) :
    Except SearchError α :=
  match d.get? key with
  | some v => value v
  | none => .ok default

def readObject {α : Type} (fields : Dict String PyValue → Except SearchError α) : Reader α := fun v =>
  match v.mapping? with
  | some d => fields d
  | none => .error .typeError

def readGoal : Reader ProofGoal := readObject fun d => do
  .ok ⟨← readKey d "goal_id" readStr, ← readKey d "proposition_hash" readStr,
    ← readKey d "local_context_ids" (readList readStr), ← readKey d "subgoal_signature" readStr⟩

def readStep : Reader ProofStep := readObject fun d => do
  .ok ⟨← readKey d "proof_step_id" readStr, ← readKey d "goal_id" readStr,
    ← readKey d "selected_lemma_or_action_id" readStr, ← readKey d "substitution_map_ids" (readList readPair),
    ← readKey d "expected_subgoal_signatures" (readList readStr), ← readKey d "rendered_ast" readStr,
    ← readKey d "resulting_subgoal_signatures" (readList readStr), ← readKey d "lean_feedback_code" readStr⟩

def readFeedback : Reader RejectedFeedback := readObject fun d => do
  .ok ⟨← readKey d "goal_id" readStr, ← readKey d "action_id" readStr, ← readKey d "feedback_code" readStr,
    ← readKey d "message_ref" readStr⟩

def stateFields : List String :=
  ["contract_id", "theorem_id", "proposition_hash", "environment_hash", "open_goals", "accepted_steps",
    "rejected_feedback", "semantic_failures", "proof_budget", "tokens_consumed", "status", "schema_version"]

/-- `ProofSearchState(**raw)`, with the goals and steps read. -/
def buildState (openGoals : List ProofGoal) (acceptedSteps : List ProofStep) (d : Dict String PyValue) :
    Except SearchError ProofSearchState := do
  .ok { contractId := ← readKey d "contract_id" readStr
        theoremId := ← readKey d "theorem_id" readStr
        propositionHash := ← readKey d "proposition_hash" readStr
        environmentHash := ← readKey d "environment_hash" readStr
        openGoals := openGoals
        acceptedSteps := acceptedSteps
        rejectedFeedback := ← readOptional d "rejected_feedback" (readList readFeedback) []
        semanticFailures := ← readOptional d "semantic_failures" readInt 0
        proofBudget := ← readOptional d "proof_budget" readInt 32
        tokensConsumed := ← readOptional d "tokens_consumed" readInt 0
        status := ← readOptional d "status" readStr "SEARCHING"
        schemaVersion := ← readOptional d "schema_version" readInt 1 }

def readState : Reader ProofSearchState := readObject fun d => do
  let openGoals ← readKey d "open_goals" (readList readGoal)
  let acceptedSteps ← readKey d "accepted_steps" (readList readStep)
  if d.keys.all (· ∈ stateFields) then buildState openGoals acceptedSteps d else .error .typeError

def persistSearchState (J : JsonCodec SearchError) (s : ProofSearchState) : List UInt8 := J.dumps s.durable

def loadSearchState (J : JsonCodec SearchError) : Option (List UInt8) → Except SearchError (Option ProofSearchState)
  | none => .ok none
  | some text => do
    let raw ← J.loads text
    let s ← readState raw
    .ok (some s)

end Planning

end KakeyaEngine
