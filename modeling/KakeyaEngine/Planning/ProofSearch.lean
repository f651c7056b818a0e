import KakeyaEngine.Planning.StepwiseProof

/-!
# Runs of the proof search

A run makes `attempt_step` calls from a new search state and may store and reload the state between any two of them.  Its
status is `PROVED` exactly when no goal is open, and the reloads change no result.  The budget bounds the failures of a run
that makes no call after the budget is exhausted.
-/

namespace KakeyaEngine

namespace Planning

open Fallible (bind_eq_ok mapM_cons_eq_ok)
open PyValue (Alike AlikeDict)

/-! ### Reading a document in another order -/

/-- A reader gives the same on an alike value. -/
def Stable {α : Type} (r : Reader α) : Prop := ∀ v w x, Alike v w → r v = .ok x → r w = .ok x

/-- The same for what reads the fields of an object. -/
def StableFields {α : Type} (f : Dict String PyValue → Except SearchError α) : Prop :=
  ∀ d d' x, AlikeDict d d' → f d = .ok x → f d' = .ok x

theorem stable_readStr : Stable readStr := by
  intro v w x h hv
  cases v with
  | str s =>
    rw [h.eq_str]
    exact hv
  | _ => cases hv

theorem stable_readInt : Stable readInt := by
  intro v w x h hv
  cases v with
  | int n =>
    rw [h.eq_int]
    exact hv
  | _ => cases hv

theorem stable_readList {α : Type} {item : Reader α} (hitem : Stable item) : Stable (readList item) := by
  intro v w x h hv
  cases v with
  | list vs =>
    obtain ⟨ws, rfl, hws⟩ := h.list_eq
    have hmap : ∀ x, vs.mapM item = .ok x → ws.mapM item = .ok x := by
      clear hv h
      induction hws with
      | nil => exact fun _ h => h
      | cons hhead _ ih =>
        intro x hx
        obtain ⟨y, ys, hy, hys, rfl⟩ := mapM_cons_eq_ok.mp hx
        exact mapM_cons_eq_ok.mpr ⟨y, ys, hitem _ _ _ hhead hy, ih ys hys, rfl⟩
    exact hmap x hv
  | _ => cases hv

theorem stable_readPair : Stable readPair := by
  intro v w x h hv
  obtain ⟨texts, htexts, hx⟩ := bind_eq_ok.mp hv
  exact bind_eq_ok.mpr ⟨texts, stable_readList stable_readStr v w texts h htexts, hx⟩

theorem alike_absent {d d' : Dict String PyValue} (h : AlikeDict d d') {k : String} (hk : d.get? k = none) :
    d'.get? k = none := by
  have hrel := h k
  rw [hk] at hrel
  cases hd' : d'.get? k with
  | none => rfl
  | some w =>
    rw [hd'] at hrel
    cases hrel

theorem alike_keys {d d' : Dict String PyValue} (h : AlikeDict d d') (k : String) : k ∈ d.keys ↔ k ∈ d'.keys := by
  constructor
  · intro hk
    obtain ⟨v, hv⟩ := Dict.mem_keys_iff.mp hk
    obtain ⟨w, hw, -⟩ := h.get? hv
    exact Dict.mem_keys_iff.mpr ⟨w, hw⟩
  · intro hk
    by_contra hnone
    rw [Dict.not_mem_keys_iff] at hnone
    exact Dict.not_mem_keys_iff.mpr (alike_absent h hnone) hk

theorem stable_pure {α : Type} (a : α) : StableFields fun _ => (.ok a : Except SearchError α) := fun _ _ _ _ h => h

theorem stable_bind {α β : Type} {f : Dict String PyValue → Except SearchError α}
    {g : α → Dict String PyValue → Except SearchError β} (hf : StableFields f) (hg : ∀ a, StableFields (g a)) :
    StableFields fun d => f d >>= fun a => g a d := by
  intro d d' x h hx
  obtain ⟨a, ha, hx⟩ := bind_eq_ok.mp hx
  exact bind_eq_ok.mpr ⟨a, hf d d' a h ha, hg a d d' x h hx⟩

theorem stable_readKey {α : Type} {r : Reader α} (hr : Stable r) (key : String) :
    StableFields fun d => readKey d key r := by
  intro d d' x h hx
  dsimp only [readKey] at hx ⊢
  split at hx
  · rename_i v hv
    obtain ⟨w, hw, hvw⟩ := h.get? hv
    rw [hw]
    exact hr v w x hvw hx
  · cases hx

theorem stable_readOptional {α : Type} {r : Reader α} (hr : Stable r) (key : String) (default : α) :
    StableFields fun d => readOptional d key r default := by
  intro d d' x h hx
  dsimp only [readOptional] at hx ⊢
  split at hx
  · rename_i v hv
    obtain ⟨w, hw, hvw⟩ := h.get? hv
    rw [hw]
    exact hr v w x hvw hx
  · rename_i hnone
    rw [alike_absent h hnone]
    exact hx

theorem stable_readObject {α : Type} {fields : Dict String PyValue → Except SearchError α} (hf : StableFields fields) :
    Stable (readObject fields) := by
  intro v w x h hv
  unfold readObject at hv ⊢
  cases v with
  | dict es =>
    obtain ⟨d', hd', halike⟩ := h.mapping
    rw [hd']
    exact hf _ d' x halike hv
  | _ => cases hv

theorem stable_readGoal : Stable readGoal := by
  refine stable_readObject ?_
  refine stable_bind (stable_readKey stable_readStr _) fun _ => ?_
  refine stable_bind (stable_readKey stable_readStr _) fun _ => ?_
  refine stable_bind (stable_readKey (stable_readList stable_readStr) _) fun _ => ?_
  exact stable_bind (stable_readKey stable_readStr _) fun _ => stable_pure _

theorem stable_readStep : Stable readStep := by
  refine stable_readObject ?_
  refine stable_bind (stable_readKey stable_readStr _) fun _ => ?_
  refine stable_bind (stable_readKey stable_readStr _) fun _ => ?_
  refine stable_bind (stable_readKey stable_readStr _) fun _ => ?_
  refine stable_bind (stable_readKey (stable_readList stable_readPair) _) fun _ => ?_
  refine stable_bind (stable_readKey (stable_readList stable_readStr) _) fun _ => ?_
  refine stable_bind (stable_readKey stable_readStr _) fun _ => ?_
  refine stable_bind (stable_readKey (stable_readList stable_readStr) _) fun _ => ?_
  exact stable_bind (stable_readKey stable_readStr _) fun _ => stable_pure _

theorem stable_readFeedback : Stable readFeedback := by
  refine stable_readObject ?_
  refine stable_bind (stable_readKey stable_readStr _) fun _ => ?_
  refine stable_bind (stable_readKey stable_readStr _) fun _ => ?_
  refine stable_bind (stable_readKey stable_readStr _) fun _ => ?_
  exact stable_bind (stable_readKey stable_readStr _) fun _ => stable_pure _

theorem stable_buildState (openGoals : List ProofGoal) (acceptedSteps : List ProofStep) :
    StableFields (buildState openGoals acceptedSteps) := by
  refine stable_bind (stable_readKey stable_readStr _) fun _ => ?_
  refine stable_bind (stable_readKey stable_readStr _) fun _ => ?_
  refine stable_bind (stable_readKey stable_readStr _) fun _ => ?_
  refine stable_bind (stable_readKey stable_readStr _) fun _ => ?_
  refine stable_bind (stable_readOptional (stable_readList stable_readFeedback) _ _) fun _ => ?_
  refine stable_bind (stable_readOptional stable_readInt _ _) fun _ => ?_
  refine stable_bind (stable_readOptional stable_readInt _ _) fun _ => ?_
  refine stable_bind (stable_readOptional stable_readInt _ _) fun _ => ?_
  refine stable_bind (stable_readOptional stable_readStr _ _) fun _ => ?_
  exact stable_bind (stable_readOptional stable_readInt _ _) fun _ => stable_pure _

theorem stable_readState : Stable readState := by
  refine stable_readObject ?_
  refine stable_bind (stable_readKey (stable_readList stable_readGoal) _) fun openGoals => ?_
  refine stable_bind (stable_readKey (stable_readList stable_readStep) _) fun acceptedSteps => ?_
  intro d d' x h hx
  have hall : d.keys.all (· ∈ stateFields) = d'.keys.all (· ∈ stateFields) := by
    rw [Bool.eq_iff_iff, List.all_eq_true, List.all_eq_true]
    exact forall_congr' fun k => by rw [alike_keys h k]
  dsimp only at hx ⊢
  rw [← hall]
  split at hx
  · rename_i hknown
    rw [if_pos hknown]
    exact stable_buildState openGoals acceptedSteps d d' x h hx
  · cases hx

/-! ### Storing and loading -/

theorem readStrings (texts : List String) : readList readStr (strings texts) = .ok texts := by
  have h : (texts.map PyValue.str).mapM readStr = .ok texts := by
    induction texts with
    | nil => rfl
    | cons text texts ih => exact mapM_cons_eq_ok.mpr ⟨text, texts, rfl, ih, rfl⟩
  exact h

/-- Reading a list of values that are each written so that they can be read. -/
theorem readList_map {α : Type} {item : Reader α} {write : α → PyValue} (h : ∀ a, item (write a) = .ok a) (xs : List α) :
    readList item (.list (xs.map write)) = .ok xs := by
  have hmap : (xs.map write).mapM item = .ok xs := by
    induction xs with
    | nil => rfl
    | cons x xs ih => exact mapM_cons_eq_ok.mpr ⟨x, xs, h x, ih, rfl⟩
  exact hmap

theorem readObject_dict {α : Type} (fields : Dict String PyValue → Except SearchError α)
    (entries : List (String × PyValue)) : readObject fields (.dict entries) = fields (Dict.ofEntries entries) := rfl

section Entries

variable {α : Type} {r : Reader α} {entries : List (String × PyValue)} (hnodup : (entries.map Prod.fst).Nodup)
include hnodup

theorem get?_entries {key : String} {v : PyValue} (hv : (key, v) ∈ entries) :
    (Dict.ofEntries entries).get? key = some v := by
  rw [← Dict.mem_entries_iff, Dict.entries_ofEntries hnodup]
  exact hv

/-- What a listed value is read as. -/
theorem readKey_entries (key : String) (v : PyValue) {x : α} (hv : (key, v) ∈ entries) (hx : r v = .ok x) :
    readKey (Dict.ofEntries entries) key r = .ok x := by
  unfold readKey
  rw [get?_entries hnodup hv]
  exact hx

theorem readOptional_entries (key : String) (v : PyValue) {x default : α} (hv : (key, v) ∈ entries)
    (hx : r v = .ok x) : readOptional (Dict.ofEntries entries) key r default = .ok x := by
  unfold readOptional
  rw [get?_entries hnodup hv]
  exact hx

end Entries

theorem nodup_goalFields (goal : ProofGoal) : (goal.fields.map Prod.fst).Nodup := by
  change ["goal_id", "proposition_hash", "local_context_ids", "subgoal_signature"].Nodup
  decide

theorem readGoal_asdict (goal : ProofGoal) : readGoal goal.asdict = .ok goal := by
  have hnodup := nodup_goalFields goal
  rw [readGoal, ProofGoal.asdict, readObject_dict]
  refine bind_eq_ok.mpr ⟨_, readKey_entries hnodup _ (.str goal.goalId) (by simp [ProofGoal.fields]) rfl, ?_⟩
  refine bind_eq_ok.mpr ⟨_, readKey_entries hnodup _ (.str goal.propositionHash) (by simp [ProofGoal.fields]) rfl, ?_⟩
  refine bind_eq_ok.mpr ⟨_, readKey_entries hnodup _ (strings goal.localContextIds) (by simp [ProofGoal.fields])
    (readStrings _), ?_⟩
  refine bind_eq_ok.mpr ⟨_, readKey_entries hnodup _ (.str goal.subgoalSignature) (by simp [ProofGoal.fields]) rfl, ?_⟩
  rfl

theorem nodup_stepFields (step : ProofStep) : (step.fields.map Prod.fst).Nodup := by
  change ["proof_step_id", "goal_id", "selected_lemma_or_action_id", "substitution_map_ids",
    "expected_subgoal_signatures", "rendered_ast", "resulting_subgoal_signatures", "lean_feedback_code"].Nodup
  decide

theorem readStep_asdict (step : ProofStep) : readStep step.asdict = .ok step := by
  have hnodup := nodup_stepFields step
  have hpair : ∀ p : String × String, readPair (strings [p.1, p.2]) = .ok p := fun _ => rfl
  rw [readStep, ProofStep.asdict, readObject_dict]
  refine bind_eq_ok.mpr ⟨_, readKey_entries hnodup _ (.str step.proofStepId) (by simp [ProofStep.fields]) rfl, ?_⟩
  refine bind_eq_ok.mpr ⟨_, readKey_entries hnodup _ (.str step.goalId) (by simp [ProofStep.fields]) rfl, ?_⟩
  refine bind_eq_ok.mpr ⟨_, readKey_entries hnodup _ (.str step.selectedLemmaOrActionId) (by simp [ProofStep.fields])
    rfl, ?_⟩
  refine bind_eq_ok.mpr ⟨_, readKey_entries hnodup _ (.list (step.substitutionMapIds.map fun p => strings [p.1, p.2]))
    (by simp [ProofStep.fields]) (readList_map hpair _), ?_⟩
  refine bind_eq_ok.mpr ⟨_, readKey_entries hnodup _ (strings step.expectedSubgoalSignatures)
    (by simp [ProofStep.fields]) (readStrings _), ?_⟩
  refine bind_eq_ok.mpr ⟨_, readKey_entries hnodup _ (.str step.renderedAst) (by simp [ProofStep.fields]) rfl, ?_⟩
  refine bind_eq_ok.mpr ⟨_, readKey_entries hnodup _ (strings step.resultingSubgoalSignatures)
    (by simp [ProofStep.fields]) (readStrings _), ?_⟩
  refine bind_eq_ok.mpr ⟨_, readKey_entries hnodup _ (.str step.leanFeedbackCode) (by simp [ProofStep.fields]) rfl, ?_⟩
  rfl

theorem nodup_fields (s : ProofSearchState) : (s.fields.map Prod.fst).Nodup := by
  change stateFields.Nodup
  decide

theorem buildState_durable (s : ProofSearchState) :
    buildState s.openGoals s.acceptedSteps (Dict.ofEntries s.fields) = .ok { s with rejectedFeedback := [] } := by
  have hnodup := nodup_fields s
  refine bind_eq_ok.mpr ⟨_, readKey_entries hnodup _ (.str s.contractId) (by simp [ProofSearchState.fields]) rfl, ?_⟩
  refine bind_eq_ok.mpr ⟨_, readKey_entries hnodup _ (.str s.theoremId) (by simp [ProofSearchState.fields]) rfl, ?_⟩
  refine bind_eq_ok.mpr ⟨_, readKey_entries hnodup _ (.str s.propositionHash) (by simp [ProofSearchState.fields]) rfl, ?_⟩
  refine bind_eq_ok.mpr ⟨_, readKey_entries hnodup _ (.str s.environmentHash) (by simp [ProofSearchState.fields]) rfl, ?_⟩
  refine bind_eq_ok.mpr ⟨_, readOptional_entries hnodup _ (.list []) (by simp [ProofSearchState.fields]) rfl, ?_⟩
  refine bind_eq_ok.mpr ⟨_, readOptional_entries hnodup _ (.int s.semanticFailures) (by simp [ProofSearchState.fields])
    rfl, ?_⟩
  refine bind_eq_ok.mpr ⟨_, readOptional_entries hnodup _ (.int s.proofBudget) (by simp [ProofSearchState.fields]) rfl, ?_⟩
  refine bind_eq_ok.mpr ⟨_, readOptional_entries hnodup _ (.int s.tokensConsumed) (by simp [ProofSearchState.fields])
    rfl, ?_⟩
  refine bind_eq_ok.mpr ⟨_, readOptional_entries hnodup _ (.str s.status) (by simp [ProofSearchState.fields]) rfl, ?_⟩
  refine bind_eq_ok.mpr ⟨_, readOptional_entries hnodup _ (.int s.schemaVersion) (by simp [ProofSearchState.fields])
    rfl, ?_⟩
  rfl

theorem readState_durable (s : ProofSearchState) : readState s.durable = .ok { s with rejectedFeedback := [] } := by
  have hnodup := nodup_fields s
  rw [readState, ProofSearchState.durable, readObject_dict]
  refine bind_eq_ok.mpr ⟨_, readKey_entries hnodup _ (.list (s.openGoals.map ProofGoal.asdict))
    (by simp [ProofSearchState.fields]) (readList_map readGoal_asdict _), ?_⟩
  refine bind_eq_ok.mpr ⟨_, readKey_entries hnodup _ (.list (s.acceptedSteps.map ProofStep.asdict))
    (by simp [ProofSearchState.fields]) (readList_map readStep_asdict _), ?_⟩
  have hkeys : (Dict.ofEntries s.fields).keys = stateFields := by
    unfold Dict.keys
    rw [Dict.entries_ofEntries hnodup]
    rfl
  rw [hkeys, if_pos (by decide)]
  exact buildState_durable s

/-- Loading what was stored gives the state without its rejections. -/
theorem load_persist {J : JsonCodec SearchError} {s : ProofSearchState} (hJ : J.Inverts s.durable) :
    loadSearchState J (some (persistSearchState J s)) = .ok (some { s with rejectedFeedback := [] }) := by
  obtain ⟨w, hloads, halike⟩ := hJ
  have hstate := stable_readState _ w _ halike (readState_durable s)
  exact bind_eq_ok.mpr ⟨w, hloads, bind_eq_ok.mpr ⟨_, hstate, rfl⟩⟩

/-! ### One call -/

/-- Whether a call gets as far as Lean, and what Lean says. -/
def consult (call : StepCall) (s : ProofSearchState) : Except SearchError (ProofAction × String × LeanStepResult) := do
  let action ← validateSelection call.selection call.actions s
  let rendered ← renderLeanAst action call.operandSources call.substitutionSources call.selection.substitutionMapIds
  let result ← call.leanExecutor.execute rendered s
  .ok (action, rendered, judged call.selection result)

/-- What a call makes of the answer of Lean. -/
def conclude (call : StepCall) (s : ProofSearchState) (answer : ProofAction × String × LeanStepResult) :
    ProofSearchState :=
  let s := { s with tokensConsumed := s.tokensConsumed + max 0 call.tokenCount }
  if answer.2.2.accepted then s.accept call.selection answer.1 answer.2.1 answer.2.2
  else s.reject call.selection answer.2.2

/-- A call that does not get as far as Lean raises and changes nothing. -/
theorem attemptStep_run (call : StepCall) (s : ProofSearchState) :
    (attemptStep call).run s =
      match consult call s with
      | .ok answer => (.ok answer.2.2, conclude call s answer)
      | .error e => (.error e, s) := by
  unfold attemptStep consult
  rw [Proc.run_get_bind, Proc.run_bind, Proc.run_ofExcept]
  rcases validateSelection call.selection call.actions s with e | action
  · rfl
  dsimp only
  rw [Proc.run_bind, Proc.run_ofExcept]
  simp only [bind, Except.bind]
  rcases renderLeanAst action call.operandSources call.substitutionSources call.selection.substitutionMapIds with
    e | rendered
  · rfl
  dsimp only
  rcases hresult : call.leanExecutor.execute rendered s with e | result
  · rfl
  dsimp only
  unfold conclude
  dsimp only
  rcases haccepted : (judged call.selection result).accepted with _ | _
  · rw [if_neg (by simp)]
    change (Proc.run (if _ then _ else _ : Proc _ _ _) _) = _
    rw [haccepted]
    rfl
  · rw [if_pos rfl]
    change (Proc.run (if _ then _ else _ : Proc _ _ _) _) = _
    rw [haccepted]
    rfl

/-- A call gets as far as Lean only at an open goal. -/
theorem openGoals_of_consult {call : StepCall} {s : ProofSearchState} {answer : ProofAction × String × LeanStepResult}
    (h : consult call s = .ok answer) : s.openGoals ≠ [] := by
  obtain ⟨action, hselection, -⟩ := bind_eq_ok.mp h
  intro hnil
  unfold validateSelection at hselection
  rw [hnil, if_pos (by simp)] at hselection
  cases hselection

/-- Lean answers the same on a state with other rejections and another status. -/
theorem consult_congr (call : StepCall) (s : ProofSearchState) (feedback : List RejectedFeedback) (status : String) :
    consult call { s with rejectedFeedback := feedback, status := status } = consult call s := by
  have hselection : validateSelection call.selection call.actions
      { s with rejectedFeedback := feedback, status := status } = validateSelection call.selection call.actions s := rfl
  unfold consult
  rw [hselection]
  simp only [call.leanExecutor.ignores]

/-! ### Runs -/

/-- A call, or storing and loading the state between two calls. -/
inductive SearchEvent
  | attempt (call : StepCall)
  | reload

def SearchEvent.IsAttempt : SearchEvent → Bool
  | attempt _ => true
  | reload => false

section Runs

variable (J : JsonCodec SearchError)

/-- One step of a run; a state that cannot be loaded is kept. -/
def searchStep (s : ProofSearchState) : SearchEvent → Except SearchError (Option LeanStepResult) × ProofSearchState
  | .attempt call => (((attemptStep call).run s).1.map some, ((attemptStep call).run s).2)
  | .reload =>
    match loadSearchState J (some (persistSearchState J s)) with
    | .ok (some s') => (.ok none, s')
    | .ok none => (.ok none, s)
    | .error e => (.error e, s)

/-- What the calls of a run return. -/
def results : ProofSearchState → List SearchEvent → List (Except SearchError LeanStepResult)
  | _, [] => []
  | s, .attempt call :: events => ((attemptStep call).run s).1 :: results ((attemptStep call).run s).2 events
  | s, .reload :: events => results (searchStep J s .reload).2 events

/-- JSON reads back the state that is stored. -/
def Readable (s : ProofSearchState) : SearchEvent → Prop
  | .attempt _ => True
  | .reload => J.Inverts s.durable

/-- A call is made while the search goes on. -/
def Searching (s : ProofSearchState) : SearchEvent → Prop
  | .attempt _ => s.status = "SEARCHING"
  | .reload => True

variable {J}

theorem searchStep_attempt (s : ProofSearchState) (call : StepCall) :
    (searchStep J s (.attempt call)).2 = ((attemptStep call).run s).2 := rfl

theorem searchStep_reload {s : ProofSearchState} (hJ : J.Inverts s.durable) :
    searchStep J s .reload = (.ok none, { s with rejectedFeedback := [] }) := by
  unfold searchStep
  rw [load_persist hJ]

/-- The status says whether a goal is open. -/
def StatusExact (s : ProofSearchState) : Prop := s.status = "PROVED" ↔ s.openGoals = []

theorem conclude_status {call : StepCall} {s : ProofSearchState} {answer : ProofAction × String × LeanStepResult}
    (hs : StatusExact s) (hopen : s.openGoals ≠ []) : StatusExact (conclude call s answer) := by
  have hstatus : s.status ≠ "PROVED" := fun h => hopen (hs.mp h)
  unfold conclude StatusExact
  dsimp only
  split
  · -- an accepted step sets both
    unfold ProofSearchState.accept
    dsimp only
    split
    · rename_i hnil
      exact ⟨fun _ => hnil, fun _ => rfl⟩
    · rename_i hnil
      exact ⟨fun h => absurd h (by decide), fun h => absurd h hnil⟩
  · -- a rejected step leaves the goal open
    unfold ProofSearchState.reject
    dsimp only
    split
    · exact hs
    · dsimp only
      split
      · exact ⟨fun h => absurd h (by decide), fun h => absurd h hopen⟩
      · exact ⟨fun h => absurd h hstatus, fun h => absurd h hopen⟩

theorem statusExact_step {s : ProofSearchState} {e : SearchEvent} (hs : StatusExact s) (hJ : Readable J s e) :
    StatusExact (searchStep J s e).2 := by
  cases e with
  | attempt call =>
    rw [searchStep_attempt, attemptStep_run]
    rcases hconsult : consult call s with e | answer
    · exact hs
    · exact conclude_status hs (openGoals_of_consult hconsult)
  | reload =>
    rw [searchStep_reload hJ]
    exact hs

/-- The failures are within the budget, and below it as long as it is not exhausted. -/
def WithinBudget (proofBudget : Int) (s : ProofSearchState) : Prop :=
  s.proofBudget = proofBudget ∧ s.semanticFailures ≤ max 1 proofBudget ∧
    (s.status = "SEARCHING" → s.semanticFailures < max 1 proofBudget)

theorem conclude_budget {proofBudget : Int} {call : StepCall} {s : ProofSearchState}
    {answer : ProofAction × String × LeanStepResult} (hs : WithinBudget proofBudget s) (hstatus : s.status = "SEARCHING") :
    WithinBudget proofBudget (conclude call s answer) := by
  obtain ⟨hbudget, hle, hlt⟩ := hs
  have hlt := hlt hstatus
  unfold conclude WithinBudget
  dsimp only
  split
  · unfold ProofSearchState.accept
    exact ⟨hbudget, hle, fun _ => hlt⟩
  · unfold ProofSearchState.reject
    dsimp only
    split
    · exact ⟨hbudget, hle, fun _ => hlt⟩
    · dsimp only
      refine ⟨hbudget, by omega, ?_⟩
      split
      · exact fun h => absurd h (by decide)
      · intro _
        omega

theorem withinBudget_step {proofBudget : Int} {s : ProofSearchState} {e : SearchEvent} (hs : WithinBudget proofBudget s)
    (he : Readable J s e ∧ Searching s e) : WithinBudget proofBudget (searchStep J s e).2 := by
  cases e with
  | attempt call =>
    rw [searchStep_attempt, attemptStep_run]
    rcases consult call s with e | answer
    · exact hs
    · exact conclude_budget hs he.2
  | reload =>
    rw [searchStep_reload he.1]
    exact hs

/-- From states that differ in their rejections only, a call returns the same and leads to such states. -/
theorem attemptStep_congr (call : StepCall) (s : ProofSearchState) (feedback : List RejectedFeedback) :
    ((attemptStep call).run { s with rejectedFeedback := feedback }).1 = ((attemptStep call).run s).1 ∧
      ∃ feedback', ((attemptStep call).run { s with rejectedFeedback := feedback }).2 =
        { ((attemptStep call).run s).2 with rejectedFeedback := feedback' } := by
  rw [attemptStep_run, attemptStep_run, show consult call { s with rejectedFeedback := feedback } = consult call s from
    consult_congr call s feedback s.status]
  rcases consult call s with e | answer
  · exact ⟨rfl, feedback, rfl⟩
  · refine ⟨rfl, ?_⟩
    unfold conclude
    dsimp only
    split
    · exact ⟨feedback, rfl⟩
    · unfold ProofSearchState.reject
      dsimp only
      split
      · exact ⟨_, rfl⟩
      · exact ⟨_, rfl⟩

/-- Storing and loading changes no result, whatever rejections the state has. -/
theorem results_reload {s : ProofSearchState} {events : List SearchEvent}
    (hJ : Machine.AllSteps (searchStep J) (Readable J) s events) (feedback : List RejectedFeedback) :
    results J s events = results J { s with rejectedFeedback := feedback } (events.filter SearchEvent.IsAttempt) := by
  induction events generalizing s feedback with
  | nil => rfl
  | cons e events ih =>
    obtain ⟨hread, hrest⟩ := hJ
    cases e with
    | attempt call =>
      obtain ⟨hresult, feedback', hstate⟩ := attemptStep_congr call s feedback
      have hstep : results J ((attemptStep call).run s).2 events =
          results J { ((attemptStep call).run s).2 with rejectedFeedback := feedback' }
            (events.filter SearchEvent.IsAttempt) := ih hrest feedback'
      rw [List.filter_cons_of_pos rfl]
      unfold results
      rw [hresult, hstate, hstep]
    | reload =>
      rw [List.filter_cons_of_neg (by decide)]
      change results J (searchStep J s .reload).2 events = _
      rw [searchStep_reload hread] at hrest ⊢
      exact ih hrest feedback

end Runs

theorem statusExact_new {contract : SearchContract} {goals : List ProofGoal} {proofBudget : Int} {s : ProofSearchState}
    (h : newSearchState contract goals proofBudget = .ok s) : StatusExact s ∧ WithinBudget proofBudget s := by
  unfold newSearchState at h
  split at h
  · cases h
  split at h
  · cases h
  rename_i hgoals
  obtain rfl := Except.ok.inj h
  have hopen : goals ≠ [] := fun hnil => hgoals (.inl hnil)
  have hstatus : "SEARCHING" ≠ "PROVED" := by decide
  refine ⟨⟨fun h => absurd h hstatus, fun h => absurd h hopen⟩, rfl, ?_, fun _ => ?_⟩
  · dsimp only
    omega
  · dsimp only
    omega

/-- In every run from a new search state, with the state stored and loaded between any two calls: the status is `PROVED`
exactly when no goal is open, no reload changes a result, a call does not depend on the status, and a run that makes calls
only while the status is `SEARCHING` keeps the failures within the budget. -/
theorem search_runs (J : JsonCodec SearchError) {contract : SearchContract} {goals : List ProofGoal} {proofBudget : Int}
    {s₀ : ProofSearchState} (hnew : newSearchState contract goals proofBudget = .ok s₀) (events : List SearchEvent)
    (hJ : Machine.AllSteps (searchStep J) (Readable J) s₀ events) :
    let s := Machine.final (searchStep J) s₀ events
    (s.status = "PROVED" ↔ s.openGoals = []) ∧
      results J s₀ events = results J s₀ (events.filter SearchEvent.IsAttempt) ∧
      (∀ call status, ((attemptStep call).run { s with status := status }).1 = ((attemptStep call).run s).1) ∧
      (Machine.AllSteps (searchStep J) Searching s₀ events → s.semanticFailures ≤ max 1 proofBudget) := by
  intro s
  obtain ⟨hstatus, hbudget⟩ := statusExact_new hnew
  refine ⟨?_, results_reload hJ s₀.rejectedFeedback, fun call status => ?_, fun hsearching => ?_⟩
  · exact Machine.final_of_steps (fun _ _ hs he => statusExact_step hs he) hstatus hJ
  · rw [attemptStep_run, attemptStep_run, show consult call { s with status := status } = consult call s from
      consult_congr call s s.rejectedFeedback status]
    rcases consult call s with e | answer
    · rfl
    · rfl
  · exact (Machine.final_of_steps (fun _ _ hs he => withinBudget_step hs he) hbudget (hJ.and hsearching)).2.1

/-! ### An exhausted budget -/

/-- Lean answers the same whatever it is asked. -/
def answering (result : LeanStepResult) : LeanExecutor where
  execute _ _ := .ok result
  ignores _ _ _ _ := rfl

/-- A call that tries `simp` on the goal `G1`. -/
def simpCall (result : LeanStepResult) : StepCall where
  selection := ⟨"G1", "A_SIMP", [], [], []⟩
  actions := [{ actionId := "A_SIMP", kind := "SIMP", operandIds := [] }]
  operandSources := Dict.empty
  substitutionSources := Dict.empty
  leanExecutor := answering result

def mismatch : SearchEvent := .attempt (simpCall ⟨false, "TYPE_MISMATCH", [], "lean:1"⟩)

def closing : SearchEvent := .attempt (simpCall ⟨true, "ACCEPTED", [], ""⟩)

/-- A new search for one goal. -/
def oneGoal (proofBudget : Int) : ProofSearchState where
  contractId := "RC-1"
  theoremId := "T1"
  propositionHash := "p"
  environmentHash := "e"
  openGoals := [⟨"G1", "p", [], "⊢ True"⟩]
  proofBudget := proofBudget

theorem oneGoal_new (proofBudget : Int) :
    newSearchState ⟨"RC-1", "T1", "p", "e"⟩ [⟨"G1", "p", [], "⊢ True"⟩] proofBudget = .ok (oneGoal proofBudget) := rfl

/-- A codec for one state. -/
def codecFor (s : ProofSearchState) : JsonCodec SearchError where
  dumps _ := []
  loads _ := .ok s.durable

/-- The state after the calls, from the new search. -/
def searched (proofBudget : Int) (events : List SearchEvent) : ProofSearchState :=
  Machine.final (searchStep (codecFor (oneGoal proofBudget))) (oneGoal proofBudget) events

theorem search_runs_oneGoal : (searched 2 [.reload, mismatch, closing]).status = "PROVED" ↔
    (searched 2 [.reload, mismatch, closing]).openGoals = [] :=
  (search_runs (codecFor (oneGoal 2)) (oneGoal_new 2) [.reload, mismatch, closing]
    ⟨⟨_, rfl, PyValue.Alike.refl _⟩, trivial, trivial, trivial⟩).1

/-- With a budget of one failure, a second failing call is made and counted, and a call after that is accepted; and one
failure is over a budget of none. -/
theorem exhausted_search_goes_on :
    ((searched 1 [mismatch]).status = "BUDGET_EXHAUSTED" ∧ (searched 1 [mismatch]).semanticFailures = 1) ∧
    ((searched 1 [mismatch, mismatch]).semanticFailures = 2 ∧ (searched 1 [mismatch, mismatch]).proofBudget = 1) ∧
    ((searched 1 [mismatch, mismatch, closing]).status = "PROVED" ∧
      (searched 1 [mismatch, mismatch, closing]).acceptedSteps.length = 1) ∧
    (searched 0 [mismatch]).semanticFailures = 1 ∧ (searched 0 [mismatch]).proofBudget = 0 := by
  decide +kernel

end Planning

end KakeyaEngine
