import KakeyaEngine.Definitions.Gate
import KakeyaEngine.Orchestration.Atomicity

/-!
# A call of the definition gate

`called_gate` says what a call of the gate can write: nothing, a checkpoint without a gap, or the outcome of the query that
it asks.  What a later call reads of the checkpoint is its `Reading`: the routing keeps it, and an outcome changes no more
than the gap, the count of added definitions and the forbidden fingerprints in it.
-/

namespace KakeyaEngine

namespace Definitions

open Fallible
open Orchestration (CheckpointError Legal transition_legal ArtifactRef ProofState)
open Orchestration.ProofState

/-! ### Transitions of the gate -/

/-- The checkpoint after a transition. -/
def GateCheckpoint.moved (c : GateCheckpoint) (next : ProofState) (reason : String) (strategyReused : Bool)
    (now : PyValue) : GateCheckpoint :=
  { c with toOrchestrationCheckpoint :=
      c.toOrchestrationCheckpoint.moveTo next reason { strategyReused := some strategyReused } now }

theorem run_move {s : GateState} {current next : ProofState} (reason : String) (strategyReused : Bool) (now : PyValue)
    (hstate : s.checkpoint.state = current.value) (hblocked : current ≠ blocked)
    (hnext : next ∈ Orchestration.allowedTransitions current) :
    (move next reason strategyReused now).run s =
      (.ok (), { s with checkpoint := s.checkpoint.moved next reason strategyReused now }) := by
  have hvalue : s.checkpoint.state ≠ blocked.value := by
    rw [hstate]
    exact fun h => hblocked (ProofState.value_injective h)
  have hlegal : Legal s.checkpoint.toOrchestrationCheckpoint next false := by
    unfold Legal
    rw [hstate, ofValue?_value]
    simp [hblocked, hnext]
  unfold move
  rw [Proc.run_focus_ok (transition_legal reason now hlegal), if_neg fun h => hvalue h.1]
  rfl

/-! ### What the gate reads -/

/-- What the gate reads of the checkpoint besides the proof state. -/
structure Reading where
  gap : String
  added : Int
  forbidden : List String
  parent : String
  typedIr : String
  cards : List String
  auditor : Option ArtifactRef
  critic : String
  proponent : String
  counterexample : String

def GateCheckpoint.reading (c : GateCheckpoint) : Reading where
  gap := c.currentDefinitionGapId
  added := c.definitionsAdded
  forbidden := c.forbiddenSemanticFingerprints
  parent := firstText [c.parentStatementSha256, c.propositionHash, c.targetObligationId]
  typedIr := c.typedIrHash
  cards := c.theoremCardIds
  auditor := c.validatedArtifacts.get? "definition_auditor"
  critic := evidenceHash c "critic"
  proponent := evidenceHash c "adversarial_proponent"
  counterexample := evidenceHash c "counterexample_worker"

/-- The forbidden fingerprints after a query was answered. -/
def forbid (forbidden : List String) (queryHash : String) : List String :=
  if queryHash ∈ forbidden then forbidden else forbidden ++ [queryHash]

namespace Reading

/-- The reading after an outcome. -/
def noted (g : Reading) (gap : String) (r : ResolutionResult) : Reading :=
  { g with
    gap := gap
    added := g.added + if r.status = "COMMITTED" then 1 else 0
    forbidden := forbid g.forbidden r.queryHash }

/-- Two readings with the same semantic inputs. -/
structure SameInputs (g g' : Reading) : Prop where
  parent : g.parent = g'.parent
  typedIr : g.typedIr = g'.typedIr
  cards : g.cards = g'.cards
  auditor : g.auditor = g'.auditor
  critic : g.critic = g'.critic
  proponent : g.proponent = g'.proponent
  counterexample : g.counterexample = g'.counterexample

theorem SameInputs.rfl {g : Reading} : SameInputs g g := ⟨.refl _, .refl _, .refl _, .refl _, .refl _, .refl _, .refl _⟩

theorem SameInputs.symm {g g' : Reading} (h : SameInputs g g') : SameInputs g' g :=
  ⟨h.parent.symm, h.typedIr.symm, h.cards.symm, h.auditor.symm, h.critic.symm, h.proponent.symm, h.counterexample.symm⟩

theorem SameInputs.trans {g g' g'' : Reading} (h : SameInputs g g') (h' : SameInputs g' g'') : SameInputs g g'' :=
  ⟨h.parent.trans h'.parent, h.typedIr.trans h'.typedIr, h.cards.trans h'.cards, h.auditor.trans h'.auditor,
    h.critic.trans h'.critic, h.proponent.trans h'.proponent, h.counterexample.trans h'.counterexample⟩

theorem sameInputs_noted (g : Reading) (gap : String) (r : ResolutionResult) : SameInputs (g.noted gap r) g :=
  ⟨.refl _, .refl _, .refl _, .refl _, .refl _, .refl _, .refl _⟩

end Reading

variable (rt : Runtime)

/-- The query depends on the reading of the checkpoint alone. -/
theorem gateQuery_reading (inputs : GateInputs) (c : GateCheckpoint) (reference : ArtifactRef) (gap : Dict String PyValue) :
    gateQuery rt inputs c reference gap =
      buildDefinitionQuery rt.quote gap c.reading.parent c.reading.typedIr reference.sha256
        [c.reading.critic, c.reading.proponent] [c.reading.counterexample] c.reading.cards inputs.environmentHash
        c.reading.forbidden := rfl

theorem gateQuery_congr (inputs : GateInputs) {c c' : GateCheckpoint} (h : c.reading = c'.reading) (reference : ArtifactRef)
    (gap : Dict String PyValue) : gateQuery rt inputs c reference gap = gateQuery rt inputs c' reference gap := by
  rw [gateQuery_reading, gateQuery_reading, h]

/-! ### The parts of a call -/

/-- The state that an outcome leads to. -/
def routedState (status : String) : ProofState :=
  if status = "COMMITTED" then strategyTournament
  else if status = "PARENT_STATEMENT_UNDERSPECIFIED" ∨ status = "INTERFACE_REQUIRED" then premiseAudit
  else parentStatementUnderspecified

theorem run_route (status : String) {s : GateState} (hstate : s.checkpoint.state = definitionResolution.value) :
    ∃ c, (route rt status).run s = (.ok (), { s with checkpoint := c }) ∧ c.state = (routedState status).value ∧
      c.reading = s.checkpoint.reading := by
  unfold route routedState
  by_cases hcommitted : status = "COMMITTED"
  · rw [if_pos hcommitted, if_pos hcommitted, run_move _ _ _ hstate (by decide) (by decide)]
    exact ⟨_, rfl, rfl, rfl⟩
  rw [if_neg hcommitted, if_neg hcommitted]
  by_cases hunderspecified : status = "PARENT_STATEMENT_UNDERSPECIFIED"
  · let back := (s.checkpoint.moved parentStatementUnderspecified "definition-interpretations-change-parent-truth" true
      rt.now).noteBackjump
    have hmoved : back.state = parentStatementUnderspecified.value := rfl
    rw [if_pos hunderspecified, if_pos (.inl hunderspecified),
      Proc.run_bind_ok (run_move _ _ _ hstate (by decide) (by decide))]
    unfold assign
    rw [Proc.run_modify_bind, run_move (s := ⟨back, s.commits⟩) _ _ _ hmoved (by decide) (by decide)]
    exact ⟨_, rfl, rfl, rfl⟩
  rw [if_neg hunderspecified]
  have hback : s.checkpoint.noteBackjump.state = definitionResolution.value := hstate
  by_cases hinterface : status = "INTERFACE_REQUIRED"
  · rw [if_pos hinterface, if_pos (.inr hinterface)]
    unfold assign
    rw [Proc.run_modify_bind, run_move (s := ⟨s.checkpoint.noteBackjump, s.commits⟩) _ _ _ hback (by decide) (by decide)]
    exact ⟨_, rfl, rfl, rfl⟩
  · rw [if_neg hinterface, if_neg fun h => h.elim hunderspecified hinterface]
    unfold assign
    rw [Proc.run_modify_bind, run_move (s := ⟨s.checkpoint.noteBackjump, s.commits⟩) _ _ _ hback (by decide) (by decide)]
    exact ⟨_, rfl, rfl, rfl⟩

theorem run_save (s : GateState) :
    (save rt.now).run s = (.ok (), ⟨s.checkpoint.stamped rt.now, s.commits ++ [.checkpoint (s.checkpoint.stamped rt.now)]⟩) :=
  rfl

theorem run_finish (r : ResolutionResult) {s : GateState} (hstate : s.checkpoint.state = definitionResolution.value) :
    ∃ last, (finish rt r).run s = (.ok r.status, ⟨last, s.commits ++ [.checkpoint last]⟩) ∧
      last.state = (routedState r.status).value ∧ last.reading = (s.checkpoint.noteStagnation r).reading := by
  have hnoted : (s.checkpoint.noteStagnation r).state = definitionResolution.value := hstate
  obtain ⟨c, hroute, hrouted, hreading⟩ := run_route rt r.status (s := ⟨s.checkpoint.noteStagnation r, s.commits⟩) hnoted
  unfold finish assign
  rw [Proc.run_modify_bind, Proc.run_bind_ok hroute, Proc.run_bind_ok (run_save rt _)]
  exact ⟨_, rfl, hrouted, hreading⟩

/-- The artifact of the gate is none that the gate reads. -/
theorem reading_noteArtifact (c : GateCheckpoint) (ref : ArtifactRef) : (c.noteArtifact ref).reading = c.reading := by
  have hother (role : String) (h : role ≠ "definition_resolution") :
      (c.noteArtifact ref).validatedArtifacts.get? role = c.validatedArtifacts.get? role := Dict.get?_set_ne _ h
  unfold GateCheckpoint.reading evidenceHash
  rw [hother _ (by decide), hother _ (by decide), hother _ (by decide), hother _ (by decide)]
  rfl

/-- A call saves the checkpoint twice after it has resolved a gap, unless the statuses of the properties cannot be copied. -/
theorem run_settleGap (inputs : GateInputs) (reference : ArtifactRef) (gap : String) (r : ResolutionResult) {s : GateState}
    (hstate : s.checkpoint.state = definitionResolution.value) :
    (((settleGap rt inputs reference gap r).run s).2.commits = s.commits ∧
        ∀ properties, copyStatuses r.propertyStatuses ≠ .ok properties) ∨
      ∃ mid last, ((settleGap rt inputs reference gap r).run s).2.commits =
          s.commits ++ [.checkpoint mid, .checkpoint last] ∧
        last.state = (routedState r.status).value ∧ last.reading = s.checkpoint.reading.noted gap r := by
  unfold settleGap assign
  rw [Proc.run_modify_bind]
  rcases hcopy : copyStatuses r.propertyStatuses with e | properties
  · exact .inl ⟨rfl, fun _ h => by cases h⟩
  · let noted := (s.checkpoint.noteResult gap r).noteProgress r properties
    let mid := (noted.noteArtifact (resultRef rt inputs reference gap r)).stamped rt.now
    have hmid : mid.state = definitionResolution.value := hstate
    obtain ⟨last, hfinish, hrouted, hreading⟩ := run_finish rt r (s := ⟨mid, s.commits ++ [.checkpoint mid]⟩) hmid
    rw [Proc.run_bind_ok (Proc.run_ofExcept (.ok properties) _), Proc.run_modify_bind, Proc.run_modify_bind,
      Proc.run_bind_ok (run_save rt _)]
    refine .inr ⟨mid, last, ?_, hrouted, ?_⟩
    · rw [show ((finish rt r).run _).2.commits = _ from congrArg (fun x => x.2.commits) hfinish]
      exact List.append_assoc _ _ _
    · have hnoted : mid.reading = noted.reading := reading_noteArtifact noted _
      calc last.reading = (mid.noteStagnation r).reading := hreading
        _ = { mid.reading with forbidden := (mid.noteStagnation r).forbiddenSemanticFingerprints } := rfl
        _ = { noted.reading with forbidden := (mid.noteStagnation r).forbiddenSemanticFingerprints } := by rw [hnoted]
        _ = s.checkpoint.reading.noted gap r := rfl

theorem run_enter {s : GateState} {state : ProofState} (hgate : state ∈ gateStates) (hstate : s.checkpoint.state = state.value) :
    ∃ c, (enter rt).run s = (.ok (), ⟨c, s.commits⟩) ∧ c.state = definitionResolution.value ∧
      c.reading = s.checkpoint.reading := by
  unfold enter
  rw [Proc.run_get_bind]
  by_cases hresolution : s.checkpoint.state = definitionResolution.value
  · rw [if_pos hresolution]
    exact ⟨_, rfl, hresolution, rfl⟩
  · rw [if_neg hresolution]
    have hallowed : state ≠ blocked ∧ definitionResolution ∈ Orchestration.allowedTransitions state := by
      simp only [gateStates, List.mem_cons, List.not_mem_nil, or_false] at hgate
      rcases hgate with rfl | rfl | rfl | rfl
      · exact absurd hstate hresolution
      · decide
      · decide
      · decide
    rw [run_move _ _ _ hstate hallowed.1 hallowed.2]
    exact ⟨_, rfl, rfl, rfl⟩

/-! ### Calls -/

/-- What a call asks, and the store and the audit that it found. -/
structure Asked where
  store : ResolutionStore
  reference : ArtifactRef
  missing : List (Dict String PyValue)
  gap : Dict String PyValue
  query : DefinitionQuery

/-- The query of a call, if it gets to ask one. -/
def asked (inputs : GateInputs) (files : Files) : Except CheckpointError (Option Asked) := do
  let opened ← openDefinitions inputs files.checkpoint
  match opened with
  | none => .ok none
  | some (reference, missing) => do
    let store ← loadResolutionStore files.store inputs.environmentHash
    match chooseGap rt missing files.checkpoint.currentDefinitionGapId store.commits.keys with
    | none => .ok none
    | some gap => do
      let query ← gateQuery rt inputs files.checkpoint reference gap
      .ok (some ⟨store, reference, missing, gap, query⟩)

/-- How a call gets to ask a query. -/
structure Asks (inputs : GateInputs) (files : Files) (a : Asked) : Prop where
  opened : openDefinitions inputs files.checkpoint = .ok (some (a.reference, a.missing))
  loaded : loadResolutionStore files.store inputs.environmentHash = .ok a.store
  chosen : chooseGap rt a.missing files.checkpoint.currentDefinitionGapId a.store.commits.keys = some a.gap
  built : gateQuery rt inputs files.checkpoint a.reference a.gap = .ok a.query

theorem asked_eq_some {inputs : GateInputs} {files : Files} {a : Asked} :
    asked rt inputs files = .ok (some a) ↔ Asks rt inputs files a := by
  unfold asked
  constructor
  · intro h
    obtain ⟨opened, hopened, h⟩ := bind_eq_ok.mp h
    rcases opened with _ | ⟨reference, missing⟩
    · cases h
    obtain ⟨store, hloaded, h⟩ := bind_eq_ok.mp h
    rcases hchosen : chooseGap rt missing files.checkpoint.currentDefinitionGapId store.commits.keys with _ | gap
    · rw [hchosen] at h
      cases h
    rw [hchosen] at h
    obtain ⟨query, hbuilt, h⟩ := bind_eq_ok.mp h
    cases h
    exact ⟨hopened, hloaded, hchosen, hbuilt⟩
  · intro h
    refine bind_eq_ok.mpr ⟨_, h.opened, bind_eq_ok.mpr ⟨_, h.loaded, ?_⟩⟩
    rw [h.chosen]
    exact bind_eq_ok.mpr ⟨_, h.built, rfl⟩

theorem Asks.unique {inputs : GateInputs} {files : Files} {a a' : Asked} (h : Asks rt inputs files a)
    (h' : Asks rt inputs files a') : a = a' := by
  have hasked := (asked_eq_some rt).mpr h
  rw [(asked_eq_some rt).mpr h'] at hasked
  exact (Option.some.inj (Except.ok.inj hasked)).symm

/-- The call resolves the query that it asks. -/
def Resolves (inputs : GateInputs) (files : Files) (a : Asked) (r : ResolutionResult) (written : Option ResolutionStore) :
    Prop :=
  gateResolve rt inputs files.store a.store a.query = .ok (r, written)

/-- What a call can write. -/
inductive Called (inputs : GateInputs) (files : Files) : List Commit → Prop
  | nothing (hnone : ∀ a r written, Asks rt inputs files a → ¬ Resolves rt inputs files a r written) :
      Called inputs files []
  | noGap {reference : ArtifactRef} {missing : List (Dict String PyValue)} {store : ResolutionStore} {c : GateCheckpoint}
      (hopened : openDefinitions inputs files.checkpoint = .ok (some (reference, missing)))
      (hloaded : loadResolutionStore files.store inputs.environmentHash = .ok store)
      (hgap : chooseGap rt missing files.checkpoint.currentDefinitionGapId store.commits.keys = none)
      (hreading : c.reading = { files.checkpoint.reading with gap := "" }) : Called inputs files [.checkpoint c]
  | cut {a : Asked} {r : ResolutionResult} {written : Option ResolutionStore} (hasks : Asks rt inputs files a)
      (hresolved : Resolves rt inputs files a r written)
      (hfails : ∀ properties, copyStatuses r.propertyStatuses ≠ .ok properties) :
      Called inputs files (written.toList.map .store)
  | resolved {a : Asked} {r : ResolutionResult} {written : Option ResolutionStore} (mid : GateCheckpoint)
      {last : GateCheckpoint} (hasks : Asks rt inputs files a)
      (hresolved : Resolves rt inputs files a r written)
      (hstate : last.state = (routedState r.status).value)
      (hreading : last.reading = files.checkpoint.reading.noted (gapId rt a.gap) r) :
      Called inputs files (written.toList.map .store ++ [.checkpoint mid, .checkpoint last])

/-- A gate with something to do is in one of its states. -/
theorem gateState_of_opened {inputs : GateInputs} {c : GateCheckpoint} {opened : ArtifactRef × List (Dict String PyValue)}
    (h : openDefinitions inputs c = .ok (some opened)) : ∃ state ∈ gateStates, c.state = state.value := by
  unfold openDefinitions at h
  split at h
  · cases h
  · rename_i state hstate
    split at h
    · rename_i hgate
      exact ⟨state, hgate, ofValue?_eq_some.mp hstate⟩
    · cases h

theorem called_gate (inputs : GateInputs) (files : Files) : Called rt inputs files (gateCommits rt inputs files) := by
  unfold gateCommits runHostDefinitionGate
  rw [Proc.run_get_bind]
  rcases hopened : openDefinitions inputs files.checkpoint with e | _ | ⟨reference, missing⟩
  · exact .nothing fun a _ _ h => by cases hopened.symm.trans h.opened
  · exact .nothing fun a _ _ h => by cases hopened.symm.trans h.opened
  rw [Proc.run_bind_ok (Proc.run_ofExcept (.ok (some (reference, missing))) _)]
  dsimp only
  rcases hloaded : loadResolutionStore files.store inputs.environmentHash with e | store
  · exact .nothing fun a _ _ h => by cases hloaded.symm.trans h.loaded
  rw [Proc.run_bind_ok (Proc.run_ofExcept (.ok store) _)]
  rcases hchosen : chooseGap rt missing files.checkpoint.currentDefinitionGapId store.commits.keys with _ | gap
  · exact .noGap hopened hloaded hchosen rfl
  obtain ⟨state, hgate, hstate⟩ := gateState_of_opened hopened
  obtain ⟨c, henter, hentered, hreading⟩ := run_enter rt (s := ⟨files.checkpoint, []⟩) hgate hstate
  dsimp only
  unfold workOn
  rw [Proc.run_bind_ok henter, Proc.run_get_bind]
  rcases hquery : gateQuery rt inputs c reference gap with e | query
  · rw [Proc.run_bind_error (Proc.run_ofExcept (.error e) _)]
    refine .nothing fun a _ _ h => ?_
    obtain ⟨rfl, rfl⟩ := Prod.mk.inj (Option.some.inj (Except.ok.inj (hopened.symm.trans h.opened)))
    obtain rfl := Except.ok.inj (hloaded.symm.trans h.loaded)
    obtain rfl := Option.some.inj (hchosen.symm.trans h.chosen)
    rw [gateQuery_congr rt inputs hreading] at hquery
    cases hquery.symm.trans h.built
  rw [Proc.run_bind_ok (Proc.run_ofExcept (.ok query) _)]
  have hasks : Asks rt inputs files ⟨store, reference, missing, gap, query⟩ :=
    ⟨hopened, hloaded, hchosen, (gateQuery_congr rt inputs hreading.symm reference gap).trans hquery⟩
  rcases hresolved : gateResolve rt inputs files.store store query with e | ⟨r, written⟩
  · rw [Proc.run_bind_error (Proc.run_ofExcept (.error e) _)]
    refine .nothing fun a _ _ h hresolves => ?_
    obtain rfl := hasks.unique rt h
    cases hresolved.symm.trans hresolves
  rw [Proc.run_bind_ok (Proc.run_ofExcept (.ok (r, written)) _)]
  cases written with
  | none =>
    rcases run_settleGap rt inputs reference (gapId rt gap) r (s := ⟨c, []⟩) hentered with ⟨hcommits, hfails⟩ |
      ⟨mid, last, hcommits, hlast, hnoted⟩
    · have hcalled : Called rt inputs files _ := .cut hasks hresolved hfails
      rw [show (none : Option ResolutionStore).toList.map Commit.store = _ from hcommits.symm] at hcalled
      exact hcalled
    · rw [hreading] at hnoted
      have hcalled : Called rt inputs files _ := .resolved mid hasks hresolved hlast hnoted
      rw [show (none : Option ResolutionStore).toList.map Commit.store ++ [.checkpoint mid, .checkpoint last] = _ from hcommits.symm] at hcalled
      exact hcalled
  | some written =>
    rcases run_settleGap rt inputs reference (gapId rt gap) r (s := ⟨c, [.store written]⟩) hentered with
      ⟨hcommits, hfails⟩ | ⟨mid, last, hcommits, hlast, hnoted⟩
    · have hcalled : Called rt inputs files _ := .cut hasks hresolved hfails
      rw [show (some written).toList.map Commit.store = _ from hcommits.symm] at hcalled
      exact hcalled
    · rw [hreading] at hnoted
      have hcalled : Called rt inputs files _ := .resolved mid hasks hresolved hlast hnoted
      rw [show (some written).toList.map Commit.store ++ [.checkpoint mid, .checkpoint last] = _ from hcommits.symm] at hcalled
      exact hcalled

end Definitions

end KakeyaEngine
