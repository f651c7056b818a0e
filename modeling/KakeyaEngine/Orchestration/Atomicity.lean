import KakeyaEngine.Orchestration.Checkpoint

/-!
# Which failing operations leave the checkpoint alone

A transition is checked before anything is assigned, so one that raises changes nothing.  `retry` and
`beginDecompositionIteration` count first and move second, and the event that leaves `BLOCKED` reads its reuse map after
the artifacts were taken out: these three are atomic exactly when `Safe` holds.
-/

namespace KakeyaEngine

namespace Orchestration

open ProofState

/-! ### Legal transitions -/

/-- The transition is in the table, and it leaves `BLOCKED` only with an event. -/
def Legal (c : OrchestrationCheckpoint) (next : ProofState) (typed : Bool) : Prop :=
  match ofValue? c.state with
  | none => False
  | some current => next ∈ allowedTransitions current ∧ (current = blocked → next = blocked ∨ typed = true)

instance (c : OrchestrationCheckpoint) (next : ProofState) (typed : Bool) : Decidable (Legal c next typed) := by
  unfold Legal
  split
  · exact inferInstanceAs (Decidable False)
  · exact inferInstance

theorem not_auditOnly {current next : ProofState} (h : next ∈ allowedTransitions current) : current ∉ auditOnly := by
  intro hc
  simp only [auditOnly, List.mem_cons, List.not_mem_nil, or_false] at hc
  rcases hc with rfl | rfl | rfl <;> cases h

/-- A transition that is not legal raises before it assigns anything. -/
theorem transition_illegal {c : OrchestrationCheckpoint} {next : ProofState} {args : TransitionArgs} (reason : String)
    (now : PyValue) (h : ¬ Legal c next args.blockedExitEvent.isSome) :
    ∃ e, (transition next reason args now).run c = (.error e, c) := by
  unfold transition
  rw [Proc.run_get_bind]
  unfold Legal at h
  rcases hs : ofValue? c.state with _ | current
  · exact ⟨_, rfl⟩
  · rw [hs] at h
    dsimp only at h ⊢
    by_cases haudit : current ∈ auditOnly
    · rw [if_pos haudit]
      exact ⟨_, rfl⟩
    rw [if_neg haudit]
    by_cases hexit : current = blocked ∧ next ≠ blocked ∧ args.blockedExitEvent.isNone
    · rw [if_pos hexit]
      exact ⟨_, rfl⟩
    rw [if_neg hexit]
    by_cases hstay : current = blocked ∧ next = blocked
    · obtain ⟨rfl, rfl⟩ := hstay
      exact absurd ⟨by decide, fun _ => .inl rfl⟩ h
    rw [if_neg hstay]
    have hmem : next ∉ allowedTransitions current := by
      intro hmem
      refine h ⟨hmem, fun hb => ?_⟩
      by_contra hnone
      rw [not_or, Bool.not_eq_true, Option.isSome_eq_false_iff] at hnone
      exact hexit ⟨hb, hnone⟩
    rw [if_pos hmem]
    exact ⟨_, rfl⟩

/-- A legal transition returns, and from `BLOCKED` to `BLOCKED` it does nothing. -/
theorem transition_legal {c : OrchestrationCheckpoint} {next : ProofState} {args : TransitionArgs} (reason : String)
    (now : PyValue) (h : Legal c next args.blockedExitEvent.isSome) :
    (transition next reason args now).run c =
      (.ok (), if c.state = blocked.value ∧ next = blocked then c else c.moveTo next reason args now) := by
  unfold transition
  rw [Proc.run_get_bind]
  unfold Legal at h
  rcases hs : ofValue? c.state with _ | current
  · rw [hs] at h
    exact h.elim
  · rw [hs] at h
    dsimp only at h ⊢
    have hexit : ¬ (current = blocked ∧ next ≠ blocked ∧ args.blockedExitEvent.isNone) := by
      rintro ⟨hb, hnext, hnone⟩
      rcases h.2 hb with hn | htyped
      · exact hnext hn
      · rw [Option.isNone_iff_eq_none] at hnone
        rw [hnone] at htyped
        cases htyped
    have hstate : c.state = blocked.value ↔ current = blocked := by
      rw [ofValue?_eq_some.mp hs]
      exact ⟨value_injective, fun h => h ▸ rfl⟩
    rw [if_neg (not_auditOnly h.1), if_neg hexit, if_neg (not_not_intro h.1)]
    by_cases hstay : current = blocked ∧ next = blocked
    · rw [if_pos hstay, if_pos ⟨hstate.mpr hstay.1, hstay.2⟩]
      rfl
    · rw [if_neg hstay, if_neg fun h => hstay ⟨hstate.mp h.1, h.2⟩]
      rfl

theorem transition_unchanged {c c' : OrchestrationCheckpoint} {next : ProofState} {reason : String}
    {args : TransitionArgs} {now : PyValue} {e : CheckpointError}
    (h : (transition next reason args now).run c = (.error e, c')) : c' = c := by
  by_cases hl : Legal c next args.blockedExitEvent.isSome
  · rw [transition_legal reason now hl] at h
    cases h
  · obtain ⟨e', he⟩ := transition_illegal reason now hl
    rw [he] at h
    exact (Prod.mk.inj h).2.symm

/-- Whether a transition is legal depends on the proof state alone. -/
theorem legal_congr {c d : OrchestrationCheckpoint} (h : c.state = d.state) (next : ProofState) (typed : Bool) :
    Legal c next typed ↔ Legal d next typed := by
  unfold Legal
  rw [h]

/-! ### Counting before moving -/

/-- A procedure that raises leaves the state as it was. -/
def Unchanged {α : Type} (x : Update α) (c : OrchestrationCheckpoint) : Prop :=
  ∀ e c', x.run c = (.error e, c') → c' = c

/-- An operation that changes the checkpoint to `d` and then makes a transition is atomic exactly when the transition is
legal. -/
theorem unchanged_transition {α : Type} {c d : OrchestrationCheckpoint} {next : ProofState} {reason : String}
    {args : TransitionArgs} {now : PyValue} {a : α} {x : Update α}
    (hx : x.run c = (transition next reason args now >>= fun _ => pure a).run d) (hstate : d.state = c.state)
    (hne : d ≠ c) : Unchanged x c ↔ Legal c next args.blockedExitEvent.isSome := by
  constructor
  · intro h
    by_contra hl
    rw [← legal_congr hstate] at hl
    obtain ⟨e, he⟩ := transition_illegal reason now hl
    exact hne (h e d (by rw [hx, Proc.run_bind_error he]))
  · intro hl e c' he
    rw [← legal_congr hstate] at hl
    rw [hx, Proc.run_bind_ok (transition_legal reason now hl)] at he
    cases (Prod.mk.inj he).1

/-- The failure repeats the last one, or the role has no retry left. -/
def Exhausted (c : OrchestrationCheckpoint) (role : ProofState) (reason : String) (limit : Int) : Prop :=
  (failureFingerprint c role reason = c.lastFailureFingerprint ∧ 1 ≤ c.identicalFailureCount) ∨
    limit ≤ (c.retryCounters.get? role.value).getD 0

instance (c : OrchestrationCheckpoint) (role : ProofState) (reason : String) (limit : Int) :
    Decidable (Exhausted c role reason limit) := inferInstanceAs (Decidable (_ ∨ _))

theorem noteFailure_state (c : OrchestrationCheckpoint) (fingerprint : String) :
    (c.noteFailure fingerprint).state = c.state := by
  unfold OrchestrationCheckpoint.noteFailure
  split <;> rfl

theorem noteFailure_validatedArtifacts (c : OrchestrationCheckpoint) (fingerprint : String) :
    (c.noteFailure fingerprint).validatedArtifacts = c.validatedArtifacts := by
  unfold OrchestrationCheckpoint.noteFailure
  split <;> rfl

theorem noteFailure_lastFailureFingerprint (c : OrchestrationCheckpoint) (fingerprint : String) :
    (c.noteFailure fingerprint).lastFailureFingerprint = fingerprint := by
  unfold OrchestrationCheckpoint.noteFailure
  split
  · rename_i heq
    exact heq.symm
  · rfl

theorem noteFailure_retryCounters (c : OrchestrationCheckpoint) (fingerprint : String) :
    (c.noteFailure fingerprint).retryCounters = c.retryCounters := by
  unfold OrchestrationCheckpoint.noteFailure
  split <;> rfl

theorem noteFailure_twice (c : OrchestrationCheckpoint) (fingerprint : String) :
    (c.noteFailure fingerprint).identicalFailureCount ≥ 2 ↔
      fingerprint = c.lastFailureFingerprint ∧ 1 ≤ c.identicalFailureCount := by
  unfold OrchestrationCheckpoint.noteFailure
  split
  · rename_i heq
    dsimp only
    constructor
    · intro h
      exact ⟨heq, by omega⟩
    · intro h
      omega
  · rename_i hne
    constructor
    · intro h
      dsimp only at h
      omega
    · intro h
      exact absurd h.1 hne

/-- Noting a failure always leaves a mark: a new fingerprint or a higher count. -/
theorem ne_of_noteFailure {c d : OrchestrationCheckpoint} {fingerprint : String}
    (hlast : d.lastFailureFingerprint = (c.noteFailure fingerprint).lastFailureFingerprint)
    (hcount : d.identicalFailureCount = (c.noteFailure fingerprint).identicalFailureCount) : d ≠ c := by
  rintro rfl
  unfold OrchestrationCheckpoint.noteFailure at hlast hcount
  split at hlast
  · rename_i heq
    rw [if_pos heq] at hcount
    dsimp only at hcount
    omega
  · rename_i hne
    exact hne hlast.symm

/-- What `retry` has assigned before it moves: the failure, and a count of the role unless the failure repeats. -/
structure Counted (c d : OrchestrationCheckpoint) (role : ProofState) (reason : String) : Prop where
  state : d.state = c.state
  artifacts : d.validatedArtifacts = c.validatedArtifacts
  fingerprint :
    d.lastFailureFingerprint = (c.noteFailure (failureFingerprint c role reason)).lastFailureFingerprint
  count : d.identicalFailureCount = (c.noteFailure (failureFingerprint c role reason)).identicalFailureCount
  counters : d.retryCounters =
    if d.identicalFailureCount ≥ 2 then c.retryCounters else c.retryCounters.set role.value (retryCount c role)

/-- What `retry` does in a known state other than `BLOCKED`: after its counts it moves to `BLOCKED` or back to the
role. -/
theorem retry_run {c : OrchestrationCheckpoint} {current : ProofState} (hs : ofValue? c.state = some current)
    (hb : current ≠ blocked) (role : ProofState) (reason : String) (limit : Int) (now : PyValue) :
    ∃ d message args answer,
      (retry role reason limit now).run c =
        (transition (if Exhausted c role reason limit then blocked else role) message args now >>=
          fun _ => pure answer).run d ∧
      args.blockedExitEvent = none ∧ Counted c d role reason ∧ (answer = true ↔ ¬ Exhausted c role reason limit) := by
  unfold retry
  rw [Proc.run_get_bind, hs]
  dsimp only
  rw [if_neg hb, Proc.run_modify_bind, Proc.run_get_bind]
  have hstate := noteFailure_state c (failureFingerprint c role reason)
  have hartifacts := noteFailure_validatedArtifacts c (failureFingerprint c role reason)
  have hcounters := noteFailure_retryCounters c (failureFingerprint c role reason)
  have htwice := noteFailure_twice c (failureFingerprint c role reason)
  have hcounted : ∀ d : OrchestrationCheckpoint, d.state = c.state → d.validatedArtifacts = c.validatedArtifacts →
      d.lastFailureFingerprint = (c.noteFailure (failureFingerprint c role reason)).lastFailureFingerprint →
      d.identicalFailureCount = (c.noteFailure (failureFingerprint c role reason)).identicalFailureCount →
      (d.retryCounters =
        if d.identicalFailureCount ≥ 2 then c.retryCounters else c.retryCounters.set role.value (retryCount c role)) →
      Counted c d role reason := fun _ h₁ h₂ h₃ h₄ h₅ => ⟨h₁, h₂, h₃, h₄, h₅⟩
  generalize c.noteFailure (failureFingerprint c role reason) = d at *
  by_cases hrepeat : d.identicalFailureCount ≥ 2
  · have hexhausted : Exhausted c role reason limit := .inl (htwice.mp hrepeat)
    rw [if_pos hrepeat, if_pos hexhausted]
    refine ⟨_, _, _, false, rfl, rfl, hcounted _ hstate hartifacts rfl rfl ?_, by simp [hexhausted]⟩
    exact hcounters.trans (if_pos hrepeat).symm
  rw [if_neg hrepeat, Proc.run_modify_bind]
  have hretry : retryCount d role = retryCount c role := by
    unfold retryCount
    rw [hcounters]
  have hcount : retryCount d role > limit ↔ limit ≤ (c.retryCounters.get? role.value).getD 0 := by
    rw [hretry]
    unfold retryCount
    omega
  have hset : d.retryCounters.set role.value (retryCount d role) =
      if d.identicalFailureCount ≥ 2 then c.retryCounters else c.retryCounters.set role.value (retryCount c role) := by
    rw [if_neg hrepeat, hretry, hcounters]
  by_cases hspent : retryCount d role > limit
  · have hexhausted : Exhausted c role reason limit := .inr (hcount.mp hspent)
    rw [if_pos hspent, if_pos hexhausted]
    exact ⟨_, _, _, false, rfl, rfl, hcounted _ hstate hartifacts rfl rfl hset, by simp [hexhausted]⟩
  · have hleft : ¬ Exhausted c role reason limit := by
      rintro (h | h)
      · exact hrepeat (htwice.mpr h)
      · exact hspent (hcount.mpr h)
    rw [if_neg hspent, if_neg hleft]
    exact ⟨_, _, _, true, rfl, rfl, hcounted _ hstate hartifacts rfl rfl hset, by simp [hleft]⟩

/-- `retry` is atomic when it raises or returns at once, and otherwise when the state it moves to is legal. -/
theorem retry_unchanged_iff (c : OrchestrationCheckpoint) (role : ProofState) (reason : String) (limit : Int)
    (now : PyValue) :
    Unchanged (retry role reason limit now) c ↔
      ofValue? c.state = none ∨ c.state = blocked.value ∨
        Legal c (if Exhausted c role reason limit then blocked else role) false := by
  rcases hs : ofValue? c.state with _ | current
  · refine ⟨fun _ => .inl rfl, fun _ e c' he => ?_⟩
    unfold retry at he
    rw [Proc.run_get_bind, hs] at he
    exact (Prod.mk.inj he).2.symm
  by_cases hb : current = blocked
  · subst hb
    refine ⟨fun _ => .inr (.inl (ofValue?_eq_some.mp hs)), fun _ e c' he => ?_⟩
    unfold retry at he
    rw [Proc.run_get_bind, hs] at he
    cases (Prod.mk.inj he).1
  obtain ⟨d, message, args, answer, hrun, hargs, hcounted, -⟩ := retry_run hs hb role reason limit now
  have hne : d ≠ c := ne_of_noteFailure hcounted.fingerprint hcounted.count
  rw [unchanged_transition hrun hcounted.state hne, hargs]
  have hstay : c.state ≠ blocked.value := by
    rw [ofValue?_eq_some.mp hs]
    exact fun h => hb (value_injective h)
  simp [hstay]

/-- `beginDecompositionIteration` is atomic when it refuses the viewpoint, and otherwise when the decomposer may be
entered. -/
theorem begin_unchanged_iff (c : OrchestrationCheckpoint) (viewpoint reason : String) (now : PyValue) :
    Unchanged (beginDecompositionIteration viewpoint reason now) c ↔
      LeanGate.strip viewpoint.toList = [] ∨ Legal c decomposer false := by
  by_cases hempty : LeanGate.strip viewpoint.toList = []
  · refine ⟨fun _ => .inl hempty, fun _ e c' he => ?_⟩
    unfold beginDecompositionIteration at he
    rw [hempty] at he
    exact (Prod.mk.inj he).2.symm
  have hne : String.ofList (LeanGate.strip viewpoint.toList) ≠ "" := by
    intro h
    have hlist := congrArg String.toList h
    rw [String.toList_ofList] at hlist
    exact hempty hlist
  have hrun : (beginDecompositionIteration viewpoint reason now).run c =
      (transition decomposer reason { resumeOrigin := decomposer.value, strategyReused := some true } now >>=
        fun _ => pure ()).run { c with
          decompositionIteration := c.decompositionIteration + 1
          viewpoint := String.ofList (LeanGate.strip viewpoint.toList)
          viewpointsTried :=
            if String.ofList (LeanGate.strip viewpoint.toList) ∈ c.viewpointsTried then c.viewpointsTried
            else c.viewpointsTried ++ [String.ofList (LeanGate.strip viewpoint.toList)] } := by
    unfold beginDecompositionIteration
    dsimp only
    rw [if_neg hne, Proc.run_modify_bind, Proc.run_bind_unit]
  rw [unchanged_transition hrun rfl]
  · simp [hempty]
  · intro h
    have hcount := congrArg OrchestrationCheckpoint.decompositionIteration h
    dsimp only at hcount
    omega

/-! ### Leaving `BLOCKED` -/

section Backjump

variable (quote : String → String)

/-- The event passes every check of a backjump, and then its reuse map is no mapping. -/
def Interrupted (c : OrchestrationCheckpoint) (event : BlockedExitEvent) : Prop :=
  ∃ target checked, checkEvent c event = .ok (.hostGateDefectsBackjump, target) ∧
    checkBackjump quote c event target = .ok checked ∧ ((event.metadata.get? "reuse_map").getD .null).mapping? = none

variable {quote}

/-- An event that passes the checks finds the checkpoint in `BLOCKED`, and its target may be entered from there. -/
theorem checkEvent_ok {c : OrchestrationCheckpoint} {event : BlockedExitEvent} {eventType : BlockedEventType}
    {target : ProofState} (h : checkEvent c event = .ok (eventType, target)) :
    c.state = blocked.value ∧ target ∈ allowedTransitions blocked ∧
      eventType.requiredMetadata.all (fun key => ((event.metadata.get? key).getD .null).truthy) = true ∧
      BlockedEventType.ofValue? event.eventType = some eventType ∧ event.targetState = target.value := by
  unfold checkEvent at h
  rcases hs : ofValue? c.state with _ | current
  · rw [hs] at h
    cases h
  rw [hs] at h
  dsimp only at h
  by_cases hb : current ≠ blocked
  · rw [if_pos hb] at h
    cases h
  rw [if_neg hb] at h
  split at h
  · cases h
  rcases ht : BlockedEventType.ofValue? event.eventType with _ | t
  · rw [ht] at h
    cases h
  rw [ht] at h
  rcases htarget : ofValue? event.targetState with _ | target'
  · rw [htarget] at h
    cases h
  rcases hreset : ofValue? event.resetRole with _ | resetRole
  · rw [htarget, hreset] at h
    cases h
  rw [htarget, hreset] at h
  dsimp only at h
  split at h
  · cases h
  by_cases hallowed : target' ∉ allowedTransitions blocked
  · rw [if_pos hallowed] at h
    cases h
  rw [if_neg hallowed] at h
  split at h
  · cases h
  by_cases hmeta : (t.requiredMetadata.any fun key => !((event.metadata.get? key).getD .null).truthy) = true
  · rw [if_pos hmeta] at h
    cases h
  rw [if_neg hmeta] at h
  obtain ⟨rfl, rfl⟩ := Prod.mk.inj (Except.ok.inj h)
  refine ⟨?_, not_not.mp hallowed, ?_, rfl, ofValue?_eq_some.mp htarget⟩
  · rw [ofValue?_eq_some.mp hs, not_not.mp hb]
  · simpa [List.all_eq_true, List.any_eq_true] using hmeta

/-- The artifacts to invalidate are validated ones. -/
theorem checkInvalidated_ok {c : OrchestrationCheckpoint} {entries : List (String × PyValue)}
    (h : checkInvalidated c entries = .ok ()) : ∀ e ∈ entries, ∃ ref, c.validatedArtifacts.get? e.1 = some ref := by
  induction entries with
  | nil => simp
  | cons e es ih =>
    obtain ⟨role, digest⟩ := e
    unfold checkInvalidated at h
    split at h
    · rename_i ref sha256 hrole
      split at h
      · intro e he
        rcases List.mem_cons.mp he with rfl | he
        · exact ⟨ref, hrole⟩
        · exact ih h e he
      · cases h
    · cases h

/-- What a backjump whose checks passed has checked last. -/
theorem checkBackjump_ok {c : OrchestrationCheckpoint} {event : BlockedExitEvent} {target : ProofState}
    {defects : List HostGateDefect} {invalidated : Dict String PyValue}
    (h : checkBackjump quote c event target = .ok (defects, invalidated)) :
    ((event.metadata.get? "invalidated_artifact_hashes").getD .null).mapping? = some invalidated ∧
      checkInvalidated c invalidated.entries = .ok () := by
  unfold checkBackjump at h
  rcases hmessages : defectMessages quote ((event.metadata.get? "defects").getD .null) with e | messages
  · rw [hmessages] at h
    cases h
  rw [hmessages] at h
  rcases hdefects : classifyHostGateDefects messages with e | classified
  · simp only [hdefects, bind, Except.bind] at h
    cases h
  rcases hearliest : earliestInvalidRole classified with e | earliest
  · simp only [hdefects, hearliest, bind, Except.bind] at h
    cases h
  simp only [hdefects, hearliest, bind, Except.bind] at h
  split at h
  · cases h
  rcases hmap : ((event.metadata.get? "invalidated_artifact_hashes").getD .null).mapping? with _ | listed
  · rw [hmap] at h
    cases h
  rw [hmap] at h
  dsimp only at h
  rcases hchecked : checkInvalidated c listed.entries with e | u
  · rw [hchecked] at h
    cases h
  rw [hchecked] at h
  obtain ⟨-, rfl⟩ := Prod.mk.inj (Except.ok.inj h)
  exact ⟨rfl, hchecked⟩

/-- The loop that takes the artifacts out does not fail: the keys of a mapping are distinct. -/
theorem invalidateAll_run (event : BlockedExitEvent) (defects : List HostGateDefect) {roles : List String}
    {c : OrchestrationCheckpoint} (hnodup : roles.Nodup)
    (hroles : ∀ role ∈ roles, ∃ ref, c.validatedArtifacts.get? role = some ref) :
    ∃ d, (invalidateAll event defects roles).run c = (.ok (), d) ∧ d.state = c.state ∧
      ∀ role ∈ roles, d.validatedArtifacts.get? role = none := by
  suffices h : ∃ d, (invalidateAll event defects roles).run c = (.ok (), d) ∧ d.state = c.state ∧
      (∀ role ∈ roles, d.validatedArtifacts.get? role = none) ∧
      ∀ role, c.validatedArtifacts.get? role = none → d.validatedArtifacts.get? role = none by
    obtain ⟨d, hrun, hstate, hgone, -⟩ := h
    exact ⟨d, hrun, hstate, hgone⟩
  induction roles generalizing c with
  | nil => exact ⟨c, rfl, rfl, by simp, fun _ h => h⟩
  | cons role roles ih =>
    rw [List.nodup_cons] at hnodup
    obtain ⟨ref, href⟩ := hroles role List.mem_cons_self
    have hone : ∃ d, (invalidate event defects role).run c = (.ok (), d) ∧ d.state = c.state ∧
        d.validatedArtifacts = c.validatedArtifacts.erase role := by
      unfold invalidate
      rw [Proc.run_get_bind, href]
      exact ⟨_, rfl, rfl, rfl⟩
    obtain ⟨d, hrun, hstate, hdict⟩ := hone
    have hrest : ∀ r ∈ roles, ∃ ref, d.validatedArtifacts.get? r = some ref := by
      intro r hr
      obtain ⟨ref', href'⟩ := hroles r (List.mem_cons_of_mem _ hr)
      have hne : r ≠ role := fun h => hnodup.1 (h ▸ hr)
      exact ⟨ref', by rw [hdict, Dict.get?_erase_ne hne, href']⟩
    obtain ⟨d', hrun', hstate', hgone, hkeep⟩ := ih hnodup.2 hrest
    have hfirst : ∀ r, (r = role ∨ c.validatedArtifacts.get? r = none) → d.validatedArtifacts.get? r = none := by
      rintro r (rfl | hr)
      · rw [hdict, Dict.get?_erase_self]
      · rw [hdict, Dict.get?_erase]
        split
        · rfl
        · exact hr
    refine ⟨d', ?_, hstate'.trans hstate, ?_, fun r hr => hkeep r (hfirst r (.inr hr))⟩
    · unfold invalidateAll
      rw [Proc.run_bind_ok hrun, hrun']
    · intro r hr
      rcases List.mem_cons.mp hr with rfl | hr
      · exact hkeep _ (hfirst _ (.inl rfl))
      · exact hgone r hr

theorem advise_state (c : OrchestrationCheckpoint) (event : BlockedExitEvent) : (c.advise event).state = c.state := by
  unfold OrchestrationCheckpoint.advise
  split <;> rfl

theorem advise_validatedArtifacts (c : OrchestrationCheckpoint) (event : BlockedExitEvent) :
    (c.advise event).validatedArtifacts = c.validatedArtifacts := by
  unfold OrchestrationCheckpoint.advise
  split <;> rfl

/-- A backjump whose checks passed takes out the artifacts, and then looks at the reuse map. -/
theorem backjump_run {c : OrchestrationCheckpoint} {event : BlockedExitEvent} {target : ProofState}
    {defects : List HostGateDefect} {invalidated : Dict String PyValue}
    (h : checkBackjump quote c event target = .ok (defects, invalidated)) :
    ∃ d, d.state = c.state ∧ (∀ role ∈ invalidated.keys, (∃ ref, c.validatedArtifacts.get? role = some ref) ∧
        d.validatedArtifacts.get? role = none) ∧
      match ((event.metadata.get? "reuse_map").getD .null).mapping? with
      | none => (backjump quote event target).run c = (.error .attributeError, d)
      | some _ => ∃ d', (backjump quote event target).run c = (.ok (), d') ∧ d'.state = c.state := by
  obtain ⟨-, hchecked⟩ := checkBackjump_ok h
  have hroles : ∀ role ∈ invalidated.keys, ∃ ref, c.validatedArtifacts.get? role = some ref := by
    intro role hrole
    obtain ⟨e, he, rfl⟩ := List.mem_map.mp hrole
    exact checkInvalidated_ok hchecked e he
  have hkeys : invalidated.keys.Nodup := invalidated.nodup
  obtain ⟨d, hrun, hstate, hgone⟩ := invalidateAll_run event defects hkeys hroles
  refine ⟨d.advise event, (advise_state d event).trans hstate, fun role hrole => ⟨hroles role hrole, ?_⟩, ?_⟩
  · rw [advise_validatedArtifacts]
    exact hgone role hrole
  have hprefix : ∀ {α : Type} (f : Unit → Update α),
      ((invalidateAll event defects invalidated.keys >>= fun _ =>
        Proc.modify (fun c => c.advise event) >>= f).run c) = (f ()).run (d.advise event) := by
    intro α f
    rw [Proc.run_bind_ok hrun, Proc.run_modify_bind]
  unfold backjump
  rw [Proc.run_get_bind, h]
  rcases hmap : ((event.metadata.get? "reuse_map").getD .null).mapping? with _ | reused
  · exact hprefix _
  · refine ⟨_, hprefix _, ?_⟩
    exact (advise_state d event).trans hstate

/-- A backjump whose checks passed has an artifact to invalidate. -/
theorem checkBackjump_ne_nil {c : OrchestrationCheckpoint} {event : BlockedExitEvent} {target : ProofState}
    {defects : List HostGateDefect} {invalidated : Dict String PyValue}
    (h : checkBackjump quote c event target = .ok (defects, invalidated))
    (htruthy : ((event.metadata.get? "invalidated_artifact_hashes").getD .null).truthy = true) :
    invalidated.keys ≠ [] := by
  obtain ⟨hmap, -⟩ := checkBackjump_ok h
  generalize (event.metadata.get? "invalidated_artifact_hashes").getD .null = v at hmap htruthy
  cases v with
  | dict entries =>
    obtain rfl := Option.some.inj hmap
    refine Dict.keys_ofEntries_ne_nil ?_
    rintro rfl
    cases htruthy
  | _ => cases hmap

/-- Leaving `BLOCKED` is atomic unless a backjump is interrupted at its reuse map. -/
theorem apply_unchanged_iff (c : OrchestrationCheckpoint) (event : BlockedExitEvent) (now : PyValue) :
    Unchanged (applyBlockedExitEvent quote event now) c ↔ ¬ Interrupted quote c event := by
  unfold Unchanged applyBlockedExitEvent Interrupted
  simp only [Proc.run_get_bind]
  rcases hcheck : checkEvent c event with e | ⟨eventType, target⟩
  · refine ⟨fun _ => ?_, fun _ e' c' he => (Prod.mk.inj he).2.symm⟩
    rintro ⟨_, _, h, -⟩
    cases h
  obtain ⟨hstate, hallowed, hmeta, -⟩ := checkEvent_ok hcheck
  -- from any state with the same proof state the rest of the operation returns
  have hrest : ∀ d : OrchestrationCheckpoint, d.state = c.state → ∀ e c',
      (do
        Proc.modify fun c : OrchestrationCheckpoint => { c with
          retryCounters := c.retryCounters.set target.value 0
          lastFailureFingerprint := ""
          identicalFailureCount := 0 }
        transition target (eventType.value ++ ":" ++ event.reason)
          { resumeOrigin := blocked.value, strategyReused := some (target ≠ strategyTournament),
            blockedExitEvent := some event } now : Update Unit).run d ≠ (.error e, c') := by
    intro d hd e c' he
    rw [Proc.run_modify_bind, transition_legal] at he
    · cases he
    · unfold Legal
      dsimp only
      rw [hd, hstate, ofValue?_value]
      exact ⟨hallowed, fun _ => .inr rfl⟩
  have hskip : ∀ {α : Type} (f : BlockedEventType × ProofState → Update α),
      ((Proc.ofExcept (.ok (eventType, target)) >>= f).run c) = (f (eventType, target)).run c := fun _ => rfl
  rw [hskip]
  dsimp only
  by_cases htype : eventType = .hostGateDefectsBackjump
  · subst htype
    rw [if_pos rfl]
    rcases hback : checkBackjump quote c event target with e | ⟨defects, invalidated⟩
    · have hraise : (backjump quote event target).run c = (.error e, c) := by
        unfold backjump
        rw [Proc.run_get_bind, hback]
        rfl
      refine ⟨fun _ => ?_, fun _ e' c' he => ?_⟩
      · rintro ⟨_, _, h, hb, -⟩
        obtain ⟨-, rfl⟩ := Prod.mk.inj (Except.ok.inj h)
        rw [hback] at hb
        cases hb
      · rw [Proc.run_bind_error hraise] at he
        exact (Prod.mk.inj he).2.symm
    obtain ⟨d, hd, hroles, hrun⟩ := backjump_run hback
    rcases hmap : ((event.metadata.get? "reuse_map").getD .null).mapping? with _ | reused
    · rw [hmap] at hrun
      refine ⟨fun h => ?_, fun h => absurd ⟨_, _, rfl, hback, rfl⟩ h⟩
      have hdc : d = c := h _ _ (Proc.run_bind_error hrun)
      have htruthy : ((event.metadata.get? "invalidated_artifact_hashes").getD .null).truthy = true := by
        rw [List.all_eq_true] at hmeta
        exact hmeta _ (by simp [BlockedEventType.requiredMetadata])
      obtain ⟨role, hrole⟩ := List.exists_mem_of_ne_nil _ (checkBackjump_ne_nil hback htruthy)
      obtain ⟨⟨ref, href⟩, hgone⟩ := hroles role hrole
      rw [hdc, href] at hgone
      cases hgone
    · rw [hmap] at hrun
      obtain ⟨d', hrun', hd'⟩ := hrun
      refine ⟨fun _ => ?_, fun _ e' c' he => ?_⟩
      · rintro ⟨_, _, -, -, h⟩
        cases h
      · rw [Proc.run_bind_ok hrun'] at he
        exact absurd he (hrest d' hd' e' c')
  · rw [if_neg htype]
    refine ⟨fun _ => ?_, fun _ e' c' he => absurd he (hrest c rfl e' c')⟩
    rintro ⟨_, _, h, -⟩
    exact htype (Prod.mk.inj (Except.ok.inj h)).1

/-! ### All four operations -/

inductive CheckpointCall
  | transition (next : ProofState) (reason : String) (args : TransitionArgs) (now : PyValue)
  | retry (role : ProofState) (reason : String) (limit : Int) (now : PyValue)
  | beginDecompositionIteration (viewpoint reason : String) (now : PyValue)
  | applyBlockedExitEvent (event : BlockedExitEvent) (now : PyValue)

namespace CheckpointCall

/-- Executes the call; the answer of `retry` is dropped. -/
def perform (quote : String → String) : CheckpointCall → Update Unit
  | transition next reason args now => Orchestration.transition next reason args now
  | retry role reason limit now => do
    let _ ← Orchestration.retry role reason limit now
    pure ()
  | beginDecompositionIteration viewpoint reason now => Orchestration.beginDecompositionIteration viewpoint reason now
  | applyBlockedExitEvent event now => Orchestration.applyBlockedExitEvent quote event now

/-- The call finds what it needs before it changes anything: `retry` may enter the state it moves to unless it returns or
raises at once, a new iteration may enter the decomposer unless its viewpoint is refused, and a backjump that passes its
checks has a mapping to reuse. -/
def Safe (quote : String → String) (c : OrchestrationCheckpoint) : CheckpointCall → Prop
  | transition .. => True
  | retry role reason limit _ =>
    ofValue? c.state = none ∨ c.state = blocked.value ∨
      Legal c (if Exhausted c role reason limit then blocked else role) false
  | beginDecompositionIteration viewpoint _ _ => LeanGate.strip viewpoint.toList = [] ∨ Legal c decomposer false
  | applyBlockedExitEvent event _ => ¬ Interrupted quote c event

end CheckpointCall

/-- A call that raises leaves every field of the checkpoint as it was exactly when it is safe. -/
theorem raises_unchanged_iff (quote : String → String) (c : OrchestrationCheckpoint) (call : CheckpointCall) :
    Unchanged (call.perform quote) c ↔ call.Safe quote c := by
  cases call with
  | transition next reason args now =>
    exact ⟨fun _ => trivial, fun _ e c' h => transition_unchanged h⟩
  | retry role reason limit now =>
    refine Iff.trans ?_ (retry_unchanged_iff c role reason limit now)
    constructor
    · intro h e c' he
      exact h e c' (Proc.run_bind_error he)
    · intro h e c' he
      exact h e c' (Proc.run_map_error he)
  | beginDecompositionIteration viewpoint reason now => exact begin_unchanged_iff c viewpoint reason now
  | applyBlockedExitEvent event now => exact apply_unchanged_iff c event now

end Backjump

/-! ### Half done updates -/

/-- A checkpoint in the premise audit, which neither the decomposer nor a retry of it may follow. -/
def auditing : OrchestrationCheckpoint := { state := "PREMISE_AUDIT", updatedAt := .null }

/-- A blocked checkpoint with one validated artifact. -/
def defective : OrchestrationCheckpoint where
  state := "BLOCKED"
  validatedArtifacts := Dict.ofEntries [("formalizer", ⟨"formalizer", "ab12", 1, [], "formalizer.json", "run", .null⟩)]
  updatedAt := .null

/-- A backjump whose reuse map is a text. -/
def careless : BlockedExitEvent where
  eventId := "evt-1"
  eventType := "HOST_GATE_DEFECTS_BACKJUMP"
  reason := "parent signature"
  targetState := "MATH_IR_TRANSLATION"
  resetRole := "MATH_IR_TRANSLATION"
  metadata := Dict.ofEntries
    [("defects", .list [.dict [("message", .str "parent signature failed: no theorem")]]),
      ("invalidated_artifact_hashes", .dict [("formalizer", .str "ab12")]), ("reuse_map", .str "none")]
  createdAt := .null

private theorem careless_interrupted : Interrupted id defective careless :=
  ⟨mathIrTranslation, ⟨_, _⟩, by decide +kernel, rfl, rfl⟩

/-- A retry and a new iteration that the table refuses have already counted, and an interrupted backjump has already
taken the artifact out. -/
theorem raises_half_done :
    ¬ Unchanged (retry decomposer "malformed JSON" 2 .null) auditing ∧
      ¬ Unchanged (beginDecompositionIteration "spectral" "next viewpoint" .null) auditing ∧
      ¬ Unchanged (applyBlockedExitEvent id careless .null) defective := by
  refine ⟨?_, ?_, ?_⟩
  · rw [retry_unchanged_iff]
    decide +kernel
  · rw [begin_unchanged_iff]
    decide +kernel
  · rw [apply_unchanged_iff]
    exact not_not_intro careless_interrupted

end Orchestration

end KakeyaEngine
