import KakeyaEngine.Lib.Machine
import KakeyaEngine.Orchestration.Atomicity

/-!
# Retries and the blocked state

A run performs transitions, retries, adapter stops, new decomposition iterations and the events that leave `BLOCKED`, in
any order.  The counter of a role is put back only by an exit event that targets the role, the last failure only by an
exit event and by the end of an adapter stop, and `BLOCKED` is left only by an exit event.
-/

namespace KakeyaEngine

namespace Orchestration

open ProofState
open LeanGate (squeeze)

/-! ### Adapter stops -/

def adapterBlocked (reason status : String) (now : PyValue) : Update Unit :=
  if status ∉ ["ADAPTER_BLOCKED", "INFRASTRUCTURE_BLOCKED", "INTEGRATION_BLOCKED"] then
    Proc.raise (.valueError "invalid adapter status")
  else
    Proc.modify fun c => { c with
      others := c.others.set "adapter_status" (.str status)
      blockedReason := reason
      lastTransitionReason := status ++ ":" ++ reason
      updatedAt := now }

def clearAdapterBlocked (reason : String) (now : PyValue) : Update Unit :=
  Proc.modify fun c => { c with
    others := c.others.set "adapter_status" (.str "")
    blockedReason := ""
    lastTransitionReason := reason
    lastFailureFingerprint := ""
    identicalFailureCount := 0
    updatedAt := now }

/-! ### Runs -/

inductive CheckpointEvent
  | transition (next : ProofState) (reason : String) (args : TransitionArgs) (now : PyValue)
  | retry (role : ProofState) (reason : String) (limit : Int) (now : PyValue)
  | adapterBlocked (reason status : String) (now : PyValue)
  | clearAdapterBlocked (reason : String) (now : PyValue)
  | beginDecompositionIteration (viewpoint reason : String) (now : PyValue)
  | exit (event : BlockedExitEvent) (now : PyValue)

namespace CheckpointEvent

/-- Performs the event; the answer is that of `retry`. -/
def perform (quote : String → String) : CheckpointEvent → Update (Option Bool)
  | transition next reason args now => Orchestration.transition next reason args now >>= fun _ => pure none
  | retry role reason limit now => Orchestration.retry role reason limit now >>= fun granted => pure (some granted)
  | adapterBlocked reason status now => Orchestration.adapterBlocked reason status now >>= fun _ => pure none
  | clearAdapterBlocked reason now => Orchestration.clearAdapterBlocked reason now >>= fun _ => pure none
  | beginDecompositionIteration viewpoint reason now =>
    Orchestration.beginDecompositionIteration viewpoint reason now >>= fun _ => pure none
  | exit event now => applyBlockedExitEvent quote event now >>= fun _ => pure none

/-- A retry of the role has this limit. -/
def Limited (role : ProofState) (limit : Int) : CheckpointEvent → Prop
  | retry r _ l _ => r = role → l = limit
  | _ => True

/-- A transition without an exit event, an adapter stop or a new iteration. -/
def Quiet : CheckpointEvent → Prop
  | transition _ _ args _ => args.blockedExitEvent = none
  | adapterBlocked .. => True
  | beginDecompositionIteration .. => True
  | _ => False

/-- The event carries a typed exit event, and it is for this state. -/
def LeavesTo (target : ProofState) : CheckpointEvent → Prop
  | transition next _ args _ => args.blockedExitEvent.isSome = true ∧ next = target
  | exit event _ => (BlockedEventType.ofValue? event.eventType).isSome = true ∧ event.targetState = target.value
  | _ => False

end CheckpointEvent

open CheckpointEvent (Limited Quiet LeavesTo)

/-- One step of a run; an event that raises keeps what it has assigned. -/
def checkpointStep (quote : String → String) (c : OrchestrationCheckpoint) (e : CheckpointEvent) :
    Except CheckpointError (Option Bool) × OrchestrationCheckpoint := (e.perform quote).run c

/-- An exit event that targets the role and is applied. -/
def Resets (quote : String → String) (role : ProofState) (c : OrchestrationCheckpoint) : CheckpointEvent → Prop
  | .exit event now => event.targetState = role.value ∧ (checkpointStep quote c (.exit event now)).1 = .ok none
  | _ => False

/-- A retry of the role that returned true. -/
def granted (role : ProofState) : CheckpointEvent × Except CheckpointError (Option Bool) → Bool
  | (.retry r _ _ _, .ok (some true)) => r = role
  | _ => false

/-- How many retries of the role a run granted. -/
def grants (quote : String → String) (role : ProofState) (c : OrchestrationCheckpoint) (events : List CheckpointEvent) :
    Nat := (events.zip (Machine.outputs (checkpointStep quote) c events)).countP (granted role)

/-- The table lets the state be followed by `BLOCKED`. -/
def MayBlock (c : OrchestrationCheckpoint) : Prop :=
  ∃ current, c.state = ProofState.value current ∧ blocked ∈ allowedTransitions current

theorem legal_blocked_iff {c : OrchestrationCheckpoint} : Legal c blocked false ↔ MayBlock c := by
  unfold Legal MayBlock
  constructor
  · intro h
    split at h
    · exact h.elim
    · rename_i current hs
      exact ⟨current, ofValue?_eq_some.mp hs, h.1⟩
  · rintro ⟨current, hs, hmem⟩
    rw [hs, ofValue?_value]
    exact ⟨hmem, fun _ => .inl rfl⟩

/-! ### What one operation changes -/

/-- The artifacts, the counters and the last failure are the same. -/
structure SameTallies (c d : OrchestrationCheckpoint) : Prop where
  artifacts : d.validatedArtifacts = c.validatedArtifacts
  counters : d.retryCounters = c.retryCounters
  fingerprint : d.lastFailureFingerprint = c.lastFailureFingerprint
  count : d.identicalFailureCount = c.identicalFailureCount

theorem SameTallies.refl (c : OrchestrationCheckpoint) : SameTallies c c := ⟨rfl, rfl, rfl, rfl⟩

theorem SameTallies.trans {c d e : OrchestrationCheckpoint} (h : SameTallies c d) (h' : SameTallies d e) :
    SameTallies c e :=
  ⟨h'.artifacts.trans h.artifacts, h'.counters.trans h.counters, h'.fingerprint.trans h.fingerprint,
    h'.count.trans h.count⟩

theorem transition_spec (c : OrchestrationCheckpoint) (next : ProofState) (reason : String) (args : TransitionArgs)
    (now : PyValue) :
    SameTallies c ((transition next reason args now).run c).2 ∧
      ((transition next reason args now).run c).2.state =
        if Legal c next args.blockedExitEvent.isSome then next.value else c.state := by
  by_cases hl : Legal c next args.blockedExitEvent.isSome
  · rw [transition_legal reason now hl, if_pos hl]
    dsimp only
    split
    · rename_i hstay
      exact ⟨SameTallies.refl c, by rw [hstay.1, hstay.2]⟩
    · exact ⟨⟨rfl, rfl, rfl, rfl⟩, rfl⟩
  · obtain ⟨e, he⟩ := transition_illegal reason now hl
    rw [he, if_neg hl]
    exact ⟨SameTallies.refl c, rfl⟩

theorem begin_spec (c : OrchestrationCheckpoint) (viewpoint reason : String) (now : PyValue) :
    SameTallies c ((beginDecompositionIteration viewpoint reason now).run c).2 ∧
      (((beginDecompositionIteration viewpoint reason now).run c).2.state = c.state ∨
        Legal c decomposer false ∧
          ((beginDecompositionIteration viewpoint reason now).run c).2.state = decomposer.value) := by
  unfold beginDecompositionIteration
  dsimp only
  split
  · exact ⟨SameTallies.refl c, .inl rfl⟩
  · rw [Proc.run_modify_bind]
    generalize hd : ({ c with
      decompositionIteration := _, viewpoint := _, viewpointsTried := _ } : OrchestrationCheckpoint) = d
    have hsame : SameTallies c d := by
      subst hd
      exact ⟨rfl, rfl, rfl, rfl⟩
    have hstate : d.state = c.state := by
      subst hd
      rfl
    obtain ⟨htallies, hnext⟩ := transition_spec d decomposer reason
      { resumeOrigin := decomposer.value, strategyReused := some true } now
    refine ⟨hsame.trans htallies, ?_⟩
    rw [hnext]
    split
    · rename_i hl
      exact .inr ⟨(legal_congr hstate _ _).mp hl, rfl⟩
    · exact .inl hstate

theorem adapterBlocked_spec (c : OrchestrationCheckpoint) (reason status : String) (now : PyValue) :
    SameTallies c ((adapterBlocked reason status now).run c).2 ∧
      ((adapterBlocked reason status now).run c).2.state = c.state := by
  unfold adapterBlocked
  split
  · exact ⟨SameTallies.refl c, rfl⟩
  · exact ⟨⟨rfl, rfl, rfl, rfl⟩, rfl⟩

/-- In an unknown state and in `BLOCKED`, `retry` does nothing. -/
theorem retry_idle {c : OrchestrationCheckpoint} (h : ofValue? c.state = none ∨ c.state = blocked.value)
    (role : ProofState) (reason : String) (limit : Int) (now : PyValue) :
    ((retry role reason limit now).run c).2 = c ∧ ((retry role reason limit now).run c).1 ≠ .ok true := by
  unfold retry
  rw [Proc.run_get_bind]
  rcases h with h | h
  · rw [h]
    exact ⟨rfl, nofun⟩
  · rw [h, ofValue?_value]
    exact ⟨rfl, nofun⟩

/-- A retry counts the role at most once more, keeps the artifacts, and changes the state only to the role or to
`BLOCKED`. -/
theorem retry_counters (c : OrchestrationCheckpoint) (role : ProofState) (reason : String) (limit : Int)
    (now : PyValue) :
    (((retry role reason limit now).run c).2.retryCounters = c.retryCounters ∨
        ((retry role reason limit now).run c).2.retryCounters =
          c.retryCounters.set role.value (retryCount c role)) ∧
      (((retry role reason limit now).run c).1 = .ok true →
        ((retry role reason limit now).run c).2.retryCounters =
            c.retryCounters.set role.value (retryCount c role) ∧ retryCount c role ≤ limit) := by
  by_cases hidle : ofValue? c.state = none ∨ c.state = blocked.value
  · obtain ⟨hsame, hanswer⟩ := retry_idle hidle role reason limit now
    rw [hsame]
    exact ⟨.inl rfl, fun h => absurd h hanswer⟩
  obtain ⟨hknown, hb⟩ := not_or.mp hidle
  obtain ⟨current, hs⟩ := Option.ne_none_iff_exists'.mp hknown
  have hcurrent : current ≠ blocked := fun h => hb (h ▸ ofValue?_eq_some.mp hs)
  obtain ⟨d, message, args, answer, hrun, -, hcounted, hanswer⟩ := retry_run hs hcurrent role reason limit now
  have hkept := (transition_spec d (if Exhausted c role reason limit then blocked else role) message args now).1.counters
  rw [hrun, Proc.run_map_snd, hkept, hcounted.counters]
  refine ⟨?_, fun hok => ?_⟩
  · split
    · exact .inl rfl
    · exact .inr rfl
  · rw [Proc.run_map] at hok
    obtain ⟨hleft, hlimit⟩ : ¬ (failureFingerprint c role reason = c.lastFailureFingerprint ∧
        1 ≤ c.identicalFailureCount) ∧ ¬ limit ≤ (c.retryCounters.get? role.value).getD 0 := by
      rw [← not_or]
      refine hanswer.mp ?_
      rcases hr : ((transition (if Exhausted c role reason limit then blocked else role) message args now).run d).1 with
        e | u
      · rw [hr] at hok
        cases hok
      · rw [hr] at hok
        exact Except.ok.inj hok
    have hfirst : ¬ d.identicalFailureCount ≥ 2 := by
      rw [hcounted.count, noteFailure_twice]
      exact hleft
    rw [if_neg hfirst]
    refine ⟨rfl, ?_⟩
    unfold retryCount
    omega

theorem failureFingerprint_congr {c d : OrchestrationCheckpoint} (role : ProofState) {reason reason' : String}
    (h : d.validatedArtifacts = c.validatedArtifacts) (hreason : squeeze reason.toList = squeeze reason'.toList) :
    failureFingerprint c role reason = failureFingerprint d role reason' := by
  unfold failureFingerprint
  rw [h, hreason]

/-- The failure count of a retry that counts is positive from then on. -/
theorem noteFailure_pos {c : OrchestrationCheckpoint} (fingerprint : String) (h : 0 ≤ c.identicalFailureCount) :
    1 ≤ (c.noteFailure fingerprint).identicalFailureCount := by
  unfold OrchestrationCheckpoint.noteFailure
  split
  · dsimp only
    omega
  · exact le_refl 1

/-- Outside `BLOCKED` a retry remembers its failure. -/
theorem retry_remembers {c : OrchestrationCheckpoint} {current : ProofState} (hs : ofValue? c.state = some current)
    (hb : current ≠ blocked) (role : ProofState) (reason : String) (limit : Int) (now : PyValue) :
    ((retry role reason limit now).run c).2.validatedArtifacts = c.validatedArtifacts ∧
      ((retry role reason limit now).run c).2.lastFailureFingerprint = failureFingerprint c role reason ∧
      ((retry role reason limit now).run c).2.identicalFailureCount =
        (c.noteFailure (failureFingerprint c role reason)).identicalFailureCount := by
  obtain ⟨d, message, args, answer, hrun, -, hcounted, -⟩ := retry_run hs hb role reason limit now
  have hkept := (transition_spec d (if Exhausted c role reason limit then blocked else role) message args now).1
  rw [hrun, Proc.run_map_snd]
  refine ⟨hkept.artifacts.trans hcounted.artifacts, ?_, hkept.count.trans hcounted.count⟩
  rw [hkept.fingerprint, hcounted.fingerprint, noteFailure_lastFailureFingerprint]

/-- A repeated failure ends in `BLOCKED` where the table allows it, and else leaves the state. -/
theorem retry_repeated {c : OrchestrationCheckpoint} {role : ProofState} {reason : String}
    (hlast : failureFingerprint c role reason = c.lastFailureFingerprint) (hcount : 1 ≤ c.identicalFailureCount)
    (limit : Int) (now : PyValue) :
    ((retry role reason limit now).run c).2.state = if Legal c blocked false then blocked.value else c.state := by
  by_cases hidle : ofValue? c.state = none ∨ c.state = blocked.value
  · rw [(retry_idle hidle role reason limit now).1]
    split
    · rename_i hl
      rcases hidle with h | h
      · unfold Legal at hl
        rw [h] at hl
        exact hl.elim
      · exact h
    · rfl
  obtain ⟨hknown, hb⟩ := not_or.mp hidle
  obtain ⟨current, hs⟩ := Option.ne_none_iff_exists'.mp hknown
  have hcurrent : current ≠ blocked := fun h => hb (h ▸ ofValue?_eq_some.mp hs)
  obtain ⟨d, message, args, answer, hrun, hargs, hcounted, -⟩ := retry_run hs hcurrent role reason limit now
  have hexhausted : Exhausted c role reason limit := .inl ⟨hlast, hcount⟩
  rw [hrun, Proc.run_map_snd, (transition_spec d _ message args now).2, if_pos hexhausted, hargs, hcounted.state]
  exact if_congr (legal_congr hcounted.state _ _) rfl rfl

/-! ### Exit events -/

section Exits

variable {quote : String → String}

/-- The counters, the state and the failure count. -/
def tally (c : OrchestrationCheckpoint) : Dict String Int × String × Int :=
  (c.retryCounters, c.state, c.identicalFailureCount)

theorem advise_tally (c : OrchestrationCheckpoint) (event : BlockedExitEvent) : tally (c.advise event) = tally c := by
  unfold OrchestrationCheckpoint.advise
  split <;> rfl

theorem invalidateAll_tally (event : BlockedExitEvent) (defects : List HostGateDefect) (t : Dict String Int × String × Int)
    (roles : List String) : Proc.Keeps (fun c => tally c = t) (invalidateAll event defects roles) := by
  induction roles with
  | nil => exact Proc.Keeps.pure ()
  | cons role roles ih =>
    refine Proc.Keeps.bind ?_ fun _ => ih
    refine Proc.Keeps.get_bind fun c hc => ?_
    split
    · exact hc
    · exact hc

/-- A backjump changes artifacts, not counters. -/
theorem backjump_tally (event : BlockedExitEvent) (target : ProofState) (t : Dict String Int × String × Int) :
    Proc.Keeps (fun c => tally c = t) (backjump quote event target) := by
  refine Proc.Keeps.get_bind fun c hc => ?_
  refine Proc.Keeps.bind (I := fun c => tally c = t) (Proc.Keeps.ofExcept _) (fun checked => ?_) c hc
  refine Proc.Keeps.bind (invalidateAll_tally event _ t _) fun _ => ?_
  refine Proc.Keeps.bind (Proc.Keeps.modify fun c hc => (advise_tally c event).trans hc) fun _ => ?_
  split
  · exact Proc.Keeps.raise _
  · exact Proc.Keeps.bind (Proc.Keeps.modify fun _ hc => hc) fun _ => Proc.Keeps.modify fun _ hc => hc

/-- Putting the counter of the target back and entering it. -/
theorem leave_ensures {k : Dict String Int} {target : ProofState} (args : TransitionArgs) (reason : String)
    (now : PyValue) (hallowed : target ∈ allowedTransitions blocked) (hevent : args.blockedExitEvent.isSome = true) :
    Proc.Ensures (fun d : OrchestrationCheckpoint => d.state = blocked.value ∧ d.retryCounters = k)
      (Proc.modify (fun c : OrchestrationCheckpoint => { c with
          retryCounters := c.retryCounters.set target.value 0
          lastFailureFingerprint := ""
          identicalFailureCount := 0 }) >>= fun _ => transition target reason args now)
      (fun _ d => tally d = (k.set target.value 0, target.value, 0)) fun _ _ => False := by
  refine Proc.Ensures.bind (Q := fun _ d => tally d = (k.set target.value 0, blocked.value, 0)) ?_ fun _ => ?_
  · refine Proc.Ensures.modify fun d hd => ?_
    unfold tally
    dsimp only
    rw [hd.1, hd.2]
  · intro d hd
    obtain ⟨hcounters, hrest⟩ := Prod.mk.inj hd
    obtain ⟨hstate, hcount⟩ := Prod.mk.inj hrest
    have hlegal : Legal d target args.blockedExitEvent.isSome := by
      unfold Legal
      rw [hstate, ofValue?_value]
      exact ⟨hallowed, fun _ => .inr hevent⟩
    rw [transition_legal reason now hlegal]
    change tally _ = _
    split
    · rename_i hstay
      rw [hd, hstay.2]
    · exact Prod.ext hcounters (Prod.ext rfl hcount)

variable (quote) in
/-- An exit event that raises leaves counters and state, and one that is applied puts the counter of its target back and
enters it. -/
theorem apply_spec (c : OrchestrationCheckpoint) (event : BlockedExitEvent) (now : PyValue) :
    Proc.Outcome
      (fun _ d => ∃ eventType target, checkEvent c event = .ok (eventType, target) ∧
        tally d = (c.retryCounters.set target.value 0, target.value, 0))
      (fun _ d => tally d = tally c) ((applyBlockedExitEvent quote event now).run c) := by
  unfold applyBlockedExitEvent
  rw [Proc.run_get_bind]
  rcases hcheck : checkEvent c event with e | ⟨eventType, target⟩
  · exact rfl
  obtain ⟨hstate, hallowed, -⟩ := checkEvent_ok hcheck
  have hleave := leave_ensures (k := c.retryCounters)
    ⟨"", blocked.value, some (target ≠ strategyTournament), some event⟩
    (eventType.value ++ ":" ++ event.reason) now hallowed rfl
  have hrest : Proc.Ensures (fun d => tally d = tally c) _
      (fun _ d => ∃ eventType' target', (Except.ok (eventType, target) : Except CheckpointError _) =
        .ok (eventType', target') ∧ tally d = (c.retryCounters.set target'.value 0, target'.value, 0))
      (fun _ d => tally d = tally c) :=
    hleave.mono (fun d hd => ⟨(congrArg (·.2.1) hd).trans hstate, congrArg Prod.fst hd⟩)
      (fun _ d hd => ⟨eventType, target, rfl, hd⟩) (fun _ _ h => h.elim)
  have hskip : ∀ {α : Type} (f : BlockedEventType × ProofState → Update α),
      ((Proc.ofExcept (.ok (eventType, target)) >>= f).run c) = (f (eventType, target)).run c := fun _ => rfl
  rw [hskip]
  dsimp only
  split
  · exact Proc.Ensures.bind (backjump_tally event target (tally c)).ensures (fun _ => hrest) c rfl
  · exact hrest c rfl

end Exits

/-! ### Steps -/

section Steps

variable (quote : String → String) (c : OrchestrationCheckpoint)

theorem step_transition (next : ProofState) (reason : String) (args : TransitionArgs) (now : PyValue) :
    checkpointStep quote c (.transition next reason args now) =
      (((transition next reason args now).run c).1.map fun _ => none, ((transition next reason args now).run c).2) :=
  Proc.run_map _ _ _

theorem step_retry (role : ProofState) (reason : String) (limit : Int) (now : PyValue) :
    checkpointStep quote c (.retry role reason limit now) =
      (((retry role reason limit now).run c).1.map some, ((retry role reason limit now).run c).2) := Proc.run_map _ _ _

theorem step_adapterBlocked (reason status : String) (now : PyValue) :
    checkpointStep quote c (.adapterBlocked reason status now) =
      (((adapterBlocked reason status now).run c).1.map fun _ => none, ((adapterBlocked reason status now).run c).2) :=
  Proc.run_map _ _ _

theorem step_begin (viewpoint reason : String) (now : PyValue) :
    checkpointStep quote c (.beginDecompositionIteration viewpoint reason now) =
      (((beginDecompositionIteration viewpoint reason now).run c).1.map fun _ => none,
        ((beginDecompositionIteration viewpoint reason now).run c).2) := Proc.run_map _ _ _

theorem step_exit (event : BlockedExitEvent) (now : PyValue) :
    checkpointStep quote c (.exit event now) =
      (((applyBlockedExitEvent quote event now).run c).1.map fun _ => none,
        ((applyBlockedExitEvent quote event now).run c).2) := Proc.run_map _ _ _

end Steps

/-! ### The bound on retries -/

section Runs

variable (quote : String → String)

/-- The retries of the role that were counted since its counter was put back. -/
def spent (role : ProofState) (c : OrchestrationCheckpoint) : Int := (c.retryCounters.get? role.value).getD 0

/-- A step that does not put the counter of the role back never lowers it, and a granted retry raises it within the
limit. -/
theorem spent_step {role : ProofState} {limit : Int} {c : OrchestrationCheckpoint} {e : CheckpointEvent}
    (hlimited : Limited role limit e) (hreset : ¬ Resets quote role c e) :
    spent role c ≤ spent role (checkpointStep quote c e).2 ∧
      (granted role (e, (checkpointStep quote c e).1) = true →
        spent role (checkpointStep quote c e).2 = spent role c + 1 ∧ spent role (checkpointStep quote c e).2 ≤ limit) := by
  -- events that leave the counters grant nothing
  have hkept : ∀ {d : OrchestrationCheckpoint}, d.retryCounters = c.retryCounters → spent role c ≤ spent role d := by
    intro d hd
    unfold spent
    rw [hd]
  cases e with
  | transition next reason args now =>
    rw [step_transition]
    exact ⟨hkept (transition_spec c next reason args now).1.counters, nofun⟩
  | adapterBlocked reason status now =>
    rw [step_adapterBlocked]
    exact ⟨hkept (adapterBlocked_spec c reason status now).1.counters, nofun⟩
  | clearAdapterBlocked reason now => exact ⟨hkept rfl, nofun⟩
  | beginDecompositionIteration viewpoint reason now =>
    rw [step_begin]
    exact ⟨hkept (begin_spec c viewpoint reason now).1.counters, nofun⟩
  | retry r reason l now =>
    obtain ⟨hcounters, hgranted⟩ := retry_counters c r reason l now
    rw [step_retry]
    generalize (retry r reason l now).run c = result at hcounters hgranted
    obtain ⟨answer, d⟩ := result
    have hset : d.retryCounters = c.retryCounters.set r.value (retryCount c r) →
        spent role d = if role = r then spent role c + 1 else spent role c := by
      intro h
      unfold spent
      rw [h, Dict.get?_set]
      by_cases hr : role = r
      · subst hr
        rw [if_pos rfl, if_pos rfl]
        rfl
      · rw [if_neg hr, if_neg fun h => hr (value_injective h)]
    refine ⟨?_, fun h => ?_⟩
    · rcases hcounters with h | h
      · exact hkept h
      · rw [hset h]
        split
        · omega
        · exact le_refl _
    · rcases answer with e | _ | _
      · cases h
      · cases h
      · obtain rfl : r = role := of_decide_eq_true h
        obtain ⟨hd, hle⟩ := hgranted rfl
        rw [hset hd, if_pos rfl, ← hlimited rfl]
        exact ⟨rfl, hle⟩
  | exit event now =>
    refine ⟨?_, nofun⟩
    have hspec := apply_spec quote c event now
    dsimp only [Resets] at hreset
    rw [step_exit] at hreset ⊢
    rcases hrun : (applyBlockedExitEvent quote event now).run c with ⟨e | u, d⟩
    · rw [hrun] at hspec
      exact hkept (congrArg Prod.fst hspec)
    · rw [hrun] at hspec hreset
      obtain ⟨eventType, target, hcheck, htally⟩ := hspec
      have hne : role.value ≠ target.value := by
        intro h
        refine hreset ⟨?_, rfl⟩
        rw [h]
        exact (checkEvent_ok hcheck).2.2.2.2
      unfold spent
      rw [show d.retryCounters = _ from congrArg Prod.fst htally, Dict.get?_set_ne 0 hne]

/-- In a run that never puts the counter of the role back, the granted retries and those spent before stay within the
limit, unless more were spent before. -/
theorem grants_le {role : ProofState} {limit : Int} {c : OrchestrationCheckpoint} {events : List CheckpointEvent}
    (hlimited : ∀ e ∈ events, Limited role limit e)
    (hreset : Machine.AllSteps (checkpointStep quote) (fun c e => ¬ Resets quote role c e) c events) :
    grants quote role c events + spent role c ≤ max limit (spent role c) := by
  induction events generalizing c with
  | nil =>
    have hnone : grants quote role c [] = 0 := rfl
    rw [hnone]
    omega
  | cons e events ih =>
    have hrest := ih (fun e' he' => hlimited e' (List.mem_cons_of_mem _ he')) hreset.2
    obtain ⟨hle, hgranted⟩ := spent_step quote (hlimited e List.mem_cons_self) hreset.1
    have hcons : grants quote role c (e :: events) =
        grants quote role (checkpointStep quote c e).2 events +
          if granted role (e, (checkpointStep quote c e).1) then 1 else 0 := List.countP_cons
    rw [hcons]
    split
    · rename_i h
      obtain ⟨hone, hlimit⟩ := hgranted h
      omega
    · omega

theorem exit_spent {role : ProofState} {c : OrchestrationCheckpoint} {event : BlockedExitEvent} {now : PyValue}
    (h : Resets quote role c (.exit event now)) : spent role (checkpointStep quote c (.exit event now)).2 = 0 := by
  obtain ⟨htarget, hok⟩ := h
  rw [step_exit] at hok ⊢
  have hspec := apply_spec quote c event now
  rcases hrun : (applyBlockedExitEvent quote event now).run c with ⟨e | u, d⟩
  · rw [hrun] at hok
    cases hok
  · rw [hrun] at hspec
    obtain ⟨eventType, target, hcheck, htally⟩ := hspec
    have hrole : role = target := value_injective (htarget.symm.trans (checkEvent_ok hcheck).2.2.2.2)
    unfold spent
    rw [show d.retryCounters = _ from congrArg Prod.fst htally, hrole, Dict.get?_set_self]
    rfl

/-! ### Repeated failures -/

/-- A quiet event keeps the tallies, a `BLOCKED` state and an unknown one. -/
theorem quiet_step {c : OrchestrationCheckpoint} {e : CheckpointEvent} (he : Quiet e) :
    SameTallies c (checkpointStep quote c e).2 ∧
      ((ofValue? c.state = none ∨ c.state = blocked.value) → (checkpointStep quote c e).2.state = c.state) := by
  -- the state of a transition that is not legal, or from `BLOCKED` to `BLOCKED`
  have hstay : ∀ {next : ProofState}, (ofValue? c.state = none ∨ c.state = blocked.value) → Legal c next false →
      next.value = c.state := by
    intro next hidle hl
    unfold Legal at hl
    rcases hidle with h | h
    · rw [h] at hl
      exact hl.elim
    · rw [h, ofValue?_value] at hl
      rcases hl.2 rfl with rfl | hfalse
      · exact h.symm
      · cases hfalse
  cases e with
  | transition next reason args now =>
    obtain ⟨htallies, hstate⟩ := transition_spec c next reason args now
    rw [step_transition, hstate, show args.blockedExitEvent = none from he]
    refine ⟨htallies, fun hidle => ?_⟩
    split
    · rename_i hl
      exact hstay hidle hl
    · rfl
  | adapterBlocked reason status now =>
    rw [step_adapterBlocked]
    exact ⟨(adapterBlocked_spec c reason status now).1, fun _ => (adapterBlocked_spec c reason status now).2⟩
  | beginDecompositionIteration viewpoint reason now =>
    obtain ⟨htallies, hstate⟩ := begin_spec c viewpoint reason now
    rw [step_begin]
    refine ⟨htallies, fun hidle => ?_⟩
    rcases hstate with h | ⟨hl, h⟩
    · exact h
    · rw [h]
      exact hstay hidle hl
  | retry => exact he.elim
  | clearAdapterBlocked => exact he.elim
  | exit => exact he.elim

theorem quiet_run {c : OrchestrationCheckpoint} {events : List CheckpointEvent} (h : ∀ e ∈ events, Quiet e) :
    SameTallies c (Machine.final (checkpointStep quote) c events) ∧
      ((ofValue? c.state = none ∨ c.state = blocked.value) →
        (Machine.final (checkpointStep quote) c events).state = c.state) := by
  refine Machine.final_of_steps (C := fun _ e => Quiet e)
    (I := fun d => SameTallies c d ∧ ((ofValue? c.state = none ∨ c.state = blocked.value) → d.state = c.state))
    (fun d e hd he => ?_) ⟨SameTallies.refl c, fun _ => rfl⟩ (Machine.allSteps_of_forall h)
  obtain ⟨htallies, hstate⟩ := quiet_step quote (c := d) he
  refine ⟨hd.1.trans htallies, fun hidle => ?_⟩
  have hdc := hd.2 hidle
  rw [← hdc] at hidle
  exact (hstate hidle).trans hdc

/-- The second of two retries that fail the same way ends in `BLOCKED` exactly where the table allows it. -/
theorem second_retry {c : OrchestrationCheckpoint} {role : ProofState} {reason reason' : String} (limit limit' : Int)
    (now now' : PyValue) {between : List CheckpointEvent} (hcount : 0 ≤ c.identicalFailureCount)
    (hquiet : ∀ e ∈ between, Quiet e) (hreason : squeeze reason.toList = squeeze reason'.toList) :
    let d := Machine.final (checkpointStep quote) c (.retry role reason limit now :: between)
    (checkpointStep quote d (.retry role reason' limit' now')).2.state =
      if Legal d blocked false then blocked.value else d.state := by
  intro d
  have hd : d = Machine.final (checkpointStep quote) ((retry role reason limit now).run c).2 between :=
    congrArg (fun x => Machine.final (checkpointStep quote) x.2 between) (step_retry quote c role reason limit now)
  obtain ⟨htallies, hstate⟩ := quiet_run quote (c := ((retry role reason limit now).run c).2) hquiet
  rw [← hd] at htallies hstate
  rw [step_retry]
  dsimp only
  by_cases hidle : ofValue? c.state = none ∨ c.state = blocked.value
  · -- the first retry does nothing, and neither does the second
    rw [(retry_idle hidle role reason limit now).1] at hstate
    have hdc := hstate hidle
    rw [← hdc] at hidle
    rw [(retry_idle hidle role reason' limit' now').1]
    split
    · rename_i hl
      rcases hidle with h | h
      · unfold Legal at hl
        rw [h] at hl
        exact hl.elim
      · exact h
    · rfl
  · obtain ⟨hknown, hb⟩ := not_or.mp hidle
    obtain ⟨current, hs⟩ := Option.ne_none_iff_exists'.mp hknown
    have hcurrent : current ≠ blocked := fun h => hb (h ▸ ofValue?_eq_some.mp hs)
    obtain ⟨hartifacts, hlast, hfailures⟩ := retry_remembers hs hcurrent role reason limit now
    refine retry_repeated ?_ ?_ limit' now'
    · rw [htallies.fingerprint, hlast]
      exact (failureFingerprint_congr role (htallies.artifacts.trans hartifacts) hreason).symm
    · rw [htallies.count, hfailures]
      exact noteFailure_pos _ hcount

/-! ### The blocked state -/

/-- From `BLOCKED` a step stays in `BLOCKED`, or it carries an exit event for a state that the table allows. -/
theorem blocked_step {c : OrchestrationCheckpoint} (hb : c.state = blocked.value) (e : CheckpointEvent) :
    (checkpointStep quote c e).2.state = blocked.value ∨
      ∃ target ∈ allowedTransitions blocked, (checkpointStep quote c e).2.state = target.value ∧ LeavesTo target e := by
  have hlegal : ∀ {next : ProofState} {typed : Bool}, Legal c next typed →
      next ∈ allowedTransitions blocked ∧ (next = blocked ∨ typed = true) := by
    intro next typed h
    unfold Legal at h
    rw [hb, ofValue?_value] at h
    exact ⟨h.1, h.2 rfl⟩
  by_cases hquiet : Quiet e
  · exact .inl (((quiet_step quote hquiet).2 (.inr hb)).trans hb)
  cases e with
  | transition next reason args now =>
    rw [step_transition, (transition_spec c next reason args now).2]
    split
    · rename_i hl
      obtain ⟨hmem, hnext | htyped⟩ := hlegal hl
      · exact .inl (by rw [hnext])
      · exact .inr ⟨next, hmem, rfl, htyped, rfl⟩
    · exact .inl hb
  | retry role reason limit now =>
    rw [step_retry, (retry_idle (.inr hb) role reason limit now).1]
    exact .inl hb
  | adapterBlocked => exact absurd trivial hquiet
  | clearAdapterBlocked => exact .inl hb
  | beginDecompositionIteration => exact absurd trivial hquiet
  | exit event now =>
    have hspec := apply_spec quote c event now
    rw [step_exit]
    rcases hrun : (applyBlockedExitEvent quote event now).run c with ⟨e | u, d⟩
    · rw [hrun] at hspec
      exact .inl ((congrArg (·.2.1) hspec).trans hb)
    · rw [hrun] at hspec
      obtain ⟨eventType, target, hcheck, htally⟩ := hspec
      obtain ⟨-, hallowed, -, htype, htarget⟩ := checkEvent_ok hcheck
      exact .inr ⟨target, hallowed, congrArg (·.2.1) htally, by rw [htype]; rfl, htarget⟩

/-- No step makes the failure count negative. -/
theorem failureCount_step {c : OrchestrationCheckpoint} (h : 0 ≤ c.identicalFailureCount) (e : CheckpointEvent) :
    0 ≤ (checkpointStep quote c e).2.identicalFailureCount := by
  by_cases hquiet : Quiet e
  · rw [(quiet_step quote hquiet).1.count]
    exact h
  cases e with
  | transition next reason args now =>
    rw [step_transition, (transition_spec c next reason args now).1.count]
    exact h
  | retry role reason limit now =>
    rw [step_retry]
    by_cases hidle : ofValue? c.state = none ∨ c.state = blocked.value
    · rw [(retry_idle hidle role reason limit now).1]
      exact h
    · obtain ⟨hknown, hb⟩ := not_or.mp hidle
      obtain ⟨current, hs⟩ := Option.ne_none_iff_exists'.mp hknown
      have hcurrent : current ≠ blocked := fun h => hb (h ▸ ofValue?_eq_some.mp hs)
      rw [(retry_remembers hs hcurrent role reason limit now).2.2]
      exact le_trans (by decide) (noteFailure_pos _ h)
  | adapterBlocked => exact absurd trivial hquiet
  | clearAdapterBlocked => exact le_refl 0
  | beginDecompositionIteration => exact absurd trivial hquiet
  | exit event now =>
    have hspec := apply_spec quote c event now
    rw [step_exit]
    rcases hrun : (applyBlockedExitEvent quote event now).run c with ⟨e | u, d⟩
    · rw [hrun] at hspec
      rw [show d.identicalFailureCount = _ from congrArg (·.2.2) hspec]
      exact h
    · rw [hrun] at hspec
      obtain ⟨eventType, target, -, htally⟩ := hspec
      rw [show d.identicalFailureCount = 0 from congrArg (·.2.2) htally]

end Runs

/-! ### Whole runs -/

/-- An operator releases a blocked checkpoint into the decomposer. -/
def released : BlockedExitEvent where
  eventId := "evt-1"
  eventType := "OPERATOR_UNBLOCK"
  reason := "operator"
  targetState := "DECOMPOSER"
  resetRole := "DECOMPOSER"
  createdAt := .null

/-- A checkpoint whose state has no way to `BLOCKED`. -/
def committed : OrchestrationCheckpoint := { state := "COMMIT", updatedAt := .null }

/-- A checkpoint with a negative count of its last failure. -/
def miscounted : OrchestrationCheckpoint :=
  { state := "DECOMPOSER", updatedAt := .null, identicalFailureCount := -2
    lastFailureFingerprint := failureFingerprint committed decomposer "late" }

end Orchestration

end KakeyaEngine
