import Mathlib.Algebra.BigOperators.Group.List.Basic
import KakeyaEngine.Scheduler.Conservation
import Mathlib.Algebra.GroupWithZero.Nat

/-!
# The counters of the scheduler

Every request is counted when it is submitted, and should be counted once more when it is admitted or rejected; every worker
should be counted as completed, cancelled or failed, and push one end-of-stream sentinel.  Some exits are not counted
(`Counts`), and the books balance once no worker or waiter is left exactly when no step took one of them
(`accounted_iff_counts`).

The task of a worker may be cancelled too, before its first step or while it waits.
-/

namespace KakeyaEngine

/-- `_SchedulerStats`. -/
structure SchedulerStats where
  totalSubmitted : Nat := 0
  totalAdmitted : Nat := 0
  totalRejected : Nat := 0
  totalCompleted : Nat := 0
  totalCancelled : Nat := 0
  totalFailed : Nat := 0
deriving DecidableEq

/-- A scheduler with its counters, and the sentinels that were pushed to the queue of each session. -/
structure AccountedScheduler where
  scheduler : Scheduler
  stats : SchedulerStats := {}
  sentinels : String → Nat := fun _ => 0

/-- An event; a cancellation of the task of a worker tells whether the worker has begun. -/
inductive AccountedEvent
  | event (e : SchedulerEvent)
  | cancelWorker (id : String) (begun : Bool)
deriving DecidableEq

namespace Scheduler

/-! ### What is counted -/

/-- The counts of `submit` and `_admit` up to the first suspension. -/
def submitStats (s : Scheduler) (id : String) (n : SchedulerStats) : SchedulerStats :=
  match s.phase id with
  | .absent =>
    let n := { n with totalSubmitted := n.totalSubmitted + 1 }
    match s.pool.acquire with
    | .ok _ => { n with totalAdmitted := n.totalAdmitted + 1 }
    | .error _ =>
      match s.policy with
      | .reject => { n with totalRejected := n.totalRejected + 1 }
      | .queue => n
  | _ => n

/-- The counts of a waiting `submit` that goes on: only the timeout is handled. -/
def resumeStats (s : Scheduler) (id : String) (n : SchedulerStats) : SchedulerStats :=
  match s.phase id with
  | .handed _ => { n with totalAdmitted := n.totalAdmitted + 1 }
  | .expired => { n with totalRejected := n.totalRejected + 1 }
  | _ => n

/-- The counts of a worker whose engine has returned. -/
def countReturn (st : SessionState) (n : SchedulerStats) : SchedulerStats :=
  match st with
  | .cancelled => { n with totalCancelled := n.totalCancelled + 1 }
  | .admitted => { n with totalCompleted := n.totalCompleted + 1 }
  | _ => n

/-- `mark_failed` and the count behind it; it raises if the session is terminal. -/
def countFailure (st : SessionState) (n : SchedulerStats) : SchedulerStats :=
  if st.isTerminal then n else { n with totalFailed := n.totalFailed + 1 }

/-- The counts of an end of the generation. -/
def finishStats (s : Scheduler) (id : String) (returned : Bool) (n : SchedulerStats) : SchedulerStats :=
  match s.phase id with
  | .generating _ => if returned then countReturn (s.state id) n else countFailure (s.state id) n
  | _ => n

/-- The counts of an event. -/
def nextStats (s : Scheduler) (n : SchedulerStats) : SchedulerEvent → SchedulerStats
  | .submit id => submitStats s id n
  | .resume id => resumeStats s id n
  | .finish id returned => finishStats s id returned n
  | _ => n

/-- The worker finds its session cancelled when it gets the engine lock. -/
def returnsEarly (s : Scheduler) (id : String) : Bool :=
  match s.phase id with
  | .starting _ => !s.engineLock && decide (s.state id = .cancelled)
  | _ => false

def isGenerating (s : Scheduler) (id : String) : Bool :=
  match s.phase id with
  | .generating _ => true
  | _ => false

/-- The worker that gets to its `finally` block in an event. -/
def ends (s : Scheduler) : SchedulerEvent → Option String
  | .start id => if s.returnsEarly id then some id else none
  | .finish id _ => if s.isGenerating id then some id else none
  | _ => none

end Scheduler

namespace AccountedScheduler

open Scheduler

/-- Pushes `_SESSION_DONE`. -/
def push (sentinels : String → Nat) : Option String → String → Nat
  | none => sentinels
  | some id => fun id' => if id' = id then sentinels id + 1 else sentinels id'

/-- The task of a worker is cancelled.  One that has not begun never runs; one that has gets the cancellation as an
exception. -/
def cancelWorker (id : String) (begun : Bool) (c : AccountedScheduler) : AccountedScheduler :=
  let s := c.scheduler
  match s.phase id with
  | .starting slab =>
    if begun then
      { scheduler := (s.setState id (outcome false (s.state id))).endSession id slab
        stats := countFailure (s.state id) c.stats
        sentinels := push c.sentinels (some id) }
    else { c with scheduler := s.setPhase id .ended }
  | .generating _ =>
    { scheduler := s.finish id false
      stats := countFailure (s.state id) c.stats
      sentinels := push c.sentinels (some id) }
  | _ => c

/-- What an event makes of the scheduler and its counters. -/
def next (c : AccountedScheduler) : AccountedEvent → AccountedScheduler
  | .event e =>
    { scheduler := c.scheduler.next e
      stats := c.scheduler.nextStats c.stats e
      sentinels := push c.sentinels (c.scheduler.ends e) }
  | .cancelWorker id begun => c.cancelWorker id begun

/-- A step of a run. -/
def step (c : AccountedScheduler) (e : AccountedEvent) : Unit × AccountedScheduler := ((), c.next e)

/-! ### Exits that are counted -/

/-- The step does not take an exit that is not counted: a request that goes on after the shutdown refused it, one whose task
is cancelled while it waits, a worker that finds its session cancelled before it generates, one that fails or is cancelled
after its session was, and one that is cancelled before it has begun. -/
def Counts (c : AccountedScheduler) : AccountedEvent → Prop
  | .event (.resume id) => c.scheduler.phase id ≠ .refused
  | .event (.cancelSubmit id) => (c.scheduler.cancelSubmit id).phase id = c.scheduler.phase id
  | .event (.start id) => c.scheduler.returnsEarly id = false
  | .event (.finish id returned) =>
    c.scheduler.isGenerating id = true → returned = false → c.scheduler.state id ≠ .cancelled
  | .cancelWorker id begun =>
    (∀ slab, c.scheduler.phase id = .starting slab → begun = true ∧ c.scheduler.state id ≠ .cancelled) ∧
      (c.scheduler.isGenerating id = true → c.scheduler.state id ≠ .cancelled)
  | _ => True

/-- A call of `submit` that has not ended. -/
def waits : Phase → Nat
  | .waiting | .handed _ | .expired | .refused => 1
  | _ => 0

/-- A worker that has not ended. -/
def works : Phase → Nat
  | .starting _ | .generating _ => 1
  | _ => 0

/-- No worker or waiter is left. -/
def Quiet (c : AccountedScheduler) : Prop := ∀ id, waits (c.scheduler.phase id) = 0 ∧ works (c.scheduler.phase id) = 0

/-- The books balance. -/
structure Accounted (c : AccountedScheduler) : Prop where
  requests : c.stats.totalSubmitted = c.stats.totalAdmitted + c.stats.totalRejected
  workers : c.stats.totalAdmitted = c.stats.totalCompleted + c.stats.totalCancelled + c.stats.totalFailed
  sentinels : ∀ id, c.scheduler.phase id = .ended → c.sentinels id = 1

/-! ### Sums over the requests -/

theorem sum_map_congr {f g : String → Nat} {ids : List String} (h : ∀ id ∈ ids, f id = g id) :
    (ids.map f).sum = (ids.map g).sum := by
  rw [List.map_congr_left h]

/-- Changing the weight of one element. -/
theorem sum_map_change {f g : String → Nat} {ids : List String} (hnodup : ids.Nodup) {id : String} (hmem : id ∈ ids)
    (hothers : ∀ id', id' ≠ id → g id' = f id') : (ids.map g).sum + f id = (ids.map f).sum + g id := by
  induction ids with
  | nil => cases hmem
  | cons a ids ih =>
    rw [List.nodup_cons] at hnodup
    rw [List.map_cons, List.map_cons, List.sum_cons, List.sum_cons]
    by_cases ha : a = id
    · subst ha
      have hrest : (ids.map g).sum = (ids.map f).sum :=
        sum_map_congr fun id' hid' => hothers id' fun h => hnodup.1 (h ▸ hid')
      omega
    · have htail : id ∈ ids := (List.mem_cons.1 hmem).resolve_left fun h => ha h.symm
      have hrest := ih hnodup.2 htail
      have hhead := hothers a ha
      omega

/-! ### What a step does -/

/-- What an event does: it changes one request, and `missed` and `dropped` say how many exits of a request and of a worker it
leaves uncounted. -/
structure Moved (c c' : AccountedScheduler) (id : String) (missed dropped : Nat) : Prop where
  waits_others : ∀ id', id' ≠ id → waits (c'.scheduler.phase id') = waits (c.scheduler.phase id')
  works_others : ∀ id', id' ≠ id → works (c'.scheduler.phase id') = works (c.scheduler.phase id')
  ended_others : ∀ id', id' ≠ id → (c'.scheduler.phase id' = .ended ↔ c.scheduler.phase id' = .ended)
  sentinels_others : ∀ id', id' ≠ id → c'.sentinels id' = c.sentinels id'
  states : ∀ id', works (c'.scheduler.phase id') = 1 → c'.scheduler.state id' = c.scheduler.state id' ∧ works (c.scheduler.phase id') = 1 ∨
    c'.scheduler.state id' = .admitted ∨ c'.scheduler.state id' = .cancelled
  requests : c'.stats.totalSubmitted + c.stats.totalAdmitted + c.stats.totalRejected + waits (c.scheduler.phase id) =
    c.stats.totalSubmitted + c'.stats.totalAdmitted + c'.stats.totalRejected + waits (c'.scheduler.phase id) + missed
  workers : c'.stats.totalAdmitted + c.stats.totalCompleted + c.stats.totalCancelled + c.stats.totalFailed +
      works (c.scheduler.phase id) =
    c.stats.totalAdmitted + c'.stats.totalCompleted + c'.stats.totalCancelled + c'.stats.totalFailed +
      works (c'.scheduler.phase id) + dropped
  silent : c'.scheduler.phase id ≠ .ended → c'.sentinels id = c.sentinels id ∧ c.scheduler.phase id ≠ .ended
  pushed : c'.scheduler.phase id = .ended → c.scheduler.phase id = .ended ∧ c'.sentinels id = c.sentinels id ∨
    c.scheduler.phase id ≠ .ended ∧ (c'.sentinels id = c.sentinels id + 1 ∨ 0 < dropped)

/-- The books of a run so far, with the exits that were not counted. -/
structure Tally (c : AccountedScheduler) (ids : List String) (missed dropped : Nat) : Prop where
  nodup : ids.Nodup
  absent : ∀ id, id ∉ ids → waits (c.scheduler.phase id) = 0 ∧ works (c.scheduler.phase id) = 0
  states : ∀ id, works (c.scheduler.phase id) = 1 → c.scheduler.state id = .admitted ∨ c.scheduler.state id = .cancelled
  requests : c.stats.totalSubmitted = c.stats.totalAdmitted + c.stats.totalRejected +
    (ids.map fun id => waits (c.scheduler.phase id)).sum + missed
  workers : c.stats.totalAdmitted = c.stats.totalCompleted + c.stats.totalCancelled + c.stats.totalFailed +
    (ids.map fun id => works (c.scheduler.phase id)).sum + dropped
  silent : ∀ id, c.scheduler.phase id ≠ .ended → c.sentinels id = 0
  pushed : ∀ id, c.scheduler.phase id = .ended → c.sentinels id = 1 ∨ 0 < dropped

theorem Tally.moved {c c' : AccountedScheduler} {ids : List String} {missed dropped : Nat} (h : Tally c ids missed dropped)
    {id : String} {missed' dropped' : Nat} (hm : Moved c c' id missed' dropped') :
    ∃ ids', Tally c' ids' (missed + missed') (dropped + dropped') := by
  -- the request takes part from now on
  obtain ⟨ids', hnodup, hmem, hsub, hwaits, hworks⟩ : ∃ ids' : List String, ids'.Nodup ∧ id ∈ ids' ∧ (∀ x ∈ ids, x ∈ ids') ∧
      (ids'.map fun id => waits (c.scheduler.phase id)).sum = (ids.map fun id => waits (c.scheduler.phase id)).sum ∧
      (ids'.map fun id => works (c.scheduler.phase id)).sum = (ids.map fun id => works (c.scheduler.phase id)).sum := by
    by_cases hin : id ∈ ids
    · exact ⟨ids, h.nodup, hin, fun _ hx => hx, rfl, rfl⟩
    · obtain ⟨hwaits, hworks⟩ := h.absent id hin
      refine ⟨id :: ids, List.nodup_cons.2 ⟨hin, h.nodup⟩, List.mem_cons_self, fun x hx => List.mem_cons_of_mem id hx, ?_, ?_⟩
      · rw [List.map_cons, List.sum_cons, hwaits, Nat.zero_add]
      · rw [List.map_cons, List.sum_cons, hworks, Nat.zero_add]
  have hwaits' := sum_map_change hnodup hmem (f := fun id => waits (c.scheduler.phase id))
    (g := fun id => waits (c'.scheduler.phase id)) hm.waits_others
  have hworks' := sum_map_change hnodup hmem (f := fun id => works (c.scheduler.phase id))
    (g := fun id => works (c'.scheduler.phase id)) hm.works_others
  have hrequests := h.requests
  have hworkers := h.workers
  have hrequests' := hm.requests
  have hworkers' := hm.workers
  refine ⟨ids', hnodup, fun x hx => ?_, fun x hx => ?_, by omega, by omega, fun x hx => ?_, fun x hx => ?_⟩
  · have hne : x ≠ id := fun heq => hx (heq ▸ hmem)
    rw [hm.waits_others x hne, hm.works_others x hne]
    exact h.absent x fun hin => hx (hsub x hin)
  · rcases hm.states x hx with ⟨hsame, hbefore⟩ | hstate
    · rw [hsame]
      exact h.states x hbefore
    · exact hstate
  · by_cases hne : x = id
    · subst hne
      obtain ⟨hsame, hbefore⟩ := hm.silent hx
      rw [hsame]
      exact h.silent x hbefore
    · rw [hm.sentinels_others x hne]
      exact h.silent x fun hended => hx ((hm.ended_others x hne).2 hended)
  · by_cases hne : x = id
    · subst hne
      rcases hm.pushed hx with ⟨hbefore, hsame⟩ | ⟨hbefore, hpush⟩
      · rw [hsame]
        rcases h.pushed x hbefore with hone | hpos
        · exact .inl hone
        · exact .inr (by omega)
      · rcases hpush with hone | hpos
        · exact .inl (by rw [hone, h.silent x hbefore])
        · exact .inr (by omega)
    · rw [hm.sentinels_others x hne]
      rcases h.pushed x ((hm.ended_others x hne).1 hx) with hone | hpos
      · exact .inl hone
      · exact .inr (by omega)

/-! ### The events -/

theorem waits_release (slab : Nat) (s : Scheduler) (id : String) :
    waits ((s.releaseSlabAndWakeWaiter slab).phase id) = waits (s.phase id) ∧
      works ((s.releaseSlabAndWakeWaiter slab).phase id) = works (s.phase id) ∧
      ((s.releaseSlabAndWakeWaiter slab).phase id = .ended ↔ s.phase id = .ended) ∧
      (s.releaseSlabAndWakeWaiter slab).state = s.state := by
  have hback : ∀ t : Scheduler, (t.giveBack slab).phase = t.phase ∧ (t.giveBack slab).state = t.state := by
    intro t
    unfold giveBack
    split
    · exact ⟨rfl, rfl⟩
    · exact ⟨rfl, rfl⟩
  unfold releaseSlabAndWakeWaiter
  split
  · rw [(hback s).1, (hback s).2]
    exact ⟨rfl, rfl, Iff.rfl, rfl⟩
  · rename_i first rest hqueue
    split
    · rename_i hwaiting
      dsimp only [setPhase]
      by_cases hid : id = first
      · rw [if_pos hid, hid, hwaiting]
        exact ⟨rfl, rfl, by simp, rfl⟩
      · rw [if_neg hid]
        exact ⟨rfl, rfl, Iff.rfl, rfl⟩
    · rw [(hback _).1, (hback _).2]
      exact ⟨rfl, rfl, Iff.rfl, rfl⟩

/-- A worker that ends: the slab may wake a request, which goes on waiting. -/
theorem moved_endSession {c : AccountedScheduler} {id : String} (hworks : works (c.scheduler.phase id) = 1)
    (hwaits : waits (c.scheduler.phase id) = 0) {s : Scheduler} (hphase : s.phase = c.scheduler.phase)
    (hstate : ∀ id', id' ≠ id → s.state id' = c.scheduler.state id') (slab : Nat) {n : SchedulerStats} {dropped : Nat}
    (hsubmitted : n.totalSubmitted = c.stats.totalSubmitted) (hadmitted : n.totalAdmitted = c.stats.totalAdmitted)
    (hrejected : n.totalRejected = c.stats.totalRejected)
    (hcounted : c.stats.totalCompleted + c.stats.totalCancelled + c.stats.totalFailed + 1 =
      n.totalCompleted + n.totalCancelled + n.totalFailed + dropped) :
    Moved c ⟨s.endSession id slab, n, push c.sentinels (some id)⟩ id 0 dropped := by
  have hother : ∀ id', id' ≠ id → (s.setPhase id .ended).phase id' = c.scheduler.phase id' := by
    intro id' hne
    dsimp only [setPhase]
    rw [if_neg hne, hphase]
  have hself : (s.setPhase id .ended).phase id = .ended := if_pos rfl
  have hended : c.scheduler.phase id ≠ .ended := by
    intro h
    rw [h] at hworks
    cases hworks
  obtain ⟨hwaits', hworks', hended', hstate'⟩ := waits_release slab (s.setPhase id .ended) id
  rw [hself] at hwaits' hworks' hended'
  unfold endSession
  refine ⟨fun id' hne => ?_, fun id' hne => ?_, fun id' hne => ?_, fun id' hne => if_neg hne, fun id' hw => ?_, ?_, ?_, fun h => ?_,
    fun _ => .inr ⟨hended, .inl (if_pos rfl)⟩⟩
  · rw [(waits_release slab (s.setPhase id .ended) id').1, hother id' hne]
  · rw [(waits_release slab (s.setPhase id .ended) id').2.1, hother id' hne]
  · rw [(waits_release slab (s.setPhase id .ended) id').2.2.1, hother id' hne]
  · left
    dsimp only at hw ⊢
    rw [(waits_release slab (s.setPhase id .ended) id').2.1] at hw
    by_cases hne : id' = id
    · rw [hne, hself] at hw
      cases hw
    · rw [hother id' hne] at hw
      rw [hstate']
      exact ⟨hstate id' hne, hw⟩
  · dsimp only
    rw [hwaits', hwaits, hsubmitted, hadmitted, hrejected]
    rfl
  · dsimp only
    rw [hworks', hworks, hadmitted]
    have hzero : works .ended = 0 := rfl
    omega
  · exact absurd (hended'.2 rfl) h

/-- An event that moves on one request, and pushes nothing. -/
theorem moved_phase {c : AccountedScheduler} {id : String} {p : Phase} {s : Scheduler} {n : SchedulerStats}
    {missed dropped : Nat} (hphase : s.phase = (c.scheduler.setPhase id p).phase)
    (hstate : ∀ id', id' ≠ id → s.state id' = c.scheduler.state id')
    (hself : works p = 1 → s.state id = .admitted ∨ s.state id = .cancelled)
    (hrequests : n.totalSubmitted + c.stats.totalAdmitted + c.stats.totalRejected + waits (c.scheduler.phase id) =
      c.stats.totalSubmitted + n.totalAdmitted + n.totalRejected + waits p + missed)
    (hworkers : n.totalAdmitted + c.stats.totalCompleted + c.stats.totalCancelled + c.stats.totalFailed +
        works (c.scheduler.phase id) =
      c.stats.totalAdmitted + n.totalCompleted + n.totalCancelled + n.totalFailed + works p + dropped)
    (hended : p = .ended → 0 < dropped) (hbefore : c.scheduler.phase id ≠ .ended) :
    Moved c ⟨s, n, c.sentinels⟩ id missed dropped := by
  have hother : ∀ id', id' ≠ id → s.phase id' = c.scheduler.phase id' := by
    intro id' hne
    rw [hphase]
    exact if_neg hne
  have hat : s.phase id = p := by
    rw [hphase]
    exact if_pos rfl
  refine ⟨fun id' hne => ?_, fun id' hne => ?_, fun id' hne => ?_, fun _ _ => rfl, fun id' hw => ?_, ?_, ?_,
    fun _ => ⟨rfl, hbefore⟩, fun h => .inr ⟨hbefore, .inr (hended (hat.symm.trans h))⟩⟩
  · rw [hother id' hne]
  · rw [hother id' hne]
  · rw [hother id' hne]
  · dsimp only at hw ⊢
    by_cases hne : id' = id
    · subst hne
      rw [hat] at hw
      exact .inr (hself hw)
    · rw [hother id' hne] at hw
      exact .inl ⟨hstate id' hne, hw⟩
  · dsimp only
    rw [hat]
    exact hrequests
  · dsimp only
    rw [hat]
    exact hworkers

/-- An event that leaves the requests where they are, and at most cancels sessions. -/
theorem moved_states {c : AccountedScheduler} {s : Scheduler}
    (hwaits : ∀ id, waits (s.phase id) = waits (c.scheduler.phase id))
    (hworks : ∀ id, works (s.phase id) = works (c.scheduler.phase id))
    (hended : ∀ id, s.phase id = .ended ↔ c.scheduler.phase id = .ended)
    (hstate : ∀ id, s.state id = c.scheduler.state id ∨ s.state id = .cancelled) (id : String) :
    Moved c ⟨s, c.stats, c.sentinels⟩ id 0 0 := by
  refine ⟨fun id' _ => hwaits id', fun id' _ => hworks id', fun id' _ => hended id', fun _ _ => rfl, fun id' hw => ?_, ?_, ?_,
    fun h => ⟨rfl, fun h' => h ((hended id).2 h')⟩, fun h => .inl ⟨(hended id).1 h, rfl⟩⟩
  · rcases hstate id' with hsame | hcancelled
    · exact .inl ⟨hsame, (hworks id').symm.trans hw⟩
    · exact .inr (.inr hcancelled)
  · dsimp only
    rw [hwaits]
    omega
  · dsimp only
    rw [hworks]
    omega

theorem moved_refl (c : AccountedScheduler) (id : String) : Moved c c id 0 0 :=
  moved_states (s := c.scheduler) (fun _ => rfl) (fun _ => rfl) (fun _ => Iff.rfl) (fun _ => .inl rfl) id

/-- What an event does, with what it leaves uncounted. -/
def Steps (c : AccountedScheduler) (e : AccountedEvent) : Prop :=
  ∃ id missed dropped, Moved c (c.next e) id missed dropped ∧ (Counts c e ↔ missed = 0 ∧ dropped = 0)

theorem steps_submit (c : AccountedScheduler) (id : String) : Steps c (.event (.submit id)) := by
  refine ⟨id, 0, 0, ?_, by simp [Counts]⟩
  show Moved c ⟨c.scheduler.submit id, submitStats c.scheduler id c.stats, c.sentinels⟩ id 0 0
  unfold Scheduler.submit submitStats
  rcases hphase : c.scheduler.phase id with _ | _ | slab | _ | _ | _ | slab | slab | _
  case absent =>
    have hwaits : waits (c.scheduler.phase id) = 0 := by rw [hphase]; rfl
    have hworks : works (c.scheduler.phase id) = 0 := by rw [hphase]; rfl
    have hbefore : c.scheduler.phase id ≠ .ended := by simp [hphase]
    rcases c.scheduler.pool.acquire with e | ⟨slab, pool⟩
    · dsimp only
      cases c.scheduler.policy with
      | reject =>
        refine moved_phase (p := .raised) rfl (fun _ _ => rfl) (by simp [works]) ?_ ?_ (by simp) hbefore
        · rw [hwaits]
          dsimp only [waits]
          omega
        · rw [hworks]
          rfl
      | queue =>
        refine moved_phase (p := .waiting) rfl (fun _ _ => rfl) (by simp [works]) ?_ ?_ (by simp) hbefore
        · rw [hwaits]
          dsimp only [waits]
          omega
        · rw [hworks]
          rfl
    · refine moved_phase (p := .starting slab) rfl (fun id' hne => if_neg hne) (fun _ => .inl (if_pos rfl)) ?_ ?_ (by simp) hbefore
      · rw [hwaits]
        dsimp only [waits]
        omega
      · rw [hworks]
        dsimp only [works]
        omega
  all_goals exact moved_refl c id

theorem steps_resume (c : AccountedScheduler) (id : String) : Steps c (.event (.resume id)) := by
  unfold Steps
  show ∃ id' missed dropped, Moved c ⟨c.scheduler.resume id, resumeStats c.scheduler id c.stats, c.sentinels⟩ id' missed dropped ∧
    (c.scheduler.phase id ≠ .refused ↔ _)
  unfold Scheduler.resume resumeStats
  rcases hphase : c.scheduler.phase id with _ | _ | slab | _ | _ | _ | slab | slab | _
  case handed =>
    refine ⟨id, 0, 0, moved_phase (p := .starting slab) rfl (fun id' hne => if_neg hne) (fun _ => .inl (if_pos rfl)) ?_ ?_ (by simp)
      (by simp [hphase]), by simp⟩
    · rw [hphase]
      dsimp only [waits]
      omega
    · rw [hphase]
      dsimp only [works]
      omega
  case expired =>
    refine ⟨id, 0, 0, moved_phase (p := .raised) rfl (fun _ _ => rfl) (by simp [works]) ?_ ?_ (by simp) (by simp [hphase]), by simp⟩
    · rw [hphase]
      dsimp only [waits]
      omega
    · rw [hphase]
      rfl
  case refused =>
    refine ⟨id, 1, 0, moved_phase (p := .raised) rfl (fun _ _ => rfl) (by simp [works]) ?_ ?_ (by simp) (by simp [hphase]), by simp⟩
    · rw [hphase]
      dsimp only [waits]
    · rw [hphase]
      rfl
  all_goals exact ⟨id, 0, 0, moved_refl c id, by simp⟩

theorem steps_timeout (c : AccountedScheduler) (id : String) : Steps c (.event (.timeout id)) := by
  refine ⟨id, 0, 0, ?_, by simp [Counts]⟩
  show Moved c ⟨c.scheduler.timeout id, c.stats, c.sentinels⟩ id 0 0
  have hexpires : waits (c.scheduler.phase id) = 1 → works (c.scheduler.phase id) = 0 →
      Moved c ⟨c.scheduler.setPhase id .expired, c.stats, c.sentinels⟩ id 0 0 := by
    intro hwaits hworks
    refine moved_phase (p := .expired) rfl (fun _ _ => rfl) (by simp [works]) ?_ ?_ (by simp) fun h => ?_
    · rw [hwaits]
      dsimp only [waits]
    · rw [hworks]
      rfl
    · rw [h] at hwaits
      cases hwaits
  unfold Scheduler.timeout
  by_cases hwait : c.scheduler.queueMaxWait = 0
  · rw [if_pos hwait]
    exact moved_refl c id
  · rw [if_neg hwait]
    rcases hphase : c.scheduler.phase id with _ | _ | slab | _ | _ | _ | slab | slab | _
    case waiting => exact hexpires (by rw [hphase]; rfl) (by rw [hphase]; rfl)
    case handed => exact hexpires (by rw [hphase]; rfl) (by rw [hphase]; rfl)
    case refused => exact hexpires (by rw [hphase]; rfl) (by rw [hphase]; rfl)
    all_goals exact moved_refl c id

theorem steps_cancelSubmit (c : AccountedScheduler) (id : String) : Steps c (.event (.cancelSubmit id)) := by
  unfold Steps
  show ∃ id' missed dropped, Moved c ⟨c.scheduler.cancelSubmit id, c.stats, c.sentinels⟩ id' missed dropped ∧
    ((c.scheduler.cancelSubmit id).phase id = c.scheduler.phase id ↔ _)
  have hraises : waits (c.scheduler.phase id) = 1 → works (c.scheduler.phase id) = 0 →
      Moved c ⟨c.scheduler.setPhase id .raised, c.stats, c.sentinels⟩ id 1 0 := by
    intro hwaits hworks
    refine moved_phase (p := .raised) rfl (fun _ _ => rfl) (by simp [works]) ?_ ?_ (by simp) fun h => ?_
    · rw [hwaits]
      dsimp only [waits]
    · rw [hworks]
      rfl
    · rw [h] at hwaits
      cases hwaits
  unfold Scheduler.cancelSubmit
  rcases hphase : c.scheduler.phase id with _ | _ | slab | _ | _ | _ | slab | slab | _
  case waiting => exact ⟨id, 1, 0, hraises (by rw [hphase]; rfl) (by rw [hphase]; rfl), by simp⟩
  case handed => exact ⟨id, 1, 0, hraises (by rw [hphase]; rfl) (by rw [hphase]; rfl), by simp⟩
  case expired => exact ⟨id, 1, 0, hraises (by rw [hphase]; rfl) (by rw [hphase]; rfl), by simp⟩
  case refused => exact ⟨id, 1, 0, hraises (by rw [hphase]; rfl) (by rw [hphase]; rfl), by simp⟩
  all_goals exact ⟨id, 0, 0, moved_refl c id, by simp [hphase]⟩

/-- A worker's session is admitted or cancelled. -/
def Live (c : AccountedScheduler) : Prop :=
  ∀ id, works (c.scheduler.phase id) = 1 → c.scheduler.state id = .admitted ∨ c.scheduler.state id = .cancelled

theorem steps_start {c : AccountedScheduler} (hlive : c.Live) (id : String) : Steps c (.event (.start id)) := by
  unfold Steps
  show ∃ id' missed dropped, Moved c ⟨c.scheduler.start id, c.stats,
      push c.sentinels (if c.scheduler.returnsEarly id then some id else none)⟩ id' missed dropped ∧
    (c.scheduler.returnsEarly id = false ↔ _)
  rcases hphase : c.scheduler.phase id with _ | _ | slab | _ | _ | _ | slab | slab | _
  case starting =>
    have hworks : works (c.scheduler.phase id) = 1 := by rw [hphase]; rfl
    have hwaits : waits (c.scheduler.phase id) = 0 := by rw [hphase]; rfl
    have hearly : c.scheduler.returnsEarly id = (!c.scheduler.engineLock && decide (c.scheduler.state id = .cancelled)) := by
      unfold returnsEarly
      rw [hphase]
    unfold Scheduler.start
    rw [hphase, hearly]
    dsimp only
    by_cases hlock : c.scheduler.engineLock = true
    · rw [if_pos hlock, hlock]
      exact ⟨id, 0, 0, moved_refl c id, by simp⟩
    · rw [if_neg hlock, Bool.eq_false_of_not_eq_true hlock]
      by_cases hcancelled : c.scheduler.state id = .cancelled
      · rw [if_pos hcancelled, decide_eq_true hcancelled]
        exact ⟨id, 0, 1, moved_endSession hworks hwaits rfl (fun _ _ => rfl) slab rfl rfl rfl rfl, by simp⟩
      · rw [if_neg hcancelled, decide_eq_false hcancelled]
        refine ⟨id, 0, 0, moved_phase (p := .generating slab) rfl (fun _ _ => rfl) (fun _ => hlive id hworks) ?_ ?_ (by simp)
          (by simp [hphase]), by simp⟩
        · rw [hwaits]
          rfl
        · rw [hworks]
          rfl
  all_goals
    have hearly : c.scheduler.returnsEarly id = false := by
      unfold returnsEarly
      rw [hphase]
    unfold Scheduler.start
    rw [hphase, hearly]
    exact ⟨id, 0, 0, moved_refl c id, by simp⟩

/-- A worker that ends because its engine has raised, or its task was cancelled. -/
theorem moved_failure {c : AccountedScheduler} {id : String} (hstate : c.scheduler.state id = .admitted ∨
    c.scheduler.state id = .cancelled) (hworks : works (c.scheduler.phase id) = 1)
    (hwaits : waits (c.scheduler.phase id) = 0) {s : Scheduler} (hphase : s.phase = c.scheduler.phase)
    (hsame : ∀ id', id' ≠ id → s.state id' = c.scheduler.state id') (slab : Nat) :
    ∃ dropped, Moved c ⟨s.endSession id slab, countFailure (c.scheduler.state id) c.stats, push c.sentinels (some id)⟩ id 0 dropped ∧
      (c.scheduler.state id ≠ .cancelled ↔ dropped = 0) := by
  rcases hstate with hadmitted | hcancelled
  · rw [hadmitted]
    exact ⟨0, moved_endSession hworks hwaits hphase hsame slab rfl rfl rfl rfl, by simp⟩
  · rw [hcancelled]
    exact ⟨1, moved_endSession hworks hwaits hphase hsame slab rfl rfl rfl rfl, by simp⟩

theorem steps_finish {c : AccountedScheduler} (hlive : c.Live) (id : String) (returned : Bool) :
    Steps c (.event (.finish id returned)) := by
  unfold Steps
  show ∃ id' missed dropped, Moved c ⟨c.scheduler.finish id returned, c.scheduler.finishStats id returned c.stats,
      push c.sentinels (if c.scheduler.isGenerating id then some id else none)⟩ id' missed dropped ∧
    ((c.scheduler.isGenerating id = true → returned = false → c.scheduler.state id ≠ .cancelled) ↔ _)
  rcases hphase : c.scheduler.phase id with _ | _ | slab | _ | _ | _ | slab | slab | _
  case generating =>
    have hworks : works (c.scheduler.phase id) = 1 := by rw [hphase]; rfl
    have hwaits : waits (c.scheduler.phase id) = 0 := by rw [hphase]; rfl
    have hgenerating : c.scheduler.isGenerating id = true := by
      unfold isGenerating
      rw [hphase]
    have hsame : ∀ id', id' ≠ id →
        (setState id (outcome returned (c.scheduler.state id)) { c.scheduler with engineLock := false }).state id' =
          c.scheduler.state id' := fun id' hne => if_neg hne
    unfold Scheduler.finish finishStats
    rw [hphase, hgenerating]
    dsimp only
    rw [if_pos rfl]
    cases returned with
    | true =>
      refine ⟨id, 0, 0, ?_, by simp⟩
      rw [if_pos rfl]
      have hends : ∀ n : SchedulerStats, n.totalSubmitted = c.stats.totalSubmitted → n.totalAdmitted = c.stats.totalAdmitted →
          n.totalRejected = c.stats.totalRejected →
          c.stats.totalCompleted + c.stats.totalCancelled + c.stats.totalFailed + 1 =
            n.totalCompleted + n.totalCancelled + n.totalFailed + 0 →
          Moved c ⟨(setState id (outcome true (c.scheduler.state id)) { c.scheduler with engineLock := false }).endSession id slab,
            n, push c.sentinels (some id)⟩ id 0 0 := fun n hsubmitted hadmitted hrejected hcounted =>
        moved_endSession hworks hwaits
          (s := setState id (outcome true (c.scheduler.state id)) { c.scheduler with engineLock := false }) rfl hsame slab
          hsubmitted hadmitted hrejected hcounted
      rcases hlive id hworks with hadmitted | hcancelled
      · refine hends _ ?_ ?_ ?_ ?_
        all_goals
          rw [hadmitted]
          dsimp only [countReturn]
        omega
      · refine hends _ ?_ ?_ ?_ ?_
        all_goals
          rw [hcancelled]
          dsimp only [countReturn]
        omega
    | false =>
      obtain ⟨dropped, hmoved, hcounts⟩ := moved_failure (hlive id hworks) hworks hwaits
        (s := setState id (outcome false (c.scheduler.state id)) { c.scheduler with engineLock := false }) rfl hsame slab
      exact ⟨id, 0, dropped, hmoved, by simpa using hcounts⟩
  all_goals
    have hidle : c.scheduler.isGenerating id = false := by
      unfold isGenerating
      rw [hphase]
    unfold Scheduler.finish finishStats
    rw [hphase, hidle]
    exact ⟨id, 0, 0, moved_refl c id, by simp⟩

theorem steps_cancelSession (c : AccountedScheduler) (id : String) : Steps c (.event (.cancelSession id)) := by
  refine ⟨id, 0, 0, ?_, by simp [Counts]⟩
  show Moved c ⟨c.scheduler.cancelSession id, c.stats, c.sentinels⟩ id 0 0
  have hcancels : Moved c ⟨if (c.scheduler.state id).isTerminal then c.scheduler else c.scheduler.setState id .cancelled,
      c.stats, c.sentinels⟩ id 0 0 := by
    by_cases hterminal : (c.scheduler.state id).isTerminal = true
    · rw [if_pos hterminal]
      exact moved_refl c id
    · rw [if_neg hterminal]
      refine moved_states (c := c) (s := c.scheduler.setState id .cancelled) (fun _ => rfl) (fun _ => rfl) (fun _ => Iff.rfl)
        (fun id' => ?_) id
      by_cases hne : id' = id
      · exact .inr (if_pos hne)
      · exact .inl (if_neg hne)
  unfold Scheduler.cancelSession
  rcases c.scheduler.phase id with _ | _ | slab | _ | _ | _ | slab | slab | _
  case starting => exact hcancels
  case generating => exact hcancels
  all_goals exact moved_refl c id

theorem steps_shutdown (c : AccountedScheduler) : Steps c (.event .shutdown) := by
  refine ⟨"", 0, 0, ?_, by simp [Counts]⟩
  show Moved c ⟨c.scheduler.shutdown, c.stats, c.sentinels⟩ "" 0 0
  have hphase : ∀ id, c.scheduler.shutdown.phase id = c.scheduler.phase id ∨
      c.scheduler.shutdown.phase id = .refused ∧ c.scheduler.phase id = .waiting := by
    intro id
    unfold Scheduler.shutdown
    dsimp only
    by_cases hparked : id ∈ c.scheduler.waitQueue ∧ c.scheduler.phase id = .waiting
    · rw [if_pos hparked]
      exact .inr ⟨rfl, hparked.2⟩
    · rw [if_neg hparked]
      exact .inl rfl
  refine moved_states (fun id => ?_) (fun id => ?_) (fun id => ?_) (fun id => ?_) ""
  · rcases hphase id with hsame | ⟨hrefused, hwaiting⟩
    · rw [hsame]
    · rw [hrefused, hwaiting]
      rfl
  · rcases hphase id with hsame | ⟨hrefused, hwaiting⟩
    · rw [hsame]
    · rw [hrefused, hwaiting]
      rfl
  · rcases hphase id with hsame | ⟨hrefused, hwaiting⟩
    · rw [hsame]
    · rw [hrefused, hwaiting]
      simp
  · unfold Scheduler.shutdown
    dsimp only
    have hcancels : (if (c.scheduler.state id).isTerminal then c.scheduler.state id else .cancelled) = c.scheduler.state id ∨
        (if (c.scheduler.state id).isTerminal then c.scheduler.state id else .cancelled) = .cancelled := by
      by_cases hterminal : (c.scheduler.state id).isTerminal = true
      · exact .inl (if_pos hterminal)
      · exact .inr (if_neg hterminal)
    rcases c.scheduler.phase id with _ | _ | slab | _ | _ | _ | slab | slab | _
    case starting => exact hcancels
    case generating => exact hcancels
    all_goals exact .inl rfl

theorem steps_cancelWorker {c : AccountedScheduler} (hlive : c.Live) (id : String) (begun : Bool) :
    Steps c (.cancelWorker id begun) := by
  unfold Steps
  show ∃ id' missed dropped, Moved c (c.cancelWorker id begun) id' missed dropped ∧
    ((∀ slab, c.scheduler.phase id = .starting slab → begun = true ∧ c.scheduler.state id ≠ .cancelled) ∧
      (c.scheduler.isGenerating id = true → c.scheduler.state id ≠ .cancelled) ↔ _)
  unfold AccountedScheduler.cancelWorker
  rcases hphase : c.scheduler.phase id with _ | _ | slab | _ | _ | _ | slab | slab | _
  case starting =>
    have hworks : works (c.scheduler.phase id) = 1 := by rw [hphase]; rfl
    have hwaits : waits (c.scheduler.phase id) = 0 := by rw [hphase]; rfl
    have hidle : c.scheduler.isGenerating id = false := by
      unfold isGenerating
      rw [hphase]
    dsimp only
    rw [hphase]
    dsimp only
    cases begun with
    | true =>
      rw [if_pos rfl]
      obtain ⟨dropped, hmoved, hcounts⟩ := moved_failure (hlive id hworks) hworks hwaits
        (s := c.scheduler.setState id (outcome false (c.scheduler.state id))) rfl (fun id' hne => if_neg hne) slab
      exact ⟨id, 0, dropped, hmoved, by simpa [hidle] using hcounts⟩
    | false =>
      rw [if_neg (by simp)]
      refine ⟨id, 0, 1, moved_phase (p := .ended) rfl (fun _ _ => rfl) (by simp [works]) ?_ ?_ (by simp) (by simp [hphase]), by simp⟩
      · rw [hwaits]
        rfl
      · rw [hworks]
        dsimp only [works]
  case generating =>
    have hworks : works (c.scheduler.phase id) = 1 := by rw [hphase]; rfl
    have hwaits : waits (c.scheduler.phase id) = 0 := by rw [hphase]; rfl
    have hgenerating : c.scheduler.isGenerating id = true := by
      unfold isGenerating
      rw [hphase]
    dsimp only
    rw [hphase]
    dsimp only
    obtain ⟨dropped, hmoved, hcounts⟩ := moved_failure (hlive id hworks) hworks hwaits
      (s := setState id (outcome false (c.scheduler.state id)) { c.scheduler with engineLock := false }) rfl
      (fun id' hne => if_neg hne) slab
    have hfinish : c.scheduler.finish id false =
        endSession id slab (setState id (outcome false (c.scheduler.state id)) { c.scheduler with engineLock := false }) := by
      unfold Scheduler.finish
      rw [hphase]
    rw [hfinish]
    exact ⟨id, 0, dropped, hmoved, by simpa [hgenerating] using hcounts⟩
  all_goals
    have hidle : c.scheduler.isGenerating id = false := by
      unfold isGenerating
      rw [hphase]
    dsimp only
    rw [hphase]
    exact ⟨id, 0, 0, moved_refl c id, by simp [hidle]⟩

theorem steps {c : AccountedScheduler} (hlive : c.Live) (e : AccountedEvent) : Steps c e := by
  cases e with
  | event e =>
    cases e with
    | submit id => exact steps_submit c id
    | resume id => exact steps_resume c id
    | timeout id => exact steps_timeout c id
    | cancelSubmit id => exact steps_cancelSubmit c id
    | start id => exact steps_start hlive id
    | finish id returned => exact steps_finish hlive id returned
    | cancelSession id => exact steps_cancelSession c id
    | shutdown => exact steps_shutdown c
  | cancelWorker id begun => exact steps_cancelWorker hlive id begun

/-! ### Runs -/

theorem Tally.run {c : AccountedScheduler} {ids : List String} {missed dropped : Nat} (h : Tally c ids missed dropped)
    (es : List AccountedEvent) :
    ∃ ids' missed' dropped', Tally (Machine.final step c es) ids' (missed + missed') (dropped + dropped') ∧
      (Machine.AllSteps step Counts c es ↔ missed' = 0 ∧ dropped' = 0) := by
  induction es generalizing c ids missed dropped with
  | nil => exact ⟨ids, 0, 0, h, by simp [Machine.AllSteps]⟩
  | cons e es ih =>
    obtain ⟨id, m, d, hmoved, hcounts⟩ := steps h.states e
    obtain ⟨ids', htally⟩ := h.moved hmoved
    obtain ⟨ids'', m', d', htally', hall⟩ := ih htally
    refine ⟨ids'', m + m', d + d', ?_, ?_⟩
    · rw [← Nat.add_assoc, ← Nat.add_assoc]
      exact htally'
    · have hsplit : Machine.AllSteps step Counts c (e :: es) ↔ Counts c e ∧ Machine.AllSteps step Counts (c.next e) es := Iff.rfl
      rw [hsplit, hcounts, hall]
      omega

/-- Once no worker or waiter is left, the books balance exactly when no step has taken an exit that is not counted. -/
theorem accounted_iff_counts {pool : SlabPool} {maxConcurrent wait : Nat} {policy : AdmissionPolicy} {s₀ : Scheduler}
    (hs₀ : Scheduler.create pool maxConcurrent policy wait = .ok s₀) (es : List AccountedEvent)
    (hquiet : Quiet (Machine.final step { scheduler := s₀ } es)) :
    Accounted (Machine.final step { scheduler := s₀ } es) ↔ Machine.AllSteps step Counts { scheduler := s₀ } es := by
  have hphase : s₀.phase = fun _ => .absent := by
    unfold Scheduler.create at hs₀
    split at hs₀
    · cases hs₀
    · rw [← Except.ok.inj hs₀]
  have hstart : Tally { scheduler := s₀ } [] 0 0 := by
    refine ⟨List.nodup_nil, ?_, ?_, rfl, rfl, fun _ _ => rfl, ?_⟩
    all_goals
      dsimp only
      rw [hphase]
    · exact fun _ _ => ⟨rfl, rfl⟩
    · exact fun _ h => by cases h
    · exact fun _ h => by cases h
  obtain ⟨ids, missed, dropped, htally, hall⟩ := hstart.run es
  generalize Machine.final step { scheduler := s₀ } es = c at hquiet htally ⊢
  have hwaits : (ids.map fun id => waits (c.scheduler.phase id)).sum = 0 := by
    rw [List.sum_eq_zero]
    intro n hn
    obtain ⟨id, -, rfl⟩ := List.mem_map.1 hn
    exact (hquiet id).1
  have hworks : (ids.map fun id => works (c.scheduler.phase id)).sum = 0 := by
    rw [List.sum_eq_zero]
    intro n hn
    obtain ⟨id, -, rfl⟩ := List.mem_map.1 hn
    exact (hquiet id).2
  have hrequests := htally.requests
  have hworkers := htally.workers
  rw [hall]
  constructor
  · intro h
    have hr := h.requests
    have hw := h.workers
    omega
  · rintro ⟨hmissed, hdropped⟩
    refine ⟨by omega, by omega, fun id hended => ?_⟩
    rcases htally.pushed id hended with hone | hpos
    · exact hone
    · omega

/-- A request takes the slab and generates, another one waits, and the scheduler shuts down. -/
def shutdownRun : List AccountedEvent :=
  [.event (.submit "a"), .event (.start "a"), .event (.submit "b"), .event .shutdown, .event (.resume "b"),
    .event (.finish "a" true)]

/-- The session of a request is cancelled before its worker gets the engine. -/
def earlyCancelRun : List AccountedEvent := [.event (.submit "a"), .event (.cancelSession "a"), .event (.start "a")]

def completedRun : List AccountedEvent := [.event (.submit "a"), .event (.start "a"), .event (.finish "a" true)]

/-- The refused request is neither admitted nor rejected, and the cancelled one neither completed nor cancelled nor failed. -/
theorem books_do_not_balance :
    Scheduler.create exampleScheduler.pool 1 .queue 0 = .ok exampleScheduler ∧
      Quiet (Machine.final step { scheduler := exampleScheduler } shutdownRun) ∧
      ¬ Accounted (Machine.final step { scheduler := exampleScheduler } shutdownRun) ∧
      Quiet (Machine.final step { scheduler := exampleScheduler } earlyCancelRun) ∧
      ¬ Accounted (Machine.final step { scheduler := exampleScheduler } earlyCancelRun) := by
  refine ⟨rfl, fun id => ?_, fun h => ?_, fun id => ?_, fun h => ?_⟩
  · have hphase : (Machine.final step { scheduler := exampleScheduler } shutdownRun).scheduler.phase id =
        if id = "a" then .ended else if id = "b" then .raised else if id ∈ ["b"] ∧
          (if id = "b" then Phase.waiting else if id = "a" then .generating 0 else if id = "a" then .starting 0 else .absent) =
            .waiting then .refused else if id = "b" then .waiting else if id = "a" then .generating 0 else
          if id = "a" then .starting 0 else .absent := rfl
    rw [hphase]
    by_cases ha : id = "a" <;> by_cases hb : id = "b" <;> simp [ha, hb, waits, works]
  · exact absurd h.requests (by decide)
  · have hphase : (Machine.final step { scheduler := exampleScheduler } earlyCancelRun).scheduler.phase id =
        if id = "a" then .ended else if id = "a" then .starting 0 else .absent := rfl
    rw [hphase]
    by_cases ha : id = "a" <;> simp [ha, waits, works]
  · exact absurd h.workers (by decide)

/-- A request that completes is accounted for. -/
theorem completed_request_accounted :
    Accounted (Machine.final step { scheduler := exampleScheduler } completedRun) := by
  have hquiet : Quiet (Machine.final step { scheduler := exampleScheduler } completedRun) := by
    intro id
    have hphase : (Machine.final step { scheduler := exampleScheduler } completedRun).scheduler.phase id =
        if id = "a" then .ended else if id = "a" then .generating 0 else if id = "a" then .starting 0 else .absent := rfl
    rw [hphase]
    by_cases ha : id = "a" <;> simp [ha, waits, works]
  refine (accounted_iff_counts (rfl : Scheduler.create exampleScheduler.pool 1 .queue 0 = .ok exampleScheduler) completedRun
    hquiet).2 ?_
  have hgets : ¬ (Machine.final step { scheduler := exampleScheduler } [.event (.submit "a")]).scheduler.returnsEarly "a" := by
    decide
  exact ⟨trivial, Bool.eq_false_of_not_eq_true hgets, fun _ h => absurd h (by simp), trivial⟩

end AccountedScheduler

end KakeyaEngine
