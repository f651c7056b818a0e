import KakeyaEngine.Lib.Machine
import KakeyaEngine.Session.Pool

/-!
# The request scheduler

`Scheduler` admits requests to the slabs of a pool.  A request that finds no slab is refused, or parked on a queue with a
future; a worker that ends hands its slab to the first request of the queue, or gives it back to the pool.

A run is a sequence of events, each the part of a task between two points where it is suspended.  The locks of the queue
and of the active sessions are never held across such a point, so they never suspend anyone, and a token queue has no
bound.  The engine lock is held while the engine generates.  A future that was resolved is noticed by its waiter in a later
event; a cancellation or a timeout in between is thrown at the waiter instead of the result.  Prompts, tokens and counters
are left out.
-/

namespace KakeyaEngine

/-- `AdmissionPolicy`. -/
inductive AdmissionPolicy
  | reject
  | queue
deriving DecidableEq

/-- `SessionState`. -/
inductive Scheduler.SessionState
  | pending
  | admitted
  | completed
  | cancelled
  | failed
deriving DecidableEq

/-- `is_terminal`. -/
def Scheduler.SessionState.isTerminal (st : Scheduler.SessionState) : Bool :=
  decide (st = .completed ∨ st = .cancelled ∨ st = .failed)

/-- Where a request stands: not submitted; its call of `submit` waits for the future, has been handed a slab by it, has had
it cancelled by the timer or refused by the shutdown, or has raised; its worker waits for the engine, or generates; its
worker has ended. -/
inductive Scheduler.Phase
  | absent
  | waiting
  | handed (slab : Nat)
  | expired
  | refused
  | raised
  | starting (slab : Nat)
  | generating (slab : Nat)
  | ended
deriving DecidableEq

/-- `Scheduler`, with the sessions of all requests.  The sessions that are active are those with a worker. -/
structure Scheduler where
  pool : SlabPool
  policy : AdmissionPolicy := .reject
  queueMaxWait : Nat := 0
  waitQueue : List String := []
  engineLock : Bool := false
  phase : String → Scheduler.Phase := fun _ => .absent
  state : String → Scheduler.SessionState := fun _ => .pending

/-- An event.  The ids of new sessions are fresh. -/
inductive SchedulerEvent
  | submit (id : String)
  | resume (id : String)
  | timeout (id : String)
  | cancelSubmit (id : String)
  | start (id : String)
  | finish (id : String) (returned : Bool)
  | cancelSession (id : String)
  | shutdown
deriving DecidableEq

namespace Scheduler

/-- `Scheduler.__init__`, for a configuration that `SchedulerConfig` accepts. -/
def create (pool : SlabPool) (maxConcurrent : Nat) (policy : AdmissionPolicy) (queueMaxWait : Nat) :
    Except String Scheduler :=
  if maxConcurrent ≠ pool.totalCount then
    .error ("SchedulerConfig.max_concurrent=" ++ toString maxConcurrent ++ " does not match pool.total_count=" ++
      toString pool.totalCount)
  else .ok { pool := pool, policy := policy, queueMaxWait := queueMaxWait }

/-- Moves a request on. -/
def setPhase (id : String) (p : Phase) (s : Scheduler) : Scheduler :=
  { s with phase := fun id' => if id' = id then p else s.phase id' }

/-- Sets the state of a session. -/
def setState (id : String) (st : SessionState) (s : Scheduler) : Scheduler :=
  { s with state := fun id' => if id' = id then st else s.state id' }

/-! ### Submitting -/

/-- The rest of `submit` once it has a slab: the worker is created. -/
def admitted (id : String) (slab : Nat) (s : Scheduler) : Scheduler :=
  (s.setState id .admitted).setPhase id (.starting slab)

/-- `submit` up to its first suspension. -/
def submit (id : String) (s : Scheduler) : Scheduler :=
  match s.phase id with
  | .absent =>
    match s.pool.acquire with
    | .ok (slab, pool) => admitted id slab { s with pool := pool }
    | .error _ =>
      match s.policy with
      | .reject => s.setPhase id .raised
      | .queue => { s.setPhase id .waiting with waitQueue := s.waitQueue ++ [id] }
  | _ => s

/-- The waiting `submit` goes on: with the slab, with the handler of the timeout, or by raising. -/
def resume (id : String) (s : Scheduler) : Scheduler :=
  match s.phase id with
  | .handed slab => admitted id slab s
  | .expired => { s.setPhase id .raised with waitQueue := s.waitQueue.filter fun id' => decide (id' ≠ id) }
  | .refused => s.setPhase id .raised
  | _ => s

/-- The timer of `wait_for` fires: the future is cancelled, and what it may have been resolved with is not looked at. -/
def timeout (id : String) (s : Scheduler) : Scheduler :=
  if s.queueMaxWait = 0 then s
  else
    match s.phase id with
    | .waiting => s.setPhase id .expired
    | .handed _ => s.setPhase id .expired
    | .refused => s.setPhase id .expired
    | _ => s

/-- The task that called `submit` is cancelled: nothing handles it. -/
def cancelSubmit (id : String) (s : Scheduler) : Scheduler :=
  match s.phase id with
  | .waiting => s.setPhase id .raised
  | .handed _ => s.setPhase id .raised
  | .expired => s.setPhase id .raised
  | .refused => s.setPhase id .raised
  | _ => s

/-! ### Workers -/

/-- `pool.release`; an exception of it would end the worker. -/
def giveBack (slab : Nat) (s : Scheduler) : Scheduler :=
  match s.pool.release slab with
  | .ok pool => { s with pool := pool }
  | .error _ => s

/-- `_release_slab_and_wake_waiter`. -/
def releaseSlabAndWakeWaiter (slab : Nat) (s : Scheduler) : Scheduler :=
  match s.waitQueue with
  | [] => s.giveBack slab
  | id :: rest =>
    match s.phase id with
    | .waiting => { s.setPhase id (.handed slab) with waitQueue := rest }
    | _ => { s with waitQueue := rest }.giveBack slab

/-- The `finally` block of `_run_session`. -/
def endSession (id : String) (slab : Nat) (s : Scheduler) : Scheduler :=
  (s.setPhase id .ended).releaseSlabAndWakeWaiter slab

/-- The worker takes the engine lock, if it is free, and generates unless its session was cancelled. -/
def start (id : String) (s : Scheduler) : Scheduler :=
  match s.phase id with
  | .starting slab =>
    if s.engineLock then s
    else if s.state id = .cancelled then s.endSession id slab
    else { s.setPhase id (.generating slab) with engineLock := true }
  | _ => s

/-- What the end of the generation makes of the state of a session. -/
def outcome (returned : Bool) : SessionState → SessionState
  | .admitted => if returned then .completed else .failed
  | st => st

/-- The engine has returned or raised. -/
def finish (id : String) (returned : Bool) (s : Scheduler) : Scheduler :=
  match s.phase id with
  | .generating slab => { s with engineLock := false }.setState id (outcome returned (s.state id)) |>.endSession id slab
  | _ => s

/-! ### Cancelling -/

/-- `cancel_session`, of a session that `submit` has returned. -/
def cancelSession (id : String) (s : Scheduler) : Scheduler :=
  match s.phase id with
  | .starting _ | .generating _ => if (s.state id).isTerminal then s else s.setState id .cancelled
  | _ => s

/-- `shutdown` until it waits for the workers: the parked requests are refused and the active sessions cancelled. -/
def shutdown (s : Scheduler) : Scheduler :=
  { s with
    waitQueue := []
    phase := fun id => if id ∈ s.waitQueue ∧ s.phase id = .waiting then .refused else s.phase id
    state := fun id =>
      match s.phase id with
      | .starting _ | .generating _ => if (s.state id).isTerminal then s.state id else .cancelled
      | _ => s.state id }

/-! ### Runs -/

/-- What an event makes of the scheduler. -/
def next (s : Scheduler) : SchedulerEvent → Scheduler
  | .submit id => s.submit id
  | .resume id => s.resume id
  | .timeout id => s.timeout id
  | .cancelSubmit id => s.cancelSubmit id
  | .start id => s.start id
  | .finish id returned => s.finish id returned
  | .cancelSession id => s.cancelSession id
  | .shutdown => s.shutdown

/-- A step of a run. -/
def step (s : Scheduler) (e : SchedulerEvent) : Unit × Scheduler := ((), s.next e)

end Scheduler

end KakeyaEngine
