import KakeyaEngine.Lib.Machine

/-!
# The pipeline coordinator

`PipelineCoordinator` connects a producer task and a consumer by a bounded queue.  The producer puts its items and closes
the coordinator, which puts a sentinel; the consumer iterates until it sees a sentinel, or leaves earlier.  On its way out
it drains the queue and waits for the producer.

A run is a sequence of events, each the part of a task between two points where it may be suspended.  A task that waits in
`queue.put` goes on when the queue has room.  The consumer may call `cancel` or `close` itself while it iterates.  What the
producer raises, and how the consumer raises it again, is left out.
-/

namespace KakeyaEngine

/-- Where the producer task stands: it runs, it waits in `put` with an item, it waits in `close`, or it has ended. -/
inductive ProducerTask (α : Type)
  | running
  | putting (item : α)
  | closing
  | done
deriving DecidableEq

/-- Where the consumer stands: it iterates, it waits in a call of `close`, it waits for the producer, or it has ended. -/
inductive ConsumerTask
  | iterating
  | closing
  | leaving
  | done
deriving DecidableEq

/-- `PipelineCoordinator` with its tasks.  A sentinel in the queue is `none`; `rest` are the items to be produced, `seen`
those that the consumer got. -/
structure PipelineCoordinator (α : Type) where
  bufferSize : Nat
  queue : List (Option α) := []
  closed : Bool := false
  consumerCancelled : Bool := false
  producer : ProducerTask α := .running
  consumer : ConsumerTask := .iterating
  rest : List α
  seen : List α := []
deriving DecidableEq

/-- An event. -/
inductive PipelineEvent
  | produce
  | get
  | exit
  | cancel
  | close
  | resumeClose
  | join
deriving DecidableEq

namespace PipelineCoordinator

variable {α : Type}

/-- `PipelineCoordinator.__init__`, with a producer of the given items. -/
def create (bufferSize : Int) (items : List α) : Except String (PipelineCoordinator α) :=
  if bufferSize ≤ 0 then .error ("buffer_size must be positive, got " ++ toString bufferSize)
  else .ok { bufferSize := bufferSize.toNat, rest := items }

/-- `queue.full()`. -/
def Full (s : PipelineCoordinator α) : Prop := s.bufferSize ≤ s.queue.length

instance (s : PipelineCoordinator α) : Decidable s.Full := inferInstanceAs (Decidable (_ ≤ _))

/-- `queue.put_nowait`. -/
def enqueue (x : Option α) (s : PipelineCoordinator α) : PipelineCoordinator α := { s with queue := s.queue ++ [x] }

/-! ### The producer task -/

/-- `close`, called at the end of the producer task. -/
def endProducer (s : PipelineCoordinator α) : PipelineCoordinator α :=
  if s.closed then { s with producer := .done }
  else if s.Full then { s with closed := true, producer := .closing }
  else { s.enqueue none with closed := true, producer := .done }

/-- The producer goes on: it ends when there is nothing left or `put` raises `PipelineClosed`, else it puts an item. -/
def produceNext (s : PipelineCoordinator α) : PipelineCoordinator α :=
  match s.rest with
  | [] => s.endProducer
  | x :: xs =>
    if s.closed ∨ s.consumerCancelled then s.endProducer
    else if s.Full then { s with producer := .putting x, rest := xs }
    else { s.enqueue (some x) with rest := xs }

/-- A step of the producer task, if it can take one. -/
def produce (s : PipelineCoordinator α) : Option (PipelineCoordinator α) :=
  match s.producer with
  | .running => some s.produceNext
  | .putting x => if s.Full then none else some { s.enqueue (some x) with producer := .running }
  | .closing => if s.Full then none else some { s.enqueue none with producer := .done }
  | .done => none

/-! ### The consumer -/

/-- The `finally` block of `consume`: the queue is drained unless the producer has ended. -/
def leave (s : PipelineCoordinator α) : PipelineCoordinator α :=
  { s with
    consumerCancelled := true, consumer := .leaving,
    queue := match s.producer with
      | .done => s.queue
      | _ => [] }

/-- An iteration of `consume`. -/
def get (s : PipelineCoordinator α) : Option (PipelineCoordinator α) :=
  match s.consumer, s.queue with
  | .iterating, some x :: queue => some { s with queue := queue, seen := s.seen ++ [x] }
  | .iterating, none :: queue => some { s with queue := queue }.leave
  | _, _ => none

/-- The consumer leaves the iteration early. -/
def exit (s : PipelineCoordinator α) : Option (PipelineCoordinator α) :=
  match s.consumer with
  | .iterating => some s.leave
  | _ => none

/-- `cancel`, called by the consumer. -/
def cancel (s : PipelineCoordinator α) : Option (PipelineCoordinator α) :=
  match s.consumer with
  | .iterating =>
    if s.Full then some { s with consumerCancelled := true } else some { s.enqueue none with consumerCancelled := true }
  | _ => none

/-- `close`, called by the consumer. -/
def close (s : PipelineCoordinator α) : Option (PipelineCoordinator α) :=
  match s.consumer with
  | .iterating =>
    if s.closed then some s
    else if s.Full then some { s with closed := true, consumer := .closing }
    else some { s.enqueue none with closed := true }
  | _ => none

/-- The consumer's call of `close` goes on. -/
def resumeClose (s : PipelineCoordinator α) : Option (PipelineCoordinator α) :=
  match s.consumer with
  | .closing => if s.Full then none else some { s.enqueue none with consumer := .iterating }
  | _ => none

/-- `await self._producer_task`. -/
def join (s : PipelineCoordinator α) : Option (PipelineCoordinator α) :=
  match s.consumer, s.producer with
  | .leaving, .done => some { s with consumer := .done }
  | _, _ => none

/-! ### Runs -/

/-- What an event makes of the state, if it can happen. -/
def next (s : PipelineCoordinator α) : PipelineEvent → Option (PipelineCoordinator α)
  | .produce => s.produce
  | .get => s.get
  | .exit => s.exit
  | .cancel => s.cancel
  | .close => s.close
  | .resumeClose => s.resumeClose
  | .join => s.join

/-- A step of a run; an event that cannot happen changes nothing. -/
def step (s : PipelineCoordinator α) (e : PipelineEvent) : Unit × PipelineCoordinator α := ((), (s.next e).getD s)

end PipelineCoordinator

/-- The events that the tasks bring about by going on. -/
def PipelineEvent.Own (e : PipelineEvent) : Prop := e = .produce ∨ e = .get ∨ e = .resumeClose ∨ e = .join

/-- Neither an early exit nor a call of `cancel` or `close`. -/
def PipelineEvent.Patient (e : PipelineEvent) : Prop := e ≠ .exit ∧ e ≠ .cancel ∧ e ≠ .close

end KakeyaEngine
