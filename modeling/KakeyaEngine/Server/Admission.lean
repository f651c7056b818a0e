import KakeyaEngine.Lib.Dict
import KakeyaEngine.Scheduler.Admission

/-!
# Admission to the HTTP shim

`chat_completions` takes a permit of the admission semaphore, makes a session and prefills it.  A plain request then
collects its tokens and gives session and permit back in the `finally` of the handler; a streaming request leaves both to
the generator `_stream_session`, which gives them back in a `finally` of its own.

A run is a sequence of events, each the part of one request between two points where it is suspended: at an `await`, or at
a `yield` of the generator.  `create_session` and `append_tokens` run within one such part; whether they raise is part of
the event.  A waiter whose future the semaphore has resolved holds a permit before it goes on, and the semaphore takes the
permit back when the waiter is cancelled or times out in between.  Tokens, chunks and counters are left out.
-/

namespace KakeyaEngine

/-- Where a request stands: `_admit` waits for the semaphore, or has been granted a permit by it; `_collect_session_tokens`
waits for tokens; `_stream_session` has been created, is suspended at its first `yield`, or is inside its `try`; the
`finally` waits for `drain_task`, after which the request is over or sends its last chunks; it sends them; it is over. -/
inductive ChatPhase
  | queued
  | granted
  | collecting
  | created
  | opening
  | streaming
  | closing (last : Bool)
  | tail
  | over
deriving DecidableEq

/-- The session of a request. -/
inductive ChatSession
  | unmade
  | live
  | closed
deriving DecidableEq

/-- A chat-completion request, with the permits it has taken and given back. -/
structure ChatRequest where
  stream : Bool
  phase : ChatPhase
  taken : Nat := 0
  released : Nat := 0
  session : ChatSession := .unmade
deriving DecidableEq

/-- The app: its configuration, the value of the admission semaphore, and the requests it has received. -/
structure ChatServer where
  maxConcurrent : Nat
  policy : AdmissionPolicy := .reject
  queueMaxWait : Nat := 0
  value : Nat
  requests : Dict String ChatRequest := .empty

/-- An event.  A new request comes under a fresh id. -/
inductive ChatEvent
  | arrive (id : String) (stream createOk prefillOk : Bool)
  | grant (id : String)
  | resume (id : String) (createOk prefillOk : Bool)
  | timeout (id : String)
  | advance (id : String)
  | drop (id : String)
deriving DecidableEq

namespace ChatRequest

/-- The request has taken a permit. -/
def take (r : ChatRequest) : ChatRequest := { r with taken := r.taken + 1, phase := .granted }

/-- The permit is given back. -/
def release (r : ChatRequest) : ChatRequest := { r with released := r.released + 1 }

/-- `close_session`; a session that is gone already is no error here. -/
def closeSession (r : ChatRequest) : ChatRequest :=
  match r.session with
  | .unmade => r
  | _ => { r with session := .closed }

/-- The request moves on. -/
def goto (p : ChatPhase) (r : ChatRequest) : ChatRequest := { r with phase := p }

end ChatRequest

namespace ChatServer

/-- `create_app`. -/
def create (maxConcurrent : Nat) (policy : AdmissionPolicy) (queueMaxWait : Nat) : ChatServer :=
  { maxConcurrent := maxConcurrent, policy := policy, queueMaxWait := queueMaxWait, value := maxConcurrent }

/-- Stores what became of a request. -/
def put (id : String) (r : ChatRequest) (s : ChatServer) : ChatServer :=
  { s with requests := s.requests.set id r }

/-- A permit is taken from the semaphore, which has one. -/
def semTake (id : String) (r : ChatRequest) (s : ChatServer) : ChatServer :=
  { s.put id r.take with value := s.value - 1 }

/-- `admission_sem.release()` on behalf of a request. -/
def semRelease (id : String) (r : ChatRequest) (s : ChatServer) : ChatServer :=
  { s.put id r.release with value := s.value + 1 }

/-- The cleanup of either path: `close_session`, then `admission_sem.release()`. -/
def cleanUp (id : String) (r : ChatRequest) (p : ChatPhase) (s : ChatServer) : ChatServer :=
  s.semRelease id (r.closeSession.goto p)

/-- `chat_completions` from the admission of a request to its next suspension, or its end.  The `finally` cleans up for a
plain request only. -/
def handle (id : String) (createOk prefillOk : Bool) (r : ChatRequest) (s : ChatServer) : ChatServer :=
  if createOk = false then s.put id (r.goto .over)
  else
    let r := { r with session := .live }
    if prefillOk = false then
      if r.stream then s.put id (r.closeSession.goto .over) else s.cleanUp id r.closeSession .over
    else if r.stream then s.put id (r.goto .created)
    else s.put id (r.goto .collecting)

/-- A request comes in: `_admit` under either policy.  Under `queue` a permit that is free is granted by the next event. -/
def arrive (id : String) (stream createOk prefillOk : Bool) (s : ChatServer) : ChatServer :=
  match s.requests.get? id with
  | some _ => s
  | none =>
    match s.policy with
    | .reject =>
      if s.value = 0 then s.put id { stream := stream, phase := .over }
      else
        let r : ChatRequest := { stream := stream, phase := .queued }
        (s.semTake id r).handle id createOk prefillOk r.take
    | .queue => s.put id { stream := stream, phase := .queued }

/-- The semaphore grants a free permit to a waiter. -/
def grant (id : String) (r : ChatRequest) (s : ChatServer) : ChatServer :=
  if r.phase = .queued ∧ 0 < s.value then s.semTake id r else s

/-- The waiter goes on with its permit. -/
def resume (id : String) (createOk prefillOk : Bool) (r : ChatRequest) (s : ChatServer) : ChatServer :=
  if r.phase = .granted then s.handle id createOk prefillOk r else s

/-- `_admit` ends without a permit: one that was granted already is put back. -/
def giveUp (id : String) (r : ChatRequest) (s : ChatServer) : ChatServer :=
  match r.phase with
  | .queued => s.put id (r.goto .over)
  | .granted => s.semRelease id (r.goto .over)
  | _ => s

/-- The timer of `_admit` fires; `queue_max_wait_s = 0` means that there is none. -/
def timeout (id : String) (r : ChatRequest) (s : ChatServer) : ChatServer :=
  if s.queueMaxWait = 0 then s else s.giveUp id r

/-- The request goes on by itself: the tokens are collected or the generation has failed, the stream's next chunk is asked
for, the stream has come to its end, `drain_task` is awaited, the last chunks are sent. -/
def advance (id : String) (r : ChatRequest) (s : ChatServer) : ChatServer :=
  match r.phase with
  | .collecting => s.put id (r.goto (.closing true))
  | .created => s.put id (r.goto .opening)
  | .opening => s.put id (r.goto .streaming)
  | .streaming => s.put id (r.goto (.closing false))
  | .closing last => s.cleanUp id r (if last then .over else .tail)
  | .tail => s.put id (r.goto .over)
  | _ => s

/-- The client is lost: the request is cancelled where it is suspended, or its generator is closed there.  Before its `try`
the generator has nothing to clean up with; the `finally` swallows a cancellation of its own wait. -/
def drop (id : String) (r : ChatRequest) (s : ChatServer) : ChatServer :=
  match r.phase with
  | .queued | .granted => s.giveUp id r
  | .collecting => s.put id (r.goto (.closing true))
  | .created | .opening => s.put id (r.goto .over)
  | .streaming => s.put id (r.goto (.closing true))
  | .closing last => s.cleanUp id r (if last then .over else .tail)
  | .tail => s.put id (r.goto .over)
  | .over => s

/-- Lets a received request act. -/
def act (id : String) (f : ChatRequest → ChatServer → ChatServer) (s : ChatServer) : ChatServer :=
  match s.requests.get? id with
  | none => s
  | some r => f r s

/-- One event. -/
def step (s : ChatServer) : ChatEvent → Unit × ChatServer
  | .arrive id stream createOk prefillOk => ((), s.arrive id stream createOk prefillOk)
  | .grant id => ((), s.act id (grant id))
  | .resume id createOk prefillOk => ((), s.act id (resume id createOk prefillOk))
  | .timeout id => ((), s.act id (timeout id))
  | .advance id => ((), s.act id (advance id))
  | .drop id => ((), s.act id (drop id))

/-- The state after a run of a new server. -/
def run (maxConcurrent : Nat) (policy : AdmissionPolicy) (queueMaxWait : Nat) (events : List ChatEvent) : ChatServer :=
  Machine.final step (create maxConcurrent policy queueMaxWait) events

end ChatServer

end KakeyaEngine
