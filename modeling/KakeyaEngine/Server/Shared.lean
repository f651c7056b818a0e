import KakeyaEngine.Lib.Rely
import KakeyaEngine.Session.Determinism

/-!
# Requests on one verifier

The HTTP shim has one verifier for all its sessions.  A request that has been given a permit gets a session and is
prefilled by the handler, on the event loop; its tokens are generated by a thread of its own.  When the client is lost, the
handler closes the session and gives the permit back, and cancels the task that waits for the thread.  That does not stop
the thread, which goes on until it ends or meets an exception.

`chat` is what a request does to the store and to the verifier, in steps: a call of the store, or one of `prefill`,
`forward_block`, `commit_or_truncate` and the assignment of the logits.  The permits are counted, the waiting for one is
left out.  The label of a step says whether the request relies on the verifier being as it left it, and whether the step
changes the verifier.
-/

namespace KakeyaEngine

/-- The kinds of steps: `fill` makes the verifier anew, `read` relies on it, `write` relies on it and changes it, and
`free` has nothing to do with it. -/
inductive ChatStep
  | fill
  | read
  | write
  | free
deriving DecidableEq

/-- The request relies on the verifier. -/
def ChatStep.holds : ChatStep → Bool
  | .read | .write => true
  | _ => false

/-- The step changes the verifier. -/
def ChatStep.writes : ChatStep → Bool
  | .fill | .write => true
  | _ => false

section

variable (κ Λ : Type)

/-- The store, the guards and the streams, with the one verifier. -/
abbrev SharedServer : Type := Server (SinkWindowVerifier κ Λ) VerifierError

/-- A part of a request; a step reads the clock. -/
abbrev ChatProg (α : Type) : Type := Prog ChatStep Int (SharedServer κ Λ) (OperationError VerifierError) α

end

variable {κ Λ : Type} (m : KvModel κ Λ) (cfg : VerifierConfig) (argmax : Λ → Token)

/-- The one verifier behind every session, and no callback. -/
def sharedVerifier : Verifiers (SinkWindowVerifier κ Λ) Unit VerifierError where
  resolve _ v := ((), v)
  remove _ v := v
  kSeqLength _ v := (v.cacheSeqLength, v)
  prefill _ _ ts := .atomic () fun _ => SinkWindowVerifier.prefill m cfg ts
  append _ _ ts _ := SinkWindowVerifier.appendBlock m cfg ts
  generateStep _ _ _ := do
    let t ← (SinkWindowVerifier.localVerifier m cfg argmax).greedyNextTokenId
    SinkWindowVerifier.appendBlock m cfg [t]
    pure t
  cachedTokenSequence _ _ v := v.cachedTokenSequence
  nextGlobalPosition _ _ v := v.nextGlobalPosition

namespace Chat

/-! ### The steps of a request -/

/-- `forward_block`, `commit_or_truncate` and the assignment of the logits. -/
def append (tokenIds : List Token) : ChatProg κ Λ Unit := do
  let blockLogits ← Prog.atomic .write fun _ => Server.callVerifier (SinkWindowVerifier.forwardBlock m tokenIds)
  Prog.atomic .write fun _ =>
    Server.callVerifier (SinkWindowVerifier.commitOrTruncate cfg tokenIds.length tokenIds.length)
  Prog.atomic .write fun _ =>
    Server.callVerifier (Proc.modify fun v => { v with nextTokenLogits := blockLogits.getLast? })

/-- What both coordinators do once the verifier has the tokens. -/
def record (sid : SessionId) (tokenIds : List Token) : ChatProg κ Λ Unit := do
  Prog.atomic .read fun _ => Server.mirror (sharedVerifier m cfg argmax) sid ()
  let _ ← Prog.atomic .read fun clock => Server.storeAppend (sharedVerifier m cfg argmax) sid tokenIds clock
  Prog.atomic .read fun clock => Server.recordPosition (sharedVerifier m cfg argmax) sid () clock

/-- `append_tokens`, for a session that was looked up. -/
def appendTokens (sid : SessionId) (session : Session) (promptIds : List Token) : ChatProg κ Λ Unit := do
  if session.nextGlobalPosition = 0 then
    Prog.atomic .fill fun _ => Server.callVerifier (SinkWindowVerifier.prefill m cfg promptIds)
  else append m cfg promptIds
  record m cfg argmax sid promptIds

/-- Shows an event. -/
def yieldEvent (k : ChatStep) (sid : SessionId) (event : Int → GenerateEvent) : ChatProg κ Λ Unit :=
  .atomic k fun clock => Server.reveal sid (.event (event clock))

/-- The terminal event. -/
def yieldDone (sid : SessionId) (reason : StopReason) (count : Nat) (t0 : Int) : ChatProg κ Λ Unit :=
  yieldEvent .free sid fun now => .done reason count 0 (now - t0)

/-- The loop of `_generate_events`, with the iterations that are left. -/
def generateLoop (sid : SessionId) (eosTokenIds : List Token) (t0 : Int) : Nat → Nat → ChatProg κ Λ Unit
  | 0, count => yieldDone sid .maxTokens count t0
  | n + 1, count => do
    let nextToken ← Prog.atomic .read fun _ =>
      Server.callVerifier (SinkWindowVerifier.localVerifier m cfg argmax).greedyNextTokenId
    append m cfg [nextToken]
    record m cfg argmax sid [nextToken]
    yieldEvent .read sid fun _ => .token nextToken
    if nextToken ∈ eosTokenIds then yieldDone sid .eos (count + 1) t0
    else generateLoop sid eosTokenIds t0 n (count + 1)

/-- Tells that the cache no longer holds the whole history. -/
def yieldTruncated (sid : SessionId) (session : Session) : ChatProg κ Λ Unit :=
  if session.cachedTokenSequence.length < session.historyTokenIds.length then
    yieldEvent .read sid fun _ =>
      .historyTruncated (session.historyTokenIds.length - session.cachedTokenSequence.length)
  else pure ()

/-- `_generate_events`; the shim sets no sampling parameter and no cancel event. -/
def generateEvents (sid : SessionId) (maxTokens : Int) : ChatProg κ Λ Unit := do
  Prog.atomic .read fun _ => Proc.ofExcept (Server.checkArguments maxTokens {})
  let session ← Prog.atomic .read fun _ =>
    Server.callStore (sharedVerifier m cfg argmax) (SessionStore.getSession sid)
  if session.nextGlobalPosition = 0 then
    .done (.error (.valueError ("session has no history yet; AppendTokens must precede Generate " ++
      "(the first token's logits are the prefill's last position)")))
  else do
    yieldTruncated sid session
    let t0 ← Prog.atomic .read fun clock => pure clock
    generateLoop m cfg argmax sid session.eosTokenIds t0 maxTokens.toNat 0

/-- `generate`: the stream under the guard. -/
def generate (sid : SessionId) (maxTokens : Int) : ChatProg κ Λ Unit := do
  Prog.atomic .read fun _ => Server.enterGuard sid
  (generateEvents m cfg argmax sid maxTokens).andThen fun r => do
    Prog.atomic .free fun _ => Server.leaveGuard sid
    .done r

/-- A request with a new session: the prefill, and the generation. -/
def chat (sid : SessionId) (session : Session) (promptIds : List Token) (maxTokens : Int) : ChatProg κ Λ Unit := do
  appendTokens m cfg argmax sid session promptIds
  generate m cfg argmax sid maxTokens

end Chat

/-! ### The app -/

/-- What became of a request: its handler is at work, or has sent the response, or was cut off by the client. -/
inductive ChatFate
  | active
  | answered
  | lost
deriving DecidableEq

/-- A request that was given a permit, and what is left of its program. -/
structure ChatTask (κ Λ : Type) where
  promptIds : List Token
  maxTokens : Int
  eosTokenIds : List Token
  fate : ChatFate := .active
  program : ChatProg κ Λ Unit

/-- The app with the permits that are free and the requests that were given one, each under the id of its session. -/
structure HttpApp (κ Λ : Type) where
  value : Nat
  server : SharedServer κ Λ
  tasks : Dict SessionId (ChatTask κ Λ) := .empty

/-- An event: a request is given a permit; its program makes a step, on the event loop or on its thread; the handler sends
the response of a program that has ended; the client is lost, and the handler cleans up if it can. -/
inductive HttpEvent
  | arrive (sid : SessionId) (promptIds : List Token) (maxTokens : Int) (eosTokenIds : List Token) (clock : Int)
  | step (sid : SessionId) (clock : Int)
  | answer (sid : SessionId)
  | lose (sid : SessionId) (cleanUp : Bool)
deriving DecidableEq

namespace HttpApp

/-- `create_app` around a new verifier; the pool is a placeholder with a slab for each permit. -/
def create (maxConcurrent : Nat) : Except SessionError (HttpApp κ Λ) :=
  match SlabPool.create maxConcurrent with
  | .error e => .error e.raised
  | .ok pool =>
    match SessionStore.create maxConcurrent true (some pool) false with
    | .error e => .error e
    | .ok store => .ok { value := maxConcurrent, server := { store := store, verifiers := {} } }

/-- The request is admitted and its session made.  `_encode_prompt` refuses an empty prompt before that. -/
def arrive (sid : SessionId) (promptIds : List Token) (maxTokens : Int) (eosTokenIds : List Token) (clock : Int)
    (s : HttpApp κ Λ) : HttpApp κ Λ :=
  if s.value = 0 ∨ s.tasks.contains sid ∨ promptIds = [] then s
  else
    let r := (Server.callStore (sharedVerifier m cfg argmax)
      (SessionStore.createSession (fun _ => none) sid eosTokenIds "" clock clock)).run s.server
    let program := match r.1 with
      | .error e => .done (.error e)
      | .ok session => Chat.chat m cfg argmax sid session promptIds maxTokens
    { value := s.value - 1, server := r.2,
      tasks := s.tasks.set sid
        { promptIds := promptIds, maxTokens := maxTokens, eosTokenIds := eosTokenIds, program := program } }

/-- `close_session`, where a missing session is no error, and the release of the permit. -/
def cleanUp (sid : SessionId) (s : HttpApp κ Λ) : HttpApp κ Λ :=
  { s with
    value := s.value + 1,
    server := ((Server.callStore (sharedVerifier m cfg argmax)
      (SessionStore.closeSession (fun _ => none) sid)).run s.server).2 }

/-- Stores what became of a request. -/
def setTask (sid : SessionId) (task : ChatTask κ Λ) (s : HttpApp κ Λ) : HttpApp κ Λ :=
  { s with tasks := s.tasks.set sid task }

/-- A step of a request's program. -/
def stepTask (sid : SessionId) (clock : Int) (task : ChatTask κ Λ) (s : HttpApp κ Λ) : HttpApp κ Λ :=
  match task.program with
  | .done _ => s
  | .step _ act next =>
    { s with
      server := act clock s.server, tasks := s.tasks.set sid { task with program := next clock s.server } }

/-- The handler has got everything from the program, and sends the response. -/
def answer (sid : SessionId) (task : ChatTask κ Λ) (s : HttpApp κ Λ) : HttpApp κ Λ :=
  if task.fate = .active ∧ task.program.ended then
    (s.cleanUp m cfg argmax sid).setTask sid { task with fate := .answered }
  else s

/-- The client is lost; the program is left as it is. -/
def lose (sid : SessionId) (clean : Bool) (task : ChatTask κ Λ) (s : HttpApp κ Λ) : HttpApp κ Λ :=
  if task.fate = .active then
    if clean then (s.cleanUp m cfg argmax sid).setTask sid { task with fate := .lost }
    else s.setTask sid { task with fate := .lost }
  else s

/-- Lets an admitted request act. -/
def act (sid : SessionId) (f : ChatTask κ Λ → HttpApp κ Λ → HttpApp κ Λ) (s : HttpApp κ Λ) : HttpApp κ Λ :=
  match s.tasks.get? sid with
  | none => s
  | some task => f task s

/-- One event. -/
def step (s : HttpApp κ Λ) : HttpEvent → Unit × HttpApp κ Λ
  | .arrive sid promptIds maxTokens eos clock => ((), s.arrive m cfg argmax sid promptIds maxTokens eos clock)
  | .step sid clock => ((), s.act sid (stepTask sid clock))
  | .answer sid => ((), s.act sid (answer m cfg argmax sid))
  | .lose sid clean => ((), s.act sid (lose m cfg argmax sid clean))

/-- The tokens of a request that runs alone on the app. -/
def solo (sid : SessionId) (promptIds : List Token) (maxTokens : Int) (eosTokenIds : List Token) (created : Int)
    (clock : Nat → Int) (s : HttpApp κ Λ) : List Token :=
  let s := s.arrive m cfg argmax sid promptIds maxTokens eosTokenIds created
  match s.tasks.get? sid with
  | none => []
  | some task => (task.program.alone clock 0 s.server).2.tokensShown sid

end HttpApp

end KakeyaEngine
