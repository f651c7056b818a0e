import KakeyaEngine.Lib.Prog
import KakeyaEngine.Session.Store

/-!
# The coordinators

`AppendTokens` and `Generate` run on threads of their own.  Each is a program whose steps are the calls it makes of the
store, of the resolver and of the verifier it was given; every one of these takes a lock of its own or works on an object
that no other operation uses, and what happens between two steps is up to the other threads.

A removal callback runs under the lock of the store.  So a call of the store and the callbacks it makes are one step: the
other threads can get at most to the resolver in between, and a resolve before the callback is one before the call.

What an operation reads of the `Session` it looked up is the session as it was then, for the servicer admits one
operation at a time on a session.  What only reports (liveness, telemetry, the bytes shown for a slab) is left out.
-/

namespace KakeyaEngine

/-- What the environment adds to a step: the clock, and the attempt that finds the cancel event set. -/
structure Moment where
  clock : Int
  cancelAt : Option Nat := none
deriving DecidableEq

/-- `cancel_event.is_set()`. -/
def Moment.cancelled (m : Moment) : Bool := m.cancelAt.isSome

/-- The exceptions of an operation. -/
inductive OperationError (ε : Type)
  | store (e : SessionError)
  | verifier (e : ε)
  | cancelled (message : String)
  | valueError (message : String)
  | busy (message : String)
deriving DecidableEq

/-- The stop reasons of `Generate`. -/
inductive StopReason
  | maxTokens
  | eos
  | cancelled
deriving DecidableEq

/-- `GenerateEvent`.  The time is that of the clock readings. -/
inductive GenerateEvent
  | token (tokenId : Token)
  | historyTruncated (droppedTokenCount : Nat)
  | done (stopReason : StopReason) (generatedTokenCount : Nat) (prefillSeconds totalSeconds : Int)
deriving DecidableEq

/-- What a client sees of its session: the events of a stream, and what an operation returned or raised. -/
inductive Observation (ε : Type)
  | event (e : GenerateEvent)
  | returned (r : Except (OperationError ε) Nat)

/-- The verifiers behind a resolver: `β` is what holds them and `η` names one of a session that was resolved. -/
structure Verifiers (β η ε : Type) where
  /-- The resolver. -/
  resolve : SessionId → β → η × β
  /-- What the removal callback does. -/
  remove : SessionId → β → β
  /-- `k_seq_length` of the cache inspector. -/
  kSeqLength : SessionId → β → Int × β
  /-- `prefill`, or what the prefill cache does in its place. -/
  prefill : SessionId → η → List Token → Prog Unit Moment β ε Unit
  /-- `append_accepted_tokens`, or `forward_block` with everything committed. -/
  append : SessionId → η → List Token → Moment → Proc β ε Unit
  /-- `generate_step`, or the argmax of the next token's logits and its append. -/
  generateStep : SessionId → η → Moment → Proc β ε Token
  cachedTokenSequence : SessionId → η → β → List Token
  nextGlobalPosition : SessionId → η → β → Int

/-- The server: the store, the verifiers, the sessions that `GenerationCoordinator` guards and what the clients saw. -/
structure Server (β ε : Type) where
  store : SessionStore
  verifiers : β
  generating : List SessionId := []
  streams : Dict SessionId (List (Observation ε)) := Dict.empty

/-- The steps that matter by name. -/
inductive StepLabel
  | resolve (sessionId : SessionId)
  | other
deriving DecidableEq

abbrev ServerProc (β ε α : Type) : Type := Proc (Server β ε) (OperationError ε) α

abbrev ServerProg (β ε α : Type) : Type := Prog StepLabel Moment (Server β ε) (OperationError ε) α

namespace Server

variable {β η ε : Type} (vs : Verifiers β η ε)

/-! ### The steps -/

/-- A call of the store, with the callbacks for the sessions that it removes. -/
def callStore {α : Type} (x : SessionProc α) : ServerProc β ε α := fun s =>
  let r := x.run s.store
  let removed := (r.2.notified.drop s.store.notified.length).map Prod.fst
  (r.1.mapError .store,
    { s with store := r.2, verifiers := removed.foldl (fun b sid => vs.remove sid b) s.verifiers })

/-- A call of a verifier. -/
def callVerifier {α : Type} (x : Proc β ε α) : ServerProc β ε α :=
  Proc.focus Server.verifiers (fun b s => { s with verifiers := b }) .verifier x

/-- `_verifier_for`. -/
def resolve (sid : SessionId) : ServerProc β ε η := fun s =>
  let r := vs.resolve sid s.verifiers
  (.ok r.1, { s with verifiers := r.2 })

/-- Whether `append_tokens` of the store gets as far as asking the inspector. -/
def asksInspector (s : SessionStore) (sid : SessionId) (tokenIds : List Token) : Bool :=
  s.hasInspector && s.sessions.contains sid && (tokenIds.find? fun t => decide (t < 0)).isNone

/-- What the inspector reports when it is asked. -/
def inspect (sid : SessionId) (tokenIds : List Token) : ServerProc β ε Int := fun s =>
  if asksInspector s.store sid tokenIds then
    (.ok (vs.kSeqLength sid s.verifiers).1, { s with verifiers := (vs.kSeqLength sid s.verifiers).2 })
  else (.ok 0, s)

/-- `SessionStore.append_tokens` with the inspector it asks. -/
def storeAppend (sid : SessionId) (tokenIds : List Token) (clock : Int) : ServerProc β ε Nat := do
  let k ← inspect vs sid tokenIds
  callStore vs (SessionStore.appendTokens (fun _ => none) sid tokenIds clock (.ok k))

/-- `session.cached_token_sequence = list(verifier.cached_token_sequence)`. -/
def mirror (sid : SessionId) (verifier : η) : ServerProc β ε Unit := do
  let s ← Proc.get
  match s.store.sessions.get? sid with
  | none => pure ()
  | some x =>
    callStore vs (SessionStore.syncSession sid (vs.cachedTokenSequence sid verifier s.verifiers) x.lastActiveAt)

/-- `session.last_active_at = time.monotonic()`. -/
def touch (sid : SessionId) (clock : Int) : ServerProc β ε Unit := do
  let s ← Proc.get
  match s.store.sessions.get? sid with
  | none => pure ()
  | some x => callStore vs (SessionStore.syncSession sid x.cachedTokenSequence clock)

/-- `SessionStore.record_position_advance` to the position of the verifier. -/
def recordPosition (sid : SessionId) (verifier : η) (clock : Int) : ServerProc β ε Unit := do
  let s ← Proc.get
  callStore vs
    (SessionStore.recordPositionAdvance (fun _ => none) sid (vs.nextGlobalPosition sid verifier s.verifiers) clock)

/-- Shows a client what it sees next. -/
def reveal (sid : SessionId) (o : Observation ε) : ServerProc β ε Unit :=
  Proc.modify fun s => { s with streams := s.streams.set sid ((s.streams.get? sid).getD [] ++ [o]) }

/-- Raises when the cancel event is set. -/
def checkCancelled (message : String) (m : Moment) : ServerProc β ε Unit :=
  if m.cancelled then Proc.raise (.cancelled message) else pure ()

/-- Enters the guard of `GenerationCoordinator`. -/
def enterGuard (sid : SessionId) : ServerProc β ε Unit := do
  let s ← Proc.get
  if s.generating.contains sid then Proc.raise (.busy ("Generate already active for session '" ++ sid ++ "'"))
  else Proc.modify fun s => { s with generating := sid :: s.generating }

/-- Leaves the guard. -/
def leaveGuard (sid : SessionId) : ServerProc β ε Unit :=
  Proc.modify fun s => { s with generating := s.generating.filter fun x => x ≠ sid }

/-! ### Calls of the store that return -/

section

variable {vs} {sid : SessionId} {x : Session} {s : Server β ε}

/-- A call of the store that returns and removes no session. -/
theorem run_callStore_ok {α : Type} {y : SessionProc α} (store' : SessionStore) {a : α}
    (h : y.run s.store = (.ok a, store')) (hn : store'.notified = s.store.notified) :
    (callStore vs y).run s = (.ok a, { s with store := store' }) := by
  have hrun : (callStore vs y).run s =
      ((y.run s.store).1.mapError .store, { s with
        store := (y.run s.store).2,
        verifiers := (((y.run s.store).2.notified.drop s.store.notified.length).map Prod.fst).foldl
          (fun b sid => vs.remove sid b) s.verifiers }) := rfl
  rw [hrun, h, hn, List.drop_length]
  rfl

theorem of_run_callStore_ok {α : Type} {y : SessionProc α} {s' : Server β ε} {a : α}
    (h : (callStore vs y).run s = (.ok a, s')) : y.run s.store = (.ok a, s'.store) := by
  have hres : ((callStore vs y).run s).1 = (y.run s.store).1.mapError .store := rfl
  have hstore : ((callStore vs y).run s).2.store = (y.run s.store).2 := rfl
  rw [h] at hres hstore
  rcases hy : y.run s.store with ⟨e | b, t⟩
  · rw [hy] at hres
    cases hres
  · rw [hy] at hres hstore
    rw [Except.ok.inj hres, show s'.store = t from hstore]

theorem run_lookup (h : s.store.sessions.get? sid = some x) :
    (callStore vs (SessionStore.getSession sid)).run s = (.ok x, s) := by
  refine run_callStore_ok (s.store) ?_ rfl
  rw [SessionStore.run_getSession, h]

variable (vs) in
/-- The cached tokens of the verifier are written into the session. -/
theorem run_mirror (h : η) (hx : s.store.sessions.get? sid = some x) :
    (mirror vs sid h).run s =
      (.ok (), { s with
        store := s.store.write { x with cachedTokenSequence := vs.cachedTokenSequence sid h s.verifiers } }) := by
  unfold mirror
  rw [Proc.run_get_bind, hx]
  exact run_callStore_ok (s.store.write { x with cachedTokenSequence := vs.cachedTokenSequence sid h s.verifiers })
    (SessionStore.run_syncSession hx _ _) rfl

end

/-! ### `AppendTokensCoordinator` -/

/-- Drives the verifier: the first tokens of a session are a prefill, later ones a block that is committed. -/
def drive (sid : SessionId) (session : Session) (verifier : η) (tokenIds : List Token) : ServerProg β ε Unit :=
  if session.nextGlobalPosition = 0 then
    (vs.prefill sid verifier tokenIds).focus .other Server.verifiers (fun b s => { s with verifiers := b }) .verifier
  else .atomic .other fun m => callVerifier (vs.append sid verifier tokenIds m)

/-- `append_tokens`. -/
def appendTokens (sid : SessionId) (tokenIds : List Token) : ServerProg β ε Nat := do
  Prog.atomic .other (checkCancelled "AppendTokens cancelled")
  let session ← Prog.atomic .other fun _ => callStore vs (SessionStore.getSession sid)
  let verifier ← Prog.atomic (.resolve sid) fun _ => resolve vs sid
  if tokenIds = [] then do
    Prog.atomic .other fun m => touch vs sid m.clock
    pure session.historyTokenIds.length
  else do
    drive vs sid session verifier tokenIds
    Prog.atomic .other (checkCancelled "AppendTokens cancelled")
    Prog.atomic .other fun _ => mirror vs sid verifier
    let newHistoryLength ← Prog.atomic .other fun m => storeAppend vs sid tokenIds m.clock
    Prog.atomic .other fun m => recordPosition vs sid verifier m.clock
    pure newHistoryLength

/-! ### `GenerationCoordinator` -/

/-- A float of a request: whether it is zero, and how it prints. -/
structure FloatArg where
  isZero : Bool
  text : String
deriving DecidableEq

/-- The sampling parameters of a request; the seed is not used. -/
structure Sampling where
  temperature : Option FloatArg := none
  topP : Option FloatArg := none
  topK : Option Int := none
deriving DecidableEq

/-- The checks of the arguments of `generate`. -/
def checkArguments (maxTokens : Int) (sampling : Sampling) : Except (OperationError ε) Unit := do
  if maxTokens < 1 then throw (.valueError ("max_tokens must be >= 1, got " ++ toString maxTokens))
  match sampling.temperature with
  | some t =>
    if t.isZero = false then
      throw (.valueError ("v0.3 supports only greedy decoding; temperature must be 0 or unset, got " ++ t.text))
  | none => pure ()
  if sampling.topP.isSome then
    throw (.valueError "v0.3 supports only greedy decoding; top_p must be unset (greedy ignores it)")
  match sampling.topK with
  | some k =>
    if k ≠ 1 then
      throw (.valueError ("v0.3 supports only greedy decoding; top_k must be 1 or unset, got " ++ toString k))
  | none => pure ()

/-- Shows an event that reads the clock. -/
def yieldEvent (sid : SessionId) (event : Int → GenerateEvent) : ServerProg β ε Unit :=
  .atomic .other fun m => reveal sid (.event (event m.clock))

/-- The terminal event. -/
def yieldDone (sid : SessionId) (reason : StopReason) (count : Nat) (t0 : Int) : ServerProg β ε Unit :=
  yieldEvent sid fun now => .done reason count 0 (now - t0)

/-- The loop of `_generate_events`, with the iterations that are left. -/
def generateLoop (sid : SessionId) (verifier : η) (eosTokenIds : List Token) (t0 : Int) :
    Nat → Nat → ServerProg β ε Unit
  | 0, count => yieldDone sid .maxTokens count t0
  | n + 1, count => do
    let cancelled ← Prog.atomic .other fun m => pure m.cancelled
    if cancelled then yieldDone sid .cancelled count t0
    else do
      let nextToken ← Prog.atomic .other fun m => callVerifier (vs.generateStep sid verifier m)
      Prog.atomic .other fun _ => mirror vs sid verifier
      let _ ← Prog.atomic .other fun m => storeAppend vs sid [nextToken] m.clock
      Prog.atomic .other fun m => recordPosition vs sid verifier m.clock
      yieldEvent sid fun _ => .token nextToken
      if nextToken ∈ eosTokenIds then yieldDone sid .eos (count + 1) t0
      else generateLoop sid verifier eosTokenIds t0 n (count + 1)

/-- Tells that the cache no longer holds the whole history. -/
def yieldTruncated (sid : SessionId) (session : Session) : ServerProg β ε Unit :=
  if session.cachedTokenSequence.length < session.historyTokenIds.length then
    yieldEvent sid fun _ => .historyTruncated (session.historyTokenIds.length - session.cachedTokenSequence.length)
  else pure ()

/-- `_generate_events`. -/
def generateEvents (sid : SessionId) (maxTokens : Int) (sampling : Sampling) : ServerProg β ε Unit := do
  Prog.atomic .other fun _ => Proc.ofExcept (checkArguments maxTokens sampling)
  let session ← Prog.atomic .other fun _ => callStore vs (SessionStore.getSession sid)
  let verifier ← Prog.atomic (.resolve sid) fun _ => resolve vs sid
  if session.nextGlobalPosition = 0 then
    Prog.raise (.valueError ("session has no history yet; AppendTokens must precede Generate " ++
      "(the first token's logits are the prefill's last position)"))
  else do
    yieldTruncated sid session
    let t0 ← Prog.atomic .other fun m => pure m.clock
    generateLoop vs sid verifier session.eosTokenIds t0 maxTokens.toNat 0

/-- `generate`: the stream under the guard. -/
def generate (sid : SessionId) (maxTokens : Int) (sampling : Sampling) : ServerProg β ε Unit := do
  Prog.atomic .other fun _ => enterGuard sid
  (generateEvents vs sid maxTokens sampling).andThen fun r => do
    Prog.atomic .other fun _ => leaveGuard sid
    .done r

/-! ### Operations and events -/

/-- `_issue_id`, from the digits that were drawn. -/
def issueId (hex : String) : SessionId := "sess-" ++ hex

/-- What else happens in the server: calls of the store that the handlers make between the steps of the operations, also
to cancel one, and what the verifiers do on their own. -/
inductive ServerEvent (ρ : Type)
  | createSession (hex : String) (eosTokenIds : List Token) (clientLabel : String) (createdAt lastActiveAt : Int)
  | closeSession (sessionId : SessionId)
  | removeSessionIfPresent (sessionId : SessionId) (reason : String)
  | evictIdle (ttlSeconds clock : Int)
  | verifiers (t : ρ)

/-- The server after an event. -/
def turn {ρ : Type} (act : ρ → β → β) (e : ServerEvent ρ) (s : Server β ε) : Server β ε :=
  match e with
  | .createSession hex eos label created active =>
    ((callStore vs (SessionStore.createSession (fun _ => none) (issueId hex) eos label created active)).run s).2
  | .closeSession sid => ((callStore vs (SessionStore.closeSession (fun _ => none) sid)).run s).2
  | .removeSessionIfPresent sid reason =>
    ((callStore vs (SessionStore.removeSessionIfPresent (fun _ => none) sid reason)).run s).2
  | .evictIdle ttl clock => ((callStore vs (SessionStore.evictIdle (fun _ => none) ttl clock)).run s).2
  | .verifiers t => { s with verifiers := act t s.verifiers }

/-- An operation of a client on its session. -/
inductive Operation
  | appendTokens (tokenIds : List Token)
  | generate (maxTokens : Int) (sampling : Sampling)
deriving DecidableEq

/-- The program of an operation; its client sees what it returns or raises. -/
def program (sid : SessionId) : Operation → ServerProg β ε Unit
  | .appendTokens tokenIds =>
    (appendTokens vs sid tokenIds).andThen fun r => .atomic .other fun _ => reveal sid (.returned r)
  | .generate maxTokens sampling =>
    (generate vs sid maxTokens sampling).andThen fun r =>
      .atomic .other fun _ => reveal sid (.returned (r.map fun _ => 0))

/-- The server with the operations in flight on it. -/
abbrev Running (β ε : Type) : Type := Pool StepLabel Moment (Server β ε) (OperationError ε) Unit SessionId

/-- The server of a run as it starts. -/
def started (store : SessionStore) (b : β) : Running β ε := { shared := { store := store, verifiers := b } }

/-- A step of a run: an operation starts or goes on, or an event happens. -/
def step {ρ : Type} (act : ρ → β → β) (p : Running β ε) (m : Move Moment SessionId Operation (ServerEvent ρ)) :
    Unit × Running β ε :=
  p.move (program vs) (turn vs act) m

/-- Whether an operation is in flight on a session. -/
def InFlight (p : Running β ε) (sid : SessionId) : Bool := p.programs.entries.any fun e => e.1.1 == sid && !e.2.ended

end Server

end KakeyaEngine
