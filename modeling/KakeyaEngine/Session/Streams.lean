import KakeyaEngine.Lib.Rely
import KakeyaEngine.Session.Coordinator

/-!
# The stream of `Generate`

`generate` returns a Python generator.  It runs when its consumer asks for the next event, stops at every `yield`, and may
be closed where it has stopped, or before it has started: then `GeneratorExit` is raised there and the `finally` clauses
run.  Here a `yield` is a step that shows the event and a step that waits for the consumer, who wakes the stream up or
closes it; any time may pass between them.

The bytes shown for the slab of a session and the counts given to `on_tokens` belong to the stream too, so they are part
of its state, `Metered`.  A stream that is not closed does to the server what `Server.generate` does
(`streamed_generates`).
-/

namespace KakeyaEngine

/-- What the environment adds to a step of a stream: the consumer may close it where it waits. -/
structure Pull extends Moment where
  closed : Bool := false
deriving DecidableEq

/-- How a stream ends when it does not run to its end. -/
inductive StreamError (ε : Type)
  | generatorExit
  | raised (e : OperationError ε)
deriving DecidableEq

/-- The server with what the coordinators report: `live_kv_bytes_override` of the slab of a session, and the counts that
`on_tokens` was called with. -/
structure Metered (β ε : Type) where
  server : Server β ε
  slabBytes : Dict SessionId Int := Dict.empty
  reported : List Nat := []

abbrev StreamProc (β ε α : Type) : Type := Proc (Metered β ε) (StreamError ε) α

/-- The steps that matter by name: those made outside the guard of the session, and the checks of the cancel event, with
the number of tokens generated so far. -/
inductive StreamLabel (η : Type)
  | outside
  | inside
  | check (sessionId : SessionId) (verifier : η) (count : Nat)
deriving DecidableEq

abbrev StreamProg (β η ε α : Type) : Type := Prog (StreamLabel η) Pull (Metered β ε) (StreamError ε) α

namespace Stream

variable {β η ε : Type} (vs : Verifiers β η ε) (kvLiveBytes : SessionId → η → β → Int)

/-! ### The steps -/

/-- A procedure of the server. -/
def onServer {α : Type} (x : ServerProc β ε α) : StreamProc β ε α :=
  Proc.focus Metered.server (fun s m => { m with server := s }) .raised x

/-- A step of the server under the guard. -/
def serve {α : Type} (x : Moment → ServerProc β ε α) : StreamProg β η ε α :=
  .atomic .inside fun i => onServer (x i.toMoment)

/-- Where the stream has stopped: its consumer asks for the next event, or closes the stream. -/
def await (k : StreamLabel η) : StreamProg β η ε Unit :=
  .atomic k fun i => if i.closed then Proc.raise .generatorExit else pure ()

/-- Whether the cancel event is set. -/
def isSet (sid : SessionId) (verifier : η) (count : Nat) : StreamProg β η ε Bool :=
  .atomic (.check sid verifier count) fun i => pure i.toMoment.cancelled

/-- `yield`. -/
def yieldEvent (sid : SessionId) (event : Int → GenerateEvent) : StreamProg β η ε Unit := do
  serve fun m => Server.reveal sid (.event (event m.clock))
  await .inside

/-- `_sync_slab_bytes`. -/
def syncSlabBytes (sid : SessionId) (verifier : η) : StreamProc β ε Unit :=
  Proc.modify fun m =>
    match (m.server.store.sessions.get? sid).bind Session.slab with
    | none => m
    | some _ => { m with slabBytes := m.slabBytes.set sid (kvLiveBytes sid verifier m.server.verifiers) }

/-- `on_tokens`. -/
def onTokens (count : Nat) : StreamProc β ε Unit :=
  Proc.modify fun m => { m with reported := m.reported ++ [count] }

/-! ### The generator -/

/-- The terminal event. -/
def yieldDone (sid : SessionId) (reason : StopReason) (count : Nat) (t0 : Int) : StreamProg β η ε Unit :=
  yieldEvent sid fun now => .done reason count 0 (now - t0)

/-- What precedes the terminal event, unless the stream was cancelled. -/
def finish (sid : SessionId) (verifier : η) (reason : StopReason) (count : Nat) (t0 : Int) : StreamProg β η ε Unit := do
  .atomic .inside fun _ => syncSlabBytes kvLiveBytes sid verifier
  .atomic .inside fun _ => onTokens count
  yieldDone sid reason count t0

/-- The loop of `_generate_events`, with the iterations that are left. -/
def generateLoop (sid : SessionId) (verifier : η) (eosTokenIds : List Token) (t0 : Int) :
    Nat → Nat → StreamProg β η ε Unit
  | 0, count => finish kvLiveBytes sid verifier .maxTokens count t0
  | n + 1, count => do
    let cancelled ← isSet sid verifier count
    if cancelled then yieldDone sid .cancelled count t0
    else do
      let nextToken ← serve fun m => Server.callVerifier (vs.generateStep sid verifier m)
      serve fun _ => Server.mirror vs sid verifier
      let _ ← serve fun m => Server.storeAppend vs sid [nextToken] m.clock
      serve fun m => Server.recordPosition vs sid verifier m.clock
      yieldEvent sid fun _ => .token nextToken
      if nextToken ∈ eosTokenIds then finish kvLiveBytes sid verifier .eos (count + 1) t0
      else generateLoop sid verifier eosTokenIds t0 n (count + 1)

/-- Tells that the cache no longer holds the whole history. -/
def yieldTruncated (sid : SessionId) (session : Session) : StreamProg β η ε Unit :=
  if session.cachedTokenSequence.length < session.historyTokenIds.length then
    yieldEvent sid fun _ => .historyTruncated (session.historyTokenIds.length - session.cachedTokenSequence.length)
  else pure ()

/-- `_generate_events`. -/
def generateEvents (sid : SessionId) (maxTokens : Int) (sampling : Server.Sampling) : StreamProg β η ε Unit := do
  serve fun _ => Proc.ofExcept (Server.checkArguments maxTokens sampling)
  let session ← serve fun _ => Server.callStore vs (SessionStore.getSession sid)
  let verifier ← serve fun _ => Server.resolve vs sid
  if session.nextGlobalPosition = 0 then
    Prog.raise (.raised (.valueError ("session has no history yet; AppendTokens must precede Generate " ++
      "(the first token's logits are the prefill's last position)")))
  else do
    yieldTruncated sid session
    let t0 ← serve fun m => pure m.clock
    generateLoop vs kvLiveBytes sid verifier session.eosTokenIds t0 maxTokens.toNat 0

/-- The `finally` of `guarded`. -/
def release {α : Type} (sid : SessionId) (r : Except (StreamError ε) α) : StreamProg β η ε α := do
  serve fun _ => Server.leaveGuard sid
  .done r

/-- `guarded`, from the `try` on. -/
def guarded (sid : SessionId) (maxTokens : Int) (sampling : Server.Sampling) : StreamProg β η ε Unit := do
  .atomic .outside fun _ => onServer (Server.enterGuard sid)
  (generateEvents vs kvLiveBytes sid maxTokens sampling).andThen (release sid)

/-- `generate`: a generator that has not started yet. -/
def generate (sid : SessionId) (maxTokens : Int) (sampling : Server.Sampling) : StreamProg β η ε Unit := do
  await .outside
  guarded vs kvLiveBytes sid maxTokens sampling

/-! ### Streams that are not closed -/

section

variable {α α' : Type}

theorem run_onServer (x : ServerProc β ε α) (m : Metered β ε) :
    (onServer x).run m = ((x.run m.server).1.mapError .raised, { m with server := (x.run m.server).2 }) := by
  unfold onServer
  rw [Proc.run_focus]
  rcases x.run m.server with ⟨e | a, s⟩
  · rfl
  · rfl

/-- With inputs that do not close the stream, it does to the server what `q` can do. -/
def Mimics (p : StreamProg β η ε α) (q : ServerProg β ε α) : Prop :=
  ∀ input : Nat → Pull, (∀ n, (input n).closed = false) → ∀ n m, ∃ r, (p.alone input n m).1 = r.mapError .raised ∧
    q.Ends m.server r (p.alone input n m).2.server

/-- A program that returns and leaves the server as it is. -/
def Skips (p : StreamProg β η ε Unit) : Prop :=
  ∀ input : Nat → Pull, (∀ n, (input n).closed = false) → ∀ n m, (p.alone input n m).1 = .ok () ∧
    (p.alone input n m).2.server = m.server

theorem Mimics.done (r : Except (OperationError ε) α) :
    Mimics (.done (r.mapError .raised) : StreamProg β η ε α) (.done r) :=
  fun _ _ _ m => ⟨r, rfl, .done r m.server⟩

theorem Mimics.bind {p : StreamProg β η ε α} {q : ServerProg β ε α} {f : α → StreamProg β η ε α'}
    {g : α → ServerProg β ε α'} (hp : Mimics p q) (hf : ∀ a, Mimics (f a) (g a)) : Mimics (p >>= f) (q >>= g) := by
  intro input hinput n m
  obtain ⟨r, hr, hends⟩ := hp input hinput n m
  obtain ⟨n', hbind⟩ := Prog.alone_bind p input n m
  rw [hbind f]
  rcases hrun : p.alone input n m with ⟨r', m'⟩
  rw [hrun] at hr hends
  cases r with
  | error e =>
    obtain rfl : r' = .error (.raised e) := hr
    exact ⟨.error e, rfl, hends.bind_error⟩
  | ok a =>
    obtain rfl : r' = .ok a := hr
    obtain ⟨r, hr', hends'⟩ := hf a input hinput n' m'
    exact ⟨r, hr', hends.bind hends'⟩

theorem Mimics.andThen {p : StreamProg β η ε α} {q : ServerProg β ε α}
    {f : Except (StreamError ε) α → StreamProg β η ε α'} {g : Except (OperationError ε) α → ServerProg β ε α'}
    (hp : Mimics p q) (hf : ∀ r, Mimics (f (r.mapError .raised)) (g r)) : Mimics (p.andThen f) (q.andThen g) := by
  intro input hinput n m
  obtain ⟨r, hr, hends⟩ := hp input hinput n m
  obtain ⟨n', handThen⟩ := Prog.alone_andThen p input n m
  rw [handThen f, hr]
  obtain ⟨r', hr', hends'⟩ := hf r input hinput n' (p.alone input n m).2
  exact ⟨r', hr', hends.andThen hends'⟩

/-- A step before which or after which nothing is done to the server. -/
theorem Mimics.skip {p : StreamProg β η ε Unit} {p' : StreamProg β η ε α} {q : ServerProg β ε α} (hp : Skips p)
    (hp' : Mimics p' q) : Mimics (p >>= fun _ => p') q := by
  intro input hinput n m
  obtain ⟨hok, hserver⟩ := hp input hinput n m
  obtain ⟨n', hbind⟩ := Prog.alone_bind p input n m
  rw [hbind fun _ => p', ← hserver]
  rcases hrun : p.alone input n m with ⟨r, m'⟩
  rw [hrun] at hok
  obtain rfl : r = .ok () := hok
  exact hp' input hinput n' m'

theorem Mimics.then_skip {p : StreamProg β η ε Unit} {p' : StreamProg β η ε Unit} {q : ServerProg β ε Unit}
    (hp : Mimics p q) (hp' : Skips p') : Mimics (p >>= fun _ => p') q := by
  intro input hinput n m
  obtain ⟨r, hr, hends⟩ := hp input hinput n m
  obtain ⟨n', hbind⟩ := Prog.alone_bind p input n m
  rw [hbind fun _ => p']
  rcases hrun : p.alone input n m with ⟨r', m'⟩
  rw [hrun] at hr hends
  cases r with
  | error e =>
    obtain rfl : r' = .error (.raised e) := hr
    exact ⟨.error e, rfl, hends⟩
  | ok a =>
    obtain rfl : r' = .ok a := hr
    obtain ⟨hok, hserver⟩ := hp' input hinput n' m'
    refine ⟨.ok (), hok, ?_⟩
    dsimp only
    rw [hserver]
    exact hends

theorem Mimics.atomic {k : StreamLabel η} (k' : StepLabel) (x : Moment → ServerProc β ε α) :
    Mimics (.atomic k fun i => onServer (x i.toMoment)) (.atomic k' x) := by
  intro input _ n m
  refine ⟨((x (input n).toMoment).run m.server).1, ?_, Prog.Ends.atomic (input n).toMoment ?_⟩
  · show ((onServer (x (input n).toMoment)).run m).1 = _
    rw [run_onServer]
  · show _ = (_, ((onServer (x (input n).toMoment)).run m).2.server)
    rw [run_onServer]

theorem serve_mimics (k : StepLabel) (x : Moment → ServerProc β ε α) :
    Mimics (serve x : StreamProg β η ε α) (.atomic k x) := Mimics.atomic k x

theorem Skips.atomic {k : StreamLabel η} {x : Pull → StreamProc β ε Unit}
    (hx : ∀ i m, i.closed = false → ((x i).run m).1 = .ok () ∧ ((x i).run m).2.server = m.server) :
    Skips (.atomic k x) := fun input hinput n m => hx (input n) m (hinput n)

theorem await_skips (k : StreamLabel η) : Skips (await k : StreamProg β η ε Unit) := by
  refine Skips.atomic fun i m hi => ?_
  rw [hi]
  exact ⟨rfl, rfl⟩

theorem yieldEvent_mimics (sid : SessionId) (event : Int → GenerateEvent) :
    Mimics (yieldEvent sid event : StreamProg β η ε Unit) (Server.yieldEvent sid event) :=
  (serve_mimics .other fun m => Server.reveal sid (.event (event m.clock))).then_skip (await_skips .inside)

theorem syncSlabBytes_server (sid : SessionId) (verifier : η) (m : Metered β ε) :
    ((syncSlabBytes kvLiveBytes sid verifier).run m).2.server = m.server := by
  unfold syncSlabBytes
  rw [Proc.run_modify]
  split
  · rfl
  · rfl

theorem finish_mimics (sid : SessionId) (verifier : η) (reason : StopReason) (count : Nat) (t0 : Int) :
    Mimics (finish kvLiveBytes sid verifier reason count t0 : StreamProg β η ε Unit)
      (Server.yieldDone sid reason count t0) := by
  refine Mimics.skip (Skips.atomic fun _ m _ => ⟨rfl, syncSlabBytes_server kvLiveBytes sid verifier m⟩) ?_
  exact Mimics.skip (Skips.atomic fun _ _ _ => ⟨rfl, rfl⟩) (yieldEvent_mimics sid _)

theorem generateLoop_mimics (sid : SessionId) (verifier : η) (eos : List Token) (t0 : Int) (left count : Nat) :
    Mimics (generateLoop vs kvLiveBytes sid verifier eos t0 left count)
      (Server.generateLoop vs sid verifier eos t0 left count) := by
  induction left generalizing count with
  | zero => exact finish_mimics kvLiveBytes sid verifier .maxTokens count t0
  | succ left ih =>
    unfold generateLoop Server.generateLoop
    refine Mimics.bind (Mimics.atomic .other fun m => pure m.cancelled) fun cancelled => ?_
    cases cancelled with
    | true =>
      rw [if_pos rfl, if_pos rfl]
      exact yieldEvent_mimics sid _
    | false =>
      rw [if_neg (by simp), if_neg (by simp)]
      refine Mimics.bind (serve_mimics .other _) fun t => ?_
      refine Mimics.bind (serve_mimics .other _) fun _ => ?_
      refine Mimics.bind (serve_mimics .other _) fun _ => ?_
      refine Mimics.bind (serve_mimics .other _) fun _ => ?_
      refine Mimics.bind (yieldEvent_mimics sid _) fun _ => ?_
      by_cases ht : t ∈ eos
      · rw [if_pos ht, if_pos ht]
        exact finish_mimics kvLiveBytes sid verifier .eos (count + 1) t0
      · rw [if_neg ht, if_neg ht]
        exact ih (count + 1)

theorem generateEvents_mimics (sid : SessionId) (maxTokens : Int) (sampling : Server.Sampling) :
    Mimics (generateEvents vs kvLiveBytes sid maxTokens sampling) (Server.generateEvents vs sid maxTokens sampling) := by
  refine Mimics.bind (serve_mimics .other _) fun _ => ?_
  refine Mimics.bind (serve_mimics .other _) fun session => ?_
  refine Mimics.bind (serve_mimics (.resolve sid) _) fun verifier => ?_
  by_cases hpos : session.nextGlobalPosition = 0
  · rw [if_pos hpos, if_pos hpos]
    exact Mimics.done (.error _)
  · rw [if_neg hpos, if_neg hpos]
    refine Mimics.bind ?_ fun _ => ?_
    · unfold yieldTruncated Server.yieldTruncated
      split
      · exact yieldEvent_mimics sid _
      · exact Mimics.done (.ok ())
    · refine Mimics.bind (serve_mimics .other fun m => pure m.clock) fun t0 => ?_
      exact generateLoop_mimics vs kvLiveBytes sid verifier session.eosTokenIds t0 maxTokens.toNat 0

/-- A stream that is not closed does to the server what `Server.generate` does. -/
theorem streamed_generates (sid : SessionId) (maxTokens : Int) (sampling : Server.Sampling) :
    Mimics (generate vs kvLiveBytes sid maxTokens sampling) (Server.generate vs sid maxTokens sampling) := by
  refine Mimics.skip (await_skips .outside) (Mimics.bind (Mimics.atomic .other fun _ => Server.enterGuard sid) fun _ => ?_)
  refine Mimics.andThen (generateEvents_mimics vs kvLiveBytes sid maxTokens sampling) fun r => ?_
  exact Mimics.bind (serve_mimics .other _) fun _ => Mimics.done r

end

/-! ### Streams in company -/

/-- What a stream is asked for: `max_tokens` and the sampling parameters. -/
abbrev Request : Type := Int × Server.Sampling

/-- The streams of a coordinator. -/
abbrev Company (β η ε : Type) : Type := Pool (StreamLabel η) Pull (Metered β ε) (StreamError ε) Unit SessionId

/-- The coordinator before the first stream. -/
def opened (store : SessionStore) (b : β) : Company β η ε := { shared := { server := { store := store, verifiers := b } } }

/-- A stream is asked for or goes on, or something else happens. -/
def step {τ : Type} (turn : τ → Metered β ε → Metered β ε) (p : Company β η ε) (m : Move Pull SessionId Request τ) :
    Unit × Company β η ε :=
  p.move (fun sid request => generate vs kvLiveBytes sid request.1 request.2) turn m

/-- Whether the next step is made under the guard. -/
def underGuard {α : Type} (q : StreamProg β η ε α) : Bool := q.pending.any fun k => !k matches .outside

/-- Whether a stream is under the guard. -/
def Active (p : Company β η ε) (name : SessionId × Nat) : Prop := (p.programs.get? name).any underGuard = true

end Stream

end KakeyaEngine
