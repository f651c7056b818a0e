import KakeyaEngine.Lib.Proc
import KakeyaEngine.Lib.Machine
import KakeyaEngine.Decode.Child

/-!
# The router of the decode worker

`DecodeWorkerClient` owns the worker process, and a checkpoint for each session from which a lost session is rebuilt.
A request that gets no reply ends with the worker stopped; a session request then starts a new worker, restores the
session from its checkpoint and sends the request once more.

What the worker process does on its own is the environment's choice.  A connected worker carries its `Fate`, the
number of replies it still gives before it dies or hangs, and whether it has executed the request it leaves
unanswered.  `starts` lists what becomes of the workers to be started; a worker beyond the list never fails.
-/

namespace KakeyaEngine

/-! ### The worker process -/

/-- How a worker fails: it gives `answers` more replies and leaves the next request unanswered, executed or not,
because it died or because it hangs. -/
structure Fate where
  answers : Nat
  handled : Bool
  hangs : Bool
deriving DecidableEq

/-- A connected worker process; one without a fate never fails. -/
structure Worker (V : Type) where
  runtime : Runtime V
  fate : Option Fate

/-- What becomes of a worker that is started: it ends before it accepts the connection, or it is connected. -/
inductive StartOutcome
  | exits
  | connects (fate : Option Fate)
deriving DecidableEq

/-- The exceptions of the router. -/
inductive RouterError
  | unavailable (message : String)
  | remote (errorType message : String)
  | valueError (message : String)
  | sessionClosed (message : String)
  | cancelled (message : String)
deriving DecidableEq

/-- The exception for an error reply of the child. -/
def RouterError.ofChild (e : ChildError) : RouterError :=
  if e.errorType = "ValueError" then .valueError e.message else .remote e.errorType e.message

/-- The errors that report an application error of the child. -/
def RouterError.isApplication : RouterError → Bool
  | remote .. => true
  | valueError _ => true
  | _ => false

namespace Worker

variable {V : Type} (ver : Verifier V)

/-- One reply less to give. -/
def spend (fate : Option Fate) : Option Fate := fate.map fun f => { f with answers := f.answers - 1 }

/-- The text of the exception for a request that the worker leaves unanswered. -/
def lossText (w : Worker V) (operation : String) : String :=
  if (w.fate.map Fate.hangs).getD false then "decode worker " ++ operation ++ " timed out"
  else "decode worker closed the socket"

/-- The worker's reply to a request, if it gives one, and the worker after it.  A child that cannot frame its error
reply ends. -/
def answer (w : Worker V) (req : Request) : Option (Except ChildError Result) × Worker V :=
  match w.fate with
  | some ⟨0, handled, _⟩ => (none, if handled then { w with runtime := (w.runtime.serve ver req).2 } else w)
  | _ =>
    match w.runtime.serve ver req with
    | (.ok res, runtime) => (some (.ok res), ⟨runtime, spend w.fate⟩)
    | (.error e, runtime) => (if e.fits then some (.error e) else none, ⟨runtime, spend w.fate⟩)

end Worker

/-! ### The router's state -/

/-- `ProofCheckpoint`: what a session is rebuilt from, a snapshot and the tokens committed after it. -/
structure ProofCheckpoint where
  snapshot : Option Bytes := none
  compatibility : Option CacheCompatibility := none
  replayTokenIds : List Token := []
  initialized : Bool := false
deriving DecidableEq

/-- The bookkeeping of a `DecodeWorkerSession`.  A handle is named by its session id. -/
structure Proxy where
  cachedTokenSequence : List Token := []
  nextGlobalPosition : Nat := 0
  kvLiveBytes : Nat := 0
deriving DecidableEq

/-- `DecodeWorkerClient`. -/
structure Router (V : Type) where
  worker : Option (Worker V) := none
  checkpoints : Dict SessionId ProofCheckpoint := Dict.empty
  proxies : Dict SessionId Proxy := Dict.empty
  generation : Nat := 0
  restoredGeneration : Dict SessionId Nat := Dict.empty
  restartCount : Nat := 0
  starts : List StartOutcome := []

/-- A procedure of the router. -/
abbrev RouterProc (V : Type) (α : Type) : Type := Proc (Router V) RouterError α

namespace Router

section

variable {V : Type}

/-- The child's verifier of a session, when a worker is connected. -/
def slot (r : Router V) (sid : SessionId) : Option V := r.worker.bind fun w => w.runtime.sessions.get? sid

/-- The checkpoint of a session; an unknown session has the one it would be opened with. -/
def checkpoint (r : Router V) (sid : SessionId) : ProofCheckpoint := (r.checkpoints.get? sid).getD {}

/-- Whether the session has a checkpoint that was not restored in the current worker. -/
def isStale (r : Router V) (sid : SessionId) : Bool :=
  (r.checkpoint sid).initialized && decide (r.restoredGeneration.get? sid ≠ some r.generation)

end

variable {V : Type} (ver : Verifier V)

/-- `_stop_locked`. -/
def stopLocked : RouterProc V Unit := Proc.modify fun r => { r with worker := none }

/-- `_request_with_payload_locked`.  With `cancelled`, the cancel event is found set while the reply is awaited. -/
def requestLocked (req : Request) (cancelled : Bool) : RouterProc V Result := do
  let r ← Proc.get
  match r.worker with
  | none => Proc.raise (.unavailable "decode worker is not connected")
  | some w =>
    if req.fits = false then do
      stopLocked
      Proc.raise (.unavailable frameError.message)
    else if cancelled then do
      stopLocked
      Proc.raise (.cancelled ("decode worker " ++ req.operation ++ " cancelled"))
    else
      match w.answer ver req with
      | (none, _) => do
        stopLocked
        Proc.raise (.unavailable (w.lossText req.operation))
      | (some (.ok res), w') => do
        Proc.modify fun r => { r with worker := some w' }
        pure res
      | (some (.error e), w') => do
        Proc.modify fun r => { r with worker := some w' }
        Proc.raise (.ofChild e)

/-- `start`: the old worker is stopped, and the new one counts as a generation once it has reported its health. -/
def start : RouterProc V Unit := do
  stopLocked
  let r ← Proc.get
  let outcome := r.starts.headD (.connects none)
  Proc.modify fun r => { r with starts := r.starts.tail }
  match outcome with
  | .exits => Proc.raise (.unavailable "decode worker exited during startup")
  | .connects fate => do
    Proc.modify fun r => { r with worker := some ⟨⟨Dict.empty⟩, fate⟩ }
    let _ ← requestLocked ver .health false
    Proc.modify fun r => { r with generation := r.generation + 1 }

/-- `_mark_current`. -/
def markCurrent (sid : SessionId) : RouterProc V Unit :=
  Proc.modify fun r => { r with restoredGeneration := r.restoredGeneration.set sid r.generation }

/-- The part of `_restore_locked` after `Init` of a session with a snapshot. -/
def restoreSnapshot (sid : SessionId) (cp : ProofCheckpoint) : RouterProc V Unit := do
  match cp.snapshot with
  | none => pure ()
  | some snapshot => do
    let _ ← requestLocked ver (.session sid (.importSnapshot snapshot cp.compatibility)) false
    if cp.replayTokenIds = [] then pure ()
    else do
      let _ ← requestLocked ver (.session sid (.append cp.replayTokenIds)) false
      pure ()

/-- `_restore_locked`. -/
def restoreLocked (sid : SessionId) : RouterProc V Unit := do
  let r ← Proc.get
  let cp := r.checkpoint sid
  if cp.initialized = false then pure ()
  else do
    let initialTokens := if cp.snapshot = none then cp.replayTokenIds else []
    let _ ← requestLocked ver (.session sid (.init initialTokens)) false
    restoreSnapshot ver sid cp
    markCurrent sid

/-- The operations that `_session_request` sends without restoring the session first. -/
def skipsRestore : SessionOp → Bool
  | .init _ => true
  | .importSnapshot .. => true
  | .close => true
  | _ => false

/-- Whether the cancel event is set in the given attempt; `cancelAt` is the first attempt that finds it set. -/
def cancelledIn (cancelAt : Option Nat) (attempt : Nat) : Bool :=
  match cancelAt with
  | none => false
  | some k => decide (k ≤ attempt)

/-- The second attempt of `_session_request`: a new worker, the session restored, the request once more. -/
def retry (sid : SessionId) (op : SessionOp) (cancelAt : Option Nat) : RouterProc V Result := do
  Proc.modify fun r => { r with restartCount := r.restartCount + 1 }
  start ver
  restoreLocked ver sid
  requestLocked ver (.session sid op) (cancelledIn cancelAt 1)

/-- The attempts of `_session_request`: only an unavailable worker is tried twice. -/
def attempts (sid : SessionId) (op : SessionOp) (cancelAt : Option Nat) : RouterProc V Result :=
  (requestLocked ver (.session sid op) (cancelledIn cancelAt 0)).handle fun e =>
    match e with
    | .unavailable _ => retry ver sid op cancelAt
    | e => Proc.raise e

/-- `_session_request`.  The restore of a stale session is outside the attempts. -/
def sessionRequest (sid : SessionId) (op : SessionOp) (cancelAt : Option Nat) : RouterProc V Result := do
  let r ← Proc.get
  if skipsRestore op = false ∧ r.isStale sid then do
    restoreLocked ver sid
    attempts ver sid op cancelAt
  else attempts ver sid op cancelAt

/-! ### The operations of a session -/

/-- `_checkpoint_locked`. -/
def checkpointLocked (sid : SessionId) : RouterProc V ProofCheckpoint := do
  let r ← Proc.get
  match r.checkpoints.get? sid with
  | some cp => pure cp
  | none => Proc.raise (.sessionClosed ("decode session '" ++ sid ++ "' is closed"))

/-- The session's state in a reply. -/
def resultState : Result → Option SessionState
  | .state s => some s
  | .imported s .. => some s
  | .exported s .. => some s
  | .generated s .. => some s
  | _ => none

/-- `_apply`. -/
def applyState (r : Router V) (sid : SessionId) (res : Result) : Dict SessionId Proxy :=
  match resultState res, r.proxies.get? sid with
  | some s, some _ => r.proxies.set sid ⟨s.cachedTokenIds, s.nextGlobalPosition, s.kvLiveBytes⟩
  | _, _ => r.proxies

/-- What a session operation writes after its reply: the checkpoint, with `marks` the generation it is current in, and
the proxy's bookkeeping. -/
def publish (r : Router V) (sid : SessionId) (cp : ProofCheckpoint) (marks : Bool) (res : Result) : Router V :=
  { r with
    checkpoints := r.checkpoints.set sid cp,
    restoredGeneration := if marks then r.restoredGeneration.set sid r.generation else r.restoredGeneration,
    proxies := r.applyState sid res }

/-- A session operation of one request: nothing is written before the reply has arrived. -/
def commitRequest (sid : SessionId) (op : SessionOp) (cancelAt : Option Nat)
    (commit : ProofCheckpoint → Result → ProofCheckpoint) (marks : Bool) : RouterProc V Result := do
  let cp ← checkpointLocked sid
  let state ← sessionRequest ver sid op cancelAt
  Proc.modify fun r => r.publish sid (commit cp state) marks state
  pure state

/-- `get`. -/
def get (sid : SessionId) : RouterProc V Unit :=
  Proc.modify fun r =>
    match r.proxies.get? sid with
    | some _ => r
    | none =>
      { r with
        proxies := r.proxies.set sid {},
        checkpoints := if r.checkpoints.contains sid then r.checkpoints else r.checkpoints.set sid {} }

/-- Drops everything the router holds for a session. -/
def forget (r : Router V) (sid : SessionId) : Router V :=
  { r with
    checkpoints := r.checkpoints.erase sid, proxies := r.proxies.erase sid,
    restoredGeneration := r.restoredGeneration.erase sid }

/-- `close_session`.  A `ValueError` of the child is no `DecodeWorkerError` and is not swallowed. -/
def closeSession (sid : SessionId) : RouterProc V Unit := do
  Proc.handle (do let _ ← requestLocked ver (.session sid .close) false; pure ()) fun e =>
    match e with
    | .valueError message => Proc.raise (.valueError message)
    | .cancelled message => Proc.raise (.cancelled message)
    | _ => pure ()
  Proc.modify fun r => r.forget sid

/-- `prefill`. -/
def prefill (sid : SessionId) (promptIds : List Token) (cancelAt : Option Nat) : RouterProc V Result :=
  commitRequest ver sid (.init promptIds) cancelAt (fun _ _ => ⟨none, none, promptIds, true⟩) true

/-- `append_accepted_tokens`. -/
def appendAcceptedTokens (sid : SessionId) (tokens : List Token) (cancelAt : Option Nat) : RouterProc V Result :=
  commitRequest ver sid (.append tokens) cancelAt
    (fun cp _ => { cp with replayTokenIds := cp.replayTokenIds ++ tokens }) false

/-- The token of a generation reply.  The child answers `GenerateStep` with nothing else. -/
def resultToken : Result → Token
  | .generated _ tokenId _ => tokenId
  | _ => 0

/-- `generate_step`. -/
def generateStep (sid : SessionId) (cancelAt : Option Nat) : RouterProc V Result :=
  commitRequest ver sid .generateStep cancelAt
    (fun cp state => { cp with replayTokenIds := cp.replayTokenIds ++ [resultToken state] }) false

/-- `import_snapshot`: the session is replaced by an empty one before the snapshot is imported. -/
def importSnapshot (sid : SessionId) (payload : Bytes) (compatibility : CacheCompatibility) :
    RouterProc V Result := do
  let _ ← checkpointLocked sid
  let _ ← sessionRequest ver sid (.init []) none
  let state ← sessionRequest ver sid (.importSnapshot payload (some compatibility)) none
  Proc.modify fun r => r.publish sid ⟨some payload, some compatibility, [], true⟩ true state
  pure state

/-- `reset`. -/
def reset (sid : SessionId) : RouterProc V Result :=
  commitRequest ver sid (.init []) none (fun _ _ => ⟨none, none, [], true⟩) true

end Router

/-! ### Runs -/

/-- A call of the router. -/
inductive Call
  | get (sid : SessionId)
  | closeSession (sid : SessionId)
  | prefill (sid : SessionId) (promptIds : List Token) (cancelAt : Option Nat)
  | appendAcceptedTokens (sid : SessionId) (tokens : List Token) (cancelAt : Option Nat)
  | generateStep (sid : SessionId) (cancelAt : Option Nat)
  | importSnapshot (sid : SessionId) (payload : Bytes) (compatibility : CacheCompatibility)
  | reset (sid : SessionId)
  | health
  | hardKill
deriving DecidableEq

/-- What happens to the router: a call, or a turn in the fate of the connected worker. -/
inductive RouterEvent
  | call (c : Call)
  | turn (fate : Option Fate)
deriving DecidableEq

namespace Router

variable {V : Type} (ver : Verifier V)

/-- The procedure of a call; it returns the child's result, if the call has one. -/
def perform : Call → RouterProc V (Option Result)
  | .get sid => do get sid; pure none
  | .closeSession sid => do closeSession ver sid; pure none
  | .prefill sid ts k => do let res ← prefill ver sid ts k; pure (some res)
  | .appendAcceptedTokens sid ts k => do let res ← appendAcceptedTokens ver sid ts k; pure (some res)
  | .generateStep sid k => do let res ← generateStep ver sid k; pure (some res)
  | .importSnapshot sid p c => do let res ← importSnapshot ver sid p c; pure (some res)
  | .reset sid => do let res ← reset ver sid; pure (some res)
  | .health => do let res ← requestLocked ver .health false; pure (some res)
  | .hardKill => do stopLocked; pure none

/-- The router after the first worker was connected. -/
def launched (starts : List StartOutcome) : Router V :=
  { worker := some ⟨⟨Dict.empty⟩, none⟩, generation := 1, starts := starts }

/-- A step of a run: the outcome of the call, if the event is one, and the router after it. -/
def step (r : Router V) : RouterEvent → Option (Except RouterError (Option Result)) × Router V
  | .call c => (some ((perform ver c).run r).1, ((perform ver c).run r).2)
  | .turn fate => (none, { r with worker := r.worker.map fun w => { w with fate := fate } })

/-! ### What a request, a start and a restore can do -/

/-- The health request is within the protocol limits. -/
theorem health_fits : Request.health.fits = true := by decide +kernel

/-- A request got no reply: the exception is none of the application, and no worker is left. -/
def Lost {α : Type} (r : Router V) (x : Except RouterError α) (r' : Router V) : Prop :=
  ∃ e, x = .error e ∧ e.isApplication = false ∧ r' = { r with worker := none }

/-- The child served the operation on its session and replied; nothing else changed. -/
structure Served (sid : SessionId) (op : SessionOp) (r : Router V) (reply : Except ChildError Result)
    (r' : Router V) : Prop where
  connected : r.worker.isSome
  books : ∃ w', r' = { r with worker := some w' }
  fits : (Request.session sid op).fits = true
  serves : serveSession ver sid op (r.slot sid) = (reply, r'.slot sid)
  frame : ∀ s, s ≠ sid → r'.slot s = r.slot s

theorem run_requestLocked (req : Request) (cancelled : Bool) (r : Router V) :
    (requestLocked ver req cancelled).run r =
      match r.worker with
      | none => (.error (.unavailable "decode worker is not connected"), r)
      | some w =>
        if req.fits = false then (.error (.unavailable frameError.message), { r with worker := none })
        else if cancelled then
          (.error (.cancelled ("decode worker " ++ req.operation ++ " cancelled")), { r with worker := none })
        else
          match w.answer ver req with
          | (none, _) => (.error (.unavailable (w.lossText req.operation)), { r with worker := none })
          | (some (.ok res), w') => (.ok res, { r with worker := some w' })
          | (some (.error e), w') => (.error (.ofChild e), { r with worker := some w' }) := by
  unfold requestLocked
  rw [Proc.run_get_bind]
  cases hw : r.worker with
  | none => rfl
  | some w =>
    dsimp only
    split
    · rfl
    · split
      · rfl
      · rcases w.answer ver req with ⟨_ | _ | _, _⟩ <;> rfl

/-- A reply is the one of the runtime, which keeps the sessions that it left. -/
theorem Worker.answer_some {w w' : Worker V} {req : Request} {reply : Except ChildError Result}
    (h : w.answer ver req = (some reply, w')) : w.runtime.serve ver req = (reply, w'.runtime) := by
  unfold Worker.answer at h
  split at h
  · simp at h
  · split at h
    · rename_i heq
      simp only [Prod.mk.injEq, Option.some.injEq] at h
      rw [heq, ← h.1, ← h.2]
    · rename_i heq
      simp only [Prod.mk.injEq, Option.ite_none_right_eq_some, Option.some.injEq] at h
      rw [heq, ← h.1.2, ← h.2]

/-- Every request is lost or replied to. -/
theorem requestLocked_cases {req : Request} {cancelled : Bool} {r r' : Router V}
    {x : Except RouterError Result} (h : (requestLocked ver req cancelled).run r = (x, r')) :
    Lost r x r' ∨
      ∃ w w' reply, r.worker = some w ∧ req.fits = true ∧ cancelled = false ∧
        w.runtime.serve ver req = (reply, w'.runtime) ∧ x = reply.mapError .ofChild ∧
        r' = { r with worker := some w' } := by
  rw [run_requestLocked] at h
  split at h
  · rename_i hw
    obtain ⟨rfl, rfl⟩ := Prod.mk.inj h
    refine .inl ⟨_, rfl, rfl, ?_⟩
    rw [← hw]
  · rename_i w hw
    split_ifs at h with hfit hc
    · exact .inl ⟨_, (congrArg Prod.fst h).symm, rfl, (congrArg Prod.snd h).symm⟩
    · exact .inl ⟨_, (congrArg Prod.fst h).symm, rfl, (congrArg Prod.snd h).symm⟩
    · have hf : req.fits = true := by simpa using hfit
      have hc : cancelled = false := by simpa using hc
      split at h
      · exact .inl ⟨_, (congrArg Prod.fst h).symm, rfl, (congrArg Prod.snd h).symm⟩
      · rename_i res w' ha
        exact .inr ⟨w, w', _, hw, hf, hc, Worker.answer_some ver ha, (congrArg Prod.fst h).symm,
          (congrArg Prod.snd h).symm⟩
      · rename_i e w' ha
        exact .inr ⟨w, w', _, hw, hf, hc, Worker.answer_some ver ha, (congrArg Prod.fst h).symm,
          (congrArg Prod.snd h).symm⟩

/-- Every session request is lost or served by the child. -/
theorem sessionRequestLocked_cases {sid : SessionId} {op : SessionOp} {cancelled : Bool} {r r' : Router V}
    {x : Except RouterError Result} (h : (requestLocked ver (.session sid op) cancelled).run r = (x, r')) :
    Lost r x r' ∨ ∃ reply, Served ver sid op r reply r' ∧ cancelled = false ∧ x = reply.mapError .ofChild := by
  rcases requestLocked_cases ver h with hl | ⟨w, w', reply, hw, hf, hc, hs, hx, hr⟩
  · exact .inl hl
  · refine .inr ⟨reply, ⟨by simp [hw], ⟨w', hr⟩, hf, ?_, ?_⟩, hc, hx⟩
    · have h1 := congrArg Prod.fst hs
      have h2 := Runtime.get?_serve ver w.runtime sid sid op
      rw [hs] at h2
      simp only [↓reduceIte] at h2
      have hslot : r.slot sid = w.runtime.sessions.get? sid := by simp [slot, hw]
      have hslot' : r'.slot sid = w'.runtime.sessions.get? sid := by simp [slot, hr]
      rw [hslot, hslot', h2]
      exact Prod.ext h1 rfl
    · intro s hs'
      have h2 := Runtime.get?_serve ver w.runtime sid s op
      rw [hs] at h2
      simpa [slot, hw, hr, hs'] using h2

/-- A start ends without a worker, or with one that holds no session and a new generation. -/
theorem start_cases {r r' : Router V} {x : Except RouterError Unit} (h : (start ver).run r = (x, r')) :
    (∃ e, x = .error e ∧ e.isApplication = false ∧ r' = { r with worker := none, starts := r.starts.tail }) ∨
      ∃ fate, x = .ok () ∧
        r' = { r with
          worker := some ⟨⟨Dict.empty⟩, fate⟩, starts := r.starts.tail, generation := r.generation + 1 } := by
  unfold start stopLocked at h
  simp only [Proc.run_modify_bind, Proc.run_get_bind] at h
  split at h
  · exact .inl ⟨_, (congrArg Prod.fst h).symm, rfl, (congrArg Prod.snd h).symm⟩
  · rename_i fate _
    simp only [Proc.run_modify_bind] at h
    rw [Proc.run_bind] at h
    rcases hq : (requestLocked ver .health false).run
      { r with worker := some ⟨⟨Dict.empty⟩, fate⟩, starts := r.starts.tail } with ⟨y, r1⟩
    rw [hq] at h
    rcases requestLocked_cases ver hq with ⟨e, rfl, he, rfl⟩ | ⟨w, w', reply, hw, -, -, hs, rfl, rfl⟩
    · exact .inl ⟨e, (congrArg Prod.fst h).symm, he, (congrArg Prod.snd h).symm⟩
    · obtain rfl : ⟨⟨Dict.empty⟩, fate⟩ = w := by simpa using hw
      obtain ⟨rfl, hrt⟩ : Except.ok (Result.health 0) = reply ∧ (⟨Dict.empty⟩ : Runtime V) = w'.runtime := by
        simpa [Runtime.serve] using hs
      obtain ⟨rfl, rfl⟩ := Prod.mk.inj h
      refine .inr ⟨w'.fate, rfl, ?_⟩
      rw [hrt]

/-! ### How long a worker lasts -/

/-- The worker answers its next `n` requests. -/
def Worker.lasts (w : Worker V) (n : Nat) : Prop := ∀ f, w.fate = some f → n ≤ f.answers

/-- A worker is connected that answers its next `n` requests. -/
def Lasts (r : Router V) (n : Nat) : Prop := ∃ w, r.worker = some w ∧ Worker.lasts w n

theorem Worker.answer_of_lasts {w : Worker V} {req : Request} {res : Result} (hl : Worker.lasts w 1)
    (hs : (w.runtime.serve ver req).1 = .ok res) :
    w.answer ver req = (some (.ok res), ⟨(w.runtime.serve ver req).2, Worker.spend w.fate⟩) := by
  rcases hq : w.runtime.serve ver req with ⟨y, rt⟩
  rw [hq] at hs
  dsimp only at hs
  subst hs
  rcases hf : w.fate with _ | ⟨n, b, t⟩
  · simp [Worker.answer, hf, hq]
  · have hn : 1 ≤ n := hl _ hf
    obtain ⟨m, rfl⟩ := Nat.exists_eq_add_of_le' hn
    simp [Worker.answer, hf, hq]

theorem Worker.answer_of_not_lasts {w : Worker V} (req : Request) (hl : ¬ Worker.lasts w 1) :
    (w.answer ver req).1 = none := by
  rcases hf : w.fate with _ | ⟨n, b, t⟩
  · exact absurd (fun f hf' => by rw [hf] at hf'; cases hf') hl
  · have hn : n = 0 := by
      by_contra h
      refine hl fun f hf' => ?_
      rw [hf] at hf'
      have := congrArg Fate.answers (Option.some.inj hf')
      dsimp only at this
      omega
    subst hn
    simp [Worker.answer, hf]

/-- A request that fits is served by a worker that lasts, which then lasts for one request less. -/
theorem requestLocked_answered {r : Router V} {sid : SessionId} {op : SessionOp} {res : Result}
    {slot' : Option V} (hl : r.Lasts 1) (hfit : (Request.session sid op).fits = true)
    (hs : serveSession ver sid op (r.slot sid) = (.ok res, slot')) :
    ∃ r', (requestLocked ver (.session sid op) false).run r = (.ok res, r') ∧ Served ver sid op r (.ok res) r' ∧
      ∀ n, r.Lasts (n + 1) ↔ r'.Lasts n := by
  obtain ⟨w, hw, hlw⟩ := hl
  have hserve : (w.runtime.serve ver (.session sid op)).1 = .ok res := by
    have : r.slot sid = w.runtime.sessions.get? sid := by simp [slot, hw]
    rw [this] at hs
    simp [Runtime.serve, hs]
  have hrun : (requestLocked ver (.session sid op) false).run r =
      (.ok res, { r with worker := some ⟨(w.runtime.serve ver (.session sid op)).2, Worker.spend w.fate⟩ }) := by
    rw [run_requestLocked, hw]
    simp [hfit, Worker.answer_of_lasts ver hlw hserve]
  refine ⟨_, hrun, ?_, ?_⟩
  · rcases sessionRequestLocked_cases ver hrun with ⟨e, he, -⟩ | ⟨reply, hserved, -, hx⟩
    · cases he
    · cases reply with
      | error e => cases hx
      | ok res' =>
        obtain rfl := Except.ok.inj hx
        exact hserved
  · intro n
    constructor
    · rintro ⟨w', hw', hl'⟩
      obtain rfl : w = w' := Option.some.inj (hw.symm.trans hw')
      refine ⟨_, rfl, fun f hf => ?_⟩
      obtain ⟨f', hf', rfl⟩ := Option.map_eq_some_iff.1 hf
      have := hl' f' hf'
      dsimp only
      omega
    · rintro ⟨w', hw', hl'⟩
      obtain rfl := Option.some.inj hw'
      refine ⟨w, hw, fun f hf => ?_⟩
      have h₁ := hl' { f with answers := f.answers - 1 } (by simp [Worker.spend, hf])
      have h₂ := hlw f hf
      dsimp only at h₁
      omega

/-- A request that does not fit, or that no lasting worker is there for, ends with the worker stopped. -/
theorem requestLocked_unanswered {r : Router V} (req : Request) (h : req.fits = false ∨ ¬ r.Lasts 1) :
    ∃ m, (requestLocked ver req false).run r = (.error (.unavailable m), { r with worker := none }) := by
  rw [run_requestLocked]
  cases hw : r.worker with
  | none =>
    have hr : r = { r with worker := none } := by rw [← hw]
    exact ⟨_, Prod.ext rfl hr⟩
  | some w =>
    by_cases hfit : req.fits = false
    · exact ⟨_, by simp [hfit]; rfl⟩
    · have hl : ¬ Worker.lasts w 1 := fun hl => h.resolve_left hfit ⟨w, hw, hl⟩
      have hans := Worker.answer_of_not_lasts ver req hl
      refine ⟨w.lossText req.operation, ?_⟩
      simp only [hfit, if_false, Bool.false_eq_true]
      rcases hq : w.answer ver req with ⟨y, w'⟩
      rw [hq] at hans
      dsimp only at hans
      subst hans
      rfl

/-- A start succeeds when the next worker connects and does not fail. -/
theorem start_healthy {r : Router V} (h : r.starts.headD (.connects none) = .connects none) :
    (start ver).run r = (.ok (), { r with
      worker := some ⟨⟨Dict.empty⟩, none⟩, starts := r.starts.tail, generation := r.generation + 1 }) := by
  unfold start stopLocked
  simp only [Proc.run_modify_bind, Proc.run_get_bind, h]
  rw [Proc.run_bind, run_requestLocked]
  simp only [health_fits]
  rfl

end Router

end KakeyaEngine
