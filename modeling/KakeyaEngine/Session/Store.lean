import KakeyaEngine.Capability
import KakeyaEngine.Lib.Dict
import KakeyaEngine.Lib.Machine
import KakeyaEngine.Lib.Proc
import KakeyaEngine.Session.Pool

/-!
# The session store

`SessionStore` holds the live sessions, each with a slab of the pool when there is one.  Every operation runs under the
store's lock, and with it the callback that is told of every removal; so an operation is one procedure, which keeps what
was written before a raise.  The clock, the ids that are issued, what the cache inspector reports and whether the callback
raises are inputs.
-/

namespace KakeyaEngine

/-- The exceptions of the store.  `raised` is one that the callback or the inspector let through. -/
inductive SessionError
  | notFound (sessionId : SessionId)
  | invariantViolation (kind : String) (sessionId : SessionId) (detail : String)
  | valueError (message : String)
  | poolExhausted (message : String)
  | raised (text : String)
deriving DecidableEq

/-- `Session`. -/
structure Session where
  sessionId : SessionId
  eosTokenIds : List Token
  clientLabel : String
  historyTokenIds : List Token := []
  cachedTokenSequence : List Token := []
  nextGlobalPosition : Int := 0
  inv1Violations : Nat := 0
  inv2Violations : Nat := 0
  createdAt : Int
  lastActiveAt : Int
  slab : Option Nat := none
deriving DecidableEq

/-- `SessionStore`.  `notified` is what the removal callback has been told, with the reasons. -/
structure SessionStore where
  capacity : Nat
  hasInspector : Bool
  slabPool : Option SlabPool
  hasCallback : Bool
  sessions : Dict SessionId Session := Dict.empty
  notified : List (SessionId × String) := []

/-- What the removal callback raises for a session, if anything. -/
abbrev RemovalCallback := SessionId → Option String

abbrev SessionProc (α : Type) : Type := Proc SessionStore SessionError α

def PoolError.raised : PoolError → SessionError
  | .valueError m => .valueError m
  | .exhausted m => .poolExhausted m

namespace SessionStore

/-- `SessionStore.__init__`. -/
def create (capacity : Int) (hasInspector : Bool) (slabPool : Option SlabPool) (hasCallback : Bool) :
    Except SessionError SessionStore :=
  if capacity < 1 then .error (.valueError ("capacity must be >= 1, got " ++ toString capacity))
  else
    .ok
      { capacity := capacity.toNat, hasInspector := hasInspector, slabPool := slabPool, hasCallback := hasCallback }

/-- Whether an id resolves to a session. -/
def Live (s : SessionStore) (id : SessionId) : Prop := ∃ x, s.sessions.get? id = some x

instance (s : SessionStore) (id : SessionId) : Decidable (s.Live id) :=
  decidable_of_iff (s.sessions.contains id = true) Dict.contains_iff

/-- `get_session`. -/
def getSession (sessionId : SessionId) : SessionProc Session := do
  let s ← Proc.get
  match s.sessions.get? sessionId with
  | none => Proc.raise (.notFound sessionId)
  | some session => pure session

theorem run_getSession (s : SessionStore) (sid : SessionId) :
    (getSession sid).run s =
      match s.sessions.get? sid with
      | none => (.error (.notFound sid), s)
      | some x => (.ok x, s) := by
  unfold getSession
  rw [Proc.run_get_bind]
  cases s.sessions.get? sid <;> rfl

/-- Writes a session of the table. -/
def write (session : Session) (s : SessionStore) : SessionStore :=
  { s with sessions := s.sessions.set session.sessionId session }

/-! ### Removing sessions -/

/-- `_release_slab_if_held`. -/
def releaseSlabIfHeld (session : Session) : SessionProc Unit :=
  match session.slab with
  | none => pure ()
  | some slab => do
    Proc.modify (write { session with slab := none })
    let s ← Proc.get
    match s.slabPool with
    | none => pure ()
    | some pool =>
      match pool.release slab with
      | .error e => Proc.raise e.raised
      | .ok pool => Proc.modify fun s => { s with slabPool := some pool }

/-- Tells the callback of a removal. -/
def notify (callback : RemovalCallback) (sessionId : SessionId) (reason : String) : SessionProc Unit := do
  let s ← Proc.get
  if s.hasCallback = false then pure ()
  else do
    Proc.modify fun s => { s with notified := s.notified ++ [(sessionId, reason)] }
    match callback sessionId with
    | none => pure ()
    | some text => Proc.raise (.raised text)

/-- `_remove_session`. -/
def removeSession (callback : RemovalCallback) (session : Session) (reason : String) : SessionProc Unit := do
  releaseSlabIfHeld session
  Proc.modify fun s => { s with sessions := s.sessions.erase session.sessionId }
  notify callback session.sessionId reason

/-- `min` by the last activity: the first session that none was active before. -/
def leastActive : List (SessionId × Session) → Option Session
  | [] => none
  | e :: es =>
    some (es.foldl (fun best e => if e.2.lastActiveAt < best.lastActiveAt then e.2 else best) e.2)

/-- `_evict_one_lru`. -/
def evictOneLru (callback : RemovalCallback) : SessionProc Unit := do
  let s ← Proc.get
  match leastActive s.sessions.entries with
  | none => Proc.raise (.valueError "min() iterable argument is empty")
  | some evicted => removeSession callback evicted "lru_eviction"

/-! ### The operations -/

/-- Evicts a session when the store is full. -/
def makeRoom (callback : RemovalCallback) : SessionProc Unit := do
  let s ← Proc.get
  if s.capacity ≤ s.sessions.size then evictOneLru callback else pure ()

/-- Acquires a slab, where there is a pool. -/
def acquireSlab : SessionProc (Option Nat) := do
  let s ← Proc.get
  match s.slabPool with
  | none => pure none
  | some pool =>
    match pool.acquire with
    | .error e => Proc.raise e.raised
    | .ok (slab, pool) => do
      Proc.modify fun s => { s with slabPool := some pool }
      pure (some slab)

/-- `create_session`; `sessionId` is the id that `_issue_id` draws. -/
def createSession (callback : RemovalCallback) (sessionId : SessionId) (eosTokenIds : List Token) (clientLabel : String)
    (createdAt lastActiveAt : Int) : SessionProc Session := do
  makeRoom callback
  let slab ← acquireSlab
  let session : Session :=
    { sessionId := sessionId, eosTokenIds := eosTokenIds, clientLabel := clientLabel, createdAt := createdAt,
      lastActiveAt := lastActiveAt, slab := slab }
  Proc.modify (write session)
  pure session

/-- `_assert_inv1`; `kSeqLength` is what the inspector reports or raises. -/
def assertInv1 (callback : RemovalCallback) (session : Session) (kSeqLength : Except String Int) : SessionProc Unit := do
  let s ← Proc.get
  if s.hasInspector = false then pure ()
  else
    match kSeqLength with
    | .error text => Proc.raise (.raised text)
    | .ok actual =>
      if actual ≠ session.cachedTokenSequence.length then do
        removeSession callback { session with inv1Violations := session.inv1Violations + 1 } "inv1_failure"
        Proc.raise (.invariantViolation "1" session.sessionId
          ("cached_token_sequence length (" ++ toString session.cachedTokenSequence.length ++
            ") != K/V tensor sequence length (" ++ toString actual ++ ")"))
      else pure ()

/-- `append_tokens`. -/
def appendTokens (callback : RemovalCallback) (sessionId : SessionId) (tokenIds : List Token) (now : Int)
    (kSeqLength : Except String Int) : SessionProc Nat := do
  let session ← getSession sessionId
  match tokenIds.find? fun t => decide (t < 0) with
  | some t => Proc.raise (.valueError ("token_id must be a non-negative int, got " ++ toString t))
  | none => do
    let session :=
      { session with historyTokenIds := session.historyTokenIds ++ tokenIds, lastActiveAt := now }
    Proc.modify (write session)
    assertInv1 callback session kSeqLength
    pure session.historyTokenIds.length

/-- `close_session`. -/
def closeSession (callback : RemovalCallback) (sessionId : SessionId) : SessionProc Nat := do
  let session ← getSession sessionId
  removeSession callback session "explicit_close"
  pure session.historyTokenIds.length

/-- `remove_session_if_present`. -/
def removeSessionIfPresent (callback : RemovalCallback) (sessionId : SessionId) (reason : String) : SessionProc Bool := do
  let s ← Proc.get
  match s.sessions.get? sessionId with
  | none => pure false
  | some session => do
    removeSession callback session reason
    pure true

/-- `record_position_advance`. -/
def recordPositionAdvance (callback : RemovalCallback) (sessionId : SessionId) (newPosition now : Int) :
    SessionProc Unit := do
  let session ← getSession sessionId
  if newPosition < session.nextGlobalPosition then do
    removeSession callback { session with inv2Violations := session.inv2Violations + 1 } "inv2_failure"
    Proc.raise (.invariantViolation "2" sessionId
      ("position must be non-decreasing; current=" ++ toString session.nextGlobalPosition ++ ", requested=" ++
        toString newPosition))
  else Proc.modify (write { session with nextGlobalPosition := newPosition, lastActiveAt := now })

/-- The loop of `evict_idle` over the ids that were live when it started. -/
def evictIdleLoop (callback : RemovalCallback) (ttlSeconds clock : Int) : List SessionId → SessionProc (List Session)
  | [] => pure []
  | id :: ids => do
    let session ← getSession id
    if ttlSeconds ≤ clock - session.lastActiveAt then do
      removeSession callback session "ttl_eviction"
      let evicted ← evictIdleLoop callback ttlSeconds clock ids
      pure (session :: evicted)
    else evictIdleLoop callback ttlSeconds clock ids

/-- `evict_idle`. -/
def evictIdle (callback : RemovalCallback) (ttlSeconds clock : Int) : SessionProc (List Session) := do
  let s ← Proc.get
  evictIdleLoop callback ttlSeconds clock s.sessions.keys

/-- What a coordinator writes into a session it holds: the cached tokens and the time of the last activity. -/
def syncSession (sessionId : SessionId) (cached : List Token) (lastActiveAt : Int) : SessionProc Unit := do
  let s ← Proc.get
  match s.sessions.get? sessionId with
  | none => pure ()
  | some session =>
    Proc.modify (write { session with cachedTokenSequence := cached, lastActiveAt := lastActiveAt })

/-! ### The calls of a coordinator -/

section

variable {s : SessionStore} {sid : SessionId} {x : Session} (callback : RemovalCallback)

theorem run_syncSession (hx : s.sessions.get? sid = some x) (cached : List Token) (active : Int) :
    (syncSession sid cached active).run s =
      (.ok (), s.write { x with cachedTokenSequence := cached, lastActiveAt := active }) := by
  unfold syncSession
  rw [Proc.run_get_bind, hx]
  rfl

/-- Tokens are appended when the inspector agrees with the session. -/
theorem run_appendTokens (hx : s.sessions.get? sid = some x) {ts : List Token} (hts : ∀ t ∈ ts, 0 ≤ t) (now : Int)
    {k : Int} (hk : s.hasInspector = true → k = x.cachedTokenSequence.length) :
    (appendTokens callback sid ts now (.ok k)).run s =
      (.ok (x.historyTokenIds ++ ts).length,
        s.write { x with historyTokenIds := x.historyTokenIds ++ ts, lastActiveAt := now }) := by
  have hnone : (ts.find? fun t => decide (t < 0)) = none := by
    rw [List.find?_eq_none]
    intro t ht
    simpa using hts t ht
  have hfound : (getSession sid).run s = (.ok x, s) := by rw [run_getSession, hx]
  unfold appendTokens
  rw [Proc.run_bind_ok hfound, hnone]
  dsimp only
  rw [Proc.run_modify_bind]
  refine Proc.run_bind_ok (a := ()) ?_
  unfold assertInv1
  rw [Proc.run_get_bind]
  cases hi : s.hasInspector with
  | false => simp [write, hi]
  | true =>
    have := hk hi
    simp [write, hi, this]

/-- A negative token is refused, and nothing has changed. -/
theorem run_appendTokens_negative (hx : s.sessions.get? sid = some x) {ts : List Token} {t : Token}
    (ht : (ts.find? fun t => decide (t < 0)) = some t) (now : Int) (k : Except String Int) :
    (appendTokens callback sid ts now k).run s =
      (.error (.valueError ("token_id must be a non-negative int, got " ++ toString t)), s) := by
  have hfound : (getSession sid).run s = (.ok x, s) := by rw [run_getSession, hx]
  unfold appendTokens
  rw [Proc.run_bind_ok hfound, ht]
  rfl

theorem run_appendTokens_absent (hx : s.sessions.get? sid = none) (ts : List Token) (now : Int)
    (k : Except String Int) : (appendTokens callback sid ts now k).run s = (.error (.notFound sid), s) := by
  have hmissing : (getSession sid).run s = (.error (.notFound sid), s) := by rw [run_getSession, hx]
  unfold appendTokens
  rw [Proc.run_bind_error hmissing]

theorem run_recordPositionAdvance (hx : s.sessions.get? sid = some x) {p : Int} (hp : x.nextGlobalPosition ≤ p)
    (now : Int) :
    (recordPositionAdvance callback sid p now).run s =
      (.ok (), s.write { x with nextGlobalPosition := p, lastActiveAt := now }) := by
  have hfound : (getSession sid).run s = (.ok x, s) := by rw [run_getSession, hx]
  unfold recordPositionAdvance
  rw [Proc.run_bind_ok hfound, if_neg (by omega)]
  rfl

theorem run_recordPositionAdvance_absent (hx : s.sessions.get? sid = none) (p now : Int) :
    (recordPositionAdvance callback sid p now).run s = (.error (.notFound sid), s) := by
  have hmissing : (getSession sid).run s = (.error (.notFound sid), s) := by rw [run_getSession, hx]
  unfold recordPositionAdvance
  rw [Proc.run_bind_error hmissing]

end

end SessionStore

/-! ### Runs -/

/-- A call of the store, with the clock readings, the id and the report of the inspector that it draws. -/
inductive SessionEvent
  | createSession (sessionId : SessionId) (eosTokenIds : List Token) (clientLabel : String)
      (createdAt lastActiveAt : Int)
  | getSession (sessionId : SessionId)
  | appendTokens (sessionId : SessionId) (tokenIds : List Token) (now : Int) (kSeqLength : Except String Int)
  | closeSession (sessionId : SessionId)
  | removeSessionIfPresent (sessionId : SessionId) (reason : String)
  | recordPositionAdvance (sessionId : SessionId) (newPosition now : Int)
  | evictIdle (ttlSeconds clock : Int)
  | evictOneLru
  | syncSession (sessionId : SessionId) (cached : List Token) (lastActiveAt : Int)

/-- A call together with what the removal callback raises during it. -/
structure SessionCall where
  event : SessionEvent
  callback : RemovalCallback := fun _ => none

/-- What a call returns. -/
inductive SessionReply
  | none
  | session (x : Session)
  | length (n : Nat)
  | bool (b : Bool)
  | sessions (xs : List Session)
deriving DecidableEq

namespace SessionStore

/-- The procedure of a call. -/
def perform (callback : RemovalCallback) : SessionEvent → SessionProc SessionReply
  | .createSession id eos label created active => do
    let x ← createSession callback id eos label created active
    pure (.session x)
  | .getSession id => do let x ← getSession id; pure (.session x)
  | .appendTokens id ts now k => do let n ← appendTokens callback id ts now k; pure (.length n)
  | .closeSession id => do let n ← closeSession callback id; pure (.length n)
  | .removeSessionIfPresent id reason => do let b ← removeSessionIfPresent callback id reason; pure (.bool b)
  | .recordPositionAdvance id p now => do recordPositionAdvance callback id p now; pure .none
  | .evictIdle ttl clock => do let xs ← evictIdle callback ttl clock; pure (.sessions xs)
  | .evictOneLru => do evictOneLru callback; pure .none
  | .syncSession id cached active => do syncSession id cached active; pure .none

/-- A step of a run: what the call returned or raised, and the store after it. -/
def step (s : SessionStore) (call : SessionCall) : Except SessionError SessionReply × SessionStore :=
  (perform call.callback call.event).run s

/-- The id that a call issues. -/
def issuedId (call : SessionCall) : Option SessionId :=
  match call.event with
  | .createSession id _ _ _ _ => some id
  | _ => none

end SessionStore

end KakeyaEngine
