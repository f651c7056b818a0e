import KakeyaEngine.Lib.Dict
import KakeyaEngine.Capability

/-!
# The decode worker's child process

The child owns one verifier for each session and executes one request at a time.  A request of protocol version 1
names a session and an operation; `dispatchSession` is what the operation does to that session's slot, and
`serveSession` adds the reply: a result whose frame exceeds the protocol limits is reported as an error although the
session has already been changed.  An operation touches no other session.

The verifier is a parameter (`Verifier`).  Its operations return what they raise together with the state they leave
behind, since a verifier that raises may have been changed before.  The fault injection `InjectHang` is not an
operation here: a worker that hangs is one of the failures of `Decode.Router`.
-/

namespace KakeyaEngine

/-! ### Frames -/

/-- `MAX_HEADER_BYTES`. -/
def maxHeaderBytes : Nat := 2 ^ 20

/-- `MAX_PAYLOAD_BYTES`. -/
def maxPayloadBytes : Nat := 2 ^ 31

/-- `PROTOCOL_VERSION`. -/
def protocolVersion : Nat := 1

/-- A request id: 32 hexadecimal digits, echoed by the child.  Only its length matters here, since the child reads one
request at a time and answers it with the id it was sent. -/
def requestId : String := "00000000000000000000000000000000"

/-- The check of `_send_frame` on a header, without its payload length, and a payload. -/
def frameFits (header : List (String × List Char)) (payloadLength : Nat) : Bool :=
  decide ((Json.obj (header ++ [("payload_length", Json.nat payloadLength)])).length ≤ maxHeaderBytes) &&
    decide (payloadLength ≤ maxPayloadBytes)

/-! ### Requests and results -/

/-- An operation on one session. -/
inductive SessionOp
  | init (tokenIds : List Token)
  | close
  | importSnapshot (payload : Bytes) (compatibility : Option CacheCompatibility)
  | exportSnapshot (compatibility : Option CacheCompatibility)
  | append (tokenIds : List Token)
  | generateStep
deriving DecidableEq

/-- A request of the router. -/
inductive Request
  | health
  | session (sessionId : SessionId) (op : SessionOp)
deriving DecidableEq

namespace SessionOp

/-- The operation's name on the wire. -/
def operation : SessionOp → String
  | init _ => "Init"
  | close => "Close"
  | importSnapshot .. => "ImportSnapshot"
  | exportSnapshot _ => "ExportSnapshot"
  | append _ => "Append"
  | generateStep => "GenerateStep"

private def compatText (c : Option CacheCompatibility) : List Char :=
  Json.obj ((c.map CacheCompatibility.members).getD [])

/-- The arguments of the operation's request. -/
def arguments : SessionOp → List (String × List Char)
  | init ts => [("token_ids", Json.arr (ts.map Json.int))]
  | close => []
  | importSnapshot _ c => [("compatibility", compatText c)]
  | exportSnapshot c => [("compatibility", compatText c)]
  | append ts => [("token_ids", Json.arr (ts.map Json.int))]
  | generateStep => []

/-- The binary payload of the operation's request. -/
def payload : SessionOp → Bytes
  | importSnapshot p _ => p
  | _ => []

end SessionOp

namespace Request

/-- The operation's name on the wire. -/
def operation : Request → String
  | health => "Health"
  | session _ op => op.operation

/-- The header of the request. -/
def header (r : Request) : List (String × List Char) :=
  [("version", Json.nat protocolVersion), ("request_id", Json.str requestId),
    ("operation", Json.str r.operation),
    ("session_id", Json.str (match r with | health => "" | session sid _ => sid)),
    ("arguments", Json.obj (match r with | health => [] | session _ op => op.arguments))]

/-- Whether the request's frame is within the protocol limits. -/
def fits (r : Request) : Bool :=
  frameFits r.header (match r with | health => 0 | session _ op => op.payload.length)

private theorem one_le_length_nat (n : Nat) : 1 ≤ (Json.nat n).length := by
  unfold Json.nat
  rw [Nat.toDigits_eq_if (by decide)]
  split <;> simp

private theorem length_token_ids (t : List Char) : 14 ≤ (Json.obj [("token_ids", t)]).length := by
  have hk : (Json.str "token_ids").length = 11 := by decide
  rw [Json.length_obj]
  simp [Json.member, hk]
  omega

private theorem length_compatibility (t : List Char) : 18 ≤ (Json.obj [("compatibility", t)]).length := by
  have hk : (Json.str "compatibility").length = 15 := by decide
  rw [Json.length_obj]
  simp [Json.member, hk]
  omega

/-- The length of a session request's header is what its operation and payload add to a fixed text. -/
private theorem length_header (sid : SessionId) (op : SessionOp) (n : Nat) :
    (Json.obj ((session sid op).header ++ [("payload_length", Json.nat n)])).length =
      (Json.str op.operation).length + (Json.str sid).length + (Json.obj op.arguments).length +
        (Json.nat n).length + (Json.str requestId).length + 85 := by
  have h1 : (Json.str "version").length = 9 := by decide
  have h2 : (Json.str "request_id").length = 12 := by decide
  have h3 : (Json.str "operation").length = 11 := by decide
  have h4 : (Json.str "session_id").length = 12 := by decide
  have h5 : (Json.str "arguments").length = 11 := by decide
  have h6 : (Json.str "payload_length").length = 16 := by decide
  have h7 : (Json.nat protocolVersion).length = 1 := by decide
  unfold header
  dsimp only
  rw [List.cons_append, Json.length_obj]
  simp only [List.cons_append, List.nil_append, List.map_cons, List.map_nil, List.sum_cons, List.sum_nil,
    Json.member, List.length_append, List.length_cons, h1, h2, h3, h4, h5, h6, h7, operation]
  omega

/-- A session whose operations can be framed can be closed. -/
theorem close_fits {sid : SessionId} {op : SessionOp} (h : (session sid op).fits = true) :
    (session sid .close).fits = true := by
  simp only [fits, frameFits, Bool.and_eq_true, decide_eq_true_eq, length_header] at h ⊢
  have hn := one_le_length_nat op.payload.length
  have h0 : (Json.nat 0).length = 1 := by decide
  have hc : (Json.str SessionOp.close.operation).length = 7 := by decide
  have hargs : 9 ≤ (Json.str op.operation).length + (Json.obj op.arguments).length := by
    cases op with
    | init ts =>
      have := length_token_ids (Json.arr (ts.map Json.int))
      simp only [SessionOp.arguments]
      omega
    | close => decide
    | importSnapshot p c =>
      have := length_compatibility (SessionOp.compatText c)
      simp only [SessionOp.arguments]
      omega
    | exportSnapshot c =>
      have := length_compatibility (SessionOp.compatText c)
      simp only [SessionOp.arguments]
      omega
    | append ts =>
      have := length_token_ids (Json.arr (ts.map Json.int))
      simp only [SessionOp.arguments]
      omega
    | generateStep => decide
  have hc' : (Json.obj SessionOp.close.arguments).length = 2 := by decide
  refine ⟨?_, Nat.zero_le _⟩
  have hz : SessionOp.close.payload.length = 0 := rfl
  rw [hz]
  omega

/-- The length of a `token_ids` argument. -/
private theorem length_tokenIds (ts : List Token) :
    (Json.obj [("token_ids", Json.arr (ts.map Json.int))]).length = 14 + (Json.arr (ts.map Json.int)).length := by
  have hk : (Json.str "token_ids").length = 11 := by decide
  rw [Json.length_obj]
  simp only [List.map_cons, List.map_nil, List.sum_cons, List.sum_nil, Json.member, List.length_append, List.length_cons,
    hk]
  omega

/-- An `Init` request fits when its token text and the session id fit beside the rest of its header. -/
theorem init_fits_iff (sid : SessionId) (ts : List Token) :
    (session sid (.init ts)).fits = true ↔
      (Json.str sid).length + (Json.arr (ts.map Json.int)).length + 140 ≤ maxHeaderBytes := by
  have ho : (Json.str (SessionOp.init ts).operation).length = 6 :=
    show (Json.str "Init").length = 6 by decide
  have hz : (SessionOp.init ts).payload.length = 0 := rfl
  have h0 : (Json.nat 0).length = 1 := by decide
  have hr : (Json.str requestId).length = 34 := by decide
  simp only [fits, frameFits, Bool.and_eq_true, decide_eq_true_eq, length_header, hz, h0, hr, ho, SessionOp.arguments,
    length_tokenIds]
  omega

/-- The same for an `Append` request. -/
theorem append_fits_iff (sid : SessionId) (ts : List Token) :
    (session sid (.append ts)).fits = true ↔
      (Json.str sid).length + (Json.arr (ts.map Json.int)).length + 142 ≤ maxHeaderBytes := by
  have ho : (Json.str (SessionOp.append ts).operation).length = 8 :=
    show (Json.str "Append").length = 8 by decide
  have hz : (SessionOp.append ts).payload.length = 0 := rfl
  have h0 : (Json.nat 0).length = 1 := by decide
  have hr : (Json.str requestId).length = 34 := by decide
  simp only [fits, frameFits, Bool.and_eq_true, decide_eq_true_eq, length_header, hz, h0, hr, ho, SessionOp.arguments,
    length_tokenIds]
  omega

end Request

/-- `_state`: the bookkeeping of a session that every reply carries. -/
structure SessionState where
  cachedTokenIds : List Token
  kSeqLength : Nat
  nextGlobalPosition : Nat
  kvLiveBytes : Nat
deriving DecidableEq

/-- What an operation returns. -/
inductive Result
  | health (sessionCount : Nat)
  | state (s : SessionState)
  | imported (s : SessionState) (tokenCount : Nat) (blockHash : String)
  | exported (s : SessionState) (firstTokenId : Token) (logitsSha256 : String) (snapshot : Bytes)
  | generated (s : SessionState) (tokenId : Token) (inputLogitsSha256 : String)
  | closed (existed : Bool)
deriving DecidableEq

/-- An exception of the child, as its error reply carries it. -/
structure ChildError where
  errorType : String
  message : String
deriving DecidableEq

/-- Whether the error reply is within the protocol limits; the child process ends when it is not. -/
def ChildError.fits (e : ChildError) : Bool :=
  frameFits [("version", Json.nat protocolVersion), ("request_id", Json.str requestId), ("ok", Json.bool false),
    ("error_type", Json.str e.errorType), ("error", Json.str e.message)] 0

namespace Result

/-- The members that report a session's state. -/
def stateMembers (s : SessionState) : List (String × List Char) :=
  [("cached_token_ids", Json.arr (s.cachedTokenIds.map Json.int)), ("k_seq_length", Json.nat s.kSeqLength),
    ("next_global_position", Json.nat s.nextGlobalPosition), ("kv_live_bytes", Json.nat s.kvLiveBytes)]

/-- The result object of the reply.  A health report has a fixed set of counters; the session count stands for it. -/
def members : Result → List (String × List Char)
  | health n => [("session_count", Json.nat n)]
  | state s => stateMembers s
  | imported s n h => stateMembers s ++ [("token_count", Json.nat n), ("block_hash", Json.str h)]
  | exported s t h _ => stateMembers s ++ [("first_token_id", Json.int t), ("logits_sha256", Json.str h)]
  | generated s t h => stateMembers s ++ [("token_id", Json.int t), ("input_logits_sha256", Json.str h)]
  | closed b => [("closed", Json.bool b)]

/-- Whether the reply that carries the result is within the protocol limits. -/
def fits (r : Result) : Bool :=
  frameFits [("version", Json.nat protocolVersion), ("request_id", Json.str requestId), ("ok", Json.bool true),
    ("result", Json.obj r.members)] (match r with | exported _ _ _ p => p.length | _ => 0)

end Result

/-! ### The verifier of a session -/

/-- The verifier adapter the child is started with.  An operation that can raise returns what it raised and the state
it left; `importSnapshot` is the hook of adapters that bring their own import, `importPrefillSnapshot` the one of the
MLX adapter, which runs on a verifier that was reset and reports the token count and the block hash. -/
structure Verifier (V : Type) where
  spawn : Except ChildError V
  reset : V → V
  prefill : V → List Token → Option ChildError × V
  appendAcceptedTokens : V → List Token → Option ChildError × V
  greedyNextTokenId : V → Except ChildError Token
  logitsSha256 : V → Except ChildError String
  importSnapshot : Option (V → Bytes → Option CacheCompatibility → Option ChildError × V)
  importPrefillSnapshot : V → Bytes → Option CacheCompatibility → Except ChildError (Nat × String) × V
  exportSnapshot : V → Option CacheCompatibility → Except ChildError Bytes
  state : V → SessionState

/-- The branch `ImportSnapshot` on a session's verifier. -/
def Verifier.runImport {V : Type} (ver : Verifier V) (v : V) (payload : Bytes)
    (compatibility : Option CacheCompatibility) : Except ChildError Result × V :=
  match ver.importSnapshot with
  | some customImport =>
    match customImport v payload compatibility with
    | (some e, v') => (.error e, v')
    | (none, v') => (.ok (.state (ver.state v')), v')
  | none =>
    match ver.importPrefillSnapshot (ver.reset v) payload compatibility with
    | (.error e, v') => (.error e, v')
    | (.ok (tokenCount, blockHash), v') => (.ok (.imported (ver.state v') tokenCount blockHash), v')

/-! ### Dispatch -/

/-- The error of an operation without a session id. -/
def missingSessionId (op : SessionOp) : ChildError := ⟨"ValueError", op.operation ++ " requires session_id"⟩

/-- The error of an operation on a session the child does not hold.  The text is that of the `KeyError`, which quotes
its message, for a session id without quotes and escapes. -/
def unknownSession (sid : SessionId) : ChildError :=
  ⟨"KeyError", "\"unknown decode session '" ++ sid ++ "'\""⟩

/-- The error of a frame over the protocol limits. -/
def frameError : ChildError := ⟨"ValueError", "decode worker frame exceeds protocol limits"⟩

section

variable {V : Type} (ver : Verifier V)

/-- `GenerateStep` on a session's verifier: the greedy token is chosen and its logits are hashed before it is
committed. -/
def generateOn (v : V) : Except ChildError Result × V :=
  match ver.greedyNextTokenId v with
  | .error e => (.error e, v)
  | .ok tokenId =>
    match ver.logitsSha256 v with
    | .error e => (.error e, v)
    | .ok sha =>
      match ver.appendAcceptedTokens v [tokenId] with
      | (some e, v') => (.error e, v')
      | (none, v') => (.ok (.generated (ver.state v') tokenId sha), v')

/-- `ExportSnapshot` on a session's verifier. -/
def exportOn (v : V) (compatibility : Option CacheCompatibility) : Except ChildError Result :=
  match ver.exportSnapshot v compatibility with
  | .error e => .error e
  | .ok snapshot =>
    match ver.greedyNextTokenId v with
    | .error e => .error e
    | .ok tokenId =>
      match ver.logitsSha256 v with
      | .error e => .error e
      | .ok sha => .ok (.exported (ver.state v) tokenId sha snapshot)

/-- `Init`: the session's verifier is replaced before the new one is prefilled. -/
def initSlot (tokenIds : List Token) (slot : Option V) : Except ChildError Result × Option V :=
  match ver.spawn with
  | .error e => (.error e, slot)
  | .ok v =>
    if tokenIds = [] then (.ok (.state (ver.state v)), some v)
    else
      match ver.prefill v tokenIds with
      | (some e, v') => (.error e, some v')
      | (none, v') => (.ok (.state (ver.state v')), some v')

/-- `_WorkerRuntime.dispatch` for a session operation, on the slot of its session. -/
def dispatchSession (sid : SessionId) (op : SessionOp) (slot : Option V) :
    Except ChildError Result × Option V :=
  if sid = "" then (.error (missingSessionId op), slot)
  else
    match op with
    | .init tokenIds => initSlot ver tokenIds slot
    | .close => (.ok (.closed slot.isSome), none)
    | .importSnapshot payload compatibility =>
      match slot with
      | none => (.error (unknownSession sid), none)
      | some v =>
        match ver.runImport v payload compatibility with
        | (res, v') => (res, some v')
    | .exportSnapshot compatibility =>
      match slot with
      | none => (.error (unknownSession sid), none)
      | some v => (exportOn ver v compatibility, some v)
    | .append tokenIds =>
      match slot with
      | none => (.error (unknownSession sid), none)
      | some v =>
        if tokenIds = [] then (.error ⟨"ValueError", "Append token_ids must be non-empty"⟩, some v)
        else
          match ver.appendAcceptedTokens v tokenIds with
          | (some e, v') => (.error e, some v')
          | (none, v') => (.ok (.state (ver.state v')), some v')
    | .generateStep =>
      match slot with
      | none => (.error (unknownSession sid), none)
      | some v =>
        match generateOn ver v with
        | (res, v') => (res, some v')

theorem dispatch_init (sid : SessionId) (ts : List Token) (slot : Option V) :
    dispatchSession ver sid (.init ts) slot =
      if sid = "" then (.error (missingSessionId (.init ts)), slot) else initSlot ver ts slot := rfl

theorem dispatch_import (sid : SessionId) (p : Bytes) (c : Option CacheCompatibility) (slot : Option V) :
    dispatchSession ver sid (.importSnapshot p c) slot =
      if sid = "" then (.error (missingSessionId (.importSnapshot p c)), slot)
      else
        match slot with
        | none => (.error (unknownSession sid), none)
        | some v => ((ver.runImport v p c).1, some (ver.runImport v p c).2) := by
  cases slot <;> rfl

theorem dispatch_append (sid : SessionId) (ts : List Token) (slot : Option V) :
    dispatchSession ver sid (.append ts) slot =
      if sid = "" then (.error (missingSessionId (.append ts)), slot)
      else
        match slot with
        | none => (.error (unknownSession sid), none)
        | some v =>
          if ts = [] then (.error ⟨"ValueError", "Append token_ids must be non-empty"⟩, some v)
          else
            match ver.appendAcceptedTokens v ts with
            | (some e, v') => (.error e, some v')
            | (none, v') => (.ok (.state (ver.state v')), some v') := rfl

theorem dispatch_generate (sid : SessionId) (slot : Option V) :
    dispatchSession ver sid .generateStep slot =
      if sid = "" then (.error (missingSessionId .generateStep), slot)
      else
        match slot with
        | none => (.error (unknownSession sid), none)
        | some v => ((generateOn ver v).1, some (generateOn ver v).2) := by
  cases slot <;> rfl

/-- The reply of `_serve_worker`: a result that cannot be framed is reported as an error of the operation. -/
def serveSession (sid : SessionId) (op : SessionOp) (slot : Option V) : Except ChildError Result × Option V :=
  match dispatchSession ver sid op slot with
  | (.ok res, slot') => if res.fits then (.ok res, slot') else (.error frameError, slot')
  | (.error e, slot') => (.error e, slot')

end

/-- `_WorkerRuntime`: the sessions of a child. -/
structure Runtime (V : Type) where
  sessions : Dict SessionId V

namespace Runtime

variable {V : Type} (ver : Verifier V)

/-- Puts back the slot of a session. -/
def putSlot (rt : Runtime V) (sid : SessionId) : Option V → Runtime V
  | none => ⟨rt.sessions.erase sid⟩
  | some v => ⟨rt.sessions.set sid v⟩

/-- The child's answer to a request, and its sessions after it. -/
def serve (rt : Runtime V) : Request → Except ChildError Result × Runtime V
  | .health => (.ok (.health rt.sessions.size), rt)
  | .session sid op =>
    ((serveSession ver sid op (rt.sessions.get? sid)).1,
      rt.putSlot sid (serveSession ver sid op (rt.sessions.get? sid)).2)

/-- An operation leaves the slot that `serveSession` says, and no other slot changes. -/
theorem get?_serve (rt : Runtime V) (sid sid' : SessionId) (op : SessionOp) :
    (rt.serve ver (.session sid op)).2.sessions.get? sid' =
      if sid' = sid then (serveSession ver sid op (rt.sessions.get? sid)).2 else rt.sessions.get? sid' := by
  unfold serve putSlot
  dsimp only
  split
  · rename_i h
    rw [Dict.get?_erase]; simp [h]
  · rename_i v h
    rw [Dict.get?_set]; simp [h]

end Runtime

end KakeyaEngine
