import KakeyaEngine.Decode.Router
import KakeyaEngine.Session.Coordinator

/-!
# The verifiers of the server

The server resolves a session either in the `PerSessionVerifierRegistry`, which makes a verifier of its own for each
session, or in the router of the decode worker.  Both make an entry for a session that has none, and both drop it from the
removal callback.
-/

namespace KakeyaEngine

/-! ### `PerSessionVerifierRegistry` -/

/-- A verifier that lives in the server: `fresh` is what the factory yields. -/
structure LocalVerifier (V ε : Type) where
  fresh : V
  prefill : List Token → Proc V ε Unit
  append : List Token → Proc V ε Unit
  /-- The argmax of the next token's logits. -/
  greedyNextTokenId : Proc V ε Token
  cachedTokenSequence : V → List Token
  nextGlobalPosition : V → Int
  kSeqLength : V → Int

/-- `PerSessionVerifierRegistry`.  The verifiers made for a session are numbered, and `objects` holds them all, for an
operation keeps the one it has resolved; `verifiers` says which of them is registered. -/
structure VerifierRegistry (V : Type) where
  verifiers : Dict SessionId Nat := Dict.empty
  made : SessionId → Nat := fun _ => 0
  objects : SessionId → Nat → V

namespace VerifierRegistry

variable {V ε : Type} (lv : LocalVerifier V ε)

/-- The registry before the first session. -/
def initial : VerifierRegistry V := { objects := fun _ _ => lv.fresh }

/-- `get`.  An object that was not made before is as the factory yields it. -/
def get (sid : SessionId) (r : VerifierRegistry V) : Nat × VerifierRegistry V :=
  match r.verifiers.get? sid with
  | some n => (n, r)
  | none =>
    (r.made sid,
      { r with
        verifiers := r.verifiers.set sid (r.made sid),
        made := Function.update r.made sid (r.made sid + 1) })

/-- `remove`. -/
def remove (sid : SessionId) (r : VerifierRegistry V) : VerifierRegistry V :=
  { r with verifiers := r.verifiers.erase sid }

/-- A call of a verifier. -/
def onObject {α : Type} (sid : SessionId) (n : Nat) (x : Proc V ε α) : Proc (VerifierRegistry V) ε α :=
  Proc.focus (fun r => r.objects sid n)
    (fun v r => { r with objects := Function.update r.objects sid (Function.update (r.objects sid) n v) }) id x

/-- The registry as the verifiers of the server. -/
def backend : Verifiers (VerifierRegistry V) Nat ε where
  resolve := get
  remove := remove
  kSeqLength sid r := (lv.kSeqLength ((get sid r).2.objects sid (get sid r).1), (get sid r).2)
  prefill sid n ts := .atomic () fun _ => onObject sid n (lv.prefill ts)
  append sid n ts _ := onObject sid n (lv.append ts)
  generateStep sid n _ := onObject sid n (do
    let t ← lv.greedyNextTokenId
    lv.append [t]
    pure t)
  cachedTokenSequence sid n r := lv.cachedTokenSequence (r.objects sid n)
  nextGlobalPosition sid n r := lv.nextGlobalPosition (r.objects sid n)

end VerifierRegistry

/-- A verifier that keeps the tokens it was given and repeats the last one. -/
def echoVerifier : LocalVerifier (List Token) Unit where
  fresh := []
  prefill ts := Proc.modify fun _ => ts
  append ts := Proc.modify fun v => v ++ ts
  greedyNextTokenId := do
    let v ← Proc.get
    pure (v.getLastD 0)
  cachedTokenSequence v := v
  nextGlobalPosition v := v.length
  kSeqLength v := v.length

/-! ### The router of the decode worker -/

/-- A call of a proxy. -/
inductive ProxyCall
  | prefill (promptIds : List Token)
  | appendAcceptedTokens (tokens : List Token)
  | importSnapshot (payload : Bytes) (compatibility : CacheCompatibility)
  | reset
deriving DecidableEq

/-- What is done with a proxy for a cold prompt: calls of it, each chosen by what the earlier ones returned or raised. -/
inductive Script
  | finish (r : Except RouterError Unit)
  | call (c : ProxyCall) (next : Except RouterError Result → Script)

namespace Router

variable {V : Type} (ver : Verifier V)

/-- The procedure of a proxy's call. -/
def performProxy (sid : SessionId) (m : Moment) : ProxyCall → RouterProc V Result
  | .prefill ts => prefill ver sid ts m.cancelAt
  | .appendAcceptedTokens ts => appendAcceptedTokens ver sid ts m.cancelAt
  | .importSnapshot p c => importSnapshot ver sid p c
  | .reset => reset ver sid

/-- The program of a script. -/
def runScript (sid : SessionId) : Script → Prog Unit Moment (Router V) RouterError Unit
  | .finish r => .done r
  | .call c next =>
    .step () (fun m r => ((performProxy ver sid m c).run r).2) fun m r =>
      runScript sid (next ((performProxy ver sid m c).run r).1)

/-- The script without a prefill cache: one `prefill`. -/
def plainScript (promptIds : List Token) : Script := .call (.prefill promptIds) fun r => .finish (r.map fun _ => ())

/-- The bookkeeping of a session's proxy. -/
def proxy (r : Router V) (sid : SessionId) : Proxy := (r.proxies.get? sid).getD {}

/-- The router as the verifiers of the server; `cold` is what is done for a cold prompt. -/
def backend (cold : SessionId → List Token → Script) : Verifiers (Router V) Unit RouterError where
  resolve sid r := ((), ((get sid).run r).2)
  remove sid r := ((closeSession ver sid).run r).2
  kSeqLength sid r :=
    let r := ((get sid).run r).2
    ((r.proxy sid).cachedTokenSequence.length, r)
  prefill sid _ ts := runScript ver sid (cold sid ts)
  append sid _ ts m := do
    let _ ← appendAcceptedTokens ver sid ts m.cancelAt
    pure ()
  generateStep sid _ m := do
    let res ← generateStep ver sid m.cancelAt
    pure (resultToken res)
  cachedTokenSequence sid _ r := (r.proxy sid).cachedTokenSequence
  nextGlobalPosition sid _ r := (r.proxy sid).nextGlobalPosition

/-- What befalls the router between the calls: a turn in the fate of the worker, and the calls of no session. -/
inductive Turn
  | fate (fate : Option Fate)
  | health
  | hardKill
deriving DecidableEq

/-- The router after a turn. -/
def act : Turn → Router V → Router V
  | .fate fate, r => (step ver r (.turn fate)).2
  | .health, r => (step ver r (.call .health)).2
  | .hardKill, r => (step ver r (.call .hardKill)).2

end Router

end KakeyaEngine
