import KakeyaEngine.Lib.Greedy
import KakeyaEngine.Verifier.Model

/-!
# The speculative decoder

`SpeculativeDecoder` lets a proposer draft a block, verifies the block in one forward pass, keeps the drafts that the
verifier would have chosen and appends the token that it prefers next.  While everything fits in sink and window, the
verifier is a function of the tokens it has consumed, and the output is its greedy decode.

What a run reports besides its tokens and block sizes (times, byte counts) is left out.
-/

namespace KakeyaEngine

/-- `SpeculativeDecoder`.  What the proposer drafts depends on the call, the committed tokens and the size it is asked
for; the constructor refuses a block size of 0. -/
structure SpeculativeDecoder where
  proposeBlock : Nat → List Token → Nat → List Token
  blockSize : Nat
  blockSize_pos : 0 < blockSize

/-- The callback of a stream: whether it asks to stop at a token, after those it has had. -/
abbrev TokenCallback := List Token → Token → Bool

/-- The variables of the loop of `generate`; `emitted` is what the callback has had. -/
structure Progress where
  committed : List Token
  generated : List Token := []
  acceptedPerBlock : List Nat := []
  proposedPerBlock : List Nat := []
  stop : Bool := false
  emitted : List Token := []
deriving DecidableEq

namespace SpeculativeDecoder

variable {κ Λ : Type}

/-! ### Accepting a block -/

/-- The loop over a drafted block: how many tokens are accepted, and the logits of the token after them. -/
def acceptLoop (argmax : Λ → Token) : Λ → List Token → List Λ → Nat × Λ
  | prev, d :: ds, row :: rows =>
    if argmax prev = d then ((acceptLoop argmax row ds rows).1 + 1, (acceptLoop argmax row ds rows).2) else (0, prev)
  | prev, _, _ => (0, prev)

/-- `BlockAcceptance`. -/
structure BlockAcceptance where
  accepted : Nat
  correctionOrBonus : Token
deriving DecidableEq

/-- `accept_block`. -/
def acceptBlock (argmax : Λ → Token) (prevLogits : Λ) (draft : List Token) (blockLogits : List Λ) :
    Except VerifierError BlockAcceptance :=
  if blockLogits.length ≠ draft.length then
    .error (.valueError ("block_logits has " ++ toString blockLogits.length ++ " rows for a draft of " ++
      toString draft.length ++ " tokens"))
  else if draft = [] then .error (.valueError "draft must be non-empty")
  else
    let r := acceptLoop argmax prevLogits draft blockLogits
    .ok ⟨r.1, argmax r.2⟩

/-! ### The loop -/

/-- `_emit`: whether the callback asks to stop, and what it has had. -/
def emit (onToken : Option TokenCallback) : List Token → List Token → Bool × List Token
  | emitted, [] => (false, emitted)
  | emitted, t :: ts =>
    match onToken with
    | none => (false, emitted)
    | some f => if f emitted t then (true, emitted ++ [t]) else emit onToken (emitted ++ [t]) ts

/-- The accepted prefix is committed. -/
def commitAccepted (size : Nat) (drafted : List Token) (st : Progress) : Progress :=
  { st with
    committed := st.committed ++ drafted, generated := st.generated ++ drafted,
    acceptedPerBlock := st.acceptedPerBlock ++ [drafted.length], proposedPerBlock := st.proposedPerBlock ++ [size] }

/-- Everything after the first EOS of the accepted prefix is discarded, and the loop stops. -/
def cutAtEos (eos : Token → Bool) (onToken : Option TokenCallback) (drafted : List Token) (st : Progress) : Progress :=
  let i := drafted.findIdx eos
  let excess := drafted.length - (i + 1)
  { st with
    committed := st.committed.take (st.committed.length - excess),
    generated := st.generated.take (st.generated.length - excess), stop := true,
    emitted := (emit onToken st.emitted (drafted.take (i + 1))).2 }

/-- Streams the accepted prefix, if there is one. -/
def emitAccepted (onToken : Option TokenCallback) (drafted : List Token) (st : Progress) : Progress :=
  if drafted = [] then st
  else
    { st with stop := (emit onToken st.emitted drafted).1, emitted := (emit onToken st.emitted drafted).2 }

/-- The correction or bonus token is committed and streamed. -/
def commitCorrection (eos : Token → Bool) (onToken : Option TokenCallback) (t : Token) (st : Progress) : Progress :=
  { st with
    committed := st.committed ++ [t], generated := st.generated ++ [t],
    stop := (emit onToken st.emitted [t]).1 || eos t, emitted := (emit onToken st.emitted [t]).2 }

variable (m : KvModel κ Λ) (cfg : VerifierConfig) (argmax : Λ → Token) (dec : SpeculativeDecoder) (eos : Token → Bool)
  (onToken : Option TokenCallback)

/-- Verifies a block: how many tokens are accepted, and the token that the verifier prefers after them.  The argmax of
no logits is a `TypeError`. -/
def verify (d : List Token) : Proc (SinkWindowVerifier κ Λ) VerifierError (Nat × Token) := do
  let blockLogits ← SinkWindowVerifier.forwardBlock m d
  let v ← Proc.get
  match v.nextTokenLogits with
  | none => Proc.raise (.typeError "argmax(): argument 'input' must be Tensor, not NoneType")
  | some prev => do
    let r := acceptLoop argmax prev d blockLogits
    SinkWindowVerifier.commitOrTruncate cfg d.length r.1
    pure (r.1, argmax r.2)

/-- What follows the verification of a block. -/
def settle (maxNewTokens : Nat) (drafted : List Token) (correction : Token) (st : Progress) :
    Proc (SinkWindowVerifier κ Λ) VerifierError Progress :=
  if drafted.any eos then pure (cutAtEos eos onToken drafted st)
  else
    let st := emitAccepted onToken drafted st
    if st.stop = true ∨ maxNewTokens ≤ st.generated.length then pure st
    else do
      SinkWindowVerifier.appendToken m cfg correction
      pure (commitCorrection eos onToken correction st)

/-- An iteration of the loop. -/
def round (maxNewTokens : Nat) (st : Progress) : Proc (SinkWindowVerifier κ Λ) VerifierError Progress := do
  let size := min dec.blockSize (maxNewTokens - st.generated.length)
  let d := dec.proposeBlock st.proposedPerBlock.length st.committed size
  if d.length ≠ size then
    Proc.raise (.runtimeError ("Proposer returned " ++ toString d.length ++ " tokens; expected exactly " ++
      toString size ++ ". Refusing to continue with a malformed block."))
  else do
    let r ← verify m cfg argmax d
    settle m cfg eos onToken maxNewTokens (d.take r.1) r.2 (commitAccepted size (d.take r.1) st)

/-- The condition of the loop. -/
def Continues (maxNewTokens : Nat) (st : Progress) : Prop := st.generated.length < maxNewTokens ∧ st.stop = false

instance (maxNewTokens : Nat) (st : Progress) : Decidable (Continues maxNewTokens st) :=
  inferInstanceAs (Decidable (_ ∧ _))

/-- The first `n` iterations of the loop. -/
def loop (maxNewTokens : Nat) : Nat → Progress → Proc (SinkWindowVerifier κ Λ) VerifierError Progress
  | 0, st => pure st
  | n + 1, st =>
    if Continues maxNewTokens st then do
      let st ← round m cfg argmax dec eos onToken maxNewTokens st
      loop maxNewTokens n st
    else pure st

/-- `generate`.  An iteration commits a token or more, so `max_new_tokens` of them are enough. -/
def generate (promptIds : List Token) (maxNewTokens : Int) :
    Proc (SinkWindowVerifier κ Λ) VerifierError Progress := do
  if maxNewTokens ≤ 0 then Proc.raise (.valueError "max_new_tokens must be > 0")
  else do
    SinkWindowVerifier.prefill m cfg promptIds
    loop m cfg argmax dec eos onToken maxNewTokens.toNat maxNewTokens.toNat { committed := promptIds }

end SpeculativeDecoder

end KakeyaEngine
