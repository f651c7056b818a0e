import KakeyaEngine.Capability

/-!
# What a client sees of `Generate`

The frames of a `Generate` stream, the results that the client libraries keep of them, and the errors into which they
translate a gRPC status.  The Python and the TypeScript library share all of it.
-/

namespace KakeyaEngine

namespace Sdk

/-- `GenerateDone`.  The stop reason is the number on the wire. -/
structure GenerateDone where
  stopReason : Nat
  generatedTokenCount : Nat
  prefillDurationSeconds : Rat
  totalDurationSeconds : Rat
deriving DecidableEq

/-- `GenerateResponse`, by its payload. -/
inductive GenerateResponse
  | tokenId (tokenId : Token)
  | truncated (droppedTokenCount : Nat)
  | done (done : GenerateDone)
  | noPayload
deriving DecidableEq

/-- What is kept of the last call: the fields `_last_*` of a session, reset before the call starts. -/
structure LastResult where
  stopReason : Option Nat := none
  generatedTokenCount : Nat := 0
  prefillDurationSeconds : Rat := 0
  totalDurationSeconds : Rat := 0
  historyTruncatedDropped : Option Nat := none
deriving DecidableEq

/-- What is kept of a frame. -/
def LastResult.note (last : LastResult) : GenerateResponse → LastResult
  | .truncated n => { last with historyTruncatedDropped := some n }
  | .done d =>
    { last with
      stopReason := some d.stopReason, generatedTokenCount := d.generatedTokenCount,
      prefillDurationSeconds := d.prefillDurationSeconds, totalDurationSeconds := d.totalDurationSeconds }
  | _ => last

/-! ### Errors -/

/-- The status codes of gRPC that are no success. -/
inductive StatusCode
  | cancelled
  | unknown
  | invalidArgument
  | deadlineExceeded
  | notFound
  | alreadyExists
  | permissionDenied
  | resourceExhausted
  | failedPrecondition
  | aborted
  | outOfRange
  | unimplemented
  | internal
  | unavailable
  | dataLoss
  | unauthenticated
deriving DecidableEq

/-- `grpc.RpcError`. -/
structure RpcError where
  code : StatusCode
  details : String
deriving DecidableEq

/-- The classes of `KakeyaError` that a status is translated into. -/
inductive ErrorClass
  | sessionNotFound
  | invalidArgument
  | invariantViolation
  | resourceExhausted
  | unimplemented
  | rpcCancelled
  | kakeya
deriving DecidableEq

/-- `KakeyaError`. -/
structure KakeyaError where
  kind : ErrorClass
  details : String
  rpcCode : StatusCode
deriving DecidableEq

/-- `_CODE_TO_EXCEPTION`. -/
def codeToException : StatusCode → ErrorClass
  | .notFound => .sessionNotFound
  | .invalidArgument => .invalidArgument
  | .failedPrecondition => .invariantViolation
  | .resourceExhausted => .resourceExhausted
  | .unimplemented => .unimplemented
  | .cancelled => .rpcCancelled
  | _ => .kakeya

/-- `_wrap_grpc_error`. -/
def wrapGrpcError (e : RpcError) : KakeyaError := ⟨codeToException e.code, e.details, e.code⟩

end Sdk

end KakeyaEngine
