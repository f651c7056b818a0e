import Mathlib.Logic.Basic

/-!
# The wire protocol

The enumerations of `distributed.proto`.
-/

namespace KakeyaEngine

/-- `CompressionCodec`. -/
inductive CompressionCodec
  | unspecified
  | none
  | zlib
  | kakeyaLatticeD4
deriving DecidableEq

/-- The number of a codec. -/
def CompressionCodec.toNat : CompressionCodec → Nat
  | .unspecified => 0
  | .none => 1
  | .zlib => 2
  | .kakeyaLatticeD4 => 3

/-- `PrefillJobState`. -/
inductive PrefillJobState
  | unspecified
  | queued
  | running
  | completed
  | failed
  | cancelled
deriving DecidableEq

end KakeyaEngine
