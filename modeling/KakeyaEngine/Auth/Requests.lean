import KakeyaEngine.PrefixCache.Hashing

/-!
# The requests of the prefill services and their bytes

The request messages of the cache service and of the worker service, and what `SerializeToString(deterministic=True)`
writes for them: the fields in the order of their numbers, fields with a default value left out, and then the fields the
receiver did not know.  A field is a tag, which holds the number of the field and the kind of its value, and the value;
nothing in the bytes tells the type of the message.
-/

namespace KakeyaEngine

namespace Auth

/-! ### The wire format -/

namespace Wire

/-- At most `k` bytes of the base-128 form of a number, the lowest digits first. -/
def digits : Nat → Nat → Bytes
  | 0, _ => []
  | k + 1, n => if n < 128 then [UInt8.ofNat n] else UInt8.ofNat (n % 128 + 128) :: digits k (n / 128)

/-- A variable-length integer of 64 bits. -/
def varint (n : Nat) : Bytes := digits 10 (n % 2 ^ 64)

/-- A value with its length in front, under the tag of its field. -/
def delimited (number : Nat) (value : Bytes) : Bytes := varint (number * 8 + 2) ++ varint value.length ++ value

/-- `uint32`, `uint64` and enumerations. -/
def integer (number value : Nat) : Bytes := if value = 0 then [] else varint (number * 8) ++ varint value

/-- `bytes`. -/
def bytes (number : Nat) (value : Bytes) : Bytes := if value = [] then [] else delimited number value

/-- `string`. -/
def string (number : Nat) (value : String) : Bytes := bytes number (utf8 value.toList)

/-- A message, where it is set. -/
def message (number : Nat) : Option Bytes → Bytes
  | none => []
  | some value => delimited number value

/-- `repeated bytes`. -/
def repeatedBytes (number : Nat) (values : List Bytes) : Bytes := values.flatMap (delimited number)

/-- `repeated uint32`, packed. -/
def repeatedIntegers (number : Nat) (values : List Nat) : Bytes := bytes number (values.flatMap varint)

end Wire

/-! ### The messages -/

/-- The message `CacheCompatibility`. -/
structure CompatibilityMessage where
  modelId : String := ""
  modelRevision : String := ""
  tokenizerRevision : String := ""
  cacheFormatVersion : String := ""
  quantization : String := ""
  ropeHash : String := ""
  layerGeometryHash : String := ""
  kvDtype : String := ""
  blockSizeTokens : UInt32 := 0
  tenantNamespace : String := ""
  sinkSize : UInt32 := 0
  windowSize : UInt32 := 0
  unknownFields : Bytes := []
deriving DecidableEq

def CompatibilityMessage.serialize (c : CompatibilityMessage) : Bytes :=
  Wire.string 1 c.modelId ++ Wire.string 2 c.modelRevision ++ Wire.string 3 c.tokenizerRevision ++
    Wire.string 4 c.cacheFormatVersion ++ Wire.string 5 c.quantization ++ Wire.string 6 c.ropeHash ++
    Wire.string 7 c.layerGeometryHash ++ Wire.string 8 c.kvDtype ++ Wire.integer 9 c.blockSizeTokens.toNat ++
    Wire.string 10 c.tenantNamespace ++ Wire.integer 11 c.sinkSize.toNat ++ Wire.integer 12 c.windowSize.toNat ++
    c.unknownFields

/-- The calls that are authenticated. -/
inductive Rpc
  | getCacheSummary
  | lookupPrefix
  | fetchBlocks
  | publishBlock
  | submitPrefillJob
  | getPrefillJobStatus
  | cancelPrefillJob
deriving DecidableEq

/-- The request messages of these calls, without the fields the receiver does not know. -/
inductive PrefillRequest
  | getCacheSummary (compatibility : Option CompatibilityMessage)
  | lookupPrefix (compatibility : Option CompatibilityMessage) (blockHashes : List Bytes)
  | fetchBlocks (leaseId : String)
  | publishBlock (blockHash : Bytes) (blockIndex tokenCount chunkIndex totalChunks : UInt32) (data blockSha256 : Bytes)
      (cacheEpoch : UInt64) (compatibility : Option CompatibilityMessage)
  | submitPrefillJob (requestId tenantId : String) (compatibility : Option CompatibilityMessage) (tokenIds : List UInt32)
      (blockHashes : List Bytes) (deadlineMs : UInt32) (preferredCompression : Int)
  | getPrefillJobStatus (jobId tenantId : String)
  | cancelPrefillJob (jobId tenantId : String)
deriving DecidableEq

namespace PrefillRequest

def rpc : PrefillRequest → Rpc
  | getCacheSummary .. => .getCacheSummary
  | lookupPrefix .. => .lookupPrefix
  | fetchBlocks .. => .fetchBlocks
  | publishBlock .. => .publishBlock
  | submitPrefillJob .. => .submitPrefillJob
  | getPrefillJobStatus .. => .getPrefillJobStatus
  | cancelPrefillJob .. => .cancelPrefillJob

/-- The bytes of the fields.  A negative enumeration value is written as 64 bits. -/
def serialize : PrefillRequest → Bytes
  | getCacheSummary c => Wire.message 1 (c.map CompatibilityMessage.serialize)
  | lookupPrefix c hashes => Wire.message 1 (c.map CompatibilityMessage.serialize) ++ Wire.repeatedBytes 2 hashes
  | fetchBlocks leaseId => Wire.string 1 leaseId
  | publishBlock hash index tokens chunk total data sha epoch c =>
    Wire.bytes 1 hash ++ Wire.integer 2 index.toNat ++ Wire.integer 3 tokens.toNat ++ Wire.integer 4 chunk.toNat ++
      Wire.integer 5 total.toNat ++ Wire.bytes 6 data ++ Wire.bytes 7 sha ++ Wire.integer 8 epoch.toNat ++
      Wire.message 9 (c.map CompatibilityMessage.serialize)
  | submitPrefillJob requestId tenantId c tokens hashes deadline codec =>
    Wire.string 1 requestId ++ Wire.string 2 tenantId ++ Wire.message 3 (c.map CompatibilityMessage.serialize) ++
      Wire.repeatedIntegers 4 (tokens.map UInt32.toNat) ++ Wire.repeatedBytes 5 hashes ++
      Wire.integer 6 deadline.toNat ++ Wire.integer 7 (codec % 2 ^ 64).toNat
  | getPrefillJobStatus jobId tenantId => Wire.string 1 jobId ++ Wire.string 2 tenantId
  | cancelPrefillJob jobId tenantId => Wire.string 1 jobId ++ Wire.string 2 tenantId

end PrefillRequest

/-- A request message as a service has parsed it. -/
structure RequestMessage where
  known : PrefillRequest
  unknownFields : Bytes := []
deriving DecidableEq

/-- `_request_bytes`. -/
def RequestMessage.requestBytes (r : RequestMessage) : Bytes := r.known.serialize ++ r.unknownFields

end Auth

end KakeyaEngine
