import Mathlib.Algebra.Order.Ring.Rat
import KakeyaEngine.Capability
import KakeyaEngine.Proto

/-!
# Capability cards

A card says what one node can do for the fleet and how to reach it.  On the wire the roles and codecs of a card are plain
numbers and nothing is checked; `fromProto` raises for a number without a name, an empty node id and a lifetime that is
not positive, so that a `NodeCapability` is always valid.

Finite floating-point numbers are rationals here, and integer fields are within the range of their wire type.
-/

namespace KakeyaEngine

/-- `CapabilityRole`. -/
inductive CapabilityRole
  | unspecified
  | verifier
  | proposer
  | embedder
  | tool
  | prefillCache
  | prefillCompute
deriving DecidableEq

/-- The exceptions of the conversion from the wire. -/
inductive CardError
  | valueError (message : String)
deriving DecidableEq

/-- `int(role)`. -/
def CapabilityRole.toInt : CapabilityRole → Int
  | .unspecified => 0
  | .verifier => 1
  | .proposer => 2
  | .embedder => 3
  | .tool => 4
  | .prefillCache => 5
  | .prefillCompute => 6

/-- `CapabilityRole(n)`. -/
def CapabilityRole.ofInt (n : Int) : Except CardError CapabilityRole :=
  if n = 0 then .ok .unspecified
  else if n = 1 then .ok .verifier
  else if n = 2 then .ok .proposer
  else if n = 3 then .ok .embedder
  else if n = 4 then .ok .tool
  else if n = 5 then .ok .prefillCache
  else if n = 6 then .ok .prefillCompute
  else .error (.valueError (toString n ++ " is not a valid CapabilityRole"))

theorem CapabilityRole.ofInt_toInt (r : CapabilityRole) : ofInt r.toInt = .ok r := by
  cases r <;> rfl

/-- `CompressionCodec(n)`. -/
def CompressionCodec.ofInt (n : Int) : Except CardError CompressionCodec :=
  if n = 0 then .ok .unspecified
  else if n = 1 then .ok .none
  else if n = 2 then .ok .zlib
  else if n = 3 then .ok .kakeyaLatticeD4
  else .error (.valueError (toString n ++ " is not a valid CompressionCodec"))

theorem CompressionCodec.ofInt_toNat (c : CompressionCodec) : ofInt c.toNat = .ok c := by
  cases c <;> rfl

/-! ### The messages -/

namespace Proto

/-- The message `ModelCapability`. -/
structure ModelCapability where
  modelId : String := ""
  role : Int := 0
  quantization : String := ""
  tokensPerSecond : ℚ := 0
deriving DecidableEq

/-- The message `CacheCapability`. -/
structure CacheCapability where
  compatibility : CacheCompatibility
  cacheAddress : String := ""
  cacheBytesUsed : Nat := 0
  cacheBytesFree : Nat := 0
  entryCount : Nat := 0
  cacheEpoch : Nat := 0
  load : ℚ := 0
  tokensServed : Nat := 0
  bloomFilter : Bytes := []
  defaultCompression : Int := 0
  replicationFactor : Nat := 0
  evictions : Nat := 0
  bytesEvicted : Nat := 0
  putFailures : Nat := 0
deriving DecidableEq

end Proto

/-- `NodeEndpoint`, which has the fields of its message. -/
structure NodeEndpoint where
  address : String
  network : String := ""
  priority : Int := 0
  measuredRttMs : ℚ := 0
deriving DecidableEq

/-- `PrefillWorkerCapability`, which has the fields of its message. -/
structure PrefillWorkerCapability where
  compatibility : CacheCompatibility
  workerAddress : String := ""
  maxConcurrentJobs : Nat := 1
  inflightJobs : Nat := 0
  queuedJobs : Nat := 0
  load : ℚ := 0
  tokensPerSecondPrefill : ℚ := 0
  ramBytesFree : Nat := 0
  acceptsComputeJobs : Bool := true
  queuedTokens : Nat := 0
deriving DecidableEq

namespace Proto

/-- The message `NodeCapability`. -/
structure NodeCapability where
  nodeId : String := ""
  grpcAddress : String := ""
  platform : String := ""
  unifiedMemoryBytes : Nat := 0
  mlxVersion : String := ""
  models : List ModelCapability := []
  announcedAtUnix : ℚ := 0
  ttlSeconds : ℚ := 0
  ringAddress : String := ""
  caches : List CacheCapability := []
  endpoints : List NodeEndpoint := []
  prefillWorkers : List PrefillWorkerCapability := []
deriving DecidableEq

end Proto

/-! ### Cards -/

/-- `ModelCapability`. -/
structure ModelCapability where
  modelId : String
  role : CapabilityRole
  quantization : String := ""
  tokensPerSecond : ℚ := 0
deriving DecidableEq

/-- `CacheCapability`. -/
structure CacheCapability where
  compatibility : CacheCompatibility
  cacheAddress : String := ""
  cacheBytesUsed : Nat := 0
  cacheBytesFree : Nat := 0
  entryCount : Nat := 0
  cacheEpoch : Nat := 0
  load : ℚ := 0
  tokensServed : Nat := 0
  bloomFilter : Bytes := []
  defaultCompression : CompressionCodec := .none
  replicationFactor : Nat := 1
  evictions : Nat := 0
  bytesEvicted : Nat := 0
  putFailures : Nat := 0
deriving DecidableEq

/-- `NodeCapability`, with what `__post_init__` checks. -/
structure NodeCapability where
  nodeId : String
  grpcAddress : String
  platform : String := ""
  unifiedMemoryBytes : Nat := 0
  mlxVersion : String := ""
  models : List ModelCapability := []
  announcedAtUnix : ℚ := 0
  ttlSeconds : ℚ := 120
  ringAddress : String := ""
  caches : List CacheCapability := []
  endpoints : List NodeEndpoint := []
  prefillWorkers : List PrefillWorkerCapability := []
  nodeId_ne : nodeId ≠ "" := by decide
  ttlSeconds_pos : 0 < ttlSeconds := by decide
deriving DecidableEq

theorem NodeCapability.default_ttlSeconds_pos : (0 : ℚ) < 120 := by decide

namespace ModelCapability

/-- `ModelCapability.to_proto`. -/
def toProto (m : ModelCapability) : Proto.ModelCapability :=
  { modelId := m.modelId, role := m.role.toInt, quantization := m.quantization, tokensPerSecond := m.tokensPerSecond }

/-- `ModelCapability.from_proto`. -/
def fromProto (msg : Proto.ModelCapability) : Except CardError ModelCapability := do
  let role ← CapabilityRole.ofInt msg.role
  pure { modelId := msg.modelId, role := role, quantization := msg.quantization, tokensPerSecond := msg.tokensPerSecond }

theorem fromProto_toProto (m : ModelCapability) : fromProto m.toProto = .ok m := by
  unfold fromProto toProto
  dsimp only
  rw [CapabilityRole.ofInt_toInt]
  rfl

end ModelCapability

namespace CacheCapability

/-- `CacheCapability.to_proto`. -/
def toProto (c : CacheCapability) : Proto.CacheCapability :=
  { compatibility := c.compatibility, cacheAddress := c.cacheAddress, cacheBytesUsed := c.cacheBytesUsed,
    cacheBytesFree := c.cacheBytesFree, entryCount := c.entryCount, cacheEpoch := c.cacheEpoch, load := c.load,
    tokensServed := c.tokensServed, bloomFilter := c.bloomFilter, defaultCompression := c.defaultCompression.toNat,
    replicationFactor := c.replicationFactor, evictions := c.evictions, bytesEvicted := c.bytesEvicted,
    putFailures := c.putFailures }

/-- `CacheCapability.from_proto`. -/
def fromProto (msg : Proto.CacheCapability) : Except CardError CacheCapability := do
  let defaultCompression ← CompressionCodec.ofInt msg.defaultCompression
  pure
    { compatibility := msg.compatibility, cacheAddress := msg.cacheAddress, cacheBytesUsed := msg.cacheBytesUsed,
      cacheBytesFree := msg.cacheBytesFree, entryCount := msg.entryCount, cacheEpoch := msg.cacheEpoch, load := msg.load,
      tokensServed := msg.tokensServed, bloomFilter := msg.bloomFilter, defaultCompression := defaultCompression,
      replicationFactor := msg.replicationFactor, evictions := msg.evictions, bytesEvicted := msg.bytesEvicted,
      putFailures := msg.putFailures }

theorem fromProto_toProto (c : CacheCapability) : fromProto c.toProto = .ok c := by
  unfold fromProto toProto
  dsimp only
  rw [CompressionCodec.ofInt_toNat]
  rfl

end CacheCapability

/-- A list of messages whose conversions all succeed. -/
theorem mapM_map_ok {α β : Type} {f : α → β} {g : β → Except CardError α} (h : ∀ a, g (f a) = .ok a) (l : List α) :
    (l.map f).mapM g = .ok l := by
  induction l with
  | nil => rfl
  | cons a l ih =>
    rw [List.map_cons, List.mapM_cons, h, ih]
    rfl

namespace NodeCapability

/-- `is_expired`. -/
def isExpired (c : NodeCapability) (now : ℚ) : Bool := decide (c.announcedAtUnix + c.ttlSeconds < now)

/-- `models_with_role`. -/
def modelsWithRole (c : NodeCapability) (role : CapabilityRole) (modelId : Option String) : List ModelCapability :=
  c.models.filter fun m => decide (m.role = role ∧ (modelId = none ∨ modelId = some m.modelId))

/-- `NodeCapability.to_proto`. -/
def toProto (c : NodeCapability) : Proto.NodeCapability :=
  { nodeId := c.nodeId, grpcAddress := c.grpcAddress, platform := c.platform,
    unifiedMemoryBytes := c.unifiedMemoryBytes, mlxVersion := c.mlxVersion,
    models := c.models.map ModelCapability.toProto, announcedAtUnix := c.announcedAtUnix, ttlSeconds := c.ttlSeconds,
    ringAddress := c.ringAddress, caches := c.caches.map CacheCapability.toProto, endpoints := c.endpoints,
    prefillWorkers := c.prefillWorkers }

/-- The card of a message whose roles and codecs were converted, checked by `__post_init__`. -/
def build (msg : Proto.NodeCapability) (models : List ModelCapability) (caches : List CacheCapability) :
    Except CardError NodeCapability :=
  if hid : msg.nodeId = "" then .error (.valueError "node_id must be non-empty")
  else if httl : msg.ttlSeconds ≤ 0 then .error (.valueError "ttl_seconds must be > 0")
  else
    .ok
      { nodeId := msg.nodeId, grpcAddress := msg.grpcAddress, platform := msg.platform,
        unifiedMemoryBytes := msg.unifiedMemoryBytes, mlxVersion := msg.mlxVersion, models := models,
        announcedAtUnix := msg.announcedAtUnix, ttlSeconds := msg.ttlSeconds, ringAddress := msg.ringAddress,
        caches := caches, endpoints := msg.endpoints, prefillWorkers := msg.prefillWorkers, nodeId_ne := hid,
        ttlSeconds_pos := not_le.1 httl }

/-- `NodeCapability.from_proto`. -/
def fromProto (msg : Proto.NodeCapability) : Except CardError NodeCapability := do
  let models ← msg.models.mapM ModelCapability.fromProto
  let caches ← msg.caches.mapM CacheCapability.fromProto
  build msg models caches

/-- A card survives the wire. -/
theorem fromProto_toProto (c : NodeCapability) : fromProto c.toProto = .ok c := by
  have hmodels : c.toProto.models.mapM ModelCapability.fromProto = .ok c.models :=
    mapM_map_ok ModelCapability.fromProto_toProto c.models
  have hcaches : c.toProto.caches.mapM CacheCapability.fromProto = .ok c.caches :=
    mapM_map_ok CacheCapability.fromProto_toProto c.caches
  unfold fromProto
  rw [hmodels, hcaches]
  show build c.toProto c.models c.caches = .ok c
  unfold build
  rw [dif_neg (show ¬ c.toProto.nodeId = "" from c.nodeId_ne),
    dif_neg (show ¬ c.toProto.ttlSeconds ≤ 0 from not_le.2 c.ttlSeconds_pos)]
  rfl

end NodeCapability

end KakeyaEngine
