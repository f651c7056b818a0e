import KakeyaEngine.Auth.Metadata
import KakeyaEngine.Lib.Chunks
import KakeyaEngine.PrefixCache.Runtime

/-!
# The prefill cache service

`PrefillCacheServiceServicer` serves the blocks of a lease in chunks (`FetchBlocks`) and takes a block that a peer
publishes in chunks (`PublishBlock`); `publish_block_sync` cuts a block for it.  The stream of a call is the list of its
messages.  A call is authenticated by its metadata once, for a publication with the first chunk that arrives.
-/

namespace KakeyaEngine

/-! ### Messages -/

/-- A value for a field of type `uint32`. -/
def uint32 (n : Int) : Except CacheError UInt32 :=
  if 0 ≤ n ∧ n < 2 ^ 32 then .ok (UInt32.ofNat n.toNat)
  else .error (.valueError ("Value out of range: " ++ toString n))

/-- `CacheCompatibility.to_proto`. -/
def CacheCompatibility.toProto (c : CacheCompatibility) : Except CacheError Auth.CompatibilityMessage := do
  let blockSizeTokens ← uint32 c.blockSizeTokens
  let sinkSize ← uint32 c.sinkSize
  let windowSize ← uint32 c.windowSize
  pure
    { modelId := c.modelId, modelRevision := c.modelRevision, tokenizerRevision := c.tokenizerRevision,
      cacheFormatVersion := c.cacheFormatVersion, quantization := c.quantization, ropeHash := c.ropeHash,
      layerGeometryHash := c.layerGeometryHash, kvDtype := c.kvDtype, blockSizeTokens := blockSizeTokens,
      tenantNamespace := c.tenantNamespace, sinkSize := sinkSize, windowSize := windowSize }

/-- `CacheCompatibility.from_proto`; a message that is not set reads as the empty one. -/
def CacheCompatibility.fromProto (message : Option Auth.CompatibilityMessage) : CacheCompatibility :=
  let m := message.getD {}
  { modelId := m.modelId, modelRevision := m.modelRevision, tokenizerRevision := m.tokenizerRevision,
    cacheFormatVersion := m.cacheFormatVersion, quantization := m.quantization, ropeHash := m.ropeHash,
    layerGeometryHash := m.layerGeometryHash, kvDtype := m.kvDtype, blockSizeTokens := m.blockSizeTokens.toNat,
    tenantNamespace := m.tenantNamespace, sinkSize := m.sinkSize.toNat, windowSize := m.windowSize.toNat }

/-- `PublishBlockRequest`: one chunk of a publication. -/
structure PublishChunk where
  blockHash : Bytes
  blockIndex : UInt32 := 0
  tokenCount : UInt32
  chunkIndex : UInt32
  totalChunks : UInt32
  data : Bytes
  blockSha256 : Bytes
  cacheEpoch : UInt64 := 0
  compatibility : Option Auth.CompatibilityMessage
  unknownFields : Bytes := []
deriving DecidableEq

/-- The message as it is authenticated. -/
def PublishChunk.request (c : PublishChunk) : Auth.RequestMessage :=
  ⟨.publishBlock c.blockHash c.blockIndex c.tokenCount c.chunkIndex c.totalChunks c.data c.blockSha256 c.cacheEpoch
    c.compatibility, c.unknownFields⟩

/-- `PublishBlockResponse`. -/
structure PublishReply where
  stored : Bool
  cacheEpoch : Nat
deriving DecidableEq

/-- The messages of `publish_block_sync`.  Every chunk repeats what the first one says about the block, so a value that
does not fit its field is found with the first chunk. -/
def publishBlockSync (compatibility : CacheCompatibility) (b : CacheBlock) (chunkBytes : Nat) :
    Except CacheError (List PublishChunk) := do
  let totalChunks := Chunks.count chunkBytes b.nbytes
  let tokenCount ← uint32 b.tokenCount
  let total ← uint32 totalChunks
  let message ← compatibility.toProto
  pure ((List.range totalChunks).map fun chunkIndex =>
    { blockHash := b.blockHash, tokenCount := tokenCount, chunkIndex := UInt32.ofNat chunkIndex, totalChunks := total,
      data := Chunks.piece chunkBytes b.payload chunkIndex, blockSha256 := b.payloadSha256,
      compatibility := some message })

/-! ### The service -/

inductive StatusCode
  | unauthenticated
  | permissionDenied
  | notFound
  | resourceExhausted
  | invalidArgument
  | failedPrecondition
  | dataLoss
deriving DecidableEq

/-- A call is aborted with a status code, or an exception passes through it. -/
inductive RpcFailure
  | abort (code : StatusCode) (details : String)
  | raised (typeName message : String)
deriving DecidableEq

/-- An exception of the store that nothing catches. -/
def RpcFailure.ofCacheError : CacheError → RpcFailure
  | .valueError message => .raised "ValueError" message
  | .keyError message => .raised "KeyError" ("'" ++ message ++ "'")
  | .indexError => .raised "IndexError" "list index out of range"
  | .overflowError message => .raised "OverflowError" message

/-- The settings of `PrefillCacheServiceServicer`. -/
structure PrefillCacheService where
  chunkBytes : Nat
  maxPayloadBytes : Nat
  auth : Option Auth.FleetAuthConfig
  chunkBytes_pos : 0 < chunkBytes
  maxPayloadBytes_pos : 0 < maxPayloadBytes

/-- The metadata of a call and the clock when it is verified. -/
structure CallContext where
  unicode : Auth.Unicode
  invocationMetadata : List (String × String)
  now : Rat

namespace PrefillCacheService

variable (service : PrefillCacheService) (context : CallContext)

/-- `_authenticate`. -/
def authenticate (request : Auth.RequestMessage) : Except RpcFailure Unit :=
  match service.auth with
  | none => .ok ()
  | some config =>
    match Auth.verifyMetadata context.unicode context.invocationMetadata request config context.now with
    | .ok _ => .ok ()
    | .error (.prefillAuthError message) => .error (.abort .unauthenticated message)
    | .error (.typeError message) => .error (.raised "TypeError" message)

/-- `_authorize_compatibility`. -/
def authorizeCompatibility (compatibility : CacheCompatibility) : Except RpcFailure Unit :=
  match service.auth with
  | none => .ok ()
  | some config =>
    if compatibility.tenantNamespace ≠ config.tenantId then
      .error (.abort .permissionDenied "cache tenant namespace mismatch")
    else .ok ()

/-- The most chunks that a publication may have. -/
def maxChunks : Nat := (service.maxPayloadBytes + service.chunkBytes - 1) / service.chunkBytes

/-! ### Serving blocks -/

/-- The chunks of a block. -/
def blockChunks (b : CacheBlock) : Except CacheError (List FetchChunk) := do
  let totalChunks := Chunks.count service.chunkBytes b.nbytes
  let _ ← uint32 b.tokenCount
  let _ ← uint32 totalChunks
  pure ((List.range totalChunks).map fun chunkIndex =>
    { blockHash := b.blockHash, chunkIndex := chunkIndex, totalChunks := totalChunks,
      data := Chunks.piece service.chunkBytes b.payload chunkIndex, blockSha256 := b.payloadSha256 })

/-- How an exception of the store ends a fetch. -/
def fetchFailure : CacheError → RpcFailure
  | .keyError message => .abort .notFound ("'" ++ message ++ "'")
  | e => .ofCacheError e

/-- `FetchBlocks`: all the chunks that it yields. -/
def fetchBlocks (leaseId : String) (now : Int) : Proc PrefixCacheStore RpcFailure (List FetchChunk) := do
  Proc.ofExcept (service.authenticate context ⟨.fetchBlocks leaseId, []⟩)
  let blocks ← Proc.focus id (fun s _ => s) fetchFailure (PrefixCacheStore.fetch leaseId now)
  let chunks ← Proc.ofExcept ((blocks.mapM service.blockChunks).mapError fetchFailure)
  pure chunks.flatten

/-! ### Taking a publication -/

/-- What `PublishBlock` has received. -/
structure Publication where
  first : Option PublishChunk := none
  parts : Dict Nat Bytes := Dict.empty
  received : Nat := 0

/-- The checks on the first chunk that arrives. -/
def checkFirst (c : PublishChunk) : Except RpcFailure Unit := do
  service.authenticate context c.request
  service.authorizeCompatibility (CacheCompatibility.fromProto c.compatibility)
  if c.totalChunks = 0 ∨ service.maxChunks < c.totalChunks.toNat then
    .error (.abort .resourceExhausted "publish stream exceeds payload budget")
  else .ok ()

/-- Compares a later chunk with the first one. -/
def checkChunk (c : PublishChunk) : Option PublishChunk → Except RpcFailure Unit
  | none => service.checkFirst context c
  | some first =>
    if c.blockHash ≠ first.blockHash ∨ c.totalChunks ≠ first.totalChunks ∨ c.blockSha256 ≠ first.blockSha256 then
      .error (.abort .invalidArgument "inconsistent publish chunk metadata")
    else .ok ()

/-- The loop of `PublishBlock` over the stream. -/
def receivePublication : List PublishChunk → Publication → Except RpcFailure Publication
  | [], p => .ok p
  | c :: rest, p => do
    service.checkChunk context c p.first
    if c.totalChunks ≤ c.chunkIndex ∨ p.parts.contains c.chunkIndex.toNat ∨ service.chunkBytes < c.data.length then
      .error (.abort .invalidArgument "invalid or duplicate publish chunk")
    else if service.maxPayloadBytes < p.received + c.data.length then
      .error (.abort .resourceExhausted "publish payload exceeds cache allocation budget")
    else
      receivePublication rest
        { first := some (p.first.getD c), parts := p.parts.set c.chunkIndex.toNat c.data,
          received := p.received + c.data.length }

/-- The payload of a publication, with its first chunk. -/
def joinPublication (compatibility : CacheCompatibility) (p : Publication) :
    Except RpcFailure (PublishChunk × Bytes) :=
  match p.first with
  | none => .error (.abort .invalidArgument "empty publish stream")
  | some first =>
    if CacheCompatibility.fromProto first.compatibility ≠ compatibility then
      .error (.abort .failedPrecondition "prefill cache compatibility mismatch")
    else if p.parts.size ≠ first.totalChunks.toNat then .error (.abort .dataLoss "incomplete publish stream")
    else
      let payload := (List.range first.totalChunks.toNat).flatMap fun i => (p.parts.get? i).getD []
      if Sha256.sha256 payload ≠ first.blockSha256 then
        .error (.abort .dataLoss "prefill cache payload checksum mismatch")
      else .ok (first, payload)

/-- How an exception of the store ends a publication. -/
def publishFailure : CacheError → RpcFailure
  | .valueError message => .abort .invalidArgument message
  | e => .ofCacheError e

/-- The end of `PublishBlock`: the block goes to the store. -/
def storePublication (blockHash : Bytes) (tokenCount : Int) (payload : Bytes) (now : Int) :
    Proc PrefixCacheStore RpcFailure PublishReply := do
  let b ← Proc.ofExcept ((CacheBlock.create blockHash tokenCount payload).mapError publishFailure)
  let stored ← Proc.focus id (fun s _ => s) publishFailure (PrefixCacheStore.put b now)
  let s ← Proc.get
  pure ⟨stored, s.epoch⟩

/-- `PublishBlock`. -/
def publishBlock (stream : List PublishChunk) (now : Int) : Proc PrefixCacheStore RpcFailure PublishReply := do
  let p ← Proc.ofExcept (service.receivePublication context stream {})
  let s ← Proc.get
  let (first, payload) ← Proc.ofExcept (joinPublication s.compatibility p)
  storePublication first.blockHash first.tokenCount.toNat payload now

end PrefillCacheService

end KakeyaEngine
