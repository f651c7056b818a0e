import KakeyaEngine.PrefixCache.Hashing
import KakeyaEngine.Lib.Dict
import KakeyaEngine.Lib.Machine
import KakeyaEngine.Lib.Proc

/-!
# The prefix cache store

`PrefixCacheStore` holds immutable snapshots under their chained hash, oldest first, the leases on them, and the bytes
that running prefill jobs have reserved.  Every operation of the source is a procedure that returns or raises and
keeps what was written before a raise.  Clock readings and lease ids are inputs of the operations.
-/

namespace KakeyaEngine

/-! ### Blocks and leases -/

/-- A snapshot at a block boundary. -/
structure CacheBlock where
  blockHash : Bytes
  tokenCount : Int
  payload : Bytes
  payloadSha256 : Bytes
deriving DecidableEq

namespace CacheBlock

/-- `CacheBlock.create`. -/
def create (blockHash : Bytes) (tokenCount : Int) (payload : Bytes) : Except CacheError CacheBlock :=
  if blockHash.length ≠ 32 then .error (.valueError "block_hash must be SHA-256 (32 bytes)")
  else if tokenCount ≤ 0 then .error (.valueError "token_count must be > 0")
  else .ok ⟨blockHash, tokenCount, payload, Sha256.sha256 payload⟩

def nbytes (b : CacheBlock) : Nat := b.payload.length

end CacheBlock

/-- A lease pins the blocks it names until it expires. -/
structure PrefixLease where
  leaseId : String
  blockHashes : List Bytes
  hitBlockCount : Nat
  hitTokenCount : Int
  transferBytes : Nat
  cacheEpoch : Nat
  expiresAtUnix : Int
  payloadSha256 : Bytes
deriving DecidableEq

structure PrefixCacheStore where
  compatibility : CacheCompatibility
  maxBytes : Int
  nodeId : String
  blocks : Dict Bytes CacheBlock := Dict.empty
  leases : Dict String PrefixLease := Dict.empty
  bytesUsed : Int := 0
  epoch : Nat := 1
  lookupHits : Nat := 0
  lookupMisses : Nat := 0
  tokensServed : Int := 0
  bytesServed : Nat := 0
  evictions : Nat := 0
  bytesEvicted : Nat := 0
  putFailures : Nat := 0
  reservations : Dict String Nat := Dict.empty

/-- A procedure on the store. -/
abbrev CacheProc (α : Type) : Type := Proc PrefixCacheStore CacheError α

namespace PrefixCacheStore

/-- `PrefixCacheStore.__init__`. -/
def create (compatibility : CacheCompatibility) (maxBytes : Int) (nodeId : String) :
    Except CacheError PrefixCacheStore :=
  if maxBytes ≤ 0 then .error (.valueError "max_bytes must be > 0")
  else if nodeId = "" then .error (.valueError "node_id must be non-empty")
  else .ok { compatibility := compatibility, maxBytes := maxBytes, nodeId := nodeId }

/-! ### Leases, pins and eviction -/

/-- The sum of all reservations. -/
def reserved (s : PrefixCacheStore) : Int := (s.reservations.total fun n => n : Nat)

/-- `_expire_leases`. -/
def expireLeases (now : Int) (s : PrefixCacheStore) : PrefixCacheStore :=
  { s with leases := s.leases.filter fun l => decide (now ≤ l.expiresAtUnix) }

/-- `_pinned_hashes`. -/
def pinnedHashes (s : PrefixCacheStore) : List Bytes := s.leases.values.flatMap PrefixLease.blockHashes

/-- Drops a victim of the eviction. -/
def evictBlock (hash : Bytes) (b : CacheBlock) (s : PrefixCacheStore) : PrefixCacheStore :=
  { s with
    blocks := s.blocks.erase hash, bytesUsed := s.bytesUsed - b.nbytes, evictions := s.evictions + 1,
    bytesEvicted := s.bytesEvicted + b.nbytes, epoch := s.epoch + 1 }

/-- The loop of `_evict_to_limit`, with the number of iterations it may still take. -/
def evictLoop (pinned : List Bytes) (limit : Int) : Nat → PrefixCacheStore → PrefixCacheStore
  | 0, s => s
  | n + 1, s =>
    if s.bytesUsed ≤ limit then s
    else
      match s.blocks.entries.find? fun e => decide (e.1 ∉ pinned) with
      | none => s
      | some (victim, b) => evictLoop pinned limit n (s.evictBlock victim b)

/-- `_evict_to_limit`.  Every iteration drops a block, so there are at most as many as blocks. -/
def evictToLimit (limit : Int) (s : PrefixCacheStore) : PrefixCacheStore :=
  evictLoop s.pinnedHashes limit s.blocks.size s

/-! ### Storing blocks -/

/-- Makes a block the youngest one. -/
def touch (hash : Bytes) (s : PrefixCacheStore) : PrefixCacheStore :=
  { s with blocks := s.blocks.moveToEnd hash }

/-- Stores a block under its hash. -/
def storeBlock (b : CacheBlock) (s : PrefixCacheStore) : PrefixCacheStore :=
  { s with
    blocks := s.blocks.set b.blockHash b, bytesUsed := s.bytesUsed + b.nbytes, epoch := s.epoch + 1 }

/-- Counts a failed `put` and raises. -/
def failPut {α : Type} (message : String) : CacheProc α := do
  Proc.modify fun s => { s with putFailures := s.putFailures + 1 }
  Proc.raise (.valueError message)

/-- The error of an operation that finds no room because of leased blocks. -/
def capacityPinned : String := "cache capacity is pinned by active leases"

/-- `_put_locked`. -/
def putLocked (b : CacheBlock) : CacheProc Bool := do
  let s ← Proc.get
  match s.blocks.get? b.blockHash with
  | some existing =>
    if existing.payloadSha256 ≠ b.payloadSha256 then failPut "content-address collision with different payload"
    else do
      Proc.modify (touch b.blockHash)
      pure false
  | none => do
    Proc.modify (storeBlock b)
    pure true

/-- `put`.  After the capacity check and the expiry it does what `_put_locked` does, and a new block may then push
others out. -/
def put (b : CacheBlock) (now : Int) : CacheProc Bool := do
  let s ← Proc.get
  let available := s.maxBytes - s.reserved
  if available < b.nbytes then failPut "block payload exceeds cache capacity"
  else do
    Proc.modify (expireLeases now)
    let stored ← putLocked b
    if stored = false then pure false
    else do
      Proc.modify (evictToLimit available)
      let s ← Proc.get
      if s.blocks.contains b.blockHash then pure true else failPut capacityPinned

/-- The loop of `put_prefix` over the hashes and payloads from an index on. -/
def putBoundaries (size : Int) (tokenCount : Nat) (clock : Nat → Int) : Nat → List (Bytes × Bytes) → CacheProc Unit
  | _, [] => pure ()
  | index, (hash, payload) :: rest => do
    match CacheBlock.create hash (min ((index + 1) * size) tokenCount) payload with
    | .error e => Proc.raise e
    | .ok b => do
      let _ ← put b (clock index)
      putBoundaries size tokenCount clock (index + 1) rest

/-- `put_prefix`; the clock is read once for every block. -/
def putPrefix (tokenIds : List Token) (payloads : List Bytes) (clock : Nat → Int) : CacheProc (List Bytes) := do
  let s ← Proc.get
  match chainedBlockHashes tokenIds s.compatibility [] with
  | .error e => Proc.raise e
  | .ok hashes =>
    if hashes.length ≠ payloads.length then
      Proc.raise (.valueError "one payload is required for every token block")
    else do
      putBoundaries s.compatibility.blockSizeTokens tokenIds.length clock 0 (hashes.zip payloads)
      pure hashes

/-! ### Looking up and fetching -/

/-- The scan of `lookup`: the last hash that is stored, with the number of hashes up to it. -/
def longestHit (blocks : Dict Bytes CacheBlock) :
    Nat → List Bytes → Option (CacheBlock × Nat) → Option (CacheBlock × Nat)
  | _, [], hit => hit
  | index, hash :: hashes, hit =>
    longestHit blocks (index + 1) hashes
      (match blocks.get? hash with
      | some b => some (b, index + 1)
      | none => hit)

/-- The lease on a stored block. -/
def leaseOn (s : PrefixCacheStore) (leaseId : String) (b : CacheBlock) (hitBlockCount : Nat) (expires : Int) :
    PrefixLease :=
  ⟨leaseId, [b.blockHash], hitBlockCount, b.tokenCount, b.nbytes, s.epoch, expires, b.payloadSha256⟩

/-- `lookup`; a miss is the empty lease. -/
def lookup (blockHashes : List Bytes) (leaseSeconds now : Int) (leaseId : String) : CacheProc PrefixLease := do
  if leaseSeconds ≤ 0 then Proc.raise (.valueError "lease_seconds must be > 0")
  else do
    Proc.modify (expireLeases now)
    let s ← Proc.get
    match longestHit s.blocks 0 blockHashes none with
    | none => do
      Proc.modify fun s => { s with lookupMisses := s.lookupMisses + 1 }
      pure ⟨"", [], 0, 0, 0, s.epoch, now, zeros32⟩
    | some (snapshot, hitBlockCount) => do
      let lease := s.leaseOn leaseId snapshot hitBlockCount (now + leaseSeconds)
      Proc.modify fun s =>
        { s.touch snapshot.blockHash with
          lookupHits := s.lookupHits + 1, leases := s.leases.set leaseId lease }
      pure lease

/-- The blocks of a lease, if all of them are stored. -/
def leasedBlocks (blocks : Dict Bytes CacheBlock) : List Bytes → Option (List CacheBlock)
  | [] => some []
  | hash :: hashes =>
    match blocks.get? hash with
    | none => none
    | some b => (leasedBlocks blocks hashes).map (b :: ·)

/-- `fetch`. -/
def fetch (leaseId : String) (now : Int) : CacheProc (List CacheBlock) := do
  Proc.modify (expireLeases now)
  let s ← Proc.get
  match s.leases.get? leaseId with
  | none => Proc.raise (.keyError "unknown or expired cache lease")
  | some lease =>
    match leasedBlocks s.blocks lease.blockHashes with
    | none => Proc.raise (.keyError "leased block was evicted")
    | some blocks => do
      Proc.modify fun s =>
        { s with
          tokensServed := s.tokensServed + lease.hitTokenCount,
          bytesServed := s.bytesServed + lease.transferBytes }
      pure blocks

/-! ### Reservations -/

/-- `reserve`. -/
def reserve (reservationId : String) (byteCount now : Int) : CacheProc Unit := do
  if reservationId = "" ∨ byteCount ≤ 0 then
    Proc.raise (.valueError "reservation id and byte count must be positive")
  else do
    let s ← Proc.get
    if s.reservations.contains reservationId then Proc.raise (.valueError "duplicate cache reservation")
    else
      let total := s.reserved + byteCount
      if s.maxBytes < total then
        Proc.raise (.valueError ("snapshot reservation " ++ toString byteCount ++ " exceeds available cache budget " ++
          toString (s.maxBytes - s.reserved)))
      else do
        Proc.modify (expireLeases now)
        Proc.modify (evictToLimit (s.maxBytes - total))
        let s ← Proc.get
        if s.maxBytes - total < s.bytesUsed then Proc.raise (.valueError capacityPinned)
        else Proc.modify fun s => { s with reservations := s.reservations.set reservationId byteCount.toNat }

/-- `release_reservation`. -/
def releaseReservation (reservationId : String) : CacheProc Unit :=
  Proc.modify fun s => { s with reservations := s.reservations.erase reservationId }

/-- The loop of `publish_and_lease` over the other blocks, the longest boundary first. -/
def publishSpares : List CacheBlock → CacheProc Unit
  | [] => pure ()
  | b :: bs => do
    let s ← Proc.get
    if s.maxBytes < b.nbytes + s.bytesUsed then publishSpares bs
    else do
      let _ ← putLocked b
      publishSpares bs

/-- Grants the lease on the published block in exchange for the reservation. -/
def settleReservation (reservationId : String) (lease : PrefixLease) (s : PrefixCacheStore) : PrefixCacheStore :=
  { s with leases := s.leases.set lease.leaseId lease, reservations := s.reservations.erase reservationId }

/-- The part of `publish_and_lease` under the lock. -/
def publishLocked (final : CacheBlock) (spares : List CacheBlock) (hitBlockCount : Nat) (reservationId : String)
    (leaseSeconds now : Int) (leaseId : String) : CacheProc PrefixLease := do
  let s ← Proc.get
  match s.reservations.get? reservationId with
  | none => Proc.raise (.valueError "unknown cache reservation")
  | some reserved =>
    if reserved < final.nbytes then
      Proc.raise (.valueError ("final snapshot " ++ toString final.nbytes ++ " exceeds reservation " ++
        toString reserved))
    else do
      Proc.modify (expireLeases now)
      Proc.modify (evictToLimit (s.maxBytes - final.nbytes))
      let s ← Proc.get
      if s.maxBytes - final.nbytes < s.bytesUsed then Proc.raise (.valueError capacityPinned)
      else do
        let _ ← putLocked final
        let s ← Proc.get
        let lease := s.leaseOn leaseId final hitBlockCount (now + leaseSeconds)
        Proc.modify (settleReservation reservationId lease)
        publishSpares spares
        pure lease

/-- `publish_and_lease`. -/
def publishAndLease (blocks : List CacheBlock) (blockHashes : List Bytes) (reservationId : String)
    (leaseSeconds now : Int) (leaseId : String) : CacheProc PrefixLease := do
  let shape := CacheError.valueError
    "computed snapshots must contain only the final snapshot or one snapshot per block hash"
  match blocks.getLast? with
  | none => Proc.raise shape
  | some final =>
    if blocks.length ≠ 1 ∧ blocks.length ≠ blockHashes.length then Proc.raise shape
    else if leaseSeconds ≤ 0 then Proc.raise (.valueError "lease_seconds must be > 0")
    else
      match blockHashes.getLast? with
      | none => Proc.raise .indexError
      | some last =>
        if final.blockHash ≠ last then Proc.raise (.valueError "final snapshot hash does not match request")
        else
          publishLocked final blocks.dropLast.reverse blockHashes.length reservationId leaseSeconds now leaseId

/-! ### Resizing and invalidating -/

/-- `resize`. -/
def resize (maxBytes : Int) : CacheProc Bool := do
  if maxBytes ≤ 0 then Proc.raise (.valueError "max_bytes must be > 0")
  else do
    let s ← Proc.get
    let previous := s.maxBytes
    let reserved := s.reserved
    if maxBytes < reserved then pure false
    else do
      Proc.modify fun s => { s with maxBytes := maxBytes }
      Proc.modify (evictToLimit (maxBytes - reserved))
      let s ← Proc.get
      if maxBytes - reserved < s.bytesUsed then do
        Proc.modify fun s => { s with maxBytes := max previous s.bytesUsed }
        pure false
      else pure true

/-- Drops a block with the leases that cover it. -/
def dropBlock (hash : Bytes) (b : CacheBlock) (s : PrefixCacheStore) : PrefixCacheStore :=
  { s with
    blocks := s.blocks.erase hash, bytesUsed := s.bytesUsed - b.nbytes, epoch := s.epoch + 1,
    leases := s.leases.filter fun l => decide (hash ∉ l.blockHashes) }

/-- `invalidate`. -/
def invalidate (hash : Bytes) : CacheProc Bool := do
  let s ← Proc.get
  match s.blocks.get? hash with
  | none => pure false
  | some b => do
    Proc.modify (dropBlock hash b)
    pure true

end PrefixCacheStore

/-! ### Runs -/

/-- A call of the store, with the clock readings and the lease id that it draws.  `expire` is the expiry on its own. -/
inductive CacheEvent
  | put (b : CacheBlock) (now : Int)
  | putPrefix (tokenIds : List Token) (payloads : List Bytes) (clock : Nat → Int)
  | lookup (blockHashes : List Bytes) (leaseSeconds now : Int) (leaseId : String)
  | fetch (leaseId : String) (now : Int)
  | reserve (reservationId : String) (byteCount now : Int)
  | releaseReservation (reservationId : String)
  | publishAndLease (blocks : List CacheBlock) (blockHashes : List Bytes) (reservationId : String)
      (leaseSeconds now : Int) (leaseId : String)
  | resize (maxBytes : Int)
  | invalidate (hash : Bytes)
  | expire (now : Int)

/-- What a call returns. -/
inductive CacheReply
  | none
  | bool (b : Bool)
  | hashes (hs : List Bytes)
  | lease (l : PrefixLease)
  | blocks (bs : List CacheBlock)
deriving DecidableEq

namespace PrefixCacheStore

/-- The procedure of a call. -/
def perform : CacheEvent → CacheProc CacheReply
  | .put b now => do let r ← put b now; pure (.bool r)
  | .putPrefix ts ps clock => do let hs ← putPrefix ts ps clock; pure (.hashes hs)
  | .lookup hs secs now id => do let l ← lookup hs secs now id; pure (.lease l)
  | .fetch id now => do let bs ← fetch id now; pure (.blocks bs)
  | .reserve id n now => do reserve id n now; pure .none
  | .releaseReservation id => do releaseReservation id; pure .none
  | .publishAndLease bs hs rid secs now id => do
    let l ← publishAndLease bs hs rid secs now id
    pure (.lease l)
  | .resize n => do let r ← resize n; pure (.bool r)
  | .invalidate h => do let r ← invalidate h; pure (.bool r)
  | .expire now => do Proc.modify (expireLeases now); pure .none

/-- A step of a run: what the call returned or raised, and the store after it. -/
def step (s : PrefixCacheStore) (e : CacheEvent) : Except CacheError CacheReply × PrefixCacheStore :=
  (perform e).run s

end PrefixCacheStore

end KakeyaEngine
