import KakeyaEngine.PrefixCache.Store
import KakeyaEngine.Proto
import KakeyaEngine.Lib.SinkWindow

/-!
# The prefill cache hook

`DistributedPrefillCacheHook.prepare` brings a cold verifier to a prompt: it restores the longest snapshot it can find
in the local store or at a peer, lets a remote worker compute one otherwise, computes what is missing block by block,
and publishes every boundary it computed.

What is outside of the hook is an input: the replies of peers and workers, the clock, and the choices that rest on
measured times (`Environment`); the codec of snapshots and payloads (`Codec`); and the verifier (`PrefillVerifier`).
A publication to peers runs on other threads that swallow their failures, so it leaves no trace here.
-/

namespace KakeyaEngine

/-! ### Data -/

/-- The exceptions that pass through the hook.  `raised` is one from outside, by type name and text. -/
inductive HookError
  | cache (e : CacheError)
  | valueError (message : String)
  | runtimeError (message : String)
  | timeoutError (message : String)
  | indexError
  | remotePrefillRequired (message : String)
  | raised (typeName message : String)
deriving DecidableEq

/-- The type name and the text of an exception, as a fallback reports them. -/
def HookError.describe : HookError → String
  | .cache (.valueError m) => "ValueError: " ++ m
  | .cache (.keyError m) => "KeyError: '" ++ m ++ "'"
  | .cache .indexError => "IndexError: list index out of range"
  | .cache (.overflowError m) => "OverflowError: " ++ m
  | .valueError m => "ValueError: " ++ m
  | .runtimeError m => "RuntimeError: " ++ m
  | .timeoutError m => "TimeoutError: " ++ m
  | .indexError => "IndexError: list index out of range"
  | .remotePrefillRequired m => "RemotePrefillRequiredError: " ++ m
  | .raised name m => name ++ ": " ++ m

/-- `_Hit`: a snapshot that may be imported, from the local store or from a peer. -/
structure Hit where
  source : String
  leaseId : String
  hitBlocks : Nat
  hitTokens : Int
  transferBytes : Nat
  payload : Option Bytes := none
  blockHash : Bytes := []
  payloadSha256 : Bytes := []
deriving DecidableEq

/-- The fields of a `LookupPrefixResponse` that the hook reads. -/
structure LookupReply where
  hitBlockCount : Nat
  hitTokenCount : Nat
  transferBytes : Nat
  leaseId : String
  payloadSha256 : Bytes

/-- The fields of a `FetchBlocksResponse` that the hook reads. -/
structure FetchChunk where
  blockHash : Bytes
  chunkIndex : Nat
  totalChunks : Nat
  data : Bytes
  blockSha256 : Bytes
deriving DecidableEq

/-- The fields of a `GetPrefillJobStatusResponse` that the hook reads. -/
structure JobStatus where
  status : PrefillJobState
  tokensComputed : Nat
  leaseId : String
  payloadSha256 : Bytes
  transferBytes : Nat
  failureReason : String
  cacheAddress : String

/-- The statistics that `prepare` writes. -/
structure PrefillReuseStats where
  localHits : Nat := 0
  remoteHits : Nat := 0
  misses : Nat := 0
  tokensReused : Nat := 0
  tokensComputed : Nat := 0
  bytesReceived : Nat := 0
  remoteJobs : Nat := 0
  remoteJobFailures : Nat := 0
  remoteJobTokensTotal : Nat := 0
  remoteJobTokensComputed : Nat := 0
  fallbacks : Nat := 0
  lastFallbackReason : String := ""
  hotPromotions : Nat := 0
  hotPromotionBytes : Nat := 0
  hotPromotionFailures : Nat := 0
deriving DecidableEq

/-- What an import reports about the snapshot it restored. -/
structure ImportedSnapshot where
  tokenCount : Int
  cachedTokenIds : List Token
  blockHash : Option Bytes
  hasLogits : Bool

/-! ### What the hook works with -/

/-- A verifier as the hook uses it.  `importRemote` is the `import_snapshot` of a decode-worker proxy; a verifier
without it restores the snapshot into its own cache with `importLocal`. -/
structure PrefillVerifier (V : Type) where
  cachedTokenSequence : V → List Token
  nextGlobalPosition : V → Nat
  isDecodeWorkerProxy : Bool
  sinkWindowSlice : Option (List Token → List Token)
  reset : Proc V HookError Unit
  prefill : List Token → Proc V HookError Unit
  appendAcceptedTokens : Option (List Token → Proc V HookError Unit)
  forwardBlock : List Token → Proc V HookError Unit
  commitOrTruncate : Nat → Nat → Proc V HookError Unit
  importRemote : Option (Bytes → CacheCompatibility → Proc V HookError ImportedSnapshot)
  importLocal : Bytes → CacheCompatibility → Proc V HookError ImportedSnapshot
  exportSnapshot : V → Nat → Bytes → Except HookError Bytes
  install : List Token → Nat → V → V

/-- The settings of the hook, with the payload codec and the cost model it was built with. -/
structure PrefillCacheHook where
  hashKey : Bytes
  remoteComputeMinTokens : Nat
  maxImportBytes : Nat
  requireRemoteCompute : Bool
  compressPayload : Bytes → Except HookError Bytes
  decompressPayload : Bytes → Except HookError Bytes
  remoteImportWins : Hit → Bool
  onReuse : Option (Nat → Except HookError Unit)

/-- What happens around one call of `prepare`: the clock readings, the lease id that is drawn, the replies of the peers
in the order they complete (`none` for an RPC error), the chunk streams of remote fetches (a chunk or the text of an RPC
error), the worker that is chosen, and the replies of its job until the deadline passes. -/
structure Environment where
  lookupNow : Int
  fetchNow : Int
  leaseId : String
  leaseId_ne : leaseId ≠ ""
  peerReplies : List (String × Option LookupReply)
  fetchBlocks : Hit → List (Except String FetchChunk)
  promoteNow : Hit → Int
  prefillWorker : Option String
  submitJob : Except HookError Unit
  jobStatuses : List (Except HookError JobStatus)
  publishNow : Nat → Int

structure HookState (V : Type) where
  store : PrefixCacheStore
  verifier : V
  stats : PrefillReuseStats := {}

abbrev HookProc (V : Type) (α : Type) : Type := Proc (HookState V) HookError α

namespace PrefillCacheHook

variable {V : Type} (hook : PrefillCacheHook) (verifier : PrefillVerifier V) (env : Environment)

/-- A procedure of the local store. -/
def onStore {α : Type} (x : CacheProc α) : HookProc V α :=
  Proc.focus HookState.store (fun s st => { st with store := s }) HookError.cache x

/-- A procedure of the verifier. -/
def onVerifier {α : Type} (x : Proc V HookError α) : HookProc V α :=
  Proc.focus HookState.verifier (fun v st => { st with verifier := v }) id x

/-- Updates the statistics. -/
def count (f : PrefillReuseStats → PrefillReuseStats) : HookProc V Unit :=
  Proc.modify fun st => { st with stats := f st.stats }

/-! ### The best hit -/

/-- `_lookup_peer`, on the reply of the peer. -/
def lookupPeer (hashes : List Bytes) (peer : String) : Option LookupReply → Option Hit
  | none => none
  | some r =>
    if r.leaseId = "" ∨ r.hitBlockCount = 0 then none
    else if hashes.length < r.hitBlockCount then none
    else
      some
        { source := peer, leaseId := r.leaseId, hitBlocks := r.hitBlockCount, hitTokens := r.hitTokenCount,
          transferBytes := r.transferBytes, blockHash := hashes.getD (r.hitBlockCount - 1) [],
          payloadSha256 := r.payloadSha256 }

/-- The order in which `_best_hit` ranks candidates: more tokens, then the local store, then fewer bytes. -/
def ranksBelow (a b : Hit) : Bool :=
  if a.hitTokens ≠ b.hitTokens then decide (a.hitTokens < b.hitTokens)
  else
    match decide (a.source = "local"), decide (b.source = "local") with
    | false, true => true
    | true, false => false
    | _, _ => decide (b.transferBytes < a.transferBytes)

/-- `max`: the first candidate that none ranks above. -/
def maxHit : List Hit → Option Hit
  | [] => none
  | h :: hs => some (hs.foldl (fun best hit => if ranksBelow best hit then hit else best) h)

/-- The candidate of the local store. -/
def localCandidate (hashes : List Bytes) : HookProc V (List Hit) := do
  let lease ← onStore (PrefixCacheStore.lookup hashes 30 env.lookupNow env.leaseId)
  if lease.leaseId = "" then pure []
  else do
    let blocks ← onStore (PrefixCacheStore.fetch lease.leaseId env.fetchNow)
    match blocks.getLast? with
    | none => Proc.raise .indexError
    | some b =>
      pure
        [{ source := "local", leaseId := lease.leaseId, hitBlocks := lease.hitBlockCount,
           hitTokens := lease.hitTokenCount, transferBytes := lease.transferBytes, payload := some b.payload,
           blockHash := b.blockHash, payloadSha256 := b.payloadSha256 }]

/-- `_best_hit`. -/
def bestHit (hashes : List Bytes) : HookProc V (Option Hit) := do
  let found ← localCandidate env hashes
  let candidates := found ++ env.peerReplies.filterMap fun p => lookupPeer hashes p.1 p.2
  match maxHit candidates with
  | none => pure none
  | some best =>
    if best.source ≠ "local" ∧ hook.remoteImportWins best = false then
      pure (candidates.find? fun c => c.source = "local")
    else pure (some best)

/-! ### Fetching from a peer -/

/-- What `_fetch_remote` has received. -/
structure Reception where
  expectedChunks : Nat := 0
  expectedSha : Bytes := []
  expectedBlockHash : Bytes := []
  parts : Dict Nat Bytes := Dict.empty
  received : Nat := 0

/-- Takes the stream's metadata from its first chunk, and compares it with every later one. -/
def checkMetadata (c : FetchChunk) (r : Reception) : Except HookError Reception :=
  if r.expectedChunks = 0 then
    if 65536 < c.totalChunks then .error (.runtimeError "remote prefill cache chunk count exceeds limit")
    else
      .ok { r with expectedChunks := c.totalChunks, expectedSha := c.blockSha256, expectedBlockHash := c.blockHash }
  else if c.totalChunks ≠ r.expectedChunks ∨ c.blockSha256 ≠ r.expectedSha ∨ c.blockHash ≠ r.expectedBlockHash then
    .error (.runtimeError "remote prefill cache chunk metadata changed")
  else .ok r

/-- The loop of `_fetch_remote` over the stream. -/
def receiveChunks : List (Except String FetchChunk) → Reception → Except HookError Reception
  | [], r => .ok r
  | .error text :: _, _ => .error (.runtimeError ("remote prefill cache fetch failed: " ++ text))
  | .ok c :: rest, r => do
    let r ← checkMetadata c r
    if r.expectedChunks ≤ c.chunkIndex ∨ r.parts.contains c.chunkIndex then
      .error (.runtimeError "invalid or duplicate prefill chunk")
    else if hook.maxImportBytes < r.received + c.data.length then
      .error (.runtimeError "remote prefill payload exceeds import budget")
    else
      receiveChunks rest
        { r with received := r.received + c.data.length, parts := r.parts.set c.chunkIndex c.data }

/-- `_fetch_remote`, on the stream of the peer. -/
def fetchRemote (hit : Hit) (stream : List (Except String FetchChunk)) : Except HookError Bytes :=
  if hook.maxImportBytes < hit.transferBytes then
    .error (.runtimeError "remote prefill payload exceeds import budget")
  else do
    let r ← receiveChunks hook stream {}
    if r.expectedChunks = 0 ∨ r.parts.size ≠ r.expectedChunks then
      .error (.runtimeError "remote prefill cache stream was incomplete")
    else if hit.payloadSha256 ≠ [] ∧ r.expectedSha ≠ hit.payloadSha256 then
      .error (.runtimeError "remote prefill cache lease checksum changed")
    else
      let payload := (List.range r.expectedChunks).flatMap fun i => (r.parts.get? i).getD []
      if Sha256.sha256 payload ≠ r.expectedSha then
        .error (.runtimeError "remote prefill cache checksum mismatch")
      else .ok payload

/-! ### Importing a snapshot -/

/-- `_promote_remote_hit`. -/
def promoteRemoteHit (hit : Hit) (payload : Bytes) (tokenCount : Int) : HookProc V Unit :=
  if hit.blockHash = [] then pure ()
  else
    let promotion : HookProc V Unit := do
      let b ← onStore (Proc.ofExcept (CacheBlock.create hit.blockHash tokenCount payload))
      let stored ← onStore (PrefixCacheStore.put b (env.promoteNow hit))
      if stored then
        count fun c =>
          { c with hotPromotions := c.hotPromotions + 1, hotPromotionBytes := c.hotPromotionBytes + payload.length }
      else pure ()
    promotion.handle fun e =>
      match e with
      | .cache (.valueError _) => count fun c => { c with hotPromotionFailures := c.hotPromotionFailures + 1 }
      | e => Proc.raise e

/-- The payload of a hit, fetched where it is not at hand. -/
def hitPayload (hit : Hit) : HookProc V Bytes :=
  match hit.payload with
  | some payload => pure payload
  | none => do
    let payload ← Proc.ofExcept (fetchRemote hook hit (env.fetchBlocks hit))
    count fun c => { c with bytesReceived := c.bytesReceived + payload.length }
    pure payload

/-- Restores a snapshot, through the proxy where there is one. -/
def importSnapshot (raw : Bytes) (hit : Hit) : HookProc V ImportedSnapshot := do
  let st ← Proc.get
  match verifier.importRemote with
  | some importRemote => do
    let imported ← onVerifier (importRemote raw st.store.compatibility)
    pure { imported with blockHash := some (imported.blockHash.getD hit.blockHash), hasLogits := true }
  | none => do
    onVerifier verifier.reset
    onVerifier (verifier.importLocal raw st.store.compatibility)

/-- Tells the callback how many tokens were reused. -/
def reportReuse (reused : Nat) : HookProc V Unit :=
  match hook.onReuse with
  | some onReuse => Proc.ofExcept (onReuse reused)
  | none => pure ()

/-- Counts an imported hit, and promotes a remote one. -/
def creditHit (hit : Hit) (payload : Bytes) (reused : Nat) : HookProc V Unit :=
  if hit.source = "local" then count fun c => { c with localHits := c.localHits + 1 }
  else do
    count fun c => { c with remoteHits := c.remoteHits + 1 }
    promoteRemoteHit env hit payload reused

/-- The part of `_try_import` inside the `try`. -/
def importHit (tokens : List Token) (hit : Hit) : HookProc V Nat := do
  let st ← Proc.get
  let expected := min ((hit.hitBlocks : Int) * st.store.compatibility.blockSizeTokens) tokens.length
  if hit.hitBlocks = 0 ∨ hit.hitTokens ≠ expected then
    Proc.raise (.valueError "prefill hit does not match a token boundary")
  else if hit.payload = none ∧ hook.maxImportBytes < hit.transferBytes then
    Proc.raise (.valueError "prefill snapshot exceeds wire import budget")
  else do
    let payload ← hitPayload hook env hit
    if hook.maxImportBytes < payload.length then
      Proc.raise (.valueError "prefill snapshot exceeds wire import budget")
    else do
      let raw ← Proc.ofExcept (hook.decompressPayload payload)
      let imported ← importSnapshot verifier raw hit
      if ¬ (0 < imported.tokenCount ∧ imported.tokenCount ≤ tokens.length) ∨ imported.tokenCount ≠ hit.hitTokens then
        Proc.raise (.valueError "prefill snapshot token_count is invalid")
      else if hit.blockHash ≠ [] ∧ imported.blockHash.getD [] ≠ hit.blockHash then
        Proc.raise (.valueError "prefill snapshot block hash mismatch")
      else if imported.hasLogits = false then
        Proc.raise (.valueError "prefill snapshot is missing continuation logits")
      else do
        let reused := min imported.tokenCount.toNat tokens.length
        let expectedCached := (verifier.sinkWindowSlice.getD id) (tokens.take reused)
        if imported.cachedTokenIds ≠ expectedCached then
          Proc.raise (.valueError "prefill snapshot cached token sequence mismatch")
        else do
          Proc.modify fun st => { st with verifier := verifier.install imported.cachedTokenIds reused st.verifier }
          count fun c => { c with tokensReused := c.tokensReused + reused }
          reportReuse hook reused
          creditHit env hit payload reused
          pure reused

/-- Invalidates the block of a local hit. -/
def invalidateHit (hit : Hit) : HookProc V Unit :=
  if hit.source = "local" ∧ hit.blockHash ≠ [] then do
    let _ ← onStore (PrefixCacheStore.invalidate hit.blockHash)
    pure ()
  else pure ()

/-- `_try_import`: whatever goes wrong, the hit is given up and the verifier reset. -/
def tryImport (tokens : List Token) (hit : Hit) : HookProc V Nat :=
  (importHit hook verifier env tokens hit).handle fun e => do
    count fun c => { c with fallbacks := c.fallbacks + 1, lastFallbackReason := e.describe }
    invalidateHit hit
    onVerifier verifier.reset
    pure 0

/-! ### Remote computation -/

/-- The polling loop of `_compute_remote`, on the replies until the deadline. -/
def pollJob (tokens : List Token) (hashes : List Bytes) (worker : String) :
    List (Except HookError JobStatus) → HookProc V Hit
  | [] => Proc.raise (.timeoutError "remote prefill job timed out")
  | reply :: rest => do
    let status ← Proc.ofExcept reply
    count fun c => { c with remoteJobTokensComputed := min tokens.length status.tokensComputed }
    match status.status with
    | .completed =>
      match hashes.getLast? with
      | none => Proc.raise .indexError
      | some last =>
        pure
          { source := if status.cacheAddress = "" then worker else status.cacheAddress, leaseId := status.leaseId,
            hitBlocks := hashes.length, hitTokens := status.tokensComputed, transferBytes := status.transferBytes,
            blockHash := last, payloadSha256 := status.payloadSha256 }
    | .failed | .cancelled =>
      Proc.raise (.runtimeError
        (if status.failureReason = "" then "remote prefill job failed" else status.failureReason))
    | .unspecified | .queued | .running => pollJob tokens hashes worker rest

/-- `_compute_remote`.  A job that failed is cancelled, and a failure to cancel it is swallowed. -/
def computeRemote (tokens : List Token) (hashes : List Bytes) : HookProc V (Option Hit) :=
  match env.prefillWorker with
  | none => pure none
  | some worker =>
    let job : HookProc V (Option Hit) := do
      Proc.ofExcept env.submitJob
      count fun c =>
        { c with
          remoteJobs := c.remoteJobs + 1, remoteJobTokensTotal := tokens.length, remoteJobTokensComputed := 0 }
      let hit ← pollJob tokens hashes worker env.jobStatuses
      pure (some hit)
    job.handle fun e => do
      count fun c =>
        { c with
          remoteJobFailures := c.remoteJobFailures + 1, fallbacks := c.fallbacks + 1,
          lastFallbackReason := e.describe }
      pure none

/-! ### Computing and publishing -/

/-- Appends accepted tokens, through a forward pass and a commit where the verifier has no call for it. -/
def advance (tokens : List Token) : Proc V HookError Unit :=
  match verifier.appendAcceptedTokens with
  | some append => append tokens
  | none => do
    verifier.forwardBlock tokens
    verifier.commitOrTruncate tokens.length tokens.length

/-- The snapshot of the verifier at a boundary, as it is published. -/
def snapshotBlock (v : V) (hash : Bytes) (prefixEnd : Nat) : Except HookError CacheBlock := do
  let raw ← verifier.exportSnapshot v prefixEnd hash
  let payload ← hook.compressPayload raw
  (CacheBlock.create hash prefixEnd payload).mapError HookError.cache

/-- `_publish_boundary`. -/
def publishBoundary (hashes : List Bytes) (blockIndex prefixEnd : Nat) : HookProc V Unit :=
  match hashes[blockIndex]? with
  | none => Proc.raise .indexError
  | some hash => do
    let st ← Proc.get
    let b ← Proc.ofExcept (snapshotBlock hook verifier st.verifier hash prefixEnd)
    let _ ← onStore (PrefixCacheStore.put b (env.publishNow blockIndex))
    pure ()

/-- Feeds the tokens from `start` to `stop` to the verifier, the first block with a prefill. -/
def feedBlock (tokens : List Token) (start stop : Nat) : Proc V HookError Unit :=
  let blockTokens := (tokens.take stop).drop start
  if start = 0 then verifier.prefill blockTokens else advance verifier blockTokens

/-- Computes one block, and publishes its boundary unless the verifier is a proxy. -/
def computeBlock (tokens : List Token) (hashes : List Bytes) (blockIndex start stop : Nat) : HookProc V Unit := do
  onVerifier (feedBlock verifier tokens start stop)
  count fun c => { c with tokensComputed := c.tokensComputed + (stop - start) }
  if verifier.isDecodeWorkerProxy then pure ()
  else publishBoundary hook verifier env hashes blockIndex stop

/-- The loop of `_compute_and_publish`, with the number of iterations it may still take. -/
def computeBlocks (tokens : List Token) (hashes : List Bytes) (size : Nat) : Nat → Nat → HookProc V Unit
  | 0, _ => pure ()
  | n + 1, cursor =>
    if cursor < tokens.length then do
      let blockIndex := cursor / size
      let stop := min ((blockIndex + 1) * size) tokens.length
      computeBlock hook verifier env tokens hashes blockIndex cursor stop
      computeBlocks tokens hashes size n stop
    else pure ()

/-- The first block of a cold verifier is prefilled: where the loop goes on. -/
def computeFirst (tokens : List Token) (hashes : List Bytes) (size reused : Nat) : HookProc V Nat :=
  if reused = 0 then do
    let firstEnd := min size tokens.length
    computeBlock hook verifier env tokens hashes 0 0 firstEnd
    pure firstEnd
  else pure reused

/-- `_compute_and_publish`.  Every iteration computes a token, so there are at most as many as tokens. -/
def computeAndPublish (tokens : List Token) (hashes : List Bytes) (reused : Nat) : HookProc V Unit := do
  let st ← Proc.get
  let size := st.store.compatibility.blockSizeTokens.toNat
  let cursor ← computeFirst hook verifier env tokens hashes size reused
  computeBlocks hook verifier env tokens hashes size tokens.length cursor

/-- The loop may take more iterations than there are tokens left. -/
theorem computeBlocks_fuel {tokens : List Token} (hashes : List Bytes) {size : Nat} (hsize : 0 < size) (n : Nat)
    {cursor : Nat} (hn : tokens.length - cursor ≤ n) :
    computeBlocks hook verifier env tokens hashes size (n + 1) cursor =
      computeBlocks hook verifier env tokens hashes size n cursor := by
  induction n generalizing cursor with
  | zero =>
    unfold computeBlocks
    rw [if_neg (by omega)]
  | succ n ih =>
    conv => lhs; unfold computeBlocks
    conv => rhs; unfold computeBlocks
    have hnext := Nat.lt_mul_div_succ cursor hsize
    rw [Nat.mul_comm] at hnext
    dsimp only
    by_cases hlt : cursor < tokens.length
    · rw [if_pos hlt, if_pos hlt, ih (by omega)]
    · rw [if_neg hlt, if_neg hlt]

/-- With tokens to compute the first block is the first iteration of the loop. -/
theorem run_computeAndPublish {tokens : List Token} (hne : tokens ≠ []) {hashes : List Bytes} {reused : Nat}
    {st : HookState V} (hsize : 0 < st.store.compatibility.blockSizeTokens.toNat) :
    (computeAndPublish hook verifier env tokens hashes reused).run st =
      (computeBlocks hook verifier env tokens hashes st.store.compatibility.blockSizeTokens.toNat tokens.length
        reused).run st := by
  have hlen : 0 < tokens.length := List.length_pos_iff.2 hne
  unfold computeAndPublish computeFirst
  rw [Proc.run_get_bind]
  generalize st.store.compatibility.blockSizeTokens.toNat = size at hsize ⊢
  dsimp only
  by_cases h0 : reused = 0
  · obtain ⟨n, hn⟩ : ∃ n, tokens.length = n + 1 := ⟨tokens.length - 1, by omega⟩
    have hfuel := computeBlocks_fuel hook verifier env hashes hsize n
      (show tokens.length - min size tokens.length ≤ n by omega)
    rw [if_pos h0, h0]
    rw [← hn] at hfuel
    conv => rhs; rw [hn]; unfold computeBlocks
    rw [if_pos hlen, Nat.zero_div]
    dsimp only
    rw [Nat.zero_add, Nat.one_mul, ← hfuel]
    rcases hrun : (computeBlock hook verifier env tokens hashes 0 0 (min size tokens.length)).run st with ⟨e | _, st'⟩
    · rw [Proc.run_bind_error (Proc.run_bind_error hrun), Proc.run_bind_error hrun]
    · have hfirst : (computeBlock hook verifier env tokens hashes 0 0 (min size tokens.length) >>= fun _ =>
          pure (min size tokens.length)).run st = (.ok (min size tokens.length), st') := Proc.run_bind_ok hrun
      rw [Proc.run_bind_ok hfirst, Proc.run_bind_ok hrun]
  · rw [if_neg h0]
    rfl

/-! ### Preparing a verifier -/

/-- Imports a hit, if there is one. -/
def tryImport? (tokens : List Token) : Option Hit → HookProc V Nat
  | none => pure 0
  | some hit => tryImport hook verifier env tokens hit

/-- Has a worker compute the snapshot where none was imported, and imports it. -/
def importComputed (tokens : List Token) (hashes : List Bytes) (imported : Nat) : HookProc V Nat :=
  if imported = 0 ∧ (hook.requireRemoteCompute ∨ hook.remoteComputeMinTokens ≤ tokens.length) then do
    let remoteHit ← computeRemote env tokens hashes
    tryImport? hook verifier env tokens remoteHit
  else pure imported

/-- Counts a miss. -/
def countMiss (reused : Nat) : HookProc V Unit :=
  if reused = 0 then count fun c => { c with misses := c.misses + 1 } else pure ()

/-- The part of `prepare` that restores a prefix, with the number of tokens it restored. -/
def restorePrefix (tokens : List Token) (hashes : List Bytes) : HookProc V Nat := do
  let best ← bestHit hook env hashes
  let hit :=
    if hook.requireRemoteCompute then best.filter fun hit => decide (hit.hitTokens = (tokens.length : Int)) else best
  let imported ← tryImport? hook verifier env tokens hit
  let reused ← importComputed hook verifier env tokens hashes imported
  countMiss reused
  pure reused

/-- `prepare`. -/
def prepare (tokens : List Token) : HookProc V Nat :=
  if tokens = [] then pure 0
  else do
    let st ← Proc.get
    let hashes ← onStore (Proc.ofExcept (chainedBlockHashes tokens st.store.compatibility hook.hashKey))
    let reused ← restorePrefix hook verifier env tokens hashes
    if hook.requireRemoteCompute ∧ reused ≠ tokens.length then do
      onVerifier verifier.reset
      let st ← Proc.get
      Proc.raise (.remotePrefillRequired
        (if st.stats.lastFallbackReason = "" then "no compatible remote prefill worker completed the request"
        else st.stats.lastFallbackReason))
    else do
      computeAndPublish hook verifier env tokens hashes reused
      pure reused

end PrefillCacheHook

/-! ### Verifiers that do not fail -/

/-- The operations of the verifier do not fail and keep its books: it holds the sink and the window of what it has
consumed and counts it.  `Ready` are the states from which tokens can be appended. -/
structure PrefillVerifier.Reliable {V : Type} (verifier : PrefillVerifier V) (sink window : Nat) (Ready : V → Prop) :
    Prop where
  slice : verifier.sinkWindowSlice = some (SinkWindow.trim sink window)
  reset : ∀ v, ∃ v', verifier.reset.run v = (.ok (), v')
  prefill : ∀ v ts, ts ≠ [] → ∃ v', (verifier.prefill ts).run v = (.ok (), v') ∧ Ready v' ∧
    verifier.cachedTokenSequence v' = SinkWindow.trim sink window ts ∧ verifier.nextGlobalPosition v' = ts.length
  advance : ∀ v ts, Ready v → ts ≠ [] → ∃ v', (PrefillCacheHook.advance verifier ts).run v = (.ok (), v') ∧ Ready v' ∧
    verifier.cachedTokenSequence v' = SinkWindow.trim sink window (verifier.cachedTokenSequence v ++ ts) ∧
    verifier.nextGlobalPosition v' = verifier.nextGlobalPosition v + ts.length
  installed : ∀ ids n v, verifier.cachedTokenSequence (verifier.install ids n v) = ids ∧
    verifier.nextGlobalPosition (verifier.install ids n v) = n
  imported : ∀ raw c v v' i n, (verifier.importLocal raw c).run v = (.ok i, v') →
    Ready (verifier.install i.cachedTokenIds n v')
  importedRemote : ∀ f raw c v v' i n, verifier.importRemote = some f → (f raw c).run v = (.ok i, v') →
    Ready (verifier.install i.cachedTokenIds n v')

end KakeyaEngine
