import KakeyaEngine.PrefixCache.Service
import KakeyaEngine.PrefixCache.Transparency

/-!
# Blocks on the wire

A block is cut into chunks to be fetched or published.  Whatever the order in which the chunks arrive, the receiver puts
the payload together again, and a publication hands the store the block it was cut from.

Of a stream that is not as it was sent, a fetch accepts only what has the digest of the hit, if the hit has one.  A
publication stands for what its first chunk says: the hash, the number of tokens and the digest of the block.  Nothing
but the authentication protects this chunk, and it is signed for one chunk only, so an authenticated service takes the
chunks in the orders that begin with this one.
-/

namespace KakeyaEngine

/-- The block is made by `CacheBlock.create`. -/
def CacheBlock.Created (b : CacheBlock) : Prop := create b.blockHash b.tokenCount b.payload = .ok b

theorem CacheBlock.Created.digest {b : CacheBlock} (h : b.Created) : b.payloadSha256 = Sha256.sha256 b.payload := by
  unfold CacheBlock.Created create at h
  split at h
  · cases h
  · split at h
    · cases h
    · exact congrArg CacheBlock.payloadSha256 (Except.ok.inj h).symm

/-- Another payload has the digest. -/
def Collides (payload other : Bytes) : Prop := other ≠ payload ∧ Sha256.sha256 other = Sha256.sha256 payload

/-! ### Messages -/

theorem uint32_ok {n : Int} {u : UInt32} (h : uint32 n = .ok u) : (u.toNat : Int) = n := by
  unfold uint32 at h
  split at h
  · rename_i hn
    rw [← Except.ok.inj h]
    have hmod : (UInt32.ofNat n.toNat).toNat = n.toNat := by
      rw [UInt32.toNat_ofNat']
      exact Nat.mod_eq_of_lt (by omega)
    rw [hmod]
    exact Int.toNat_of_nonneg hn.1
  · cases h

private theorem bind_ok {ε α β : Type} {x : Except ε α} {f : α → Except ε β} {b : β} (h : (x >>= f) = .ok b) :
    ∃ a, x = .ok a ∧ f a = .ok b := by
  cases x with
  | error e => cases h
  | ok a => exact ⟨a, rfl, h⟩

/-- The tuple is read as it was written. -/
theorem CacheCompatibility.fromProto_toProto {c : CacheCompatibility} {m : Auth.CompatibilityMessage}
    (h : c.toProto = .ok m) : CacheCompatibility.fromProto (some m) = c := by
  unfold CacheCompatibility.toProto at h
  obtain ⟨blockSize, hblock, h⟩ := bind_ok h
  obtain ⟨sink, hsink, h⟩ := bind_ok h
  obtain ⟨window, hwindow, h⟩ := bind_ok h
  rw [← Except.ok.inj h]
  unfold CacheCompatibility.fromProto
  rw [Option.getD_some]
  dsimp only
  rw [uint32_ok hblock, uint32_ok hsink, uint32_ok hwindow]

/-- A chunk of the block, as `publish_block_sync` sends it. -/
private structure ChunkOf (b : CacheBlock) (c : CacheCompatibility) (chunkBytes : Nat) (m : PublishChunk) : Prop where
  hash : m.blockHash = b.blockHash
  tokens : (m.tokenCount.toNat : Int) = b.tokenCount
  total : m.totalChunks.toNat = Chunks.count chunkBytes b.nbytes
  sha : m.blockSha256 = b.payloadSha256
  index : m.chunkIndex < m.totalChunks
  compatibility : CacheCompatibility.fromProto m.compatibility = c

/-- The number and the data of a chunk. -/
def PublishChunk.part (m : PublishChunk) : Nat × Bytes := (m.chunkIndex.toNat, m.data)

private theorem publishBlockSync_ok {c : CacheCompatibility} {b : CacheBlock} {chunkBytes : Nat}
    {messages : List PublishChunk} (h : publishBlockSync c b chunkBytes = .ok messages) :
    (∀ m ∈ messages, ChunkOf b c chunkBytes m) ∧
      messages.map PublishChunk.part = Chunks.numbered chunkBytes b.payload := by
  unfold publishBlockSync at h
  obtain ⟨tokens, htokens, h⟩ := bind_ok h
  obtain ⟨total, htotal, h⟩ := bind_ok h
  obtain ⟨message, hmessage, h⟩ := bind_ok h
  have htotal : total.toNat = Chunks.count chunkBytes b.nbytes := by exact_mod_cast uint32_ok htotal
  have hindex : ∀ i ∈ List.range (Chunks.count chunkBytes b.nbytes), (UInt32.ofNat i).toNat = i := by
    intro i hi
    have hlt := total.toNat_lt
    rw [htotal] at hlt
    rw [UInt32.toNat_ofNat']
    exact Nat.mod_eq_of_lt (Nat.lt_trans (List.mem_range.1 hi) hlt)
  rw [← Except.ok.inj h]
  constructor
  · intro m hm
    obtain ⟨i, hi, rfl⟩ := List.mem_map.1 hm
    refine ⟨rfl, uint32_ok htokens, htotal, rfl, ?_, ?_⟩
    · show UInt32.ofNat i < total
      rw [UInt32.lt_iff_toNat_lt, hindex i hi, htotal]
      exact List.mem_range.1 hi
    · exact CacheCompatibility.fromProto_toProto hmessage
  · unfold Chunks.numbered
    rw [List.map_map]
    apply List.map_congr_left
    intro i hi
    exact congrArg (·, Chunks.piece chunkBytes b.payload i) (hindex i hi)

/-! ### Fetching -/

/-- The number and the data of a chunk. -/
def FetchChunk.part (c : FetchChunk) : Nat × Bytes := (c.chunkIndex, c.data)

/-- The bytes of some parts. -/
def partBytes (parts : List (Nat × Bytes)) : Nat := (parts.map fun p => p.2.length).sum

private theorem partBytes_append (parts parts' : List (Nat × Bytes)) :
    partBytes (parts ++ parts') = partBytes parts + partBytes parts' := by
  simp [partBytes]

private theorem partBytes_one (p : Nat × Bytes) : partBytes [p] = p.2.length := by
  simp [partBytes]

/-- A chunk of one block among `total`. -/
private structure FetchChunk.Of (hash sha : Bytes) (total : Nat) (c : FetchChunk) : Prop where
  blockHash : c.blockHash = hash
  blockSha256 : c.blockSha256 = sha
  totalChunks : c.totalChunks = total
  index : c.chunkIndex < total

/-- The chunks of one block that have been received. -/
private structure Received (hash sha : Bytes) (total : Nat) (parts : List (Nat × Bytes))
    (r : PrefillCacheHook.Reception) : Prop where
  collected : Chunks.Collected r.parts parts
  bytes : r.received = partBytes parts
  metadata : r.expectedChunks = 0 ∧ parts = [] ∨
    r.expectedChunks = total ∧ r.expectedSha = sha ∧ r.expectedBlockHash = hash

private theorem Received.checkMetadata {hash sha : Bytes} {total : Nat} {parts : List (Nat × Bytes)}
    {r : PrefillCacheHook.Reception} (hr : Received hash sha total parts r) (hmany : total ≤ 65536) {c : FetchChunk}
    (hc : c.Of hash sha total) :
    ∃ r', PrefillCacheHook.checkMetadata c r = .ok r' ∧ Received hash sha total parts r' ∧ r'.expectedChunks = total := by
  have hpos := hc.index
  unfold PrefillCacheHook.checkMetadata
  rcases hr.metadata with ⟨hzero, hparts⟩ | ⟨htotal, hsha, hhash⟩
  · rw [if_pos hzero, if_neg (by rw [hc.totalChunks]; omega)]
    exact ⟨_, rfl, ⟨hr.collected, hr.bytes, Or.inr ⟨hc.totalChunks, hc.blockSha256, hc.blockHash⟩⟩, hc.totalChunks⟩
  · rw [if_neg (by omega), if_neg (by rw [hc.totalChunks, hc.blockSha256, hc.blockHash, htotal, hsha, hhash]; simp)]
    exact ⟨r, rfl, hr, htotal⟩

/-- The loop of the fetch takes every chunk of a block with a new number, within the budget. -/
private theorem receiveChunks_ok (hook : PrefillCacheHook) {hash sha : Bytes} {total : Nat} (hmany : total ≤ 65536)
    (cs : List FetchChunk) {parts : List (Nat × Bytes)} {r : PrefillCacheHook.Reception}
    (hr : Received hash sha total parts r) (hcs : ∀ c ∈ cs, c.Of hash sha total)
    (hnew : ((parts ++ cs.map FetchChunk.part).map Prod.fst).Nodup)
    (hbytes : partBytes (parts ++ cs.map FetchChunk.part) ≤ hook.maxImportBytes) :
    ∃ r', hook.receiveChunks (cs.map .ok) r = .ok r' ∧
      Received hash sha total (parts ++ cs.map FetchChunk.part) r' := by
  induction cs generalizing parts r with
  | nil =>
    refine ⟨r, rfl, ?_⟩
    rw [List.map_nil, List.append_nil]
    exact hr
  | cons c cs ih =>
    have hc := hcs c (by simp)
    obtain ⟨r₁, hcheck, hr₁, htotal⟩ := hr.checkMetadata hmany hc
    have hfresh : r₁.parts.contains c.chunkIndex = false := hr₁.collected.not_contains_next hnew
    have hsplit : parts ++ (c :: cs).map FetchChunk.part = (parts ++ [c.part]) ++ cs.map FetchChunk.part := by simp
    rw [hsplit] at hnew hbytes ⊢
    have hfits : r₁.received + c.data.length ≤ hook.maxImportBytes := by
      have hle := hbytes
      rw [partBytes_append, partBytes_append, partBytes_one, ← hr₁.bytes] at hle
      exact Nat.le_of_add_right_le hle
    rw [List.map_cons]
    unfold PrefillCacheHook.receiveChunks
    rw [hcheck]
    show ∃ r', (if r₁.expectedChunks ≤ c.chunkIndex ∨ r₁.parts.contains c.chunkIndex then _ else _) = Except.ok r' ∧ _
    rw [if_neg (by rw [hfresh, htotal]; have := hc.index; simp; omega), if_neg (by omega)]
    apply ih
    · refine ⟨hr₁.collected.add hfresh c.data, ?_, Or.inr ?_⟩
      · show r₁.received + c.data.length = _
        rw [partBytes_append, partBytes_one, hr₁.bytes]
        rfl
      · rcases hr₁.metadata with ⟨hzero, -⟩ | hmeta
        · have := hc.index
          omega
        · exact hmeta
    · exact fun c' hc' => hcs c' (by simp [hc'])
    · exact hnew
    · exact hbytes

/-- Chunks that are the pieces of a payload, in any order, are put together to it. -/
private theorem fetchRemote_pieces (hook : PrefillCacheHook) (hit : Hit) {size : Nat} (hsize : 0 < size)
    {hash payload : Bytes} {arrival : List FetchChunk}
    (hof : ∀ c ∈ arrival, c.Of hash (Sha256.sha256 payload) (Chunks.count size payload.length))
    (hperm : (arrival.map FetchChunk.part).Perm (Chunks.numbered size payload))
    (hmany : Chunks.count size payload.length ≤ 65536) (hlarge : payload.length ≤ hook.maxImportBytes)
    (hhit : hit.transferBytes ≤ hook.maxImportBytes)
    (hsha : hit.payloadSha256 = [] ∨ hit.payloadSha256 = Sha256.sha256 payload) :
    hook.fetchRemote hit (arrival.map .ok) = .ok payload := by
  have hstart : Received hash (Sha256.sha256 payload) (Chunks.count size payload.length) [] {} :=
    ⟨Chunks.Collected.empty, rfl, Or.inl ⟨rfl, rfl⟩⟩
  have hnodup : (([] ++ arrival.map FetchChunk.part).map Prod.fst).Nodup := by
    rw [List.nil_append, (hperm.map Prod.fst).nodup_iff, Chunks.numbered_fst]
    exact List.nodup_range
  have hbytes : partBytes ([] ++ arrival.map FetchChunk.part) = payload.length := by
    rw [List.nil_append, ← Chunks.sum_numbered hsize payload]
    exact (hperm.map _).sum_eq
  obtain ⟨r, hrun, hr⟩ := receiveChunks_ok hook hmany arrival hstart hof hnodup (by omega)
  rw [List.nil_append] at hr
  have hpos : 0 < Chunks.count size payload.length := Nat.lt_of_lt_of_le Nat.one_pos (Nat.le_max_left _ _)
  have hlen : (arrival.map FetchChunk.part).length = Chunks.count size payload.length := by
    rw [hperm.length_eq, Chunks.length_numbered]
  have hmeta : r.expectedChunks = Chunks.count size payload.length ∧ r.expectedSha = Sha256.sha256 payload := by
    rcases hr.metadata with ⟨-, hnil⟩ | ⟨htotal, hd, -⟩
    · rw [hnil] at hlen
      simp at hlen
      omega
    · exact ⟨htotal, hd⟩
  have hjoin : ((List.range r.expectedChunks).flatMap fun i => (r.parts.get? i).getD []) = payload := by
    rw [hmeta.1]
    exact Chunks.join_collected hsize hr.collected hperm
  have hsize' : r.parts.size = r.expectedChunks := by rw [hr.collected.size, hlen, hmeta.1]
  unfold PrefillCacheHook.fetchRemote
  rw [if_neg (by omega), hrun]
  show (if r.expectedChunks = 0 ∨ r.parts.size ≠ r.expectedChunks then _ else _) = _
  rw [if_neg (by rw [hsize', hmeta.1]; simp; omega)]
  rw [if_neg (by rw [hmeta.2]; rcases hsha with h | h <;> simp [h])]
  dsimp only
  rw [hjoin, if_neg (by rw [hmeta.2]; simp)]

/-- What a fetch returns has the digest of the hit. -/
private theorem fetchRemote_digest {hook : PrefillCacheHook} {hit : Hit} {stream : List (Except String FetchChunk)}
    {payload : Bytes} (h : hook.fetchRemote hit stream = .ok payload) (hsha : hit.payloadSha256 ≠ []) :
    Sha256.sha256 payload = hit.payloadSha256 := by
  unfold PrefillCacheHook.fetchRemote at h
  split at h
  · cases h
  · obtain ⟨r, -, h⟩ := bind_ok h
    dsimp only at h
    split at h
    · cases h
    · split at h
      · cases h
      · rename_i hlease
        split at h
        · cases h
        · rename_i hdigest
          rw [← Except.ok.inj h, not_not.1 hdigest]
          exact not_not.1 fun hne => hlease ⟨hsha, hne⟩

/-! ### Serving -/

namespace PrefixCacheStore

/-- Every lease names one block, and every stored block is made by `CacheBlock.create`. -/
structure Servable (s : PrefixCacheStore) : Prop where
  single : ∀ id l, s.leases.get? id = some l → ∃ h, l.blockHashes = [h]
  created : ∀ h b, s.blocks.get? h = some b → b.Created

private theorem servable_closed {R : Rights} (hR : ∀ b, R.stores b → b.Created) : Closed R Servable := by
  intro s s' hm hs
  cases hm with
  | expire hr => exact ⟨fun id l hl => hs.single id l (get?_expireLeases.1 hl).1, hs.created⟩
  | @evict h b hb hp =>
    refine ⟨hs.single, ?_⟩
    intro x bx hx
    simp only [evictBlock, Dict.get?_erase] at hx
    split at hx
    · cases hx
    · exact hs.created x bx hx
  | @touch h =>
    refine ⟨hs.single, ?_⟩
    intro x bx hx
    simp only [touch, Dict.get?_moveToEnd] at hx
    exact hs.created x bx hx
  | @store b hb hr =>
    refine ⟨hs.single, ?_⟩
    intro x bx hx
    simp only [storeBlock, Dict.get?_set] at hx
    split at hx
    · rw [← Option.some.inj hx]
      exact hR b hr
    · exact hs.created x bx hx
  | @grant h b l hb hl hd hr =>
    refine ⟨?_, hs.created⟩
    intro id l' hl'
    simp only [Dict.get?_set] at hl'
    split at hl'
    · rw [← Option.some.inj hl']
      exact ⟨h, hl⟩
    · exact hs.single id l' hl'
  | @drop h b hb hr =>
    constructor
    · intro id l hl
      simp only [dropBlock, Dict.get?_filter, Option.filter_eq_some_iff] at hl
      exact hs.single id l hl.1
    · intro x bx hx
      simp only [dropBlock, Dict.get?_erase] at hx
      split at hx
      · cases hx
      · exact hs.created x bx hx
  | books hc hb hl hu =>
    constructor
    · rw [hl]
      exact hs.single
    · rw [hb]
      exact hs.created

/-- In a run that stores created blocks the store can serve every lease. -/
theorem final_servable {c : CacheCompatibility} {n : Int} {nodeId : String} {s : PrefixCacheStore}
    (hs : create c n nodeId = .ok s) {run : List CacheEvent} (hrun : ∀ e ∈ run, ∀ b, (rights c e).stores b → b.Created) :
    (Machine.final step s run).Servable := by
  obtain ⟨-, rfl⟩ := create_ok hs
  have hsound := (final_sound hs []).1
  refine final_of_closed (fun e he => servable_closed (hrun e he)) hsound rfl ⟨?_, ?_⟩
  · intro id l hl
    cases hl
  · intro h b hb
    cases hb

/-- A lease that is served names one block, and this is served. -/
theorem Servable.fetch_ok {s s' : PrefixCacheStore} (hs : s.Servable) (hsound : s.Sound) {id : String} {now : Int}
    {bs : List CacheBlock} (h : (fetch id now).run s = (.ok bs, s')) :
    ∃ l b, s.leases.get? id = some l ∧ l.blockHashes = [b.blockHash] ∧ s.blocks.get? b.blockHash = some b ∧ bs = [b] := by
  unfold fetch at h
  rw [Proc.run_modify_bind, Proc.run_get_bind] at h
  cases hl : (s.expireLeases now).leases.get? id with
  | none =>
    rw [hl] at h
    cases (Prod.mk.inj h).1
  | some l =>
    rw [hl] at h
    dsimp only at h
    have hlease := (get?_expireLeases.1 hl).1
    obtain ⟨x, hx⟩ := hs.single id l hlease
    obtain ⟨b, hb, -⟩ := (hsound.leased id l hlease).2 x (by rw [hx]; simp)
    have hkey := hsound.keyed x b hb
    subst hkey
    have hblocks : leasedBlocks (s.expireLeases now).blocks l.blockHashes = some [b] := by
      have hb' : (s.expireLeases now).blocks.get? b.blockHash = some b := hb
      simp [hx, leasedBlocks, hb']
    rw [hblocks] at h
    exact ⟨l, b, hlease, hx, hb, (Except.ok.inj (Prod.mk.inj h).1).symm⟩

end PrefixCacheStore

namespace PrefillCacheService

variable {service : PrefillCacheService} {context : CallContext}

private theorem blockChunks_ok {b : CacheBlock} (hb : b.Created) {stream : List FetchChunk}
    (h : service.blockChunks b = .ok stream) :
    (∀ c ∈ stream, c.Of b.blockHash (Sha256.sha256 b.payload) (Chunks.count service.chunkBytes b.nbytes)) ∧
      stream.map FetchChunk.part = Chunks.numbered service.chunkBytes b.payload := by
  unfold blockChunks at h
  obtain ⟨_, -, h⟩ := bind_ok h
  obtain ⟨_, -, h⟩ := bind_ok h
  rw [← Except.ok.inj h]
  constructor
  · intro c hc
    obtain ⟨i, hi, rfl⟩ := List.mem_map.1 hc
    exact ⟨rfl, hb.digest, rfl, List.mem_range.1 hi⟩
  · rw [List.map_map]
    rfl

/-- A stream that `FetchBlocks` serves is cut from the block of the lease. -/
theorem fetchBlocks_ok {s s' : PrefixCacheStore} (hs : s.Servable) (hsound : s.Sound) {leaseId : String} {now : Int}
    {stream : List FetchChunk} (h : (service.fetchBlocks context leaseId now).run s = (.ok stream, s')) :
    ∃ l b, s.leases.get? leaseId = some l ∧ l.blockHashes = [b.blockHash] ∧ s.blocks.get? b.blockHash = some b ∧
      service.blockChunks b = .ok stream := by
  unfold fetchBlocks at h
  obtain ⟨_, t, hauth, hserve⟩ := Proc.of_run_bind_ok h
  rw [Proc.run_ofExcept] at hauth
  rw [← (Prod.mk.inj hauth).2] at hserve
  obtain ⟨bs, t₁, hfetch, hcutting⟩ := Proc.of_run_bind_ok hserve
  obtain ⟨chunks, t₂, hchunks, hflat⟩ := Proc.of_run_bind_ok hcutting
  rw [Proc.run_focus] at hfetch
  split at hfetch
  · rename_i bs' t'' hrun
    obtain rfl := Except.ok.inj (Prod.mk.inj hfetch).1
    obtain ⟨l, b, hlease, hblock, hstored, rfl⟩ := hs.fetch_ok hsound hrun
    refine ⟨l, b, hlease, hblock, hstored, ?_⟩
    rw [Proc.run_ofExcept] at hchunks
    have hmap := (Prod.mk.inj hchunks).1
    have hstream := Except.ok.inj (Prod.mk.inj hflat).1
    cases hcut : service.blockChunks b with
    | error e =>
      rw [List.mapM_cons, hcut] at hmap
      cases hmap
    | ok cs =>
      rw [List.mapM_cons, hcut] at hmap
      rw [← hstream, ← Except.ok.inj hmap]
      simp
  · cases (Prod.mk.inj hfetch).1

/-! ### Publishing -/

variable (service context) in
/-- The metadata of the call is enough for the chunk: the service asks for none, or a node of its tenant has signed the
chunk and sent the metadata not long ago. -/
def Vouched (m : PublishChunk) : Prop :=
  ∀ config, service.auth = some config → ∃ signing : Auth.Signing,
    signing.request = m.request ∧ signing.config.psk = config.psk ∧ signing.config.tenantId = config.tenantId ∧
      context.invocationMetadata = signing.metadata ∧ Auth.age context.now signing.timestamp ≤ config.maxClockSkew

private theorem Vouched.authenticate {m : PublishChunk} (h : service.Vouched context m) :
    service.authenticate context m.request = .ok () := by
  unfold PrefillCacheService.authenticate
  cases hauth : service.auth with
  | none => rfl
  | some config =>
    obtain ⟨signing, hrequest, hpsk, htenant, hmetadata, hrecent⟩ := h config hauth
    dsimp only
    rw [hmetadata, ← hrequest, Auth.Signing.accepted hpsk htenant hrecent]

/-- A chunk that passes the checks is added to the publication. -/
private theorem receivePublication_cons {m : PublishChunk} {p : Publication}
    (hcheck : service.checkChunk context m p.first = .ok ()) (hindex : m.chunkIndex < m.totalChunks)
    (hnew : p.parts.contains m.chunkIndex.toNat = false) (hdata : m.data.length ≤ service.chunkBytes)
    (hbytes : p.received + m.data.length ≤ service.maxPayloadBytes) (rest : List PublishChunk) :
    service.receivePublication context (m :: rest) p =
      service.receivePublication context rest
        { first := some (p.first.getD m), parts := p.parts.set m.chunkIndex.toNat m.data,
          received := p.received + m.data.length } := by
  have hle : ¬ m.totalChunks ≤ m.chunkIndex := UInt32.not_le.2 hindex
  rw [receivePublication, hcheck]
  show (if m.totalChunks ≤ m.chunkIndex ∨ p.parts.contains m.chunkIndex.toNat ∨ service.chunkBytes < m.data.length
    then _ else _) = _
  rw [if_neg (by rw [hnew]; simp [hle, hdata]), if_neg (by omega)]

variable (service context) in
/-- After the first chunk the loop takes every chunk of the block with a new number, within the limits. -/
private theorem receivePublication_rest {b : CacheBlock} {c : CacheCompatibility} {chunkBytes : Nat}
    {first : PublishChunk} (hfirst : ChunkOf b c chunkBytes first) (rest : List PublishChunk) {p : Publication}
    {parts : List (Nat × Bytes)} (hp : p.first = some first) (hparts : Chunks.Collected p.parts parts)
    (hreceived : p.received = partBytes parts) (hrest : ∀ m ∈ rest, ChunkOf b c chunkBytes m)
    (hdata : ∀ m ∈ rest, m.data.length ≤ service.chunkBytes)
    (hnodup : ((parts ++ rest.map PublishChunk.part).map Prod.fst).Nodup)
    (hbytes : partBytes (parts ++ rest.map PublishChunk.part) ≤ service.maxPayloadBytes) :
    ∃ p', service.receivePublication context rest p = .ok p' ∧ p'.first = some first ∧
      Chunks.Collected p'.parts (parts ++ rest.map PublishChunk.part) := by
  induction rest generalizing p parts with
  | nil =>
    refine ⟨p, rfl, hp, ?_⟩
    rw [List.map_nil, List.append_nil]
    exact hparts
  | cons m rest ih =>
    have hm := hrest m (by simp)
    have hfresh := hparts.not_contains_next hnodup
    have hsplit : parts ++ (m :: rest).map PublishChunk.part = (parts ++ [m.part]) ++ rest.map PublishChunk.part := by
      simp
    rw [hsplit] at hnodup hbytes ⊢
    have hcheck : service.checkChunk context m p.first = .ok () := by
      have htotal : m.totalChunks = first.totalChunks := UInt32.toNat.inj (hm.total.trans hfirst.total.symm)
      rw [hp]
      unfold checkChunk
      dsimp only
      rw [if_neg (by rw [hm.hash, hfirst.hash, htotal, hm.sha, hfirst.sha]; simp)]
    have hfits : p.received + m.data.length ≤ service.maxPayloadBytes := by
      have hle := hbytes
      rw [partBytes_append, partBytes_append, partBytes_one, ← hreceived] at hle
      exact Nat.le_of_add_right_le hle
    rw [receivePublication_cons hcheck hm.index hfresh (hdata m (by simp)) hfits, hp]
    refine ih rfl (hparts.add hfresh m.data) ?_ (fun m' hm' => hrest m' (by simp [hm']))
      (fun m' hm' => hdata m' (by simp [hm'])) hnodup hbytes
    rw [partBytes_append, partBytes_one, hreceived]
    rfl

/-- All the chunks of a block, in an order whose first chunk the metadata vouches for, are put together to its
payload. -/
private theorem receivePublication_ok {b : CacheBlock} (hb : b.Created) {c : CacheCompatibility} {chunkBytes : Nat}
    (hchunk : 0 < chunkBytes) {messages rest : List PublishChunk} {first : PublishChunk}
    (hmessages : publishBlockSync c b chunkBytes = .ok messages) (hperm : (first :: rest).Perm messages)
    (hdata : ∀ m ∈ messages, m.data.length ≤ service.chunkBytes) (hmany : messages.length ≤ service.maxChunks)
    (hlarge : b.nbytes ≤ service.maxPayloadBytes) (hvouched : service.Vouched context first)
    (htenant : ∀ config, service.auth = some config → c.tenantNamespace = config.tenantId) :
    ∃ p, service.receivePublication context (first :: rest) {} = .ok p ∧
      joinPublication c p = .ok (first, b.payload) := by
  obtain ⟨hof, hnumbered⟩ := publishBlockSync_ok hmessages
  have hfirst := hof first (hperm.mem_iff.1 (by simp))
  have hparts : ((first :: rest).map PublishChunk.part).Perm (Chunks.numbered chunkBytes b.payload) := by
    rw [← hnumbered]
    exact hperm.map _
  have hlength : messages.length = Chunks.count chunkBytes b.nbytes := by
    rw [← List.length_map (f := PublishChunk.part), hnumbered, Chunks.length_numbered]
    rfl
  have hnodup : ((([first.part] : List (Nat × Bytes)) ++ rest.map PublishChunk.part).map Prod.fst).Nodup := by
    show (((first :: rest).map PublishChunk.part).map Prod.fst).Nodup
    rw [(hparts.map Prod.fst).nodup_iff, Chunks.numbered_fst]
    exact List.nodup_range
  have hbytes : partBytes ([first.part] ++ rest.map PublishChunk.part) = b.nbytes := by
    show partBytes ((first :: rest).map PublishChunk.part) = b.payload.length
    rw [← Chunks.sum_numbered hchunk b.payload]
    exact (hparts.map _).sum_eq
  have hcheck : service.checkChunk context first none = .ok () := by
    have hpos : first.totalChunks ≠ 0 := by
      have hcount : 0 < Chunks.count chunkBytes b.nbytes := Nat.lt_of_lt_of_le Nat.one_pos (Nat.le_max_left _ _)
      rw [← hfirst.total] at hcount
      rintro hzero
      rw [hzero] at hcount
      cases hcount
    unfold checkChunk checkFirst
    dsimp only
    rw [hvouched.authenticate]
    show (service.authorizeCompatibility _ >>= _) = _
    have hauthorized : service.authorizeCompatibility c = .ok () := by
      unfold authorizeCompatibility
      cases hauth : service.auth with
      | none => rfl
      | some config =>
        dsimp only
        rw [if_neg (not_not_intro (htenant config hauth))]
    rw [hfirst.compatibility, hauthorized]
    show (if first.totalChunks = 0 ∨ _ then _ else _) = _
    rw [if_neg (by rw [hfirst.total, ← hlength]; simp [hpos]; omega)]
  have hone : first.data.length ≤ service.maxPayloadBytes := by
    have hle := hbytes
    rw [partBytes_append, partBytes_one] at hle
    have : first.part.2.length = first.data.length := rfl
    omega
  have hempty : Chunks.Collected (Dict.empty : Dict Nat Bytes) [] := Chunks.Collected.empty
  have hfresh : (Dict.empty : Dict Nat Bytes).contains first.chunkIndex.toNat = false := rfl
  rw [receivePublication_cons hcheck hfirst.index hfresh (hdata first (hperm.mem_iff.1 (by simp)))
    (by rw [Nat.zero_add]; exact hone)]
  have hall : partBytes ([first.part] ++ rest.map PublishChunk.part) ≤ service.maxPayloadBytes := by omega
  obtain ⟨p, hrun, hp, hcollected⟩ := receivePublication_rest service context hfirst rest
    (p := ⟨some first, Dict.empty.set first.chunkIndex.toNat first.data, 0 + first.data.length⟩) rfl
    (hempty.add hfresh first.data) (by rw [List.nil_append, partBytes_one, Nat.zero_add])
    (fun m hm => hof m (hperm.mem_iff.1 (by simp [hm]))) (fun m hm => hdata m (hperm.mem_iff.1 (by simp [hm])))
    hnodup hall
  refine ⟨p, hrun, ?_⟩
  have hsize : p.parts.size = first.totalChunks.toNat := by
    rw [hcollected.size, hfirst.total]
    show ((first :: rest).map PublishChunk.part).length = _
    rw [hparts.length_eq, Chunks.length_numbered]
    rfl
  have hjoin : ((List.range first.totalChunks.toNat).flatMap fun i => (p.parts.get? i).getD []) = b.payload := by
    rw [hfirst.total]
    exact Chunks.join_collected hchunk hcollected hparts
  unfold joinPublication
  rw [hp]
  dsimp only
  rw [hfirst.compatibility, if_neg (by simp), if_neg (by simp [hsize]), hjoin,
    if_neg (by rw [hfirst.sha, hb.digest]; simp)]

/-! ### What a publication stands for -/

private theorem receivePublication_first {stream : List PublishChunk} {p p' : Publication}
    (h : service.receivePublication context stream p = .ok p') : p'.first = p.first.or stream.head? := by
  induction stream generalizing p with
  | nil =>
    rw [← Except.ok.inj h]
    simp
  | cons m rest ih =>
    unfold receivePublication at h
    obtain ⟨-, -, h⟩ := bind_ok h
    split at h
    · cases h
    · split at h
      · cases h
      · rw [ih h]
        cases hp : p.first with
        | none => simp
        | some first => simp

private theorem receivePublication_authenticated {first : PublishChunk} {rest : List PublishChunk} {p : Publication}
    (h : service.receivePublication context (first :: rest) {} = .ok p) :
    service.authenticate context first.request = .ok () := by
  unfold receivePublication at h
  obtain ⟨_, hcheck, -⟩ := bind_ok h
  unfold checkChunk checkFirst at hcheck
  obtain ⟨_, hauth, -⟩ := bind_ok hcheck
  exact hauth

private theorem joinPublication_ok {c : CacheCompatibility} {p : Publication} {first : PublishChunk} {payload : Bytes}
    (h : joinPublication c p = .ok (first, payload)) :
    p.first = some first ∧ Sha256.sha256 payload = first.blockSha256 := by
  unfold joinPublication at h
  cases hp : p.first with
  | none =>
    rw [hp] at h
    cases h
  | some m =>
    rw [hp] at h
    dsimp only at h
    split at h
    · cases h
    · split at h
      · cases h
      · split at h
        · cases h
        · rename_i hdigest
          obtain ⟨rfl, rfl⟩ := Prod.mk.inj (Except.ok.inj h)
          exact ⟨rfl, not_not.1 hdigest⟩

/-- A publication ends in an error with the store as it was, or the store gets a block with the hash, the number of
tokens and the digest of the first chunk, which was authenticated. -/
theorem publishBlock_cases (service : PrefillCacheService) (context : CallContext) (first : PublishChunk)
    (rest : List PublishChunk) (now : Int) (s : PrefixCacheStore) :
    (∃ failure, (service.publishBlock context (first :: rest) now).run s = (.error failure, s)) ∨
      service.authenticate context first.request = .ok () ∧
        ∃ payload, Sha256.sha256 payload = first.blockSha256 ∧
          (service.publishBlock context (first :: rest) now).run s =
            (storePublication first.blockHash first.tokenCount.toNat payload now).run s := by
  unfold publishBlock
  rw [Proc.run_bind, Proc.run_ofExcept]
  cases hp : service.receivePublication context (first :: rest) {} with
  | error failure => exact Or.inl ⟨failure, rfl⟩
  | ok p =>
    dsimp only
    rw [Proc.run_get_bind, Proc.run_bind, Proc.run_ofExcept]
    cases hj : joinPublication s.compatibility p with
    | error failure => exact Or.inl ⟨failure, rfl⟩
    | ok result =>
      obtain ⟨m, payload⟩ := result
      obtain ⟨hm, hdigest⟩ := joinPublication_ok hj
      rw [receivePublication_first hp] at hm
      obtain rfl := Option.some.inj hm
      exact Or.inr ⟨receivePublication_authenticated hp, payload, hdigest, rfl⟩

/-- All the chunks of a block hand the block to the store. -/
private theorem publishBlock_pieces {b : CacheBlock} (hb : b.Created) {s : PrefixCacheStore} {chunkBytes : Nat}
    (hchunk : 0 < chunkBytes) {messages rest : List PublishChunk} {first : PublishChunk}
    (hmessages : publishBlockSync s.compatibility b chunkBytes = .ok messages) (hperm : (first :: rest).Perm messages)
    (hdata : ∀ m ∈ messages, m.data.length ≤ service.chunkBytes) (hmany : messages.length ≤ service.maxChunks)
    (hlarge : b.nbytes ≤ service.maxPayloadBytes) (hvouched : service.Vouched context first)
    (htenant : ∀ config, service.auth = some config → s.compatibility.tenantNamespace = config.tenantId) (now : Int) :
    (service.publishBlock context (first :: rest) now).run s =
      (storePublication b.blockHash b.tokenCount b.payload now).run s := by
  obtain ⟨p, hp, hj⟩ := receivePublication_ok hb hchunk hmessages hperm hdata hmany hlarge hvouched htenant
  have hfirst := (publishBlockSync_ok hmessages).1 first (hperm.mem_iff.1 (by simp))
  unfold publishBlock
  rw [Proc.run_bind, Proc.run_ofExcept, hp]
  dsimp only
  rw [Proc.run_get_bind, Proc.run_bind, Proc.run_ofExcept, hj]
  dsimp only
  rw [hfirst.hash, hfirst.tokens]

end PrefillCacheService

/-! ### What the store makes of it -/

namespace PrefixCacheStore

/-- A block that is put is in the store, unless one with its digest was there before. -/
theorem put_ok {b : CacheBlock} {now : Int} {s s' : PrefixCacheStore} {stored : Bool}
    (h : (put b now).run s = (.ok stored, s')) :
    (stored = true ∧ s.blocks.get? b.blockHash = none ∧ s'.blocks.get? b.blockHash = some b) ∨
      (stored = false ∧ ∃ existing, s.blocks.get? b.blockHash = some existing ∧
        existing.payloadSha256 = b.payloadSha256 ∧ s'.blocks.get? b.blockHash = some existing) := by
  unfold put at h
  rw [Proc.run_get_bind] at h
  dsimp only at h
  split at h
  · cases (Prod.mk.inj h).1
  · rw [Proc.run_modify_bind, Proc.run_bind, run_putLocked] at h
    have hblocks : (s.expireLeases now).blocks = s.blocks := rfl
    rw [hblocks] at h
    cases hb : s.blocks.get? b.blockHash with
    | some existing =>
      rw [hb] at h
      dsimp only at h
      by_cases hd : existing.payloadSha256 = b.payloadSha256
      · rw [if_pos hd] at h
        obtain ⟨hstored, rfl⟩ := Prod.mk.inj h
        refine Or.inr ⟨(Except.ok.inj hstored).symm, existing, rfl, hd, ?_⟩
        simp only [touch, Dict.get?_moveToEnd]
        exact hb
      · rw [if_neg hd] at h
        cases (Prod.mk.inj h).1
    | none =>
      rw [hb] at h
      dsimp only at h
      rw [if_neg (by simp), Proc.run_modify_bind, Proc.run_get_bind] at h
      -- the eviction drops blocks, so what is left under the hash is the new block
      have hsame : ∀ b', (((s.expireLeases now).storeBlock b).evictToLimit (s.maxBytes - s.reserved)).blocks.get?
          b.blockHash = some b' → b' = b := by
        refine evictToLimit_induct _ _ (I := fun t => ∀ b', t.blocks.get? b.blockHash = some b' → b' = b) ?_ ?_
        · intro t x bx ht _ _ _ _ b' hb'
          simp only [evictBlock, Dict.get?_erase] at hb'
          split at hb'
          · cases hb'
          · exact ht b' hb'
        · intro b' hb'
          simp only [storeBlock, Dict.get?_set_self] at hb'
          exact (Option.some.inj hb').symm
      split at h
      · rename_i hkept
        obtain ⟨hstored, rfl⟩ := Prod.mk.inj h
        obtain ⟨b', hb'⟩ := Dict.contains_iff.1 hkept
        refine Or.inl ⟨(Except.ok.inj hstored).symm, rfl, ?_⟩
        rw [hb', hsame b' hb']
      · cases (Prod.mk.inj h).1

end PrefixCacheStore

/-! ### The results -/

/-- What a fetch returns for a hit with the digest of a payload is this payload, up to a collision.  The store is not
touched. -/
private theorem hitPayload_guarded {V : Type} (hook : PrefillCacheHook) (env : Environment) {hit : Hit} {payload : Bytes}
    (hremote : hit.payload = none) (hsha : hit.payloadSha256 = Sha256.sha256 payload) (st : HookState V) :
    ((PrefillCacheHook.hitPayload hook env hit).run st).2.store = st.store ∧
      ((∃ e, ((PrefillCacheHook.hitPayload hook env hit).run st).1 = .error e) ∨
        ((PrefillCacheHook.hitPayload hook env hit).run st).1 = .ok payload ∨
        ∃ other, Collides payload other ∧ ((PrefillCacheHook.hitPayload hook env hit).run st).1 = .ok other) := by
  have hne : hit.payloadSha256 ≠ [] := by
    intro hnil
    have hlen := Sha256.length_sha256 payload
    rw [← hsha, hnil] at hlen
    cases hlen
  unfold PrefillCacheHook.hitPayload
  rw [hremote]
  dsimp only
  rw [Proc.run_bind, Proc.run_ofExcept]
  cases hfetch : hook.fetchRemote hit (env.fetchBlocks hit) with
  | error e => exact ⟨rfl, Or.inl ⟨e, rfl⟩⟩
  | ok fetched =>
    refine ⟨rfl, Or.inr ?_⟩
    have hdigest := fetchRemote_digest hfetch hne
    by_cases hsame : fetched = payload
    · rw [hsame]
      exact Or.inl rfl
    · exact Or.inr ⟨fetched, ⟨hsame, hdigest.trans hsha⟩, rfl⟩

/-- The chunk says of its block what is true of `b`. -/
structure PublishChunk.Names (m : PublishChunk) (b : CacheBlock) : Prop where
  blockHash : m.blockHash = b.blockHash
  tokenCount : (m.tokenCount.toNat : Int) = b.tokenCount
  blockSha256 : m.blockSha256 = b.payloadSha256

namespace PrefillCacheService

variable {service : PrefillCacheService} {context : CallContext}

/-- A stream whose first chunk names a block stores this block or nothing, up to a collision. -/
private theorem publishBlock_guarded {b : CacheBlock} (hb : b.Created) {stream : List PublishChunk}
    (hfirst : ∀ first ∈ stream.head?, first.Names b) (now : Int) (s : PrefixCacheStore) :
    (∃ failure, (service.publishBlock context stream now).run s = (.error failure, s)) ∨
      (service.publishBlock context stream now).run s =
        (storePublication b.blockHash b.tokenCount b.payload now).run s ∨
      ∃ other, Collides b.payload other ∧
        (service.publishBlock context stream now).run s =
          (storePublication b.blockHash b.tokenCount other now).run s := by
  cases stream with
  | nil => exact Or.inl ⟨_, rfl⟩
  | cons first rest =>
    have hnames := hfirst first rfl
    rcases publishBlock_cases service context first rest now s with herr | ⟨-, payload, hdigest, hrun⟩
    · exact Or.inl herr
    · rw [hnames.blockHash, hnames.tokenCount] at hrun
      rw [hnames.blockSha256, hb.digest] at hdigest
      by_cases hsame : payload = b.payload
      · rw [hsame] at hrun
        exact Or.inr (Or.inl hrun)
      · exact Or.inr (Or.inr ⟨payload, ⟨hsame, hdigest⟩, hrun⟩)

/-- A created block that the store admits is stored, unless its payload is stored already. -/
private theorem storePublication_admitted {s : PrefixCacheStore} (hsound : s.Sound) (hs : s.Servable) {b : CacheBlock}
    (hb : b.Created) {now : Int} (hadmits : s.Admits b now) :
    ∃ stored s' held, (storePublication b.blockHash b.tokenCount b.payload now).run s = (.ok ⟨stored, s'.epoch⟩, s') ∧
      s'.blocks.get? b.blockHash = some held ∧ (held.payload = b.payload ∨ Collides b.payload held.payload) ∧
      (s.blocks.get? b.blockHash = none → stored = true ∧ held = b) := by
  obtain ⟨stored, hstored⟩ := (PrefixCacheStore.put_returns_iff hsound b now).2 hadmits
  have hput : (PrefixCacheStore.put b now).run s = (.ok stored, ((PrefixCacheStore.put b now).run s).2) :=
    Prod.ext hstored rfl
  have hcreate : CacheBlock.create b.blockHash b.tokenCount b.payload = .ok b := hb
  have hrun : (storePublication b.blockHash b.tokenCount b.payload now).run s =
      (.ok ⟨stored, ((PrefixCacheStore.put b now).run s).2.epoch⟩, ((PrefixCacheStore.put b now).run s).2) := by
    unfold storePublication
    rw [hcreate, Proc.run_bind, Proc.run_ofExcept]
    show (Proc.focus id (fun s _ => s) publishFailure (PrefixCacheStore.put b now) >>= _).run s = _
    rw [Proc.run_bind, Proc.run_focus_ok hput]
    rfl
  rcases PrefixCacheStore.put_ok hput with ⟨htrue, hnew, hheld⟩ | ⟨hfalse, existing, hold, hdigest, hheld⟩
  · exact ⟨stored, _, b, hrun, hheld, Or.inl rfl, fun _ => ⟨htrue, rfl⟩⟩
  · refine ⟨stored, _, existing, hrun, hheld, ?_, ?_⟩
    · rw [(hs.created _ _ hold).digest, hb.digest] at hdigest
      by_cases hsame : existing.payload = b.payload
      · exact Or.inl hsame
      · exact Or.inr ⟨hsame, hdigest⟩
    · intro hnone
      rw [hnone] at hold
      cases hold

/-- A service with chunks of two bytes. -/
def smallService (auth : Option Auth.FleetAuthConfig) : PrefillCacheService := ⟨2, 6, auth, Nat.two_pos, by decide⟩

/-- A store of a tenant with room for six bytes. -/
def tenantStore : PrefixCacheStore :=
  { compatibility := { modelId := "m", tenantNamespace := "tenant-a" }, maxBytes := 6, nodeId := "n" }

/-- A chunk of a block that is published to the store. -/
def tenantChunk (hash : UInt8) (index total : UInt32) (data sha : Bytes) : PublishChunk :=
  { blockHash := List.replicate 32 hash, tokenCount := 4, chunkIndex := index, totalChunks := total, data := data,
    blockSha256 := sha,
    compatibility := some
      { modelId := "m", cacheFormatVersion := "kakeya-prefill-v2-zlib", blockSizeTokens := 64,
        tenantNamespace := "tenant-a", sinkSize := 4, windowSize := 64 } }

/-- The context of a call with metadata, a few seconds after it was signed. -/
def callWith (metadata : List (String × String)) : CallContext := ⟨⟨id, fun _ => none⟩, metadata, 103⟩

/-- A hook that imports up to six bytes. -/
def smallHook : PrefillCacheHook := ⟨[], 0, 6, false, .ok, .ok, fun _ => true, none⟩

/-- A hit at a peer. -/
def peerHit (sha : Bytes) : Hit :=
  { source := "peer", leaseId := "lease", hitBlocks := 1, hitTokens := 4, transferBytes := 3,
    blockHash := List.replicate 32 1, payloadSha256 := sha }

/-- The two chunks of a block of three bytes. -/
def twoChunks (hash : UInt8) : List PublishChunk :=
  [tenantChunk hash 0 2 [hash, hash] (Sha256.sha256 [hash, hash, hash]),
    tenantChunk hash 1 2 [hash] (Sha256.sha256 [hash, hash, hash])]

/-- A block is stored and leased. -/
def leasedRun : List CacheEvent :=
  [.put (PrefixCacheStore.plainBlock 1 3) 0, .lookup [List.replicate 32 1] 30 0 "lease"]

end PrefillCacheService

end KakeyaEngine
