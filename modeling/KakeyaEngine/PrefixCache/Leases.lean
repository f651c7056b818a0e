import KakeyaEngine.PrefixCache.Store

/-!
# Lease safety

What an operation can do to blocks and leases is said once: it is a chain of `Move`s, each of which expires leases,
evicts an unpinned block, stores a new block, grants a lease on a stored block, drops a block with its leases, or only
keeps the books (`perform_keeps`).  An invariant of the store is then a predicate that every move keeps.

The invariant here is `Sound`: every block is stored under its own hash, the byte count is the sum of the sizes, and
the blocks of every lease are stored with the digest the lease was granted for.
-/

namespace KakeyaEngine

namespace PrefixCacheStore

/-! ### The eviction loop -/

theorem evictLoop_induct {I : PrefixCacheStore → Prop} {pinned : List Bytes} {limit : Int}
    (hstep : ∀ s h b, I s → limit < s.bytesUsed → s.blocks.get? h = some b → h ∉ pinned → I (s.evictBlock h b))
    (n : Nat) {s : PrefixCacheStore} (hs : I s) : I (evictLoop pinned limit n s) := by
  induction n generalizing s with
  | zero => exact hs
  | succ n ih =>
    unfold evictLoop
    split
    · exact hs
    · rename_i hlim
      split
      · exact hs
      · rename_i victim b hf
        have hm := List.mem_of_find?_eq_some hf
        have hp : victim ∉ pinned := by simpa using List.find?_some hf
        exact ih (hstep s victim b hs (by omega) (Dict.mem_entries_iff.1 hm) hp)

/-- What the eviction of an unpinned block keeps, the whole eviction keeps. -/
theorem evictToLimit_induct {I : PrefixCacheStore → Prop} (limit : Int) (s : PrefixCacheStore)
    (hstep : ∀ t h b, I t → t.leases = s.leases → limit < t.bytesUsed → t.blocks.get? h = some b →
      h ∉ s.pinnedHashes → I (t.evictBlock h b)) (hs : I s) : I (s.evictToLimit limit) := by
  unfold evictToLimit
  have h : I (evictLoop s.pinnedHashes limit s.blocks.size s) ∧
      (evictLoop s.pinnedHashes limit s.blocks.size s).leases = s.leases := by
    refine evictLoop_induct (I := fun t => I t ∧ t.leases = s.leases) ?_ _ ⟨hs, rfl⟩
    rintro t h b ⟨ht, hl⟩ hlim hb hp
    exact ⟨hstep t h b ht hl hlim hb hp, hl⟩
  exact h.1

private theorem evictLoop_done {pinned : List Bytes} {limit : Int} (n : Nat) {s : PrefixCacheStore}
    (hn : s.blocks.size ≤ n) :
    (evictLoop pinned limit n s).bytesUsed ≤ limit ∨
      ∀ h b, (evictLoop pinned limit n s).blocks.get? h = some b → h ∈ pinned := by
  induction n generalizing s with
  | zero =>
    right
    intro h b hb
    have := Dict.size_erase hb
    simp only [evictLoop] at this
    omega
  | succ n ih =>
    unfold evictLoop
    split
    · left; assumption
    · split
      · rename_i hf
        right
        intro h b hb
        rw [List.find?_eq_none] at hf
        simpa using hf _ (Dict.mem_entries_iff.2 hb)
      · rename_i victim b hf
        apply ih
        have hb : s.blocks.get? victim = some b := Dict.mem_entries_iff.1 (List.mem_of_find?_eq_some hf)
        have := Dict.size_erase hb
        simp only [evictBlock]
        omega

/-- The eviction reaches its limit, or only pinned blocks are left. -/
theorem evictToLimit_done (limit : Int) (s : PrefixCacheStore) :
    (s.evictToLimit limit).bytesUsed ≤ limit ∨
      ∀ h b, (s.evictToLimit limit).blocks.get? h = some b → h ∈ s.pinnedHashes :=
  evictLoop_done s.blocks.size (Nat.le_refl _)

theorem evictToLimit_of_le {limit : Int} {s : PrefixCacheStore} (h : s.bytesUsed ≤ limit) :
    s.evictToLimit limit = s := by
  unfold evictToLimit
  cases s.blocks.size with
  | zero => rfl
  | succ n => simp [evictLoop, h]

/-! ### Moves -/

/-- What the moves of an operation may do: the clocks by which leases expire, the lease ids that are granted, the
hashes that are dropped and the blocks that are stored. -/
structure Rights where
  expires : Int → Prop
  grants : String → Prop
  drops : Bytes → Prop
  stores : CacheBlock → Prop

/-- One change of blocks and leases. -/
inductive Move (R : Rights) : PrefixCacheStore → PrefixCacheStore → Prop
  | expire {s : PrefixCacheStore} {now : Int} (hr : R.expires now) : Move R s (s.expireLeases now)
  | evict {s : PrefixCacheStore} {h : Bytes} {b : CacheBlock} (hb : s.blocks.get? h = some b)
      (hp : h ∉ s.pinnedHashes) : Move R s (s.evictBlock h b)
  | touch {s : PrefixCacheStore} {h : Bytes} : Move R s (s.touch h)
  | store {s : PrefixCacheStore} {b : CacheBlock} (hb : s.blocks.get? b.blockHash = none) (hr : R.stores b) :
      Move R s (s.storeBlock b)
  | grant {s : PrefixCacheStore} {h : Bytes} {b : CacheBlock} {l : PrefixLease} (hb : s.blocks.get? h = some b)
      (hl : l.blockHashes = [h]) (hd : l.payloadSha256 = b.payloadSha256) (hr : R.grants l.leaseId) :
      Move R s { s with leases := s.leases.set l.leaseId l }
  | drop {s : PrefixCacheStore} {h : Bytes} {b : CacheBlock} (hb : s.blocks.get? h = some b) (hr : R.drops h) :
      Move R s (s.dropBlock h b)
  | books {s s' : PrefixCacheStore} (hc : s'.compatibility = s.compatibility) (hb : s'.blocks = s.blocks)
      (hl : s'.leases = s.leases) (hu : s'.bytesUsed = s.bytesUsed) : Move R s s'

/-- `b` is the snapshot with `payload` at boundary `index` of a token list, under a compatibility tuple and a key. -/
def BoundaryBlock (c : CacheCompatibility) (hmacKey : Bytes) (tokenIds : List Token) (index : Nat) (payload : Bytes)
    (b : CacheBlock) : Prop :=
  ∃ hashes h, chainedBlockHashes tokenIds c hmacKey = .ok hashes ∧ hashes[index]? = some h ∧
    CacheBlock.create h (min ((index + 1) * c.blockSizeTokens) tokenIds.length) payload = .ok b

/-- The rights of a call on a store with the compatibility tuple `c`. -/
def rights (c : CacheCompatibility) : CacheEvent → Rights
  | .put b now => ⟨(· = now), fun _ => False, fun _ => False, (· = b)⟩
  | .putPrefix ts _ clock =>
    ⟨fun t => ∃ i, t = clock i, fun _ => False, fun _ => False, fun b => ∃ i payload, BoundaryBlock c [] ts i payload b⟩
  | .lookup _ _ now id => ⟨(· = now), (· = id), fun _ => False, fun _ => False⟩
  | .fetch _ now => ⟨(· = now), fun _ => False, fun _ => False, fun _ => False⟩
  | .reserve _ _ now => ⟨(· = now), fun _ => False, fun _ => False, fun _ => False⟩
  | .releaseReservation _ => ⟨fun _ => False, fun _ => False, fun _ => False, fun _ => False⟩
  | .publishAndLease bs _ _ _ now id => ⟨(· = now), (· = id), fun _ => False, (· ∈ bs)⟩
  | .resize _ => ⟨fun _ => False, fun _ => False, fun _ => False, fun _ => False⟩
  | .invalidate h => ⟨fun _ => False, fun _ => False, (· = h), fun _ => False⟩
  | .expire now => ⟨(· = now), fun _ => False, fun _ => False, fun _ => False⟩

/-- Every block is stored under its own hash. -/
def Keyed (s : PrefixCacheStore) : Prop := ∀ h b, s.blocks.get? h = some b → b.blockHash = h

/-- A predicate that every move keeps. -/
def Closed (R : Rights) (I : PrefixCacheStore → Prop) : Prop := ∀ s s', Move R s s' → I s → I s'

theorem Closed.books {R : Rights} {I : PrefixCacheStore → Prop} (hI : Closed R I) {s s' : PrefixCacheStore}
    (hs : I s) (hc : s'.compatibility = s.compatibility) (hb : s'.blocks = s.blocks) (hl : s'.leases = s.leases)
    (hu : s'.bytesUsed = s.bytesUsed) : I s' :=
  hI s s' (.books hc hb hl hu) hs

section Keeps

variable {R : Rights} {I : PrefixCacheStore → Prop} (hI : Closed R I)

include hI

theorem expireLeases_keeps {now : Int} (hr : R.expires now) :
    Proc.Keeps I (Proc.modify (expireLeases now) : CacheProc Unit) :=
  Proc.Keeps.modify fun s hs => hI s _ (.expire hr) hs

theorem evictToLimit_keeps (limit : Int) : Proc.Keeps I (Proc.modify (evictToLimit limit) : CacheProc Unit) := by
  apply Proc.Keeps.modify
  intro s hs
  refine evictToLimit_induct limit s ?_ hs
  intro t h b ht hl _ hb hp
  refine hI t _ (.evict hb ?_) ht
  unfold pinnedHashes
  rw [hl]
  exact hp

theorem failPut_keeps {α : Type} (message : String) : Proc.Keeps I (failPut message : CacheProc α) :=
  Proc.Keeps.bind (Proc.Keeps.modify fun _ hs => hI.books hs rfl rfl rfl rfl) fun _ => Proc.Keeps.raise _

/-- After `_put_locked` returned, a block with the digest is stored under the hash. -/
theorem putLocked_ensures {b : CacheBlock} (hr : R.stores b) :
    Proc.Ensures I (putLocked b)
      (fun _ s => I s ∧ ∃ b', s.blocks.get? b.blockHash = some b' ∧ b'.payloadSha256 = b.payloadSha256)
      (fun _ s => I s) := by
  intro s hs
  unfold putLocked
  rw [Proc.run_get_bind]
  cases hb : s.blocks.get? b.blockHash with
  | none =>
    refine ⟨hI s _ (.store hb hr) hs, b, ?_, rfl⟩
    simp [storeBlock]
  | some existing =>
    by_cases hd : existing.payloadSha256 = b.payloadSha256
    · simp only [ne_eq, hd, not_true_eq_false, ↓reduceIte]
      refine ⟨hI s _ .touch hs, existing, ?_, hd⟩
      simpa [touch] using hb
    · simp only [ne_eq, hd, not_false_eq_true, ↓reduceIte]
      exact hI.books hs rfl rfl rfl rfl

theorem putLocked_keeps {b : CacheBlock} (hr : R.stores b) : Proc.Keeps I (putLocked b) := by
  intro s hs
  have h := putLocked_ensures hI hr s hs
  rcases hx : (putLocked b).run s with ⟨_ | _, s'⟩
  · rw [hx] at h; exact h
  · rw [hx] at h; exact h.1

theorem put_keeps {b : CacheBlock} {now : Int} (hr : R.stores b) (he : R.expires now) :
    Proc.Keeps I (put b now) := by
  apply Proc.Keeps.get_bind
  intro s hs
  dsimp only
  split
  · exact failPut_keeps hI _ s hs
  · refine Proc.Keeps.bind (expireLeases_keeps hI he) (fun _ => ?_) s hs
    refine Proc.Keeps.bind (putLocked_keeps hI hr) fun stored => ?_
    cases stored with
    | false => exact Proc.Keeps.pure _
    | true =>
      refine Proc.Keeps.bind (evictToLimit_keeps hI _) fun _ => ?_
      apply Proc.Keeps.get_bind
      intro t ht
      split
      · exact ht
      · exact failPut_keeps hI _ t ht

theorem putBoundaries_keeps {c : CacheCompatibility} {ts : List Token} {hashes : List Bytes} {clock : Nat → Int}
    (hh : chainedBlockHashes ts c [] = .ok hashes)
    (hr : ∀ i payload b, BoundaryBlock c [] ts i payload b → R.stores b) (he : ∀ i, R.expires (clock i))
    (index : Nat) (rest : List (Bytes × Bytes)) (hrest : ∀ j p, rest[j]? = some p → hashes[index + j]? = some p.1) :
    Proc.Keeps I (putBoundaries c.blockSizeTokens ts.length clock index rest) := by
  induction rest generalizing index with
  | nil => exact Proc.Keeps.pure _
  | cons p rest ih =>
    obtain ⟨h, payload⟩ := p
    unfold putBoundaries
    cases hb : CacheBlock.create h (min ((index + 1) * c.blockSizeTokens) ts.length) payload with
    | error e => exact Proc.Keeps.raise _
    | ok b =>
      have hbb : BoundaryBlock c [] ts index payload b := ⟨hashes, h, hh, by simpa using hrest 0 (h, payload) rfl, hb⟩
      refine Proc.Keeps.bind (put_keeps hI (hr index payload b hbb) (he index)) fun _ => ?_
      apply ih
      intro j p hp
      have := hrest (j + 1) p (by simpa using hp)
      rwa [show index + 1 + j = index + (j + 1) by omega]

theorem putPrefix_keeps {c : CacheCompatibility} (hc : ∀ s, I s → s.compatibility = c) {ts : List Token}
    {payloads : List Bytes} {clock : Nat → Int} (hr : ∀ i payload b, BoundaryBlock c [] ts i payload b → R.stores b)
    (he : ∀ i, R.expires (clock i)) : Proc.Keeps I (putPrefix ts payloads clock) := by
  apply Proc.Keeps.get_bind
  intro s hs
  rw [hc s hs]
  cases hh : chainedBlockHashes ts c [] with
  | error e => exact hs
  | ok hashes =>
    dsimp only
    split
    · exact hs
    · refine Proc.Keeps.bind (putBoundaries_keeps hI hh hr he 0 _ ?_) (fun _ => Proc.Keeps.pure _) s hs
      intro j p hp
      rw [Nat.zero_add]
      exact (List.getElem?_zip_eq_some.1 hp).1

omit hI in
/-- A hit of the scan is stored under the hash it was found by. -/
theorem longestHit_stored {blocks : Dict Bytes CacheBlock} {hashes : List Bytes} {index : Nat}
    {hit : Option (CacheBlock × Nat)} {b : CacheBlock} {k : Nat}
    (hhit : ∀ b k, hit = some (b, k) → ∃ h, blocks.get? h = some b)
    (h : longestHit blocks index hashes hit = some (b, k)) : ∃ h, blocks.get? h = some b := by
  induction hashes generalizing index hit with
  | nil => exact hhit b k h
  | cons x xs ih =>
    refine ih ?_ h
    intro b' k' hb'
    cases hx : blocks.get? x with
    | none => rw [hx] at hb'; exact hhit b' k' hb'
    | some y =>
      rw [hx] at hb'
      obtain ⟨rfl, -⟩ := Prod.mk.inj (Option.some.inj hb')
      exact ⟨x, hx⟩

theorem lookup_keeps (hK : ∀ s, I s → s.Keyed) {hashes : List Bytes} {secs now : Int} {id : String}
    (he : R.expires now) (hg : R.grants id) : Proc.Keeps I (lookup hashes secs now id) := by
  unfold lookup
  split
  · exact Proc.Keeps.raise _
  · refine Proc.Keeps.bind (expireLeases_keeps hI he) fun _ => ?_
    apply Proc.Keeps.get_bind
    intro s hs
    cases hh : longestHit s.blocks 0 hashes none with
    | none => exact hI.books hs rfl rfl rfl rfl
    | some p =>
      obtain ⟨b, k⟩ := p
      obtain ⟨x, hx⟩ := longestHit_stored (by simp) hh
      have hb : s.blocks.get? b.blockHash = some b := by rw [hK s hs x b hx]; exact hx
      have ht : I (s.touch b.blockHash) := hI s _ .touch hs
      have hc : I { s.touch b.blockHash with lookupHits := s.lookupHits + 1 } :=
        hI.books ht rfl rfl rfl rfl
      refine hI _ _ (.grant (h := b.blockHash) (b := b) (l := s.leaseOn id b k (now + secs)) ?_ rfl rfl hg) hc
      simpa [touch] using hb

theorem fetch_keeps {id : String} {now : Int} (he : R.expires now) : Proc.Keeps I (fetch id now) := by
  refine Proc.Keeps.bind (expireLeases_keeps hI he) fun _ => ?_
  apply Proc.Keeps.get_bind
  intro s hs
  cases s.leases.get? id with
  | none => exact hs
  | some l =>
    dsimp only
    cases leasedBlocks s.blocks l.blockHashes with
    | none => exact hs
    | some bs => exact hI.books hs rfl rfl rfl rfl

theorem reserve_keeps {id : String} {n now : Int} (he : R.expires now) : Proc.Keeps I (reserve id n now) := by
  unfold reserve
  split
  · exact Proc.Keeps.raise _
  · apply Proc.Keeps.get_bind
    intro s hs
    split
    · exact hs
    · dsimp only
      split
      · exact hs
      · refine Proc.Keeps.bind (expireLeases_keeps hI he) (fun _ => ?_) s hs
        refine Proc.Keeps.bind (evictToLimit_keeps hI _) fun _ => ?_
        apply Proc.Keeps.get_bind
        intro t ht
        split
        · exact ht
        · exact hI.books ht rfl rfl rfl rfl

theorem publishSpares_keeps (bs : List CacheBlock) (hr : ∀ b ∈ bs, R.stores b) : Proc.Keeps I (publishSpares bs) := by
  induction bs with
  | nil => exact Proc.Keeps.pure _
  | cons b bs ih =>
    have ih' := ih fun x hx => hr x (List.mem_cons_of_mem _ hx)
    apply Proc.Keeps.get_bind
    intro s hs
    split
    · exact ih' s hs
    · exact Proc.Keeps.bind (putLocked_keeps hI (hr b (by simp))) (fun _ => ih') s hs

theorem publishLocked_keeps {final : CacheBlock} {spares : List CacheBlock} {k : Nat} {rid : String}
    {secs now : Int} {id : String} (hf : R.stores final) (hr : ∀ b ∈ spares, R.stores b) (he : R.expires now)
    (hg : R.grants id) : Proc.Keeps I (publishLocked final spares k rid secs now id) := by
  apply Proc.Keeps.get_bind
  intro s hs
  cases s.reservations.get? rid with
  | none => exact hs
  | some reserved =>
    dsimp only
    split
    · exact hs
    · refine Proc.Keeps.bind (expireLeases_keeps hI he) (fun _ => ?_) s hs
      refine Proc.Keeps.bind (evictToLimit_keeps hI _) fun _ => ?_
      apply Proc.Keeps.get_bind
      intro t ht
      split
      · exact ht
      · have h := putLocked_ensures hI hf t ht
        rw [Proc.run_bind]
        rcases hx : (putLocked final).run t with ⟨_ | _, u⟩
        · rw [hx] at h; exact h
        · rw [hx] at h
          obtain ⟨hu, b, hb, hd⟩ := h
          -- the lease is on a block that `_put_locked` left in the store
          have hgr := hI u _ (.grant (l := u.leaseOn id final k (now + secs)) hb rfl hd.symm hg) hu
          refine Proc.Keeps.bind (publishSpares_keeps hI spares hr) (fun _ => Proc.Keeps.pure _)
            (settleReservation rid (u.leaseOn id final k (now + secs)) u) ?_
          exact hI.books hgr rfl rfl rfl rfl

theorem publishAndLease_keeps {bs : List CacheBlock} {hashes : List Bytes} {rid : String} {secs now : Int}
    {id : String} (hr : ∀ b ∈ bs, R.stores b) (he : R.expires now) (hg : R.grants id) :
    Proc.Keeps I (publishAndLease bs hashes rid secs now id) := by
  unfold publishAndLease
  dsimp only
  cases hf : bs.getLast? with
  | none => exact Proc.Keeps.raise _
  | some final =>
    dsimp only
    split
    · exact Proc.Keeps.raise _
    split
    · exact Proc.Keeps.raise _
    cases hashes.getLast? with
    | none => exact Proc.Keeps.raise _
    | some last =>
      dsimp only
      split
      · exact Proc.Keeps.raise _
      · refine publishLocked_keeps hI (hr final (List.mem_of_getLast? hf)) ?_ he hg
        intro b hb
        exact hr b ((List.dropLast_sublist bs).subset (List.mem_reverse.1 hb))

theorem resize_keeps (n : Int) : Proc.Keeps I (resize n) := by
  unfold resize
  split
  · exact Proc.Keeps.raise _
  · apply Proc.Keeps.get_bind
    intro s hs
    dsimp only
    split
    · exact hs
    · have hm : I { s with maxBytes := n } := hI.books hs rfl rfl rfl rfl
      rw [Proc.run_modify_bind]
      refine Proc.Keeps.bind (evictToLimit_keeps hI _) (fun _ => ?_) { s with maxBytes := n } hm
      apply Proc.Keeps.get_bind
      intro t ht
      split
      · exact hI.books ht rfl rfl rfl rfl
      · exact ht

theorem invalidate_keeps {h : Bytes} (hd : R.drops h) : Proc.Keeps I (invalidate h) := by
  apply Proc.Keeps.get_bind
  intro s hs
  cases hb : s.blocks.get? h with
  | none => exact hs
  | some b => exact hI s _ (.drop hb hd) hs

end Keeps

/-- Every call is a chain of moves within its rights. -/
theorem perform_keeps {c : CacheCompatibility} {e : CacheEvent} {I : PrefixCacheStore → Prop}
    (hI : Closed (rights c e) I) (hK : ∀ s, I s → s.Keyed) (hc : ∀ s, I s → s.compatibility = c) :
    Proc.Keeps I (perform e) := by
  cases e with
  | put b now => exact Proc.Keeps.bind (put_keeps hI rfl rfl) fun _ => Proc.Keeps.pure _
  | putPrefix ts ps clock =>
    exact Proc.Keeps.bind (putPrefix_keeps hI hc (fun i p b hb => ⟨i, p, hb⟩) fun i => ⟨i, rfl⟩)
      fun _ => Proc.Keeps.pure _
  | lookup hs secs now id => exact Proc.Keeps.bind (lookup_keeps hI hK rfl rfl) fun _ => Proc.Keeps.pure _
  | fetch id now => exact Proc.Keeps.bind (fetch_keeps hI rfl) fun _ => Proc.Keeps.pure _
  | reserve id n now => exact Proc.Keeps.bind (reserve_keeps hI rfl) fun _ => Proc.Keeps.pure _
  | releaseReservation id =>
    refine Proc.Keeps.bind (Proc.Keeps.modify ?_) fun _ => Proc.Keeps.pure _
    exact fun s hs => hI.books hs rfl rfl rfl rfl
  | publishAndLease bs hs rid secs now id =>
    exact Proc.Keeps.bind (publishAndLease_keeps hI (fun _ hb => hb) rfl rfl) fun _ => Proc.Keeps.pure _
  | resize n => exact Proc.Keeps.bind (resize_keeps hI n) fun _ => Proc.Keeps.pure _
  | invalidate h => exact Proc.Keeps.bind (invalidate_keeps hI rfl) fun _ => Proc.Keeps.pure _
  | expire now => exact Proc.Keeps.bind (expireLeases_keeps hI rfl) fun _ => Proc.Keeps.pure _

/-! ### The invariant -/

/-- The byte count and the leases agree with the stored blocks. -/
structure Sound (s : PrefixCacheStore) : Prop where
  keyed : s.Keyed
  bytesUsed_eq : s.bytesUsed = (s.blocks.total CacheBlock.nbytes : Nat)
  leased : ∀ id l, s.leases.get? id = some l → l.leaseId = id ∧
    ∀ h ∈ l.blockHashes, ∃ b, s.blocks.get? h = some b ∧ b.payloadSha256 = l.payloadSha256

theorem mem_pinnedHashes {s : PrefixCacheStore} {h : Bytes} :
    h ∈ s.pinnedHashes ↔ ∃ id l, s.leases.get? id = some l ∧ h ∈ l.blockHashes := by
  unfold pinnedHashes
  rw [List.mem_flatMap]
  constructor
  · rintro ⟨l, hl, hh⟩
    obtain ⟨id, hid⟩ := Dict.mem_values_iff.1 hl
    exact ⟨id, l, hid, hh⟩
  · rintro ⟨id, l, hid, hh⟩
    exact ⟨l, Dict.mem_values_iff.2 ⟨id, hid⟩, hh⟩

theorem get?_expireLeases {s : PrefixCacheStore} {now : Int} {id : String} {l : PrefixLease} :
    (s.expireLeases now).leases.get? id = some l ↔ s.leases.get? id = some l ∧ now ≤ l.expiresAtUnix := by
  simp [expireLeases, Dict.get?_filter, Option.filter_eq_some_iff]

private theorem get?_dropBlock {s : PrefixCacheStore} {h : Bytes} {b : CacheBlock} {id : String} {l : PrefixLease} :
    (s.dropBlock h b).leases.get? id = some l ↔ s.leases.get? id = some l ∧ h ∉ l.blockHashes := by
  simp [dropBlock, Dict.get?_filter, Option.filter_eq_some_iff]

/-- Every move keeps the invariant. -/
theorem sound_closed (R : Rights) : Closed R Sound := by
  intro s s' hm hs
  cases hm with
  | expire hr =>
    refine ⟨hs.keyed, hs.bytesUsed_eq, ?_⟩
    intro id l hl
    exact hs.leased id l (get?_expireLeases.1 hl).1
  | @evict h b hb hp =>
    refine ⟨?_, ?_, ?_⟩
    · intro h' b' hb'
      simp only [evictBlock, Dict.get?_erase] at hb'
      split at hb'
      · cases hb'
      · exact hs.keyed h' b' hb'
    · have := Dict.total_erase CacheBlock.nbytes hb
      simp only [evictBlock, hs.bytesUsed_eq]
      omega
    · intro id l hl
      refine ⟨(hs.leased id l hl).1, ?_⟩
      intro h' hh'
      obtain ⟨b', hb', hd⟩ := (hs.leased id l hl).2 h' hh'
      -- a leased hash is pinned, so it is not the victim
      have hne : h' ≠ h := fun e => hp (mem_pinnedHashes.2 ⟨id, l, hl, e ▸ hh'⟩)
      exact ⟨b', by simpa [evictBlock, Dict.get?_erase, hne] using hb', hd⟩
  | @touch h =>
    refine ⟨?_, ?_, ?_⟩
    · intro h' b' hb'
      exact hs.keyed h' b' (by simpa [touch] using hb')
    · simpa [touch] using hs.bytesUsed_eq
    · intro id l hl
      simpa [touch] using hs.leased id l hl
  | @store b hb hr =>
    refine ⟨?_, ?_, ?_⟩
    · intro h' b' hb'
      simp only [storeBlock, Dict.get?_set] at hb'
      split at hb'
      · rename_i he
        rw [← Option.some.inj hb', he]
      · exact hs.keyed h' b' hb'
    · simp only [storeBlock, Dict.total_set_new CacheBlock.nbytes b hb, hs.bytesUsed_eq]
      omega
    · intro id l hl
      refine ⟨(hs.leased id l hl).1, ?_⟩
      intro h' hh'
      obtain ⟨b', hb', hd⟩ := (hs.leased id l hl).2 h' hh'
      have hne : h' ≠ b.blockHash := by
        rintro rfl
        rw [hb] at hb'
        cases hb'
      exact ⟨b', by simpa [storeBlock, Dict.get?_set, hne] using hb', hd⟩
  | @grant h b l hb hl hd hr =>
    refine ⟨hs.keyed, hs.bytesUsed_eq, ?_⟩
    intro id l' hl'
    simp only [Dict.get?_set] at hl'
    split at hl'
    · rename_i he
      obtain rfl := Option.some.inj hl'
      refine ⟨he.symm, ?_⟩
      intro h' hh'
      rw [hl, List.mem_singleton] at hh'
      exact ⟨b, by rw [hh']; exact hb, hd.symm⟩
    · exact hs.leased id l' hl'
  | @drop h b hb hr =>
    refine ⟨?_, ?_, ?_⟩
    · intro h' b' hb'
      simp only [dropBlock, Dict.get?_erase] at hb'
      split at hb'
      · cases hb'
      · exact hs.keyed h' b' hb'
    · have := Dict.total_erase CacheBlock.nbytes hb
      simp only [dropBlock, hs.bytesUsed_eq]
      omega
    · intro id l hl
      obtain ⟨hl, hh⟩ := get?_dropBlock.1 hl
      refine ⟨(hs.leased id l hl).1, ?_⟩
      intro h' hh'
      obtain ⟨b', hb', hd⟩ := (hs.leased id l hl).2 h' hh'
      have hne : h' ≠ h := fun e => hh (e ▸ hh')
      exact ⟨b', by simpa [dropBlock, Dict.get?_erase, hne] using hb', hd⟩
  | books hc hb hl hu =>
    refine ⟨?_, ?_, ?_⟩
    · unfold Keyed
      rw [hb]
      exact hs.keyed
    · rw [hu, hb]
      exact hs.bytesUsed_eq
    · rw [hl, hb]
      exact hs.leased

theorem compatibility_closed (R : Rights) (c : CacheCompatibility) : Closed R fun s => s.compatibility = c := by
  intro s s' hm hs
  cases hm with
  | books hc => rw [hc]; exact hs
  | _ => exact hs

theorem create_ok {c : CacheCompatibility} {n : Int} {nodeId : String} {s : PrefixCacheStore}
    (h : create c n nodeId = .ok s) : 0 < n ∧ s = { compatibility := c, maxBytes := n, nodeId := nodeId } := by
  unfold create at h
  split at h
  · cases h
  · split at h
    · cases h
    · injection h with h
      exact ⟨by omega, h.symm⟩

theorem step_sound {s : PrefixCacheStore} (hs : s.Sound) (e : CacheEvent) : (step s e).2.Sound := by
  have hall : Closed (rights s.compatibility e) fun t => t.Sound ∧ t.compatibility = s.compatibility := by
    intro t t' hm ht
    exact ⟨sound_closed _ t t' hm ht.1, compatibility_closed _ _ t t' hm ht.2⟩
  exact (perform_keeps hall (fun t ht => ht.1.keyed) (fun t ht => ht.2) s ⟨hs, rfl⟩).1

/-- A predicate that the moves of every step of a run keep holds at its end. -/
theorem final_of_closed {c : CacheCompatibility} {I : PrefixCacheStore → Prop} {run : List CacheEvent}
    (hI : ∀ e ∈ run, Closed (rights c e) I) {s : PrefixCacheStore} (hs : s.Sound) (hc : s.compatibility = c)
    (hi : I s) : I (Machine.final step s run) := by
  induction run generalizing s with
  | nil => exact hi
  | cons e run ih =>
    have hall : Closed (rights c e) fun s => (s.Sound ∧ s.compatibility = c) ∧ I s := by
      intro t t' hm ht
      exact ⟨⟨sound_closed _ t t' hm ht.1.1, compatibility_closed _ c t t' hm ht.1.2⟩, hI e (by simp) t t' hm ht.2⟩
    have h := perform_keeps hall (fun t ht => ht.1.1.keyed) (fun t ht => ht.1.2) s ⟨⟨hs, hc⟩, hi⟩
    exact ih (fun e' he' => hI e' (by simp [he'])) h.1.1 h.1.2 h.2

/-- Every reachable store is sound. -/
theorem final_sound {c : CacheCompatibility} {n : Int} {nodeId : String} {s : PrefixCacheStore}
    (hs : create c n nodeId = .ok s) (run : List CacheEvent) :
    (Machine.final step s run).Sound ∧ (Machine.final step s run).compatibility = c := by
  obtain ⟨-, rfl⟩ := create_ok hs
  have h0 : Sound { compatibility := c, maxBytes := n, nodeId := nodeId } :=
    ⟨(fun h b hb => by cases hb), rfl, (fun id l hl => by cases hl)⟩
  refine ⟨final_of_closed (fun e _ => sound_closed _) h0 rfl h0, ?_⟩
  exact final_of_closed (fun e _ => compatibility_closed _ c) h0 rfl rfl

/-! ### A lease holds its blocks -/

/-- The lease is in the table and its blocks, stored with its digest, are `bs`. -/
structure Holds (s : PrefixCacheStore) (l : PrefixLease) (bs : List CacheBlock) : Prop where
  listed : s.leases.get? l.leaseId = some l
  stored : leasedBlocks s.blocks l.blockHashes = some bs
  hashes : bs.map CacheBlock.blockHash = l.blockHashes
  digests : ∀ b ∈ bs, b.payloadSha256 = l.payloadSha256

private theorem leasedBlocks_cons {d : Dict Bytes CacheBlock} {h : Bytes} {hs : List Bytes} {bs : List CacheBlock}
    (hb : leasedBlocks d (h :: hs) = some bs) :
    ∃ b bs', d.get? h = some b ∧ leasedBlocks d hs = some bs' ∧ bs = b :: bs' := by
  unfold leasedBlocks at hb
  cases hd : d.get? h with
  | none => rw [hd] at hb; cases hb
  | some b =>
    rw [hd] at hb
    obtain ⟨bs', hbs', he⟩ := Option.map_eq_some_iff.1 hb
    exact ⟨b, bs', rfl, hbs', he.symm⟩

private theorem leasedBlocks_present {d : Dict Bytes CacheBlock} {hs : List Bytes} {bs : List CacheBlock}
    (hb : leasedBlocks d hs = some bs) {h : Bytes} (hh : h ∈ hs) : ∃ b, d.get? h = some b := by
  induction hs generalizing bs with
  | nil => cases hh
  | cons x xs ih =>
    obtain ⟨b, bs', hx, hxs, -⟩ := leasedBlocks_cons hb
    rcases List.mem_cons.1 hh with rfl | hh
    · exact ⟨b, hx⟩
    · exact ih hxs hh

private theorem leasedBlocks_congr {d d' : Dict Bytes CacheBlock} {hs : List Bytes}
    (h : ∀ x ∈ hs, d'.get? x = d.get? x) : leasedBlocks d' hs = leasedBlocks d hs := by
  induction hs with
  | nil => rfl
  | cons x xs ih =>
    unfold leasedBlocks
    rw [h x (by simp), ih fun y hy => h y (by simp [hy])]

/-- In a sound store every lease of the table holds its blocks. -/
theorem Sound.holds {s : PrefixCacheStore} (hs : s.Sound) {id : String} {l : PrefixLease}
    (hl : s.leases.get? id = some l) : l.leaseId = id ∧ ∃ bs, s.Holds l bs := by
  obtain ⟨rfl, hh⟩ := hs.leased id l hl
  refine ⟨rfl, ?_⟩
  have hall : ∀ hashes : List Bytes,
      (∀ h ∈ hashes, ∃ b, s.blocks.get? h = some b ∧ b.payloadSha256 = l.payloadSha256) →
      ∃ bs, leasedBlocks s.blocks hashes = some bs ∧ bs.map CacheBlock.blockHash = hashes ∧
        ∀ b ∈ bs, b.payloadSha256 = l.payloadSha256 := by
    intro hashes
    induction hashes with
    | nil => exact fun _ => ⟨[], rfl, rfl, by simp⟩
    | cons x xs ih =>
      intro hx
      obtain ⟨b, hb, hd⟩ := hx x (by simp)
      obtain ⟨bs, hbs, hm, hds⟩ := ih fun y hy => hx y (by simp [hy])
      refine ⟨b :: bs, ?_, ?_, ?_⟩
      · simp [leasedBlocks, hb, hbs]
      · simp [hm, hs.keyed x b hb]
      · intro y hy
        rcases List.mem_cons.1 hy with rfl | hy
        · exact hd
        · exact hds y hy
  obtain ⟨bs, hbs, hm, hd⟩ := hall l.blockHashes hh
  exact ⟨bs, hl, hbs, hm, hd⟩

/-- A lease that holds its blocks and has not expired serves exactly these. -/
theorem Holds.fetch {s : PrefixCacheStore} {l : PrefixLease} {bs : List CacheBlock} (h : s.Holds l bs) {now : Int}
    (hn : now ≤ l.expiresAtUnix) : ((fetch l.leaseId now).run s).1 = .ok bs := by
  have hl : (s.expireLeases now).leases.get? l.leaseId = some l := get?_expireLeases.2 ⟨h.listed, hn⟩
  have hb : leasedBlocks (s.expireLeases now).blocks l.blockHashes = some bs := h.stored
  unfold PrefixCacheStore.fetch
  rw [Proc.run_modify_bind, Proc.run_get_bind, hl]
  dsimp only
  rw [hb]
  rfl

theorem Sound.fetch_ne_evicted {s : PrefixCacheStore} (hs : s.Sound) (id : String) (now : Int) :
    ((PrefixCacheStore.fetch id now).run s).1 ≠ .error (.keyError "leased block was evicted") := by
  intro h
  unfold PrefixCacheStore.fetch at h
  rw [Proc.run_modify_bind, Proc.run_get_bind] at h
  cases hl : (s.expireLeases now).leases.get? id with
  | none =>
    rw [hl] at h
    simp at h
  | some l =>
    obtain ⟨-, bs, hbs⟩ := hs.holds (get?_expireLeases.1 hl).1
    have hb : leasedBlocks (s.expireLeases now).blocks l.blockHashes = some bs := hbs.stored
    rw [hl] at h
    dsimp only at h
    rw [hb] at h
    cases h

/-- The moves leave the lease alone: it does not expire by them, its id is not drawn again and no block of it is
dropped. -/
structure Rights.Spare (R : Rights) (l : PrefixLease) : Prop where
  expires : ∀ now, R.expires now → now ≤ l.expiresAtUnix
  grants : ¬ R.grants l.leaseId
  drops : ∀ h ∈ l.blockHashes, ¬ R.drops h

/-- What a lease holds it keeps, as long as the moves spare it. -/
theorem holds_closed {R : Rights} {l : PrefixLease} (hR : R.Spare l) (bs : List CacheBlock) :
    Closed R fun s => s.Holds l bs := by
  intro s s' hm hs
  cases hm with
  | expire hr =>
    exact ⟨get?_expireLeases.2 ⟨hs.listed, hR.expires _ hr⟩, hs.stored, hs.hashes, hs.digests⟩
  | @evict h b hb hp =>
    refine ⟨hs.listed, ?_, hs.hashes, hs.digests⟩
    rw [← hs.stored]
    apply leasedBlocks_congr
    intro x hx
    have hne : x ≠ h := fun e => hp (mem_pinnedHashes.2 ⟨_, l, hs.listed, e ▸ hx⟩)
    simp [evictBlock, Dict.get?_erase, hne]
  | touch =>
    refine ⟨hs.listed, ?_, hs.hashes, hs.digests⟩
    rw [← hs.stored]
    apply leasedBlocks_congr
    intro x _
    simp [PrefixCacheStore.touch]
  | @store b hb hr =>
    refine ⟨hs.listed, ?_, hs.hashes, hs.digests⟩
    rw [← hs.stored]
    apply leasedBlocks_congr
    intro x hx
    -- the stored block is new, so it replaces none of the leased ones
    have hne : x ≠ b.blockHash := by
      rintro rfl
      obtain ⟨b', hb'⟩ := leasedBlocks_present hs.stored hx
      rw [hb] at hb'
      cases hb'
    simp [storeBlock, Dict.get?_set, hne]
  | @grant h b l' hb hl' hd hr =>
    refine ⟨?_, hs.stored, hs.hashes, hs.digests⟩
    have hne : l.leaseId ≠ l'.leaseId := fun e => hR.grants (e ▸ hr)
    simpa [Dict.get?_set, hne] using hs.listed
  | @drop h b hb hr =>
    have hne : ∀ x ∈ l.blockHashes, x ≠ h := fun x hx e => hR.drops x hx (e ▸ hr)
    refine ⟨get?_dropBlock.2 ⟨hs.listed, fun hx => hne h hx rfl⟩, ?_, hs.hashes, hs.digests⟩
    rw [← hs.stored]
    apply leasedBlocks_congr
    intro x hx
    simp [dropBlock, Dict.get?_erase, hne x hx]
  | books hc hb hl hu =>
    refine ⟨?_, ?_, hs.hashes, hs.digests⟩
    · rw [hl]; exact hs.listed
    · rw [hb]; exact hs.stored

/-- A hit of `lookup` enters the table under its id. -/
theorem lookup_grants {hashes : List Bytes} {secs now : Int} {id : String} {s s' : PrefixCacheStore}
    {l : PrefixLease} (h : (lookup hashes secs now id).run s = (.ok l, s')) (hne : l.blockHashes ≠ []) :
    s'.leases.get? l.leaseId = some l := by
  unfold lookup at h
  split at h
  · cases (Prod.mk.inj h).1
  · rw [Proc.run_modify_bind, Proc.run_get_bind] at h
    cases hh : longestHit (s.expireLeases now).blocks 0 hashes none with
    | none =>
      rw [hh] at h
      obtain ⟨hl, -⟩ := Prod.mk.inj h
      obtain rfl := Except.ok.inj hl
      exact absurd rfl hne
    | some p =>
      rw [hh] at h
      obtain ⟨hl, rfl⟩ := Prod.mk.inj h
      obtain rfl := Except.ok.inj hl
      exact Dict.get?_set_self _ _ _

/-- The rights of storing blocks only. -/
private def storing : Rights := ⟨fun _ => False, fun _ => False, fun _ => False, fun _ => True⟩

private theorem listed_closed (l : PrefixLease) : Closed storing fun s => s.leases.get? l.leaseId = some l := by
  intro s s' hm hs
  cases hm with
  | expire hr => cases hr
  | grant hb hl hd hr => cases hr
  | drop hb hr => cases hr
  | books hc hb hl hu => rw [hl]; exact hs
  | _ => exact hs

theorem publishLocked_grants {final : CacheBlock} {spares : List CacheBlock} {k : Nat} {rid : String}
    {secs now : Int} {id : String} {s s' : PrefixCacheStore} {l : PrefixLease}
    (h : (publishLocked final spares k rid secs now id).run s = (.ok l, s')) :
    s'.leases.get? l.leaseId = some l := by
  unfold publishLocked at h
  rw [Proc.run_get_bind] at h
  cases hr : s.reservations.get? rid with
  | none => rw [hr] at h; cases (Prod.mk.inj h).1
  | some reserved =>
    rw [hr] at h
    dsimp only at h
    split at h
    · cases (Prod.mk.inj h).1
    rw [Proc.run_modify_bind, Proc.run_modify_bind, Proc.run_get_bind] at h
    split at h
    · cases (Prod.mk.inj h).1
    rw [Proc.run_bind] at h
    split at h
    · rename_i u _
      rw [Proc.run_get_bind, Proc.run_modify_bind] at h
      obtain ⟨_, hx, rfl⟩ := Proc.run_map_ok h
      -- what the other blocks do leaves the table alone
      have hk := publishSpares_keeps (listed_closed (u.leaseOn id final k (now + secs))) spares
        (fun _ _ => trivial) (settleReservation rid (u.leaseOn id final k (now + secs)) u)
        (Dict.get?_set_self _ _ _)
      rw [hx] at hk
      exact hk
    · cases (Prod.mk.inj h).1

theorem publishAndLease_grants {bs : List CacheBlock} {hashes : List Bytes} {rid : String} {secs now : Int}
    {id : String} {s s' : PrefixCacheStore} {l : PrefixLease}
    (h : (publishAndLease bs hashes rid secs now id).run s = (.ok l, s')) : s'.leases.get? l.leaseId = some l := by
  unfold publishAndLease at h
  dsimp only at h
  split at h
  · cases (Prod.mk.inj h).1
  split at h
  · cases (Prod.mk.inj h).1
  split at h
  · cases (Prod.mk.inj h).1
  split at h
  · cases (Prod.mk.inj h).1
  split at h
  · cases (Prod.mk.inj h).1
  exact publishLocked_grants h

/-- A granted lease is in the table. -/
theorem step_grants {s s' : PrefixCacheStore} {e : CacheEvent} {l : PrefixLease}
    (h : step s e = (.ok (.lease l), s')) (hne : l.blockHashes ≠ []) : s'.leases.get? l.leaseId = some l := by
  cases e with
  | lookup hs secs now id =>
    obtain ⟨l', hx, hl⟩ := Proc.run_map_ok h
    obtain rfl := CacheReply.lease.inj hl
    exact lookup_grants hx hne
  | publishAndLease bs hs rid secs now id =>
    obtain ⟨l', hx, hl⟩ := Proc.run_map_ok h
    obtain rfl := CacheReply.lease.inj hl
    exact publishAndLease_grants hx
  | put b now => obtain ⟨_, _, hl⟩ := Proc.run_map_ok h; cases hl
  | putPrefix ts ps clock => obtain ⟨_, _, hl⟩ := Proc.run_map_ok h; cases hl
  | fetch id now => obtain ⟨_, _, hl⟩ := Proc.run_map_ok h; cases hl
  | reserve id n now => obtain ⟨_, _, hl⟩ := Proc.run_map_ok h; cases hl
  | releaseReservation id => obtain ⟨_, _, hl⟩ := Proc.run_map_ok h; cases hl
  | resize n => obtain ⟨_, _, hl⟩ := Proc.run_map_ok h; cases hl
  | invalidate hash => obtain ⟨_, _, hl⟩ := Proc.run_map_ok h; cases hl
  | expire now => obtain ⟨_, _, hl⟩ := Proc.run_map_ok h; cases hl

/-- Lease safety.  After every run, every lease of the table holds its blocks with the digest it was granted for, no
`fetch` meets an evicted block, and an unexpired lease serves exactly the blocks it holds.  A lease that is granted
next holds its blocks, the same ones, through every continuation that neither passes its expiry nor invalidates its
block nor draws its id again, and a `fetch` serves them. -/
theorem lease_safety {c : CacheCompatibility} {n : Int} {nodeId : String} {s : PrefixCacheStore}
    (hs : create c n nodeId = .ok s) (run : List CacheEvent) :
    let t := Machine.final step s run;
    (∀ id l, t.leases.get? id = some l → l.leaseId = id ∧ ∃ bs, t.Holds l bs) ∧
    (∀ id now, ((fetch id now).run t).1 ≠ .error (.keyError "leased block was evicted")) ∧
    (∀ l bs now, t.Holds l bs → now ≤ l.expiresAtUnix → ((fetch l.leaseId now).run t).1 = .ok bs) ∧
    ∀ e l t', step t e = (.ok (.lease l), t') → l.blockHashes ≠ [] →
      ∃ bs, t'.Holds l bs ∧ ∀ rest, (∀ e' ∈ rest, (rights c e').Spare l) →
        (Machine.final step t' rest).Holds l bs ∧
        ∀ now, now ≤ l.expiresAtUnix → ((fetch l.leaseId now).run (Machine.final step t' rest)).1 = .ok bs := by
  intro t
  have ht : t.Sound ∧ t.compatibility = c := final_sound hs run
  refine ⟨fun id l hl => ht.1.holds hl, fun id now => ht.1.fetch_ne_evicted id now,
    fun l bs now hb hn => hb.fetch hn, ?_⟩
  intro e l t' hstep hne
  have hrun : t' = Machine.final step s (run ++ [e]) := by
    rw [Machine.final_append]
    exact (congrArg Prod.snd hstep).symm
  have ht' := final_sound hs (run ++ [e])
  rw [← hrun] at ht'
  obtain ⟨-, bs, hbs⟩ := ht'.1.holds (step_grants hstep hne)
  refine ⟨bs, hbs, ?_⟩
  intro rest hrest
  have hb := final_of_closed (fun e' he' => holds_closed (hrest e' he') bs) ht'.1 ht'.2 hbs
  exact ⟨hb, fun now hn => hb.fetch hn⟩

/-- A store of six bytes. -/
def smallStore : PrefixCacheStore := { compatibility := { modelId := "m" }, maxBytes := 6, nodeId := "n" }

/-- A block of the given size, under a hash that repeats one byte. -/
def plainBlock (x : UInt8) (size : Nat) : CacheBlock :=
  ⟨List.replicate 32 x, 4, List.replicate size x, Sha256.sha256 (List.replicate size x)⟩

/-- A leased block outlives blocks that fill the store, a shrink, and the loss of the younger block. -/
theorem leased_block_outlives_pressure :
    ((fetch "lease" 30).run
      (Machine.final step smallStore
        [.put (plainBlock 1 4) 0, .lookup [List.replicate 32 1] 30 0 "lease", .put (plainBlock 2 2) 10,
          .put (plainBlock 3 2) 20, .resize 4, .invalidate (List.replicate 32 3), .expire 30])).1 =
      .ok [plainBlock 1 4] := by
  have hs : create { modelId := "m" } 6 "n" = .ok smallStore := rfl
  have hgrant := (lease_safety hs [.put (plainBlock 1 4) 0]).2.2.2
    (.lookup [List.replicate 32 1] 30 0 "lease")
    ⟨"lease", [List.replicate 32 1], 1, 4, 4, 2, 30, Sha256.sha256 (List.replicate 4 1)⟩ _
    (Prod.ext (by decide +kernel) rfl) (by simp)
  obtain ⟨bs, hbs, hrest⟩ := hgrant
  have hb : bs = [plainBlock 1 4] := by
    have := hbs.stored.symm.trans (show leasedBlocks _ _ = some [plainBlock 1 4] by decide +kernel)
    exact Option.some.inj this
  have h := (hrest [.put (plainBlock 2 2) 10, .put (plainBlock 3 2) 20, .resize 4,
    .invalidate (List.replicate 32 3), .expire 30] ?_).2 30 (by decide)
  · rw [hb] at h
    exact h
  · intro e he
    simp only [List.mem_cons, List.not_mem_nil, or_false] at he
    rcases he with rfl | rfl | rfl | rfl | rfl <;>
      refine ⟨fun t ht => ?_, fun hg => ?_, fun h hh hd => ?_⟩ <;> simp_all [rights]

end PrefixCacheStore

end KakeyaEngine
