import KakeyaEngine.PrefixCache.Leases
import Mathlib.Algebra.Order.BigOperators.Group.List
import Mathlib.Algebra.Order.Group.Nat
import Mathlib.Logic.Function.Basic

/-!
# The budget of the store

`Within` says that the byte count is the sum of the stored sizes and leaves room for every reservation.  Every
operation keeps it but one: `publish_and_lease` stores its other blocks after it has given up its reservation, and its
check counts the bytes in use without the reservations of the other jobs.  `SparesFit` is the condition under which
this loop stays within the budget; `budget_iff` shows that a run is within the budget throughout exactly when every
publication of it meets the condition, and that a publication within its own reservation then finds its room.
-/

namespace KakeyaEngine

namespace PrefixCacheStore

/-- The byte count is right and leaves room for every reservation. -/
structure Within (s : PrefixCacheStore) : Prop where
  counted : s.bytesUsed = (s.blocks.total CacheBlock.nbytes : Nat)
  fits : s.bytesUsed + s.reserved ≤ s.maxBytes

/-- What the eviction leaves alone. -/
theorem evictToLimit_frame (limit : Int) (s : PrefixCacheStore) :
    (s.evictToLimit limit).maxBytes = s.maxBytes ∧ (s.evictToLimit limit).reservations = s.reservations ∧
      (s.evictToLimit limit).bytesUsed ≤ s.bytesUsed := by
  refine evictToLimit_induct limit s (I := fun t => t.maxBytes = s.maxBytes ∧ t.reservations = s.reservations ∧
    t.bytesUsed ≤ s.bytesUsed) ?_ ⟨rfl, rfl, Int.le_refl _⟩
  rintro t h b ⟨hm, hr, hu⟩ _ _ _ _
  refine ⟨hm, hr, ?_⟩
  simp only [evictBlock]
  omega

theorem Sound.not_pinned {s : PrefixCacheStore} (hs : s.Sound) {h : Bytes} (hb : s.blocks.get? h = none) :
    h ∉ s.pinnedHashes := by
  intro hp
  obtain ⟨id, l, hl, hh⟩ := mem_pinnedHashes.1 hp
  obtain ⟨b, hb', -⟩ := (hs.leased id l hl).2 h hh
  rw [hb] at hb'
  cases hb'

/-- A new block that fits next to the reservations is stored within them, or is itself the last victim. -/
theorem bytesUsed_evict_store {s : PrefixCacheStore} (hs : s.Sound) {b : CacheBlock} {limit : Int}
    (hb : s.blocks.get? b.blockHash = none) (hu : s.bytesUsed ≤ limit) :
    ((s.storeBlock b).evictToLimit limit).bytesUsed ≤ limit := by
  rcases evictToLimit_done limit (s.storeBlock b) with h | h
  · exact h
  · -- only pinned blocks are left, so the new one is gone and the rest was there before
    have hnp : b.blockHash ∉ (s.storeBlock b).pinnedHashes := hs.not_pinned hb
    have hinv := evictToLimit_induct limit (s.storeBlock b)
      (I := fun t => (t.blocks.get? b.blockHash = some b ∧ t.bytesUsed ≤ s.bytesUsed + b.nbytes) ∨
        (t.blocks.get? b.blockHash = none ∧ t.bytesUsed ≤ s.bytesUsed)) ?_ ?_
    · rcases hinv with ⟨hb', -⟩ | ⟨-, hle⟩
      · exact absurd (h _ b hb') hnp
      · omega
    · intro t h' b' ht _ _ hb' _
      simp only [evictBlock, Dict.get?_erase]
      by_cases he : b.blockHash = h'
      · subst he
        right
        refine ⟨by simp, ?_⟩
        rcases ht with ⟨hbt, hle⟩ | ⟨hbt, hle⟩
        · rw [hbt] at hb'
          obtain rfl := Option.some.inj hb'
          omega
        · rw [hbt] at hb'
          cases hb'
      · simp only [he, ↓reduceIte]
        rcases ht with ⟨hbt, hle⟩ | ⟨hbt, hle⟩
        · exact Or.inl ⟨hbt, by omega⟩
        · exact Or.inr ⟨hbt, by omega⟩
    · left
      simp [storeBlock]

/-! ### Operations that keep the budget -/

/-- Within the budget, in a sound store. -/
def Solid (s : PrefixCacheStore) : Prop := s.Sound ∧ s.bytesUsed + s.reserved ≤ s.maxBytes

theorem Solid.within {s : PrefixCacheStore} (h : s.Solid) : s.Within := ⟨h.1.bytesUsed_eq, h.2⟩

/-- Blocks, byte count, reservations and capacity decide the budget. -/
private theorem fits_of_eq {s s' : PrefixCacheStore} (hs : s.bytesUsed + s.reserved ≤ s.maxBytes)
    (hu : s'.bytesUsed ≤ s.bytesUsed) (hr : s'.reservations = s.reservations) (hm : s'.maxBytes = s.maxBytes) :
    s'.bytesUsed + s'.reserved ≤ s'.maxBytes := by
  have hr' : s'.reserved = s.reserved := by unfold reserved; rw [hr]
  omega

private theorem reserved_eq {s s' : PrefixCacheStore} (hr : s'.reservations = s.reservations) :
    s'.reserved = s.reserved := by
  unfold reserved
  rw [hr]

/-- The rights that leave nothing out. -/
def anyRights : Rights := ⟨fun _ => True, fun _ => True, fun _ => True, fun _ => True⟩

/-- What `_put_locked` does. -/
theorem run_putLocked (b : CacheBlock) (s : PrefixCacheStore) :
    (putLocked b).run s =
      match s.blocks.get? b.blockHash with
      | none => (.ok true, s.storeBlock b)
      | some existing =>
        if existing.payloadSha256 = b.payloadSha256 then (.ok false, s.touch b.blockHash)
        else (.error (.valueError "content-address collision with different payload"),
          { s with putFailures := s.putFailures + 1 }) := by
  unfold putLocked
  rw [Proc.run_get_bind]
  cases s.blocks.get? b.blockHash with
  | none => rfl
  | some existing =>
    by_cases hd : existing.payloadSha256 = b.payloadSha256
    · simp only [ne_eq, hd, not_true_eq_false, ↓reduceIte]; rfl
    · simp only [ne_eq, hd, not_false_eq_true, ↓reduceIte]; rfl

private theorem put_fits (b : CacheBlock) (now : Int) {s : PrefixCacheStore} (hs : s.Solid) :
    ((put b now).run s).2.bytesUsed + ((put b now).run s).2.reserved ≤ ((put b now).run s).2.maxBytes := by
  have hsound := sound_closed anyRights s (s.expireLeases now) (.expire trivial) hs.1
  unfold put
  rw [Proc.run_get_bind]
  dsimp only
  split
  · exact hs.2
  · rw [Proc.run_modify_bind, Proc.run_bind, run_putLocked]
    cases hb : (s.expireLeases now).blocks.get? b.blockHash with
    | some existing =>
      by_cases hd : existing.payloadSha256 = b.payloadSha256
      · simp only [hd, ↓reduceIte]
        exact hs.2
      · simp only [hd, ↓reduceIte]
        exact hs.2
    | none =>
      -- the new block, and the eviction down to what the reservations leave
      have hfit : (s.expireLeases now).bytesUsed ≤ s.maxBytes - s.reserved := by
        have := hs.2
        simp only [expireLeases]
        omega
      have hu := bytesUsed_evict_store hsound hb hfit
      obtain ⟨hm, hr, -⟩ := evictToLimit_frame (s.maxBytes - s.reserved) ((s.expireLeases now).storeBlock b)
      simp only [Bool.true_eq_false, ↓reduceIte]
      rw [Proc.run_modify_bind, Proc.run_get_bind]
      generalize evictToLimit (s.maxBytes - s.reserved) (storeBlock b (s.expireLeases now)) = u at hu hm hr ⊢
      have hr' : u.reserved = s.reserved := reserved_eq hr
      have hm' : u.maxBytes = s.maxBytes := hm
      have hfits : u.bytesUsed + u.reserved ≤ u.maxBytes := by omega
      split
      · exact hfits
      · exact hfits

/-- `put` keeps the budget, whether it returns or raises. -/
theorem put_solid (b : CacheBlock) (now : Int) : Proc.Keeps Solid (put b now) := by
  intro s hs
  exact ⟨put_keeps (sound_closed anyRights) trivial trivial s hs.1, put_fits b now hs⟩

theorem putBoundaries_solid (size : Int) (count : Nat) (clock : Nat → Int) (index : Nat)
    (rest : List (Bytes × Bytes)) : Proc.Keeps Solid (putBoundaries size count clock index rest) := by
  induction rest generalizing index with
  | nil => exact Proc.Keeps.pure _
  | cons p rest ih =>
    obtain ⟨h, payload⟩ := p
    unfold putBoundaries
    cases CacheBlock.create h (min ((index + 1) * size) count) payload with
    | error e => exact Proc.Keeps.raise _
    | ok b => exact Proc.Keeps.bind (put_solid b (clock index)) fun _ => ih (index + 1)

theorem putPrefix_solid (ts : List Token) (payloads : List Bytes) (clock : Nat → Int) :
    Proc.Keeps Solid (putPrefix ts payloads clock) := by
  apply Proc.Keeps.get_bind
  intro s hs
  cases chainedBlockHashes ts s.compatibility [] with
  | error e => exact hs
  | ok hashes =>
    dsimp only
    split
    · exact hs
    · exact Proc.Keeps.bind (putBoundaries_solid _ _ _ _ _) (fun _ => Proc.Keeps.pure _) s hs

theorem expireLeases_solid (now : Int) : Proc.Keeps Solid (Proc.modify (expireLeases now) : CacheProc Unit) := by
  intro s hs
  exact ⟨expireLeases_keeps (sound_closed anyRights) trivial s hs.1, hs.2⟩

theorem evictToLimit_solid (limit : Int) : Proc.Keeps Solid (Proc.modify (evictToLimit limit) : CacheProc Unit) := by
  intro s hs
  obtain ⟨hm, hr, hu⟩ := evictToLimit_frame limit s
  exact ⟨evictToLimit_keeps (sound_closed anyRights) limit s hs.1, fits_of_eq hs.2 hu hr hm⟩

theorem lookup_solid (hashes : List Bytes) (secs now : Int) (id : String) :
    Proc.Keeps Solid (lookup hashes secs now id) := by
  intro s hs
  refine ⟨lookup_keeps (sound_closed anyRights) (fun t ht => ht.keyed) trivial trivial s hs.1, ?_⟩
  unfold lookup
  split
  · exact hs.2
  · rw [Proc.run_modify_bind, Proc.run_get_bind]
    cases longestHit (s.expireLeases now).blocks 0 hashes none with
    | none => exact hs.2
    | some p => exact hs.2

theorem fetch_solid (id : String) (now : Int) : Proc.Keeps Solid (fetch id now) := by
  intro s hs
  refine ⟨fetch_keeps (sound_closed anyRights) trivial s hs.1, ?_⟩
  unfold fetch
  rw [Proc.run_modify_bind, Proc.run_get_bind]
  cases (s.expireLeases now).leases.get? id with
  | none => exact hs.2
  | some l =>
    dsimp only
    cases leasedBlocks (s.expireLeases now).blocks l.blockHashes with
    | none => exact hs.2
    | some bs => exact hs.2

theorem reserve_solid (id : String) (n now : Int) : Proc.Keeps Solid (reserve id n now) := by
  unfold reserve
  split
  · exact Proc.Keeps.raise _
  rename_i hn
  apply Proc.Keeps.get_bind
  intro s hs
  split
  · exact hs
  rename_i hdup
  dsimp only
  split
  · exact hs
  rw [Proc.run_modify_bind, Proc.run_modify_bind, Proc.run_get_bind]
  have he : (evictToLimit (s.maxBytes - (s.reserved + n)) (s.expireLeases now)).Solid :=
    evictToLimit_solid _ _ (expireLeases_solid now s hs)
  obtain ⟨hm, hr, -⟩ := evictToLimit_frame (s.maxBytes - (s.reserved + n)) (s.expireLeases now)
  generalize evictToLimit (s.maxBytes - (s.reserved + n)) (s.expireLeases now) = u at he hm hr ⊢
  split
  · exact he
  · rename_i hroom
    refine ⟨(sound_closed anyRights).books he.1 rfl rfl rfl rfl, ?_⟩
    -- the new reservation is the only change to the sum
    have hnew : (s.reservations.get? id) = none := by
      cases hg : s.reservations.get? id with
      | none => rfl
      | some v => exact absurd (Dict.contains_iff.2 ⟨v, hg⟩) hdup
    have hsum := Dict.total_set_new (fun n => n) n.toNat hnew
    have hr' : u.reservations = s.reservations := hr
    have hm' : u.maxBytes = s.maxBytes := hm
    simp only [Proc.run_modify, reserved, hr', hsum] at hroom ⊢
    omega

theorem releaseReservation_solid (id : String) : Proc.Keeps Solid (releaseReservation id) := by
  intro s hs
  refine ⟨(sound_closed anyRights).books hs.1 rfl rfl rfl rfl, ?_⟩
  have hfit := hs.2
  simp only [releaseReservation, Proc.run_modify, reserved] at hfit ⊢
  cases hg : s.reservations.get? id with
  | none => rw [Dict.erase_of_absent hg]; exact hfit
  | some r =>
    have := Dict.total_erase (fun n => n) hg
    omega

theorem resize_solid (n : Int) : Proc.Keeps Solid (resize n) := by
  intro s hs
  refine ⟨resize_keeps (sound_closed anyRights) n s hs.1, ?_⟩
  unfold resize
  split
  · exact hs.2
  rw [Proc.run_get_bind]
  dsimp only
  split
  · exact hs.2
  rw [Proc.run_modify_bind, Proc.run_modify_bind, Proc.run_get_bind]
  obtain ⟨hm, hr, hu⟩ := evictToLimit_frame (n - s.reserved) { s with maxBytes := n }
  generalize evictToLimit (n - s.reserved) { s with maxBytes := n } = u at hm hr hu ⊢
  have hr' : u.reserved = s.reserved := reserved_eq hr
  have hm' : u.maxBytes = n := hm
  have hu' : u.bytesUsed ≤ s.bytesUsed := hu
  have hfit := hs.2
  split
  · -- the capacity before the call still covers what could not be evicted
    change u.bytesUsed + u.reserved ≤ max s.maxBytes u.bytesUsed
    omega
  · change u.bytesUsed + u.reserved ≤ u.maxBytes
    omega

theorem invalidate_solid (h : Bytes) : Proc.Keeps Solid (invalidate h) := by
  intro s hs
  refine ⟨invalidate_keeps (sound_closed anyRights) trivial s hs.1, ?_⟩
  unfold invalidate
  rw [Proc.run_get_bind]
  cases s.blocks.get? h with
  | none => exact hs.2
  | some b =>
    have := hs.2
    simp only [Proc.run_modify_bind, Proc.run_pure, dropBlock, reserved] at this ⊢
    omega

/-! ### Publications -/

/-- The digest of the block stored under a hash. -/
def digestAt (s : PrefixCacheStore) (h : Bytes) : Option Bytes := (s.blocks.get? h).map CacheBlock.payloadSha256

/-- Storing the blocks one after the other stays within the budget: every block that is not stored yet and fits the
capacity on top of the bytes in use also fits next to the reservations of the `others`.  A collision ends the walk. -/
def SparesFit (capacity others : Int) : (Bytes → Option Bytes) → Int → List CacheBlock → Prop
  | _, _, [] => True
  | stored, used, b :: bs =>
    if capacity < b.nbytes + used then SparesFit capacity others stored used bs
    else
      match stored b.blockHash with
      | some digest => digest = b.payloadSha256 → SparesFit capacity others stored used bs
      | none =>
        b.nbytes + used + others ≤ capacity ∧
          SparesFit capacity others (Function.update stored b.blockHash (some b.payloadSha256)) (used + b.nbytes) bs

instance SparesFit.decidable (capacity others : Int) :
    ∀ stored used bs, Decidable (SparesFit capacity others stored used bs)
  | _, _, [] => isTrue trivial
  | stored, used, b :: bs =>
    have rest := SparesFit.decidable capacity others stored used bs
    if hc : capacity < b.nbytes + used then
      decidable_of_iff (SparesFit capacity others stored used bs) (by simp [SparesFit, hc])
    else
      match hd : stored b.blockHash with
      | some digest =>
        decidable_of_iff (digest = b.payloadSha256 → SparesFit capacity others stored used bs)
          (by simp [SparesFit, hc, hd])
      | none =>
        have rest' := SparesFit.decidable capacity others
          (Function.update stored b.blockHash (some b.payloadSha256)) (used + b.nbytes) bs
        decidable_of_iff
          (b.nbytes + used + others ≤ capacity ∧
            SparesFit capacity others (Function.update stored b.blockHash (some b.payloadSha256)) (used + b.nbytes) bs)
          (by simp [SparesFit, hc, hd])

private theorem digestAt_touch (s : PrefixCacheStore) (h : Bytes) : (s.touch h).digestAt = s.digestAt := by
  funext x
  simp [digestAt, touch]

private theorem digestAt_storeBlock (s : PrefixCacheStore) (b : CacheBlock) :
    (s.storeBlock b).digestAt = Function.update s.digestAt b.blockHash (some b.payloadSha256) := by
  funext x
  by_cases h : x = b.blockHash
  · subst h
    simp [digestAt, storeBlock]
  · simp [digestAt, storeBlock, Dict.get?_set, h]

/-- The other blocks never lower the byte count. -/
theorem publishSpares_frame (bs : List CacheBlock) (s : PrefixCacheStore) :
    ((publishSpares bs).run s).2.maxBytes = s.maxBytes ∧
      ((publishSpares bs).run s).2.reservations = s.reservations ∧
      s.bytesUsed ≤ ((publishSpares bs).run s).2.bytesUsed := by
  induction bs generalizing s with
  | nil => exact ⟨rfl, rfl, Int.le_refl _⟩
  | cons b bs ih =>
    unfold publishSpares
    rw [Proc.run_get_bind]
    split
    · exact ih s
    · rw [Proc.run_bind, run_putLocked]
      cases s.blocks.get? b.blockHash with
      | none =>
        obtain ⟨hm, hr, hu⟩ := ih (s.storeBlock b)
        refine ⟨hm, hr, ?_⟩
        simp only [storeBlock] at hu
        dsimp only
        simp only [storeBlock]
        omega
      | some existing =>
        by_cases hd : existing.payloadSha256 = b.payloadSha256
        · simp only [hd, ↓reduceIte]
          exact ih (s.touch b.blockHash)
        · simp only [hd, ↓reduceIte]
          exact ⟨trivial, trivial, Int.le_refl _⟩

/-- The loop over the other blocks ends within the budget exactly when its blocks fit. -/
theorem publishSpares_fits_iff (bs : List CacheBlock) {s : PrefixCacheStore}
    (hs : s.bytesUsed + s.reserved ≤ s.maxBytes) :
    ((publishSpares bs).run s).2.bytesUsed + ((publishSpares bs).run s).2.reserved ≤
        ((publishSpares bs).run s).2.maxBytes ↔
      SparesFit s.maxBytes s.reserved s.digestAt s.bytesUsed bs := by
  induction bs generalizing s with
  | nil => exact ⟨fun _ => trivial, fun _ => hs⟩
  | cons b bs ih =>
    unfold publishSpares SparesFit
    rw [Proc.run_get_bind]
    split
    · exact ih hs
    · rw [Proc.run_bind, run_putLocked]
      cases hb : s.blocks.get? b.blockHash with
      | none =>
        have hn : s.digestAt b.blockHash = none := by simp [digestAt, hb]
        rw [hn]
        dsimp only
        by_cases hfit : b.nbytes + s.bytesUsed + s.reserved ≤ s.maxBytes
        · have ih' := ih (s := s.storeBlock b) (by simp only [storeBlock, reserved] at hfit ⊢; omega)
          rw [digestAt_storeBlock] at ih'
          simp only [hfit, true_and]
          exact ih'
        · -- once over the budget, the loop never comes back under it
          obtain ⟨hm, hr, hu⟩ := publishSpares_frame bs (s.storeBlock b)
          have hr' : _ = s.reserved := reserved_eq hr
          have hm' : _ = s.maxBytes := hm
          simp only [storeBlock] at hu hr' hm'
          simp only [hfit, false_and, iff_false, storeBlock]
          omega
      | some existing =>
        have hn : s.digestAt b.blockHash = some existing.payloadSha256 := by simp [digestAt, hb]
        rw [hn]
        dsimp only
        by_cases hd : existing.payloadSha256 = b.payloadSha256
        · simp only [hd, ↓reduceIte, forall_const]
          have ih' := ih (s := s.touch b.blockHash) hs
          rw [digestAt_touch] at ih'
          exact ih'
        · simp only [hd, ↓reduceIte, false_implies, iff_true]
          exact hs

/-- The arguments of `publish_and_lease` pass its checks: `final` is published against `r` reserved bytes. -/
structure Accepted (s : PrefixCacheStore) (blocks : List CacheBlock) (hashes : List Bytes) (rid : String)
    (secs : Int) (final : CacheBlock) (r : Nat) : Prop where
  last : blocks.getLast? = some final
  shape : blocks.length = 1 ∨ blocks.length = hashes.length
  duration : 0 < secs
  hash : hashes.getLast? = some final.blockHash
  reservation : s.reservations.get? rid = some r
  room : final.nbytes ≤ r

/-- When a publication passes its checks, its blocks fit next to the reservations of the other jobs. -/
def PublicationFits (s : PrefixCacheStore) : CacheEvent → Prop
  | .publishAndLease blocks hashes rid secs _ _ =>
    ∀ final r, s.Accepted blocks hashes rid secs final r →
      SparesFit s.maxBytes (s.reserved - r) s.digestAt s.bytesUsed blocks.reverse
  | _ => True

/-- Within the budget a publication against enough reserved bytes evicts nothing and finds its room. -/
theorem run_publishLocked {s : PrefixCacheStore} (hs : s.bytesUsed + s.reserved ≤ s.maxBytes) {final : CacheBlock}
    {rid : String} {r : Nat} (hr : s.reservations.get? rid = some r) (hroom : final.nbytes ≤ r)
    (spares : List CacheBlock) (k : Nat) (secs now : Int) (id : String) :
    (publishLocked final spares k rid secs now id).run s =
      match (putLocked final).run (s.expireLeases now) with
      | (.error e, u) => (.error e, u)
      | (.ok _, u) =>
        (publishSpares spares >>= fun _ => pure (u.leaseOn id final k (now + secs))).run
          (settleReservation rid (u.leaseOn id final k (now + secs)) u) := by
  have hle := Dict.le_total (fun n => n) hr
  have hfit : (s.expireLeases now).bytesUsed ≤ s.maxBytes - final.nbytes := by
    simp only [expireLeases, reserved] at hs ⊢
    omega
  unfold publishLocked
  rw [Proc.run_get_bind, hr]
  dsimp only
  rw [if_neg (by omega), Proc.run_modify_bind, Proc.run_modify_bind, evictToLimit_of_le hfit, Proc.run_get_bind,
    if_neg (by have hm : (s.expireLeases now).maxBytes = s.maxBytes := rfl; omega), Proc.run_bind]
  rcases (putLocked final).run (s.expireLeases now) with ⟨_ | _, u⟩
  · rfl
  · rfl

/-- Giving up a reservation takes its bytes out of the sum. -/
private theorem reserved_settle {u : PrefixCacheStore} {rid : String} {r : Nat} (hr : u.reservations.get? rid = some r)
    (l : PrefixLease) : (settleReservation rid l u).reserved = u.reserved - r := by
  have := Dict.total_erase (fun n => n) hr
  simp only [settleReservation, reserved]
  omega

/-- A publication that passes its checks ends within the budget exactly when its blocks fit. -/
theorem publishLocked_fits_iff {s : PrefixCacheStore} (hs : s.bytesUsed + s.reserved ≤ s.maxBytes)
    {final : CacheBlock} {rid : String} {r : Nat} (hr : s.reservations.get? rid = some r) (hroom : final.nbytes ≤ r)
    (spares : List CacheBlock) (k : Nat) (secs now : Int) (id : String) :
    ((publishLocked final spares k rid secs now id).run s).2.bytesUsed +
        ((publishLocked final spares k rid secs now id).run s).2.reserved ≤
        ((publishLocked final spares k rid secs now id).run s).2.maxBytes ↔
      SparesFit s.maxBytes (s.reserved - r) s.digestAt s.bytesUsed (final :: spares) := by
  have hle := Dict.le_total (fun n => n) hr
  have hfit : final.nbytes + s.bytesUsed + (s.reserved - r) ≤ s.maxBytes := by omega
  have hcap : ¬ s.maxBytes < final.nbytes + s.bytesUsed := by
    simp only [reserved] at hfit
    omega
  -- the state of the loop over the other blocks
  have hloop : ∀ u : PrefixCacheStore, u.maxBytes = s.maxBytes → u.reservations = s.reservations →
      u.bytesUsed + (s.reserved - r) ≤ s.maxBytes →
      (((publishSpares spares >>= fun _ => pure (u.leaseOn id final k (now + secs))).run
          (settleReservation rid (u.leaseOn id final k (now + secs)) u)).2.bytesUsed +
        ((publishSpares spares >>= fun _ => pure (u.leaseOn id final k (now + secs))).run
          (settleReservation rid (u.leaseOn id final k (now + secs)) u)).2.reserved ≤
        ((publishSpares spares >>= fun _ => pure (u.leaseOn id final k (now + secs))).run
          (settleReservation rid (u.leaseOn id final k (now + secs)) u)).2.maxBytes ↔
        SparesFit s.maxBytes (s.reserved - r) u.digestAt u.bytesUsed spares) := by
    intro u hm hres hu
    have hru : u.reserved = s.reserved := reserved_eq hres
    have hset := reserved_settle (u := u) (by rw [hres]; exact hr) (u.leaseOn id final k (now + secs))
    have h := publishSpares_fits_iff spares (s := settleReservation rid (u.leaseOn id final k (now + secs)) u)
      (by rw [hset]; simp only [settleReservation]; omega)
    rw [hset, hru] at h
    rw [Proc.run_map_snd, h, ← hm]
    rfl
  rw [run_publishLocked hs hr hroom, run_putLocked]
  unfold SparesFit
  rw [if_neg hcap]
  cases hb : (s.expireLeases now).blocks.get? final.blockHash with
  | none =>
    have hn : s.digestAt final.blockHash = none := by
      have hb' : s.blocks.get? final.blockHash = none := hb
      simp [digestAt, hb']
    rw [hn]
    dsimp only
    have h := hloop ((s.expireLeases now).storeBlock final) rfl rfl
      (by simp only [storeBlock, expireLeases]; omega)
    rw [digestAt_storeBlock] at h
    simp only [hfit, true_and]
    exact h
  | some existing =>
    have hn : s.digestAt final.blockHash = some existing.payloadSha256 := by
      have hb' : s.blocks.get? final.blockHash = some existing := hb
      simp [digestAt, hb']
    rw [hn]
    dsimp only
    by_cases hd : existing.payloadSha256 = final.payloadSha256
    · simp only [hd, ↓reduceIte, forall_const]
      have h := hloop ((s.expireLeases now).touch final.blockHash) rfl rfl
        (by simp only [touch, expireLeases]; omega)
      rw [digestAt_touch] at h
      exact h
    · simp only [hd, ↓reduceIte, false_implies, iff_true]
      exact hs

/-- What `publish_and_lease` refuses for another reason than missing room: arguments that do not fit together, and a
block whose hash is taken by a different payload. -/
def refusals : List CacheError :=
  [.valueError "computed snapshots must contain only the final snapshot or one snapshot per block hash",
    .valueError "lease_seconds must be > 0", .indexError,
    .valueError "final snapshot hash does not match request",
    .valueError "content-address collision with different payload"]

/-- The checks of `publish_and_lease`: it publishes, or raises before it has changed anything. -/
theorem publishAndLease_cases (s : PrefixCacheStore) (blocks : List CacheBlock) (hashes : List Bytes) (rid : String)
    (secs now : Int) (id : String) :
    (∃ final r, s.Accepted blocks hashes rid secs final r ∧
      (publishAndLease blocks hashes rid secs now id).run s =
        (publishLocked final blocks.dropLast.reverse hashes.length rid secs now id).run s) ∨
    ((∀ final r, ¬ s.Accepted blocks hashes rid secs final r) ∧
      ∃ e, (publishAndLease blocks hashes rid secs now id).run s = (.error e, s) ∧
        (e ∈ refusals ∨ s.reservations.get? rid = none ∨
          ∃ final r, final ∈ blocks ∧ s.reservations.get? rid = some r ∧ r < final.nbytes)) := by
  unfold publishAndLease
  dsimp only
  cases hf : blocks.getLast? with
  | none =>
    right
    refine ⟨fun final r ha => ?_, _, rfl, Or.inl (by simp [refusals])⟩
    rw [ha.last] at hf
    cases hf
  | some final =>
    dsimp only
    have hfin : ∀ {final' r}, s.Accepted blocks hashes rid secs final' r → final' = final := by
      intro final' r ha
      have := ha.last
      rw [hf] at this
      exact (Option.some.inj this).symm
    split
    · rename_i hshape
      right
      refine ⟨fun final' r ha => ?_, _, rfl, Or.inl (by simp [refusals])⟩
      have := ha.shape
      omega
    rename_i hshape
    split
    · rename_i hsecs
      right
      refine ⟨fun final' r ha => ?_, _, rfl, Or.inl (by simp [refusals])⟩
      have := ha.duration
      omega
    rename_i hsecs
    cases hl : hashes.getLast? with
    | none =>
      right
      refine ⟨fun final' r ha => ?_, _, rfl, Or.inl (by simp [refusals])⟩
      have := ha.hash
      rw [hl] at this
      cases this
    | some last =>
      dsimp only
      split
      · rename_i hne
        right
        refine ⟨fun final' r ha => ?_, _, rfl, Or.inl (by simp [refusals])⟩
        have hh := ha.hash
        rw [hl, hfin ha] at hh
        exact hne (Option.some.inj hh).symm
      rename_i hlast
      have hlast' : final.blockHash = last := not_not.1 hlast
      -- what is left are the checks under the lock
      cases hr : s.reservations.get? rid with
      | none =>
        right
        refine ⟨fun final' r ha => ?_, .valueError "unknown cache reservation", ?_, Or.inr (Or.inl rfl)⟩
        · have := ha.reservation
          rw [hr] at this
          cases this
        · unfold publishLocked
          rw [Proc.run_get_bind, hr]
          rfl
      | some r =>
        by_cases hroom : r < final.nbytes
        · right
          refine ⟨fun final' r' ha => ?_, .valueError ("final snapshot " ++ toString final.nbytes ++
            " exceeds reservation " ++ toString r), ?_,
            Or.inr (Or.inr ⟨final, r, List.mem_of_getLast? hf, rfl, hroom⟩)⟩
          · have h1 := ha.reservation
            have h2 := ha.room
            rw [hr] at h1
            obtain rfl := Option.some.inj h1
            rw [hfin ha] at h2
            omega
          · unfold publishLocked
            rw [Proc.run_get_bind, hr]
            dsimp only
            rw [if_pos hroom]
            rfl
        · left
          exact ⟨final, r, ⟨hf, by omega, by omega, by rw [hl, hlast'], hr, by omega⟩, rfl⟩

/-- A publication stays within the budget exactly when it meets its condition. -/
theorem publishAndLease_fits_iff {s : PrefixCacheStore} (hs : s.bytesUsed + s.reserved ≤ s.maxBytes)
    (blocks : List CacheBlock) (hashes : List Bytes) (rid : String) (secs now : Int) (id : String) :
    ((publishAndLease blocks hashes rid secs now id).run s).2.bytesUsed +
        ((publishAndLease blocks hashes rid secs now id).run s).2.reserved ≤
        ((publishAndLease blocks hashes rid secs now id).run s).2.maxBytes ↔
      s.PublicationFits (.publishAndLease blocks hashes rid secs now id) := by
  rcases publishAndLease_cases s blocks hashes rid secs now id with ⟨final, r, ha, hrun⟩ | ⟨hna, e, hrun, -⟩
  · have hrev : blocks.reverse = final :: blocks.dropLast.reverse := by
      have := List.dropLast_append_getLast? final ha.last
      rw [← this]
      simp
    rw [hrun, publishLocked_fits_iff hs ha.reservation ha.room, ← hrev]
    constructor
    · intro h final' r' ha'
      have h1 := ha'.reservation
      rw [ha.reservation] at h1
      obtain rfl := Option.some.inj h1
      exact h
    · intro h
      exact h final r ha
  · rw [hrun]
    exact ⟨fun _ final r ha => absurd ha (hna final r), fun _ => hs⟩

/-! ### Runs -/

/-- A step from a store within the budget ends within it exactly when it meets its condition. -/
theorem step_solid_iff {s : PrefixCacheStore} (hs : s.Solid) (e : CacheEvent) :
    (step s e).2.Solid ↔ s.PublicationFits e := by
  have hkeep : ∀ {α : Type} {x : CacheProc α} (f : α → CacheReply), Proc.Keeps Solid x →
      ((x >>= fun a => pure (f a)).run s).2.Solid := by
    intro α x f hx
    rw [Proc.run_map_snd]
    exact hx s hs
  cases e with
  | publishAndLease bs hashes rid secs now id =>
    rw [← publishAndLease_fits_iff hs.2 bs hashes rid secs now id]
    unfold step perform
    rw [Proc.run_map_snd]
    constructor
    · exact fun h => h.2
    · exact fun h => ⟨publishAndLease_keeps (sound_closed anyRights) (fun _ _ => trivial) trivial trivial s hs.1, h⟩
  | put b now => exact ⟨fun _ => trivial, fun _ => hkeep _ (put_solid b now)⟩
  | putPrefix ts ps clock => exact ⟨fun _ => trivial, fun _ => hkeep _ (putPrefix_solid ts ps clock)⟩
  | lookup hashes secs now id => exact ⟨fun _ => trivial, fun _ => hkeep _ (lookup_solid hashes secs now id)⟩
  | fetch id now => exact ⟨fun _ => trivial, fun _ => hkeep _ (fetch_solid id now)⟩
  | reserve id n now => exact ⟨fun _ => trivial, fun _ => hkeep _ (reserve_solid id n now)⟩
  | releaseReservation id => exact ⟨fun _ => trivial, fun _ => hkeep _ (releaseReservation_solid id)⟩
  | resize n => exact ⟨fun _ => trivial, fun _ => hkeep _ (resize_solid n)⟩
  | invalidate h => exact ⟨fun _ => trivial, fun _ => hkeep _ (invalidate_solid h)⟩
  | expire now => exact ⟨fun _ => trivial, fun _ => hkeep _ (expireLeases_solid now)⟩

private theorem putLocked_error {b : CacheBlock} {s u : PrefixCacheStore} {e : CacheError}
    (h : (putLocked b).run s = (.error e, u)) : e ∈ refusals := by
  rw [run_putLocked] at h
  split at h
  · cases (Prod.mk.inj h).1
  · split at h
    · cases (Prod.mk.inj h).1
    · rw [← Except.error.inj (Prod.mk.inj h).1]
      simp [refusals]

private theorem publishSpares_error {bs : List CacheBlock} {s u : PrefixCacheStore} {e : CacheError}
    (h : (publishSpares bs).run s = (.error e, u)) : e ∈ refusals := by
  induction bs generalizing s with
  | nil => cases (Prod.mk.inj h).1
  | cons b bs ih =>
    unfold publishSpares at h
    rw [Proc.run_get_bind] at h
    split at h
    · exact ih h
    · rw [Proc.run_bind] at h
      split at h
      · exact ih h
      · rename_i hp
        rw [← Except.error.inj (Prod.mk.inj h).1]
        exact putLocked_error hp

/-- A publication of blocks that fit their reservation is never refused for lack of capacity. -/
def FindsRoom (s : PrefixCacheStore) : Prop :=
  ∀ blocks hashes rid secs now id r e, s.reservations.get? rid = some r →
    (blocks.map CacheBlock.nbytes).sum ≤ r →
    ((publishAndLease blocks hashes rid secs now id).run s).1 = .error e → e ∈ refusals

theorem Solid.findsRoom {s : PrefixCacheStore} (hs : s.Solid) : s.FindsRoom := by
  intro blocks hashes rid secs now id r e hr hsum he
  rcases publishAndLease_cases s blocks hashes rid secs now id with ⟨final, r', ha, hrun⟩ | ⟨-, e', hrun, hwhy⟩
  · rw [hrun, run_publishLocked hs.2 ha.reservation ha.room] at he
    split at he
    · rename_i e' u hp
      rw [← Except.error.inj he]
      exact putLocked_error hp
    · rename_i u hp
      rw [Proc.run_bind] at he
      split at he
      · cases he
      · rename_i hsp
        rw [← Except.error.inj he]
        exact publishSpares_error hsp
  · rw [hrun] at he
    obtain rfl := Except.error.inj he
    rcases hwhy with h | h | ⟨final, r', hmem, hr', hlt⟩
    · exact h
    · rw [h] at hr
      cases hr
    · rw [hr] at hr'
      obtain rfl := Option.some.inj hr'
      have := List.le_sum_of_mem (List.mem_map_of_mem (f := CacheBlock.nbytes) hmem)
      omega

/-- A run is within the budget throughout, and every publication within its reservation finds its room, exactly when
each of its publications fits next to the reservations of the other jobs. -/
theorem budget_iff {c : CacheCompatibility} {n : Int} {nodeId : String} {s : PrefixCacheStore}
    (hs : create c n nodeId = .ok s) (run : List CacheEvent) :
    (∀ k, (Machine.final step s (run.take k)).Within ∧ (Machine.final step s (run.take k)).FindsRoom) ↔
      Machine.AllSteps step PublicationFits s run := by
  have h0 : s.Solid := by
    have hsound := (final_sound hs []).1
    obtain ⟨hn, rfl⟩ := create_ok hs
    exact ⟨hsound, by simp only [reserved, Dict.total_empty]; omega⟩
  clear hs
  induction run generalizing s with
  | nil => exact ⟨fun _ => trivial, fun _ k => by simpa [Machine.final] using ⟨h0.within, h0.findsRoom⟩⟩
  | cons e run ih =>
    have hstep := step_solid_iff h0 e
    constructor
    · intro h
      have h1 : (step s e).2.Solid := ⟨step_sound h0.1 e, (h 1).1.fits⟩
      refine ⟨hstep.1 h1, (ih h1).1 ?_⟩
      intro k
      exact h (k + 1)
    · rintro ⟨he, hrest⟩ k
      cases k with
      | zero => exact ⟨h0.within, h0.findsRoom⟩
      | succ k => exact (ih (hstep.2 he)).2 hrest k

/-- The first of two jobs publishes a spare block into the bytes that the second has reserved.  When the spare block is
leased before the second job ends, its publication, within its own reservation, is refused for lack of capacity. -/
theorem spare_block_takes_reserved_bytes :
    create { modelId := "m" } 6 "n" = .ok smallStore ∧
    (let t := Machine.final step smallStore
      [.reserve "a" 3 0, .reserve "b" 3 0,
        .publishAndLease [plainBlock 1 3, plainBlock 2 3] [List.replicate 32 1, List.replicate 32 2] "a" 30 0 "l"];
      t.maxBytes < t.bytesUsed + t.reserved) ∧
    (let t := Machine.final step smallStore
      [.reserve "a" 3 0, .reserve "b" 3 0,
        .publishAndLease [plainBlock 1 3, plainBlock 2 3] [List.replicate 32 1, List.replicate 32 2] "a" 30 0 "l",
        .lookup [List.replicate 32 1] 30 1 "m"];
      t.reservations.get? "b" = some 3 ∧
      ((publishAndLease [plainBlock 3 3] [List.replicate 32 3] "b" 30 2 "k").run t).1 =
        .error (.valueError capacityPinned) ∧
      CacheError.valueError capacityPinned ∉ refusals) := by
  refine ⟨rfl, ?_, ?_⟩
  · decide +kernel
  · decide +kernel

/-- The same publication stays within the budget once the second job has given up its reservation. -/
theorem reserved_publication_within :
    let run := [CacheEvent.reserve "a" 3 0, .reserve "b" 3 0, .releaseReservation "b",
      .publishAndLease [plainBlock 1 3, plainBlock 2 3] [List.replicate 32 1, List.replicate 32 2] "a" 30 0 "l"];
    ∀ k, (Machine.final step smallStore (run.take k)).Within ∧ (Machine.final step smallStore (run.take k)).FindsRoom := by
  intro run
  have hs : create { modelId := "m" } 6 "n" = .ok smallStore := rfl
  refine (budget_iff hs run).2 ⟨trivial, trivial, trivial, ?_, trivial⟩
  intro final r ha
  have hr : r = 3 := Option.some.inj (ha.reservation.symm.trans (by decide +kernel))
  subst hr
  decide +kernel

end PrefixCacheStore

end KakeyaEngine
