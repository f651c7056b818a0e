import KakeyaEngine.PrefixCache.Budget

/-!
# What a failed call leaves behind

A call that raises should leave the stored blocks, the leases, the reservations and the byte count as they were, apart
from leases that have expired.  The operations evict first and find out afterwards that leased blocks take too much
room, and a publication stores its spare blocks after it has given up its reservation.  For every call this module
names the states in which its error paths are clean, and proves that a failed call of `put`, `reserve`,
`publish_and_lease` or `resize` changes nothing exactly in these.
-/

namespace KakeyaEngine

namespace PrefixCacheStore

/-- From `s` to `s'` nothing has changed but leases that have expired at a clock reading of the call. -/
structure Untouched (reads : Int → Prop) (s s' : PrefixCacheStore) : Prop where
  blocks : ∀ h, s'.blocks.get? h = s.blocks.get? h
  kept : ∀ id l, s'.leases.get? id = some l → s.leases.get? id = some l
  dropped : ∀ id l, s.leases.get? id = some l →
    s'.leases.get? id = some l ∨ ∃ now, reads now ∧ l.expiresAtUnix < now
  reservations : s'.reservations = s.reservations
  bytesUsed : s'.bytesUsed = s.bytesUsed

namespace Untouched

variable {reads : Int → Prop} {s s' s'' : PrefixCacheStore}

theorem of_eq (hb : ∀ h, s'.blocks.get? h = s.blocks.get? h) (hl : s'.leases = s.leases)
    (hr : s'.reservations = s.reservations) (hu : s'.bytesUsed = s.bytesUsed) : Untouched reads s s' :=
  ⟨hb, fun id l h => by rwa [hl] at h, fun id l h => Or.inl (by rwa [hl]), hr, hu⟩

theorem of_expired {now : Int} (hn : reads now) (hb : ∀ h, s'.blocks.get? h = s.blocks.get? h)
    (hl : s'.leases = (s.expireLeases now).leases) (hr : s'.reservations = s.reservations)
    (hu : s'.bytesUsed = s.bytesUsed) : Untouched reads s s' := by
  refine ⟨hb, ?_, ?_, hr, hu⟩
  · intro id l h
    rw [hl, get?_expireLeases] at h
    exact h.1
  · intro id l h
    by_cases hx : l.expiresAtUnix < now
    · exact Or.inr ⟨now, hn, hx⟩
    · left
      rw [hl, get?_expireLeases]
      exact ⟨h, by omega⟩

theorem trans (h : Untouched reads s s') (h' : Untouched reads s' s'') : Untouched reads s s'' := by
  refine ⟨fun x => (h'.blocks x).trans (h.blocks x), fun id l hl => h.kept id l (h'.kept id l hl), ?_,
    h'.reservations.trans h.reservations, h'.bytesUsed.trans h.bytesUsed⟩
  intro id l hl
  rcases h.dropped id l hl with hl' | hx
  · exact h'.dropped id l hl'
  · exact Or.inr hx

end Untouched

/-! ### What the eviction drops -/

/-- Every stored block is under a lease that is unexpired at `now`. -/
def AllPinned (s : PrefixCacheStore) (now : Int) : Prop :=
  ∀ h b, s.blocks.get? h = some b → h ∈ (s.expireLeases now).pinnedHashes

theorem evictToLimit_leases (limit : Int) (s : PrefixCacheStore) : (s.evictToLimit limit).leases = s.leases :=
  evictToLimit_induct limit s (I := fun t => t.leases = s.leases) (fun _ _ _ ht _ _ _ _ => ht) rfl

/-- The eviction has no victim among pinned blocks. -/
theorem evictToLimit_of_pinned {s : PrefixCacheStore} (h : ∀ x b, s.blocks.get? x = some b → x ∈ s.pinnedHashes)
    (limit : Int) : s.evictToLimit limit = s := by
  have hnone : (s.blocks.entries.find? fun e => decide (e.1 ∉ s.pinnedHashes)) = none := by
    rw [List.find?_eq_none]
    rintro ⟨x, b⟩ hx
    simpa using h x b (Dict.mem_entries_iff.1 hx)
  unfold evictToLimit
  cases s.blocks.size with
  | zero => rfl
  | succ n =>
    unfold evictLoop
    rw [hnone]
    simp

/-- Above its limit the eviction drops a block as soon as one is not pinned. -/
theorem evictToLimit_drops {limit : Int} {s : PrefixCacheStore} (hlim : limit < s.bytesUsed) {h : Bytes}
    {b : CacheBlock} (hb : s.blocks.get? h = some b) (hp : h ∉ s.pinnedHashes) :
    ∃ x bx, s.blocks.get? x = some bx ∧ (s.evictToLimit limit).blocks.get? x = none := by
  unfold evictToLimit
  cases hn : s.blocks.size with
  | zero =>
    have := Dict.size_erase hb
    omega
  | succ n =>
    unfold evictLoop
    rw [if_neg (by omega)]
    cases hf : s.blocks.entries.find? fun e => decide (e.1 ∉ s.pinnedHashes) with
    | none =>
      rw [List.find?_eq_none] at hf
      exact absurd (Dict.mem_entries_iff.2 hb) fun hm => by simpa [hp] using hf _ hm
    | some victim =>
      obtain ⟨x, bx⟩ := victim
      refine ⟨x, bx, Dict.mem_entries_iff.1 (List.mem_of_find?_eq_some hf), ?_⟩
      refine evictLoop_induct (I := fun t => t.blocks.get? x = none) ?_ n (by simp [evictBlock])
      intro t y by' ht _ _ _
      simp only [evictBlock, Dict.get?_erase, ht, ite_self]

/-- The eviction takes the unpinned blocks in their order, the oldest first. -/
private theorem evictLoop_suffix (pinned : List Bytes) (limit : Int) (n : Nat) (s : PrefixCacheStore) :
    ((evictLoop pinned limit n s).blocks.entries.filter fun e => decide (e.1 ∉ pinned)) <:+
      s.blocks.entries.filter fun e => decide (e.1 ∉ pinned) := by
  induction n generalizing s with
  | zero => exact List.suffix_refl _
  | succ n ih =>
    unfold evictLoop
    split
    · exact List.suffix_refl _
    · split
      · exact List.suffix_refl _
      · rename_i x bx hf
        refine (ih (s.evictBlock x bx)).trans ?_
        rw [← List.head?_filter, List.head?_eq_some_iff] at hf
        obtain ⟨rest, hrest⟩ := hf
        have hsub : (s.evictBlock x bx).blocks.entries.filter (fun e => decide (e.1 ∉ pinned)) =
            (s.blocks.entries.filter fun e => decide (e.1 ∉ pinned)).filter fun e => decide (e.1 ≠ x) := by
          unfold evictBlock Dict.erase
          dsimp only
          rw [List.filter_filter, List.filter_filter]
          exact List.filter_congr fun e _ => Bool.and_comm _ _
        -- the keys are distinct, so the victim is the only entry under its hash
        have hnd : ((s.blocks.entries.filter fun e => decide (e.1 ∉ pinned)).map Prod.fst).Nodup :=
          s.blocks.nodup.sublist (List.filter_sublist.map _)
        rw [hrest, List.map_cons, List.nodup_cons] at hnd
        rw [hsub, hrest, List.filter_cons_of_neg (by simp), List.filter_eq_self.2]
        · exact List.suffix_cons _ _
        · intro e he
          simp only [ne_eq, decide_not, Bool.not_eq_eq_eq_not, Bool.not_true, decide_eq_false_iff_not]
          rintro rfl
          exact hnd.1 (List.mem_map.2 ⟨e, he, rfl⟩)

/-- When the youngest block is the victim, all the unpinned ones are gone. -/
theorem evictToLimit_youngest {s : PrefixCacheStore} {b : CacheBlock} {limit : Int}
    (hb : s.blocks.get? b.blockHash = none) (hp : b.blockHash ∉ s.pinnedHashes)
    (hgone : ((s.storeBlock b).evictToLimit limit).blocks.get? b.blockHash = none) {x : Bytes} {bx : CacheBlock}
    (hx : ((s.storeBlock b).evictToLimit limit).blocks.get? x = some bx) : x ∈ s.pinnedHashes := by
  have hsuf := evictLoop_suffix s.pinnedHashes limit (s.storeBlock b).blocks.size (s.storeBlock b)
  have hent : (s.storeBlock b).blocks.entries = s.blocks.entries ++ [(b.blockHash, b)] := by
    have hk : b.blockHash ∉ s.blocks.entries.map Prod.fst := Dict.not_mem_keys_iff.2 hb
    unfold storeBlock Dict.set
    dsimp only
    rw [dif_neg hk]
  rw [hent, List.filter_append, show [(b.blockHash, b)].filter (fun e => decide (e.1 ∉ s.pinnedHashes)) =
    [(b.blockHash, b)] by simp [hp], List.suffix_concat_iff] at hsuf
  rcases hsuf with hnil | ⟨t, ht, -⟩
  · rw [List.filter_eq_nil_iff] at hnil
    simpa using hnil _ (Dict.mem_entries_iff.2 hx)
  · have hmem : (b.blockHash, b) ∈ (evictLoop s.pinnedHashes limit (s.storeBlock b).blocks.size
        (s.storeBlock b)).blocks.entries := by
      apply List.mem_of_mem_filter (p := fun e => decide (e.1 ∉ s.pinnedHashes))
      rw [ht]
      simp
    have hstill := Dict.mem_entries_iff.1 hmem
    unfold evictToLimit at hgone
    have hpin : (s.storeBlock b).pinnedHashes = s.pinnedHashes := rfl
    rw [hpin, hstill] at hgone
    cases hgone

/-! ### `put` -/

/-- The error paths of `put` are clean: the block is too large, its hash is taken, or there is nothing to evict. -/
def PutWhole (s : PrefixCacheStore) (b : CacheBlock) (now : Int) : Prop :=
  s.maxBytes - s.reserved < b.nbytes ∨ s.blocks.contains b.blockHash = true ∨ s.AllPinned now

/-- The store after a failed `put`, for each of its raises. -/
inductive PutFails (s : PrefixCacheStore) (b : CacheBlock) (now : Int) : PrefixCacheStore → Prop
  | large (h : s.maxBytes - s.reserved < b.nbytes) :
      PutFails s b now { s with putFailures := s.putFailures + 1 }
  | collision {existing : CacheBlock} (h : s.blocks.get? b.blockHash = some existing)
      (hd : existing.payloadSha256 ≠ b.payloadSha256) :
      PutFails s b now { s.expireLeases now with putFailures := s.putFailures + 1 }
  | pinned {u : PrefixCacheStore} (hc : b.nbytes ≤ s.maxBytes - s.reserved) (h : s.blocks.get? b.blockHash = none)
      (hu : u = ((s.expireLeases now).storeBlock b).evictToLimit (s.maxBytes - s.reserved))
      (hgone : u.blocks.get? b.blockHash = none) :
      PutFails s b now { u with putFailures := u.putFailures + 1 }

theorem put_fails {b : CacheBlock} {now : Int} {s s' : PrefixCacheStore} {e : CacheError}
    (h : (put b now).run s = (.error e, s')) : PutFails s b now s' := by
  unfold put at h
  rw [Proc.run_get_bind] at h
  dsimp only at h
  split at h
  · rename_i hcap
    rw [← (Prod.mk.inj h).2]
    exact .large hcap
  · rename_i hcap
    rw [Proc.run_modify_bind, Proc.run_bind, run_putLocked] at h
    have hblocks : (s.expireLeases now).blocks = s.blocks := rfl
    rw [hblocks] at h
    cases hb : s.blocks.get? b.blockHash with
    | some existing =>
      rw [hb] at h
      dsimp only at h
      by_cases hd : existing.payloadSha256 = b.payloadSha256
      · rw [if_pos hd] at h
        cases (Prod.mk.inj h).1
      · rw [if_neg hd] at h
        rw [← (Prod.mk.inj h).2]
        exact .collision hb hd
    | none =>
      rw [hb] at h
      dsimp only at h
      rw [if_neg (by simp), Proc.run_modify_bind, Proc.run_get_bind] at h
      split at h
      · cases (Prod.mk.inj h).1
      · rename_i hgone
        rw [← (Prod.mk.inj h).2]
        refine .pinned (by omega) hb rfl ?_
        cases hu : (((s.expireLeases now).storeBlock b).evictToLimit (s.maxBytes - s.reserved)).blocks.get?
            b.blockHash with
        | none => rfl
        | some b' => exact absurd (Dict.contains_iff.2 ⟨b', hu⟩) hgone

/-- Among pinned blocks a new block is the only victim there can be. -/
theorem evict_store_of_pinned {s : PrefixCacheStore} (h : ∀ x b, s.blocks.get? x = some b → x ∈ s.pinnedHashes)
    (b : CacheBlock) (limit : Int) :
    (∀ x, x ≠ b.blockHash → ((s.storeBlock b).evictToLimit limit).blocks.get? x = s.blocks.get? x) ∧
      ((((s.storeBlock b).evictToLimit limit).blocks.get? b.blockHash = some b ∧
          ((s.storeBlock b).evictToLimit limit).bytesUsed = s.bytesUsed + b.nbytes) ∨
        (((s.storeBlock b).evictToLimit limit).blocks.get? b.blockHash = none ∧
          ((s.storeBlock b).evictToLimit limit).bytesUsed = s.bytesUsed)) := by
  refine evictToLimit_induct limit (s.storeBlock b)
    (I := fun t => (∀ x, x ≠ b.blockHash → t.blocks.get? x = s.blocks.get? x) ∧
      ((t.blocks.get? b.blockHash = some b ∧ t.bytesUsed = s.bytesUsed + b.nbytes) ∨
        (t.blocks.get? b.blockHash = none ∧ t.bytesUsed = s.bytesUsed))) ?_ ?_
  · rintro t x bx ⟨hother, hown⟩ _ _ hx hp
    by_cases hxb : x = b.blockHash
    · subst hxb
      rcases hown with ⟨hstill, hu⟩ | ⟨hno, -⟩
      · rw [hstill] at hx
        obtain rfl := Option.some.inj hx
        refine ⟨fun y hy => ?_, Or.inr ⟨by simp [evictBlock], ?_⟩⟩
        · simp only [evictBlock, Dict.get?_erase_ne hy]
          exact hother y hy
        · simp only [evictBlock]
          omega
      · rw [hno] at hx
        cases hx
    · -- any other victim was stored before, hence pinned
      rw [hother x hxb] at hx
      exact absurd (h x bx hx) hp
  · refine ⟨fun x hx => ?_, Or.inl ⟨by simp [storeBlock], rfl⟩⟩
    simp only [storeBlock, Dict.get?_set_ne _ hx]

/-- A failed `put` changes nothing exactly when its error paths are clean. -/
theorem PutFails.untouched_iff {s s' : PrefixCacheStore} (hs : s.Sound) {b : CacheBlock} {now : Int}
    (h : PutFails s b now s') {reads : Int → Prop} (hn : reads now) : Untouched reads s s' ↔ s.PutWhole b now := by
  have hexp := sound_closed anyRights s (s.expireLeases now) (.expire trivial) hs
  cases h with
  | large h => exact ⟨fun _ => Or.inl h, fun _ => .of_eq (fun _ => rfl) rfl rfl rfl⟩
  | collision h hd =>
    exact ⟨fun _ => Or.inr (Or.inl (Dict.contains_iff.2 ⟨_, h⟩)), fun _ => .of_expired hn (fun _ => rfl) rfl rfl rfl⟩
  | pinned hc h hu hgone =>
    subst hu
    constructor
    · intro hsame
      right; right
      intro x bx hx
      rw [← hsame.blocks x] at hx
      exact evictToLimit_youngest (s := s.expireLeases now) h (hexp.not_pinned h) hgone hx
    · rintro (hl | hst | hall)
      · omega
      · obtain ⟨b', hb'⟩ := Dict.contains_iff.1 hst
        rw [h] at hb'
        cases hb'
      · obtain ⟨hother, hown⟩ := evict_store_of_pinned (s := s.expireLeases now) hall b (s.maxBytes - s.reserved)
        rcases hown with ⟨hstill, -⟩ | ⟨-, hu⟩
        · rw [hgone] at hstill
          cases hstill
        · refine .of_expired hn (fun x => ?_) (evictToLimit_leases _ _) (evictToLimit_frame _ _).2.1 hu
          by_cases hx : x = b.blockHash
          · rw [hx, h]
            exact hgone
          · exact hother x hx

/-! ### `reserve` -/

/-- The error paths of `reserve` are clean: it refuses its arguments, or there is nothing to evict. -/
def ReserveWhole (s : PrefixCacheStore) (reservationId : String) (byteCount now : Int) : Prop :=
  reservationId = "" ∨ byteCount ≤ 0 ∨ s.reservations.contains reservationId = true ∨
    s.maxBytes < s.reserved + byteCount ∨ s.AllPinned now

theorem reserve_untouched_iff {id : String} {n now : Int} {s s' : PrefixCacheStore} {e : CacheError}
    (h : (reserve id n now).run s = (.error e, s')) {reads : Int → Prop} (hn : reads now) :
    Untouched reads s s' ↔ s.ReserveWhole id n now := by
  unfold reserve at h
  unfold ReserveWhole
  split at h
  · rename_i hin
    rw [← (Prod.mk.inj h).2]
    refine ⟨fun _ => ?_, fun _ => .of_eq (fun _ => rfl) rfl rfl rfl⟩
    rcases hin with hin | hin
    · exact Or.inl hin
    · exact Or.inr (Or.inl hin)
  · rename_i hin
    rw [Proc.run_get_bind] at h
    split at h
    · rename_i hdup
      rw [← (Prod.mk.inj h).2]
      exact ⟨fun _ => Or.inr (Or.inr (Or.inl hdup)), fun _ => .of_eq (fun _ => rfl) rfl rfl rfl⟩
    · rename_i hdup
      dsimp only at h
      split at h
      · rename_i hbig
        rw [← (Prod.mk.inj h).2]
        exact ⟨fun _ => by simp [hbig], fun _ => .of_eq (fun _ => rfl) rfl rfl rfl⟩
      · rename_i hbig
        rw [Proc.run_modify_bind, Proc.run_modify_bind, Proc.run_get_bind] at h
        split at h
        · rename_i hfull
          rw [← (Prod.mk.inj h).2]
          have hmax := (evictToLimit_frame (s.maxBytes - (s.reserved + n)) (s.expireLeases now)).1
          have hm : (s.expireLeases now).maxBytes = s.maxBytes := rfl
          rw [hmax, hm] at hfull
          constructor
          · intro hsame
            right; right; right; right
            intro x bx hx
            rw [← hsame.blocks x] at hx
            rcases evictToLimit_done (s.maxBytes - (s.reserved + n)) (s.expireLeases now) with hle | hall
            · omega
            · exact hall x bx hx
          · intro hw
            have hall : s.AllPinned now := by
              rcases hw with hw | hw | hw | hw | hw
              · exact absurd (Or.inl hw) hin
              · exact absurd (Or.inr hw) hin
              · exact absurd hw hdup
              · exact absurd hw hbig
              · exact hw
            rw [evictToLimit_of_pinned (s := s.expireLeases now) hall]
            exact .of_expired hn (fun _ => rfl) rfl rfl rfl
        · cases (Prod.mk.inj h).1

/-! ### `publish_and_lease` -/

/-- The error paths of an accepted publication are clean: it has to make room and finds nothing to evict, or it has its
room and the hash of the final snapshot is taken. -/
def PublishWhole (s : PrefixCacheStore) (blocks : List CacheBlock) (hashes : List Bytes) (rid : String)
    (secs now : Int) : Prop :=
  ∀ final r, s.Accepted blocks hashes rid secs final r →
    if s.maxBytes - final.nbytes < s.bytesUsed then s.AllPinned now
    else ∃ existing, s.blocks.get? final.blockHash = some existing ∧ existing.payloadSha256 ≠ final.payloadSha256

/-- The store after a failed publication, `w` being the store that the eviction leaves: too little room, a taken hash,
or a collision of a spare block when the reservation is already given up. -/
inductive PublishFails (w : PrefixCacheStore) (limit : Int) (final : CacheBlock) (rid : String) :
    PrefixCacheStore → Prop
  | pinned (h : limit < w.bytesUsed) : PublishFails w limit final rid w
  | collision (hroom : w.bytesUsed ≤ limit) {existing : CacheBlock}
      (h : w.blocks.get? final.blockHash = some existing) (hd : existing.payloadSha256 ≠ final.payloadSha256) :
      PublishFails w limit final rid { w with putFailures := w.putFailures + 1 }
  | spare {s' : PrefixCacheStore} (hroom : w.bytesUsed ≤ limit)
      (h : ∀ existing, w.blocks.get? final.blockHash = some existing → existing.payloadSha256 = final.payloadSha256)
      (hr : s'.reservations.get? rid = none) : PublishFails w limit final rid s'

theorem publishLocked_fails {s s' : PrefixCacheStore} {final : CacheBlock} {rid : String} {r : Nat}
    (hr : s.reservations.get? rid = some r) (hroom : final.nbytes ≤ r) {spares : List CacheBlock} {k : Nat}
    {secs now : Int} {id : String} {e : CacheError}
    (h : (publishLocked final spares k rid secs now id).run s = (.error e, s')) :
    PublishFails ((s.expireLeases now).evictToLimit (s.maxBytes - final.nbytes)) (s.maxBytes - final.nbytes) final rid
      s' := by
  have hmax : ((s.expireLeases now).evictToLimit (s.maxBytes - final.nbytes)).maxBytes = s.maxBytes :=
    (evictToLimit_frame _ _).1
  -- from the lease on, the reservation is gone
  have hspare : ∀ u l, (publishSpares spares >>= fun _ => pure l).run (settleReservation rid l u) = (.error e, s') →
      s'.reservations.get? rid = none := by
    intro u l hu
    have hframe := (publishSpares_frame spares (settleReservation rid l u)).2.1
    rw [Proc.run_bind] at hu
    split at hu
    · cases (Prod.mk.inj hu).1
    · rename_i hrun
      rw [← (Prod.mk.inj hu).2]
      rw [hrun] at hframe
      rw [hframe]
      simp [settleReservation]
  unfold publishLocked at h
  rw [Proc.run_get_bind, hr] at h
  dsimp only at h
  rw [if_neg (by omega), Proc.run_modify_bind, Proc.run_modify_bind, Proc.run_get_bind, hmax] at h
  generalize hw : (s.expireLeases now).evictToLimit (s.maxBytes - final.nbytes) = w at h ⊢
  split at h
  · rename_i hfull
    rw [← (Prod.mk.inj h).2]
    exact .pinned hfull
  · rename_i hfull
    rw [Proc.run_bind, run_putLocked] at h
    cases hb : w.blocks.get? final.blockHash with
    | none =>
      rw [hb] at h
      exact .spare (by omega) (fun existing hex => by rw [hb] at hex; cases hex) (hspare _ _ h)
    | some existing =>
      rw [hb] at h
      dsimp only at h
      by_cases hd : existing.payloadSha256 = final.payloadSha256
      · rw [if_pos hd] at h
        refine .spare (by omega) (fun existing' hex => ?_) (hspare _ _ h)
        rw [hb] at hex
        rw [← Option.some.inj hex, hd]
      · rw [if_neg hd] at h
        rw [← (Prod.mk.inj h).2]
        exact .collision (by omega) hb hd

/-- A failed publication that passed its checks changes nothing exactly when its error paths are clean. -/
theorem PublishFails.untouched_iff {s s' : PrefixCacheStore} {final : CacheBlock} {rid : String} {r : Nat}
    {now : Int} (hr : s.reservations.get? rid = some r)
    (h : PublishFails ((s.expireLeases now).evictToLimit (s.maxBytes - final.nbytes)) (s.maxBytes - final.nbytes) final
      rid s') {reads : Int → Prop} (hn : reads now) :
    Untouched reads s s' ↔
      if s.maxBytes - final.nbytes < s.bytesUsed then s.AllPinned now
      else ∃ existing, s.blocks.get? final.blockHash = some existing ∧
        existing.payloadSha256 ≠ final.payloadSha256 := by
  generalize hlim : s.maxBytes - final.nbytes = limit at h ⊢
  have hle : ((s.expireLeases now).evictToLimit limit).bytesUsed ≤ s.bytesUsed := (evictToLimit_frame _ _).2.2
  have hsame : s.AllPinned now → (s.expireLeases now).evictToLimit limit = s.expireLeases now :=
    fun hall => evictToLimit_of_pinned (s := s.expireLeases now) hall limit
  by_cases hfull : limit < s.bytesUsed
  · rw [if_pos hfull]
    -- the eviction runs, and ends where it began only if it has no victim
    have hnot : ((s.expireLeases now).evictToLimit limit).bytesUsed ≤ limit → ¬ s.AllPinned now := by
      intro hroom hall
      rw [hsame hall] at hroom
      exact absurd hroom (show ¬ s.bytesUsed ≤ limit by omega)
    cases h with
    | pinned h =>
      constructor
      · intro hun x bx hx
        rw [← hun.blocks x] at hx
        rcases evictToLimit_done limit (s.expireLeases now) with hroom | hall
        · omega
        · exact hall x bx hx
      · intro hall
        rw [hsame hall]
        exact .of_expired hn (fun _ => rfl) rfl rfl rfl
    | collision hroom h hd =>
      refine ⟨fun hun => ?_, fun hall => absurd hall (hnot hroom)⟩
      intro x bx hx
      apply Classical.byContradiction
      intro hp
      obtain ⟨y, b', hy, hgone⟩ := evictToLimit_drops (s := s.expireLeases now) hfull hx hp
      have := hun.blocks y
      rw [show s.blocks.get? y = some b' from hy] at this
      rw [hgone] at this
      cases this
    | spare hroom h hres =>
      refine ⟨fun hun => ?_, fun hall => absurd hall (hnot hroom)⟩
      rw [hun.reservations, hr] at hres
      cases hres
  · rw [if_neg hfull]
    have hid : (s.expireLeases now).evictToLimit limit = s.expireLeases now :=
      evictToLimit_of_le (show s.bytesUsed ≤ limit by omega)
    rw [hid] at h
    cases h with
    | pinned h => exact absurd h hfull
    | collision hroom h hd =>
      exact ⟨fun _ => ⟨_, h, hd⟩, fun _ => .of_expired hn (fun _ => rfl) rfl rfl rfl⟩
    | spare hroom h hres =>
      constructor
      · intro hun
        rw [hun.reservations, hr] at hres
        cases hres
      · rintro ⟨existing, hex, hd⟩
        exact absurd (h existing hex) hd

theorem publishAndLease_untouched_iff {bs : List CacheBlock} {hashes : List Bytes} {rid : String} {secs now : Int}
    {id : String} {s s' : PrefixCacheStore} {e : CacheError}
    (h : (publishAndLease bs hashes rid secs now id).run s = (.error e, s')) {reads : Int → Prop} (hn : reads now) :
    Untouched reads s s' ↔ s.PublishWhole bs hashes rid secs now := by
  rcases publishAndLease_cases s bs hashes rid secs now id with ⟨final, r, ha, hrun⟩ | ⟨hna, e', hrun, -⟩
  · rw [hrun] at h
    rw [(publishLocked_fails ha.reservation ha.room h).untouched_iff ha.reservation hn]
    constructor
    · intro hw final' r' ha'
      have hf := ha'.last
      rw [ha.last] at hf
      obtain rfl := Option.some.inj hf
      exact hw
    · intro hw
      exact hw final r ha
  · rw [hrun] at h
    rw [← (Prod.mk.inj h).2]
    exact ⟨fun _ final r ha => absurd ha (hna final r), fun _ => .of_eq (fun _ => rfl) rfl rfl rfl⟩

/-! ### `put_prefix` -/

/-- The error paths of `put_prefix` are clean from an index on: the boundaries up to the one that fails are stored
already, and that one is too large, its hash is taken, or it finds too little room and nothing to evict. -/
def BoundariesWhole (size : Int) (tokenCount : Nat) (clock : Nat → Int) :
    Nat → List (Bytes × Bytes) → PrefixCacheStore → Prop
  | _, [], _ => True
  | index, (hash, payload) :: rest, s =>
    match CacheBlock.create hash (min ((index + 1) * size) tokenCount) payload with
    | .error _ => True
    | .ok b =>
      s.maxBytes - s.reserved < b.nbytes ∨
        match s.blocks.get? b.blockHash with
        | some existing =>
          existing.payloadSha256 = b.payloadSha256 →
            BoundariesWhole size tokenCount clock (index + 1) rest (s.expireLeases (clock index))
        | none => s.AllPinned (clock index) ∧ s.maxBytes - s.reserved < s.bytesUsed + b.nbytes

private theorem allPinned_touch {s : PrefixCacheStore} {h : Bytes} {now : Int} :
    (s.touch h).AllPinned now ↔ s.AllPinned now := by
  unfold AllPinned
  simp only [touch, Dict.get?_moveToEnd]
  exact Iff.rfl

/-- The age of the blocks does not matter. -/
private theorem boundariesWhole_touch {size : Int} {count : Nat} {clock : Nat → Int} {pairs : List (Bytes × Bytes)}
    {index : Nat} {s : PrefixCacheStore} {h : Bytes} :
    BoundariesWhole size count clock index pairs (s.touch h) ↔ BoundariesWhole size count clock index pairs s := by
  induction pairs generalizing index s with
  | nil => exact Iff.rfl
  | cons pair rest ih =>
    unfold BoundariesWhole
    cases CacheBlock.create pair.1 (min ((index + 1) * size) count) pair.2 with
    | error e => exact Iff.rfl
    | ok b =>
      dsimp only
      have hget : (s.touch h).blocks.get? b.blockHash = s.blocks.get? b.blockHash := by simp [touch]
      have hcap : (s.touch h).maxBytes - (s.touch h).reserved = s.maxBytes - s.reserved := rfl
      rw [hget, hcap]
      cases s.blocks.get? b.blockHash with
      | none =>
        dsimp only
        rw [allPinned_touch]
        exact Iff.rfl
      | some existing =>
        dsimp only
        rw [show (s.touch h).expireLeases (clock index) = (s.expireLeases (clock index)).touch h from rfl, ih]

/-- A `put` that returns has found a block that fits; if its hash was stored, with this payload, it only made the block
the youngest, and a new block had its room or a victim. -/
private theorem put_returned {s s' : PrefixCacheStore} (hs : s.Sound) {b : CacheBlock} {now : Int} {r : Bool}
    (h : (put b now).run s = (.ok r, s')) :
    b.nbytes ≤ s.maxBytes - s.reserved ∧
      match s.blocks.get? b.blockHash with
      | some existing =>
        existing.payloadSha256 = b.payloadSha256 ∧ s' = (s.expireLeases now).touch b.blockHash
      | none => s.AllPinned now → s.bytesUsed + b.nbytes ≤ s.maxBytes - s.reserved := by
  have hexp := sound_closed anyRights s (s.expireLeases now) (.expire trivial) hs
  unfold put at h
  rw [Proc.run_get_bind] at h
  dsimp only at h
  split at h
  · cases (Prod.mk.inj h).1
  · rename_i hcap
    refine ⟨by omega, ?_⟩
    rw [Proc.run_modify_bind, Proc.run_bind, run_putLocked] at h
    have hblocks : (s.expireLeases now).blocks = s.blocks := rfl
    rw [hblocks] at h
    cases hb : s.blocks.get? b.blockHash with
    | some existing =>
      rw [hb] at h
      dsimp only at h ⊢
      by_cases hd : existing.payloadSha256 = b.payloadSha256
      · rw [if_pos hd] at h
        exact ⟨hd, (Prod.mk.inj h).2.symm⟩
      · rw [if_neg hd] at h
        cases (Prod.mk.inj h).1
    | none =>
      rw [hb] at h
      dsimp only at h ⊢
      rw [if_neg (by simp), Proc.run_modify_bind, Proc.run_get_bind] at h
      split at h
      · rename_i hc
        intro hall
        obtain ⟨b', hb'⟩ := Dict.contains_iff.1 hc
        rcases (evict_store_of_pinned (s := s.expireLeases now) hall b (s.maxBytes - s.reserved)).2 with
          ⟨-, hu⟩ | ⟨hno, -⟩
        · -- the new block is still there and not pinned, so the limit is reached
          rcases evictToLimit_done (s.maxBytes - s.reserved) ((s.expireLeases now).storeBlock b) with hle | hpin
          · rw [hu] at hle
            exact hle
          · exact absurd (hpin _ b' hb') (hexp.not_pinned hb)
        · rw [hno] at hb'
          cases hb'
      · cases (Prod.mk.inj h).1

theorem putBoundaries_untouched {size : Int} {count : Nat} {clock : Nat → Int} {reads : Int → Prop}
    (hn : ∀ i, reads (clock i)) {pairs : List (Bytes × Bytes)} {index : Nat} {s s' : PrefixCacheStore} {e : CacheError}
    (hs : s.Sound) (hw : BoundariesWhole size count clock index pairs s)
    (h : (putBoundaries size count clock index pairs).run s = (.error e, s')) : Untouched reads s s' := by
  induction pairs generalizing index s with
  | nil => cases (Prod.mk.inj h).1
  | cons pair rest ih =>
    unfold BoundariesWhole at hw
    unfold putBoundaries at h
    cases hc : CacheBlock.create pair.1 (min ((index + 1) * size) count) pair.2 with
    | error e' =>
      rw [hc] at h
      rw [← (Prod.mk.inj h).2]
      exact .of_eq (fun _ => rfl) rfl rfl rfl
    | ok b =>
      rw [hc] at h hw
      dsimp only at h hw
      cases hput : (put b (clock index)).run s with
      | mk out t =>
        cases out with
        | error e' =>
          rw [Proc.run_bind_error hput] at h
          rw [← (Prod.mk.inj h).2]
          refine ((put_fails hput).untouched_iff hs (hn index)).2 ?_
          rcases hw with hl | hw
          · exact Or.inl hl
          · cases hb : s.blocks.get? b.blockHash with
            | some existing => exact Or.inr (Or.inl (Dict.contains_iff.2 ⟨existing, hb⟩))
            | none =>
              rw [hb] at hw
              exact Or.inr (Or.inr hw.1)
        | ok r =>
          rw [Proc.run_bind_ok hput] at h
          obtain ⟨hcap, hret⟩ := put_returned hs hput
          rcases hw with hl | hw
          · omega
          · cases hb : s.blocks.get? b.blockHash with
            | none =>
              rw [hb] at hw hret
              have := hret hw.1
              omega
            | some existing =>
              rw [hb] at hw hret
              obtain ⟨hd, rfl⟩ := hret
              have hsound := sound_closed anyRights _ _ (Move.touch (h := b.blockHash))
                (sound_closed anyRights s (s.expireLeases (clock index)) (.expire trivial) hs)
              refine Untouched.trans ?_ (ih hsound (boundariesWhole_touch.2 (hw hd)) h)
              exact .of_expired (hn index) (fun x => by simp [touch, expireLeases]) rfl rfl rfl

/-! ### Runs -/

/-- The error paths of a call are clean. -/
def Whole (s : PrefixCacheStore) : CacheEvent → Prop
  | .put b now => s.PutWhole b now
  | .putPrefix ts ps clock =>
    ∀ hashes, chainedBlockHashes ts s.compatibility [] = .ok hashes → hashes.length = ps.length →
      BoundariesWhole s.compatibility.blockSizeTokens ts.length clock 0 (hashes.zip ps) s
  | .reserve id n now => s.ReserveWhole id n now
  | .publishAndLease bs hashes rid secs now _ => s.PublishWhole bs hashes rid secs now
  | _ => True

theorem putPrefix_untouched {ts : List Token} {ps : List Bytes} {clock : Nat → Int} {reads : Int → Prop}
    (hn : ∀ i, reads (clock i)) {s s' : PrefixCacheStore} {e : CacheError} (hs : s.Sound)
    (hw : s.Whole (.putPrefix ts ps clock)) (h : (putPrefix ts ps clock).run s = (.error e, s')) :
    Untouched reads s s' := by
  unfold putPrefix at h
  rw [Proc.run_get_bind] at h
  split at h
  · rw [← (Prod.mk.inj h).2]
    exact .of_eq (fun _ => rfl) rfl rfl rfl
  · rename_i hashes hh
    split at h
    · rw [← (Prod.mk.inj h).2]
      exact .of_eq (fun _ => rfl) rfl rfl rfl
    · rename_i hlen
      exact putBoundaries_untouched hn hs (hw hashes hh (by omega)) (Proc.run_map_error h)

theorem fetch_untouched {id : String} {now : Int} {reads : Int → Prop} (hn : reads now) {s s' : PrefixCacheStore}
    {e : CacheError} (h : (fetch id now).run s = (.error e, s')) : Untouched reads s s' := by
  have hsame : Untouched reads s (s.expireLeases now) := .of_expired hn (fun _ => rfl) rfl rfl rfl
  unfold fetch at h
  rw [Proc.run_modify_bind, Proc.run_get_bind] at h
  split at h
  · rw [← (Prod.mk.inj h).2]
    exact hsame
  · split at h
    · rw [← (Prod.mk.inj h).2]
      exact hsame
    · cases (Prod.mk.inj h).1

theorem resize_untouched {n : Int} {reads : Int → Prop} {s s' : PrefixCacheStore} {e : CacheError}
    (h : (resize n).run s = (.error e, s')) : Untouched reads s s' := by
  unfold resize at h
  split at h
  · rw [← (Prod.mk.inj h).2]
    exact .of_eq (fun _ => rfl) rfl rfl rfl
  · rw [Proc.run_get_bind] at h
    dsimp only at h
    split at h
    · cases (Prod.mk.inj h).1
    · rw [Proc.run_modify_bind, Proc.run_modify_bind, Proc.run_get_bind] at h
      split at h
      · cases (Prod.mk.inj h).1
      · cases (Prod.mk.inj h).1

theorem lookup_untouched {hashes : List Bytes} {secs now : Int} {id : String} {reads : Int → Prop}
    {s s' : PrefixCacheStore} {e : CacheError} (h : (lookup hashes secs now id).run s = (.error e, s')) :
    Untouched reads s s' := by
  unfold lookup at h
  split at h
  · rw [← (Prod.mk.inj h).2]
    exact .of_eq (fun _ => rfl) rfl rfl rfl
  · rw [Proc.run_modify_bind, Proc.run_get_bind] at h
    split at h
    · cases (Prod.mk.inj h).1
    · cases (Prod.mk.inj h).1

/-- In every reachable store, a call that raises changes nothing when its error paths are clean.  For every call but
`put_prefix` it changes nothing only then: a later boundary of a prefix may happen to undo what an earlier one did. -/
theorem failed_call_untouched {c : CacheCompatibility} {n : Int} {nodeId : String} {s : PrefixCacheStore}
    (hs : create c n nodeId = .ok s) (run : List CacheEvent) (e : CacheEvent) (err : CacheError)
    (t' : PrefixCacheStore) (h : step (Machine.final step s run) e = (.error err, t')) :
    let t := Machine.final step s run;
    (t.Whole e → Untouched (rights c e).expires t t') ∧
      ((∀ ts ps clock, e ≠ .putPrefix ts ps clock) → Untouched (rights c e).expires t t' → t.Whole e) := by
  intro t
  have ht : t.Sound := (final_sound hs run).1
  have hrun : (perform e).run t = (.error err, t') := h
  cases e with
  | put b now =>
    have hiff : Untouched (rights c (.put b now)).expires t t' ↔ t.PutWhole b now :=
      (put_fails (Proc.run_map_error hrun)).untouched_iff ht rfl
    exact ⟨hiff.2, fun _ => hiff.1⟩
  | putPrefix ts ps clock =>
    refine ⟨fun hw => putPrefix_untouched (fun i => ⟨i, rfl⟩) ht hw (Proc.run_map_error hrun), ?_⟩
    intro hne
    exact absurd rfl (hne ts ps clock)
  | reserve id k now =>
    have hiff : Untouched (rights c (.reserve id k now)).expires t t' ↔ t.ReserveWhole id k now :=
      reserve_untouched_iff (Proc.run_map_error hrun) rfl
    exact ⟨hiff.2, fun _ => hiff.1⟩
  | publishAndLease bs hashes rid secs now id =>
    have hiff : Untouched (rights c (.publishAndLease bs hashes rid secs now id)).expires t t' ↔
        t.PublishWhole bs hashes rid secs now :=
      publishAndLease_untouched_iff (Proc.run_map_error hrun) rfl
    exact ⟨hiff.2, fun _ => hiff.1⟩
  | resize k => exact ⟨fun _ => resize_untouched (Proc.run_map_error hrun), fun _ _ => trivial⟩
  | lookup hashes secs now id => exact ⟨fun _ => lookup_untouched (Proc.run_map_error hrun), fun _ _ => trivial⟩
  | fetch id now =>
    have hn : (rights c (.fetch id now)).expires now := rfl
    exact ⟨fun _ => fetch_untouched hn (Proc.run_map_error hrun), fun _ _ => trivial⟩
  | releaseReservation id => cases (Prod.mk.inj hrun).1
  | invalidate x =>
    have hinv := Proc.run_map_error hrun
    unfold invalidate at hinv
    rw [Proc.run_get_bind] at hinv
    split at hinv
    · cases (Prod.mk.inj hinv).1
    · cases (Prod.mk.inj hinv).1
  | expire now => cases (Prod.mk.inj hrun).1

/-- A `put` that finds all of the store leased leaves the leased block, its lease and the byte count. -/
theorem refused_put_keeps_leased_block :
    let t := Machine.final step smallStore [.put (plainBlock 1 4) 0, .lookup [List.replicate 32 1] 30 0 "lease"];
    Untouched (rights { modelId := "m" } (.put (plainBlock 3 3) 20)).expires t
      (step t (.put (plainBlock 3 3) 20)).2 := by
  intro t
  have hs : create { modelId := "m" } 6 "n" = .ok smallStore := rfl
  refine (failed_call_untouched hs [.put (plainBlock 1 4) 0, .lookup [List.replicate 32 1] 30 0 "lease"]
    (.put (plainBlock 3 3) 20) (.valueError capacityPinned) _ (Prod.ext (by decide +kernel) rfl)).1 ?_
  right; right
  intro h b hb
  have hmem := Dict.mem_entries_iff.2 hb
  have hone : t.blocks.entries = [(List.replicate 32 1, plainBlock 1 4)] := by decide +kernel
  rw [hone, List.mem_singleton] at hmem
  rw [(Prod.mk.inj hmem).1]
  decide +kernel

/-- The same `put` on a store with one more block, which nobody leases: the call raises and the block is gone.  And a
publication whose spare block meets another payload raises with its reservation given up and its lease granted. -/
theorem refused_calls_change_store :
    create { modelId := "m" } 6 "n" = .ok smallStore ∧
    (let t := Machine.final step smallStore
      [.put (plainBlock 1 4) 0, .lookup [List.replicate 32 1] 30 0 "lease", .put (plainBlock 2 1) 10];
      (step t (.put (plainBlock 3 3) 20)).1 = .error (.valueError capacityPinned) ∧
      t.blocks.get? (List.replicate 32 2) = some (plainBlock 2 1) ∧
      (step t (.put (plainBlock 3 3) 20)).2.blocks.get? (List.replicate 32 2) = none ∧
      ¬ Untouched (rights { modelId := "m" } (.put (plainBlock 3 3) 20)).expires t
        (step t (.put (plainBlock 3 3) 20)).2) ∧
    (let t := Machine.final step smallStore [.put (plainBlock 1 1) 0, .reserve "job" 2 1];
      let e := CacheEvent.publishAndLease [plainBlock 1 2, plainBlock 2 2]
        [List.replicate 32 1, List.replicate 32 2] "job" 30 2 "lease";
      (step t e).1 = .error (.valueError "content-address collision with different payload") ∧
      t.reservations.get? "job" = some 2 ∧ (step t e).2.reservations.get? "job" = none ∧
      ¬ Untouched (rights { modelId := "m" } e).expires t (step t e).2) := by
  refine ⟨rfl, ⟨by decide +kernel, by decide +kernel, by decide +kernel, ?_⟩, by decide +kernel, by decide +kernel,
    by decide +kernel, ?_⟩
  · intro hun
    have := hun.blocks (List.replicate 32 2)
    revert this
    decide +kernel
  · intro hun
    have := congrArg (fun d : Dict String Nat => d.get? "job") hun.reservations
    revert this
    decide +kernel

end PrefixCacheStore

end KakeyaEngine
