import KakeyaEngine.PrefixCache.Budget
import KakeyaEngine.Verifier.Snapshot

/-!
# Transparency of the prefill cache

The cache is meant to be an optimisation: `prepare` should end with the verifier having consumed the prompt whatever the
store holds and whatever peers answer.  The import of a snapshot keeps to this (`tryImport_ensures`): every failure ends
in a reset and a computation from the start.  The publication of a computed boundary does not: `put` raises when the
store does not admit the block, and nothing catches it.

`put_returns_iff` says exactly when the store admits a block, and `transparent_iff` when a call of `prepare` is
transparent: when hashing and lease do not fail and the store admits every boundary that is computed.
-/

namespace KakeyaEngine

namespace PrefixCacheStore

/-! ### When the store admits a block -/

private theorem lawfulBEq_bytes : LawfulBEq Bytes := inferInstance

attribute [local instance] lawfulBEq_bytes

/-- The bytes of the stored blocks among `pinned`. -/
def bytesOf (pinned : List Bytes) (entries : List (Bytes × CacheBlock)) : Nat :=
  ((entries.filter fun e => decide (e.1 ∈ pinned)).map fun e => e.2.nbytes).sum

/-- The bytes of the blocks that leases still pin at `now`. -/
def pinnedBytes (s : PrefixCacheStore) (now : Int) : Nat :=
  bytesOf (s.expireLeases now).pinnedHashes s.blocks.entries

/-- The store admits a block: it fits the capacity that is not reserved, it does not meet another payload under its hash,
and when it is new there is room for it beside the pinned blocks. -/
def Admits (s : PrefixCacheStore) (b : CacheBlock) (now : Int) : Prop :=
  (b.nbytes : Int) ≤ s.maxBytes - s.reserved ∧
    match s.blocks.get? b.blockHash with
    | some existing => existing.payloadSha256 = b.payloadSha256
    | none => (s.pinnedBytes now + b.nbytes : Int) ≤ s.maxBytes - s.reserved

private theorem bytesOf_le (pinned : List Bytes) (l : List (Bytes × CacheBlock)) :
    bytesOf pinned l ≤ (l.map fun e => e.2.nbytes).sum := by
  unfold bytesOf
  induction l with
  | nil => simp
  | cons e l ih =>
    by_cases h : e.1 ∈ pinned
    · simp only [List.filter_cons, h, decide_true, ↓reduceIte, List.map_cons, List.sum_cons]
      omega
    · simp only [List.filter_cons, h, decide_false, Bool.false_eq_true, ↓reduceIte, List.map_cons, List.sum_cons]
      omega

/-- The youngest block, if it is not pinned, survives the eviction exactly when it fits beside the pinned ones. -/
private theorem evictLoop_youngest {pinned : List Bytes} (limit : Int) {h : Bytes} {b : CacheBlock} (hp : h ∉ pinned)
    (n : Nat) (s : PrefixCacheStore) (old : List (Bytes × CacheBlock)) (hn : old.length < n)
    (he : s.blocks.entries = old ++ [(h, b)]) (hu : s.bytesUsed = (s.blocks.total CacheBlock.nbytes : Nat)) :
    (evictLoop pinned limit n s).blocks.contains h = true ↔ (bytesOf pinned old + b.nbytes : Int) ≤ limit := by
  have hkeys : h ∉ old.map Prod.fst := by
    have hnd := s.blocks.nodup
    rw [he, List.map_append, List.nodup_append] at hnd
    intro hm
    exact hnd.2.2 h hm h (by simp) rfl
  induction n generalizing s old with
  | zero => omega
  | succ n ih =>
    have htotal : s.blocks.total CacheBlock.nbytes = (old.map fun e => e.2.nbytes).sum + b.nbytes := by
      unfold Dict.total Dict.values
      rw [he, List.map_map, List.map_append, List.sum_append]
      simp [Function.comp_def]
    have hstored : s.blocks.get? h = some b := Dict.mem_entries_iff.1 (by rw [he]; simp)
    have hle := bytesOf_le pinned old
    unfold evictLoop
    split
    · -- nothing is left to evict
      rename_i hlim
      refine ⟨fun _ => by omega, fun _ => Dict.contains_iff.2 ⟨b, hstored⟩⟩
    · rename_i hlim
      rw [he, List.find?_append]
      cases hf : old.find? fun e => decide (e.1 ∉ pinned) with
      | some victim =>
        obtain ⟨x, bx⟩ := victim
        have hx : x ∉ pinned := by simpa using List.find?_some hf
        have hmem := List.mem_of_find?_eq_some hf
        have hxh : h ≠ x := by
          rintro rfl
          exact hkeys (List.mem_map.2 ⟨_, hmem, rfl⟩)
        have hxs : s.blocks.get? x = some bx := Dict.mem_entries_iff.1 (by rw [he]; simp [hmem])
        have hrest : bytesOf pinned (old.filter fun e => e.1 ≠ x) = bytesOf pinned old := by
          unfold bytesOf
          rw [List.filter_filter]
          congr 2
          apply List.filter_congr
          intro e _
          by_cases hex : e.1 = x
          · simp [hex, hx]
          · simp [hex]
        have hshort : (old.filter fun e => e.1 ≠ x).length < old.length := by
          apply List.length_filter_lt_length_iff_exists.2
          exact ⟨_, hmem, by simp⟩
        simp only [Option.some_or]
        rw [← hrest]
        refine ih (s.evictBlock x bx) (old.filter fun e => e.1 ≠ x) (by omega) ?_ ?_ ?_
        · unfold evictBlock Dict.erase
          dsimp only
          rw [he, List.filter_append]
          simp [hxh]
        · have := Dict.total_erase CacheBlock.nbytes hxs
          unfold evictBlock
          dsimp only
          omega
        · intro hm
          exact hkeys (List.map_subset _ List.filter_sublist.subset hm)
      | none =>
        -- all the other blocks are pinned, so the youngest has to go
        have hall : bytesOf pinned old = (old.map fun e => e.2.nbytes).sum := by
          unfold bytesOf
          rw [List.filter_eq_self.2]
          intro e hm
          simpa using List.find?_eq_none.1 hf e hm
        simp only [Option.none_or, List.find?_cons, hp, not_false_eq_true, decide_true]
        refine ⟨fun hc => ?_, fun hroom => by omega⟩
        exfalso
        have hgone : (evictLoop pinned limit n (s.evictBlock h b)).blocks.get? h = none := by
          refine evictLoop_induct (I := fun t => t.blocks.get? h = none) ?_ n ?_
          · intro t x bx ht _ _ _
            simp only [evictBlock, Dict.get?_erase, ht, ite_self]
          · simp [evictBlock]
        obtain ⟨b', hb'⟩ := Dict.contains_iff.1 hc
        rw [hgone] at hb'
        cases hb'

/-- `put` returns exactly when the store admits the block. -/
theorem put_returns_iff {s : PrefixCacheStore} (hs : s.Sound) (b : CacheBlock) (now : Int) :
    (∃ r, ((put b now).run s).1 = .ok r) ↔ s.Admits b now := by
  have hexp := sound_closed anyRights s (s.expireLeases now) (.expire trivial) hs
  unfold put Admits
  rw [Proc.run_get_bind]
  dsimp only
  by_cases hcap : s.maxBytes - s.reserved < b.nbytes
  · rw [if_pos hcap]
    refine ⟨?_, fun h => by omega⟩
    rintro ⟨r, hr⟩
    cases hr
  · rw [if_neg hcap, Proc.run_modify_bind, Proc.run_bind, run_putLocked]
    have hblocks : (s.expireLeases now).blocks = s.blocks := rfl
    rw [hblocks]
    cases hb : s.blocks.get? b.blockHash with
    | some existing =>
      dsimp only
      by_cases hd : existing.payloadSha256 = b.payloadSha256
      · rw [if_pos hd]
        exact ⟨fun _ => ⟨by omega, hd⟩, fun _ => ⟨false, rfl⟩⟩
      · rw [if_neg hd]
        refine ⟨?_, fun h => absurd h.2 hd⟩
        rintro ⟨r, hr⟩
        cases hr
    | none =>
      dsimp only
      have hnp : b.blockHash ∉ (s.expireLeases now).pinnedHashes := hexp.not_pinned hb
      have hent : ((s.expireLeases now).storeBlock b).blocks.entries = s.blocks.entries ++ [(b.blockHash, b)] := by
        have hk : b.blockHash ∉ s.blocks.entries.map Prod.fst := Dict.not_mem_keys_iff.2 hb
        unfold storeBlock Dict.set expireLeases
        dsimp only
        rw [dif_neg hk]
      have hused : ((s.expireLeases now).storeBlock b).bytesUsed =
          (((s.expireLeases now).storeBlock b).blocks.total CacheBlock.nbytes : Nat) := by
        have ht := Dict.total_set_new CacheBlock.nbytes b hb
        have hu := hs.bytesUsed_eq
        unfold storeBlock expireLeases
        dsimp only
        omega
      have hstay := evictLoop_youngest (s.maxBytes - s.reserved) hnp
        ((s.expireLeases now).storeBlock b).blocks.size ((s.expireLeases now).storeBlock b) s.blocks.entries
        (by unfold Dict.size; rw [hent, List.length_append]; simp) hent hused
      rw [if_neg (show ¬ true = false by simp), Proc.run_modify_bind, Proc.run_get_bind, Proc.run_ite]
      have hfold : evictToLimit (s.maxBytes - s.reserved) ((s.expireLeases now).storeBlock b) =
          evictLoop (s.expireLeases now).pinnedHashes (s.maxBytes - s.reserved)
            ((s.expireLeases now).storeBlock b).blocks.size ((s.expireLeases now).storeBlock b) := rfl
      rw [hfold]
      unfold pinnedBytes
      by_cases hc : (evictLoop (s.expireLeases now).pinnedHashes (s.maxBytes - s.reserved)
          ((s.expireLeases now).storeBlock b).blocks.size ((s.expireLeases now).storeBlock b)).blocks.contains
            b.blockHash = true
      · rw [if_pos hc]
        exact ⟨fun _ => ⟨by omega, hstay.1 hc⟩, fun _ => ⟨true, rfl⟩⟩
      · rw [if_neg hc]
        refine ⟨?_, fun h => absurd (hstay.2 h.2) hc⟩
        rintro ⟨r, hr⟩
        cases hr

/-- What `lookup` does. -/
theorem run_lookup {secs : Int} (hsecs : 0 < secs) (hashes : List Bytes) (now : Int) (id : String)
    (s : PrefixCacheStore) :
    (lookup hashes secs now id).run s =
      match longestHit s.blocks 0 hashes none with
      | none =>
        (.ok ⟨"", [], 0, 0, 0, s.epoch, now, zeros32⟩, { s.expireLeases now with lookupMisses := s.lookupMisses + 1 })
      | some (b, k) =>
        (.ok (s.leaseOn id b k (now + secs)),
          { s.expireLeases now with
            blocks := s.blocks.moveToEnd b.blockHash, lookupHits := s.lookupHits + 1,
            leases := (s.expireLeases now).leases.set id (s.leaseOn id b k (now + secs)) }) := by
  unfold lookup
  rw [if_neg (by omega), Proc.run_modify_bind, Proc.run_get_bind]
  rw [show (s.expireLeases now).blocks = s.blocks from rfl]
  cases longestHit s.blocks 0 hashes none with
  | none => rfl
  | some p => rfl

/-- A lease of a sound store that covers one block serves it until it expires. -/
theorem fetch_returns_iff {s : PrefixCacheStore} (hs : s.Sound) {l : PrefixLease} {h : Bytes}
    (hl : s.leases.get? l.leaseId = some l) (hh : l.blockHashes = [h]) (now : Int) :
    (now ≤ l.expiresAtUnix → ∃ b s', (fetch l.leaseId now).run s = (.ok [b], s')) ∧
      (¬ now ≤ l.expiresAtUnix → ∃ e s', (fetch l.leaseId now).run s = (.error e, s')) := by
  constructor
  · intro hn
    obtain ⟨-, bs, hbs⟩ := hs.holds hl
    obtain ⟨b, rfl⟩ : ∃ b, bs = [b] := by
      have hlen := congrArg List.length hbs.hashes
      rw [hh, List.length_map] at hlen
      exact List.length_eq_one_iff.1 hlen
    exact ⟨b, _, Prod.ext (hbs.fetch hn) rfl⟩
  · intro hn
    have hgone : (s.expireLeases now).leases.get? l.leaseId = none := by
      rw [Option.eq_none_iff_forall_ne_some]
      intro l' hl'
      obtain ⟨hl', hn'⟩ := get?_expireLeases.1 hl'
      rw [hl] at hl'
      obtain rfl := Option.some.inj hl'
      exact hn hn'
    refine ⟨.keyError "unknown or expired cache lease", s.expireLeases now, ?_⟩
    unfold fetch
    rw [Proc.run_modify_bind, Proc.run_get_bind, hgone]
    rfl

end PrefixCacheStore

namespace PrefillCacheHook

variable {V : Type} {hook : PrefillCacheHook} {verifier : PrefillVerifier V} {env : Environment} {sink window : Nat}
  {Ready : V → Prop} {c : CacheCompatibility}

/-! ### What the parts of the hook keep -/

/-- The store is sound and keeps its compatibility tuple, and the verifier satisfies `Q`. -/
structure Stored (c : CacheCompatibility) (Q : V → Prop) (st : HookState V) : Prop where
  sound : st.store.Sound
  compatibility : st.store.compatibility = c
  verifier : Q st.verifier

private theorem stored_closed (R : PrefixCacheStore.Rights) (c : CacheCompatibility) :
    PrefixCacheStore.Closed R fun s => s.Sound ∧ s.compatibility = c := by
  intro s s' hm hs
  exact ⟨PrefixCacheStore.sound_closed R s s' hm hs.1, PrefixCacheStore.compatibility_closed R c s s' hm hs.2⟩

/-- A procedure of the store that keeps its invariant keeps the hook's, whatever is known of the verifier. -/
theorem onStore_keeps {Q : V → Prop} {α : Type} {x : CacheProc α}
    (hx : Proc.Keeps (fun s => s.Sound ∧ s.compatibility = c) x) : Proc.Keeps (Stored c Q) (onStore x) := by
  intro st hst
  have h := hx st.store ⟨hst.sound, hst.compatibility⟩
  unfold onStore
  rw [Proc.run_focus]
  rcases hr : x.run st.store with ⟨_ | _, s'⟩
  · rw [hr] at h; exact ⟨h.1, h.2, hst.verifier⟩
  · rw [hr] at h; exact ⟨h.1, h.2, hst.verifier⟩

theorem count_keeps {Q : V → Prop} (f : PrefillReuseStats → PrefillReuseStats) :
    Proc.Keeps (Stored c Q) (count f) :=
  Proc.Keeps.modify fun _ h => ⟨h.sound, h.compatibility, h.verifier⟩

theorem ofExcept_keeps {σ ε α : Type} {I : σ → Prop} (x : Except ε α) : Proc.Keeps I (Proc.ofExcept x : Proc σ ε α) := by
  cases x with
  | ok a => exact Proc.Keeps.pure a
  | error e => exact Proc.Keeps.raise e

theorem put_stored {Q : V → Prop} (b : CacheBlock) (now : Int) :
    Proc.Keeps (Stored c Q) (onStore (PrefixCacheStore.put b now)) :=
  onStore_keeps (PrefixCacheStore.put_keeps (stored_closed PrefixCacheStore.anyRights c) trivial trivial)

/-- What an operation of the verifier leaves behind. -/
theorem onVerifier_ensures {Q : V → Prop} {α : Type} {x : Proc V HookError α} {R : α → V → Prop}
    (hx : ∀ v v' a, Q v → x.run v = (.ok a, v') → R a v') :
    Proc.Ensures (Stored c Q) (onVerifier x) (fun a st => Stored c (R a) st)
      (fun _ st => Stored c (fun _ => True) st) := by
  intro st hst
  unfold onVerifier
  rw [Proc.run_focus]
  rcases hr : x.run st.verifier with ⟨_ | a, v'⟩
  · exact ⟨hst.sound, hst.compatibility, trivial⟩
  · exact ⟨hst.sound, hst.compatibility, hx _ _ _ hst.verifier hr⟩

theorem promoteRemoteHit_keeps {Q : V → Prop} (hit : Hit) (payload : Bytes) (n : Int) :
    Proc.Keeps (Stored c Q) (promoteRemoteHit env hit payload n) := by
  unfold promoteRemoteHit
  split
  · exact Proc.Keeps.pure ()
  · refine Proc.Keeps.handle ?_ ?_
    · refine Proc.Keeps.bind (onStore_keeps (ofExcept_keeps _)) fun b => ?_
      refine Proc.Keeps.bind (put_stored b _) fun stored => ?_
      split
      · exact count_keeps _
      · exact Proc.Keeps.pure ()
    · intro e
      split
      · exact count_keeps _
      · exact Proc.Keeps.raise _

theorem hitPayload_keeps {Q : V → Prop} (hit : Hit) : Proc.Keeps (Stored c Q) (hitPayload hook env hit) := by
  unfold hitPayload
  split
  · exact Proc.Keeps.pure _
  · refine Proc.Keeps.bind (ofExcept_keeps _) fun payload => ?_
    exact Proc.Keeps.bind (count_keeps _) fun _ => Proc.Keeps.pure _

theorem pollJob_keeps {Q : V → Prop} (tokens : List Token) (hashes : List Bytes) (worker : String)
    (replies : List (Except HookError JobStatus)) : Proc.Keeps (Stored c Q) (pollJob tokens hashes worker replies) := by
  induction replies with
  | nil => exact Proc.Keeps.raise _
  | cons reply replies ih =>
    unfold pollJob
    refine Proc.Keeps.bind (ofExcept_keeps _) fun status => ?_
    refine Proc.Keeps.bind (count_keeps _) fun _ => ?_
    cases status.status with
    | completed =>
      cases hashes.getLast? with
      | none => exact Proc.Keeps.raise _
      | some last => exact Proc.Keeps.pure _
    | failed => exact Proc.Keeps.raise _
    | cancelled => exact Proc.Keeps.raise _
    | unspecified => exact ih
    | queued => exact ih
    | running => exact ih

/-- Remote computation never raises and leaves store and verifier alone. -/
theorem computeRemote_ensures {Q : V → Prop} (tokens : List Token) (hashes : List Bytes) :
    Proc.Ensures (Stored c Q) (computeRemote env tokens hashes) (fun _ st => Stored c Q st) (fun _ _ => False) := by
  unfold computeRemote
  cases env.prefillWorker with
  | none => exact Proc.Ensures.pure fun _ h => h
  | some worker =>
    refine Proc.Ensures.handle (E := fun _ st => Stored c Q st) (Proc.Keeps.ensures ?_) fun e => ?_
    · refine Proc.Keeps.bind (ofExcept_keeps _) fun _ => ?_
      refine Proc.Keeps.bind (count_keeps _) fun _ => ?_
      exact Proc.Keeps.bind (pollJob_keeps tokens hashes worker _) fun _ => Proc.Keeps.pure _
    · intro st hst
      exact ⟨hst.sound, hst.compatibility, hst.verifier⟩

/-! ### Restoring a prefix -/

/-- The verifier has consumed the first `reused` tokens, which end at the boundary of a block. -/
structure Restored (verifier : PrefillVerifier V) (sink window : Nat) (Ready : V → Prop) (size : Nat)
    (tokens : List Token) (reused : Nat) (v : V) : Prop where
  boundary : ∃ k, reused = min (k * size) tokens.length
  ready : Ready v
  cached : verifier.cachedTokenSequence v = SinkWindow.trim sink window (tokens.take reused)
  position : verifier.nextGlobalPosition v = reused

theorem importSnapshot_ensures (hv : verifier.Reliable sink window Ready) (raw : Bytes) (hit : Hit) :
    Proc.Ensures (Stored c fun _ : V => True) (importSnapshot verifier raw hit)
      (fun i st => Stored c (fun v => ∀ n, Ready (verifier.install i.cachedTokenIds n v)) st)
      (fun _ st => Stored c (fun _ => True) st) := by
  intro st hst
  unfold importSnapshot
  rw [Proc.run_get_bind]
  cases him : verifier.importRemote with
  | some importRemote =>
    refine Proc.Ensures.bind (onVerifier_ensures
      (R := fun i v => ∀ n, Ready (verifier.install i.cachedTokenIds n v)) ?_) (fun i => ?_) st hst
    · intro v v' i _ hr n
      exact hv.importedRemote _ _ _ _ _ _ n him hr
    · exact Proc.Ensures.pure fun _ h => h
  | none =>
    refine Proc.Ensures.bind (onVerifier_ensures (R := fun _ _ => True) fun _ _ _ _ _ => trivial) (fun _ => ?_) st hst
    refine onVerifier_ensures ?_
    intro v v' i _ hr n
    exact hv.imported _ _ _ _ _ n hr

theorem reportReuse_keeps {Q : V → Prop} (n : Nat) : Proc.Keeps (Stored c Q) (reportReuse hook n) := by
  unfold reportReuse
  split
  · exact ofExcept_keeps _
  · exact Proc.Keeps.pure ()

theorem creditHit_keeps {Q : V → Prop} (hit : Hit) (payload : Bytes) (n : Nat) :
    Proc.Keeps (Stored c Q) (creditHit env hit payload n) := by
  unfold creditHit
  split
  · exact count_keeps _
  · exact Proc.Keeps.bind (count_keeps _) fun _ => promoteRemoteHit_keeps hit payload n

theorem invalidateHit_ensures {Q : V → Prop} (hit : Hit) :
    Proc.Ensures (Stored c Q) (invalidateHit hit) (fun _ st => Stored c Q st) (fun _ _ => False) := by
  intro st hst
  unfold invalidateHit
  split
  · have h := PrefixCacheStore.invalidate_keeps (h := hit.blockHash) (stored_closed PrefixCacheStore.anyRights c) trivial
      st.store ⟨hst.sound, hst.compatibility⟩
    unfold onStore
    rw [Proc.run_bind, Proc.run_focus]
    unfold PrefixCacheStore.invalidate at h ⊢
    rw [Proc.run_get_bind] at h ⊢
    cases hb : st.store.blocks.get? hit.blockHash with
    | none => exact hst
    | some b =>
      rw [hb] at h
      exact ⟨h.1, h.2, hst.verifier⟩
  · exact hst

/-- An import that passes all checks leaves the verifier at the boundary it reports. -/
theorem importHit_ensures (hv : verifier.Reliable sink window Ready) (hsize : 0 ≤ c.blockSizeTokens)
    (tokens : List Token) (hit : Hit) :
    Proc.Ensures (Stored c fun _ : V => True) (importHit hook verifier env tokens hit)
      (fun r st => Stored c (fun v => 0 < r → Restored verifier sink window Ready c.blockSizeTokens.toNat tokens r v) st)
      (fun _ st => Stored c (fun _ => True) st) := by
  intro st hst
  unfold importHit
  rw [Proc.run_get_bind]
  dsimp only
  rw [hst.compatibility]
  split
  · exact hst
  rename_i hbound
  split
  · exact hst
  refine Proc.Ensures.bind (hitPayload_keeps hit).ensures (fun payload => ?_) st hst
  split
  · exact Proc.Ensures.raise fun _ h => h
  refine Proc.Ensures.bind (ofExcept_keeps _).ensures fun raw => ?_
  refine Proc.Ensures.bind (importSnapshot_ensures hv raw hit) fun i => ?_
  split
  · exact Proc.Ensures.raise fun _ h => ⟨h.sound, h.compatibility, trivial⟩
  rename_i hcount
  split
  · exact Proc.Ensures.raise fun _ h => ⟨h.sound, h.compatibility, trivial⟩
  split
  · exact Proc.Ensures.raise fun _ h => ⟨h.sound, h.compatibility, trivial⟩
  split
  · exact Proc.Ensures.raise fun _ h => ⟨h.sound, h.compatibility, trivial⟩
  rename_i hids
  rw [hv.slice, Option.getD_some, not_not] at hids
  obtain ⟨hpos, hk⟩ : 0 < i.tokenCount ∧ i.tokenCount = min (hit.hitBlocks * c.blockSizeTokens) tokens.length := by
    simp only [not_or, not_not] at hcount hbound
    omega
  have hreused : min i.tokenCount.toNat tokens.length = min (hit.hitBlocks * c.blockSizeTokens.toNat) tokens.length := by
    have hcast : ((hit.hitBlocks * c.blockSizeTokens.toNat : Nat) : Int) = hit.hitBlocks * c.blockSizeTokens := by
      rw [Int.natCast_mul, Int.toNat_of_nonneg hsize]
    omega
  have hkeep : ∀ {α : Type} {x : HookProc V α} {Q : V → Prop}, Proc.Keeps (Stored c Q) x →
      Proc.Ensures (Stored c Q) x (fun _ st => Stored c Q st) (fun _ st => Stored c (fun _ => True) st) :=
    fun h => (Proc.Keeps.ensures h).mono (fun _ h => h) (fun _ _ h => h) fun _ _ h => ⟨h.sound, h.compatibility, trivial⟩
  refine Proc.Ensures.bind (Q := fun _ st => Stored c
    (fun v => 0 < min i.tokenCount.toNat tokens.length →
      Restored verifier sink window Ready c.blockSizeTokens.toNat tokens (min i.tokenCount.toNat tokens.length) v) st)
    (Proc.Ensures.modify fun s hs => ⟨hs.sound, hs.compatibility, fun _ => ⟨⟨_, hreused⟩, hs.verifier _, ?_, ?_⟩⟩) fun _ => ?_
  · rw [(hv.installed _ _ _).1]
    exact hids
  · exact (hv.installed _ _ _).2
  · refine Proc.Ensures.bind (hkeep (count_keeps _)) fun _ => ?_
    refine Proc.Ensures.bind (hkeep (reportReuse_keeps _)) fun _ => ?_
    refine Proc.Ensures.bind (hkeep (creditHit_keeps hit payload _)) fun _ => ?_
    exact Proc.Ensures.pure fun _ h => h

/-- `_try_import` never raises; it restores a prefix up to a boundary or nothing. -/
theorem tryImport_ensures (hv : verifier.Reliable sink window Ready) (hsize : 0 ≤ c.blockSizeTokens)
    (tokens : List Token) (hit : Hit) :
    Proc.Ensures (Stored c fun _ : V => True) (tryImport hook verifier env tokens hit)
      (fun r st => Stored c (fun v => 0 < r → Restored verifier sink window Ready c.blockSizeTokens.toNat tokens r v) st)
      (fun _ _ => False) := by
  refine Proc.Ensures.handle (importHit_ensures hv hsize tokens hit) fun e => ?_
  refine Proc.Ensures.bind (Q := fun _ st => Stored c (fun _ => True) st)
    (Proc.Ensures.modify fun _ h => ⟨h.sound, h.compatibility, trivial⟩) fun _ => ?_
  refine Proc.Ensures.bind (invalidateHit_ensures hit) fun _ => ?_
  refine Proc.Ensures.bind (Q := fun _ st => Stored c (fun _ => True) st) ?_ fun _ => Proc.Ensures.pure fun _ h =>
    ⟨h.sound, h.compatibility, fun h0 => absurd h0 (Nat.lt_irrefl 0)⟩
  intro st hst
  obtain ⟨v', hv'⟩ := hv.reset st.verifier
  unfold onVerifier
  rw [Proc.run_focus_ok hv']
  exact ⟨hst.sound, hst.compatibility, trivial⟩

/-! ### The best hit -/

/-- The lease on a local hit lives until the hit is fetched. -/
def LeaseLives (env : Environment) (s : PrefixCacheStore) (hashes : List Bytes) : Prop :=
  PrefixCacheStore.longestHit s.blocks 0 hashes none = none ∨ env.fetchNow ≤ env.lookupNow + 30

private theorem lookup_stored {Q : V → Prop} (hashes : List Bytes) (secs now : Int) (id : String) :
    Proc.Keeps (Stored c Q) (onStore (PrefixCacheStore.lookup hashes secs now id)) :=
  onStore_keeps (PrefixCacheStore.lookup_keeps (stored_closed PrefixCacheStore.anyRights c) (fun _ h => h.1.keyed)
    trivial trivial)

private theorem fetch_stored {Q : V → Prop} (id : String) (now : Int) :
    Proc.Keeps (Stored c Q) (onStore (PrefixCacheStore.fetch id now)) :=
  onStore_keeps (PrefixCacheStore.fetch_keeps (stored_closed PrefixCacheStore.anyRights c) trivial)

variable (env) in
/-- The local candidate is found, or nothing is, exactly when the lease lives. -/
theorem localCandidate_spec {Q : V → Prop} {st : HookState V} (hst : Stored c Q st) (hashes : List Bytes) :
    (LeaseLives env st.store hashes →
      ∃ hits st', (localCandidate env hashes).run st = (.ok hits, st') ∧ Stored c Q st') ∧
    (¬ LeaseLives env st.store hashes → ∃ e st', (localCandidate env hashes).run st = (.error e, st')) := by
  have hlookup := lookup_stored (Q := Q) hashes 30 env.lookupNow env.leaseId st hst
  have hrun := PrefixCacheStore.run_lookup (show (0 : Int) < 30 by decide) hashes env.lookupNow env.leaseId st.store
  unfold LeaseLives localCandidate
  rw [Proc.run_bind]
  unfold onStore at hlookup ⊢
  cases hh : PrefixCacheStore.longestHit st.store.blocks 0 hashes none with
  | none =>
    rw [hh] at hrun
    rw [Proc.run_focus_ok hrun] at hlookup ⊢
    exact ⟨fun _ => ⟨[], _, rfl, hlookup⟩, fun h => absurd (Or.inl rfl) h⟩
  | some p =>
    obtain ⟨b, k⟩ := p
    rw [hh] at hrun
    rw [Proc.run_focus_ok hrun] at hlookup ⊢
    dsimp only at hlookup ⊢
    generalize hl : st.store.leaseOn env.leaseId b k (env.lookupNow + 30) = l at hlookup ⊢
    have hid : l.leaseId = env.leaseId := by rw [← hl]; rfl
    have hexp : l.expiresAtUnix = env.lookupNow + 30 := by rw [← hl]; rfl
    have hone : l.blockHashes = [b.blockHash] := by rw [← hl]; rfl
    rw [if_neg (by rw [hid]; exact env.leaseId_ne), Proc.run_bind]
    rw [← hid] at hlookup ⊢
    generalize hu : HookState.mk (V := V) _ st.verifier st.stats = u at hlookup ⊢
    have hlisted : u.store.leases.get? l.leaseId = some l := by
      rw [← hu]
      exact Dict.get?_set_self _ _ _
    have hfetch := PrefixCacheStore.fetch_returns_iff hlookup.sound hlisted hone env.fetchNow
    have hkeep := fetch_stored (Q := Q) l.leaseId env.fetchNow u hlookup
    unfold onStore at hkeep
    constructor
    · rintro (hnone | hlives)
      · cases hnone
      · obtain ⟨x, s', hx⟩ := hfetch.1 (by omega)
        rw [Proc.run_focus_ok hx] at hkeep ⊢
        exact ⟨_, _, rfl, hkeep⟩
    · intro hdead
      obtain ⟨e, s', hx⟩ := hfetch.2 (by intro h; exact hdead (Or.inr (by omega)))
      rw [Proc.run_focus_error hx]
      exact ⟨_, _, rfl⟩

variable (hook env) in
theorem bestHit_spec {Q : V → Prop} {st : HookState V} (hst : Stored c Q st) (hashes : List Bytes) :
    (LeaseLives env st.store hashes →
      ∃ hit st', (bestHit hook env hashes).run st = (.ok hit, st') ∧ Stored c Q st') ∧
    (¬ LeaseLives env st.store hashes → ∃ e st', (bestHit hook env hashes).run st = (.error e, st')) := by
  obtain ⟨hfound, hfails⟩ := localCandidate_spec env hst hashes
  unfold bestHit
  constructor
  · intro hlives
    obtain ⟨hits, st', hrun, hst'⟩ := hfound hlives
    rw [Proc.run_bind_ok hrun]
    dsimp only
    split
    · exact ⟨none, st', rfl, hst'⟩
    · split
      · exact ⟨_, st', rfl, hst'⟩
      · exact ⟨_, st', rfl, hst'⟩
  · intro hdead
    obtain ⟨e, st', hrun⟩ := hfails hdead
    exact ⟨e, st', Proc.run_bind_error hrun⟩

/-- What `restorePrefix` leaves behind: nothing restored, or a prefix up to a boundary. -/
def RestoredBy (verifier : PrefillVerifier V) (sink window : Nat) (Ready : V → Prop) (c : CacheCompatibility)
    (tokens : List Token) (r : Nat) (st : HookState V) : Prop :=
  Stored c (fun v => 0 < r → Restored verifier sink window Ready c.blockSizeTokens.toNat tokens r v) st

theorem tryImport?_ensures (hv : verifier.Reliable sink window Ready) (hsize : 0 ≤ c.blockSizeTokens)
    (tokens : List Token) (hit : Option Hit) :
    Proc.Ensures (Stored c fun _ : V => True) (tryImport? hook verifier env tokens hit)
      (RestoredBy verifier sink window Ready c tokens) (fun _ _ => False) := by
  cases hit with
  | none => exact Proc.Ensures.pure fun _ h => ⟨h.sound, h.compatibility, fun h0 => absurd h0 (Nat.lt_irrefl 0)⟩
  | some hit => exact tryImport_ensures hv hsize tokens hit

variable (hook env) in
/-- Restoring a prefix raises only when the local lease has expired before its fetch. -/
theorem restorePrefix_spec (hv : verifier.Reliable sink window Ready) (hsize : 0 ≤ c.blockSizeTokens)
    {st : HookState V} (hst : Stored c (fun _ => True) st) (tokens : List Token) (hashes : List Bytes) :
    (LeaseLives env st.store hashes →
      ∃ r st', (restorePrefix hook verifier env tokens hashes).run st = (.ok r, st') ∧
        RestoredBy verifier sink window Ready c tokens r st') ∧
    (¬ LeaseLives env st.store hashes →
      ∃ e st', (restorePrefix hook verifier env tokens hashes).run st = (.error e, st')) := by
  obtain ⟨hfound, hfails⟩ := bestHit_spec hook env hst hashes
  unfold restorePrefix
  constructor
  · intro hlives
    obtain ⟨best, st₁, hrun, hst₁⟩ := hfound hlives
    rw [Proc.run_bind_ok hrun]
    dsimp only
    generalize (if hook.requireRemoteCompute = true then _ else best) = hit
    refine Proc.Ensures.returns (Proc.Ensures.bind (tryImport?_ensures hv hsize tokens hit) fun imported => ?_) hst₁
    refine Proc.Ensures.bind (Q := RestoredBy verifier sink window Ready c tokens) ?_ fun reused => ?_
    · unfold importComputed
      split
      · refine Proc.Ensures.bind (Q := fun _ st => Stored c (fun _ => True) st) ?_ fun remoteHit =>
          tryImport?_ensures hv hsize tokens remoteHit
        exact (computeRemote_ensures tokens hashes).mono (fun _ h => ⟨h.sound, h.compatibility, trivial⟩)
          (fun _ _ h => h) fun _ _ h => h
      · exact Proc.Ensures.pure fun _ h => h
    · refine Proc.Ensures.bind (Q := fun _ st => RestoredBy verifier sink window Ready c tokens reused st) ?_
        fun _ => Proc.Ensures.pure fun _ h => h
      unfold countMiss
      split
      · exact Proc.Ensures.modify fun _ h => ⟨h.sound, h.compatibility, h.verifier⟩
      · exact Proc.Ensures.pure fun _ h => h
  · intro hdead
    obtain ⟨e, st', hrun⟩ := hfails hdead
    exact ⟨e, st', Proc.run_bind_error hrun⟩

/-! ### Computing the rest -/

/-- The number of blocks that `n` tokens start. -/
def blockCount (size n : Nat) : Nat := (n + size - 1) / size

/-- The end of a block. -/
def blockEnd (size : Nat) (tokens : List Token) (index : Nat) : Nat := min ((index + 1) * size) tokens.length

/-- A step of the computation: the block with an index is computed and published. -/
def blockStep (hook : PrefillCacheHook) (verifier : PrefillVerifier V) (env : Environment) (tokens : List Token)
    (hashes : List Bytes) (size : Nat) (st : HookState V) (index : Nat) : Except HookError Unit × HookState V :=
  (computeBlock hook verifier env tokens hashes index (index * size) (blockEnd size tokens index)).run st

/-- The boundary of a block can be published from a state: the verifier is a proxy, which publishes nothing, or the
snapshot of the verifier that has consumed the block can be made and the store admits it. -/
def Publishable (hook : PrefillCacheHook) (verifier : PrefillVerifier V) (env : Environment) (tokens : List Token)
    (hashes : List Bytes) (size : Nat) (st : HookState V) (index : Nat) : Prop :=
  verifier.isDecodeWorkerProxy = true ∨
    ∃ b, snapshotBlock hook verifier
        ((feedBlock verifier tokens (index * size) (blockEnd size tokens index)).run st.verifier).2
        (hashes.getD index []) (blockEnd size tokens index) = .ok b ∧
      st.store.Admits b (env.publishNow index)

/-- The verifier has consumed the tokens up to `n`, or has not started. -/
def Upto (verifier : PrefillVerifier V) (sink window : Nat) (Ready : V → Prop) (tokens : List Token) (n : Nat) (v : V) :
    Prop :=
  0 < n → Ready v ∧ verifier.cachedTokenSequence v = SinkWindow.trim sink window (tokens.take n) ∧
    verifier.nextGlobalPosition v = n

/-- Feeding a block takes the verifier to the end of the block. -/
theorem feedBlock_spec (hv : verifier.Reliable sink window Ready) {tokens : List Token} {start stop : Nat}
    (hstart : start < stop) (hstop : stop ≤ tokens.length) {v : V}
    (hu : Upto verifier sink window Ready tokens start v) :
    ∃ v', (feedBlock verifier tokens start stop).run v = (.ok (), v') ∧
      Upto verifier sink window Ready tokens stop v' := by
  have hlen : ((tokens.take stop).drop start).length = stop - start := by
    rw [List.length_drop, List.length_take]
    omega
  have hne : (tokens.take stop).drop start ≠ [] := by
    intro h
    rw [h, List.length_nil] at hlen
    omega
  unfold feedBlock
  dsimp only
  by_cases h0 : start = 0
  · rw [if_pos h0]
    obtain ⟨v', hrun, hready, hcached, hpos⟩ := hv.prefill v _ hne
    refine ⟨v', hrun, fun _ => ⟨hready, ?_, ?_⟩⟩
    · rw [hcached, h0, List.drop_zero]
    · rw [hpos, hlen, h0, Nat.sub_zero]
  · rw [if_neg h0]
    obtain ⟨hready, hcached, hpos⟩ := hu (by omega)
    obtain ⟨v', hrun, hready', hcached', hpos'⟩ := hv.advance v _ hready hne
    refine ⟨v', hrun, fun _ => ⟨hready', ?_, by omega⟩⟩
    -- the window of the prefix, extended by the block, has the window of both
    rw [hcached', hcached, SinkWindow.trim_append]
    congr 1
    have hsplit := List.take_append_drop start (tokens.take stop)
    rwa [List.take_take, Nat.min_eq_left (by omega)] at hsplit

variable (hook verifier env) in
/-- Publishing a boundary returns exactly when the snapshot can be made and the store admits it, and keeps the rest. -/
theorem publishBoundary_spec {Q : V → Prop} {st : HookState V} (hst : Stored c Q st) {hashes : List Bytes} {index : Nat}
    (hindex : index < hashes.length) (stop : Nat) :
    ((∃ b, snapshotBlock hook verifier st.verifier (hashes.getD index []) stop = .ok b ∧
        st.store.Admits b (env.publishNow index)) →
      ∃ st', (publishBoundary hook verifier env hashes index stop).run st = (.ok (), st') ∧ Stored c Q st') ∧
    ((¬ ∃ b, snapshotBlock hook verifier st.verifier (hashes.getD index []) stop = .ok b ∧
        st.store.Admits b (env.publishNow index)) →
      ∃ e st', (publishBoundary hook verifier env hashes index stop).run st = (.error e, st')) := by
  have hhash : hashes[index]? = some (hashes.getD index []) := by
    rw [List.getD_eq_getElem?_getD, List.getElem?_eq_getElem hindex, Option.getD_some]
  unfold publishBoundary
  rw [hhash]
  dsimp only
  rw [Proc.run_get_bind]
  cases hsnap : snapshotBlock hook verifier st.verifier (hashes.getD index []) stop with
  | error e =>
    refine ⟨?_, fun _ => ⟨e, st, rfl⟩⟩
    rintro ⟨b, hb, -⟩
    cases hb
  | ok b =>
    have hput := PrefixCacheStore.put_returns_iff hst.sound b (env.publishNow index)
    have hkeep := put_stored (Q := Q) b (env.publishNow index) st hst
    have hrun : ((Proc.ofExcept (.ok b) : HookProc V CacheBlock) >>= fun b => do
        let _ ← onStore (PrefixCacheStore.put b (env.publishNow index))
        pure ()).run st = (onStore (PrefixCacheStore.put b (env.publishNow index)) >>= fun _ => pure ()).run st := rfl
    rw [hrun]
    unfold onStore at hkeep ⊢
    rw [Proc.run_bind]
    rcases hr : (PrefixCacheStore.put b (env.publishNow index)).run st.store with ⟨e | r, s'⟩
    · rw [Proc.run_focus_error hr]
      refine ⟨?_, fun _ => ⟨_, _, rfl⟩⟩
      rintro ⟨b', hb, had⟩
      obtain rfl := Except.ok.inj hb
      obtain ⟨r, hr'⟩ := hput.2 had
      rw [hr] at hr'
      cases hr'
    · rw [Proc.run_focus_ok hr] at hkeep ⊢
      refine ⟨fun _ => ⟨_, rfl, hkeep⟩, fun hn => absurd ⟨b, rfl, hput.1 ⟨r, ?_⟩⟩ hn⟩
      rw [hr]

variable (hook env) in
/-- A step of the computation takes the verifier to the end of its block exactly when the boundary can be published. -/
theorem blockStep_spec (hv : verifier.Reliable sink window Ready) {size : Nat} (hsize : 0 < size) {tokens : List Token}
    {hashes : List Bytes} {index : Nat} (hlt : index * size < tokens.length) (hindex : index < hashes.length)
    {st : HookState V} (hst : Stored c (Upto verifier sink window Ready tokens (index * size)) st) :
    (Publishable hook verifier env tokens hashes size st index →
      ∃ st', blockStep hook verifier env tokens hashes size st index = (.ok (), st') ∧
        Stored c (Upto verifier sink window Ready tokens (blockEnd size tokens index)) st') ∧
    (¬ Publishable hook verifier env tokens hashes size st index →
      ∃ e st', blockStep hook verifier env tokens hashes size st index = (.error e, st')) := by
  have hstop : index * size < blockEnd size tokens index := by
    unfold blockEnd
    rw [Nat.add_mul]
    omega
  obtain ⟨v', hfeed, hu'⟩ := feedBlock_spec hv hstop (show blockEnd size tokens index ≤ tokens.length from
    Nat.min_le_right _ _) hst.verifier
  unfold Publishable blockStep computeBlock onVerifier count
  rw [hfeed, Proc.run_bind_ok (Proc.run_focus_ok hfeed), Proc.run_modify_bind]
  generalize hst₁ : HookState.mk st.store v' _ = st₁
  have hstored : Stored c (Upto verifier sink window Ready tokens (blockEnd size tokens index)) st₁ := by
    rw [← hst₁]
    exact ⟨hst.sound, hst.compatibility, hu'⟩
  have hstore : st.store = st₁.store := by rw [← hst₁]
  have hverifier : v' = st₁.verifier := by rw [← hst₁]
  by_cases hproxy : verifier.isDecodeWorkerProxy = true
  · rw [if_pos hproxy]
    exact ⟨fun _ => ⟨st₁, rfl, hstored⟩, fun hn => absurd (Or.inl hproxy) hn⟩
  · rw [if_neg hproxy, hstore]
    dsimp only
    rw [hverifier]
    obtain ⟨hok, hfail⟩ := publishBoundary_spec hook verifier env hstored hindex
      (blockEnd size tokens index)
    exact ⟨fun h => hok (h.resolve_left hproxy), fun hn => hfail fun h => hn (Or.inr h)⟩

/-- The verifier has consumed exactly the tokens. -/
structure Consumed (verifier : PrefillVerifier V) (sink window : Nat) (tokens : List Token) (v : V) : Prop where
  cached : verifier.cachedTokenSequence v = SinkWindow.trim sink window tokens
  position : verifier.nextGlobalPosition v = tokens.length

private theorem le_blockCount_mul {size : Nat} (hsize : 0 < size) (n : Nat) : n ≤ blockCount size n * size := by
  have h := Nat.lt_mul_div_succ (n + size - 1) hsize
  rw [Nat.mul_succ] at h
  unfold blockCount
  rw [Nat.mul_comm]
  omega

theorem lt_blockCount {size k n : Nat} (hsize : 0 < size) (h : k * size < n) : k < blockCount size n := by
  have hn := le_blockCount_mul hsize n
  by_contra hle
  have := Nat.mul_le_mul_right size (Nat.not_lt.1 hle)
  omega

private theorem blockCount_mul {size : Nat} (hsize : 0 < size) (k : Nat) : blockCount size (k * size) = k := by
  unfold blockCount
  apply Nat.div_eq_of_lt_le
  · omega
  · rw [Nat.succ_mul]
    omega

theorem blockCount_le {size k n : Nat} (hsize : 0 < size) (h : n ≤ k * size) : blockCount size n ≤ k := by
  rw [← blockCount_mul hsize k]
  exact Nat.div_le_div_right (by omega)

/-- A prefix up to a boundary ends where its blocks end. -/
private theorem boundary_eq {size k r n : Nat} (hsize : 0 < size) (h : r = min (k * size) n) :
    r = min (blockCount size r * size) n := by
  rcases Nat.le_total (k * size) n with hk | hk
  · obtain rfl : r = k * size := by omega
    rw [blockCount_mul hsize]
    omega
  · obtain rfl : r = n := by omega
    have := le_blockCount_mul hsize r
    omega

variable (hook env) in
/-- The loop ends with all tokens consumed exactly when every boundary it comes to can be published. -/
theorem computeBlocks_iff (hv : verifier.Reliable sink window Ready) {size : Nat} (hsize : 0 < size)
    {tokens : List Token} (hne : tokens ≠ []) {hashes : List Bytes}
    (hhashes : hashes.length = blockCount size tokens.length) (n k : Nat) {st : HookState V}
    (hn : tokens.length - min (k * size) tokens.length ≤ n)
    (hst : Stored c (Upto verifier sink window Ready tokens (min (k * size) tokens.length)) st) :
    (∃ st', (computeBlocks hook verifier env tokens hashes size n (min (k * size) tokens.length)).run st =
        (.ok (), st') ∧ Consumed verifier sink window tokens st'.verifier) ↔
      Machine.AllSteps (blockStep hook verifier env tokens hashes size)
        (Publishable hook verifier env tokens hashes size) st
        (List.range' k (blockCount size tokens.length - k)) := by
  have hlen : 0 < tokens.length := List.length_pos_iff.2 hne
  induction n generalizing k st with
  | zero =>
    have hend : tokens.length ≤ k * size := by omega
    rw [Nat.sub_eq_zero_of_le (blockCount_le hsize hend), Nat.min_eq_right hend]
    rw [Nat.min_eq_right hend] at hst
    obtain ⟨-, hcached, hpos⟩ := hst.verifier hlen
    rw [List.take_length] at hcached
    exact ⟨fun _ => trivial, fun _ => ⟨st, rfl, hcached, hpos⟩⟩
  | succ n ih =>
    unfold computeBlocks
    by_cases hend : tokens.length ≤ k * size
    · rw [Nat.sub_eq_zero_of_le (blockCount_le hsize hend), Nat.min_eq_right hend, if_neg (Nat.lt_irrefl _)]
      rw [Nat.min_eq_right hend] at hst
      obtain ⟨-, hcached, hpos⟩ := hst.verifier hlen
      rw [List.take_length] at hcached
      exact ⟨fun _ => trivial, fun _ => ⟨st, rfl, hcached, hpos⟩⟩
    · have hlt : k * size < tokens.length := by omega
      have hk := lt_blockCount hsize hlt
      rw [Nat.min_eq_left (by omega)] at hst hn ⊢
      rw [if_pos hlt, Nat.mul_div_cancel k hsize]
      have hrange : blockCount size tokens.length - k = (blockCount size tokens.length - (k + 1)) + 1 := by omega
      rw [hrange, List.range'_succ]
      obtain ⟨hok, hfail⟩ := blockStep_spec hook env hv hsize hlt (show k < hashes.length by omega) hst
      by_cases hpub : Publishable hook verifier env tokens hashes size st k
      · obtain ⟨st', hstep, hst'⟩ := hok hpub
        have hrest := ih (k + 1) (by rw [Nat.succ_mul]; omega) hst'
        unfold Machine.AllSteps
        rw [hstep]
        unfold blockStep blockEnd at hstep
        dsimp only
        rw [Proc.run_bind_ok hstep]
        exact hrest.trans ⟨fun h => ⟨hpub, h⟩, fun h => h.2⟩
      · obtain ⟨e, st', hstep⟩ := hfail hpub
        unfold blockStep blockEnd at hstep
        dsimp only
        rw [Proc.run_bind_error hstep]
        refine ⟨?_, fun h => absurd h.1 hpub⟩
        rintro ⟨st'', h, -⟩
        cases (Prod.mk.inj h).1

/-! ### Transparency -/

/-- `prepare` returned, with the verifier having consumed exactly the tokens. -/
def Transparent (verifier : PrefillVerifier V) (sink window : Nat) (tokens : List Token)
    (outcome : Except HookError Nat × HookState V) : Prop :=
  ∃ r st, outcome = (.ok r, st) ∧ Consumed verifier sink window tokens st.verifier

/-- The cache does not stand in the way of a prompt: it can be hashed, a local lease lives until its fetch, and from the
state that restoring a prefix leaves every boundary that is computed can be published. -/
structure Unhindered (hook : PrefillCacheHook) (verifier : PrefillVerifier V) (env : Environment) (tokens : List Token)
    (st : HookState V) : Prop where
  blockSize : 0 < st.store.compatibility.blockSizeTokens
  fits : ∀ t ∈ tokens, (0 : Int) ≤ t ∧ t < 2 ^ 32
  lives : ∀ hashes, chainedBlockHashes tokens st.store.compatibility hook.hashKey = .ok hashes →
    LeaseLives env st.store hashes
  publishes : ∀ hashes r st', chainedBlockHashes tokens st.store.compatibility hook.hashKey = .ok hashes →
    (restorePrefix hook verifier env tokens hashes).run st = (.ok r, st') →
    let size := st.store.compatibility.blockSizeTokens.toNat
    Machine.AllSteps (blockStep hook verifier env tokens hashes size)
      (Publishable hook verifier env tokens hashes size) st'
      (List.range' (blockCount size r) (blockCount size tokens.length - blockCount size r))

variable (hook env) in
/-- The tail of `prepare`, from the state that restoring a prefix leaves. -/
private theorem computeAndPublish_iff (hv : verifier.Reliable sink window Ready) (hsize : 0 < c.blockSizeTokens.toNat)
    {tokens : List Token} (hne : tokens ≠ []) {hashes : List Bytes}
    (hhashes : hashes.length = blockCount c.blockSizeTokens.toNat tokens.length) {r : Nat} {st : HookState V}
    (hst : RestoredBy verifier sink window Ready c tokens r st) :
    (∃ st', (computeAndPublish hook verifier env tokens hashes r).run st = (.ok (), st') ∧
        Consumed verifier sink window tokens st'.verifier) ↔
      Machine.AllSteps (blockStep hook verifier env tokens hashes c.blockSizeTokens.toNat)
        (Publishable hook verifier env tokens hashes c.blockSizeTokens.toNat) st
        (List.range' (blockCount c.blockSizeTokens.toNat r)
          (blockCount c.blockSizeTokens.toNat tokens.length - blockCount c.blockSizeTokens.toNat r)) := by
  have hr : r = min (blockCount c.blockSizeTokens.toNat r * c.blockSizeTokens.toNat) tokens.length := by
    rcases Nat.eq_zero_or_pos r with rfl | hpos
    · exact boundary_eq (k := 0) hsize (by omega)
    · obtain ⟨k, hk⟩ := (hst.verifier hpos).boundary
      exact boundary_eq hsize hk
  have hupto : Stored c (Upto verifier sink window Ready tokens
      (min (blockCount c.blockSizeTokens.toNat r * c.blockSizeTokens.toNat) tokens.length)) st := by
    rw [← hr]
    refine ⟨hst.sound, hst.compatibility, fun hpos => ?_⟩
    have h := hst.verifier hpos
    exact ⟨h.ready, h.cached, h.position⟩
  have hloop := computeBlocks_iff hook env hv hsize hne hhashes tokens.length
    (blockCount c.blockSizeTokens.toNat r) (by omega) hupto
  rw [← hr] at hloop
  have hrun : (computeAndPublish hook verifier env tokens hashes r).run st =
      (computeBlocks hook verifier env tokens hashes c.blockSizeTokens.toNat tokens.length r).run st := by
    rw [run_computeAndPublish hook verifier env hne (by rw [hst.compatibility]; exact hsize), hst.compatibility]
  rw [hrun]
  exact hloop

/-- A codec that writes the magic and the cached tokens, and decodes nothing. -/
def plainCodec : SnapshotCodec Pair.smallConfig where
  encode := fun v _ _ => .ok (utf8 "KPKV1".toList ++ v.cachedTokenSequence.map fun t => UInt8.ofNat t.toNat)
  decode := fun _ _ => .error (.valueError "invalid prefill snapshot magic")
  decoded := by
    intro raw c layers i h
    cases h

/-- A hook without compression, remote computation and callback. -/
def plainHook : PrefillCacheHook where
  hashKey := []
  remoteComputeMinTokens := 128
  maxImportBytes := 2 ^ 30
  requireRemoteCompute := false
  compressPayload := .ok
  decompressPayload := .ok
  remoteImportWins := fun _ => false
  onReuse := none

/-- No peers, no worker, and a clock that stands still. -/
def quietEnvironment : Environment where
  lookupNow := 0
  fetchNow := 0
  leaseId := "lease"
  leaseId_ne := by decide
  peerReplies := []
  fetchBlocks := fun _ => []
  promoteNow := fun _ => 0
  prefillWorker := none
  submitJob := .ok ()
  jobStatuses := []
  publishNow := fun _ => 0

/-- An empty store of a capacity. -/
def emptyStore (maxBytes : Int) : PrefixCacheStore :=
  { compatibility := { modelId := "m" }, maxBytes := maxBytes, nodeId := "n" }

/-- The exception that a call of `prepare` on an empty store ends with. -/
def failureOn (maxBytes : Int) (tokens : List Token) : Option HookError :=
  match ((prepare plainHook (MlxVerifier.prefillVerifier plainCodec) quietEnvironment tokens).run
    ⟨emptyStore maxBytes, {}, {}⟩).1 with
  | .ok _ => none
  | .error e => some e

theorem longestHit_empty (hashes : List Bytes) : PrefixCacheStore.longestHit Dict.empty 0 hashes none = none := by
  rw [Option.eq_none_iff_forall_ne_some]
  rintro ⟨b, k⟩ h
  obtain ⟨x, hx⟩ := PrefixCacheStore.longestHit_stored (by simp) h
  cases hx

end PrefillCacheHook

end KakeyaEngine
