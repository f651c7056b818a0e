import KakeyaEngine.PrefixCache.Leases

/-!
# Longest-prefix lookup

A store is filled with snapshots of published token lists, each list under its own compatibility tuple and tenant key,
and looked up with the chained hashes of another list.  `lookup_longest_prefix` says what a hit means: where the
digests that occur do not collide, the snapshot belongs to a list published under the same tuple and key, its tokens
are exactly the tokens of the requested list up to the boundary, and no stored snapshot reaches further.
-/

namespace KakeyaEngine

namespace PrefixCacheStore

/-- A token list with the compatibility tuple and the tenant key its hashes are computed under. -/
structure Prompt where
  compatibility : CacheCompatibility
  hmacKey : Bytes
  tokenIds : List Token
deriving DecidableEq

namespace Prompt

def hashes (p : Prompt) : Except CacheError (List Bytes) :=
  chainedBlockHashes p.tokenIds p.compatibility p.hmacKey

def size (p : Prompt) : Nat := p.compatibility.blockSizeTokens.toNat

/-- `b` is a snapshot of the prompt at boundary `index`. -/
def Snapshot (p : Prompt) (index : Nat) (payload : Bytes) (b : CacheBlock) : Prop :=
  BoundaryBlock p.compatibility p.hmacKey p.tokenIds index payload b

/-- The tokens before the boundary `index`. -/
def upTo (p : Prompt) (index : Nat) : List Token := p.tokenIds.take ((index + 1) * p.size)

end Prompt

/-- `b` is a snapshot of one of the published prompts. -/
def Published (P : List Prompt) (b : CacheBlock) : Prop := ∃ p ∈ P, ∃ index payload, p.Snapshot index payload b

/-- The call stores snapshots of published prompts only. -/
def Publishes (P : List Prompt) (c : CacheCompatibility) : CacheEvent → Prop
  | .put b _ => Published P b
  | .putPrefix ts _ _ => ⟨c, [], ts⟩ ∈ P
  | .publishAndLease bs _ _ _ _ _ => ∀ b ∈ bs, Published P b
  | _ => True

theorem published_of_stores {P : List Prompt} {c : CacheCompatibility} {e : CacheEvent} (h : Publishes P c e)
    {b : CacheBlock} (hb : (rights c e).stores b) : Published P b := by
  cases e with
  | put b' now => rw [show b = b' from hb]; exact h
  | putPrefix ts ps clock =>
    obtain ⟨i, payload, hi⟩ := hb
    exact ⟨⟨c, [], ts⟩, h, i, payload, hi⟩
  | publishAndLease bs hs rid secs now id => exact h b hb
  | _ => cases hb

/-- Every stored block is a snapshot of a published prompt. -/
def Filled (P : List Prompt) (s : PrefixCacheStore) : Prop := ∀ h b, s.blocks.get? h = some b → Published P b

theorem filled_closed {P : List Prompt} {R : Rights} (hR : ∀ b, R.stores b → Published P b) : Closed R (Filled P) := by
  intro s s' hm hs h b hb
  cases hm with
  | expire hr => exact hs h b hb
  | evict hb' hp =>
    simp only [evictBlock, Dict.get?_erase] at hb
    split at hb
    · cases hb
    · exact hs h b hb
  | touch => exact hs h b (by simpa [PrefixCacheStore.touch] using hb)
  | store hb' hr =>
    simp only [storeBlock, Dict.get?_set] at hb
    split at hb
    · rw [← Option.some.inj hb]
      exact hR _ hr
    · exact hs h b hb
  | grant hb' hl hd hr => exact hs h b hb
  | drop hb' hr =>
    simp only [dropBlock, Dict.get?_erase] at hb
    split at hb
    · cases hb
    · exact hs h b hb
  | books hc hblocks hl hu =>
    rw [hblocks] at hb
    exact hs h b hb

/-! ### The scan -/

/-- What the scan finds is the last stored hash of the list. -/
theorem longestHit_spec {blocks : Dict Bytes CacheBlock} {hashes : List Bytes} {index : Nat}
    {hit : Option (CacheBlock × Nat)} {b : CacheBlock} {k : Nat}
    (h : longestHit blocks index hashes hit = some (b, k)) :
    (hit = some (b, k) ∧ ∀ (j : Nat) x, hashes[j]? = some x → blocks.get? x = none) ∨
      ∃ i x, k = index + i + 1 ∧ hashes[i]? = some x ∧ blocks.get? x = some b ∧
        ∀ (j : Nat) y, i < j → hashes[j]? = some y → blocks.get? y = none := by
  induction hashes generalizing index hit with
  | nil => exact Or.inl ⟨h, by simp⟩
  | cons x xs ih =>
    unfold longestHit at h
    rcases ih h with ⟨hhit, hnone⟩ | ⟨i, y, hk, hy, hb, hrest⟩
    · cases hx : blocks.get? x with
      | none =>
        rw [hx] at hhit
        refine Or.inl ⟨hhit, ?_⟩
        intro j y hj
        cases j with
        | zero =>
          obtain rfl : x = y := by simpa using hj
          exact hx
        | succ j => exact hnone j y (by simpa using hj)
      | some b' =>
        rw [hx] at hhit
        obtain ⟨rfl, rfl⟩ := Prod.mk.inj (Option.some.inj hhit)
        refine Or.inr ⟨0, x, by omega, rfl, hx, ?_⟩
        intro j y hj hy
        cases j with
        | zero => omega
        | succ j => exact hnone j y (by simpa using hy)
    · refine Or.inr ⟨i + 1, y, by omega, by simpa using hy, hb, ?_⟩
      intro j z hj hz
      cases j with
      | zero => omega
      | succ j => exact hrest j z (by omega) (by simpa using hz)

/-- A hit of `lookup` is the lease on the last stored hash. -/
theorem lookup_hit {hashes : List Bytes} {secs now : Int} {id : String} {s s' : PrefixCacheStore} {l : PrefixLease}
    (h : (lookup hashes secs now id).run s = (.ok l, s')) (hk : 0 < l.hitBlockCount) :
    ∃ i x b, l.hitBlockCount = i + 1 ∧ hashes[i]? = some x ∧ s.blocks.get? x = some b ∧
      l.hitTokenCount = b.tokenCount ∧ l.blockHashes = [b.blockHash] ∧ l.payloadSha256 = b.payloadSha256 ∧
      ∀ (j : Nat) y, i < j → hashes[j]? = some y → s.blocks.get? y = none := by
  unfold lookup at h
  split at h
  · cases (Prod.mk.inj h).1
  · rw [Proc.run_modify_bind, Proc.run_get_bind] at h
    cases hh : longestHit (s.expireLeases now).blocks 0 hashes none with
    | none =>
      rw [hh] at h
      obtain rfl := Except.ok.inj (Prod.mk.inj h).1
      simp at hk
    | some p =>
      obtain ⟨b, k⟩ := p
      rw [hh] at h
      obtain rfl := Except.ok.inj (Prod.mk.inj h).1
      rcases longestHit_spec hh with ⟨hnone, -⟩ | ⟨i, x, hki, hx, hb, hrest⟩
      · cases hnone
      · exact ⟨i, x, b, by simpa [leaseOn] using hki, hx, hb, rfl, rfl, rfl, hrest⟩

/-! ### Snapshots and boundaries -/

theorem Prompt.Snapshot.spec {p : Prompt} {i : Nat} {payload : Bytes} {b : CacheBlock} (h : p.Snapshot i payload b) :
    (∃ hs, p.hashes = .ok hs ∧ hs[i]? = some b.blockHash) ∧ b.tokenCount = ((p.upTo i).length : Int) ∧
      0 < p.size ∧ i * p.size < p.tokenIds.length := by
  obtain ⟨hs, x, hhs, hx, hb⟩ := h
  unfold CacheBlock.create at hb
  split at hb
  · cases hb
  split at hb
  · cases hb
  obtain rfl := Except.ok.inj hb
  obtain ⟨hpos, es, hes, rfl⟩ := chainedBlockHashes_ok hhs
  refine ⟨⟨_, hhs, hx⟩, ?_, hpos, ?_⟩
  · have hcast : p.compatibility.blockSizeTokens = (p.size : Int) := by
      have : 0 < p.compatibility.blockSizeTokens.toNat := hpos
      unfold Prompt.size
      omega
    have hmul : ((i : Int) + 1) * (p.size : Int) = ((i + 1) * p.size : Nat) := by simp
    simp only [Prompt.upTo, List.length_take, hcast, hmul]
    omega
  · -- the boundary has a hash, so there is a block for it
    rw [HashChain.getElem?_tips] at hx
    split at hx <;> [rename_i hil; cases hx]
    rw [chainBlocks, List.length_map, length_encodeBlocks hes, length_tokenBlocks] at hil
    have hmul := (Nat.le_div_iff_mul_le hpos).1 (Nat.succ_le_of_lt hil)
    rw [Nat.succ_mul] at hmul
    unfold Prompt.size
    omega

/-- The tokens of a snapshot that are tokens of another prompt up to a boundary of it are its tokens up to the same
boundary. -/
theorem upTo_eq_of_take {p q : Prompt} {i m : Nat} (hpq : p.size = q.size)
    (hi : i * p.size < p.tokenIds.length) (h : p.upTo i = q.tokenIds.take (m * q.size)) : p.upTo i = q.upTo i := by
  have hlen := congrArg List.length h
  unfold Prompt.upTo at h hlen ⊢
  rw [hpq] at h hlen hi ⊢
  simp only [List.length_take] at hlen
  rw [h, List.take_eq_take_iff]
  have hsucc : (i + 1) * q.size = i * q.size + q.size := Nat.succ_mul i q.size
  rcases Nat.le_total ((i + 1) * q.size) p.tokenIds.length with hle | hle
  · rw [← hlen]
    rw [Nat.min_eq_left hle] at hlen ⊢
    omega
  · -- a tail block ends inside a block, so the other list ends there too
    rcases Nat.le_total (m * q.size) q.tokenIds.length with hm | hm
    · rw [Nat.min_eq_right hle, Nat.min_eq_left hm] at hlen
      have him : i < m := Nat.lt_of_mul_lt_mul_right (a := q.size) (by omega)
      have hmi : (i + 1) * q.size ≤ m * q.size := Nat.mul_le_mul_right q.size him
      omega
    · omega

/-- What a hit means.  Where no digest that occurs collides or is all zero, a hit of `k` blocks is the lease on a stored
snapshot of a prompt published under the same compatibility tuple and key, whose tokens are the first
`min (k * block_size) len` tokens of the request; no stored snapshot of such a prompt is a longer prefix of the request at
a block boundary; and the snapshots of a prompt under another tuple or key have none of the requested hashes. -/
theorem lookup_longest_prefix {c : CacheCompatibility} {n : Int} {nodeId : String} {s : PrefixCacheStore}
    (hs : create c n nodeId = .ok s) {P : List Prompt} {run : List CacheEvent} (hrun : ∀ e ∈ run, Publishes P c e)
    {q : Prompt} {hashes : List Bytes} (hq : q.hashes = .ok hashes)
    (hN : NoCollision fun x => ∃ p ∈ q :: P, x ∈ hashInputs p.tokenIds p.compatibility p.hmacKey)
    {secs now : Int} {id : String} {l : PrefixLease}
    (hl : ((lookup hashes secs now id).run (Machine.final step s run)).1 = .ok l) (hk : 0 < l.hitBlockCount) :
    let t := Machine.final step s run;
    let len := min (l.hitBlockCount * q.size) q.tokenIds.length;
    (∃ p ∈ P, p.compatibility = q.compatibility ∧ p.hmacKey = q.hmacKey ∧ ∃ i payload b, p.Snapshot i payload b ∧
      t.blocks.get? b.blockHash = some b ∧ l.blockHashes = [b.blockHash] ∧ l.payloadSha256 = b.payloadSha256 ∧
      p.upTo i = q.tokenIds.take len) ∧
    l.hitTokenCount = len ∧
    (∀ p ∈ P, p.compatibility = q.compatibility → p.hmacKey = q.hmacKey → ∀ i payload b, p.Snapshot i payload b →
      t.blocks.get? b.blockHash = some b → ∀ m, p.upTo i = q.tokenIds.take (m * q.size) → (p.upTo i).length ≤ len) ∧
    ∀ p ∈ P, p.compatibility ≠ q.compatibility ∨ p.hmacKey ≠ q.hmacKey → ∀ i payload b, p.Snapshot i payload b →
      b.blockHash ∉ hashes := by
  intro t len
  have hsound := final_sound hs run
  have hfilled : Filled P t := by
    obtain ⟨-, rfl⟩ := create_ok hs
    have h0 := (final_sound hs []).1
    refine final_of_closed (fun e he => filled_closed fun b hb => published_of_stores (hrun e he) hb) h0 rfl ?_
    intro h b hb
    cases hb
  -- a snapshot under one of the requested hashes is one of the request, at the same boundary
  have hmatch : ∀ p ∈ P, ∀ i payload b, p.Snapshot i payload b → ∀ j : Nat, hashes[j]? = some b.blockHash →
      p.compatibility = q.compatibility ∧ p.hmacKey = q.hmacKey ∧ i = j ∧ p.upTo i = q.upTo i := by
    intro p hp i payload b hb j hj
    obtain ⟨⟨hs', hhs', hi⟩, -, -, -⟩ := hb.spec
    obtain ⟨hc, hkey, hij, htake⟩ := boundary_inj hN (fun x hx => ⟨p, List.mem_cons_of_mem _ hp, hx⟩)
      (fun x hx => ⟨q, by simp, hx⟩) hhs' hq hi hj
    refine ⟨hc, hkey, hij, ?_⟩
    unfold Prompt.upTo Prompt.size
    rw [← hc]
    exact htake
  have hl' : (lookup hashes secs now id).run t = (.ok l, ((lookup hashes secs now id).run t).2) := Prod.ext hl rfl
  obtain ⟨i, x, b, hki, hx, hb, htokens, hlh, hld, hlast⟩ := lookup_hit hl' hk
  have hbx : b.blockHash = x := hsound.1.keyed x b hb
  obtain ⟨p, hp, i', payload, hsnap⟩ := hfilled x b hb
  obtain ⟨hc, hkey, rfl, hupTo⟩ := hmatch p hp i' payload b hsnap i (by rw [hbx]; exact hx)
  have hqlen : q.upTo i' = q.tokenIds.take len := by
    unfold Prompt.upTo
    rw [List.take_eq_take_iff, ← hki]
    omega
  refine ⟨⟨p, hp, hc, hkey, i', payload, b, hsnap, by rw [hbx]; exact hb, hlh, hld, hupTo.trans hqlen⟩, ?_, ?_, ?_⟩
  · rw [htokens, hsnap.spec.2.1, hupTo, hqlen, List.length_take]
    congr 1
    omega
  · intro p' hp' hc' hkey' j payload' b' hsnap' hb' m hm
    obtain ⟨⟨hs', hhs', hj⟩, -, -, hjlt⟩ := hsnap'.spec
    have hsz : p'.size = q.size := by unfold Prompt.size; rw [hc']
    have hup := upTo_eq_of_take hsz hjlt hm
    -- the same tokens up to the boundary have the same hash, which is stored
    have hqj : hashes[j]? = some b'.blockHash := by
      unfold Prompt.hashes at hhs' hq
      rw [hc', hkey'] at hhs'
      refine hash_congr hhs' hq ?_ hj
      unfold Prompt.upTo at hup
      rw [hsz] at hup
      exact hup
    have hji : j ≤ i' := by
      by_contra hlt
      have := hlast j b'.blockHash (by omega) hqj
      rw [hb'] at this
      cases this
    have hmono : (j + 1) * q.size ≤ (i' + 1) * q.size := Nat.mul_le_mul_right q.size (by omega)
    rw [hup, Prompt.upTo, List.length_take]
    simp only [len, hki]
    omega
  · intro p' hp' hne j payload' b' hsnap' hmem
    obtain ⟨m, hm, hget⟩ := List.getElem_of_mem hmem
    obtain ⟨hc', hkey', -, -⟩ := hmatch p' hp' j payload' b' hsnap' m (by rw [List.getElem?_eq_getElem hm, hget])
    rcases hne with h | h
    · exact h hc'
    · exact h hkey'

/-- Inputs whose digests start with distinct non-zero bytes do not collide. -/
private theorem noCollision_of_heads {L : List (Bytes × Bytes)} (bytes : List UInt8)
    (h : (L.map fun x => (keyedDigest x.1 x.2).head?) = bytes.map some) (hnd : bytes.Nodup) (hz : (0 : UInt8) ∉ bytes) :
    NoCollision (· ∈ L) := by
  have hnd' : (L.map fun x => (keyedDigest x.1 x.2).head?).Nodup := by
    rw [h]
    exact List.Nodup.map (fun _ _ => Option.some.inj) hnd
  constructor
  · intro x y hx hy hxy
    refine List.inj_on_of_nodup_map hnd' hx hy ?_
    rw [hxy]
  · intro x hx hxz
    have hm := List.mem_map_of_mem (f := fun x => (keyedDigest x.1 x.2).head?) hx
    rw [h, hxz] at hm
    exact hz (by simpa [zeros32] using hm)

/-- A prompt of three tokens in blocks of two: one whole block and a tail. -/
def shortPrompt : Prompt := ⟨{ modelId := "m", blockSizeTokens := 2 }, [], [7, 8, 9]⟩

private theorem shortPrompt_noCollision :
    NoCollision (· ∈ hashInputs shortPrompt.tokenIds shortPrompt.compatibility shortPrompt.hmacKey) := by
  refine noCollision_of_heads [88, 78, 61] ?_ (by decide) (by decide)
  decide +kernel

/-- The store after the prompt was published into it. -/
def shortStore : PrefixCacheStore :=
  Machine.final step { compatibility := shortPrompt.compatibility, maxBytes := 6, nodeId := "n" }
    [.putPrefix [7, 8, 9] [[1], [2]] fun _ => 0]

/-- The blocks that a request for the prompt hits. -/
def shortHit : Option Nat :=
  match shortPrompt.hashes with
  | .error _ => none
  | .ok hashes =>
    match ((lookup hashes 30 1 "lease").run shortStore).1 with
    | .error _ => none
    | .ok l => some l.hitBlockCount

/-- A published prompt is hit as a whole, with its tail block. -/
theorem lookup_hits_tail_block :
    ∃ hashes l, shortPrompt.hashes = .ok hashes ∧ ((lookup hashes 30 1 "lease").run shortStore).1 = .ok l ∧
      l.hitBlockCount = 2 ∧ l.hitTokenCount = 3 ∧
      ∃ i payload b, shortPrompt.Snapshot i payload b ∧ l.blockHashes = [b.blockHash] ∧ shortPrompt.upTo i = [7, 8, 9] := by
  have hhit : shortHit = some 2 := by decide +kernel
  unfold shortHit at hhit
  split at hhit
  · cases hhit
  rename_i hashes hq
  split at hhit
  · cases hhit
  rename_i l hl
  have hk := Option.some.inj hhit
  have hS : NoCollision fun x => ∃ p ∈ shortPrompt :: [shortPrompt],
      x ∈ hashInputs p.tokenIds p.compatibility p.hmacKey := by
    have h := shortPrompt_noCollision
    refine ⟨fun x y hx hy => h.1 x y ?_ ?_, fun x hx => h.2 x ?_⟩ <;> simp_all
  obtain ⟨⟨p, hp, -, -, i, payload, b, hb, -, hlb, -, hup⟩, hcount, -⟩ :=
    lookup_longest_prefix (c := shortPrompt.compatibility) (n := 6) (s := _) (P := [shortPrompt]) (q := shortPrompt)
      (rfl : create shortPrompt.compatibility 6 "n" = .ok _)
      (by intro e he; rw [List.mem_singleton.1 he]; exact List.mem_singleton.2 rfl) hq hS hl (by omega)
  obtain rfl := List.mem_singleton.1 hp
  rw [hk] at hcount hup
  exact ⟨hashes, l, hq, hl, hk, hcount, i, payload, b, hb, hlb, hup⟩

end PrefixCacheStore

end KakeyaEngine
