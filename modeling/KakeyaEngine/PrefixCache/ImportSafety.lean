import KakeyaEngine.PrefixCache.LongestPrefix
import KakeyaEngine.PrefixCache.Transparency

/-!
# The import of a snapshot is safe

A payload may come from anywhere, so `_try_import` checks what it restored against the prompt before it counts it as
reused: the boundary, the chained hash, the logits, and the tokens of the sink and the window.  Whatever fails on the
way ends in the handler, which drops a local block and resets the verifier.

Every hit that the hook makes names the chained hash of its boundary (`made_onChain`), so the comparison with the hash of
the hit is one with the prompt.  Two checks are left to the worker when the verifier is a proxy: a state from it counts
as one with logits, and a state without a block hash counts as one with the hash of the hit.
-/

namespace KakeyaEngine

namespace PrefixCacheStore

/-- What a sound store serves for a lease are the blocks of the lease. -/
theorem fetch_serves {s s' : PrefixCacheStore} (hs : s.Sound) {l : PrefixLease}
    (hl : s.leases.get? l.leaseId = some l) {now : Int} {bs : List CacheBlock}
    (h : (fetch l.leaseId now).run s = (.ok bs, s')) : bs.map CacheBlock.blockHash = l.blockHashes := by
  obtain ⟨-, bs', hholds⟩ := hs.holds hl
  by_cases hn : now ≤ l.expiresAtUnix
  · have hserved := hholds.fetch hn
    rw [h] at hserved
    obtain rfl := Except.ok.inj hserved
    exact hholds.hashes
  · have hgone : (s.expireLeases now).leases.get? l.leaseId = none := by
      rw [Option.eq_none_iff_forall_ne_some]
      intro l' hl'
      obtain ⟨hl', hn'⟩ := get?_expireLeases.1 hl'
      rw [hl] at hl'
      obtain rfl := Option.some.inj hl'
      exact hn hn'
    unfold fetch at h
    rw [Proc.run_modify_bind, Proc.run_get_bind, hgone] at h
    cases (Prod.mk.inj h).1

/-- `invalidate` returns, and the hash has no block after it. -/
theorem run_invalidate (h : Bytes) (s : PrefixCacheStore) :
    ∃ r s', (invalidate h).run s = (.ok r, s') ∧ s'.blocks.get? h = none := by
  unfold invalidate
  rw [Proc.run_get_bind]
  cases hb : s.blocks.get? h with
  | none => exact ⟨false, s, rfl, hb⟩
  | some b => exact ⟨true, s.dropBlock h b, rfl, by simp [dropBlock]⟩

end PrefixCacheStore

namespace PrefillCacheHook

variable {V : Type} {hook : PrefillCacheHook} {verifier : PrefillVerifier V} {env : Environment} {c : CacheCompatibility}

/-! ### The hits that are made -/

/-- A hit on a boundary that names the chained hash of it. -/
def OnChain (hashes : List Bytes) (hit : Hit) : Prop :=
  ∃ i, hit.hitBlocks = i + 1 ∧ hashes[i]? = some hit.blockHash

/-- A hit that the hook makes for the hashes of a prompt: the best one among its store and the peers, or that of a
completed job. -/
inductive Makes (V : Type) (hook : PrefillCacheHook) (c : CacheCompatibility) (hashes : List Bytes) : Hit → Prop
  | found {env : Environment} {st st' : HookState V} {hit : Hit} (hst : Stored c (fun _ => True) st)
      (h : (bestHit hook env hashes).run st = (.ok (some hit), st')) : Makes V hook c hashes hit
  | computed {env : Environment} {tokens : List Token} {st st' : HookState V} {hit : Hit}
      (h : (computeRemote env tokens hashes).run st = (.ok (some hit), st')) : Makes V hook c hashes hit

private theorem lookupPeer_onChain {hashes : List Bytes} {peer : String} {reply : Option LookupReply} {hit : Hit}
    (h : lookupPeer hashes peer reply = some hit) : OnChain hashes hit := by
  cases reply with
  | none => cases h
  | some r =>
    unfold lookupPeer at h
    dsimp only at h
    split at h
    · cases h
    rename_i hcount
    split at h
    · cases h
    rename_i hlen
    obtain rfl := Option.some.inj h
    have hlt : r.hitBlockCount - 1 < hashes.length := by omega
    refine ⟨r.hitBlockCount - 1, ?_, ?_⟩
    · dsimp only
      omega
    · dsimp only
      rw [List.getD_eq_getElem?_getD, List.getElem?_eq_getElem hlt, Option.getD_some]

private theorem localCandidate_onChain {hashes : List Bytes} {st st' : HookState V} {hits : List Hit}
    (hst : Stored c (fun _ => True) st) (h : (localCandidate env hashes).run st = (.ok hits, st')) :
    ∀ hit ∈ hits, OnChain hashes hit := by
  have hrun := PrefixCacheStore.run_lookup (show (0 : Int) < 30 by decide) hashes env.lookupNow env.leaseId st.store
  have hlookup : Proc.Keeps PrefixCacheStore.Sound (PrefixCacheStore.lookup hashes 30 env.lookupNow env.leaseId) :=
    PrefixCacheStore.lookup_keeps (PrefixCacheStore.sound_closed PrefixCacheStore.anyRights) (fun _ hs => hs.keyed)
      trivial trivial
  have hkeep := hlookup st.store hst.sound
  unfold localCandidate onStore at h
  cases hlong : PrefixCacheStore.longestHit st.store.blocks 0 hashes none with
  | none =>
    rw [hlong] at hrun
    rw [Proc.run_bind_ok (Proc.run_focus_ok hrun), if_pos rfl] at h
    obtain rfl := Except.ok.inj (Prod.mk.inj h).1
    simp
  | some p =>
    obtain ⟨b, k⟩ := p
    obtain ⟨hnone, -⟩ | ⟨i, x, hk, hx, hb, -⟩ := PrefixCacheStore.longestHit_spec hlong
    · cases hnone
    rw [hlong] at hrun
    rw [hrun] at hkeep
    rw [Proc.run_bind_ok (Proc.run_focus_ok hrun)] at h
    dsimp only at h hkeep
    generalize hl : st.store.leaseOn env.leaseId b k (env.lookupNow + 30) = l at h hkeep
    have hid : l.leaseId = env.leaseId := by rw [← hl]; rfl
    have hone : l.blockHashes = [b.blockHash] := by rw [← hl]; rfl
    have hcount : l.hitBlockCount = k := by rw [← hl]; rfl
    rw [if_neg (by rw [hid]; exact env.leaseId_ne), ← hid] at h
    rw [← hid] at hkeep
    obtain ⟨blocks, t, hfetch, hrest⟩ := Proc.of_run_bind_ok h
    rw [Proc.run_focus] at hfetch
    dsimp only at hfetch
    split at hfetch <;> [rename_i bs s' hserved; cases (Prod.mk.inj hfetch).1]
    obtain rfl := Except.ok.inj (Prod.mk.inj hfetch).1
    have hblocks := PrefixCacheStore.fetch_serves hkeep (Dict.get?_set_self _ _ _) hserved
    -- the lease covers the block of the hash that was found, and nothing else
    obtain ⟨served, rfl, hsame⟩ := List.map_eq_singleton_iff.1 (hblocks.trans hone)
    obtain rfl := Except.ok.inj (Prod.mk.inj hrest).1
    intro hit hhit
    obtain rfl := List.mem_singleton.1 hhit
    refine ⟨i, ?_, ?_⟩
    · dsimp only
      omega
    · show hashes[i]? = some served.blockHash
      rw [hsame, hst.sound.keyed x b hb]
      exact hx

private theorem pollJob_onChain {tokens : List Token} {hashes : List Bytes} {worker : String}
    {replies : List (Except HookError JobStatus)} {st st' : HookState V} {hit : Hit}
    (h : (pollJob tokens hashes worker replies).run st = (.ok hit, st')) : OnChain hashes hit := by
  induction replies generalizing st with
  | nil => cases (Prod.mk.inj h).1
  | cons reply replies ih =>
    unfold pollJob at h
    obtain ⟨status, t, -, h⟩ := Proc.of_run_bind_ok h
    obtain ⟨_, t, -, h⟩ := Proc.of_run_bind_ok h
    split at h
    · cases hlast : hashes.getLast? with
      | none =>
        rw [hlast] at h
        cases (Prod.mk.inj h).1
      | some last =>
        rw [hlast] at h
        obtain rfl := Except.ok.inj (Prod.mk.inj h).1
        have hne : 0 < hashes.length := by
          cases hashes with
          | nil => cases hlast
          | cons x xs => simp
        refine ⟨hashes.length - 1, ?_, ?_⟩
        · dsimp only
          omega
        · dsimp only
          rw [← hlast, List.getLast?_eq_getElem?]
    all_goals first | exact ih h | cases (Prod.mk.inj h).1

private theorem maxHit_mem {hits : List Hit} {hit : Hit} (h : maxHit hits = some hit) : hit ∈ hits := by
  cases hits with
  | nil => cases h
  | cons first rest =>
    unfold maxHit at h
    obtain rfl := Option.some.inj h
    clear h
    induction rest generalizing first with
    | nil => simp
    | cons next rest ih =>
      rw [List.foldl_cons]
      split
      · exact List.mem_cons_of_mem _ (ih next)
      · rcases List.mem_cons.1 (ih first) with hfirst | hrest
        · rw [hfirst]
          exact List.mem_cons_self ..
        · exact List.mem_cons_of_mem _ (List.mem_cons_of_mem _ hrest)

/-- Every hit that is made names the chained hash of its boundary. -/
theorem made_onChain {hashes : List Bytes} {hit : Hit} (h : Makes V hook c hashes hit) : OnChain hashes hit := by
  cases h with
  | found hst h =>
    rename_i env st st'
    unfold bestHit at h
    obtain ⟨hits, t, hlocal, h⟩ := Proc.of_run_bind_ok h
    have hall : ∀ x ∈ hits ++ env.peerReplies.filterMap fun p => lookupPeer hashes p.1 p.2, OnChain hashes x := by
      intro x hx
      rcases List.mem_append.1 hx with hx | hx
      · exact localCandidate_onChain hst hlocal x hx
      · obtain ⟨p, -, hp⟩ := List.mem_filterMap.1 hx
        exact lookupPeer_onChain hp
    dsimp only at h
    split at h
    · cases (Prod.mk.inj h).1
    rename_i best hbest
    split at h
    · exact hall hit (List.mem_of_find?_eq_some (Except.ok.inj (Prod.mk.inj h).1))
    · obtain rfl := Option.some.inj (Except.ok.inj (Prod.mk.inj h).1)
      exact hall best (maxHit_mem hbest)
  | computed h =>
    unfold computeRemote at h
    split at h
    · cases (Prod.mk.inj h).1
    · dsimp only at h
      rw [Proc.run_handle] at h
      split at h
      · rename_i hjob
        obtain rfl := Except.ok.inj (Prod.mk.inj h).1
        obtain ⟨_, t, -, hjob⟩ := Proc.of_run_bind_ok hjob
        obtain ⟨_, t, -, hjob⟩ := Proc.of_run_bind_ok hjob
        obtain ⟨made, t, hpoll, hjob⟩ := Proc.of_run_bind_ok hjob
        obtain rfl := Option.some.inj (Except.ok.inj (Prod.mk.inj hjob).1)
        exact pollJob_onChain hpoll
      · cases (Prod.mk.inj h).1

/-! ### What an import is taken for -/

/-- The verifier restores a snapshot from a state: a proxy with its own import, another verifier after a reset. -/
inductive Yields (verifier : PrefillVerifier V) (c : CacheCompatibility) (raw : Bytes) (v : V) :
    ImportedSnapshot → V → Prop
  | remote {f : Bytes → CacheCompatibility → Proc V HookError ImportedSnapshot} {i : ImportedSnapshot} {v' : V}
      (hf : verifier.importRemote = some f) (h : (f raw c).run v = (.ok i, v')) : Yields verifier c raw v i v'
  | restored {i : ImportedSnapshot} {v₁ v' : V} (hf : verifier.importRemote = none)
      (hreset : verifier.reset.run v = (.ok (), v₁)) (h : (verifier.importLocal raw c).run v₁ = (.ok i, v')) :
      Yields verifier c raw v i v'

/-- A snapshot of the first `r` tokens of a prompt.  What a proxy does not report is not compared. -/
structure Matches (hook : PrefillCacheHook) (verifier : PrefillVerifier V) (c : CacheCompatibility)
    (tokens : List Token) (r : Nat) (i : ImportedSnapshot) : Prop where
  count : i.tokenCount = r
  hash : ∃ hashes x, chainedBlockHashes (tokens.take r) c hook.hashKey = .ok hashes ∧ hashes.getLast? = some x ∧
    (i.blockHash = some x ∨ verifier.importRemote.isSome ∧ i.blockHash = none)
  logits : verifier.importRemote.isSome ∨ i.hasLogits = true
  cached : i.cachedTokenIds = (verifier.sinkWindowSlice.getD id) (tokens.take r)

/-- An import from a state that reused `r` tokens: they end at the boundary of the hit, the snapshot is one of them, and
the verifier was left with their sink and window. -/
structure Imported (hook : PrefillCacheHook) (verifier : PrefillVerifier V) (c : CacheCompatibility)
    (tokens : List Token) (hit : Hit) (v : V) (r : Nat) (v' : V) : Prop where
  positive : 0 < r
  boundary : r = min (hit.hitBlocks * c.blockSizeTokens.toNat) tokens.length
  snapshot : ∃ raw i w, Yields verifier c raw v i w ∧ Matches hook verifier c tokens r i
  cached : verifier.cachedTokenSequence v' = (verifier.sinkWindowSlice.getD id) (tokens.take r)
  position : verifier.nextGlobalPosition v' = r

/-- A hit that was given up: the reset of the verifier ran last, with this outcome, and a local block is gone. -/
structure GivenUp (verifier : PrefillVerifier V) (hit : Hit) (outcome : Except HookError Unit) (st : HookState V) :
    Prop where
  reset : ∃ v, verifier.reset.run v = (outcome, st.verifier)
  invalidated : hit.source = "local" → st.store.blocks.get? hit.blockHash = none

/-- The assignments to the attributes of the verifier can be read back. -/
def ReadsBack (verifier : PrefillVerifier V) : Prop :=
  ∀ ids n v, verifier.cachedTokenSequence (verifier.install ids n v) = ids ∧
    verifier.nextGlobalPosition (verifier.install ids n v) = n

/-- What `_try_import` works on after the import of a snapshot: a proxy's state is completed with the hash of the hit. -/
def Reported (verifier : PrefillVerifier V) (c : CacheCompatibility) (raw : Bytes) (hit : Hit) (v : V)
    (j : ImportedSnapshot) (w : V) : Prop :=
  ∃ i, Yields verifier c raw v i w ∧ j.tokenCount = i.tokenCount ∧ j.cachedTokenIds = i.cachedTokenIds ∧
    ((verifier.importRemote.isSome ∧ j.blockHash = some (i.blockHash.getD hit.blockHash)) ∨ j = i)

private theorem importSnapshot_reports (raw : Bytes) (hit : Hit) (v : V) :
    Proc.Ensures (Stored c fun w : V => w = v) (importSnapshot verifier raw hit)
      (fun j st => Stored c (Reported verifier c raw hit v j) st) (fun _ _ => True) := by
  intro st hst
  unfold importSnapshot
  rw [Proc.run_get_bind, hst.compatibility]
  cases him : verifier.importRemote with
  | some f =>
    refine Proc.Ensures.bind ((onVerifier_ensures (R := fun i w => Yields verifier c raw v i w) ?_).mono
      (fun _ h => h) (fun _ _ h => h) fun _ _ _ => trivial) (fun i => Proc.Ensures.pure fun st h => ?_) st hst
    · rintro w w' i rfl hr
      exact .remote him hr
    · exact ⟨h.sound, h.compatibility, ⟨i, h.verifier, rfl, rfl, Or.inl ⟨by rw [him]; rfl, rfl⟩⟩⟩
  | none =>
    refine Proc.Ensures.bind ((onVerifier_ensures (R := fun _ w => verifier.reset.run v = (.ok (), w)) ?_).mono
      (fun _ h => h) (fun _ _ h => h) fun _ _ _ => trivial) (fun _ => ?_) st hst
    · rintro w w' _ rfl hr
      exact hr
    · refine (onVerifier_ensures (R := fun i w => Reported verifier c raw hit v i w) ?_).mono (fun _ h => h)
        (fun _ _ h => h) fun _ _ _ => trivial
      intro w w' i hw hr
      exact ⟨i, .restored him hw hr, rfl, rfl, Or.inr rfl⟩

/-- The hash of a hit is the last one of the tokens before its boundary. -/
private theorem OnChain.last {tokens : List Token} {hashes : List Bytes} {hit : Hit} (h : OnChain hashes hit)
    (hh : chainedBlockHashes tokens c hook.hashKey = .ok hashes) :
    ∃ upto, chainedBlockHashes (tokens.take (min (hit.hitBlocks * c.blockSizeTokens.toNat) tokens.length)) c
        hook.hashKey = .ok upto ∧ upto.getLast? = some hit.blockHash := by
  obtain ⟨i, hi, hx⟩ := h
  refine ⟨hashes.take hit.hitBlocks, ?_, ?_⟩
  · rw [← List.take_eq_take_min]
    exact chainedBlockHashes_take hh _
  · have hlt : i < hashes.length := (List.getElem?_eq_some_iff.1 hx).1
    rw [List.getLast?_eq_getElem?, List.length_take, hi, Nat.min_eq_left (by omega), List.getElem?_take_of_lt (by omega)]
    exact hx

private theorem OnChain.hash_ne {tokens : List Token} {hashes : List Bytes} {hit : Hit} (h : OnChain hashes hit)
    (hh : chainedBlockHashes tokens c hook.hashKey = .ok hashes) : hit.blockHash ≠ [] := by
  obtain ⟨i, -, hx⟩ := h
  have hlen := length_of_mem_chainedBlockHashes hh (List.mem_iff_getElem?.2 ⟨i, hx⟩)
  intro hnil
  rw [hnil] at hlen
  cases hlen

variable (hook env) in
/-- An import that passes the checks restored the tokens up to the boundary of the hit. -/
private theorem importHit_imports (hv : ReadsBack verifier) {tokens : List Token} {hashes : List Bytes} {hit : Hit}
    (hh : chainedBlockHashes tokens c hook.hashKey = .ok hashes) (hon : OnChain hashes hit) (v : V) :
    Proc.Ensures (Stored c fun w : V => w = v) (importHit hook verifier env tokens hit)
      (fun r st => Stored c (Imported hook verifier c tokens hit v r) st) (fun _ _ => True) := by
  have hsize := (chainedBlockHashes_ok hh).1
  have hne := hon.hash_ne hh
  obtain ⟨upto, hupto, hlast⟩ := hon.last hh
  have hkeep : ∀ {α : Type} {x : HookProc V α} {Q : V → Prop}, Proc.Keeps (Stored c Q) x →
      Proc.Ensures (Stored c Q) x (fun _ st => Stored c Q st) (fun _ _ => True) :=
    fun h => (Proc.Keeps.ensures h).mono (fun _ h => h) (fun _ _ h => h) fun _ _ _ => trivial
  intro st hst
  unfold importHit
  rw [Proc.run_get_bind]
  dsimp only
  rw [hst.compatibility]
  split
  · trivial
  rename_i hbound
  split
  · trivial
  refine Proc.Ensures.bind (hkeep (hitPayload_keeps hit)) (fun payload => ?_) st hst
  split
  · exact Proc.Ensures.raise fun _ _ => trivial
  refine Proc.Ensures.bind (hkeep (ofExcept_keeps _)) fun raw => ?_
  refine Proc.Ensures.bind (importSnapshot_reports raw hit v) fun j => ?_
  split
  · exact Proc.Ensures.raise fun _ _ => trivial
  rename_i hcount
  split
  · exact Proc.Ensures.raise fun _ _ => trivial
  rename_i hhash
  split
  · exact Proc.Ensures.raise fun _ _ => trivial
  rename_i hlogits
  split
  · exact Proc.Ensures.raise fun _ _ => trivial
  rename_i hids
  rw [not_not] at hids
  simp only [not_or, not_not] at hcount hbound
  have hcast : ((hit.hitBlocks * c.blockSizeTokens.toNat : Nat) : Int) = hit.hitBlocks * c.blockSizeTokens := by
    rw [Int.natCast_mul, Int.toNat_of_nonneg (by omega)]
  have hr : min j.tokenCount.toNat tokens.length = min (hit.hitBlocks * c.blockSizeTokens.toNat) tokens.length := by
    omega
  generalize hreused : min j.tokenCount.toNat tokens.length = r at hids hr ⊢
  refine Proc.Ensures.bind (Q := fun _ st => Stored c (Imported hook verifier c tokens hit v r) st)
    (Proc.Ensures.modify fun s hs => ⟨hs.sound, hs.compatibility, ?_⟩) fun _ => ?_
  · obtain ⟨i, hyields, htokens, hcached, hreport⟩ := hs.verifier
    have hfound : j.blockHash.getD [] = hit.blockHash := by
      by_contra hdiff
      exact hhash ⟨hne, hdiff⟩
    refine ⟨by omega, hr, ⟨raw, i, s.verifier, hyields, ?_, ⟨upto, hit.blockHash, ?_, hlast, ?_⟩, ?_, ?_⟩, ?_, ?_⟩
    · rw [← htokens]
      omega
    · rw [hr]
      exact hupto
    · rcases hreport with ⟨hproxy, hj⟩ | rfl
      · rw [hj, Option.getD_some] at hfound
        cases hi : i.blockHash with
        | none => exact Or.inr ⟨hproxy, rfl⟩
        | some x =>
          rw [hi, Option.getD_some] at hfound
          exact Or.inl (by rw [hfound])
      · cases hj : j.blockHash with
        | none =>
          rw [hj] at hfound
          exact absurd hfound.symm hne
        | some x =>
          rw [hj, Option.getD_some] at hfound
          exact Or.inl (by rw [hfound])
    · rcases hreport with ⟨hproxy, -⟩ | rfl
      · exact Or.inl hproxy
      · exact Or.inr (by simpa using hlogits)
    · rw [← hcached, hids]
    · rw [(hv _ _ _).1, hids]
    · exact (hv _ _ _).2
  · refine Proc.Ensures.bind (hkeep (count_keeps _)) fun _ => ?_
    refine Proc.Ensures.bind (hkeep (reportReuse_keeps _)) fun _ => ?_
    refine Proc.Ensures.bind (hkeep (creditHit_keeps hit payload _)) fun _ => ?_
    exact Proc.Ensures.pure fun _ h => h

/-- The handler drops a local block and ends with the reset of the verifier. -/
private theorem invalidateHit_drops {hit : Hit} (hne : hit.blockHash ≠ []) (st : HookState V) :
    ∃ st', (invalidateHit hit).run st = (.ok (), st') ∧
      (hit.source = "local" → st'.store.blocks.get? hit.blockHash = none) := by
  unfold invalidateHit
  split
  · obtain ⟨r, s', hrun, hgone⟩ := PrefixCacheStore.run_invalidate hit.blockHash st.store
    refine ⟨{ st with store := s' }, ?_, fun _ => hgone⟩
    unfold onStore
    rw [Proc.run_bind_ok (Proc.run_focus_ok hrun)]
    rfl
  · rename_i hother
    exact ⟨st, rfl, fun hlocal => absurd ⟨hlocal, hne⟩ hother⟩

variable (hook env) in
/-- Whatever hit is made for a prompt and whatever comes of fetching, unpacking and importing it, `_try_import` either
reuses the tokens up to the boundary of the hit, with a snapshot of them imported, or it gives the hit up: the last thing
that ran is the reset of the verifier, whose exception is the only one that leaves, and a local block is gone. -/
theorem import_is_safe (hv : ReadsBack verifier) {tokens : List Token} {hashes : List Bytes} {hit : Hit}
    (hh : chainedBlockHashes tokens c hook.hashKey = .ok hashes) (hmade : Makes V hook c hashes hit) {st : HookState V}
    (hst : Stored c (fun _ => True) st) :
    (∃ r st', (tryImport hook verifier env tokens hit).run st = (.ok r, st') ∧
      (Imported hook verifier c tokens hit st.verifier r st'.verifier ∨ r = 0 ∧ GivenUp verifier hit (.ok ()) st')) ∨
    ∃ e st', (tryImport hook verifier env tokens hit).run st = (.error e, st') ∧
      GivenUp verifier hit (.error e) st' := by
  have hon := made_onChain hmade
  have himport := importHit_imports hook env hv hh hon st.verifier st ⟨hst.sound, hst.compatibility, rfl⟩
  unfold tryImport
  rw [Proc.run_handle]
  rcases hr : (importHit hook verifier env tokens hit).run st with ⟨e | r, s⟩
  · dsimp only
    unfold count
    rw [Proc.run_modify_bind]
    obtain ⟨s', hdrop, hgone⟩ := invalidateHit_drops (hon.hash_ne hh)
      ({ s with
        stats := { s.stats with fallbacks := s.stats.fallbacks + 1, lastFallbackReason := e.describe } } : HookState V)
    rw [Proc.run_bind_ok hdrop]
    rcases hreset : verifier.reset.run s'.verifier with ⟨e' | _, w⟩
    · unfold onVerifier
      rw [Proc.run_bind_error (Proc.run_focus_error hreset)]
      exact Or.inr ⟨e', _, rfl, ⟨_, hreset⟩, hgone⟩
    · unfold onVerifier
      rw [Proc.run_bind_ok (Proc.run_focus_ok hreset)]
      exact Or.inl ⟨0, _, rfl, Or.inr ⟨rfl, ⟨_, hreset⟩, hgone⟩⟩
  · rw [hr] at himport
    exact Or.inl ⟨r, s, rfl, Or.inl himport.verifier⟩

/-! ### A prompt of one token from a peer -/

/-- A proxy of a worker.  While the worker is connected it restores every payload as a state of `[7]`, without a word on
logits or a block hash; afterwards no request to it succeeds. -/
def workerProxy (connected : Bool) : PrefillVerifier (List Token × Nat) :=
  let request : {α : Type} → α → List Token × Nat → Proc (List Token × Nat) HookError α := fun a v =>
    if connected then do
      Proc.modify fun _ => v
      pure a
    else Proc.raise (.raised "DecodeWorkerUnavailable" "decode worker is not connected")
  { cachedTokenSequence := Prod.fst
    nextGlobalPosition := Prod.snd
    isDecodeWorkerProxy := true
    sinkWindowSlice := some (SinkWindow.trim 4 64)
    reset := request () ([], 0)
    prefill := fun ts => request () (SinkWindow.trim 4 64 ts, ts.length)
    appendAcceptedTokens := none
    forwardBlock := fun _ => request () ([], 0)
    commitOrTruncate := fun _ _ => request () ([], 0)
    importRemote := some fun _ _ => request ⟨1, [7], none, false⟩ ([7], 1)
    importLocal := fun _ _ => request ⟨1, [7], none, false⟩ ([7], 1)
    exportSnapshot := fun _ _ _ => .ok []
    install := fun ids n _ => (ids, n) }

/-- A peer that holds an empty payload for the prompt. -/
def peerEnvironment : Environment :=
  { quietEnvironment with
    peerReplies := [("peer:50051", some ⟨1, 1, 0, "lease-1", Sha256.sha256 []⟩)]
    fetchBlocks := fun _ => [.ok ⟨[], 0, 1, [], Sha256.sha256 []⟩] }

/-- A hook that imports from peers. -/
def peerHook : PrefillCacheHook := { plainHook with remoteImportWins := fun _ => true }

/-- The hit on the prompt at the peer. -/
def peerHit (hash : Bytes) : Hit :=
  { source := "peer:50051", leaseId := "lease-1", hitBlocks := 1, hitTokens := 1, transferBytes := 0, blockHash := hash,
    payloadSha256 := Sha256.sha256 [] }

/-- The hook's state around an empty store. -/
def peerState : HookState (List Token × Nat) := ⟨emptyStore 100, ([], 0), {}⟩

/-- The hash of the prompt. -/
def promptHash : Bytes := chainLink zeros32 ⟨[], compatibilityFingerprint { modelId := "m" }, le32 7⟩

/-- How many tokens of the prompt the import of the hit reuses, or the exception that leaves it. -/
def importFromPeer (connected : Bool) : Except HookError Nat :=
  ((tryImport peerHook (workerProxy connected) peerEnvironment [7] (peerHit promptHash)).run peerState).1

private theorem peerState_stored : Stored { modelId := "m" } (fun _ => True) peerState :=
  ⟨⟨(fun _ _ hb => by cases hb), rfl, (fun _ _ hl => by cases hl)⟩, rfl, trivial⟩

private theorem promptHash_chained :
    chainedBlockHashes [7] { modelId := "m" } peerHook.hashKey = .ok [promptHash] := rfl

private theorem peerHit_made : Makes (List Token × Nat) peerHook { modelId := "m" } [promptHash] (peerHit promptHash) := by
  have hlookup := PrefixCacheStore.run_lookup (show (0 : Int) < 30 by decide) [promptHash] peerEnvironment.lookupNow
    peerEnvironment.leaseId peerState.store
  rw [show peerState.store.blocks = Dict.empty from rfl, longestHit_empty] at hlookup
  have hlocal : ∃ st', (localCandidate peerEnvironment [promptHash]).run peerState = (.ok [], st') := by
    unfold localCandidate onStore
    rw [Proc.run_bind_ok (Proc.run_focus_ok hlookup), if_pos rfl]
    exact ⟨_, rfl⟩
  obtain ⟨st', hlocal⟩ := hlocal
  have hpeer : lookupPeer [promptHash] "peer:50051" (some ⟨1, 1, 0, "lease-1", Sha256.sha256 []⟩) =
      some (peerHit promptHash) := by
    unfold lookupPeer
    dsimp only
    rw [if_neg (by decide), if_neg (by simp)]
    rfl
  have hfound : (bestHit peerHook peerEnvironment [promptHash]).run peerState = (.ok (some (peerHit promptHash)), st') := by
    unfold bestHit
    rw [Proc.run_bind_ok hlocal]
    simp only [peerEnvironment, List.nil_append, List.filterMap_cons, hpeer]
    rfl
  exact .found peerState_stored hfound

/-- A peer's snapshot of a prompt of one token is imported safely. -/
theorem peer_import_is_safe :
    (∃ r st', (tryImport peerHook (workerProxy true) peerEnvironment [7] (peerHit promptHash)).run peerState =
        (.ok r, st') ∧
      (Imported peerHook (workerProxy true) { modelId := "m" } [7] (peerHit promptHash) peerState.verifier r
          st'.verifier ∨
        r = 0 ∧ GivenUp (workerProxy true) (peerHit promptHash) (.ok ()) st')) ∨
    ∃ e st', (tryImport peerHook (workerProxy true) peerEnvironment [7] (peerHit promptHash)).run peerState =
        (.error e, st') ∧
      GivenUp (workerProxy true) (peerHit promptHash) (.error e) st' := by
  have hv : ReadsBack (workerProxy true) := fun _ _ _ => ⟨rfl, rfl⟩
  exact import_is_safe peerHook peerEnvironment hv promptHash_chained peerHit_made peerState_stored

/-- A proxy's state without logits and without a block hash is reused, and when the worker is gone the reset raises, so
that no zero is returned. -/
theorem proxy_import_is_trusted :
    Makes (List Token × Nat) peerHook { modelId := "m" } [promptHash] (peerHit promptHash) ∧
    Yields (workerProxy true) { modelId := "m" } [] ([], 0) ⟨1, [7], none, false⟩ ([7], 1) ∧
    importFromPeer true = .ok 1 ∧
    importFromPeer false = .error (.raised "DecodeWorkerUnavailable" "decode worker is not connected") := by
  refine ⟨peerHit_made, .remote rfl rfl, ?_, ?_⟩
  · decide +kernel
  · decide +kernel

end PrefillCacheHook

end KakeyaEngine
