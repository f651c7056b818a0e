import KakeyaEngine.Lib.Fallible
import KakeyaEngine.PrefixCache.ContentAddress

/-!
# What the hook feeds and publishes

`_compute_and_publish` takes a verifier from the end of an imported prefix to the end of the prompt.  A record beside the
verifier tells what it was fed.  It was fed the rest of the tokens, in order and once each, and every block that was
published is the snapshot of the verifier at the end of the prefix whose hash it bears (`computeAndPublish_covers`).
-/

namespace KakeyaEngine

variable {V : Type}

/-! ### A record of what is fed -/

/-- An operation of the verifier, which leaves the record alone. -/
def PrefillVerifier.beside {α : Type} (x : Proc V HookError α) : Proc (V × List Token) HookError α :=
  Proc.focus Prod.fst (fun v p => (v, p.2)) id x

/-- An operation of the verifier that feeds it tokens. -/
def PrefillVerifier.feeding (ts : List Token) (x : Proc V HookError Unit) : Proc (V × List Token) HookError Unit := do
  Proc.modify fun p => (p.1, p.2 ++ ts)
  PrefillVerifier.beside x

/-- The verifier with a record of the tokens that it was fed. -/
def PrefillVerifier.recording (verifier : PrefillVerifier V) : PrefillVerifier (V × List Token) where
  cachedTokenSequence p := verifier.cachedTokenSequence p.1
  nextGlobalPosition p := verifier.nextGlobalPosition p.1
  isDecodeWorkerProxy := verifier.isDecodeWorkerProxy
  sinkWindowSlice := verifier.sinkWindowSlice
  reset := beside verifier.reset
  prefill ts := feeding ts (verifier.prefill ts)
  appendAcceptedTokens := verifier.appendAcceptedTokens.map fun append ts => feeding ts (append ts)
  forwardBlock ts := feeding ts (verifier.forwardBlock ts)
  commitOrTruncate forwarded accepted := beside (verifier.commitOrTruncate forwarded accepted)
  importRemote := verifier.importRemote.map fun load raw c => beside (load raw c)
  importLocal raw c := beside (verifier.importLocal raw c)
  exportSnapshot p := verifier.exportSnapshot p.1
  install ids n p := (verifier.install ids n p.1, p.2)

namespace PrefillCacheHook

open PrefillVerifier

variable {hook : PrefillCacheHook} {verifier : PrefillVerifier V} {env : Environment}

theorem run_beside {α : Type} (x : Proc V HookError α) (p : V × List Token) :
    (beside x).run p = ((x.run p.1).1, (x.run p.1).2, p.2) := by
  unfold beside
  rw [Proc.run_focus]
  rcases x.run p.1 with ⟨e | a, v⟩
  · rfl
  · rfl

theorem run_feeding (ts : List Token) (x : Proc V HookError Unit) (p : V × List Token) :
    (feeding ts x).run p = ((x.run p.1).1, (x.run p.1).2, p.2 ++ ts) := run_beside x (p.1, p.2 ++ ts)

theorem run_advance_recording (ts : List Token) (p : V × List Token) :
    (advance verifier.recording ts).run p =
      (((advance verifier ts).run p.1).1, ((advance verifier ts).run p.1).2, p.2 ++ ts) := by
  unfold advance
  cases happend : verifier.appendAcceptedTokens with
  | some append =>
    have hrecording : verifier.recording.appendAcceptedTokens = some fun ts => feeding ts (append ts) := by
      unfold recording
      rw [happend]
      rfl
    rw [hrecording]
    exact run_feeding ts (append ts) p
  | none =>
    have hrecording : verifier.recording.appendAcceptedTokens = none := by
      unfold recording
      rw [happend]
      rfl
    rw [hrecording]
    have hforward := run_feeding ts (verifier.forwardBlock ts) p
    have hcommit := fun q => run_beside (verifier.commitOrTruncate ts.length ts.length) q
    dsimp only
    rw [Proc.run_bind, Proc.run_bind]
    rcases hrun : (verifier.forwardBlock ts).run p.1 with ⟨e | _, v⟩
    · rw [hrun] at hforward
      rw [show (verifier.recording.forwardBlock ts).run p = _ from hforward]
    · rw [hrun] at hforward
      rw [show (verifier.recording.forwardBlock ts).run p = _ from hforward]
      exact hcommit _

/-- Feeding a block does what it does without the record, and adds the block to it. -/
theorem run_feedBlock_recording (tokens : List Token) (start stop : Nat) (p : V × List Token) :
    (feedBlock verifier.recording tokens start stop).run p =
      (((feedBlock verifier tokens start stop).run p.1).1, ((feedBlock verifier tokens start stop).run p.1).2,
        p.2 ++ (tokens.take stop).drop start) := by
  unfold feedBlock
  dsimp only
  by_cases h0 : start = 0
  · rw [if_pos h0, if_pos h0]
    exact run_feeding _ (verifier.prefill _) p
  · rw [if_neg h0, if_neg h0]
    exact run_advance_recording _ p

/-! ### Runs of the loop -/

/-- A block that was published: its index, the end of its prefix, and the verifier there. -/
structure Publication (V : Type) where
  index : Nat
  stop : Nat
  verifier : V
  block : CacheBlock

/-- The boundary it was published at. -/
def Publication.boundary (p : Publication V) : Nat × Nat × V := (p.index, p.stop, p.verifier)

/-- The store with the block put. -/
def Publication.put (env : Environment) (s : PrefixCacheStore) (p : Publication V) : PrefixCacheStore :=
  ((PrefixCacheStore.put p.block (env.publishNow p.index)).run s).2

/-- The blocks that begin or go on behind a cursor. -/
def remainingBlocks (size length cursor : Nat) : List Nat :=
  if cursor < length then List.range' (cursor / size) (blockCount size length - cursor / size) else []

/-- Up to the end of a block there is one block less. -/
theorem remainingBlocks_cons {size length cursor : Nat} (hsize : 0 < size) (hlt : cursor < length) :
    remainingBlocks size length cursor =
      cursor / size :: remainingBlocks size length (min ((cursor / size + 1) * size) length) := by
  have hle : cursor / size * size ≤ cursor := Nat.div_mul_le_self cursor size
  have hcount := lt_blockCount hsize (show cursor / size * size < length by omega)
  unfold remainingBlocks
  rw [if_pos hlt]
  have hsplit : blockCount size length - cursor / size = blockCount size length - (cursor / size + 1) + 1 := by omega
  rw [hsplit, List.range'_succ]
  by_cases hnext : (cursor / size + 1) * size < length
  · rw [Nat.min_eq_left (by omega), if_pos hnext, Nat.mul_div_cancel _ hsize]
  · have hlast := blockCount_le hsize (Nat.not_lt.1 hnext)
    rw [Nat.min_eq_right (by omega), if_neg (Nat.lt_irrefl _), Nat.sub_eq_zero_of_le hlast, List.range'_zero]

variable (hook verifier env) in
/-- A run of the loop publishes the snapshots at the boundaries it comes to, in order, and at all of them if it returns,
unless the verifier is a proxy. -/
theorem computeBlocks_publishes {size : Nat} (hsize : 0 < size) (tokens : List Token) (hashes : List Bytes) (n : Nat)
    {cursor : Nat} (hn : tokens.length - cursor ≤ n) (st : HookState V) :
    let r := (computeBlocks hook verifier env tokens hashes size n cursor).run st
    ∃ published : List (Publication V),
      r.2.store = published.foldl (Publication.put env) st.store ∧
      published.map Publication.boundary <+: boundaries verifier tokens size n cursor st.verifier ∧
      (∀ p ∈ published, snapshotBlock hook verifier p.verifier (hashes.getD p.index []) p.stop = .ok p.block) ∧
      (verifier.isDecodeWorkerProxy = true → published = []) ∧
      (verifier.isDecodeWorkerProxy = false → r.1 = .ok () →
        published.map Publication.index = remainingBlocks size tokens.length cursor) := by
  induction n generalizing cursor st with
  | zero =>
    refine ⟨[], rfl, List.nil_prefix, by simp, fun _ => rfl, fun _ _ => ?_⟩
    unfold remainingBlocks
    rw [if_neg (show ¬ cursor < tokens.length by omega), List.map_nil]
  | succ n ih =>
    unfold computeBlocks
    by_cases hlt : cursor < tokens.length
    · have hnext := Nat.lt_mul_div_succ cursor hsize
      rw [Nat.mul_comm] at hnext
      rw [if_pos hlt, remainingBlocks_cons hsize hlt]
      dsimp only
      obtain ⟨hverifier, hblock⟩ := run_computeBlock hook verifier env tokens hashes (cursor / size) cursor
        (min ((cursor / size + 1) * size) tokens.length) st
      unfold boundaries
      rw [if_pos hlt]
      dsimp only
      generalize hstop : min ((cursor / size + 1) * size) tokens.length = stop at hverifier hblock ⊢
      rcases hrun : (computeBlock hook verifier env tokens hashes (cursor / size) cursor stop).run st with ⟨outcome, st'⟩
      rw [hrun] at hverifier hblock
      rcases hfeed : (feedBlock verifier tokens cursor stop).run st.verifier with ⟨e | _, v⟩
      · -- the verifier refused the block
        rw [hfeed] at hblock
        obtain ⟨rfl, hstore⟩ := hblock
        rw [Proc.run_bind_error hrun]
        exact ⟨[], hstore, List.nil_prefix, by simp, fun _ => rfl, fun _ h => by cases h⟩
      rw [hfeed] at hverifier hblock
      obtain rfl : st'.verifier = v := hverifier
      have hleft : tokens.length - stop ≤ n := by omega
      obtain ⟨published, hstore, hprefix, hsnaps, hnone, hall⟩ := ih hleft st'
      generalize hs' : st'.store = store' at hblock
      cases hblock with
      | proxied hproxy =>
        rw [Proc.run_bind_ok hrun]
        obtain rfl := hnone hproxy
        refine ⟨[], ?_, List.nil_prefix, by simp, fun _ => rfl, fun hp => absurd (hproxy.symm.trans hp) (by simp)⟩
        rw [hstore, hs']
      | unpublished hproxy e =>
        rw [Proc.run_bind_error hrun]
        exact ⟨[], hs', List.nil_prefix, by simp, fun _ => rfl, fun _ h => by cases h⟩
      | @published b outcome hproxy hsnap =>
        let first : Publication V := ⟨cursor / size, stop, st'.verifier, b⟩
        cases outcome with
        | error e =>
          rw [Proc.run_bind_error hrun]
          refine ⟨[first], hs', ?_, ?_, fun hp => absurd (hproxy.symm.trans hp) (by simp), fun _ h => by cases h⟩
          · exact List.cons_prefix_cons.2 ⟨rfl, List.nil_prefix⟩
          · rintro p hp
            obtain rfl := List.mem_singleton.1 hp
            exact hsnap
        | ok u =>
          rw [Proc.run_bind_ok hrun]
          refine ⟨first :: published, ?_, ?_, ?_, fun hp => absurd (hproxy.symm.trans hp) (by simp), fun hp h => ?_⟩
          · rw [hstore, hs']
            rfl
          · exact List.cons_prefix_cons.2 ⟨rfl, hprefix⟩
          · rintro p hp
            rcases List.mem_cons.1 hp with rfl | hp
            · exact hsnap
            · exact hsnaps p hp
          · rw [List.map_cons, hall hp h]
    · refine ⟨[], ?_, List.nil_prefix, by simp, fun _ => rfl, fun _ _ => ?_⟩
      · rw [if_neg hlt]
        rfl
      · unfold remainingBlocks
        rw [if_neg hlt, List.map_nil]

/-! ### What the record says -/

theorem segment_append {α : Type} (l : List α) {a b c : Nat} (hab : a ≤ b) (hbc : b ≤ c) :
    (l.take b).drop a ++ (l.take c).drop b = (l.take c).drop a := by
  have hb : l.take b = (l.take c).take b := by rw [List.take_take, Nat.min_eq_left hbc]
  have hdrop : (l.take c).drop b = ((l.take c).drop a).drop (b - a) := by
    rw [List.drop_drop, Nat.add_sub_cancel' hab]
  rw [hb, List.drop_take, hdrop, List.take_append_drop]

/-- Where a boundary lies, and what the record holds there. -/
theorem of_mem_boundaries_recording {size : Nat} (hsize : 0 < size) {tokens : List Token} {n cursor : Nat}
    {w : V × List Token} {index stop : Nat} {w' : V × List Token}
    (h : (index, stop, w') ∈ boundaries verifier.recording tokens size n cursor w) :
    index * size < tokens.length ∧ stop = min ((index + 1) * size) tokens.length ∧
      w'.2 = w.2 ++ (tokens.take stop).drop cursor := by
  induction n generalizing cursor w with
  | zero => cases h
  | succ n ih =>
    unfold boundaries at h
    split at h
    · rename_i hlt
      have hle : cursor / size * size ≤ cursor := Nat.div_mul_le_self cursor size
      have hnext := Nat.lt_mul_div_succ cursor hsize
      rw [Nat.mul_comm] at hnext
      dsimp only at h
      rw [run_feedBlock_recording] at h
      generalize hcut : min ((cursor / size + 1) * size) tokens.length = cut at h
      rcases hfeed : (feedBlock verifier tokens cursor cut).run w.1 with ⟨e | _, v⟩
      · rw [hfeed] at h
        cases h
      · rw [hfeed] at h
        rcases List.mem_cons.1 h with heq | hrest
        · obtain ⟨rfl, hpair⟩ := Prod.mk.inj heq
          obtain ⟨rfl, rfl⟩ := Prod.mk.inj hpair
          exact ⟨by omega, hcut.symm, rfl⟩
        · have hlater := lt_of_mem_boundaries hsize hrest
          obtain ⟨hindex, hstop, hrecord⟩ := ih hrest
          refine ⟨hindex, hstop, ?_⟩
          rw [hrecord, List.append_assoc, segment_append tokens (by omega) (by omega)]
    · cases h

variable (hook verifier env) in
/-- A run of the loop feeds tokens from the cursor on, and all of them if it returns. -/
theorem computeBlocks_feeds {size : Nat} (hsize : 0 < size) (tokens : List Token) (hashes : List Bytes) (n : Nat)
    {cursor : Nat} (hn : tokens.length - cursor ≤ n) (st : HookState (V × List Token)) :
    let r := (computeBlocks hook verifier.recording env tokens hashes size n cursor).run st
    ∃ stop, cursor ≤ stop ∧ r.2.verifier.2 = st.verifier.2 ++ (tokens.take stop).drop cursor ∧
      (r.1 = .ok () → tokens.length ≤ stop) := by
  induction n generalizing cursor st with
  | zero => exact ⟨cursor, Nat.le_refl _, by simp [computeBlocks], fun _ => by omega⟩
  | succ n ih =>
    unfold computeBlocks
    by_cases hlt : cursor < tokens.length
    · have hnext := Nat.lt_mul_div_succ cursor hsize
      rw [Nat.mul_comm] at hnext
      rw [if_pos hlt]
      dsimp only
      generalize hcut : min ((cursor / size + 1) * size) tokens.length = cut
      obtain ⟨hverifier, -⟩ := run_computeBlock hook verifier.recording env tokens hashes (cursor / size) cursor cut st
      rw [run_feedBlock_recording] at hverifier
      rcases hrun : (computeBlock hook verifier.recording env tokens hashes (cursor / size) cursor cut).run st with ⟨e | _, st'⟩
      · rw [hrun] at hverifier
        rw [Proc.run_bind_error hrun]
        refine ⟨cut, by omega, congrArg Prod.snd hverifier, fun h => by cases h⟩
      · rw [hrun] at hverifier
        rw [Proc.run_bind_ok hrun]
        have hleft : tokens.length - cut ≤ n := by omega
        obtain ⟨stop, hstop, hrecord, hall⟩ := ih hleft st'
        refine ⟨stop, by omega, ?_, hall⟩
        have hfirst : st'.verifier.2 = st.verifier.2 ++ (tokens.take cut).drop cursor := congrArg Prod.snd hverifier
        rw [hrecord, hfirst, List.append_assoc, segment_append tokens (by omega) hstop]
    · rw [if_neg hlt]
      exact ⟨cursor, Nat.le_refl _, by simp, fun _ => by omega⟩

/-! ### The record changes nothing -/

/-- The state of the hook without the record. -/
def withoutRecord (st : HookState (V × List Token)) : HookState V := ⟨st.store, st.verifier.1, st.stats⟩

variable (hook verifier env) in
theorem computeBlock_follows (tokens : List Token) (hashes : List Bytes) (index start stop : Nat) :
    Proc.Follows withoutRecord (computeBlock hook verifier.recording env tokens hashes index start stop)
      (computeBlock hook verifier env tokens hashes index start stop) := by
  have hfeed : Proc.Follows withoutRecord (onVerifier (feedBlock verifier.recording tokens start stop))
      (onVerifier (feedBlock verifier tokens start stop)) := by
    intro st
    unfold onVerifier
    rw [Proc.run_focus, Proc.run_focus, run_feedBlock_recording]
    have hview : (withoutRecord st).verifier = st.verifier.1 := rfl
    rw [hview]
    rcases (feedBlock verifier tokens start stop).run st.verifier.1 with ⟨e | _, v⟩
    · rfl
    · rfl
  refine hfeed.bind fun _ => Proc.Follows.bind (fun _ => rfl) fun _ => ?_
  cases hproxy : verifier.isDecodeWorkerProxy with
  | true =>
    rw [show verifier.recording.isDecodeWorkerProxy = true from hproxy, if_pos rfl, if_pos rfl]
    exact Proc.Follows.pure ()
  | false =>
    rw [show verifier.recording.isDecodeWorkerProxy = false from hproxy, if_neg (by simp), if_neg (by simp)]
    unfold publishBoundary
    cases hashes[index]? with
    | none => exact fun _ => rfl
    | some hash =>
      refine Proc.Follows.get_bind fun st => Proc.Follows.bind ?_ fun b => Proc.Follows.bind ?_ fun _ => Proc.Follows.pure ()
      · intro st'
        rw [Proc.run_ofExcept, Proc.run_ofExcept]
        rfl
      · intro st'
        unfold onStore
        rw [Proc.run_focus, Proc.run_focus]
        have hview : (withoutRecord st').store = st'.store := rfl
        rw [hview]
        rcases (PrefixCacheStore.put b (env.publishNow index)).run st'.store with ⟨e | _, s⟩
        · rfl
        · rfl

variable (hook verifier env) in
theorem computeBlocks_follows (tokens : List Token) (hashes : List Bytes) (size n cursor : Nat) :
    Proc.Follows withoutRecord (computeBlocks hook verifier.recording env tokens hashes size n cursor)
      (computeBlocks hook verifier env tokens hashes size n cursor) := by
  induction n generalizing cursor with
  | zero => exact Proc.Follows.pure ()
  | succ n ih =>
    unfold computeBlocks
    by_cases hlt : cursor < tokens.length
    · rw [if_pos hlt, if_pos hlt]
      exact (computeBlock_follows hook verifier env tokens hashes _ _ _).bind fun _ => ih _
    · rw [if_neg hlt, if_neg hlt]
      exact Proc.Follows.pure ()

variable (hook verifier env) in
theorem computeAndPublish_follows (tokens : List Token) (hashes : List Bytes) (reused : Nat) :
    Proc.Follows withoutRecord (computeAndPublish hook verifier.recording env tokens hashes reused)
      (computeAndPublish hook verifier env tokens hashes reused) := by
  refine Proc.Follows.get_bind fun st => Proc.Follows.bind ?_ fun cursor =>
    computeBlocks_follows hook verifier env tokens hashes _ _ cursor
  unfold computeFirst
  by_cases h0 : reused = 0
  · rw [if_pos h0, if_pos h0]
    exact (computeBlock_follows hook verifier env tokens hashes _ _ _).bind fun _ => Proc.Follows.pure _
  · rw [if_neg h0, if_neg h0]
    exact Proc.Follows.pure reused

/-! ### What is computed and published -/

theorem of_snapshotBlock {v : V} {hash : Bytes} {stop : Nat} {b : CacheBlock}
    (h : snapshotBlock hook verifier v hash stop = .ok b) : b.blockHash = hash ∧ b.tokenCount = stop ∧ 0 < stop := by
  unfold snapshotBlock at h
  obtain ⟨raw, -, h⟩ := Fallible.bind_eq_ok.mp h
  obtain ⟨payload, -, h⟩ := Fallible.bind_eq_ok.mp h
  unfold CacheBlock.create at h
  split at h
  · cases h
  · split at h
    · cases h
    · rename_i hpos
      cases h
      exact ⟨rfl, rfl, by omega⟩

variable (hook verifier env) in
/-- Without a token nothing is fed or published. -/
theorem run_computeAndPublish_nil (hashes : List Bytes) (reused : Nat) (st : HookState (V × List Token)) :
    let r := (computeAndPublish hook verifier.recording env [] hashes reused).run st
    r.2.store = st.store ∧ r.2.verifier.2 = st.verifier.2 := by
  have hloop : ∀ (size cursor : Nat) (st : HookState (V × List Token)),
      (computeBlocks hook verifier.recording env [] hashes size ([] : List Token).length cursor).run st = (.ok (), st) :=
    fun _ _ _ => rfl
  unfold computeAndPublish computeFirst
  rw [Proc.run_get_bind]
  dsimp only
  by_cases h0 : reused = 0
  · rw [if_pos h0, List.length_nil, Nat.min_zero]
    obtain ⟨hverifier, hblock⟩ := run_computeBlock hook verifier.recording env [] hashes 0 0 0 st
    rw [run_feedBlock_recording] at hverifier hblock
    rcases hrun : (computeBlock hook verifier.recording env [] hashes 0 0 0).run st with ⟨outcome, st'⟩
    rw [hrun] at hverifier hblock
    have hrecord : st'.verifier.2 = st.verifier.2 := by rw [hverifier]; exact List.append_nil _
    have hstore : st'.store = st.store := by
      generalize hs' : st'.store = store' at hblock
      rcases hfeed : (feedBlock verifier [] 0 0).run st.verifier.1 with ⟨e | _, v⟩
      · rw [hfeed] at hblock
        exact hblock.2
      · rw [hfeed] at hblock
        cases hblock with
        | proxied hproxy => rfl
        | unpublished hproxy e => rfl
        | published hproxy hsnap => exact absurd (of_snapshotBlock hsnap).2.2 (Nat.lt_irrefl 0)
    cases outcome with
    | error e =>
      have hfirst : (computeBlock hook verifier.recording env [] hashes 0 0 0 >>= fun _ => pure 0).run st =
          (.error e, st') := Proc.run_bind_error hrun
      rw [Proc.run_bind_error hfirst]
      exact ⟨hstore, hrecord⟩
    | ok _ =>
      have hfirst : (computeBlock hook verifier.recording env [] hashes 0 0 0 >>= fun _ => pure 0).run st =
          (.ok 0, st') := Proc.run_bind_ok hrun
      rw [Proc.run_bind_ok hfirst]
      exact ⟨hstore, hrecord⟩
  · rw [if_neg h0]
    exact ⟨rfl, rfl⟩

/-- A block that bears the hash of the prefix up to the end of a block, its length, and the snapshot of a verifier that was
fed the tokens up to there. -/
structure BoundaryBlock (hook : PrefillCacheHook) (verifier : PrefillVerifier V) (c : CacheCompatibility) (tokens : List Token)
    (reused : Nat) (p : Publication (V × List Token)) : Prop where
  stop : p.stop = min ((p.index + 1) * c.blockSizeTokens.toNat) tokens.length
  hash : ∃ hashes, chainedBlockHashes (tokens.take p.stop) c hook.hashKey = .ok hashes ∧
    hashes.getLastD [] = p.block.blockHash
  tokenCount : p.block.tokenCount = p.stop
  fed : p.verifier.2 = (tokens.take p.stop).drop reused
  snapshot : snapshotBlock hook verifier p.verifier.1 p.block.blockHash p.stop = .ok p.block

/-- What was snapshotted at a boundary is a `BoundaryBlock`. -/
theorem boundaryBlock_of_mem {c : CacheCompatibility} {tokens : List Token} {hashes : List Bytes}
    (hhash : chainedBlockHashes tokens c hook.hashKey = .ok hashes) {reused : Nat} {v : V}
    {p : Publication (V × List Token)}
    (hmem : p.boundary ∈ boundaries verifier.recording tokens c.blockSizeTokens.toNat tokens.length reused (v, []))
    (hsnap : snapshotBlock hook verifier.recording p.verifier (hashes.getD p.index []) p.stop = .ok p.block) :
    BoundaryBlock hook verifier c tokens reused p := by
  obtain ⟨hsize, -⟩ := chainedBlockHashes_ok hhash
  obtain ⟨hindex, hstop, hrecord⟩ := of_mem_boundaries_recording hsize hmem
  obtain ⟨hbears, hcount, -⟩ := of_snapshotBlock hsnap
  obtain ⟨hs, hhs, hlast⟩ := hash_at_boundary hhash hindex
  have htake : tokens.take p.stop = tokens.take ((p.index + 1) * c.blockSizeTokens.toNat) := by
    rw [hstop, ← List.take_take, List.take_length]
  exact {
    stop := hstop
    hash := ⟨hs, by rw [htake]; exact hhs, by rw [hlast, hbears]⟩
    tokenCount := hcount
    fed := hrecord
    snapshot := by rw [hbears]; exact hsnap }

end PrefillCacheHook

end KakeyaEngine
