import KakeyaEngine.PrefixCache.Transparency
import KakeyaEngine.Worker.Compute

/-!
# One content address, one snapshot

A snapshot is stored under the hash of its tokens, so whoever computes it should arrive at the same one.  The compute
engine of a worker and the hook of a serving node cut the same tokens at different places, and a cut beyond sink and
window can be seen in the K/V entries that follow it.

`Published` are the snapshots that arise for a token list on any node: computed by a worker, computed by a hook from the
start, or computed by a hook on top of an imported snapshot that arose in the same way.  They agree for every model
exactly when chunks and blocks cut the tokens at the same places beyond sink and window (`one_snapshot_iff`).
-/

namespace KakeyaEngine

/-! ### Where a token list is cut -/

private theorem blocks_succ {n size : Nat} (hn : 0 < n) (hsize : 0 < size) :
    (n + size - 1) / size = (n - size + size - 1) / size + 1 := by
  rcases Nat.le_total n size with h | h
  · have hone : (n + size - 1) / size = 1 := Nat.div_eq_of_lt_le (by omega) (by omega)
    have hzero : (n - size + size - 1) / size = 0 := Nat.div_eq_of_lt (by omega)
    rw [hone, hzero]
  · rw [← Nat.add_div_right _ hsize]
    congr 1
    omega

/-- The blocks of a token list are its first block and the blocks of the rest. -/
theorem tokenBlocks_cons {size : Nat} (hsize : 0 < size) {ts : List Token} (hne : ts ≠ []) :
    tokenBlocks size ts = ts.take size :: tokenBlocks size (ts.drop size) := by
  unfold tokenBlocks
  rw [blocks_succ (List.length_pos_iff.2 hne) hsize, List.range_succ_eq_map, List.length_drop]
  simp only [List.map_cons, List.map_map, Nat.zero_mul, List.drop_zero, List.cons.injEq, true_and]
  apply List.map_congr_left
  intro i _
  simp only [Function.comp_apply, List.drop_drop, Nat.succ_mul, Nat.add_comm]

theorem tokenBlocks_nil {size : Nat} (hsize : 0 < size) : tokenBlocks size [] = [] := by
  unfold tokenBlocks
  rw [List.length_nil, Nat.zero_add, Nat.div_eq_of_lt (by omega)]
  rfl

/-- No block is empty. -/
theorem ne_nil_of_mem_tokenBlocks {size : Nat} (hsize : 0 < size) {ts b : List Token} (hb : b ∈ tokenBlocks size ts) :
    b ≠ [] := by
  induction hn : ts.length using Nat.strong_induction_on generalizing ts with
  | _ n ih =>
    by_cases hne : ts = []
    · rw [hne, tokenBlocks_nil hsize] at hb
      cases hb
    · have hpos := List.length_pos_iff.2 hne
      rw [tokenBlocks_cons hsize hne, List.mem_cons] at hb
      rcases hb with rfl | hb
      · intro h
        have := congrArg List.length h
        rw [List.length_take, List.length_nil] at this
        omega
      · exact ih (ts.drop size).length (by rw [List.length_drop]; omega) hb rfl

/-- Blocks start at the multiples of their size. -/
theorem mem_starts_tokenBlocks {size : Nat} (hsize : 0 < size) (ts : List Token) (pos q : Nat) :
    q ∈ startsFrom pos (tokenBlocks size ts) ↔ ∃ i, q = pos + i * size ∧ i * size < ts.length := by
  induction hn : ts.length using Nat.strong_induction_on generalizing ts pos with
  | _ n ih =>
    by_cases hne : ts = []
    · rw [hne, tokenBlocks_nil hsize]
      subst hne
      constructor
      · intro h
        cases h
      · rintro ⟨i, -, h⟩
        rw [← hn, List.length_nil] at h
        omega
    · have hpos := List.length_pos_iff.2 hne
      rw [tokenBlocks_cons hsize hne]
      simp only [startsFrom, List.mem_cons, List.length_take]
      rw [ih (ts.drop size).length (by rw [List.length_drop]; omega) (ts.drop size) _ rfl, List.length_drop]
      constructor
      · rintro (rfl | ⟨i, rfl, hi⟩)
        · exact ⟨0, by omega, by omega⟩
        · refine ⟨i + 1, ?_, ?_⟩
          · rw [Nat.succ_mul]
            omega
          · rw [Nat.succ_mul]
            omega
      · rintro ⟨i, rfl, hi⟩
        cases i with
        | zero => exact Or.inl (by omega)
        | succ i =>
          rw [Nat.succ_mul] at hi ⊢
          exact Or.inr ⟨i, by omega, by omega⟩

theorem mem_cuts_iff {size : Nat} (hsize : 0 < size) (ts : List Token) (q : Nat) :
    q ∈ startsFrom 0 (tokenBlocks size ts) ↔ size ∣ q ∧ q < ts.length := by
  rw [mem_starts_tokenBlocks hsize]
  constructor
  · rintro ⟨i, rfl, hi⟩
    exact ⟨by rw [Nat.zero_add]; exact Nat.dvd_mul_left size i, by omega⟩
  · rintro ⟨⟨i, rfl⟩, hi⟩
    rw [Nat.mul_comm] at hi
    exact ⟨i, by rw [Nat.zero_add, Nat.mul_comm], hi⟩

/-- The blocks up to the end of a block are those before it and the block. -/
theorem tokenBlocks_concat {size k : Nat} (hsize : 0 < size) {ts : List Token} (hk : k * size < ts.length) :
    tokenBlocks size (ts.take ((k + 1) * size)) =
      tokenBlocks size (ts.take (k * size)) ++ [(ts.take ((k + 1) * size)).drop (k * size)] := by
  have hlt : k < (tokenBlocks size ts).length := by
    rw [length_tokenBlocks, Nat.lt_iff_add_one_le, Nat.le_div_iff_mul_le hsize, Nat.succ_mul]
    omega
  rw [← take_tokenBlocks hsize, ← take_tokenBlocks hsize, List.take_succ_eq_append_getElem hlt]
  congr 2
  rw [List.drop_take, Nat.succ_mul, Nat.add_sub_cancel_left]
  simp [tokenBlocks]

/-! ### The snapshot of a verifier -/

section

variable {κ Λ : Type} {m : KvModel κ Λ} {cfg : VerifierConfig} {c : CacheCompatibility}

/-- The snapshot that is exported when an MLX verifier holds what `u` holds. -/
def snapshotOf (cfg : VerifierConfig) (c : CacheCompatibility) (u : SinkWindowVerifier κ Λ) (tokenCount : Nat)
    (blockHash : Bytes) : SnapshotState κ Λ :=
  { compatibilitySha256 := compatibilityFingerprint c, tokenCount := tokenCount,
    cachedTokenIds := u.cachedTokenSequence, layerCount := cfg.layerCount, entries := u.cache.getD [],
    nextTokenLogits := u.nextTokenLogits, blockHash := blockHash }

theorem exportMlxPrefillSnapshot_eq {v : MLXSinkWindowVerifier κ Λ} {u : SinkWindowVerifier κ Λ} (h : v.Holds u)
    (hu : u.Standing) {n : Nat} (hn : 0 < n) (hash : Bytes) :
    exportMlxPrefillSnapshot cfg c v n hash = .ok (snapshotOf cfg c u n hash) := by
  obtain ⟨entries, tokens, pos, logits, -, rfl⟩ := hu
  unfold exportMlxPrefillSnapshot snapshotOf
  rw [if_neg (by omega), h.cache, h.tokens, h.logits]
  rfl

/-- A snapshot determines what was held at a position. -/
theorem snapshotOf_inj {u u' : SinkWindowVerifier κ Λ} (hu : u.Standing) (hu' : u'.Standing)
    (hpos : u.nextGlobalPosition = u'.nextGlobalPosition) {n : Nat} {hash hash' : Bytes}
    (h : snapshotOf cfg c u n hash = snapshotOf cfg c u' n hash') : u = u' := by
  obtain ⟨entries, tokens, pos, logits, -, rfl⟩ := hu
  obtain ⟨entries', tokens', pos', logits', -, rfl⟩ := hu'
  obtain ⟨-, -, htokens, -, hentries, hlogits, -⟩ := SnapshotState.mk.inj h
  obtain rfl : pos = pos' := hpos
  obtain rfl : tokens = tokens' := htokens
  obtain rfl : entries = entries' := hentries
  obtain rfl : logits = logits' := hlogits
  rfl

/-- An exported snapshot restores what was held. -/
theorem importMlxPrefillSnapshot_eq {u : SinkWindowVerifier κ Λ} (hu : u.Standing) {n : Nat}
    (hpos : u.nextGlobalPosition = n) (hash : Bytes) {v v' : MLXSinkWindowVerifier κ Λ}
    (hv : v.nextTokenLogits = none) {i : ImportedSnapshot}
    (h : (importMlxPrefillSnapshot cfg c (snapshotOf cfg c u n hash)).run v = (.ok i, v')) :
    MLXSinkWindowVerifier.Holds { v' with cachedTokenSequence := i.cachedTokenIds, nextGlobalPosition := n } u := by
  obtain ⟨entries, tokens, pos, logits, -, rfl⟩ := hu
  obtain rfl : pos = n := hpos
  unfold importMlxPrefillSnapshot snapshotOf at h
  dsimp only at h
  rw [if_neg (not_not_intro rfl), if_neg (not_not_intro rfl), Proc.run_modify_bind] at h
  obtain ⟨hi, rfl⟩ := Prod.mk.inj h
  obtain rfl := Except.ok.inj hi
  refine ⟨rfl, rfl, ?_, rfl⟩
  dsimp only
  rw [hv, Option.or_none]

theorem absorbAll_standing (calls : List (List Token)) {u : SinkWindowVerifier κ Λ} (hu : u.Standing) :
    (SinkWindowVerifier.absorbAll m cfg u calls).Standing := by
  induction calls generalizing u with
  | nil => exact hu
  | cons ts calls ih => exact ih (SinkWindowVerifier.absorb_standing m cfg hu ts)

theorem absorbAll_concat (u : SinkWindowVerifier κ Λ) (calls : List (List Token)) (ts : List Token) :
    SinkWindowVerifier.absorbAll m cfg u (calls ++ [ts]) =
      SinkWindowVerifier.absorb m cfg (SinkWindowVerifier.absorbAll m cfg u calls) ts := by
  simp [SinkWindowVerifier.absorbAll]

/-- What a verifier holds that was fed the tokens in blocks of a size. -/
def fed (m : KvModel κ Λ) (cfg : VerifierConfig) (size : Nat) (ts : List Token) : SinkWindowVerifier κ Λ :=
  SinkWindowVerifier.absorbAll m cfg SinkWindowVerifier.empty (tokenBlocks size ts)

variable (m cfg) in
theorem fed_standing (size : Nat) (ts : List Token) : (fed m cfg size ts).Standing :=
  absorbAll_standing _ SinkWindowVerifier.empty_standing

variable (m cfg) in
theorem fed_position {size : Nat} (hsize : 0 < size) (ts : List Token) :
    (fed m cfg size ts).nextGlobalPosition = ts.length := by
  unfold fed
  rw [SinkWindowVerifier.absorbAll_eq fun b hb => ne_nil_of_mem_tokenBlocks hsize hb, flatten_tokenBlocks hsize]
  rfl

end

/-! ### What the engine computes -/

namespace MLXPrefillComputeEngine

variable {κ Λ : Type} {m : KvModel κ Λ} {cfg : VerifierConfig} {engine : MLXPrefillComputeEngine}

open MLXSinkWindowVerifier (Holds)

variable (engine m cfg) in
/-- The chunks of the loop are absorbed one after the other, unless the job is cancelled. -/
theorem computeChunks_cases {tokens : List Token} (cancelled : Nat → Bool) {starts : List Nat}
    (hstarts : ∀ start ∈ starts, start < tokens.length) (n : Nat) {v : MLXSinkWindowVerifier κ Λ}
    {u : SinkWindowVerifier κ Λ} (h : v.Holds u) (hu : u.Standing) :
    (∃ v', (computeChunks engine m cfg tokens cancelled starts n).run v = (.ok (), v') ∧
      v'.Holds (SinkWindowVerifier.absorbAll m cfg u
        (starts.map fun start => (tokens.drop start).take engine.computeChunkTokens))) ∨
    ∃ e v' k, (computeChunks engine m cfg tokens cancelled starts n).run v = (.error e, v') ∧ cancelled k = true := by
  induction starts generalizing n v u with
  | nil => exact Or.inl ⟨v, rfl, h⟩
  | cons start starts ih =>
    unfold computeChunks
    by_cases hc : cancelled n = true
    · rw [if_pos hc]
      exact Or.inr ⟨_, v, n, rfl, hc⟩
    · rw [if_neg hc]
      have hne : (tokens.drop start).take engine.computeChunkTokens ≠ [] := by
        have hlt := hstarts start (by simp)
        have hpos := engine.chunk_pos
        intro hnil
        have := congrArg List.length hnil
        rw [List.length_take, List.length_drop, List.length_nil] at this
        omega
      obtain ⟨v', hrun, hholds⟩ := MLXSinkWindowVerifier.run_commitBlock m cfg h hu hne
      dsimp only
      rw [Proc.run_bind_ok (MLXSinkWindowVerifier.run_outside_ok hrun)]
      exact ih (fun s hs => hstarts s (by simp [hs])) (n + 1) hholds (SinkWindowVerifier.absorb_standing m cfg hu _)

/-- The chunks of the engine are the blocks of its own size. -/
private theorem chunks_eq {tokens : List Token} (hne : tokens ≠ []) :
    tokens.take (min engine.computeChunkTokens tokens.length) ::
        (stepRange (min engine.computeChunkTokens tokens.length) tokens.length engine.computeChunkTokens).map
          (fun start => (tokens.drop start).take engine.computeChunkTokens) =
      tokenBlocks engine.computeChunkTokens tokens := by
  rw [tokenBlocks_cons engine.chunk_pos hne]
  have htake : tokens.take (min engine.computeChunkTokens tokens.length) = tokens.take engine.computeChunkTokens := by
    rw [← List.take_take, List.take_length]
  have hcount : tokens.length - min engine.computeChunkTokens tokens.length =
      (tokens.drop engine.computeChunkTokens).length := by
    rw [List.length_drop]
    omega
  rw [htake]
  congr 1
  unfold stepRange tokenBlocks
  rw [hcount, List.map_map]
  apply List.map_congr_left
  intro i hi
  -- there is a chunk after the first one, so the first one is full
  have hlong : engine.computeChunkTokens ≤ tokens.length := by
    by_contra hlt
    have hz : (tokens.drop engine.computeChunkTokens).length = 0 := by
      rw [List.length_drop]
      omega
    have hpos := engine.chunk_pos
    rw [hz, Nat.div_eq_of_lt (by omega)] at hi
    cases hi
  rw [Function.comp_apply, List.drop_drop, Nat.min_eq_left hlong]

private theorem lt_of_mem_stepRange {start stop step x : Nat} (hstep : 0 < step) (h : x ∈ stepRange start stop step) :
    x < stop := by
  unfold stepRange at h
  obtain ⟨i, hi, rfl⟩ := List.mem_map.1 h
  have hi := List.mem_range.1 hi
  rw [Nat.lt_iff_add_one_le, Nat.le_div_iff_mul_le hstep, Nat.succ_mul] at hi
  omega

variable (engine m cfg) in
/-- The engine exports the state of a verifier that was fed the tokens in chunks, unless the job is cancelled. -/
theorem computeSnapshot_cases {tokens : List Token} (hne : tokens ≠ []) {hashes : List Bytes} (hhashes : hashes ≠ [])
    (hlen : hashes.length = (tokens.length + engine.compatibility.blockSizeTokens.toNat - 1) /
      engine.compatibility.blockSizeTokens.toNat) (cancelled : Nat → Bool) (v : MLXSinkWindowVerifier κ Λ) :
    (∃ v', (computeSnapshot engine m cfg tokens hashes cancelled).run v =
      (.ok (snapshotOf cfg engine.compatibility (fed m cfg engine.computeChunkTokens tokens) tokens.length
        (hashes.getLastD [])), v')) ∨
    ∃ e v' k, (computeSnapshot engine m cfg tokens hashes cancelled).run v = (.error e, v') ∧ cancelled k = true := by
  unfold computeSnapshot
  rw [if_neg (by simp [hne, hhashes])]
  dsimp only
  rw [if_neg (not_not_intro hlen)]
  by_cases hc : cancelled 0 = true
  · rw [if_pos hc]
    exact Or.inr ⟨_, v, 0, rfl, hc⟩
  · rw [if_neg hc]
    have hpos := List.length_pos_iff.2 hne
    have hfirst : tokens.take (min engine.computeChunkTokens tokens.length) ≠ [] := by
      have hchunk := engine.chunk_pos
      intro hnil
      have := congrArg List.length hnil
      rw [List.length_take, List.length_nil] at this
      omega
    obtain ⟨v₁, hrun₁, hholds₁⟩ := MLXSinkWindowVerifier.run_prefill m cfg hfirst v
    rw [Proc.run_bind_ok (MLXSinkWindowVerifier.run_outside_ok hrun₁)]
    have hstanding := SinkWindowVerifier.absorb_standing m cfg SinkWindowVerifier.empty_standing
      (tokens.take (min engine.computeChunkTokens tokens.length))
    have hstarts : ∀ start ∈ stepRange (min engine.computeChunkTokens tokens.length) tokens.length
        engine.computeChunkTokens, start < tokens.length := fun start hs => lt_of_mem_stepRange engine.chunk_pos hs
    rcases computeChunks_cases m cfg engine cancelled hstarts 1 hholds₁ hstanding with
      ⟨v₂, hrun₂, hholds₂⟩ | ⟨e, v₂, k, hrun₂, hk⟩
    · left
      rw [Proc.run_bind_ok hrun₂, Proc.run_get_bind]
      have hfed : v₂.Holds (fed m cfg engine.computeChunkTokens tokens) := by
        unfold fed
        rw [← chunks_eq hne]
        exact hholds₂
      rw [exportMlxPrefillSnapshot_eq hfed (fed_standing m cfg _ tokens) hpos]
      exact ⟨v₂, rfl⟩
    · right
      exact ⟨e, v₂, k, Proc.run_bind_error hrun₂, hk⟩

end MLXPrefillComputeEngine

/-! ### What the hook publishes -/

namespace PrefillCacheHook

variable {V : Type}

/-- The boundaries that the loop of `_compute_and_publish` comes to: the index of the block, its end, and the verifier
there. -/
def boundaries (verifier : PrefillVerifier V) (tokens : List Token) (size : Nat) : Nat → Nat → V → List (Nat × Nat × V)
  | 0, _, _ => []
  | n + 1, cursor, v =>
    if cursor < tokens.length then
      let blockIndex := cursor / size
      let stop := min ((blockIndex + 1) * size) tokens.length
      match (feedBlock verifier tokens cursor stop).run v with
      | (.ok (), v') => (blockIndex, stop, v') :: boundaries verifier tokens size n stop v'
      | (.error _, _) => []
    else []

variable {hook : PrefillCacheHook} {verifier : PrefillVerifier V} {env : Environment}

/-- The boundaries lie behind the cursor. -/
theorem lt_of_mem_boundaries {tokens : List Token} {size : Nat} (hsize : 0 < size) {n cursor : Nat} {v : V}
    {index stop : Nat} {v' : V} (h : (index, stop, v') ∈ boundaries verifier tokens size n cursor v) :
    cursor < stop ∧ stop ≤ tokens.length := by
  induction n generalizing cursor v with
  | zero => cases h
  | succ n ih =>
    unfold boundaries at h
    split at h
    · rename_i hlt
      have hnext := Nat.lt_mul_div_succ cursor hsize
      rw [Nat.mul_comm] at hnext
      dsimp only at h
      split at h
      · rcases List.mem_cons.1 h with heq | hrest
        · obtain ⟨-, hrest⟩ := Prod.mk.inj heq
          obtain ⟨rfl, -⟩ := Prod.mk.inj hrest
          omega
        · have := ih hrest
          omega
      · cases h
    · cases h

/-- What the computation of a block has done: the verifier is the one that was fed the block, and the store has the snapshot
of it in the last case. -/
inductive BlockRun (hook : PrefillCacheHook) (verifier : PrefillVerifier V) (env : Environment) (hashes : List Bytes)
    (index stop : Nat) (store : PrefixCacheStore) (v : V) : Except HookError Unit → PrefixCacheStore → Prop
  | proxied (hproxy : verifier.isDecodeWorkerProxy = true) : BlockRun hook verifier env hashes index stop store v (.ok ()) store
  | unpublished (hproxy : verifier.isDecodeWorkerProxy = false) (e : HookError) :
    BlockRun hook verifier env hashes index stop store v (.error e) store
  | published {b : CacheBlock} {outcome : Except HookError Unit} (hproxy : verifier.isDecodeWorkerProxy = false)
    (hsnap : snapshotBlock hook verifier v (hashes.getD index []) stop = .ok b) :
    BlockRun hook verifier env hashes index stop store v outcome ((PrefixCacheStore.put b (env.publishNow index)).run store).2

/-- Publishing a boundary keeps the verifier. -/
private theorem run_publishBoundary (hproxy : verifier.isDecodeWorkerProxy = false) (hashes : List Bytes) (index stop : Nat)
    (st : HookState V) :
    ((publishBoundary hook verifier env hashes index stop).run st).2.verifier = st.verifier ∧
      BlockRun hook verifier env hashes index stop st.store st.verifier
        ((publishBoundary hook verifier env hashes index stop).run st).1
        ((publishBoundary hook verifier env hashes index stop).run st).2.store := by
  unfold publishBoundary
  cases hhash : hashes[index]? with
  | none => exact ⟨rfl, .unpublished hproxy _⟩
  | some hash =>
    have hgetD : hashes.getD index [] = hash := by
      rw [List.getD_eq_getElem?_getD, hhash, Option.getD_some]
    dsimp only
    rw [Proc.run_get_bind]
    cases hsnap : snapshotBlock hook verifier st.verifier hash stop with
    | error e => exact ⟨rfl, .unpublished hproxy e⟩
    | ok b =>
      rw [Proc.run_bind_ok (Proc.run_ofExcept (.ok b) st)]
      unfold onStore
      rw [Proc.run_bind, Proc.run_focus]
      have hsnap' : snapshotBlock hook verifier st.verifier (hashes.getD index []) stop = .ok b := by rw [hgetD, hsnap]
      have hstore : ∀ outcome, BlockRun hook verifier env hashes index stop st.store st.verifier outcome
          ((PrefixCacheStore.put b (env.publishNow index)).run st.store).2 := fun _ => .published hproxy hsnap'
      rcases hr : (PrefixCacheStore.put b (env.publishNow index)).run st.store with ⟨e | r, s'⟩
      · rw [hr] at hstore
        exact ⟨rfl, hstore _⟩
      · rw [hr] at hstore
        exact ⟨rfl, hstore _⟩

variable (hook verifier env) in
/-- Computing a block feeds it to the verifier and, if that returns, goes on as a `BlockRun`. -/
theorem run_computeBlock (tokens : List Token) (hashes : List Bytes) (index start stop : Nat) (st : HookState V) :
    ((computeBlock hook verifier env tokens hashes index start stop).run st).2.verifier =
        ((feedBlock verifier tokens start stop).run st.verifier).2 ∧
      match ((feedBlock verifier tokens start stop).run st.verifier).1 with
      | .ok () => BlockRun hook verifier env hashes index stop st.store ((feedBlock verifier tokens start stop).run st.verifier).2
        ((computeBlock hook verifier env tokens hashes index start stop).run st).1
        ((computeBlock hook verifier env tokens hashes index start stop).run st).2.store
      | .error e => ((computeBlock hook verifier env tokens hashes index start stop).run st).1 = .error e ∧
        ((computeBlock hook verifier env tokens hashes index start stop).run st).2.store = st.store := by
  unfold computeBlock onVerifier
  rcases hfeed : (feedBlock verifier tokens start stop).run st.verifier with ⟨e | a, v⟩
  · rw [Proc.run_bind_error (Proc.run_focus_error hfeed)]
    exact ⟨rfl, rfl, rfl⟩
  · rw [Proc.run_bind_ok (Proc.run_focus_ok hfeed), count, Proc.run_modify_bind]
    cases hproxy : verifier.isDecodeWorkerProxy with
    | true =>
      rw [if_pos rfl]
      exact ⟨rfl, .proxied hproxy⟩
    | false =>
      rw [if_neg (by simp)]
      exact run_publishBoundary hproxy hashes index stop _

end PrefillCacheHook

/-! ### The snapshots of a token list -/

section

variable {κ Λ : Type}

open PrefillCacheHook (boundaries feedBlock)
open MLXSinkWindowVerifier (prefillVerifier Holds)

/-- The snapshots that arise for a token list.  All nodes have the same model and the same compatibility tuple. -/
inductive Published (m : KvModel κ Λ) (cfg : VerifierConfig) (engine : MLXPrefillComputeEngine) (hashKey : Bytes)
    (wire : WireFormat κ Λ) : List Token → SnapshotState κ Λ → Prop
  /-- A worker computed it. -/
  | remote {tokens hashes cancelled v v' s}
      (hhash : chainedBlockHashes tokens engine.compatibility hashKey = .ok hashes)
      (hrun : (engine.computeSnapshot m cfg tokens hashes cancelled).run v = (.ok s, v')) :
      Published m cfg engine hashKey wire tokens s
  /-- A hook computed it from the start of a prompt. -/
  | computed {tokens hashes v index stop v' s}
      (hhash : chainedBlockHashes tokens engine.compatibility hashKey = .ok hashes)
      (hmem : (index, stop, v') ∈ boundaries (prefillVerifier m cfg engine.compatibility wire) tokens
        engine.compatibility.blockSizeTokens.toNat tokens.length 0 v)
      (hexport : exportMlxPrefillSnapshot cfg engine.compatibility v' stop (hashes.getD index []) = .ok s) :
      Published m cfg engine hashKey wire (tokens.take stop) s
  /-- A hook imported a snapshot of a prefix that ends a block, and computed it from there. -/
  | resumed {tokens hashes k s₀ v imported v₁ index stop v' s}
      (hhash : chainedBlockHashes tokens engine.compatibility hashKey = .ok hashes)
      (hfrom : Published m cfg engine hashKey wire
        (tokens.take (k * engine.compatibility.blockSizeTokens.toNat)) s₀)
      (himport : ((prefillVerifier m cfg engine.compatibility wire).reset >>= fun _ =>
        importMlxPrefillSnapshot cfg engine.compatibility s₀).run v = (.ok imported, v₁))
      (hmem : (index, stop, v') ∈ boundaries (prefillVerifier m cfg engine.compatibility wire) tokens
        engine.compatibility.blockSizeTokens.toNat tokens.length (k * engine.compatibility.blockSizeTokens.toNat)
        ((prefillVerifier m cfg engine.compatibility wire).install imported.cachedTokenIds
          (k * engine.compatibility.blockSizeTokens.toNat) v₁))
      (hexport : exportMlxPrefillSnapshot cfg engine.compatibility v' stop (hashes.getD index []) = .ok s) :
      Published m cfg engine hashKey wire (tokens.take stop) s

variable {m : KvModel κ Λ} {cfg : VerifierConfig} {engine : MLXPrefillComputeEngine} {hashKey : Bytes}
  {wire : WireFormat κ Λ} {c : CacheCompatibility} {size : Nat}

/-- A verifier that has been fed the first `k` blocks; at the start it may be any. -/
private def FedUpTo (m : KvModel κ Λ) (cfg : VerifierConfig) (size : Nat) (tokens : List Token) (k : Nat)
    (v : MLXSinkWindowVerifier κ Λ) : Prop :=
  0 < k → v.Holds (fed m cfg size (tokens.take (k * size)))

variable (wire c) in
/-- Feeding a block takes the verifier to the end of the block. -/
private theorem feedBlock_fed (hsize : 0 < size) {tokens : List Token} {k : Nat} (hk : k * size < tokens.length)
    {v : MLXSinkWindowVerifier κ Λ} (h : FedUpTo m cfg size tokens k v) :
    ∃ v', (feedBlock (prefillVerifier m cfg c wire) tokens (k * size) (min ((k + 1) * size) tokens.length)).run v =
        (.ok (), v') ∧ v'.Holds (fed m cfg size (tokens.take ((k + 1) * size))) := by
  have htake : tokens.take (min ((k + 1) * size) tokens.length) = tokens.take ((k + 1) * size) := by
    rw [← List.take_take, List.take_length]
  have hne : (tokens.take ((k + 1) * size)).drop (k * size) ≠ [] := by
    intro hnil
    have := congrArg List.length hnil
    rw [List.length_drop, List.length_take, List.length_nil, Nat.succ_mul] at this
    omega
  have hfed : fed m cfg size (tokens.take ((k + 1) * size)) =
      SinkWindowVerifier.absorb m cfg (fed m cfg size (tokens.take (k * size)))
        ((tokens.take ((k + 1) * size)).drop (k * size)) := by
    unfold fed
    rw [tokenBlocks_concat hsize hk, absorbAll_concat]
  unfold feedBlock
  dsimp only
  rw [htake, hfed]
  cases k with
  | zero =>
    rw [Nat.zero_mul, if_pos rfl]
    rw [Nat.zero_mul] at hne
    obtain ⟨v', hrun, hholds⟩ := MLXSinkWindowVerifier.run_prefill m cfg hne v
    refine ⟨v', MLXSinkWindowVerifier.run_outside_ok hrun, ?_⟩
    unfold fed
    rw [List.take_zero, tokenBlocks_nil hsize]
    exact hholds
  | succ k =>
    have hpos : 0 < (k + 1) * size := Nat.mul_pos (Nat.succ_pos k) hsize
    rw [if_neg (by omega)]
    obtain ⟨v', hrun, hholds⟩ := MLXSinkWindowVerifier.run_appendAcceptedTokens m cfg (h (Nat.succ_pos k))
      (fed_standing m cfg size _) hne
    exact ⟨v', MLXSinkWindowVerifier.run_outside_ok hrun, hholds⟩

/-- At every boundary the verifier has been fed the blocks up to there. -/
private theorem fed_of_mem_boundaries (hsize : 0 < size) {tokens : List Token} {n k : Nat}
    {v : MLXSinkWindowVerifier κ Λ} (h : FedUpTo m cfg size tokens k v) {index stop : Nat}
    {v' : MLXSinkWindowVerifier κ Λ}
    (hmem : (index, stop, v') ∈ boundaries (prefillVerifier m cfg c wire) tokens size n (k * size) v) :
    k ≤ index ∧ index * size < tokens.length ∧ stop = min ((index + 1) * size) tokens.length ∧
      v'.Holds (fed m cfg size (tokens.take ((index + 1) * size))) := by
  induction n generalizing k v with
  | zero => cases hmem
  | succ n ih =>
    unfold boundaries at hmem
    by_cases hlt : k * size < tokens.length
    · rw [if_pos hlt, Nat.mul_div_cancel k hsize] at hmem
      obtain ⟨v₁, hrun, hholds⟩ := feedBlock_fed wire c hsize hlt h
      dsimp only at hmem
      rw [hrun] at hmem
      rcases List.mem_cons.1 hmem with heq | hrest
      · obtain ⟨rfl, rest⟩ := Prod.mk.inj heq
        obtain ⟨rfl, rfl⟩ := Prod.mk.inj rest
        exact ⟨Nat.le_refl _, hlt, rfl, hholds⟩
      · by_cases hend : tokens.length ≤ (k + 1) * size
        · -- the tokens are used up, and the loop ends
          rw [Nat.min_eq_right hend] at hrest
          cases n with
          | zero => cases hrest
          | succ n =>
            unfold boundaries at hrest
            rw [if_neg (Nat.lt_irrefl _)] at hrest
            cases hrest
        · rw [Nat.min_eq_left (by omega)] at hrest
          obtain ⟨hle, hrest⟩ := ih (fun _ => hholds) hrest
          exact ⟨by omega, hrest⟩
    · rw [if_neg hlt] at hmem
      cases hmem

variable (wire c) in
/-- The loop comes to the end of the tokens. -/
private theorem exists_last_boundary (hsize : 0 < size) {tokens : List Token} {n k : Nat} (hk : k * size < tokens.length)
    (hn : tokens.length ≤ n + k * size) {v : MLXSinkWindowVerifier κ Λ} (h : FedUpTo m cfg size tokens k v) :
    ∃ index v', (index, tokens.length, v') ∈ boundaries (prefillVerifier m cfg c wire) tokens size n (k * size) v := by
  induction n generalizing k v with
  | zero => omega
  | succ n ih =>
    obtain ⟨v₁, hrun, hholds⟩ := feedBlock_fed wire c hsize hk h
    unfold boundaries
    rw [if_pos hk, Nat.mul_div_cancel k hsize]
    dsimp only
    rw [hrun]
    by_cases hend : tokens.length ≤ (k + 1) * size
    · refine ⟨k, v₁, ?_⟩
      rw [Nat.min_eq_right hend]
      exact List.mem_cons_self
    · rw [Nat.min_eq_left (by omega)]
      have hnext : k * size + size = (k + 1) * size := (Nat.succ_mul k size).symm
      obtain ⟨index, v', hmem⟩ := ih (show (k + 1) * size < tokens.length by omega) (by omega) fun _ => hholds
      exact ⟨index, v', List.mem_cons_of_mem _ hmem⟩

/-- The hash of a block is the last hash of the tokens up to its end. -/
theorem hash_at_boundary {tokens : List Token} {hashes : List Bytes}
    (h : chainedBlockHashes tokens c hashKey = .ok hashes) {index : Nat}
    (hindex : index * c.blockSizeTokens.toNat < tokens.length) :
    ∃ hs, chainedBlockHashes (tokens.take ((index + 1) * c.blockSizeTokens.toNat)) c hashKey = .ok hs ∧
      hs.getLastD [] = hashes.getD index [] := by
  obtain ⟨hpos, -⟩ := chainedBlockHashes_ok h
  obtain ⟨hsize, hfits⟩ := (chainedBlockHashes_returns_iff tokens c hashKey).1 ⟨hashes, h⟩
  obtain ⟨hs, hhs⟩ := (chainedBlockHashes_returns_iff (tokens.take ((index + 1) * c.blockSizeTokens.toNat)) c hashKey).2
    ⟨hsize, fun t ht => hfits t (List.mem_of_mem_take ht)⟩
  have hlen : hs.length = index + 1 := by
    rw [length_chainedBlockHashes hhs, List.length_take]
    have hmul : (index + 1) * c.blockSizeTokens.toNat = index * c.blockSizeTokens.toNat + c.blockSizeTokens.toNat :=
      Nat.succ_mul _ _
    refine Nat.div_eq_of_lt_le ?_ ?_
    · omega
    · rw [Nat.succ_mul (index + 1)]
      omega
  have hlt : index < hashes.length := by
    rw [length_chainedBlockHashes h, Nat.lt_iff_add_one_le, Nat.le_div_iff_mul_le hpos, Nat.succ_mul]
    omega
  have hat : hs[index]? = some hashes[index] := by
    refine hash_congr h hhs ?_ (List.getElem?_eq_getElem hlt)
    rw [List.take_take, Nat.min_self]
  refine ⟨hs, hhs, ?_⟩
  rw [List.getLastD_eq_getLast?, List.getLast?_eq_getElem?, hlen, Nat.add_sub_cancel, hat,
    List.getD_eq_getElem?_getD, List.getElem?_eq_getElem hlt]

/-! ### When they agree -/

/-- Chunks and blocks cut the tokens at the same places beyond sink and window. -/
def SameCuts (cfg : VerifierConfig) (engine : MLXPrefillComputeEngine) (n : Nat) : Prop :=
  ∀ q, cfg.budget < q → q < n →
    (engine.computeChunkTokens ∣ q ↔ engine.compatibility.blockSizeTokens.toNat ∣ q)

/-- Where the cuts are the same, chunks and blocks feed the same. -/
theorem SameCuts.fed_eq {tokens : List Token} (h : SameCuts cfg engine tokens.length)
    (hsize : 0 < engine.compatibility.blockSizeTokens.toNat) :
    fed m cfg engine.computeChunkTokens tokens = fed m cfg engine.compatibility.blockSizeTokens.toNat tokens := by
  refine SinkWindowVerifier.absorbAll_congr (fun b hb => ne_nil_of_mem_tokenBlocks engine.chunk_pos hb)
    (fun b hb => ne_nil_of_mem_tokenBlocks hsize hb) ?_ ?_
  · rw [flatten_tokenBlocks engine.chunk_pos, flatten_tokenBlocks hsize]
  · intro q hq
    rw [mem_cuts_iff engine.chunk_pos, mem_cuts_iff hsize]
    constructor
    · rintro ⟨hdvd, hlt⟩
      exact ⟨(h q hq hlt).1 hdvd, hlt⟩
    · rintro ⟨hdvd, hlt⟩
      exact ⟨(h q hq hlt).2 hdvd, hlt⟩

/-- The snapshot of a token list whose verifier was fed cache blocks. -/
def BlockSnapshot (m : KvModel κ Λ) (cfg : VerifierConfig) (engine : MLXPrefillComputeEngine) (hashKey : Bytes)
    (tokens : List Token) (s : SnapshotState κ Λ) : Prop :=
  tokens ≠ [] ∧ ∃ hashes, chainedBlockHashes tokens engine.compatibility hashKey = .ok hashes ∧
    s = snapshotOf cfg engine.compatibility (fed m cfg engine.compatibility.blockSizeTokens.toNat tokens) tokens.length
      (hashes.getLastD [])

/-- What is exported at a boundary of the loop. -/
private theorem blockSnapshot_of_boundary {tokens : List Token} {hashes : List Bytes}
    (hhash : chainedBlockHashes tokens engine.compatibility hashKey = .ok hashes) {k : Nat}
    {v v' : MLXSinkWindowVerifier κ Λ} {index stop : Nat}
    (hfed : FedUpTo m cfg engine.compatibility.blockSizeTokens.toNat tokens k v)
    (hmem : (index, stop, v') ∈ boundaries (prefillVerifier m cfg engine.compatibility wire) tokens
      engine.compatibility.blockSizeTokens.toNat tokens.length (k * engine.compatibility.blockSizeTokens.toNat) v)
    {s : SnapshotState κ Λ}
    (hexport : exportMlxPrefillSnapshot cfg engine.compatibility v' stop (hashes.getD index []) = .ok s) :
    BlockSnapshot m cfg engine hashKey (tokens.take stop) s := by
  obtain ⟨hsize, -⟩ := chainedBlockHashes_ok hhash
  obtain ⟨-, hlt, hstop, hholds⟩ := fed_of_mem_boundaries hsize hfed hmem
  obtain ⟨hs, hhs, hlast⟩ := hash_at_boundary hhash hlt
  have htake : tokens.take stop = tokens.take ((index + 1) * engine.compatibility.blockSizeTokens.toNat) := by
    rw [hstop, ← List.take_take, List.take_length]
  have hmul : (index + 1) * engine.compatibility.blockSizeTokens.toNat =
      index * engine.compatibility.blockSizeTokens.toNat + engine.compatibility.blockSizeTokens.toNat :=
    Nat.succ_mul _ _
  have hlen : (tokens.take stop).length = stop := by
    rw [List.length_take]
    omega
  refine ⟨?_, hs, by rw [htake]; exact hhs, ?_⟩
  · intro hnil
    rw [hnil, List.length_nil] at hlen
    omega
  · rw [exportMlxPrefillSnapshot_eq hholds (fed_standing m cfg _ _) (by omega)] at hexport
    rw [← Except.ok.inj hexport, hlen, hlast, htake]

/-- Where the cuts are the same, every snapshot is the one that blocks give. -/
theorem Published.blockSnapshot {tokens : List Token} {s : SnapshotState κ Λ}
    (h : Published m cfg engine hashKey wire tokens s) (hcuts : SameCuts cfg engine tokens.length) :
    BlockSnapshot m cfg engine hashKey tokens s := by
  induction h with
  | @remote tokens hashes cancelled v v' s hhash hrun =>
    obtain ⟨hsize, -⟩ := chainedBlockHashes_ok hhash
    have hlen := length_chainedBlockHashes hhash
    by_cases hne : tokens = [] ∨ hashes = []
    · unfold MLXPrefillComputeEngine.computeSnapshot at hrun
      rw [if_pos hne] at hrun
      cases (Prod.mk.inj hrun).1
    · rw [not_or] at hne
      refine ⟨hne.1, hashes, hhash, ?_⟩
      rcases MLXPrefillComputeEngine.computeSnapshot_cases m cfg engine hne.1 hne.2 hlen cancelled v with
        ⟨v'', hok⟩ | ⟨e, v'', -, herr, -⟩
      · rw [hok] at hrun
        rw [← Except.ok.inj (Prod.mk.inj hrun).1, hcuts.fed_eq hsize]
      · rw [herr] at hrun
        cases (Prod.mk.inj hrun).1
  | @computed tokens hashes v index stop v' s hhash hmem hexport =>
    rw [← Nat.zero_mul engine.compatibility.blockSizeTokens.toNat] at hmem
    exact blockSnapshot_of_boundary hhash (fun h => absurd h (Nat.lt_irrefl 0)) hmem hexport
  | @resumed tokens hashes k s₀ v imported v₁ index stop v' s hhash hfrom himport hmem hexport ih =>
    obtain ⟨hsize, -⟩ := chainedBlockHashes_ok hhash
    obtain ⟨hlt, hle⟩ := PrefillCacheHook.lt_of_mem_boundaries hsize hmem
    refine blockSnapshot_of_boundary hhash (fun _ => ?_) hmem hexport
    have hlen : (tokens.take (k * engine.compatibility.blockSizeTokens.toNat)).length =
        k * engine.compatibility.blockSizeTokens.toNat := by
      rw [List.length_take]
      omega
    -- the imported snapshot is a shorter one, so it is what blocks give
    obtain ⟨-, hs, -, rfl⟩ := ih fun q hq hqlt => hcuts q hq (by rw [List.length_take]; omega)
    have hreset : (prefillVerifier m cfg engine.compatibility wire).reset.run v = (.ok (), { cache := some {} }) := rfl
    rw [Proc.run_bind_ok hreset] at himport
    have hholds := importMlxPrefillSnapshot_eq (fed_standing m cfg _ _) (fed_position m cfg hsize _) _ rfl himport
    rw [hlen] at hholds
    exact hholds

/-- What is published can be hashed. -/
theorem Published.hashes {tokens : List Token} {s : SnapshotState κ Λ}
    (h : Published m cfg engine hashKey wire tokens s) :
    ∃ hashes, chainedBlockHashes tokens engine.compatibility hashKey = .ok hashes := by
  have hprefix : ∀ {ts : List Token} {hs : List Bytes} (n : Nat),
      chainedBlockHashes ts engine.compatibility hashKey = .ok hs →
      ∃ hashes, chainedBlockHashes (ts.take n) engine.compatibility hashKey = .ok hashes := by
    intro ts hs n hhash
    obtain ⟨hsize, hfits⟩ := (chainedBlockHashes_returns_iff ts engine.compatibility hashKey).1 ⟨hs, hhash⟩
    exact (chainedBlockHashes_returns_iff _ engine.compatibility hashKey).2
      ⟨hsize, fun t ht => hfits t (List.mem_of_mem_take ht)⟩
  cases h with
  | remote hhash => exact ⟨_, hhash⟩
  | computed hhash => exact hprefix _ hhash
  | resumed hhash => exact hprefix _ hhash

variable (m cfg engine wire) in
/-- A worker and a hook both publish a snapshot of every token list that can be hashed. -/
theorem exists_published {tokens : List Token} (hne : tokens ≠ []) {hashes : List Bytes}
    (hhash : chainedBlockHashes tokens engine.compatibility hashKey = .ok hashes) :
    ∃ hash hash', Published m cfg engine hashKey wire tokens
        (snapshotOf cfg engine.compatibility (fed m cfg engine.computeChunkTokens tokens) tokens.length hash) ∧
      Published m cfg engine hashKey wire tokens
        (snapshotOf cfg engine.compatibility (fed m cfg engine.compatibility.blockSizeTokens.toNat tokens) tokens.length
          hash') := by
  obtain ⟨hsize, -⟩ := chainedBlockHashes_ok hhash
  have hpos := List.length_pos_iff.2 hne
  have hlen := length_chainedBlockHashes hhash
  have hhashes : hashes ≠ [] := by
    have hone : 1 ≤ (tokens.length + engine.compatibility.blockSizeTokens.toNat - 1) /
        engine.compatibility.blockSizeTokens.toNat := (Nat.le_div_iff_mul_le hsize).2 (by omega)
    intro hnil
    rw [hnil, List.length_nil] at hlen
    omega
  obtain ⟨index, v', hmem⟩ := exists_last_boundary wire engine.compatibility (m := m) hsize
    (show 0 * engine.compatibility.blockSizeTokens.toNat < tokens.length by omega)
    (show tokens.length ≤ tokens.length + 0 * engine.compatibility.blockSizeTokens.toNat by omega)
    (v := {}) fun h => absurd h (Nat.lt_irrefl 0)
  obtain ⟨-, -, hstop, hholds⟩ := fed_of_mem_boundaries hsize (fun h => absurd h (Nat.lt_irrefl 0)) hmem
  refine ⟨hashes.getLastD [], hashes.getD index [], ?_, ?_⟩
  · rcases MLXPrefillComputeEngine.computeSnapshot_cases m cfg engine hne hhashes hlen (fun _ => false) {} with
      ⟨v, hrun⟩ | ⟨_, _, _, _, hcancelled⟩
    · exact .remote hhash hrun
    · cases hcancelled
  · rw [Nat.zero_mul] at hmem
    have hall : tokens.take ((index + 1) * engine.compatibility.blockSizeTokens.toNat) = tokens :=
      List.take_of_length_le (by omega)
    rw [hall] at hholds
    have hpub := Published.computed hhash hmem
      (exportMlxPrefillSnapshot_eq hholds (fed_standing m cfg _ tokens) hpos (hashes.getD index []))
    rwa [List.take_length] at hpub

end

/-- Snapshots of one token list that agree for every model were cut at the same places beyond sink and window. -/
theorem sameCuts_of_agree {cfg : VerifierConfig} {engine : MLXPrefillComputeEngine} {hashKey : Bytes}
    {tokens : List Token} {hashes : List Bytes}
    (hhash : chainedBlockHashes tokens engine.compatibility hashKey = .ok hashes)
    (hagree : ∀ (κ Λ : Type) (m : KvModel κ Λ) (wire : WireFormat κ Λ) (s s' : SnapshotState κ Λ),
      Published m cfg engine hashKey wire tokens s → Published m cfg engine hashKey wire tokens s' → s = s') :
    SameCuts cfg engine tokens.length := by
  intro q hq hlt
  obtain ⟨hsize, -⟩ := chainedBlockHashes_ok hhash
  have hne : tokens ≠ [] := by
    rintro rfl
    cases hlt
  have hfed : ∀ p, fed (KvModel.probe p) cfg engine.computeChunkTokens tokens =
      fed (KvModel.probe p) cfg engine.compatibility.blockSizeTokens.toNat tokens := by
    intro p
    obtain ⟨hash, hash', hremote, hlocal⟩ := exists_published (KvModel.probe p) cfg engine
      ⟨fun _ => [], fun _ => .error .indexError⟩ hne hhash
    refine snapshotOf_inj (fed_standing _ cfg _ tokens) (fed_standing _ cfg _ tokens) ?_ (hagree _ _ _ _ _ _ hremote hlocal)
    rw [fed_position _ cfg engine.chunk_pos, fed_position _ cfg hsize]
  have hflat : (tokenBlocks engine.computeChunkTokens tokens).flatten =
      (tokenBlocks engine.compatibility.blockSizeTokens.toNat tokens).flatten := by
    rw [flatten_tokenBlocks engine.chunk_pos, flatten_tokenBlocks hsize]
  have hcuts := SinkWindowVerifier.cuts_of_absorbAll (fun b hb => ne_nil_of_mem_tokenBlocks engine.chunk_pos hb)
    (fun b hb => ne_nil_of_mem_tokenBlocks hsize hb) hflat hfed q hq
  rw [mem_cuts_iff engine.chunk_pos, mem_cuts_iff hsize] at hcuts
  exact ⟨fun hdvd => (hcuts.1 ⟨hdvd, hlt⟩).1, fun hdvd => (hcuts.2 ⟨hdvd, hlt⟩).1⟩

/-- All snapshots of a token list agree, for every model, exactly when chunks and blocks cut it at the same places
beyond sink and window. -/
theorem one_snapshot_iff (cfg : VerifierConfig) (engine : MLXPrefillComputeEngine) (hashKey : Bytes)
    (tokens : List Token) :
    (∀ (κ Λ : Type) (m : KvModel κ Λ) (wire : WireFormat κ Λ) (s s' : SnapshotState κ Λ),
      Published m cfg engine hashKey wire tokens s → Published m cfg engine hashKey wire tokens s' → s = s') ↔
    ((∃ hashes, chainedBlockHashes tokens engine.compatibility hashKey = .ok hashes) →
      SameCuts cfg engine tokens.length) := by
  constructor
  · rintro hagree ⟨hashes, hhash⟩
    exact sameCuts_of_agree hhash hagree
  · intro hcuts κ Λ m wire s s' hs hs'
    have hsame := hcuts hs.hashes
    obtain ⟨-, hashes, hhash, rfl⟩ := hs.blockSnapshot hsame
    obtain ⟨-, hashes', hhash', rfl⟩ := hs'.blockSnapshot hsame
    obtain rfl := Except.ok.inj (hhash.symm.trans hhash')
    rfl

/-- The default sizes of the compute engine, the cache blocks and the verifier. -/
def defaultEngine : MLXPrefillComputeEngine := ⟨{ modelId := "m" }, 256, by decide⟩

def defaultConfig : VerifierConfig := ⟨4, 64, 1, by decide, Nat.one_pos⟩

/-- With the default sizes, the hook cuts a prompt of 129 tokens at 128 and the worker does not. -/
theorem default_sizes_disagree :
    ¬ ∀ (κ Λ : Type) (m : KvModel κ Λ) (wire : WireFormat κ Λ) (s s' : SnapshotState κ Λ),
      Published m defaultConfig defaultEngine [] wire (List.replicate 129 7) s →
      Published m defaultConfig defaultEngine [] wire (List.replicate 129 7) s' → s = s' := by
  intro hagree
  have hfits : ∀ t ∈ List.replicate 129 (7 : Token), (0 : Int) ≤ t ∧ t < 2 ^ 32 := by
    intro t ht
    obtain rfl := List.eq_of_mem_replicate ht
    decide
  obtain ⟨hashes, hhash⟩ := (chainedBlockHashes_returns_iff _ defaultEngine.compatibility []).2 ⟨by decide, hfits⟩
  have hcuts := sameCuts_of_agree hhash hagree
  have hdvd := (hcuts 128 (by decide) (by simp)).2 (by decide)
  revert hdvd
  decide

end KakeyaEngine
