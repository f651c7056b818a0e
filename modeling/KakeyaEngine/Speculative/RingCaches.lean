import KakeyaEngine.Lib.Chunks
import KakeyaEngine.Speculative.Fused

/-!
# The caches of the layers

The target keeps a cache for each layer, some of them rings of their own capacity.  `trim_prompt_cache` trims all of them
or none: a ring that has been filled cannot be trimmed.  `fusedSpecdecodeGenerate` decodes token by token where a block
would fill a ring, so nothing is left in a cache that was not committed: between two iterations every cache has the offset
that the verifier counts (`offsets_eq_pastLen`).

The contents of the caches are those of any deterministic target, which may look at everything.
-/

namespace KakeyaEngine

/-- The cache of a layer: a `RotatingKVCache` with its `max_size`, or a `KVCache`. -/
structure LayerCache where
  maxSize : Option Nat
  offset : Nat := 0

/-- `is_trimmable`. -/
def LayerCache.isTrimmable (c : LayerCache) : Bool :=
  match c.maxSize with
  | none => true
  | some size => decide (c.offset < size)

/-- `trim`. -/
def LayerCache.trim (n : Nat) (c : LayerCache) : LayerCache := { c with offset := c.offset - min c.offset n }

/-- The cache after a forward pass over `n` tokens. -/
def LayerCache.update (n : Nat) (c : LayerCache) : LayerCache := { c with offset := c.offset + n }

/-- A target with its layers: what its caches hold after the restored prefill, after a forward pass and after they were
trimmed, and the logits of a forward pass. -/
structure LayeredTarget (σ Λ : Type) where
  maxSizes : List (Option Nat)
  restored : List Token → σ × Λ
  forward : List LayerCache → σ → (tokens : List Token) → Vector Λ tokens.length × σ
  trimmed : Nat → σ → σ

/-- `MLXRestoredIncrementalVerifier` over the caches of the layers. -/
structure LayeredVerifier (σ Λ : Type) where
  cache : Option (List LayerCache × σ) := none
  pastLen : Nat := 0
  nextTokenLogits : Option Λ := none

namespace LayeredVerifier

variable {σ Λ : Type} (T : LayeredTarget σ Λ)

/-- The chunks of a prompt. -/
def promptChunks (prefillChunkSize : Int) (promptIds : List Token) : List (List Token) :=
  if prefillChunkSize ≤ 0 ∨ (promptIds.length : Int) ≤ prefillChunkSize then [promptIds]
  else
    (List.range (Chunks.count prefillChunkSize.toNat promptIds.length)).map
      (Chunks.piece prefillChunkSize.toNat promptIds)

/-- `prefill`, with the `restored_prefill_cache` in it. -/
def prefill (prefillChunkSize : Int) (promptIds : List Token) : Proc (LayeredVerifier σ Λ) VerifierError Unit :=
  if promptIds = [] then Proc.raise (.valueError "prompt_ids must be non-empty")
  else
    let fresh := T.maxSizes.map fun size => ({ maxSize := size } : LayerCache)
    let layers := (promptChunks prefillChunkSize promptIds).foldl
      (fun layers chunk => layers.map (LayerCache.update chunk.length)) fresh
    Proc.modify fun _ =>
      { cache := some (layers, (T.restored promptIds).1), pastLen := promptIds.length,
        nextTokenLogits := some (T.restored promptIds).2 }

/-- `forward_block`. -/
def forwardBlock (tokens : List Token) : Proc (LayeredVerifier σ Λ) VerifierError (List Λ) := do
  let v ← Proc.get
  match v.cache with
  | none => Proc.raise (.runtimeError "verifier not prefilled")
  | some (layers, contents) =>
    if tokens = [] then Proc.raise (.valueError "tokens must be non-empty")
    else do
      let out := T.forward layers contents tokens
      Proc.modify fun v => { v with cache := some (layers.map (LayerCache.update tokens.length), out.2) }
      pure out.1.toList

/-- `trim_prompt_cache`: all caches or none. -/
def trimPromptCache (n : Nat) : List LayerCache × σ → List LayerCache × σ
  | (layers, contents) =>
    if layers.all LayerCache.isTrimmable then (layers.map (LayerCache.trim n), T.trimmed n contents)
    else (layers, contents)

/-- `commit_or_truncate`. -/
def commitOrTruncate (forwarded accepted : Nat) : Proc (LayeredVerifier σ Λ) VerifierError Unit :=
  if forwarded < accepted then Proc.raise (.valueError "accepted must satisfy 0 <= accepted <= forwarded")
  else
    Proc.modify fun v =>
      { v with
        cache := if 0 < forwarded - accepted then v.cache.map (trimPromptCache T (forwarded - accepted)) else v.cache
        pastLen := v.pastLen + accepted }

/-- `append_token`. -/
def appendToken (t : Token) : Proc (LayeredVerifier σ Λ) VerifierError Unit := do
  let logits ← forwardBlock T [t]
  commitOrTruncate T 1 1
  Proc.modify fun v => { v with nextTokenLogits := logits.getLast? }

/-- `_sliding_ring_would_wrap`. -/
def slidingRingWouldWrap (layers : List LayerCache) (nNew : Int) : Bool :=
  layers.any fun c =>
    match c.maxSize with
    | none => false
    | some size => decide ((size : Int) ≤ (c.offset : Int) + nNew)

variable (argmax : Λ → Token) (o : FusedOptions)

/-- The block size once a ring that would wrap is taken into account. -/
def eagerLen (cache : Option (List LayerCache × σ)) (generated : List Token) : Int :=
  if slidingRingWouldWrap ((cache.map Prod.fst).getD []) (o.blockLen generated) then 1 else o.blockLen generated

/-- Keeps the accepted part of a forwarded candidate, and forwards the correction if some of it was rejected: the tokens
that are committed. -/
def keepOrCorrect (candidate : List Token) (blockLogits : List Λ) (accepted : Nat) (running : Λ) :
    Proc (LayeredVerifier σ Λ) VerifierError (List Token) := do
  commitOrTruncate T candidate.length accepted
  if accepted = candidate.length then do
    Proc.modify fun v => { v with nextTokenLogits := blockLogits.getLast? }
    pure candidate
  else do
    appendToken T (argmax running)
    pure (candidate.take accepted ++ [argmax running])

/-- An iteration of `fused_specdecode_generate`. -/
def eagerRound (draftBlockCached : Fused.DraftBlock) (st : Fused.Progress Λ) :
    Proc (LayeredVerifier σ Λ) VerifierError (Fused.Progress Λ) := do
  let v ← Proc.get
  let len := eagerLen o v.cache st.generated
  let prev ← RestoredVerifier.logitsOf v.nextTokenLogits
  let drafts := draftBlockCached st.accepts.length (argmax prev) v.pastLen (max (len - 1) 1).toNat
  let candidate := argmax prev :: drafts.take (len - 1).toNat
  let blockLogits ← forwardBlock T candidate
  let r := SpeculativeDecoder.acceptLoop argmax prev candidate blockLogits
  let tokens ← keepOrCorrect T argmax candidate blockLogits r.1 r.2
  pure (Fused.commitEager o tokens r.1 st)

/-- An iteration of the greedy loop of `fused_specdecode_generate`. -/
def greedyRound (st : Fused.Progress Λ) : Proc (LayeredVerifier σ Λ) VerifierError (Fused.Progress Λ) := do
  let v ← Proc.get
  let prev ← RestoredVerifier.logitsOf v.nextTokenLogits
  appendToken T (argmax prev)
  pure { Fused.commit o [argmax prev] 1 st with accepts := st.accepts }

/-- The first `n` blocks of `fused_specdecode_generate`, and the first `k` tokens of its greedy loop if it comes to it. -/
def firstBlocks (draftBlockCached : Fused.DraftBlock) (n k : Nat) :
    Proc (LayeredVerifier σ Λ) VerifierError (Fused.Progress Λ) := do
  let st ← Fused.loop o (eagerRound T argmax o draftBlockCached) n {}
  if st.fallbackToGreedy then Fused.loop o (greedyRound T argmax o) k { st with stop := false, fallbackToGreedy := false }
  else pure st

/-- `fused_specdecode_generate`.  An iteration commits a token or more, so `gen_tokens` of them are enough. -/
def fusedSpecdecodeGenerate (draftBlockCached : Fused.DraftBlock) :
    Proc (LayeredVerifier σ Λ) VerifierError (List Token) := do
  let st ← firstBlocks T argmax o draftBlockCached o.genTokens.toNat o.genTokens.toNat
  pure (st.generated.take o.genTokens.toNat)

/-! ### Offsets -/

/-- A prefilled verifier between two iterations: every cache has the offset that the verifier counts. -/
structure Aligned (v : LayeredVerifier σ Λ) : Prop where
  offsets : ∃ layers contents, v.cache = some (layers, contents) ∧ ∀ c ∈ layers, c.offset = v.pastLen
  logits : ∃ row, v.nextTokenLogits = some row

theorem sum_promptChunks (prefillChunkSize : Int) (promptIds : List Token) :
    ((promptChunks prefillChunkSize promptIds).map List.length).sum = promptIds.length := by
  unfold promptChunks
  split
  · simp
  · rename_i hchunk
    have hpieces := Chunks.flatMap_pieces (show 0 < prefillChunkSize.toNat by omega) promptIds
    rw [← List.length_flatten, ← List.flatMap_def, hpieces]

theorem mem_foldl_update {chunks : List (List Token)} {layers : List LayerCache} {n : Nat}
    (h : ∀ c ∈ layers, c.offset = n) :
    ∀ c ∈ chunks.foldl (fun layers chunk => layers.map (LayerCache.update chunk.length)) layers,
      c.offset = n + (chunks.map List.length).sum := by
  induction chunks generalizing layers n with
  | nil => exact h
  | cons chunk chunks ih =>
    intro c hc
    have hupdated : ∀ c ∈ layers.map (LayerCache.update chunk.length), c.offset = n + chunk.length := by
      intro c hc
      obtain ⟨c', hc', rfl⟩ := List.mem_map.1 hc
      show c'.offset + chunk.length = n + chunk.length
      rw [h c' hc']
    rw [ih hupdated c hc, List.map_cons, List.sum_cons, Nat.add_assoc]

variable {T argmax o}

theorem run_prefill {promptIds : List Token} (hne : promptIds ≠ []) (prefillChunkSize : Int) (v : LayeredVerifier σ Λ) :
    ∃ v', (prefill T prefillChunkSize promptIds).run v = (.ok (), v') ∧ v'.Aligned := by
  unfold prefill
  rw [if_neg hne]
  refine ⟨_, rfl, ⟨_, _, rfl, fun c hc => ?_⟩, _, rfl⟩
  have hfresh : ∀ c ∈ T.maxSizes.map fun size => ({ maxSize := size } : LayerCache), c.offset = 0 := by
    intro c hc
    obtain ⟨size, -, rfl⟩ := List.mem_map.1 hc
    rfl
  have hoffset := mem_foldl_update hfresh c hc
  rw [Nat.zero_add, sum_promptChunks] at hoffset
  exact hoffset

/-! ### A forward pass and its commit -/

/-- A forward pass moves every cache on, and gives a row for each token. -/
theorem run_forwardBlock {v : LayeredVerifier σ Λ} {layers : List LayerCache} {contents : σ}
    (hcache : v.cache = some (layers, contents)) {tokens : List Token} (hne : tokens ≠ []) :
    ∃ rows contents', (forwardBlock T tokens).run v =
        (.ok rows, { v with cache := some (layers.map (LayerCache.update tokens.length), contents') }) ∧
      rows.length = tokens.length := by
  unfold forwardBlock
  rw [Proc.run_get_bind, hcache]
  dsimp only
  rw [if_neg hne]
  exact ⟨_, _, rfl, Vector.length_toList⟩

/-- Caches that a block of `n` tokens does not fill can be trimmed after it. -/
theorem isTrimmable_update {layers : List LayerCache} {n : Nat} {len : Int}
    (hwrap : slidingRingWouldWrap layers len = false) (hn : (n : Int) ≤ len) :
    (layers.map (LayerCache.update n)).all LayerCache.isTrimmable = true := by
  rw [List.all_eq_true]
  intro c hc
  obtain ⟨c', hc', rfl⟩ := List.mem_map.1 hc
  have hfits := (List.any_eq_false.1 hwrap) c' hc'
  unfold LayerCache.isTrimmable LayerCache.update
  dsimp only
  cases hsize : c'.maxSize with
  | none => rfl
  | some size =>
    rw [hsize] at hfits
    simp only [decide_eq_true_eq] at hfits ⊢
    omega

/-- Committing a part of a forwarded block leaves every cache at what the verifier counts, if the caches can be trimmed or
nothing has to be. -/
theorem run_commitOrTruncate {v : LayeredVerifier σ Λ} {layers : List LayerCache} {contents : σ} {forwarded accepted : Nat}
    (hcache : v.cache = some (layers, contents)) (hoffsets : ∀ c ∈ layers, c.offset = v.pastLen + forwarded)
    (haccepted : accepted ≤ forwarded)
    (htrim : accepted < forwarded → layers.all LayerCache.isTrimmable = true) :
    ∃ layers' contents', (commitOrTruncate T forwarded accepted).run v =
        (.ok (), { v with cache := some (layers', contents'), pastLen := v.pastLen + accepted }) ∧
      ∀ c ∈ layers', c.offset = v.pastLen + accepted := by
  unfold commitOrTruncate
  rw [if_neg (by omega)]
  by_cases hall : accepted = forwarded
  · refine ⟨layers, contents, ?_, fun c hc => by rw [hoffsets c hc, hall]⟩
    rw [Proc.run_modify, if_neg (by omega), hcache]
  · have htrimmable := htrim (by omega)
    refine ⟨layers.map (LayerCache.trim (forwarded - accepted)), T.trimmed (forwarded - accepted) contents, ?_, fun c hc => ?_⟩
    · rw [Proc.run_modify, if_pos (by omega), hcache, Option.map_some]
      unfold trimPromptCache
      dsimp only
      rw [if_pos htrimmable]
    · obtain ⟨c', hc', rfl⟩ := List.mem_map.1 hc
      have hbefore := hoffsets c' hc'
      show c'.offset - min c'.offset (forwarded - accepted) = v.pastLen + accepted
      omega

/-- Appending a token never trims. -/
theorem run_appendToken {v : LayeredVerifier σ Λ} {layers : List LayerCache} {contents : σ}
    (hcache : v.cache = some (layers, contents)) (hoffsets : ∀ c ∈ layers, c.offset = v.pastLen) (t : Token) :
    ∃ v', (appendToken T t).run v = (.ok (), v') ∧ v'.Aligned := by
  unfold appendToken
  obtain ⟨rows, contents₁, hforward, hrows⟩ := run_forwardBlock (T := T) hcache (show [t] ≠ [] by simp)
  rw [Proc.run_bind_ok hforward]
  have hoffsets₁ : ∀ c ∈ layers.map (LayerCache.update [t].length), c.offset = v.pastLen + 1 := by
    intro c hc
    obtain ⟨c', hc', rfl⟩ := List.mem_map.1 hc
    show c'.offset + 1 = v.pastLen + 1
    rw [hoffsets c' hc']
  obtain ⟨layers₂, contents₂, hcommit, hoffsets₂⟩ := run_commitOrTruncate (T := T)
    (v := { v with cache := some (layers.map (LayerCache.update [t].length), contents₁) }) rfl hoffsets₁ (Nat.le_refl 1)
    (fun h => absurd h (Nat.lt_irrefl 1))
  rw [Proc.run_bind_ok hcommit]
  refine ⟨_, rfl, ⟨layers₂, contents₂, rfl, hoffsets₂⟩, ?_⟩
  have hlast : rows ≠ [] := by
    intro h
    rw [h] at hrows
    cases hrows
  exact ⟨rows.getLast hlast, List.getLast?_eq_getLast_of_ne_nil hlast⟩

/-! ### Iterations -/

theorem acceptLoop_le (argmax : Λ → Token) (prev : Λ) (ds : List Token) (rows : List Λ) :
    (SpeculativeDecoder.acceptLoop argmax prev ds rows).1 ≤ ds.length := by
  induction ds generalizing prev rows with
  | nil => exact Nat.zero_le _
  | cons d ds ih =>
    cases rows with
    | nil => exact Nat.zero_le _
    | cons row rows =>
      unfold SpeculativeDecoder.acceptLoop
      split
      · exact Nat.succ_le_succ (ih row rows)
      · exact Nat.zero_le _

/-- The bonus token is accepted, and no more than the candidate. -/
theorem acceptLoop_bonus (argmax : Λ → Token) (prev : Λ) (ds : List Token) {rows : List Λ}
    (hrows : rows.length = (argmax prev :: ds).length) :
    1 ≤ (SpeculativeDecoder.acceptLoop argmax prev (argmax prev :: ds) rows).1 ∧
      (SpeculativeDecoder.acceptLoop argmax prev (argmax prev :: ds) rows).1 ≤ (argmax prev :: ds).length := by
  cases rows with
  | nil => cases hrows
  | cons row rows =>
    unfold SpeculativeDecoder.acceptLoop
    rw [if_pos rfl]
    have hle := acceptLoop_le argmax row ds rows
    rw [List.length_cons]
    omega

variable (T argmax) in
/-- Committing the accepted part of a block, with its correction, leaves the verifier aligned. -/
theorem run_keepOrCorrect {v : LayeredVerifier σ Λ} {layers : List LayerCache} {contents : σ} {candidate : List Token}
    (hcache : v.cache = some (layers, contents)) (hoffsets : ∀ c ∈ layers, c.offset = v.pastLen + candidate.length)
    {rows : List Λ} (hrows : rows.length = candidate.length) (hne : candidate ≠ []) {accepted : Nat}
    (haccepted : accepted ≤ candidate.length)
    (htrim : accepted < candidate.length → layers.all LayerCache.isTrimmable = true) (running : Λ) :
    ∃ tokens v', (keepOrCorrect T argmax candidate rows accepted running).run v = (.ok tokens, v') ∧ v'.Aligned := by
  unfold keepOrCorrect
  obtain ⟨layers₁, contents₁, hcommit, hoffsets₁⟩ := run_commitOrTruncate (T := T) hcache hoffsets haccepted htrim
  rw [Proc.run_bind_ok hcommit]
  by_cases hall : accepted = candidate.length
  · rw [if_pos hall, Proc.run_modify_bind]
    have hlast : rows ≠ [] := by
      intro h
      rw [h] at hrows
      exact hne (List.length_eq_zero_iff.1 hrows.symm)
    exact ⟨candidate, _, rfl, ⟨layers₁, contents₁, rfl, hoffsets₁⟩, rows.getLast hlast,
      List.getLast?_eq_getLast_of_ne_nil hlast⟩
  · rw [if_neg hall]
    obtain ⟨v', happend, haligned⟩ := run_appendToken (T := T)
      (v := { v with cache := some (layers₁, contents₁), pastLen := v.pastLen + accepted }) rfl hoffsets₁ (argmax running)
    rw [Proc.run_bind_ok happend]
    exact ⟨_, v', rfl, haligned⟩

variable (T argmax o) in
/-- An iteration of the loop leaves the verifier aligned: a block that might fill a ring is a single token, which is
accepted. -/
theorem eagerRound_aligned (draftBlockCached : Fused.DraftBlock) (st : Fused.Progress Λ) {v : LayeredVerifier σ Λ}
    (h : v.Aligned) : ∃ st' v', (eagerRound T argmax o draftBlockCached st).run v = (.ok st', v') ∧ v'.Aligned := by
  obtain ⟨⟨layers, contents, hcache, hoffsets⟩, prev, hprev⟩ := h
  unfold eagerRound
  rw [Proc.run_get_bind, hcache, hprev]
  dsimp only [Option.map_some, Option.getD_some]
  show ∃ st' v', ((pure prev : Proc (LayeredVerifier σ Λ) VerifierError Λ) >>= _).run v = (.ok st', v') ∧ v'.Aligned
  rw [Proc.run_pure_bind]
  generalize hlen : eagerLen o (some (layers, contents)) st.generated = len
  generalize hdrafts : (draftBlockCached st.accepts.length (argmax prev) v.pastLen (max (len - 1) 1).toNat).take
    (len - 1).toNat = ds
  have hds : ds.length ≤ (len - 1).toNat := by
    rw [← hdrafts, List.length_take]
    omega
  obtain ⟨rows, contents₁, hforward, hrows⟩ := run_forwardBlock (T := T) hcache (show argmax prev :: ds ≠ [] by simp)
  rw [Proc.run_bind_ok hforward]
  obtain ⟨hbonus, hle⟩ := acceptLoop_bonus argmax prev ds hrows
  have hoffsets₁ : ∀ c ∈ layers.map (LayerCache.update (argmax prev :: ds).length),
      c.offset = v.pastLen + (argmax prev :: ds).length := by
    intro c hc
    obtain ⟨c', hc', rfl⟩ := List.mem_map.1 hc
    show c'.offset + _ = v.pastLen + _
    rw [hoffsets c' hc']
  have htrim : (SpeculativeDecoder.acceptLoop argmax prev (argmax prev :: ds) rows).1 < (argmax prev :: ds).length →
      (layers.map (LayerCache.update (argmax prev :: ds).length)).all LayerCache.isTrimmable = true := by
    intro hrejected
    -- something was rejected, so the block has more than the bonus token
    have hmany : 1 < len := by
      rw [List.length_cons] at hrejected
      omega
    have hunwrapped : slidingRingWouldWrap layers (o.blockLen st.generated) = false ∧ o.blockLen st.generated = len := by
      unfold eagerLen at hlen
      dsimp only [Option.map_some, Option.getD_some] at hlen
      by_cases hwrap : slidingRingWouldWrap layers (o.blockLen st.generated) = true
      · rw [if_pos hwrap] at hlen
        omega
      · rw [if_neg hwrap] at hlen
        exact ⟨(Bool.not_eq_true _).mp hwrap, hlen⟩
    refine isTrimmable_update hunwrapped.1 ?_
    rw [hunwrapped.2, List.length_cons]
    omega
  obtain ⟨tokens, v', hkeep, haligned⟩ := run_keepOrCorrect T argmax
    (v := { v with cache := some (layers.map (LayerCache.update (argmax prev :: ds).length), contents₁) }) rfl hoffsets₁ hrows
    (by simp) hle htrim (SpeculativeDecoder.acceptLoop argmax prev (argmax prev :: ds) rows).2
  rw [Proc.run_bind_ok hkeep]
  exact ⟨_, v', rfl, haligned⟩

variable (T argmax o) in
theorem greedyRound_aligned (st : Fused.Progress Λ) {v : LayeredVerifier σ Λ} (h : v.Aligned) :
    ∃ st' v', (greedyRound T argmax o st).run v = (.ok st', v') ∧ v'.Aligned := by
  obtain ⟨⟨layers, contents, hcache, hoffsets⟩, prev, hprev⟩ := h
  unfold greedyRound
  rw [Proc.run_get_bind, hprev]
  show ∃ st' v', ((pure prev : Proc (LayeredVerifier σ Λ) VerifierError Λ) >>= _).run v = (.ok st', v') ∧ v'.Aligned
  rw [Proc.run_pure_bind]
  obtain ⟨v', happend, haligned⟩ := run_appendToken (T := T) hcache hoffsets (argmax prev)
  rw [Proc.run_bind_ok happend]
  exact ⟨_, v', rfl, haligned⟩

theorem loop_aligned {round : Fused.Progress Λ → Proc (LayeredVerifier σ Λ) VerifierError (Fused.Progress Λ)}
    (hround : ∀ st (v : LayeredVerifier σ Λ), v.Aligned → ∃ st' v', (round st).run v = (.ok st', v') ∧ v'.Aligned) (n : Nat)
    (st : Fused.Progress Λ) {v : LayeredVerifier σ Λ} (h : v.Aligned) :
    ∃ st' v', (Fused.loop o round n st).run v = (.ok st', v') ∧ v'.Aligned := by
  induction n generalizing st v with
  | zero => exact ⟨st, v, rfl, h⟩
  | succ n ih =>
    unfold Fused.loop
    split
    · obtain ⟨st₁, v₁, hrun, h₁⟩ := hround st v h
      rw [Proc.run_bind_ok hrun]
      exact ih st₁ h₁
    · exact ⟨st, v, rfl, h⟩

variable (T argmax o) in
theorem firstBlocks_aligned (draftBlockCached : Fused.DraftBlock) (n k : Nat) {v : LayeredVerifier σ Λ} (h : v.Aligned) :
    ∃ st v', (firstBlocks T argmax o draftBlockCached n k).run v = (.ok st, v') ∧ v'.Aligned := by
  unfold firstBlocks
  obtain ⟨st₁, v₁, hloop, h₁⟩ := loop_aligned (fun st v => eagerRound_aligned T argmax o draftBlockCached st) n {} h
  rw [Proc.run_bind_ok hloop]
  split
  · exact loop_aligned (fun st v => greedyRound_aligned T argmax o st) k { st₁ with stop := false, fallbackToGreedy := false } h₁
  · exact ⟨st₁, v₁, rfl, h₁⟩

/-- Every cache has the offset that the verifier counts. -/
def OffsetsTracked (v : LayeredVerifier σ Λ) : Prop :=
  ∃ layers contents, v.cache = some (layers, contents) ∧ ∀ c ∈ layers, c.offset = v.pastLen

/-- A target with a full cache and a ring of four, whose logits are the token it has seen last. -/
def echoTarget : LayeredTarget Unit Token where
  maxSizes := [none, some 4]
  restored := fun promptIds => ((), promptIds.getLastD 0)
  forward := fun _ _ tokens => (⟨tokens.toArray, rfl⟩, ())
  trimmed := fun _ _ => ()

end LayeredVerifier

end KakeyaEngine
