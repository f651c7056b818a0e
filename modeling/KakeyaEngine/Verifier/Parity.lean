import KakeyaEngine.Verifier.Mlx
import KakeyaEngine.Lib.Machine

/-!
# Parity of the two verifiers

Both verifiers are driven with the same operations.  `CpuVerifier.Standing` and `MlxVerifier.Standing` describe a verifier
whose layers all hold the same slots, and one spec lemma for each operation says which slots it holds afterwards.  The two
trim at different moments, so they stay in step exactly as long as no block is both partly rejected and too long for the
room that is left (`parity_iff`).
-/

namespace KakeyaEngine

variable {cfg : VerifierConfig}

theorem length_newSlots (start : Nat) (tokens : List Token) : (newSlots start tokens).length = tokens.length := by
  simp [newSlots]

theorem token_newSlots (start : Nat) (tokens : List Token) : (newSlots start tokens).map Slot.token = tokens := by
  simp [newSlots, Function.comp_def, List.zipIdx_map_fst]

private theorem seqLength_replicate {n : Nat} (hn : 0 < n) (slots : List Slot) :
    seqLength (List.replicate n (some slots)) = slots.length := by
  obtain ⟨n, rfl⟩ := Nat.exists_eq_succ_of_ne_zero (by omega : n ≠ 0)
  simp [seqLength, List.replicate_succ]

private theorem seqLength_fresh (n : Nat) : seqLength (List.replicate n none) = 0 := by
  simp [seqLength]

/-! ### The CPU verifier -/

namespace CpuVerifier

/-- Every layer holds `slots`, the token sequence is theirs, and `pos` is the next position. -/
structure Standing (cfg : VerifierConfig) (slots : List Slot) (pos : Nat) (v : CpuVerifier) : Prop where
  cache_eq : v.cache = some (List.replicate cfg.layerCount (some slots))
  size_eq : v.cacheLogicalSize = slots.length
  pos_eq : v.nextGlobalPosition = pos
  tokens_eq : v.cachedTokenSequence = slots.map Slot.token

theorem Standing.inv1 {slots : List Slot} {pos : Nat} {v : CpuVerifier} (h : v.Standing cfg slots pos) :
    assertCacheInvariant1.run v = (.ok (), v) := by
  have hl : v.cachedTokenSequence.length = v.cacheSeqLength := by
    unfold cacheSeqLength
    rw [h.cache_eq, h.tokens_eq, List.length_map]
    exact (seqLength_replicate cfg.layers_pos slots).symm
  unfold assertCacheInvariant1
  rw [Proc.run_get_bind, if_neg (by simpa using hl)]
  rfl

private theorem trimLayers_replicate (n : Nat) (slots : List Slot) :
    trimLayers cfg slots.length (List.replicate n (some slots)) =
      (List.replicate n (some (sinkAndTail cfg.sinkSize (cfg.budget - cfg.sinkSize) slots)), none) := by
  induction n with
  | zero => rfl
  | succ n ih => simp [List.replicate_succ, trimLayers, ih]

private theorem sinkAndTail_eq (cfg : VerifierConfig) {α : Type} (l : List α) (h : ¬ l.length ≤ cfg.budget) :
    sinkAndTail cfg.sinkSize (cfg.budget - cfg.sinkSize) l = SinkWindow.trim cfg.sinkSize cfg.windowSize l := by
  have hw : cfg.budget - cfg.sinkSize = cfg.windowSize := by unfold VerifierConfig.budget; omega
  have h' : ¬ l.length ≤ cfg.sinkSize + cfg.windowSize := h
  unfold SinkWindow.trim sinkAndTail
  rw [hw, if_neg h']

/-- The trim of a standing cache. -/
theorem Standing.trim {slots : List Slot} {pos : Nat} {v : CpuVerifier} (h : v.Standing cfg slots pos) :
    ∃ v', (trimCacheInPlace cfg).run v = (.ok (), v') ∧
      v'.Standing cfg (SinkWindow.trim cfg.sinkSize cfg.windowSize slots) pos := by
  unfold trimCacheInPlace
  rw [Proc.run_get_bind, h.cache_eq]
  dsimp only
  rw [h.size_eq]
  split
  · rename_i hle
    refine ⟨v, rfl, ?_⟩
    rw [SinkWindow.trim_of_le _ _ hle]
    exact h
  · rename_i hgt
    rw [trimLayers_replicate]
    refine ⟨_, rfl, ?_⟩
    have hslots := sinkAndTail_eq cfg slots hgt
    have htokens := sinkAndTail_eq cfg v.cachedTokenSequence (by rw [h.tokens_eq, List.length_map]; exact hgt)
    refine ⟨by rw [hslots], ?_, h.pos_eq, ?_⟩
    · rw [SinkWindow.length_trim]
      unfold VerifierConfig.budget at hgt ⊢
      dsimp only
      omega
    · dsimp only
      rw [htokens, h.tokens_eq, SinkWindow.trim_map]

theorem run_reset (v : CpuVerifier) :
    (reset cfg).run v = (.ok (), { cache := some (List.replicate cfg.layerCount none) }) := by
  unfold reset assertCacheInvariant1
  rw [Proc.run_modify_bind, Proc.run_get_bind, if_neg (by simp [cacheSeqLength, seqLength_fresh])]
  rfl

/-- What `prefill` leaves behind. -/
theorem prefill_standing (cfg : VerifierConfig) {promptIds : List Token} (hne : promptIds ≠ []) (v : CpuVerifier) :
    ∃ v', (prefill cfg promptIds).run v = (.ok (), v') ∧
      v'.Standing cfg (SinkWindow.trim cfg.sinkSize cfg.windowSize (newSlots 0 promptIds)) promptIds.length := by
  unfold prefill
  rw [if_neg hne, Proc.run_bind_ok (run_reset v), Proc.run_modify_bind]
  have h : Standing cfg (newSlots 0 promptIds) promptIds.length
      { cache := some (forward 0 promptIds (List.replicate cfg.layerCount none)),
        cacheLogicalSize := promptIds.length, nextGlobalPosition := promptIds.length,
        cachedTokenSequence := promptIds } := by
    refine ⟨?_, (length_newSlots 0 promptIds).symm, rfl, (token_newSlots 0 promptIds).symm⟩
    simp [forward]
  obtain ⟨v', hrun, hv'⟩ := h.trim
  exact ⟨v', (Proc.run_bind_ok hrun).trans hv'.inv1, hv'⟩

theorem Standing.forwardBlock {slots : List Slot} {pos : Nat} {v : CpuVerifier} (h : v.Standing cfg slots pos)
    {tokens : List Token} (hne : tokens ≠ []) :
    ∃ v', (CpuVerifier.forwardBlock tokens).run v = (.ok (), v') ∧
      v'.Standing cfg (slots ++ newSlots pos tokens) pos := by
  unfold CpuVerifier.forwardBlock
  rw [Proc.run_get_bind, h.cache_eq]
  dsimp only
  rw [if_neg hne, Proc.run_modify_bind]
  have h' : Standing cfg (slots ++ newSlots pos tokens) pos
      { v with
        cache := some (forward v.nextGlobalPosition tokens (List.replicate cfg.layerCount (some slots))),
        cacheLogicalSize := v.cacheLogicalSize + tokens.length,
        cachedTokenSequence := v.cachedTokenSequence ++ tokens } := by
    refine ⟨?_, ?_, h.pos_eq, ?_⟩
    · simp [forward, h.pos_eq]
    · simp [h.size_eq, length_newSlots]
    · simp [h.tokens_eq, token_newSlots]
  exact ⟨_, h'.inv1, h'⟩

/-- Committing a block: its rejected tail is cut off, then the cache is trimmed. -/
theorem Standing.commitOrTruncate {slots : List Slot} {pos : Nat} {v : CpuVerifier} (h : v.Standing cfg slots pos)
    {forwarded accepted : Nat} (ha : accepted ≤ forwarded) (hd : forwarded - accepted ≤ slots.length) :
    ∃ v', (CpuVerifier.commitOrTruncate cfg forwarded accepted).run v = (.ok (), v') ∧
      v'.Standing cfg
        (SinkWindow.trim cfg.sinkSize cfg.windowSize (slots.take (slots.length - (forwarded - accepted))))
        (pos + accepted) := by
  -- the state before the trim
  obtain ⟨u, hu, hrun⟩ : ∃ u : CpuVerifier,
      u.Standing cfg (slots.take (slots.length - (forwarded - accepted))) (pos + accepted) ∧
      (CpuVerifier.commitOrTruncate cfg forwarded accepted).run v =
        (trimCacheInPlace cfg >>= fun _ => assertCacheInvariant1).run u := by
    unfold CpuVerifier.commitOrTruncate
    rw [if_neg (by omega)]
    dsimp only
    by_cases hpos : 0 < forwarded - accepted
    · rw [if_pos hpos]
      unfold truncateTailInPlace
      refine ⟨{ v with
        cache := some (List.replicate cfg.layerCount (some (slots.take (slots.length - (forwarded - accepted))))),
        cacheLogicalSize := v.cacheLogicalSize - (forwarded - accepted),
        nextGlobalPosition := v.nextGlobalPosition + accepted,
        cachedTokenSequence :=
          v.cachedTokenSequence.take (v.cachedTokenSequence.length - (forwarded - accepted)) }, ?_, ?_⟩
      · refine ⟨rfl, ?_, ?_, ?_⟩
        · simp only [h.size_eq, List.length_take]
          omega
        · simp only [h.pos_eq]
        · simp only [h.tokens_eq, List.length_map, List.map_take]
      · have hroom : ¬ v.cacheLogicalSize < forwarded - accepted := by rw [h.size_eq]; omega
        simp only [Proc.run_bind, Proc.run_get, h.cache_eq, hroom, ↓reduceIte, Proc.run_modify]
        simp [h.size_eq]
    · rw [if_neg hpos]
      have hz : forwarded - accepted = 0 := by omega
      refine ⟨{ v with nextGlobalPosition := v.nextGlobalPosition + accepted }, ?_, ?_⟩
      · rw [hz, Nat.sub_zero, List.take_length]
        exact ⟨h.cache_eq, h.size_eq, by simp only [h.pos_eq], h.tokens_eq⟩
      · simp only [Proc.run_bind, Proc.run_modify, hz, Nat.sub_zero]
  obtain ⟨v', htrim, hv'⟩ := hu.trim
  refine ⟨v', ?_, hv'⟩
  rw [hrun, Proc.run_bind_ok htrim]
  exact hv'.inv1

end CpuVerifier

/-! ### The MLX verifier -/

namespace MlxVerifier

/-- Every layer holds `slots` at the offset `off`, the token sequence is theirs, and `pos` is the next position. -/
structure Standing (cfg : VerifierConfig) (slots : List Slot) (pos off : Nat) (v : MlxVerifier) : Prop where
  cache_eq : v.cache = some (List.replicate cfg.layerCount ⟨some slots, off⟩)
  pos_eq : v.nextGlobalPosition = pos
  tokens_eq : v.cachedTokenSequence = slots.map Slot.token

theorem Standing.bufferSize {slots : List Slot} {pos off : Nat} {v : MlxVerifier}
    (h : v.Standing cfg slots pos off) : v.cacheBufferSize = slots.length := by
  unfold cacheBufferSize
  rw [h.cache_eq]
  dsimp only
  rw [List.map_replicate]
  exact seqLength_replicate cfg.layers_pos slots

theorem Standing.inv1 {slots : List Slot} {pos off : Nat} {v : MlxVerifier} (h : v.Standing cfg slots pos off) :
    assertCacheInvariant1.run v = (.ok (), v) := by
  unfold assertCacheInvariant1
  rw [Proc.run_get_bind, if_neg (by rw [h.bufferSize, h.tokens_eq, List.length_map]; simp)]
  rfl

theorem Standing.sync {slots : List Slot} {pos off : Nat} {v : MlxVerifier} (h : v.Standing cfg slots pos off) :
    v.syncLogicalSize.Standing cfg slots pos off :=
  ⟨h.cache_eq, h.pos_eq, h.tokens_eq⟩

/-- `update_and_fetch` trims what it appends to. -/
private theorem updateAndFetch_eq (tokens : List Token) (c : SinkWindowKVCache) :
    c.updateAndFetch cfg tokens =
      ⟨some (SinkWindow.trim cfg.sinkSize cfg.windowSize (c.keys.getD [] ++ newSlots c.offset tokens)),
        c.offset + tokens.length⟩ := by
  unfold SinkWindowKVCache.updateAndFetch SinkWindow.trim VerifierConfig.budget
  dsimp only
  split
  · rw [if_neg (by omega)]
  · rw [if_pos (by omega)]

theorem run_reset (v : MlxVerifier) :
    (reset cfg).run v = (.ok (), { cache := some (List.replicate cfg.layerCount {}) }) := by
  unfold reset assertCacheInvariant1
  rw [Proc.run_modify_bind, Proc.run_get_bind,
    if_neg (by simp [cacheBufferSize, List.map_replicate, seqLength_fresh])]
  rfl

theorem prefill_standing (cfg : VerifierConfig) {promptIds : List Token} (hne : promptIds ≠ []) (v : MlxVerifier) :
    ∃ v', (prefill cfg promptIds).run v = (.ok (), v') ∧
      v'.Standing cfg (SinkWindow.trim cfg.sinkSize cfg.windowSize (newSlots 0 promptIds)) promptIds.length
        promptIds.length := by
  unfold prefill
  rw [if_neg hne, Proc.run_bind_ok (run_reset v), Proc.run_modify_bind, Proc.run_modify_bind]
  have h : Standing cfg (SinkWindow.trim cfg.sinkSize cfg.windowSize (newSlots 0 promptIds)) promptIds.length
      promptIds.length
      { cache := some (forward cfg promptIds (List.replicate cfg.layerCount {})),
        nextGlobalPosition := promptIds.length, cachedTokenSequence := sinkWindowSlice cfg promptIds } := by
    refine ⟨?_, rfl, ?_⟩
    · simp [forward, updateAndFetch_eq]
    · rw [← SinkWindow.trim_map, token_newSlots]
      rfl
  exact ⟨_, h.sync.inv1, h.sync⟩

/-- Extending a standing cache: every layer appends and trims. -/
theorem Standing.extend {slots : List Slot} {pos off : Nat} {v : MlxVerifier} (h : v.Standing cfg slots pos off)
    {tokens : List Token} (hne : tokens ≠ []) (advance : Nat) :
    ∃ v', (MlxVerifier.extend cfg tokens advance).run v = (.ok (), v') ∧
      v'.Standing cfg (SinkWindow.trim cfg.sinkSize cfg.windowSize (slots ++ newSlots off tokens)) (pos + advance)
        (off + tokens.length) := by
  unfold MlxVerifier.extend
  rw [Proc.run_get_bind, h.cache_eq]
  dsimp only
  rw [if_neg hne, Proc.run_modify_bind, Proc.run_modify_bind]
  have h' : Standing cfg (SinkWindow.trim cfg.sinkSize cfg.windowSize (slots ++ newSlots off tokens)) (pos + advance)
      (off + tokens.length)
      { v with
        cache := some (forward cfg tokens (List.replicate cfg.layerCount ⟨some slots, off⟩)),
        cachedTokenSequence := sinkWindowSlice cfg (v.cachedTokenSequence ++ tokens),
        nextGlobalPosition := v.nextGlobalPosition + advance } := by
    refine ⟨?_, by simp only [h.pos_eq], ?_⟩
    · simp [forward, updateAndFetch_eq]
    · rw [h.tokens_eq, ← SinkWindow.trim_map, List.map_append, token_newSlots]
      rfl
  exact ⟨_, h'.sync.inv1, h'.sync⟩

private theorem trim_slots {slots : List Slot} {off n : Nat} (hn : 0 < n) (hle : n ≤ slots.length) :
    SinkWindowKVCache.trim n ⟨some slots, off⟩ = (n, ⟨some (slots.take (slots.length - n)), off - n⟩) := by
  unfold SinkWindowKVCache.trim
  simp only [Nat.min_eq_right hle, hn, ↓reduceIte]

/-- Committing a block: the rejected tail is cut off what the forward pass has left. -/
theorem Standing.commitOrTruncate {slots : List Slot} {pos off : Nat} {v : MlxVerifier}
    (h : v.Standing cfg slots pos off) {forwarded accepted : Nat} (ha : accepted ≤ forwarded)
    (hd : forwarded - accepted ≤ slots.length) :
    ∃ v', (MlxVerifier.commitOrTruncate forwarded accepted).run v = (.ok (), v') ∧
      v'.Standing cfg (slots.take (slots.length - (forwarded - accepted))) (pos + accepted)
        (off - (forwarded - accepted)) := by
  unfold MlxVerifier.commitOrTruncate
  rw [if_neg (by omega)]
  by_cases hpos : 0 < forwarded - accepted
  · rw [if_pos hpos]
    have hcut : ∃ u, (truncateTail (forwarded - accepted)).run v = (.ok (), u) ∧
        u.Standing cfg (slots.take (slots.length - (forwarded - accepted))) pos (off - (forwarded - accepted)) := by
      unfold truncateTail
      rw [Proc.run_get_bind, h.cache_eq]
      dsimp only
      rw [List.map_replicate, trim_slots hpos hd, Proc.run_modify_bind]
      rw [if_neg (by simp)]
      refine ⟨_, rfl, ⟨by simp, h.pos_eq, ?_⟩⟩
      dsimp only
      rw [h.tokens_eq, List.length_map, List.map_take]
    obtain ⟨u, hu, hst⟩ := hcut
    have h' : Standing cfg (slots.take (slots.length - (forwarded - accepted))) (pos + accepted)
        (off - (forwarded - accepted)) { u with nextGlobalPosition := u.nextGlobalPosition + accepted } :=
      ⟨hst.cache_eq, by simp only [hst.pos_eq], hst.tokens_eq⟩
    rw [Proc.run_bind_ok hu, Proc.run_modify_bind, Proc.run_modify_bind]
    exact ⟨_, h'.sync.inv1, h'.sync⟩
  · rw [if_neg hpos]
    dsimp only
    rw [Proc.run_modify_bind, Proc.run_modify_bind]
    have hz : forwarded - accepted = 0 := by omega
    have h' : Standing cfg slots (pos + accepted) off
        { v with nextGlobalPosition := v.nextGlobalPosition + accepted } :=
      ⟨h.cache_eq, by simp only [h.pos_eq], h.tokens_eq⟩
    rw [hz, Nat.sub_zero, Nat.sub_zero, List.take_length]
    exact ⟨_, h'.sync.inv1, h'.sync⟩

/-- A rejected tail that is longer than the buffer empties the layers and raises. -/
theorem Standing.commitOrTruncate_fails {slots : List Slot} {pos off : Nat} {v : MlxVerifier}
    (h : v.Standing cfg slots pos off) {forwarded accepted : Nat} (hd : slots.length < forwarded - accepted) :
    ∃ e v', (MlxVerifier.commitOrTruncate forwarded accepted).run v = (.error e, v') ∧
      v'.cachedTokenSequence = v.cachedTokenSequence ∧
      ∃ c, v'.cache = some (List.replicate cfg.layerCount c) ∧ c.keys.getD [] = [] := by
  have htrim : SinkWindowKVCache.trim (forwarded - accepted) ⟨some slots, off⟩ =
      (slots.length, ⟨some [], off - slots.length⟩) := by
    unfold SinkWindowKVCache.trim
    simp only [Nat.min_eq_left (by omega : slots.length ≤ forwarded - accepted), Nat.sub_self, List.take_zero]
    split
    · rfl
    · have hz : slots.length = 0 := by omega
      obtain rfl := List.eq_nil_of_length_eq_zero hz
      rfl
  unfold MlxVerifier.commitOrTruncate
  rw [if_neg (by omega), if_pos (by omega)]
  have hcut : ∃ e, (truncateTail (forwarded - accepted)).run v =
      (.error e, { v with cache := some (List.replicate cfg.layerCount ⟨some [], off - slots.length⟩) }) := by
    have hpos := cfg.layers_pos
    unfold truncateTail
    rw [Proc.run_get_bind, h.cache_eq]
    dsimp only
    rw [List.map_replicate, htrim, Proc.run_modify_bind]
    rw [if_pos (by simp; omega)]
    rw [Proc.run_raise]
    simp only [List.map_replicate]
    exact ⟨_, rfl⟩
  obtain ⟨e, he⟩ := hcut
  rw [Proc.run_bind_error he]
  exact ⟨e, _, rfl, rfl, _, rfl, rfl⟩

end MlxVerifier

/-! ### Both verifiers on the same operations -/

/-- An operation of a verifier; a speculative block is forwarded and then committed. -/
inductive VerifierOp
  | prefill (promptIds : List Token)
  | speculate (tokens : List Token) (accepted : Nat) (h : accepted ≤ tokens.length)
  | appendToken (tokenId : Token)

/-- The two verifiers side by side. -/
structure Pair where
  mlx : MlxVerifier := {}
  cpu : CpuVerifier := {}

namespace Pair

variable (cfg)

def performMlx : VerifierOp → MlxProc Unit
  | .prefill ts => MlxVerifier.prefill cfg ts
  | .speculate ts accepted _ => do
    MlxVerifier.forwardBlock cfg ts
    MlxVerifier.commitOrTruncate ts.length accepted
  | .appendToken t => MlxVerifier.appendToken cfg t

def performCpu : VerifierOp → CpuProc Unit
  | .prefill ts => CpuVerifier.prefill cfg ts
  | .speculate ts accepted _ => do
    CpuVerifier.forwardBlock ts
    CpuVerifier.commitOrTruncate cfg ts.length accepted
  | .appendToken t => CpuVerifier.appendToken cfg t

/-- A step of both verifiers: what each returned or raised, and the states after it. -/
def step (p : Pair) (op : VerifierOp) : (Except VerifierError Unit × Except VerifierError Unit) × Pair :=
  ((((performMlx cfg op).run p.mlx).1, ((performCpu cfg op).run p.cpu).1),
    ⟨((performMlx cfg op).run p.mlx).2, ((performCpu cfg op).run p.cpu).2⟩)

/-- The verifiers agree: on the token sequence, which in both is that of the slots in every layer, and on the next
global position. -/
structure Agree (p : Pair) : Prop where
  tokens : p.mlx.cachedTokenSequence = p.cpu.cachedTokenSequence
  position : p.mlx.nextGlobalPosition = p.cpu.nextGlobalPosition
  mlxSlots : ∀ layers, p.mlx.cache = some layers → ∀ c ∈ layers,
    (c.keys.getD []).map Slot.token = p.mlx.cachedTokenSequence
  cpuSlots : ∀ layers, p.cpu.cache = some layers → ∀ keys ∈ layers,
    (keys.getD []).map Slot.token = p.cpu.cachedTokenSequence

/-- A speculative block on a prefilled verifier is accepted as a whole, or fits the room that is left. -/
def BlockFits (p : Pair) : VerifierOp → Prop
  | .speculate ts accepted _ =>
    p.cpu.cache ≠ none → accepted = ts.length ∨ p.cpu.cachedTokenSequence.length + ts.length ≤ cfg.budget
  | _ => True

/-- Both verifiers are unused, or all their layers hold the same slots, within the budget. -/
def InStep (p : Pair) : Prop :=
  p = {} ∨ ∃ slots pos, p.mlx.Standing cfg slots pos pos ∧ p.cpu.Standing cfg slots pos ∧ slots.length ≤ cfg.budget

variable {cfg}

theorem InStep.agree {p : Pair} (h : p.InStep cfg) : p.Agree := by
  rcases h with rfl | ⟨slots, pos, hm, hc, -⟩
  · refine ⟨rfl, rfl, ?_, ?_⟩
    · intro layers hl
      cases hl
    · intro layers hl
      cases hl
  · refine ⟨hm.tokens_eq.trans hc.tokens_eq.symm, hm.pos_eq.trans hc.pos_eq.symm, ?_, ?_⟩
    · intro layers hl c hmem
      rw [hm.cache_eq] at hl
      obtain rfl := Option.some.inj hl
      rw [(List.mem_replicate.1 hmem).2, hm.tokens_eq]
      rfl
    · intro layers hl keys hmem
      rw [hc.cache_eq] at hl
      obtain rfl := Option.some.inj hl
      rw [(List.mem_replicate.1 hmem).2, hc.tokens_eq]
      rfl

theorem inStep_of_standing {p : Pair} {slots : List Slot} {pos : Nat} (hm : p.mlx.Standing cfg slots pos pos)
    (hc : p.cpu.Standing cfg slots pos) (hl : slots.length ≤ cfg.budget) : p.InStep cfg :=
  Or.inr ⟨slots, pos, hm, hc, hl⟩

private theorem trim_within {α : Type} (l : List α) :
    (SinkWindow.trim cfg.sinkSize cfg.windowSize l).length ≤ cfg.budget := by
  rw [SinkWindow.length_trim]
  exact Nat.min_le_right _ _

/-- `prefill` brings the verifiers in step, or both refuse it. -/
theorem prefill_inStep {p : Pair} (h : p.InStep cfg) (ts : List Token) : (step cfg p (.prefill ts)).2.InStep cfg := by
  by_cases hne : ts = []
  · subst hne
    exact h
  · obtain ⟨m, hm, hms⟩ := MlxVerifier.prefill_standing cfg hne p.mlx
    obtain ⟨c, hc, hcs⟩ := CpuVerifier.prefill_standing cfg hne p.cpu
    unfold step performMlx performCpu
    dsimp only
    rw [hm, hc]
    exact inStep_of_standing hms hcs (trim_within _)

/-- Accepting a whole block keeps the verifiers in step: trimming before or after makes no difference. -/
theorem speculate_all {p : Pair} {slots : List Slot} {pos : Nat} (hm : p.mlx.Standing cfg slots pos pos)
    (hc : p.cpu.Standing cfg slots pos) {ts : List Token} (hne : ts ≠ []) {accepted : Nat}
    (ha : accepted ≤ ts.length) (hacc : accepted = ts.length) :
    (step cfg p (.speculate ts accepted ha)).2.InStep cfg := by
  obtain ⟨m₁, hm₁, hms₁⟩ := hm.extend hne 0
  obtain ⟨c₁, hc₁, hcs₁⟩ := hc.forwardBlock hne
  obtain ⟨m₂, hm₂, hms₂⟩ := hms₁.commitOrTruncate ha (by omega)
  obtain ⟨c₂, hc₂, hcs₂⟩ := hcs₁.commitOrTruncate ha (by omega)
  unfold step performMlx performCpu MlxVerifier.forwardBlock
  dsimp only
  rw [Proc.run_bind_ok hm₁, hm₂, Proc.run_bind_ok hc₁, hc₂]
  subst hacc
  simp only [Nat.sub_self, Nat.sub_zero, List.take_length, Nat.add_zero] at hms₂ hcs₂
  exact inStep_of_standing hms₂ hcs₂ (trim_within _)

/-- A block that fits the room is not trimmed before its tail is cut off. -/
theorem speculate_fits {p : Pair} {slots : List Slot} {pos : Nat} (hm : p.mlx.Standing cfg slots pos pos)
    (hc : p.cpu.Standing cfg slots pos) {ts : List Token} (hne : ts ≠ []) {accepted : Nat}
    (ha : accepted ≤ ts.length) (hfit : slots.length + ts.length ≤ cfg.budget) :
    (step cfg p (.speculate ts accepted ha)).2.InStep cfg := by
  have hlen : (slots ++ newSlots pos ts).length = slots.length + ts.length := by simp [length_newSlots]
  obtain ⟨m₁, hm₁, hms₁⟩ := hm.extend hne 0
  rw [SinkWindow.trim_of_le _ _ (show (slots ++ newSlots pos ts).length ≤ cfg.sinkSize + cfg.windowSize by
    rw [hlen]; exact hfit)] at hms₁
  obtain ⟨c₁, hc₁, hcs₁⟩ := hc.forwardBlock hne
  obtain ⟨m₂, hm₂, hms₂⟩ := hms₁.commitOrTruncate ha (by omega)
  obtain ⟨c₂, hc₂, hcs₂⟩ := hcs₁.commitOrTruncate ha (by omega)
  have htake : ((slots ++ newSlots pos ts).take
      ((slots ++ newSlots pos ts).length - (ts.length - accepted))).length ≤ cfg.budget := by
    rw [List.length_take]
    omega
  rw [SinkWindow.trim_of_le _ _ htake] at hcs₂
  have hoff : pos + ts.length - (ts.length - accepted) = pos + 0 + accepted := by omega
  rw [hoff] at hms₂
  unfold step performMlx performCpu MlxVerifier.forwardBlock
  dsimp only
  rw [Proc.run_bind_ok hm₁, hm₂, Proc.run_bind_ok hc₁, hc₂]
  exact inStep_of_standing hms₂ hcs₂ htake

/-- A block that is partly rejected and too long for the room loses slots in the MLX cache that the CPU cache keeps. -/
theorem speculate_overflows {p : Pair} {slots : List Slot} {pos : Nat} (hm : p.mlx.Standing cfg slots pos pos)
    (hc : p.cpu.Standing cfg slots pos) {ts : List Token} {accepted : Nat} (ha : accepted ≤ ts.length)
    (hrej : accepted ≠ ts.length) (hover : ¬ slots.length + ts.length ≤ cfg.budget) :
    ¬ (step cfg p (.speculate ts accepted ha)).2.Agree := by
  intro hagree
  have hne : ts ≠ [] := by
    rintro rfl
    simp only [List.length_nil] at ha hrej
    omega
  have hlen : (slots ++ newSlots pos ts).length = slots.length + ts.length := by simp [length_newSlots]
  obtain ⟨m₁, hm₁, hms₁⟩ := hm.extend hne 0
  obtain ⟨c₁, hc₁, hcs₁⟩ := hc.forwardBlock hne
  obtain ⟨c₂, hc₂, hcs₂⟩ := hcs₁.commitOrTruncate ha (by omega)
  have htrim : (SinkWindow.trim cfg.sinkSize cfg.windowSize (slots ++ newSlots pos ts)).length = cfg.budget := by
    rw [SinkWindow.length_trim, hlen]
    unfold VerifierConfig.budget at hover ⊢
    omega
  have hwindow := cfg.window_pos
  have hbudget : 0 < cfg.budget := by unfold VerifierConfig.budget; omega
  by_cases hd : ts.length - accepted ≤ cfg.budget
  · -- the tail is cut off the trimmed buffer: the sequences differ in length
    obtain ⟨m₂, hm₂, hms₂⟩ := hms₁.commitOrTruncate ha (by rw [htrim]; exact hd)
    unfold step performMlx performCpu MlxVerifier.forwardBlock at hagree
    dsimp only at hagree
    rw [Proc.run_bind_ok hm₁, hm₂, Proc.run_bind_ok hc₁, hc₂] at hagree
    have hl := congrArg List.length hagree.tokens
    dsimp only at hl
    rw [hms₂.tokens_eq, hcs₂.tokens_eq, List.length_map, List.length_map, List.length_take, htrim,
      SinkWindow.length_trim, List.length_take, hlen] at hl
    unfold VerifierConfig.budget at hl hd hover
    omega
  · -- the layers are emptied and the verifier raises with its token sequence still full
    obtain ⟨e, m₂, hm₂, htok, c, hcache, hempty⟩ :=
      hms₁.commitOrTruncate_fails (show _ < ts.length - accepted by rw [htrim]; omega)
    unfold step performMlx performCpu MlxVerifier.forwardBlock at hagree
    dsimp only at hagree
    rw [Proc.run_bind_ok hm₁, hm₂] at hagree
    have hl := hagree.mlxSlots _ hcache c (List.mem_replicate.2 ⟨by have := cfg.layers_pos; omega, rfl⟩)
    dsimp only at hl
    rw [hempty, htok, hms₁.tokens_eq] at hl
    have hl' := congrArg List.length hl
    rw [List.map_nil, List.length_nil, List.length_map, htrim] at hl'
    omega

/-- A verifier that was never prefilled refuses a block on either side. -/
private theorem speculate_unused (ts : List Token) {accepted : Nat} (ha : accepted ≤ ts.length) :
    (step cfg {} (.speculate ts accepted ha)).2 = {} := rfl

theorem appendToken_inStep {p : Pair} (h : p.InStep cfg) (t : Token) :
    (step cfg p (.appendToken t)).2.InStep cfg := by
  rcases h with rfl | ⟨slots, pos, hm, hc, -⟩
  · exact Or.inl rfl
  · obtain ⟨m₁, hm₁, hms₁⟩ := hm.extend (show [t] ≠ [] by simp) 1
    obtain ⟨c₁, hc₁, hcs₁⟩ := hc.forwardBlock (show [t] ≠ [] by simp)
    obtain ⟨c₂, hc₂, hcs₂⟩ := hcs₁.commitOrTruncate (show 1 ≤ 1 by omega) (by omega)
    unfold step performMlx performCpu MlxVerifier.appendToken MlxVerifier.appendAcceptedTokens
      CpuVerifier.appendToken
    dsimp only [List.length_singleton]
    rw [hm₁, Proc.run_bind_ok hc₁, hc₂]
    simp only [Nat.sub_self, Nat.sub_zero, List.take_length, List.length_singleton] at hms₁ hcs₂
    exact inStep_of_standing hms₁ hcs₂ (trim_within _)

/-- From verifiers in step, an operation keeps them in step when its block fits, and otherwise they part. -/
theorem step_inStep {p : Pair} (h : p.InStep cfg) (op : VerifierOp) :
    (p.BlockFits cfg op → (step cfg p op).2.InStep cfg) ∧ (¬ p.BlockFits cfg op → ¬ (step cfg p op).2.Agree) := by
  cases op with
  | prefill ts => exact ⟨fun _ => prefill_inStep h ts, fun hn => absurd trivial hn⟩
  | appendToken t => exact ⟨fun _ => appendToken_inStep h t, fun hn => absurd trivial hn⟩
  | speculate ts accepted ha =>
    rcases h with rfl | ⟨slots, pos, hm, hc, hl⟩
    · refine ⟨fun _ => Or.inl (speculate_unused ts ha), fun hn => absurd ?_ hn⟩
      intro hnone
      exact absurd rfl hnone
    · have hcached : p.cpu.cachedTokenSequence.length = slots.length := by rw [hc.tokens_eq, List.length_map]
      have hsome : p.cpu.cache ≠ none := by rw [hc.cache_eq]; simp
      constructor
      · intro hfit
        by_cases hne : ts = []
        · -- both refuse an empty block
          subst hne
          have hm' : (MlxVerifier.extend cfg [] 0).run p.mlx =
              (.error (.valueError "tokens must be non-empty"), p.mlx) := by
            unfold MlxVerifier.extend
            rw [Proc.run_get_bind, hm.cache_eq]
            rfl
          have hc' : (CpuVerifier.forwardBlock []).run p.cpu =
              (.error (.valueError "tokens must be non-empty"), p.cpu) := by
            unfold CpuVerifier.forwardBlock
            rw [Proc.run_get_bind, hc.cache_eq]
            rfl
          unfold step performMlx performCpu MlxVerifier.forwardBlock
          dsimp only
          rw [Proc.run_bind_error hm', Proc.run_bind_error hc']
          exact inStep_of_standing hm hc hl
        · rcases hfit hsome with hacc | hroom
          · exact speculate_all hm hc hne ha hacc
          · exact speculate_fits hm hc hne ha (by rw [← hcached]; exact hroom)
      · intro hn
        refine speculate_overflows hm hc ha ?_ ?_
        · exact fun hacc => hn fun _ => Or.inl hacc
        · exact fun hroom => hn fun _ => Or.inr (by rw [hcached]; exact hroom)

/-- The MLX and the CPU verifier agree after every operation exactly when every speculative block on a prefilled
verifier is accepted as a whole or fits the room that is left under sink plus window. -/
theorem parity_iff (cfg : VerifierConfig) (ops : List VerifierOp) :
    (∀ k, (Machine.final (step cfg) {} (ops.take k)).Agree) ↔ Machine.AllSteps (step cfg) (BlockFits cfg) {} ops := by
  suffices h : ∀ p : Pair, p.InStep cfg →
      ((∀ k, (Machine.final (step cfg) p (ops.take k)).Agree) ↔ Machine.AllSteps (step cfg) (BlockFits cfg) p ops) from
    h {} (Or.inl rfl)
  induction ops with
  | nil =>
    intro p hp
    exact ⟨fun _ => trivial, fun _ k => by simpa [Machine.final] using hp.agree⟩
  | cons op ops ih =>
    intro p hp
    obtain ⟨hkeep, hpart⟩ := step_inStep hp op
    constructor
    · intro h
      have hfit : p.BlockFits cfg op := by
        by_contra hn
        exact hpart hn (h 1)
      exact ⟨hfit, (ih _ (hkeep hfit)).1 fun k => h (k + 1)⟩
    · rintro ⟨hfit, hrest⟩ k
      cases k with
      | zero => exact hp.agree
      | succ k => exact (ih _ (hkeep hfit)).2 hrest k

/-- One sink slot and a window of two, in a model of one layer. -/
def smallConfig : VerifierConfig := ⟨1, 2, 1, Nat.two_pos, Nat.one_pos⟩

/-- A prompt that fills the cache, then a block of two tokens of which one is accepted: the MLX cache has lost the slot
of token 3, which the CPU cache still holds. -/
theorem rejected_block_loses_slot :
    let p := Machine.final (step smallConfig) {} [.prefill [1, 2, 3], .speculate [4, 5] 1 (by decide)];
    p.mlx.cachedTokenSequence = [1, 4] ∧ p.cpu.cachedTokenSequence = [1, 3, 4] ∧ ¬ p.Agree := by
  intro p
  have hm : p.mlx.cachedTokenSequence = [1, 4] := by decide
  have hc : p.cpu.cachedTokenSequence = [1, 3, 4] := by decide
  refine ⟨hm, hc, ?_⟩
  intro h
  have ht := h.tokens
  rw [hm, hc] at ht
  exact absurd ht (by decide)

end Pair

end KakeyaEngine
