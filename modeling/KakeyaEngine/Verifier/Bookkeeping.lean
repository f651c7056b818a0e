import KakeyaEngine.Verifier.Parity
import KakeyaEngine.Verifier.Restored

/-!
# Token bookkeeping of the sink-window verifiers

The accepted history of a run is the last prompt and every token accepted since.  The CPU verifier holds it in pieces, cut
and trimmed at every commit; the restored verifier recomputes its bounded sequence from the whole prefix.  Both hold the
trimmed history after every commit, at every sink and window size (`bookkeeping_after_commit`): trimming what was trimmed
before and extended since is trimming the whole history (`SinkWindow.trim_append`).
-/

namespace KakeyaEngine

variable {cfg : VerifierConfig} {incremental : Bool}

/-- Forwarding two pieces gives the slots of the whole. -/
theorem newSlots_append (start : Nat) (l r : List Token) :
    newSlots start (l ++ r) = newSlots start l ++ newSlots (start + l.length) r := by
  unfold newSlots
  rw [List.zipIdx_append, List.map_append, Nat.zero_add, List.zipIdx_eq_map_add (i := l.length), List.map_map]
  congr 1
  refine List.map_congr_left fun p _ => ?_
  simp only [Function.comp_apply, Slot.mk.injEq, true_and]
  omega

/-- Cutting the rejected tail off a forwarded block leaves the slots of the accepted tokens. -/
theorem take_newSlots (slots : List Slot) (start : Nat) {tokens : List Token} {accepted : Nat}
    (ha : accepted ≤ tokens.length) :
    (slots ++ newSlots start tokens).take ((slots ++ newSlots start tokens).length - (tokens.length - accepted)) =
      slots ++ newSlots start (tokens.take accepted) := by
  have hlen : (slots ++ newSlots start tokens).length - (tokens.length - accepted) = slots.length + accepted := by
    rw [List.length_append, length_newSlots]
    omega
  have hsplit : newSlots start tokens =
      newSlots start (tokens.take accepted) ++
        newSlots (start + (tokens.take accepted).length) (tokens.drop accepted) := by
    rw [← newSlots_append, List.take_append_drop]
  rw [hlen, List.take_length_add_append, hsplit]
  congr 1
  exact List.take_left' (by rw [length_newSlots, List.length_take]; omega)

/-! ### The accepted history -/

namespace VerifierOp

/-- The operation is not refused by a verifier that holds `history`. -/
def Accepted (history : List Token) : VerifierOp → Prop
  | prefill promptIds => promptIds ≠ []
  | speculate tokens _ _ => history ≠ [] ∧ tokens ≠ []
  | appendToken _ => history ≠ []

/-- What the operation adds to the history when it is accepted. -/
def extend (history : List Token) : VerifierOp → List Token
  | prefill promptIds => promptIds
  | speculate tokens accepted _ => history ++ tokens.take accepted
  | appendToken tokenId => history ++ [tokenId]

instance (history : List Token) : (op : VerifierOp) → Decidable (op.Accepted history)
  | prefill promptIds => inferInstanceAs (Decidable (promptIds ≠ []))
  | speculate tokens _ _ => inferInstanceAs (Decidable (history ≠ [] ∧ tokens ≠ []))
  | appendToken _ => inferInstanceAs (Decidable (history ≠ []))

/-- The history after the operation. -/
def advance (history : List Token) (op : VerifierOp) : List Token :=
  if op.Accepted history then op.extend history else history

/-- The accepted history of a run on a fresh verifier. -/
def history (ops : List VerifierOp) : List Token := ops.foldl advance []

theorem history_concat (ops : List VerifierOp) (op : VerifierOp) : history (ops ++ [op]) = advance (history ops) op := by
  simp [history]

theorem Accepted.advance_eq {h : List Token} {op : VerifierOp} (ha : op.Accepted h) : advance h op = op.extend h :=
  if_pos ha

theorem Accepted.advance_ne_nil {h : List Token} {op : VerifierOp} (ha : op.Accepted h) : advance h op ≠ [] := by
  rw [ha.advance_eq]
  cases op with
  | prefill promptIds => exact ha
  | speculate tokens accepted _ => exact fun hn => ha.1 (List.append_eq_nil_iff.1 hn).1
  | appendToken tokenId => simp [extend]

end VerifierOp

open VerifierOp

/-! ### The CPU verifier -/

namespace CpuVerifier

variable (cfg) in
/-- The verifier after a run. -/
def after (ops : List VerifierOp) : CpuVerifier := Machine.final (fun v op => (Pair.performCpu cfg op).run v) {} ops

/-- The token sequence is the trimmed history, the counters are its length and that of the history, and every layer
holds the entries of the positions that are kept. -/
structure Bookkept (cfg : VerifierConfig) (history : List Token) (v : CpuVerifier) : Prop where
  tokens : v.cachedTokenSequence = SinkWindow.trim cfg.sinkSize cfg.windowSize history
  size : v.cacheLogicalSize = v.cachedTokenSequence.length
  layers : ∃ layers, v.cache = some layers ∧ layers.length = cfg.layerCount ∧
    ∀ keys ∈ layers, ∃ slots, keys = some slots ∧ slots.length = v.cachedTokenSequence.length ∧
      slots = SinkWindow.trim cfg.sinkSize cfg.windowSize (newSlots 0 history)
  position : v.nextGlobalPosition = history.length

/-- The verifier is unused, or stands at the trimmed history. -/
def Holds (cfg : VerifierConfig) (history : List Token) (v : CpuVerifier) : Prop :=
  history = [] ∧ v = {} ∨
    history ≠ [] ∧ v.Standing cfg (SinkWindow.trim cfg.sinkSize cfg.windowSize (newSlots 0 history)) history.length

theorem Standing.bookkept {h : List Token} {v : CpuVerifier}
    (hv : v.Standing cfg (SinkWindow.trim cfg.sinkSize cfg.windowSize (newSlots 0 h)) h.length) : v.Bookkept cfg h := by
  have htokens : v.cachedTokenSequence = SinkWindow.trim cfg.sinkSize cfg.windowSize h := by
    rw [hv.tokens_eq, ← SinkWindow.trim_map, token_newSlots]
  have hlen : v.cachedTokenSequence.length =
      (SinkWindow.trim cfg.sinkSize cfg.windowSize (newSlots 0 h)).length := by
    rw [hv.tokens_eq, List.length_map]
  refine ⟨htokens, hv.size_eq.trans hlen.symm, ⟨_, hv.cache_eq, List.length_replicate, ?_⟩, hv.pos_eq⟩
  intro keys hkeys
  exact ⟨_, (List.mem_replicate.1 hkeys).2, hlen.symm, rfl⟩

/-- A block of which a part is accepted: cut and trimmed, the slots are those of the longer history. -/
theorem speculate_standing {h : List Token} {v : CpuVerifier}
    (hv : v.Standing cfg (SinkWindow.trim cfg.sinkSize cfg.windowSize (newSlots 0 h)) h.length) {tokens : List Token}
    (hne : tokens ≠ []) {accepted : Nat} (ha : accepted ≤ tokens.length) :
    ∃ v', (forwardBlock tokens >>= fun _ => commitOrTruncate cfg tokens.length accepted).run v = (.ok (), v') ∧
      v'.Standing cfg (SinkWindow.trim cfg.sinkSize cfg.windowSize (newSlots 0 (h ++ tokens.take accepted)))
        (h ++ tokens.take accepted).length := by
  obtain ⟨v₁, hrun₁, hv₁⟩ := hv.forwardBlock hne
  obtain ⟨v₂, hrun₂, hv₂⟩ := hv₁.commitOrTruncate ha (by rw [List.length_append, length_newSlots]; omega)
  refine ⟨v₂, (Proc.run_bind_ok hrun₁).trans hrun₂, ?_⟩
  rw [take_newSlots _ _ ha, SinkWindow.trim_append] at hv₂
  have hslots : newSlots 0 (h ++ tokens.take accepted) = newSlots 0 h ++ newSlots h.length (tokens.take accepted) := by
    rw [newSlots_append, Nat.zero_add]
  have hlen : (h ++ tokens.take accepted).length = h.length + accepted := by
    rw [List.length_append, List.length_take]
    omega
  rw [hslots, hlen]
  exact hv₂

/-- The step lemma: an accepted operation returns and leaves the longer history, a refused one changes nothing. -/
theorem Holds.perform {h : List Token} {v : CpuVerifier} (hv : v.Holds cfg h) (op : VerifierOp) :
    (op.Accepted h → ((Pair.performCpu cfg op).run v).1 = .ok ()) ∧
      ((Pair.performCpu cfg op).run v).2.Holds cfg (op.advance h) := by
  by_cases ha : op.Accepted h
  · suffices hs : ∃ v', (Pair.performCpu cfg op).run v = (.ok (), v') ∧
        v'.Standing cfg (SinkWindow.trim cfg.sinkSize cfg.windowSize (newSlots 0 (op.advance h)))
          (op.advance h).length by
      obtain ⟨v', hrun, hv'⟩ := hs
      rw [hrun]
      exact ⟨fun _ => rfl, Or.inr ⟨ha.advance_ne_nil, hv'⟩⟩
    rw [ha.advance_eq]
    cases op with
    | prefill promptIds => exact prefill_standing cfg ha v
    | speculate tokens accepted hle =>
      rcases hv with ⟨rfl, -⟩ | ⟨-, hst⟩
      · exact absurd rfl ha.1
      · exact speculate_standing hst ha.2 hle
    | appendToken tokenId =>
      rcases hv with ⟨rfl, -⟩ | ⟨-, hst⟩
      · exact absurd rfl ha
      · exact speculate_standing hst (List.cons_ne_nil tokenId []) (Nat.le_refl 1)
  · refine ⟨fun hn => absurd hn ha, ?_⟩
    have hadv : op.advance h = h := if_neg ha
    suffices hsame : ((Pair.performCpu cfg op).run v).2 = v by
      rw [hsame, hadv]
      exact hv
    cases op with
    | prefill promptIds =>
      obtain rfl : promptIds = [] := not_not.1 ha
      rfl
    | speculate tokens accepted hle =>
      rcases hv with ⟨-, rfl⟩ | ⟨hne, hst⟩
      · rfl
      · -- only an empty block is left
        obtain rfl : tokens = [] := not_not.1 fun hn => ha ⟨hne, hn⟩
        have hrun : (forwardBlock []).run v = (.error (.valueError "tokens must be non-empty"), v) := by
          unfold forwardBlock
          rw [Proc.run_get_bind, hst.cache_eq]
          rfl
        exact congrArg Prod.snd (Proc.run_bind_error hrun)
    | appendToken tokenId =>
      rcases hv with ⟨-, rfl⟩ | ⟨hne, -⟩
      · rfl
      · exact absurd hne ha

/-- The run lemma. -/
theorem after_holds (cfg : VerifierConfig) (ops : List VerifierOp) : (after cfg ops).Holds cfg (history ops) := by
  suffices hrun : ∀ (v : CpuVerifier) (h : List Token), v.Holds cfg h →
      (Machine.final (fun v op => (Pair.performCpu cfg op).run v) v ops).Holds cfg (ops.foldl advance h) from
    hrun {} [] (Or.inl ⟨rfl, rfl⟩)
  induction ops with
  | nil => exact fun v h hv => hv
  | cons op ops ih => exact fun v h hv => ih _ _ (hv.perform op).2

end CpuVerifier

/-! ### The restored verifier -/

namespace RestoredSinkWindowVerifier

variable (cfg incremental) in
def perform : VerifierOp → RestoredProc Unit
  | .prefill promptIds => prefill cfg incremental promptIds
  | .speculate tokens accepted _ => do
    forwardBlock cfg incremental tokens
    commitOrTruncate cfg incremental tokens.length accepted
  | .appendToken tokenId => appendToken cfg incremental tokenId

variable (cfg incremental) in
/-- The verifier after a run. -/
def after (ops : List VerifierOp) : RestoredSinkWindowVerifier :=
  Machine.final (fun v op => (perform cfg incremental op).run v) {} ops

/-- The token sequence is the trimmed history, and the counters are its length and that of the history. -/
structure Bookkept (cfg : VerifierConfig) (history : List Token) (v : RestoredSinkWindowVerifier) : Prop where
  tokens : v.cachedTokenSequence = SinkWindow.trim cfg.sinkSize cfg.windowSize history
  size : v.cacheLogicalSize = v.cachedTokenSequence.length
  position : v.nextGlobalPosition = history.length

variable (cfg incremental) in
/-- The restored verifier can take the operation: an incremental one needs a prompt of which something is evicted. -/
def Restorable : VerifierOp → Prop
  | .prefill promptIds => incremental = true → cfg.budget < promptIds.length
  | _ => True

theorem boundedSequence_eq (cfg : VerifierConfig) (seq : List Token) :
    boundedSequence cfg seq = SinkWindow.trim cfg.sinkSize cfg.windowSize seq := by
  have hw : cfg.budget - cfg.sinkSize = cfg.windowSize := by unfold VerifierConfig.budget; omega
  unfold boundedSequence SinkWindow.trim
  rw [hw, if_pos cfg.window_pos]
  rfl

theorem sync_bookkept (cfg : VerifierConfig) (v : RestoredSinkWindowVerifier) :
    ∃ v', (syncBoundedState cfg).run v = (.ok (), v') ∧ v'.committed = v.committed ∧ v'.Bookkept cfg v.committed :=
  ⟨_, rfl, rfl, boundedSequence_eq cfg v.committed, rfl, rfl⟩

/-- The forward pass captures every layer, or none when nothing is evicted. -/
theorem any_captureKv (cfg : VerifierConfig) (ids : List Token) :
    (captureKv cfg ids).any Option.isNone = decide (ids.length ≤ cfg.budget) := by
  have hpos := cfg.layers_pos
  have hevict : computeEvictedPositions ids.length cfg.sinkSize cfg.windowSize = [] ↔ ids.length ≤ cfg.budget := by
    unfold computeEvictedPositions VerifierConfig.budget
    split
    · simpa
    · rw [List.drop_eq_nil_iff, List.length_range]
      have := cfg.window_pos
      omega
  unfold captureKv
  by_cases hle : ids.length ≤ cfg.budget
  · rw [if_pos (hevict.2 hle)]
    simp [List.any_replicate, hle]
    omega
  · rw [if_neg (fun h => hle (hevict.1 h))]
    simp [List.any_replicate, hle]

/-- `prefill` commits its prompt, also when it raises for want of an evicted position. -/
theorem prefill_commits (cfg : VerifierConfig) (incremental : Bool) {promptIds : List Token} (hne : promptIds ≠ [])
    (v : RestoredSinkWindowVerifier) :
    ∃ r v', (prefill cfg incremental promptIds).run v = (r, v') ∧ v'.committed = promptIds ∧
      (r = .ok () → v'.Bookkept cfg promptIds) ∧
      ((incremental = true → cfg.budget < promptIds.length) → r = .ok ()) := by
  unfold prefill reset
  rw [if_neg hne, Proc.run_modify_bind, Proc.run_modify_bind]
  cases incremental with
  | false =>
    obtain ⟨v', hrun, hc, hb⟩ := sync_bookkept cfg { committed := promptIds }
    exact ⟨.ok (), v', hrun, hc, fun _ => hb, fun _ => rfl⟩
  | true =>
    by_cases hle : promptIds.length ≤ cfg.budget
    · -- nothing was captured: the prompt is committed, and the mirror is that of a reset
      have hraise : ∃ e, (buildRestoredCache cfg promptIds).run { committed := promptIds } =
          (.error e, { committed := promptIds }) := by
        unfold buildRestoredCache
        rw [any_captureKv, if_pos (decide_eq_true hle)]
        exact ⟨_, rfl⟩
      obtain ⟨e, he⟩ := hraise
      refine ⟨.error e, { committed := promptIds }, ?_, rfl, nofun, fun h => absurd (h rfl) (by omega)⟩
      rw [if_pos rfl]
      exact Proc.run_bind_error he
    · obtain ⟨v', hrun, hc, hb⟩ := sync_bookkept cfg
        { committed := promptIds, past := some (captureKv cfg promptIds), pastLen := promptIds.length }
      refine ⟨.ok (), v', ?_, hc, fun _ => hb, fun _ => rfl⟩
      rw [if_pos rfl]
      unfold buildRestoredCache
      rw [any_captureKv, if_neg (by simpa using hle)]
      exact hrun

variable (cfg incremental) in
/-- A forwarded block is pending, and the committed prefix is untouched. -/
theorem forwardBlock_pending {v : RestoredSinkWindowVerifier} (hv : v.committed ≠ []) {tokens : List Token}
    (hne : tokens ≠ []) :
    ∃ v', (forwardBlock cfg incremental tokens).run v = (.ok (), v') ∧ v'.committed = v.committed ∧
      v'.pending = tokens := by
  unfold forwardBlock
  rw [Proc.run_get_bind, if_neg hv, if_neg hne, Proc.run_modify_bind]
  cases incremental with
  | false => exact ⟨_, rfl, rfl, rfl⟩
  | true => exact ⟨_, rfl, rfl, rfl⟩

theorem dropRejected_frame (forwarded accepted : Nat) (v : RestoredSinkWindowVerifier) :
    (dropRejected forwarded accepted v).committed = v.committed ∧
      (dropRejected forwarded accepted v).pending = v.pending := by
  unfold dropRejected
  split <;> exact ⟨rfl, rfl⟩

variable (cfg incremental) in
/-- Committing a part of the pending block extends the prefix by it. -/
theorem commitOrTruncate_commits (v : RestoredSinkWindowVerifier) {forwarded accepted : Nat} (ha : accepted ≤ forwarded) :
    ∃ v', (commitOrTruncate cfg incremental forwarded accepted).run v = (.ok (), v') ∧
      v'.committed = v.committed ++ v.pending.take accepted ∧
      v'.Bookkept cfg (v.committed ++ v.pending.take accepted) := by
  unfold commitOrTruncate
  rw [if_neg (by omega)]
  cases incremental with
  | false =>
    exact sync_bookkept cfg { v with committed := v.committed ++ v.pending.take accepted, pending := [] }
  | true =>
    obtain ⟨hc, hp⟩ := dropRejected_frame forwarded accepted v
    have h := sync_bookkept cfg
      { dropRejected forwarded accepted v with
        committed := (dropRejected forwarded accepted v).committed ++
          (dropRejected forwarded accepted v).pending.take accepted,
        pending := [] }
    rw [hc, hp] at h
    obtain ⟨v', hrun, hv'⟩ := h
    refine ⟨v', ?_, hv'⟩
    rw [if_pos rfl, Proc.run_modify_bind, Proc.run_modify_bind, hc, hp]
    exact hrun

variable (cfg incremental) in
theorem speculate_commits {v : RestoredSinkWindowVerifier} (hv : v.committed ≠ []) {tokens : List Token}
    (hne : tokens ≠ []) {accepted : Nat} (ha : accepted ≤ tokens.length) :
    ∃ v', (forwardBlock cfg incremental tokens >>= fun _ =>
        commitOrTruncate cfg incremental tokens.length accepted).run v = (.ok (), v') ∧
      v'.committed = v.committed ++ tokens.take accepted ∧ v'.Bookkept cfg (v.committed ++ tokens.take accepted) := by
  obtain ⟨v₁, hrun₁, hc₁, hp₁⟩ := forwardBlock_pending cfg incremental hv hne
  obtain ⟨v₂, hrun₂, hc₂, hb₂⟩ := commitOrTruncate_commits cfg incremental v₁ ha
  rw [hc₁, hp₁] at hc₂ hb₂
  exact ⟨v₂, (Proc.run_bind_ok hrun₁).trans hrun₂, hc₂, hb₂⟩

variable (cfg incremental) in
/-- The step lemma: the committed prefix is the history, and an operation that returned has synced the mirror. -/
theorem perform_commits (op : VerifierOp) (v : RestoredSinkWindowVerifier) :
    ((perform cfg incremental op).run v).2.committed = op.advance v.committed ∧
      (((perform cfg incremental op).run v).1 = .ok () →
        ((perform cfg incremental op).run v).2.Bookkept cfg (op.advance v.committed)) ∧
      (op.Accepted v.committed → Restorable cfg incremental op →
        ((perform cfg incremental op).run v).1 = .ok ()) := by
  by_cases ha : op.Accepted v.committed
  · rw [ha.advance_eq]
    cases op with
    | prefill promptIds =>
      obtain ⟨r, v', hrun, hc, hb, hr⟩ := prefill_commits cfg incremental ha v
      unfold perform
      rw [hrun]
      exact ⟨hc, hb, fun _ => hr⟩
    | speculate tokens accepted hle =>
      obtain ⟨v', hrun, hc, hb⟩ := speculate_commits cfg incremental ha.1 ha.2 hle
      unfold perform
      rw [hrun]
      exact ⟨hc, fun _ => hb, fun _ _ => rfl⟩
    | appendToken tokenId =>
      obtain ⟨v', hrun, hc, hb⟩ :=
        speculate_commits cfg incremental ha (List.cons_ne_nil tokenId []) (Nat.le_refl 1)
      unfold perform appendToken
      rw [show (forwardBlock cfg incremental [tokenId] >>= fun _ => commitOrTruncate cfg incremental 1 1).run v = _
        from hrun]
      exact ⟨hc, fun _ => hb, fun _ _ => rfl⟩
  · have hadv : op.advance v.committed = v.committed := if_neg ha
    suffices hraise : ∃ e, (perform cfg incremental op).run v = (.error e, v) by
      obtain ⟨e, he⟩ := hraise
      rw [he, hadv]
      exact ⟨rfl, nofun, fun hn => absurd hn ha⟩
    cases op with
    | prefill promptIds =>
      obtain rfl : promptIds = [] := not_not.1 ha
      exact ⟨_, rfl⟩
    | speculate tokens accepted hle =>
      suffices hf : ∃ e, (forwardBlock cfg incremental tokens).run v = (.error e, v) by
        obtain ⟨e, he⟩ := hf
        exact ⟨e, Proc.run_bind_error he⟩
      unfold forwardBlock
      rw [Proc.run_get_bind]
      by_cases hc : v.committed = []
      · rw [if_pos hc]
        exact ⟨_, rfl⟩
      · obtain rfl : tokens = [] := not_not.1 fun hn => ha ⟨hc, hn⟩
        rw [if_neg hc, if_pos rfl]
        exact ⟨_, rfl⟩
    | appendToken tokenId =>
      have hc : v.committed = [] := not_not.1 ha
      have hf : (forwardBlock cfg incremental [tokenId]).run v =
          (.error (.runtimeError "Verifier not prefilled."), v) := by
        unfold forwardBlock
        rw [Proc.run_get_bind, if_pos hc]
        rfl
      exact ⟨_, Proc.run_bind_error hf⟩

theorem after_concat (ops : List VerifierOp) (op : VerifierOp) :
    after cfg incremental (ops ++ [op]) = ((perform cfg incremental op).run (after cfg incremental ops)).2 := by
  unfold after
  rw [Machine.final_append]
  rfl

/-- The run lemma: the committed prefix is the accepted history. -/
theorem committed_after (cfg : VerifierConfig) (incremental : Bool) (ops : List VerifierOp) :
    (after cfg incremental ops).committed = history ops := by
  suffices hrun : ∀ v : RestoredSinkWindowVerifier,
      (Machine.final (fun v op => (perform cfg incremental op).run v) v ops).committed =
        ops.foldl advance v.committed from hrun {}
  induction ops with
  | nil => exact fun v => rfl
  | cons op ops ih =>
    intro v
    rw [List.foldl_cons, ← (perform_commits cfg incremental op v).1]
    exact ih _

end RestoredSinkWindowVerifier

/-! ### Both verifiers -/

/-- After every run, an operation that is not refused returns on the CPU verifier and leaves the bookkeeping of the
accepted history.  The restored verifier leaves the same token sequence, size and position whenever it returns, and it
returns too, but for an incremental prefill of a prompt of which nothing is evicted. -/
theorem bookkeeping_after_commit (cfg : VerifierConfig) (incremental : Bool) (ops : List VerifierOp) (op : VerifierOp)
    (h : op.Accepted (history ops)) :
    (((Pair.performCpu cfg op).run (CpuVerifier.after cfg ops)).1 = .ok () ∧
      (CpuVerifier.after cfg (ops ++ [op])).Bookkept cfg (history (ops ++ [op]))) ∧
    (((RestoredSinkWindowVerifier.perform cfg incremental op).run
        (RestoredSinkWindowVerifier.after cfg incremental ops)).1 = .ok () →
      (RestoredSinkWindowVerifier.after cfg incremental (ops ++ [op])).Bookkept cfg (history (ops ++ [op]))) ∧
    (RestoredSinkWindowVerifier.Restorable cfg incremental op →
      ((RestoredSinkWindowVerifier.perform cfg incremental op).run
        (RestoredSinkWindowVerifier.after cfg incremental ops)).1 = .ok ()) := by
  obtain ⟨hret, -⟩ := (CpuVerifier.after_holds cfg ops).perform op
  have hne : history (ops ++ [op]) ≠ [] := by
    rw [history_concat]
    exact h.advance_ne_nil
  have hcommitted := RestoredSinkWindowVerifier.committed_after cfg incremental ops
  obtain ⟨-, hbook, hrestored⟩ :=
    RestoredSinkWindowVerifier.perform_commits cfg incremental op
      (RestoredSinkWindowVerifier.after cfg incremental ops)
  refine ⟨⟨hret h, ?_⟩, ?_, ?_⟩
  · rcases CpuVerifier.after_holds cfg (ops ++ [op]) with ⟨hnil, -⟩ | ⟨-, hst⟩
    · exact absurd hnil hne
    · exact hst.bookkept
  · intro hok
    rw [RestoredSinkWindowVerifier.after_concat, history_concat, ← hcommitted]
    exact hbook hok
  · exact hrestored (by rw [hcommitted]; exact h)

/-- One sink slot and a window of two: the prompt fills the cache and one token of a block is accepted. -/
theorem bookkeeping_after_rejected_tail :
    (CpuVerifier.after Pair.smallConfig [.prefill [1, 2, 3], .speculate [4, 5] 1 (by decide)]).Bookkept Pair.smallConfig
      [1, 2, 3, 4] ∧
    (RestoredSinkWindowVerifier.after Pair.smallConfig false
      [.prefill [1, 2, 3], .speculate [4, 5] 1 (by decide)]).cachedTokenSequence = [1, 3, 4] := by
  obtain ⟨⟨-, hcpu⟩, hrestored, hret⟩ :=
    bookkeeping_after_commit Pair.smallConfig false [.prefill [1, 2, 3]] (.speculate [4, 5] 1 (by decide)) (by decide)
  exact ⟨hcpu, (hrestored (hret trivial)).tokens⟩

end KakeyaEngine
