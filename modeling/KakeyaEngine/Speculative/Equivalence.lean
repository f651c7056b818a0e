import KakeyaEngine.Speculative.Decoder

/-!
# Speculative decoding is greedy decoding

With room for the prompt and all new tokens in sink and window, the verifier never trims, and the accepted drafts, the
corrections and the bonus tokens are the stream of its greedy choices.  `Running` is the invariant of the loop: what was
generated is the stream so far, and the verifier has consumed exactly the prompt and that.
-/

namespace KakeyaEngine

open SinkWindowVerifier (lastLogits)

variable {κ Λ : Type}

/-- The greedy choice after a list of tokens. -/
def KvModel.greedyNext (m : KvModel κ Λ) (argmax : Λ → Token) (tokens : List Token) : Token :=
  ((lastLogits m 0 [] tokens).map argmax).getD 0

variable {m : KvModel κ Λ} {argmax : Λ → Token}

theorem KvModel.greedyNext_eq {tokens : List Token} {row : Λ} (h : lastLogits m 0 [] tokens = some row) :
    m.greedyNext argmax tokens = argmax row := by
  simp [greedyNext, h]

theorem lastLogits_concat (c : List Token) (t : Token) :
    lastLogits m 0 [] (c ++ [t]) = some (m.logits t c.length (m.forward 0 [] c).1) := by
  unfold lastLogits
  rw [KvModel.forward_append]
  simp [KvModel.forward]

theorem forward_concat (c : List Token) (t : Token) :
    (m.forward 0 [] (c ++ [t])).1 = (m.forward 0 [] c).1 ++ [m.entry t c.length (m.forward 0 [] c).1] := by
  rw [KvModel.forward_append]
  simp [KvModel.forward]

theorem lastLogits_isSome {c : List Token} (h : c ≠ []) : ∃ row, lastLogits m 0 [] c = some row := by
  have hc := List.dropLast_append_getLast h
  rw [← hc]
  exact ⟨_, lastLogits_concat _ _⟩

/-- A verifier that has consumed `c` within its budget. -/
def SinkWindowVerifier.consumed (m : KvModel κ Λ) (c : List Token) (logits : Option Λ) : SinkWindowVerifier κ Λ :=
  held (m.forward 0 [] c).1 c c.length logits

namespace SpeculativeDecoder

open SinkWindowVerifier (consumed)

variable {cfg : VerifierConfig} {dec : SpeculativeDecoder} {eos : Token → Bool} {onToken : Option TokenCallback}

/-! ### A block -/

/-- The loop over a draft accepts what the greedy choices match, and ends with the logits of the next one. -/
theorem acceptLoop_matched (argmax : Λ → Token) {c : List Token} {prev : Λ} (h : lastLogits m 0 [] c = some prev) (d : List Token) :
    (acceptLoop argmax prev d (m.forward c.length (m.forward 0 [] c).1 d).2).1 =
        Greedy.matched (m.greedyNext argmax) c d ∧
      lastLogits m 0 [] (c ++ d.take (Greedy.matched (m.greedyNext argmax) c d)) =
        some (acceptLoop argmax prev d (m.forward c.length (m.forward 0 [] c).1 d).2).2 := by
  induction d generalizing c prev with
  | nil => exact ⟨rfl, by simpa [Greedy.matched, acceptLoop] using h⟩
  | cons t d ih =>
    have hrow := lastLogits_concat (m := m) c t
    have hih := ih hrow
    rw [forward_concat, List.length_append, List.length_singleton] at hih
    unfold Greedy.matched
    simp only [KvModel.forward, acceptLoop, KvModel.greedyNext_eq h]
    by_cases ht : argmax prev = t
    · simp only [ht, ↓reduceIte, List.take_succ_cons]
      refine ⟨congrArg (· + 1) hih.1, ?_⟩
      rw [← hih.2, List.append_assoc]
      rfl
    · simp only [ht, ↓reduceIte, List.take_zero, List.append_nil]
      exact ⟨trivial, h⟩

/-- `accept_block` is the loop of `generate`. -/
theorem acceptBlock_eq {c d : List Token} {prev : Λ} (hd : d ≠ []) (h : lastLogits m 0 [] c = some prev) :
    acceptBlock argmax prev d (m.forward c.length (m.forward 0 [] c).1 d).2 =
      .ok ⟨Greedy.matched (m.greedyNext argmax) c d,
        m.greedyNext argmax (c ++ d.take (Greedy.matched (m.greedyNext argmax) c d))⟩ := by
  obtain ⟨hk, hrow⟩ := acceptLoop_matched argmax h d
  unfold acceptBlock
  rw [if_neg (by simp), if_neg hd]
  dsimp only
  rw [hk, KvModel.greedyNext_eq hrow]

theorem run_verify {c d : List Token} (hc : c ≠ []) (hd : d ≠ []) (hfit : c.length + d.length ≤ cfg.budget) :
    (verify m cfg argmax d).run (consumed m c (lastLogits m 0 [] c)) =
      (.ok (Greedy.matched (m.greedyNext argmax) c d,
          m.greedyNext argmax (c ++ d.take (Greedy.matched (m.greedyNext argmax) c d))),
        consumed m (c ++ d.take (Greedy.matched (m.greedyNext argmax) c d)) (lastLogits m 0 [] c)) := by
  obtain ⟨prev, hprev⟩ := lastLogits_isSome (m := m) hc
  obtain ⟨hk, hrow⟩ := acceptLoop_matched argmax hprev d
  have hle := Greedy.matched_le (m.greedyNext argmax) c d
  generalize Greedy.matched (m.greedyNext argmax) c d = k at hk hrow hle ⊢
  have hlen : c.length = (m.forward 0 [] c).1.length := by simp
  have hlen' : (c ++ d).length = (m.forward 0 [] (c ++ d)).1.length := by simp
  have hfwd : (m.forward c.length (m.forward 0 [] c).1 d).1 = (m.forward 0 [] (c ++ d)).1 := by
    rw [KvModel.forward_append, Nat.zero_add]
  have hkeep : (m.forward 0 [] (c ++ d)).1.length - (d.length - k) = c.length + k := by
    rw [← hlen', List.length_append]
    omega
  have htake : (c ++ d).take (c.length + k) = c ++ d.take k := List.take_length_add_append k
  have hcache : (m.forward 0 [] (c ++ d)).1.take (c.length + k) = (m.forward 0 [] (c ++ d.take k)).1 := by
    have h := KvModel.take_forward (m := m) 0 [] (c ++ d.take k) (d.drop k)
    rw [List.append_assoc, List.take_append_drop] at h
    simpa [Nat.min_eq_left hle] using h
  have hroom : (c ++ d.take k).length ≤ cfg.budget := by
    rw [List.length_append, List.length_take]
    omega
  have hcommit := SinkWindowVerifier.run_commitOrTruncate cfg c.length (some prev) hlen' hle
    (by rw [← hlen', List.length_append]; omega)
  rw [hkeep, hcache, htake, SinkWindow.trim_of_le _ _ (show _ ≤ cfg.budget by simpa using hroom),
    SinkWindow.trim_of_le _ _ hroom] at hcommit
  unfold verify consumed
  rw [Proc.run_bind_ok (SinkWindowVerifier.run_forwardBlock hlen hd), Proc.run_get_bind, hprev, hfwd,
    show (SinkWindowVerifier.held (m.forward 0 [] (c ++ d)).1 (c ++ d) c.length (some prev)).nextTokenLogits =
      some prev from rfl]
  dsimp only
  rw [hk, Proc.run_bind_ok hcommit, KvModel.greedyNext_eq hrow, Proc.run_pure]
  simp [Nat.min_eq_left hle]

theorem run_appendToken {c : List Token} {t : Token} {logits : Option Λ} (hfit : c.length + 1 ≤ cfg.budget) :
    (SinkWindowVerifier.appendToken m cfg t).run (consumed m c logits) =
      (.ok (), consumed m (c ++ [t]) (lastLogits m 0 [] (c ++ [t]))) := by
  have hlen : c.length = (m.forward 0 [] c).1.length := by simp
  have hfwd : (m.forward c.length (m.forward 0 [] c).1 [t]).1 = (m.forward 0 [] (c ++ [t])).1 := by
    rw [KvModel.forward_append, Nat.zero_add]
  have hlast : lastLogits m c.length (m.forward 0 [] c).1 [t] = lastLogits m 0 [] (c ++ [t]) := by
    rw [lastLogits_concat]
    rfl
  unfold SinkWindowVerifier.appendToken consumed
  rw [SinkWindowVerifier.run_appendBlock hlen (by simp), hfwd, hlast,
    SinkWindow.trim_of_le _ _ (show _ ≤ cfg.budget by simpa using hfit),
    SinkWindow.trim_of_le _ _ (show _ ≤ cfg.budget by simpa using hfit)]
  simp

/-! ### The loop -/

/-- The callback never asks to stop. -/
def Patient (onToken : Option TokenCallback) : Prop := ∀ f, onToken = some f → ∀ emitted t, f emitted t = false

theorem emit_patient (h : Patient onToken) (emitted ts : List Token) : (emit onToken emitted ts).1 = false := by
  induction ts generalizing emitted with
  | nil => rfl
  | cons t ts ih =>
    unfold emit
    cases hf : onToken with
    | none => rfl
    | some f =>
      dsimp only
      rw [if_neg (by simp [h f hf]), ← hf]
      exact ih _

/-- The greedy decode: up to the first EOS, or `n` tokens. -/
def greedyDecode (m : KvModel κ Λ) (argmax : Λ → Token) (eos : Token → Bool) (promptIds : List Token) (n : Nat) :
    List Token :=
  Greedy.upTo eos (Greedy.stream (m.greedyNext argmax) promptIds n)

/-- Between two iterations: the generated tokens are the greedy ones so far, without an EOS, and the verifier has
consumed the prompt and them. -/
structure Running (m : KvModel κ Λ) (argmax : Λ → Token) (eos : Token → Bool) (promptIds : List Token)
    (maxNewTokens : Nat) (st : Progress) (v : SinkWindowVerifier κ Λ) : Prop where
  verifier : v = consumed m (promptIds ++ st.generated) (lastLogits m 0 [] (promptIds ++ st.generated))
  committed : st.committed = promptIds ++ st.generated
  greedy : st.generated = Greedy.stream (m.greedyNext argmax) promptIds st.generated.length
  noEos : st.generated.any eos = false
  room : st.generated.length < maxNewTokens
  going : st.stop = false

/-- After the last iteration. -/
structure Finished (m : KvModel κ Λ) (argmax : Λ → Token) (eos : Token → Bool) (promptIds : List Token)
    (maxNewTokens : Nat) (st : Progress) : Prop where
  ended : ¬ Continues maxNewTokens st
  output : st.generated = greedyDecode m argmax eos promptIds maxNewTokens

variable {promptIds : List Token} {maxNewTokens : Nat}

/-- A greedy list without EOS that has the full length is the decode. -/
private theorem decode_full {g : List Token} (hg : g = Greedy.stream (m.greedyNext argmax) promptIds maxNewTokens)
    (hn : g.any eos = false) : g = greedyDecode m argmax eos promptIds maxNewTokens := by
  unfold greedyDecode
  rw [← hg, Greedy.upTo_of_none hn]

/-- A greedy list that ends in its first EOS is the decode. -/
private theorem decode_cut {g r : List Token} {n : Nat} (hn : n ≤ maxNewTokens)
    (hg : g ++ r = Greedy.stream (m.greedyNext argmax) promptIds n) (hno : g.any eos = false) (hr : r.any eos = true) :
    g ++ r.take (r.findIdx eos + 1) = greedyDecode m argmax eos promptIds maxNewTokens := by
  obtain ⟨k, rfl⟩ := Nat.exists_eq_add_of_le hn
  unfold greedyDecode
  rw [Greedy.stream_add, ← hg, Greedy.upTo_append_of_any (by simp [hr]), Greedy.upTo_append_of_none hno,
    Greedy.upTo_eq_take hr]

/-- The proposer drafts as many tokens as it is asked for. -/
def Proposes (dec : SpeculativeDecoder) : Prop :=
  ∀ call committed size, (dec.proposeBlock call committed size).length = size

/-- What follows the verification of a block whose accepted prefix is `r`: it adds a token or more, and the loop goes on
or has its result. -/
theorem settle_spec (hcb : Patient onToken) (hfit : promptIds.length + maxNewTokens ≤ cfg.budget) (st : Progress)
    {r : List Token} {logits : Option Λ} {t : Token} (hcom : st.committed = promptIds ++ st.generated) {g : List Token}
    (hgen : st.generated = g ++ r) (hg : g.any eos = false) (hroom : g.length < maxNewTokens)
    (hgreedy : st.generated = Greedy.stream (m.greedyNext argmax) promptIds st.generated.length)
    (hle : st.generated.length ≤ maxNewTokens) (hgo : st.stop = false)
    (ht : t = m.greedyNext argmax (promptIds ++ st.generated)) :
    ∃ st' v', (settle m cfg eos onToken maxNewTokens r t st).run (consumed m (promptIds ++ st.generated) logits) =
        (.ok st', v') ∧ g.length < st'.generated.length ∧
      (Running m argmax eos promptIds maxNewTokens st' v' ∨ Finished m argmax eos promptIds maxNewTokens st') := by
  unfold settle
  by_cases hany : r.any eos = true
  · -- the accepted prefix holds an EOS
    rw [if_pos hany]
    have hidx : r.findIdx eos < r.length := by
      rw [List.any_eq_true] at hany
      exact List.findIdx_lt_length_of_exists hany
    have hcut : (cutAtEos eos onToken r st).generated = g ++ r.take (r.findIdx eos + 1) := by
      simp only [cutAtEos, hgen, List.length_append]
      rw [show g.length + r.length - (r.length - (r.findIdx eos + 1)) = g.length + (r.findIdx eos + 1) by omega,
        List.take_length_add_append]
    refine ⟨_, _, rfl, ?_, Or.inr ⟨fun h => by simpa [cutAtEos] using h.2, ?_⟩⟩
    · rw [hcut, List.length_append, List.length_take]
      omega
    · rw [hcut]
      exact decode_cut hle (hgen.symm.trans hgreedy) hg hany
  · rw [if_neg hany]
    have hr : r.any eos = false := by simpa using hany
    have hemit : (emitAccepted onToken r st).stop = false := by
      unfold emitAccepted
      split
      · exact hgo
      · exact emit_patient hcb _ _
    have hsame : (emitAccepted onToken r st).generated = st.generated := by
      unfold emitAccepted
      split <;> rfl
    have hsame' : (emitAccepted onToken r st).committed = st.committed := by
      unfold emitAccepted
      split <;> rfl
    have hno : st.generated.any eos = false := by rw [hgen]; simp [List.any_append, hg, hr]
    dsimp only
    rw [hemit, hsame]
    by_cases hfull : maxNewTokens ≤ st.generated.length
    · -- the block fills the budget
      rw [if_pos (Or.inr hfull)]
      have hlen : st.generated.length = maxNewTokens := by omega
      refine ⟨_, _, rfl, by rw [hsame]; omega, Or.inr ⟨fun h => ?_, ?_⟩⟩
      · have := h.1
        rw [hsame] at this
        omega
      · rw [hsame]
        rw [hlen] at hgreedy
        exact decode_full hgreedy hno
    · rw [if_neg (by simp [hfull])]
      have hext : st.generated ++ [t] = Greedy.stream (m.greedyNext argmax) promptIds (st.generated.length + 1) := by
        rw [Greedy.stream_add, ← hgreedy, ht]
        rfl
      have hglen : g.length ≤ st.generated.length := by rw [hgen, List.length_append]; omega
      have hgen' : (commitCorrection eos onToken t (emitAccepted onToken r st)).generated = st.generated ++ [t] := by
        simp only [commitCorrection, hsame]
      have hstop : (commitCorrection eos onToken t (emitAccepted onToken r st)).stop = eos t := by
        simp only [commitCorrection, emit_patient hcb, Bool.false_or]
      rw [Proc.run_bind_ok (run_appendToken (by rw [List.length_append]; omega))]
      refine ⟨_, _, rfl, ?_, ?_⟩
      · rw [hgen', List.length_append, List.length_singleton]
        omega
      · cases he : eos t with
        | true =>
          right
          refine ⟨fun h => ?_, ?_⟩
          · have := h.2
            rw [hstop, he] at this
            cases this
          · rw [hgen']
            have := decode_cut (show st.generated.length + 1 ≤ maxNewTokens by omega) hext hno (by simp [he])
            simpa [List.findIdx_cons, he] using this
        | false =>
          have hno' : (st.generated ++ [t]).any eos = false := by simp [List.any_append, hno, he]
          by_cases hlast : st.generated.length + 1 = maxNewTokens
          · right
            rw [hlast] at hext
            refine ⟨fun h => ?_, by rw [hgen']; exact decode_full hext hno'⟩
            have := h.1
            rw [hgen', List.length_append, List.length_singleton] at this
            omega
          · left
            constructor
            · rw [hgen', List.append_assoc]
            · rw [hgen']
              simp only [commitCorrection, hsame', hcom, List.append_assoc]
            · rw [hgen', List.length_append, List.length_singleton]
              exact hext
            · rw [hgen']
              exact hno'
            · rw [hgen', List.length_append, List.length_singleton]
              omega
            · rw [hstop, he]

/-- An iteration adds a token or more, and the loop goes on or has its result. -/
theorem round_spec (hdec : dec.Proposes) (hcb : Patient onToken) (hne : promptIds ≠ [])
    (hfit : promptIds.length + maxNewTokens ≤ cfg.budget) {st : Progress} {v : SinkWindowVerifier κ Λ}
    (h : Running m argmax eos promptIds maxNewTokens st v) :
    ∃ st' v', (round m cfg argmax dec eos onToken maxNewTokens st).run v = (.ok st', v') ∧
      st.generated.length < st'.generated.length ∧
      (Running m argmax eos promptIds maxNewTokens st' v' ∨ Finished m argmax eos promptIds maxNewTokens st') := by
  obtain ⟨rfl, hcom, hgreedy, hno, hroom, hgo⟩ := h
  unfold round
  dsimp only
  generalize hsize : min dec.blockSize (maxNewTokens - st.generated.length) = size
  have hpos : 0 < size := by
    have := dec.blockSize_pos
    omega
  generalize hd : dec.proposeBlock st.proposedPerBlock.length st.committed size = d
  have hlen : d.length = size := by rw [← hd]; exact hdec _ _ _
  have hdne : d ≠ [] := by
    rintro rfl
    simp only [List.length_nil] at hlen
    omega
  have hcne : promptIds ++ st.generated ≠ [] := by simp [hne]
  rw [if_neg (by simp [hlen]), Proc.run_bind_ok (run_verify hcne hdne (by rw [List.length_append]; omega))]
  have hle := Greedy.matched_le (m.greedyNext argmax) (promptIds ++ st.generated) d
  have htake := Greedy.take_matched (m.greedyNext argmax) (promptIds ++ st.generated) d
  generalize Greedy.matched (m.greedyNext argmax) (promptIds ++ st.generated) d = k at hle htake ⊢
  dsimp only
  have hk : (d.take k).length = k := by rw [List.length_take]; omega
  rw [List.append_assoc]
  refine settle_spec hcb hfit (commitAccepted size (d.take k) st) ?_ rfl hno hroom ?_ ?_ hgo ?_
  · simp only [commitAccepted, hcom, List.append_assoc]
  · -- the accepted drafts continue the stream
    simp only [commitAccepted, List.length_append, hk]
    rw [Greedy.stream_add, ← hgreedy, htake]
  · simp only [commitAccepted, List.length_append, hk]
    omega
  · simp only [commitAccepted]

/-- The loop with enough iterations ends with its result. -/
theorem loop_spec (hdec : dec.Proposes) (hcb : Patient onToken) (hne : promptIds ≠ [])
    (hfit : promptIds.length + maxNewTokens ≤ cfg.budget) (n : Nat) {st : Progress} {v : SinkWindowVerifier κ Λ}
    (h : Running m argmax eos promptIds maxNewTokens st v) :
    ∃ st' v', (loop m cfg argmax dec eos onToken maxNewTokens n st).run v = (.ok st', v') ∧
      ((Running m argmax eos promptIds maxNewTokens st' v' ∧ st.generated.length + n ≤ st'.generated.length) ∨
        Finished m argmax eos promptIds maxNewTokens st') := by
  induction n generalizing st v with
  | zero => exact ⟨st, v, rfl, Or.inl ⟨h, Nat.le_refl _⟩⟩
  | succ n ih =>
    obtain ⟨st₁, v₁, hrun, hlt, hnext⟩ := round_spec hdec hcb hne hfit h
    unfold loop
    rw [if_pos ⟨h.room, h.going⟩, Proc.run_bind_ok hrun]
    rcases hnext with hnext | hfin
    · obtain ⟨st₂, v₂, hrun₂, hend⟩ := ih hnext
      refine ⟨st₂, v₂, hrun₂, ?_⟩
      rcases hend with ⟨hr, hl⟩ | hf
      · exact Or.inl ⟨hr, by omega⟩
      · exact Or.inr hf
    · refine ⟨st₁, v₁, ?_, Or.inr hfin⟩
      cases n with
      | zero => rfl
      | succ n =>
        unfold loop
        rw [if_neg hfin.ended]
        rfl

theorem running_start (m : KvModel κ Λ) (argmax : Λ → Token) (cfg : VerifierConfig) (eos : Token → Bool) (hne : promptIds ≠ []) (hpos : 0 < maxNewTokens)
    (hfit : promptIds.length + maxNewTokens ≤ cfg.budget) (v : SinkWindowVerifier κ Λ) :
    ∃ v₀, (SinkWindowVerifier.prefill m cfg promptIds).run v = (.ok (), v₀) ∧
      Running m argmax eos promptIds maxNewTokens { committed := promptIds } v₀ := by
  refine ⟨_, SinkWindowVerifier.run_prefill m cfg hne v, ?_⟩
  refine ⟨?_, by simp, rfl, rfl, hpos, rfl⟩
  have hroom : promptIds.length ≤ cfg.budget := by omega
  rw [SinkWindow.trim_of_le _ _ (show _ ≤ cfg.budget by simpa using hroom), SinkWindow.trim_of_le _ _ hroom,
    List.append_nil]
  rfl

/-- Speculative decoding is greedy decoding.  Whatever the drafts, the tokens of a run are the greedy ones up to the first
EOS or the budget; every iteration returns and adds a token or more, and the loop has ended by its own condition. -/
theorem generate_greedy (m : KvModel κ Λ) (cfg : VerifierConfig) (argmax : Λ → Token) (dec : SpeculativeDecoder)
    (eos : Token → Bool) (onToken : Option TokenCallback) (hdec : dec.Proposes) (hcb : Patient onToken)
    (promptIds : List Token) (hne : promptIds ≠ []) (maxNewTokens : Nat) (hpos : 0 < maxNewTokens)
    (hfit : promptIds.length + maxNewTokens ≤ cfg.budget) (v : SinkWindowVerifier κ Λ) :
    (∃ st v', (generate m cfg argmax dec eos onToken promptIds maxNewTokens).run v = (.ok st, v') ∧
      ¬ Continues maxNewTokens st ∧
      st.generated = Greedy.upTo eos (Greedy.stream (m.greedyNext argmax) promptIds maxNewTokens)) ∧
    ∀ n st w,
      (loop m cfg argmax dec eos onToken maxNewTokens n { committed := promptIds }).run
        ((SinkWindowVerifier.prefill m cfg promptIds).run v).2 = (.ok st, w) → Continues maxNewTokens st →
      ∃ st' w', (round m cfg argmax dec eos onToken maxNewTokens st).run w = (.ok st', w') ∧
        st.generated.length < st'.generated.length := by
  obtain ⟨v₀, hpre, hstart⟩ :=
    running_start m argmax cfg eos hne hpos hfit v
  constructor
  · obtain ⟨st, v', hrun, hend⟩ := loop_spec hdec hcb hne hfit maxNewTokens hstart
    have hfin : Finished m argmax eos promptIds maxNewTokens st := by
      rcases hend with ⟨hr, hl⟩ | hf
      · have := hr.room
        omega
      · exact hf
    refine ⟨st, v', ?_, hfin.ended, hfin.output⟩
    unfold generate
    rw [if_neg (by omega), Proc.run_bind_ok hpre, Int.toNat_natCast]
    exact hrun
  · intro n st w hloop hgo
    rw [hpre] at hloop
    obtain ⟨st', v', hrun, hend⟩ := loop_spec hdec hcb hne hfit n hstart
    obtain ⟨heq, rfl⟩ := Prod.mk.inj (hrun.symm.trans hloop)
    obtain rfl := Except.ok.inj heq
    rcases hend with ⟨hr, -⟩ | hf
    · obtain ⟨st₁, v₁, hround, hlt, -⟩ := round_spec hdec hcb hne hfit hr
      exact ⟨st₁, v₁, hround, hlt⟩
    · exact absurd hgo hf.ended

end SpeculativeDecoder

/-- Every function of the consumed tokens is a model: its entries are the tokens. -/
def KvModel.ofTokens (f : List Token → Λ) : KvModel Token Λ where
  entry t _ _ := t
  logits t _ visible := f (visible ++ [t])

namespace SpeculativeDecoder

theorem acceptBlock_counting : acceptBlock id 3 [3, 4, 7] [4, 0, 3] = .ok ⟨2, 0⟩ :=
  acceptBlock_eq (m := KvModel.ofTokens fun c => (c.getLastD 0 + 1) % 5) (c := [2]) (d := [3, 4, 7]) (by decide) rfl

/-- A decoder of blocks of three whose proposer counts up from the last token. -/
def countingDecoder : SpeculativeDecoder where
  proposeBlock _ committed size := (List.range size).map fun i => committed.getLastD 0 + 1 + (i : Int)
  blockSize := 3
  blockSize_pos := pos_three

/-- A verifier that counts modulo five, with 1 as EOS: the proposer is right up to the wrap, and corrected there. -/
theorem counting_run :
    ∃ st v', (generate (KvModel.ofTokens fun c => (c.getLastD 0 + 1) % 5) ⟨1, 9, 1, by decide, by decide⟩ id
        countingDecoder (· == 1) none [2] 8).run {} = (.ok st, v') ∧ st.generated = [3, 4, 0, 1] := by
  have hgen := (generate_greedy (KvModel.ofTokens fun c => (c.getLastD 0 + 1) % 5) ⟨1, 9, 1, by decide, by decide⟩ id
    countingDecoder (· == 1) none (fun _ _ _ => by simp [countingDecoder]) (fun f hf => by cases hf) [2] (by simp) 8
    (by decide) (by decide) {}).1
  obtain ⟨st, v', hrun, -, hout⟩ := hgen
  refine ⟨st, v', hrun, ?_⟩
  rw [hout]
  decide +kernel

end SpeculativeDecoder

end KakeyaEngine
