import KakeyaEngine.Speculative.Equivalence

/-!
# What a stream shows of a run

`generate` adds its tokens a block at a time and hands them to `on_token` one by one.  The callback fires once for every
committed token as long as it does not ask to stop, or asks at the last token of what was added together.  When it asks
in the middle of an accepted prefix, the tokens after it stay in the result (`streamed_iff`).
-/

namespace KakeyaEngine

/-- The callback asks to stop at none of the tokens, after those it has had. -/
def Silent (f : TokenCallback) (had ts : List Token) : Prop := ∀ pre t post, ts = pre ++ t :: post → f (had ++ pre) t = false

/-- Where the callback first asks to stop is the end of the tokens. -/
def AsksLast (f : TokenCallback) (had ts : List Token) : Prop :=
  ∀ pre t post, ts = pre ++ t :: post → Silent f had pre → f (had ++ pre) t = true → post = []

/-- Where the callback first asks to stop is the end of a batch. -/
def StopsAtEnd (f : TokenCallback) (had : List Token) (batches : List (List Token)) : Prop :=
  ∀ before batch after, batches = before ++ batch :: after → Silent f had before.flatten →
    AsksLast f (had ++ before.flatten) batch

variable {f : TokenCallback} {had : List Token}

theorem silent_nil : Silent f had [] := by
  intro pre t post h
  simp at h

theorem silent_cons {t : Token} {ts : List Token} :
    Silent f had (t :: ts) ↔ f had t = false ∧ Silent f (had ++ [t]) ts := by
  constructor
  · intro h
    refine ⟨by simpa using h [] t ts rfl, fun pre x post heq => ?_⟩
    have hx := h (t :: pre) x post (by rw [heq, List.cons_append])
    rwa [List.append_cons] at hx
  · rintro ⟨ht, hts⟩ pre x post heq
    cases pre with
    | nil =>
      obtain ⟨rfl, -⟩ := List.cons.inj heq
      rwa [List.append_nil]
    | cons y pre =>
      obtain ⟨rfl, hrest⟩ := List.cons.inj heq
      rw [List.append_cons]
      exact hts pre x post hrest

theorem silent_append {xs ys : List Token} : Silent f had (xs ++ ys) ↔ Silent f had xs ∧ Silent f (had ++ xs) ys := by
  induction xs generalizing had with
  | nil => simp [silent_nil]
  | cons x xs ih =>
    rw [List.cons_append, silent_cons, ih, silent_cons, and_assoc, ← List.append_cons]

theorem Silent.asksLast {ts : List Token} (h : Silent f had ts) : AsksLast f had ts := by
  intro pre t post heq _ ht
  rw [h pre t post heq] at ht
  cases ht

theorem asksLast_nil : AsksLast f had [] := by
  intro pre t post h
  simp at h

theorem asksLast_cons {t : Token} {ts : List Token} :
    AsksLast f had (t :: ts) ↔ (f had t = true → ts = []) ∧ (f had t = false → AsksLast f (had ++ [t]) ts) := by
  constructor
  · intro h
    refine ⟨fun ht => h [] t ts rfl silent_nil (by simpa using ht), fun ht pre x post heq hpre hx => ?_⟩
    have hpost := h (t :: pre) x post (by rw [heq, List.cons_append]) (silent_cons.mpr ⟨ht, hpre⟩)
    rw [List.append_cons] at hpost
    exact hpost hx
  · rintro ⟨hhead, htail⟩ pre x post heq hpre hx
    cases pre with
    | nil =>
      obtain ⟨rfl, rfl⟩ := List.cons.inj heq
      exact hhead (by simpa using hx)
    | cons y pre =>
      obtain ⟨rfl, hrest⟩ := List.cons.inj heq
      rw [silent_cons] at hpre
      rw [List.append_cons] at hx
      exact htail hpre.1 pre x post hrest hpre.2 hx

theorem asksLast_singleton (t : Token) : AsksLast f had [t] :=
  asksLast_cons.mpr ⟨fun _ => rfl, fun _ => asksLast_nil⟩

theorem silent_singleton {t : Token} : Silent f had [t] ↔ f had t = false := by
  rw [silent_cons]
  exact and_iff_left silent_nil

theorem stopsAtEnd_nil : StopsAtEnd f had [] := by
  intro before batch after h
  simp at h

theorem stopsAtEnd_cons {b : List Token} {bs : List (List Token)} :
    StopsAtEnd f had (b :: bs) ↔ AsksLast f had b ∧ (Silent f had b → StopsAtEnd f (had ++ b) bs) := by
  constructor
  · intro h
    refine ⟨by simpa using h [] b bs rfl silent_nil, fun hb before batch after heq hbefore => ?_⟩
    have hbatch := h (b :: before) batch after (by rw [heq, List.cons_append])
      (by rw [List.flatten_cons]; exact silent_append.mpr ⟨hb, hbefore⟩)
    rwa [List.flatten_cons, ← List.append_assoc] at hbatch
  · rintro ⟨hhead, htail⟩ before batch after heq hbefore
    cases before with
    | nil =>
      obtain ⟨rfl, rfl⟩ := List.cons.inj heq
      simpa using hhead
    | cons c before =>
      obtain ⟨rfl, hrest⟩ := List.cons.inj heq
      rw [List.flatten_cons] at hbefore ⊢
      rw [← List.append_assoc]
      exact htail (silent_append.mp hbefore).1 before batch after hrest (silent_append.mp hbefore).2

theorem stopsAtEnd_singleton {b : List Token} : StopsAtEnd f had [b] ↔ AsksLast f had b := by
  rw [stopsAtEnd_cons]
  exact and_iff_left fun _ => stopsAtEnd_nil

namespace SpeculativeDecoder

/-! ### Emitting -/

theorem emit_silent (f : TokenCallback) (had ts : List Token) :
    (emit (some f) had ts).1 = false ↔ Silent f had ts := by
  induction ts generalizing had with
  | nil => simp [emit, silent_nil]
  | cons t ts ih =>
    unfold emit
    rw [silent_cons]
    by_cases ht : f had t = true
    · simp [ht]
    · simp [ht, ih]

theorem emit_singleton (f : TokenCallback) (had : List Token) (t : Token) :
    emit (some f) had [t] = (f had t, had ++ [t]) := by
  unfold emit
  cases hf : f had t <;> simp [hf, emit]

/-- The callback gets all tokens when it asks to stop at the last one or not at all. -/
theorem emit_all (f : TokenCallback) (had ts : List Token) :
    (emit (some f) had ts).2 = had ++ ts ↔ AsksLast f had ts := by
  induction ts generalizing had with
  | nil => simp [emit, asksLast_nil]
  | cons t ts ih =>
    unfold emit
    rw [asksLast_cons]
    by_cases ht : f had t = true
    · simp [ht, eq_comm]
    · have hrest := ih (had ++ [t])
      rw [List.append_assoc, List.singleton_append] at hrest
      simp [ht, hrest]

/-! ### The batches of a run -/

variable {κ Λ : Type}

/-- What a run that nobody stops adds together, in at most `n` blocks: the accepted prefix of a block up to its first EOS,
and the token after it.  The arguments are the blocks so far, the committed tokens and the number of new ones. -/
def batches (m : KvModel κ Λ) (cfg : VerifierConfig) (argmax : Λ → Token) (dec : SpeculativeDecoder) (eos : Token → Bool)
    (maxNewTokens : Nat) : (n calls : Nat) → (committed : List Token) → (count : Nat) → SinkWindowVerifier κ Λ →
    List (List Token)
  | 0, _, _, _, _ => []
  | n + 1, calls, committed, count, v =>
    if maxNewTokens ≤ count then []
    else
      let d := dec.proposeBlock calls committed (min dec.blockSize (maxNewTokens - count))
      match (verify m cfg argmax d).run v with
      | (.error _, _) => []
      | (.ok r, v₁) =>
        let drafted := d.take r.1
        if drafted.any eos then [drafted.take (drafted.findIdx eos + 1)]
        else if maxNewTokens ≤ count + drafted.length then [drafted]
        else
          match (SinkWindowVerifier.appendToken m cfg r.2).run v₁ with
          | (.error _, _) => [drafted]
          | (.ok _, v₂) =>
            drafted :: [r.2] ::
              if eos r.2 then []
              else batches m cfg argmax dec eos maxNewTokens n (calls + 1) (committed ++ drafted ++ [r.2])
                (count + drafted.length + 1) v₂

variable {m : KvModel κ Λ} {cfg : VerifierConfig} {argmax : Λ → Token} {dec : SpeculativeDecoder} {eos : Token → Bool}
  {onToken : Option TokenCallback} {maxNewTokens : Nat} {st st' : Progress} {v v' : SinkWindowVerifier κ Λ}

/-- An iteration that returns has verified its block. -/
theorem round_ok (h : (round m cfg argmax dec eos onToken maxNewTokens st).run v = (.ok st', v')) :
    ∃ r v₁, (verify m cfg argmax (dec.proposeBlock st.proposedPerBlock.length st.committed
        (min dec.blockSize (maxNewTokens - st.generated.length)))).run v = (.ok r, v₁) ∧
      (settle m cfg eos onToken maxNewTokens ((dec.proposeBlock st.proposedPerBlock.length st.committed
          (min dec.blockSize (maxNewTokens - st.generated.length))).take r.1) r.2
        (commitAccepted (min dec.blockSize (maxNewTokens - st.generated.length))
          ((dec.proposeBlock st.proposedPerBlock.length st.committed
            (min dec.blockSize (maxNewTokens - st.generated.length))).take r.1) st)).run v₁ = (.ok st', v') := by
  unfold round at h
  dsimp only at h
  split at h
  · cases (Prod.mk.inj h).1
  · exact Proc.of_run_bind_ok h

theorem loop_ended (h : ¬ Continues maxNewTokens st) (n : Nat) :
    (loop m cfg argmax dec eos onToken maxNewTokens n st).run v = (.ok st, v) := by
  cases n with
  | zero => rfl
  | succ n =>
    unfold loop
    rw [if_neg h]
    rfl

theorem emitAccepted_eq (hgo : st.stop = false) (drafted : List Token) :
    emitAccepted onToken drafted st =
      { st with stop := (emit onToken st.emitted drafted).1, emitted := (emit onToken st.emitted drafted).2 } := by
  unfold emitAccepted
  split
  · rename_i hnil
    subst hnil
    rw [show emit onToken st.emitted [] = (false, st.emitted) from rfl, ← hgo]
  · rfl

/-- What follows a block: its EOS ends the run, or it is the last, or the next token follows. -/
theorem settle_ok {drafted : List Token} {t : Token} (hgo : st.stop = false)
    (h : (settle m cfg eos onToken maxNewTokens drafted t st).run v = (.ok st', v')) :
    (drafted.any eos = true ∧ st' = cutAtEos eos onToken drafted st) ∨
    (drafted.any eos = false ∧ st' = emitAccepted onToken drafted st ∧
      ((emit onToken st.emitted drafted).1 = true ∨ maxNewTokens ≤ st.generated.length)) ∨
    (drafted.any eos = false ∧ (emit onToken st.emitted drafted).1 = false ∧ st.generated.length < maxNewTokens ∧
      (SinkWindowVerifier.appendToken m cfg t).run v = (.ok (), v') ∧
      st' = commitCorrection eos onToken t (emitAccepted onToken drafted st)) := by
  unfold settle at h
  by_cases hany : drafted.any eos = true
  · rw [if_pos hany] at h
    exact .inl ⟨hany, (Except.ok.inj (Prod.mk.inj h).1).symm⟩
  · rw [if_neg hany] at h
    rw [Bool.not_eq_true] at hany
    dsimp only at h
    have hstop : (emitAccepted onToken drafted st).stop = (emit onToken st.emitted drafted).1 := by
      rw [emitAccepted_eq hgo]
    have hgen : (emitAccepted onToken drafted st).generated = st.generated := by
      rw [emitAccepted_eq hgo]
    split at h
    · rename_i hend
      rw [hstop, hgen] at hend
      exact .inr (.inl ⟨hany, (Except.ok.inj (Prod.mk.inj h).1).symm, hend⟩)
    · rename_i hend
      rw [hstop, hgen, not_or, Bool.not_eq_true] at hend
      obtain ⟨u, w, happend, hdone⟩ := Proc.of_run_bind_ok h
      obtain ⟨heq, rfl⟩ := Prod.mk.inj hdone
      exact .inr (.inr ⟨hany, hend.1, Nat.lt_of_not_le hend.2, happend, (Except.ok.inj heq).symm⟩)

/-- What is left of an accepted prefix with an EOS. -/
theorem cutAtEos_generated {drafted had : List Token} (hany : drafted.any eos = true) (hst : st.generated = had ++ drafted) :
    (cutAtEos eos onToken drafted st).generated = had ++ drafted.take (drafted.findIdx eos + 1) := by
  have hidx : drafted.findIdx eos < drafted.length := List.findIdx_lt_length_of_exists (List.any_eq_true.mp hany)
  unfold cutAtEos
  dsimp only
  rw [hst, List.length_append, show had.length + drafted.length - (drafted.length - (drafted.findIdx eos + 1)) =
    had.length + (drafted.findIdx eos + 1) by omega, List.take_length_add_append]

/-- A run of the loop hands on what it adds, unless the callback first asks to stop inside a batch. -/
theorem loop_streamed (n : Nat) (hgo : st.stop = false) (hsame : st.emitted = st.generated)
    (h : (loop m cfg argmax dec eos (some f) maxNewTokens n st).run v = (.ok st', v')) :
    st'.emitted = st'.generated ↔
      StopsAtEnd f st.generated
        (batches m cfg argmax dec eos maxNewTokens n st.proposedPerBlock.length st.committed st.generated.length v) := by
  induction n generalizing st v with
  | zero =>
    obtain ⟨heq, -⟩ := Prod.mk.inj h
    obtain rfl := Except.ok.inj heq
    exact iff_of_true hsame stopsAtEnd_nil
  | succ n ih =>
    unfold loop at h
    unfold batches
    by_cases hcont : Continues maxNewTokens st
    · rw [if_pos hcont] at h
      rw [if_neg (by have := hcont.1; omega)]
      obtain ⟨st₁, v₂, hround, hloop⟩ := Proc.of_run_bind_ok h
      obtain ⟨r, v₁, hverify, hsettle⟩ := round_ok hround
      dsimp only
      rw [hverify]
      dsimp only
      generalize (dec.proposeBlock _ _ _).take r.1 = drafted at hsettle ⊢
      generalize hst₀ : commitAccepted _ drafted st = st₀ at hsettle
      have hgo₀ : st₀.stop = false := by rw [← hst₀]; exact hgo
      have hemitted : st₀.emitted = st.generated := by rw [← hst₀]; exact hsame
      have hgenerated : st₀.generated = st.generated ++ drafted := by rw [← hst₀]; rfl
      have hlength : st₀.generated.length = st.generated.length + drafted.length := by rw [hgenerated, List.length_append]
      have hall := emit_all f st.generated drafted
      have hsilent := emit_silent f st.generated drafted
      rw [← hlength]
      rcases settle_ok hgo₀ hsettle with ⟨hany, rfl⟩ | ⟨hany, rfl, hend⟩ | ⟨hany, hquiet, hroom, happend, rfl⟩
      · -- the accepted prefix holds an EOS
        rw [loop_ended fun hc => by simpa [cutAtEos] using hc.2] at hloop
        obtain rfl := Except.ok.inj (Prod.mk.inj hloop).1
        rw [if_pos hany, stopsAtEnd_singleton, cutAtEos_generated hany hgenerated, ← emit_all, ← hemitted]
        rfl
      · -- the callback asks to stop, or the block fills the budget
        rw [emitAccepted_eq hgo₀] at hloop
        rw [hemitted] at hend hloop
        rw [loop_ended ?_] at hloop
        · obtain rfl := Except.ok.inj (Prod.mk.inj hloop).1
          dsimp only
          rw [if_neg (by simp [hany]), hgenerated, hall]
          split
          · rw [stopsAtEnd_singleton]
          · rename_i hroom
            have hasks : ¬ Silent f st.generated drafted := by
              rw [← hsilent, Bool.not_eq_false]
              exact hend.resolve_right (by rwa [hgenerated])
            split
            · rw [stopsAtEnd_singleton]
            · rw [stopsAtEnd_cons]
              exact (and_iff_left fun hs => absurd hs hasks).symm
        · rintro ⟨hlen, hstop⟩
          rcases hend with hask | hfull
          · rw [hask] at hstop
            cases hstop
          · exact absurd hlen (Nat.not_lt.mpr hfull)
      · -- the token after the block
        have hs := hsilent.mp (by rwa [hemitted] at hquiet)
        have hhanded := hall.mpr hs.asksLast
        rw [if_neg (by simp [hany]), if_neg (Nat.not_le.mpr hroom), happend]
        dsimp only
        rw [stopsAtEnd_cons, and_iff_right hs.asksLast, imp_iff_right hs, stopsAtEnd_cons,
          and_iff_right (asksLast_singleton r.2), silent_singleton]
        rw [emitAccepted_eq hgo₀, hemitted, hhanded] at hloop
        unfold commitCorrection at hloop
        dsimp only at hloop
        rw [emit_singleton, hgenerated] at hloop
        dsimp only at hloop
        by_cases hstop : (f (st.generated ++ drafted) r.2 || eos r.2) = true
        · rw [loop_ended fun hc => Bool.noConfusion (hstop.symm.trans hc.2)] at hloop
          obtain rfl := Except.ok.inj (Prod.mk.inj hloop).1
          refine iff_of_true rfl fun hquiet => ?_
          rw [hquiet, Bool.false_or] at hstop
          rw [if_pos hstop]
          exact stopsAtEnd_nil
        · rw [Bool.not_eq_true] at hstop
          obtain ⟨hquiet, heos⟩ := Bool.or_eq_false_iff.mp hstop
          have hrest := ih hstop rfl hloop
          rw [if_neg (by simp [heos]), imp_iff_right hquiet, hrest, ← hst₀]
          simp only [commitAccepted, List.length_append, List.length_singleton]
    · rw [if_neg hcont] at h
      obtain ⟨heq, -⟩ := Prod.mk.inj h
      obtain rfl := Except.ok.inj heq
      rw [if_pos (Nat.le_of_not_lt fun hlt => hcont ⟨hlt, hgo⟩)]
      exact iff_of_true hsame stopsAtEnd_nil

/-- The callback gets exactly the tokens that `generate` returns when it asks to stop at the end of a batch or not at
all. -/
theorem streamed_iff (m : KvModel κ Λ) (cfg : VerifierConfig) (argmax : Λ → Token) (dec : SpeculativeDecoder)
    (eos : Token → Bool) (f : TokenCallback) (promptIds : List Token) (maxNewTokens : Int) (v v' : SinkWindowVerifier κ Λ)
    (st : Progress) (h : (generate m cfg argmax dec eos (some f) promptIds maxNewTokens).run v = (.ok st, v')) :
    st.emitted = st.generated ↔
      StopsAtEnd f [] (batches m cfg argmax dec eos maxNewTokens.toNat maxNewTokens.toNat 0 promptIds 0
        ((SinkWindowVerifier.prefill m cfg promptIds).run v).2) := by
  unfold generate at h
  split at h
  · cases (Prod.mk.inj h).1
  · obtain ⟨u, v₀, hprefill, hloop⟩ := Proc.of_run_bind_ok h
    rw [hprefill]
    exact loop_streamed maxNewTokens.toNat rfl rfl hloop

/-- A verifier that counts, and a client that asks to stop at its second token. -/
def countingModel : KvModel Token Token := KvModel.ofTokens fun c => c.getLastD 0 + 1

def countingConfig : VerifierConfig := ⟨1, 15, 1, by decide, Nat.one_pos⟩

def secondToken : TokenCallback := fun had _ => decide (had.length = 1)

/-- The second token is in the middle of a block of three. -/
theorem stopped_inside_block :
    ∃ st v', (generate countingModel countingConfig id countingDecoder (fun _ => false) (some secondToken) [2] 8).run {} =
        (.ok st, v') ∧
      st.emitted = [3, 4] ∧ st.generated = [3, 4, 5] := by
  refine ⟨_, _, rfl, ?_, ?_⟩
  · decide +kernel
  · decide +kernel

/-- It is the last one of a block of two. -/
def pairDecoder : SpeculativeDecoder := { countingDecoder with blockSize := 2, blockSize_pos := Nat.two_pos }

theorem stopped_at_block_end :
    (∃ st v', (generate countingModel countingConfig id pairDecoder (fun _ => false) (some secondToken) [2] 8).run {} =
        (.ok st, v') ∧ st.emitted = [3, 4] ∧ st.generated = [3, 4]) ∧
      StopsAtEnd secondToken [] (batches countingModel countingConfig id pairDecoder (fun _ => false) 8 8 0 [2] 0
        ((SinkWindowVerifier.prefill countingModel countingConfig [2]).run {}).2) := by
  have hiff := streamed_iff countingModel countingConfig id pairDecoder (fun _ => false) secondToken [2] 8 {} _ _ rfl
  refine ⟨⟨_, _, rfl, ?_, ?_⟩, hiff.mp ?_⟩
  · decide +kernel
  · decide +kernel
  · decide +kernel

end SpeculativeDecoder

end KakeyaEngine
