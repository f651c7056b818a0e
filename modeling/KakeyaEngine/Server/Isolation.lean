import KakeyaEngine.Server.Shared
import KakeyaEngine.Session.Isolation

/-!
# Isolation of the requests

Nothing keeps a request from the verifier while another one relies on it: a prefill resets the cache under it, and the
thread of a request whose client was lost goes on writing.  `Exclusive` says that a step which changes the verifier is only
made while no other request that is at work relies on it.  Then a request shows in company what it shows alone.

`At` is what the server has for a request between two steps, and there is one lemma for each step.  Others may take the
session away, by an eviction, but then the request raises; `gone` says whether that is to be reckoned with.
-/

namespace KakeyaEngine

open SinkWindowVerifier (absorb Standing)

variable {κ Λ : Type} {m : KvModel κ Λ} {cfg : VerifierConfig} {argmax : Λ → Token}

namespace Chat

/-! ### What others leave -/

/-- What a step of another request leaves of a session: its entry in the store, unless it is removed, its stream and its
guard. -/
structure Apart (gone : Prop) (sid : SessionId) (s t : SharedServer κ Λ) : Prop where
  session : t.store.sessions.get? sid = s.store.sessions.get? sid ∨ gone ∧ t.store.sessions.get? sid = none
  stream : t.streams.get? sid = s.streams.get? sid
  guard : t.generating.contains sid = s.generating.contains sid

theorem Apart.refl {gone : Prop} (sid : SessionId) (s : SharedServer κ Λ) : Apart gone sid s s := ⟨Or.inl rfl, rfl, rfl⟩

theorem Apart.trans {gone : Prop} {sid : SessionId} {s t u : SharedServer κ Λ} (h : Apart gone sid s t)
    (h' : Apart gone sid t u) : Apart gone sid s u := by
  refine ⟨?_, h'.stream.trans h.stream, h'.guard.trans h.guard⟩
  rcases h'.session with heq | hnone
  · rw [heq]
    exact h.session
  · exact Or.inr hnone

/-- What a request relies on before a step. -/
def Rely (gone : Prop) (sid : SessionId) (k : ChatStep) (s t : SharedServer κ Λ) : Prop :=
  Apart gone sid s t ∧ (k.holds = true → t.verifiers = s.verifiers)

/-- What a step of a request guarantees to the others. -/
def Guarantee (sid : SessionId) (k : ChatStep) (s t : SharedServer κ Λ) : Prop :=
  (∀ id, id ≠ sid → Apart True id s t) ∧ (k.writes = false → t.verifiers = s.verifiers)

theorem Rely.refl {gone : Prop} (sid : SessionId) (k : ChatStep) (s : SharedServer κ Λ) : Rely gone sid k s s :=
  ⟨Apart.refl sid s, fun _ => rfl⟩

theorem Rely.trans {gone : Prop} {sid : SessionId} {k : ChatStep} {s t u : SharedServer κ Λ} (h : Rely gone sid k s t)
    (h' : Rely gone sid k t u) : Rely gone sid k s u :=
  ⟨h.1.trans h'.1, fun hk => (h'.2 hk).trans (h.2 hk)⟩

/-! ### What every step guarantees -/

/-- The store is consistent. -/
def Sound (s : SharedServer κ Λ) : Prop := s.store.Consistent

variable {sid : SessionId} {s : SharedServer κ Λ} {k : ChatStep}

/-- A call of the store leaves the verifier alone. -/
theorem run_callStore {α : Type} (x : SessionProc α) (s : SharedServer κ Λ) :
    (Server.callStore (sharedVerifier m cfg argmax) x).run s =
      ((x.run s.store).1.mapError .store, { s with store := (x.run s.store).2 }) := by
  have hkeep : ∀ (ids : List SessionId) (v : SinkWindowVerifier κ Λ),
      ids.foldl (fun b sid => (sharedVerifier m cfg argmax).remove sid b) v = v := by
    intro ids v
    induction ids with
    | nil => rfl
    | cons id ids ih => exact ih
  have hrun : (Server.callStore (sharedVerifier m cfg argmax) x).run s =
      ((x.run s.store).1.mapError .store, { s with
        store := (x.run s.store).2,
        verifiers := (((x.run s.store).2.notified.drop s.store.notified.length).map Prod.fst).foldl
          (fun b sid => (sharedVerifier m cfg argmax).remove sid b) s.verifiers }) := rfl
  rw [hrun, hkeep]

theorem callStore_guarantees {α : Type} {x : SessionProc α} (hlocal : SessionStore.LocalTo sid x)
    (hx : SessionStore.Lowers x) (hs : Sound s) :
    Sound ((Server.callStore (sharedVerifier m cfg argmax) x).run s).2 ∧
      Guarantee sid k s ((Server.callStore (sharedVerifier m cfg argmax) x).run s).2 := by
  obtain ⟨f, hf⟩ := hlocal
  obtain ⟨-, -, hframe, -⟩ := hf s.store hs
  rw [run_callStore]
  exact ⟨(hx s.store hs).1, fun id hid => ⟨Or.inl (hframe id hid), rfl, rfl⟩, fun _ => rfl⟩

/-- A step that changes nothing. -/
theorem still_guarantees (hs : Sound s) : Sound s ∧ Guarantee sid k s s :=
  ⟨hs, fun id _ => Apart.refl id s, fun _ => rfl⟩

theorem mirror_guarantees (hs : Sound s) :
    Sound ((Server.mirror (sharedVerifier m cfg argmax) sid ()).run s).2 ∧
      Guarantee sid k s ((Server.mirror (sharedVerifier m cfg argmax) sid ()).run s).2 := by
  unfold Server.mirror
  rw [Proc.run_get_bind]
  cases s.store.sessions.get? sid with
  | none => exact still_guarantees hs
  | some x =>
    exact callStore_guarantees (SessionStore.syncSession_local sid _ _) (SessionStore.syncSession_lowers sid _ _) hs

variable (m cfg argmax) in
/-- What the inspector reports changes nothing. -/
theorem run_storeAppend (s : SharedServer κ Λ) (sid : SessionId) (ts : List Token) (clock : Int) :
    ∃ n : Int, (Server.storeAppend (sharedVerifier m cfg argmax) sid ts clock).run s =
        (Server.callStore (sharedVerifier m cfg argmax)
          (SessionStore.appendTokens (fun _ => none) sid ts clock (.ok n))).run s ∧
      (Server.asksInspector s.store sid ts = true → n = s.verifiers.cacheSeqLength) := by
  have hinspect : (Server.inspect (sharedVerifier m cfg argmax) sid ts).run s =
      if Server.asksInspector s.store sid ts then (.ok (s.verifiers.cacheSeqLength : Int), s) else (.ok 0, s) := rfl
  unfold Server.storeAppend
  by_cases ha : Server.asksInspector s.store sid ts = true
  · rw [if_pos ha] at hinspect
    exact ⟨s.verifiers.cacheSeqLength, by rw [Proc.run_bind_ok hinspect], fun _ => rfl⟩
  · rw [if_neg ha] at hinspect
    exact ⟨0, by rw [Proc.run_bind_ok hinspect], fun h => absurd h ha⟩

theorem storeAppend_guarantees (hs : Sound s) (ts : List Token) (clock : Int) :
    Sound ((Server.storeAppend (sharedVerifier m cfg argmax) sid ts clock).run s).2 ∧
      Guarantee sid k s ((Server.storeAppend (sharedVerifier m cfg argmax) sid ts clock).run s).2 := by
  obtain ⟨n, hrun, -⟩ := run_storeAppend m cfg argmax s sid ts clock
  rw [hrun]
  exact callStore_guarantees (SessionStore.appendTokens_local sid ts clock (.ok n))
    (SessionStore.appendTokens_lowers (fun _ => none) sid ts clock (.ok n)) hs

theorem recordPosition_guarantees (hs : Sound s) (clock : Int) :
    Sound ((Server.recordPosition (sharedVerifier m cfg argmax) sid () clock).run s).2 ∧
      Guarantee sid k s ((Server.recordPosition (sharedVerifier m cfg argmax) sid () clock).run s).2 := by
  unfold Server.recordPosition
  rw [Proc.run_get_bind]
  exact callStore_guarantees (SessionStore.recordPositionAdvance_local sid _ clock)
    (SessionStore.recordPositionAdvance_lowers (fun _ => none) sid _ clock) hs

/-- A call of the verifier touches nothing else. -/
theorem callVerifier_guarantees {α : Type} (x : Proc (SinkWindowVerifier κ Λ) VerifierError α)
    (hx : k.writes = false → (x.run s.verifiers).2 = s.verifiers) (hs : Sound s) :
    Sound ((Server.callVerifier x).run s).2 ∧ Guarantee sid k s ((Server.callVerifier x).run s).2 := by
  have hrun : ((Server.callVerifier x).run s).2 = { s with verifiers := (x.run s.verifiers).2 } := by
    unfold Server.callVerifier
    rw [Proc.run_focus]
    rcases x.run s.verifiers with ⟨_ | _, _⟩ <;> rfl
  rw [hrun]
  exact ⟨hs, fun id _ => ⟨Or.inl rfl, rfl, rfl⟩, hx⟩

theorem reveal_guarantees (o : Observation VerifierError) (hs : Sound s) :
    Sound ((Server.reveal sid o : ServerProc _ _ Unit).run s).2 ∧
      Guarantee sid k s ((Server.reveal sid o : ServerProc _ _ Unit).run s).2 :=
  ⟨hs, fun _ hid => ⟨Or.inl rfl, Dict.get?_set_ne _ hid, rfl⟩, fun _ => rfl⟩

theorem enterGuard_guarantees (hs : Sound s) :
    Sound ((Server.enterGuard sid : ServerProc _ _ Unit).run s).2 ∧
      Guarantee sid k s ((Server.enterGuard sid : ServerProc _ _ Unit).run s).2 := by
  unfold Server.enterGuard
  rw [Proc.run_get_bind]
  split
  · exact still_guarantees hs
  · refine ⟨hs, fun id hid => ⟨Or.inl rfl, rfl, ?_⟩, fun _ => rfl⟩
    show (sid :: s.generating).contains id = _
    simp [hid]

theorem leaveGuard_guarantees (hs : Sound s) :
    Sound ((Server.leaveGuard sid : ServerProc _ _ Unit).run s).2 ∧
      Guarantee sid k s ((Server.leaveGuard sid : ServerProc _ _ Unit).run s).2 := by
  refine ⟨hs, fun id hid => ⟨Or.inl rfl, rfl, ?_⟩, fun _ => rfl⟩
  show (s.generating.filter fun x => x ≠ sid).contains id = _
  rw [Bool.eq_iff_iff]
  simp [hid]

theorem append_guarantees (ts : List Token) : (append m cfg ts).Guarantees Sound (Guarantee sid) := by
  unfold append
  refine .bind (.atomic fun _ s hs => callVerifier_guarantees _ nofun hs) fun _ => ?_
  refine .bind (.atomic fun _ s hs => callVerifier_guarantees _ nofun hs) fun _ => ?_
  exact .atomic fun _ s hs => callVerifier_guarantees _ nofun hs

theorem record_guarantees (ts : List Token) : (record m cfg argmax sid ts).Guarantees Sound (Guarantee sid) := by
  unfold record
  refine .bind (.atomic fun _ s hs => mirror_guarantees hs) fun _ => ?_
  refine .bind (.atomic fun clock s hs => storeAppend_guarantees hs ts clock) fun _ => ?_
  exact .atomic fun clock s hs => recordPosition_guarantees hs clock

theorem appendTokens_guarantees (session : Session) (promptIds : List Token) :
    (appendTokens m cfg argmax sid session promptIds).Guarantees Sound (Guarantee sid) := by
  unfold appendTokens
  split
  · exact .bind (.atomic fun _ s hs => callVerifier_guarantees _ nofun hs) fun _ => record_guarantees promptIds
  · exact .bind (append_guarantees promptIds) fun _ => record_guarantees promptIds

theorem yieldEvent_guarantees (event : Int → GenerateEvent) :
    (yieldEvent k sid event : ChatProg κ Λ Unit).Guarantees Sound (Guarantee sid) :=
  .atomic fun _ _ hs => reveal_guarantees _ hs

variable (m cfg argmax) in
/-- The choice of a token only looks at the verifier. -/
theorem greedyNextTokenId_run (v : SinkWindowVerifier κ Λ) :
    ((SinkWindowVerifier.localVerifier m cfg argmax).greedyNextTokenId.run v).2 = v := by
  unfold SinkWindowVerifier.localVerifier
  rw [Proc.run_get_bind]
  cases v.nextTokenLogits <;> rfl

theorem generateLoop_guarantees (eos : List Token) (t0 : Int) (n count : Nat) :
    (generateLoop m cfg argmax sid eos t0 n count).Guarantees Sound (Guarantee sid) := by
  induction n generalizing count with
  | zero => exact yieldEvent_guarantees _
  | succ n ih =>
    unfold generateLoop
    refine .bind (.atomic fun _ s hs => callVerifier_guarantees _ (fun _ => greedyNextTokenId_run ..) hs) fun t => ?_
    refine .bind (append_guarantees [t]) fun _ => .bind (record_guarantees [t]) fun _ => ?_
    refine .bind (yieldEvent_guarantees _) fun _ => ?_
    split
    · exact yieldEvent_guarantees _
    · exact ih (count + 1)

theorem generateEvents_guarantees (maxTokens : Int) :
    (generateEvents m cfg argmax sid maxTokens).Guarantees Sound (Guarantee sid) := by
  unfold generateEvents
  refine .bind (.atomic fun _ s hs => ?_) fun _ => ?_
  · cases (Server.checkArguments maxTokens {} : Except (OperationError VerifierError) Unit) <;> exact still_guarantees hs
  refine .bind (.atomic fun _ s hs =>
    callStore_guarantees (SessionStore.getSession_local sid) (SessionStore.getSession_lowers sid) hs) fun session => ?_
  split
  · trivial
  · refine .bind ?_ fun _ => .bind (.atomic fun _ s hs => still_guarantees hs) fun t0 => generateLoop_guarantees _ _ _ _
    unfold yieldTruncated
    split
    · exact yieldEvent_guarantees _
    · trivial

/-- A request leaves the sessions of the others alone, and the verifier except in the steps that say so. -/
theorem chat_guarantees (session : Session) (promptIds : List Token) (maxTokens : Int) :
    (chat m cfg argmax sid session promptIds maxTokens).Guarantees Sound (Guarantee sid) := by
  unfold chat generate
  refine .bind (appendTokens_guarantees session promptIds) fun _ => ?_
  refine .bind (.atomic fun _ s hs => enterGuard_guarantees hs) fun _ => ?_
  refine .andThen (generateEvents_guarantees maxTokens) fun r => ?_
  exact .bind (.atomic fun _ s hs => leaveGuard_guarantees hs) fun _ => trivial

/-! ### What every step does -/

variable {gone : Prop} {v : SinkWindowVerifier κ Λ} {x : Session} {shown : List Token} {guarded : Bool}

/-- What the server has for a request: its record, unless it was removed, the tokens shown so far, its guard, and the
verifier as the request left it. -/
structure At (gone : Prop) (sid : SessionId) (v : SinkWindowVerifier κ Λ) (x : Session) (shown : List Token)
    (guarded : Bool) (s : SharedServer κ Λ) : Prop where
  session : s.store.sessions.get? sid = some x ∨ gone ∧ s.store.sessions.get? sid = none
  id : x.sessionId = sid
  shown : s.tokensShown sid = shown
  guard : s.generating.contains sid = guarded
  verifier : s.verifiers = v

namespace At

/-- Others act, and may have changed the verifier. -/
theorem apart {t : SharedServer κ Λ} (h : At gone sid v x shown guarded s) (hapart : Apart gone sid s t) :
    At gone sid t.verifiers x shown guarded t := by
  refine ⟨?_, h.id, ?_, hapart.guard.trans h.guard, rfl⟩
  · rcases hapart.session with heq | hnone
    · rw [heq]
      exact h.session
    · exact Or.inr hnone
  · unfold Server.tokensShown
    rw [hapart.stream]
    exact h.shown

/-- Others act, and have left the verifier alone. -/
theorem rely {t : SharedServer κ Λ} (h : At gone sid v x shown guarded s) (hR : Rely gone sid k s t)
    (hk : k.holds = true) : At gone sid v x shown guarded t := by
  have hverifier : t.verifiers = v := (hR.2 hk).trans h.verifier
  rw [← hverifier]
  exact h.apart hR.1

theorem callVerifier (h : At gone sid v x shown guarded s) {α : Type}
    {y : Proc (SinkWindowVerifier κ Λ) VerifierError α} {a : α} {v' : SinkWindowVerifier κ Λ}
    (hy : y.run v = (.ok a, v')) :
    ∃ s', (Server.callVerifier y).run s = (.ok a, s') ∧ At gone sid v' x shown guarded s' := by
  refine ⟨{ s with verifiers := v' }, ?_, h.session, h.id, h.shown, h.guard, rfl⟩
  unfold Server.callVerifier
  rw [Proc.run_focus_ok (by rw [h.verifier]; exact hy)]

/-- A call of the store that writes the record. -/
theorem write (h : At gone sid v x shown guarded s) {y : Session} (hy : y.sessionId = sid) :
    At gone sid v y shown guarded { s with store := s.store.write y } := by
  refine ⟨Or.inl ?_, hy, h.shown, h.guard, h.verifier⟩
  simp [SessionStore.write, hy]

variable (m cfg argmax) in
theorem mirror (h : At gone sid v x shown guarded s) :
    ∃ s', (Server.mirror (sharedVerifier m cfg argmax) sid ()).run s = (.ok (), s') ∧
      At gone sid v { x with cachedTokenSequence := v.cachedTokenSequence } shown guarded s' := by
  have hcached : (sharedVerifier m cfg argmax).cachedTokenSequence sid () s.verifiers = v.cachedTokenSequence :=
    congrArg SinkWindowVerifier.cachedTokenSequence h.verifier
  unfold Server.mirror
  rw [Proc.run_get_bind]
  rcases h.session with hx | ⟨hgone, hx⟩
  · rw [hx]
    dsimp only
    rw [run_callStore, SessionStore.run_syncSession hx, hcached]
    exact ⟨_, rfl, h.write h.id⟩
  · rw [hx]
    exact ⟨s, rfl, Or.inr ⟨hgone, hx⟩, h.id, h.shown, h.guard, h.verifier⟩

variable (m cfg argmax) in
theorem storeAppend (h : At gone sid v x shown guarded s) (hv : v.Standing)
    (hx : x.cachedTokenSequence = v.cachedTokenSequence) {ts : List Token} (hts : ∀ t ∈ ts, 0 ≤ t) (clock : Int) :
    (∃ n s', (Server.storeAppend (sharedVerifier m cfg argmax) sid ts clock).run s = (.ok n, s') ∧
      At gone sid v { x with historyTokenIds := x.historyTokenIds ++ ts, lastActiveAt := clock } shown guarded s') ∨
    gone ∧ ∃ e s', (Server.storeAppend (sharedVerifier m cfg argmax) sid ts clock).run s = (.error e, s') := by
  obtain ⟨n, hrun, hn⟩ := run_storeAppend m cfg argmax s sid ts clock
  rw [hrun, run_callStore]
  rcases h.session with hsome | ⟨hgone, hnone⟩
  · -- the inspector reports as many entries as the session has tokens
    have hk : s.store.hasInspector = true → n = x.cachedTokenSequence.length := by
      intro hi
      have hfind : (ts.find? fun t => decide (t < 0)) = none := by
        rw [List.find?_eq_none]
        intro t ht
        simpa using hts t ht
      have hask : Server.asksInspector s.store sid ts = true := by simp [Server.asksInspector, hi, hfind, hsome]
      rw [hn hask, h.verifier, hx]
      obtain ⟨entries, tokens, pos, logits, hl, rfl⟩ := hv
      exact congrArg Nat.cast hl.symm
    rw [SessionStore.run_appendTokens _ hsome hts clock hk]
    exact Or.inl ⟨_, _, rfl, h.write h.id⟩
  · rw [SessionStore.run_appendTokens_absent _ hnone]
    exact Or.inr ⟨hgone, _, _, rfl⟩

variable (m cfg argmax) in
/-- The store refuses a negative token. -/
theorem storeAppend_negative (h : At gone sid v x shown guarded s) {ts : List Token} (hts : ¬ ∀ t ∈ ts, 0 ≤ t)
    (clock : Int) : ∃ e, (Server.storeAppend (sharedVerifier m cfg argmax) sid ts clock).run s = (.error e, s) := by
  obtain ⟨n, hrun, -⟩ := run_storeAppend m cfg argmax s sid ts clock
  obtain ⟨t, ht⟩ : ∃ t, (ts.find? fun t => decide (t < 0)) = some t := by
    rw [← Option.isSome_iff_exists, List.find?_isSome]
    simpa using hts
  rw [hrun, run_callStore]
  rcases h.session with hsome | ⟨-, hnone⟩
  · rw [SessionStore.run_appendTokens_negative _ hsome ht]
    exact ⟨_, rfl⟩
  · rw [SessionStore.run_appendTokens_absent _ hnone]
    exact ⟨_, rfl⟩

variable (m cfg argmax) in
theorem recordPosition (h : At gone sid v x shown guarded s) (hpos : x.nextGlobalPosition ≤ v.nextGlobalPosition)
    (clock : Int) :
    (∃ s', (Server.recordPosition (sharedVerifier m cfg argmax) sid () clock).run s = (.ok (), s') ∧
      At gone sid v { x with nextGlobalPosition := v.nextGlobalPosition, lastActiveAt := clock } shown guarded s') ∨
    gone ∧ ∃ e s', (Server.recordPosition (sharedVerifier m cfg argmax) sid () clock).run s = (.error e, s') := by
  have hposition : (sharedVerifier m cfg argmax).nextGlobalPosition sid () s.verifiers = (v.nextGlobalPosition : Int) :=
    congrArg (fun w : SinkWindowVerifier κ Λ => (w.nextGlobalPosition : Int)) h.verifier
  unfold Server.recordPosition
  rw [Proc.run_get_bind, hposition, run_callStore]
  rcases h.session with hsome | ⟨hgone, hnone⟩
  · rw [SessionStore.run_recordPositionAdvance _ hsome hpos]
    exact Or.inl ⟨_, rfl, h.write h.id⟩
  · rw [SessionStore.run_recordPositionAdvance_absent _ hnone]
    exact Or.inr ⟨hgone, _, _, rfl⟩

theorem reveal (h : At gone sid v x shown guarded s) (o : Observation VerifierError) :
    ∃ s', (Server.reveal sid o : ServerProc _ _ Unit).run s = (.ok (), s') ∧
      At gone sid v x (shown ++ (Server.tokenOf o).toList) guarded s' := by
  refine ⟨_, rfl, h.session, h.id, ?_, h.guard, h.verifier⟩
  have hshown := h.shown
  unfold Server.tokensShown at hshown ⊢
  simp only [Dict.get?_set_self, Option.getD_some, List.filterMap_append, hshown]
  cases hto : Server.tokenOf o with
  | none => simp [hto]
  | some t => simp [hto]

end At

/-! ### What a request shows -/

/-- How a request ends: with the tokens `T`, unless its session was removed and it has raised. -/
def Ends (gone : Prop) (sid : SessionId) (T : List Token) (r : Except (OperationError VerifierError) Unit)
    (s : SharedServer κ Λ) : Prop :=
  s.tokensShown sid = T ∨ gone ∧ ∃ e, r = .error e

/-- A step that relies on the verifier. -/
theorem At.next {α β : Type} (h : At gone sid v x shown guarded s) (hk : k.holds = true)
    {y : Int → Proc (SharedServer κ Λ) (OperationError VerifierError) α} {f : α → ChatProg κ Λ β}
    {Q : Except (OperationError VerifierError) β → SharedServer κ Λ → Prop}
    (hy : ∀ t i, At gone sid v x shown guarded t →
      (∃ a t', (y i).run t = (.ok a, t') ∧ (f a).Survives (Rely gone sid) Q t') ∨
        ∃ e t', (y i).run t = (.error e, t') ∧ Q (.error e) t') :
    (Prog.atomic k y >>= f).Survives (Rely gone sid) Q s :=
  Prog.Survives.next fun t ht i => hy t i (h.rely ht hk)

theorem append_survives (h : At gone sid v x shown guarded s) (hv : v.Standing) {ts : List Token} (hne : ts ≠ []) :
    (append m cfg ts).Survives (Rely gone sid)
      (fun r s' => r = .ok () ∧ At gone sid (absorb m cfg v ts) x shown guarded s') s := by
  obtain ⟨entries, tokens, pos, logits, hlen, rfl⟩ := hv
  have hlen' : (tokens ++ ts).length = (m.forward pos entries ts).1.length := by simp [hlen]
  unfold append
  refine h.next rfl fun t _ ht => Or.inl ?_
  obtain ⟨t₁, hrun₁, ht₁⟩ := ht.callVerifier (SinkWindowVerifier.run_forwardBlock hlen hne)
  refine ⟨_, t₁, hrun₁, ht₁.next rfl fun t _ ht => Or.inl ?_⟩
  have hcommit := SinkWindowVerifier.run_commitOrTruncate cfg pos logits hlen' (Nat.le_refl ts.length)
    (by rw [← hlen']; simp)
  rw [Nat.sub_self, Nat.sub_zero, List.take_length, ← hlen', List.take_length] at hcommit
  obtain ⟨t₂, hrun₂, ht₂⟩ := ht.callVerifier hcommit
  refine ⟨_, t₂, hrun₂, Prog.Survives.atomic fun t ht _ => ?_⟩
  obtain ⟨t₃, hrun₃, ht₃⟩ := (ht₂.rely ht rfl).callVerifier
    (y := Proc.modify fun v => { v with nextTokenLogits := (m.forward pos entries ts).2.getLast? }) rfl
  rw [hrun₃]
  exact ⟨rfl, ht₃⟩

variable (argmax) in
theorem record_survives (h : At gone sid v x shown guarded s) (hv : v.Standing)
    (hpos : x.nextGlobalPosition ≤ v.nextGlobalPosition) {ts : List Token} (hts : ∀ t ∈ ts, 0 ≤ t) :
    (record m cfg argmax sid ts).Survives (Rely gone sid)
      (fun r s' => (r = .ok () ∧ ∃ x', At gone sid v x' shown guarded s' ∧
          x'.nextGlobalPosition = v.nextGlobalPosition ∧ x'.eosTokenIds = x.eosTokenIds) ∨
        gone ∧ ∃ e, r = .error e) s := by
  unfold record
  refine h.next rfl fun t _ ht => Or.inl ?_
  obtain ⟨t₁, hrun₁, ht₁⟩ := ht.mirror m cfg argmax
  refine ⟨(), t₁, hrun₁, ht₁.next rfl fun t clock ht => ?_⟩
  rcases ht.storeAppend m cfg argmax hv rfl hts clock with ⟨n, t₂, hrun₂, ht₂⟩ | ⟨hgone, e, t₂, hrun₂⟩
  · refine Or.inl ⟨n, t₂, hrun₂, Prog.Survives.atomic fun t ht clock => ?_⟩
    rcases (ht₂.rely ht rfl).recordPosition m cfg argmax hpos clock with ⟨t₃, hrun₃, ht₃⟩ | ⟨hgone, e, t₃, hrun₃⟩
    · rw [hrun₃]
      exact Or.inl ⟨rfl, _, ht₃, rfl, rfl⟩
    · rw [hrun₃]
      exact Or.inr ⟨hgone, e, rfl⟩
  · exact Or.inr ⟨e, t₂, hrun₂, Or.inr ⟨hgone, e, rfl⟩⟩

variable (argmax) in
/-- A negative token ends the request. -/
theorem record_survives_negative (h : At gone sid v x shown guarded s) {ts : List Token} (hts : ¬ ∀ t ∈ ts, 0 ≤ t) :
    (record m cfg argmax sid ts).Survives (Rely gone sid)
      (fun r s' => (∃ e, r = .error e) ∧ s'.tokensShown sid = shown) s := by
  unfold record
  refine h.next rfl fun u _ hu => Or.inl ?_
  obtain ⟨u₁, hrun₁, hu₁⟩ := hu.mirror m cfg argmax
  refine ⟨(), u₁, hrun₁, hu₁.next rfl fun u clock hu => Or.inr ?_⟩
  obtain ⟨e, hrun₂⟩ := hu.storeAppend_negative m cfg argmax hts clock
  exact ⟨e, u, hrun₂, ⟨e, rfl⟩, hu.shown⟩

theorem yieldEvent_survives (h : At gone sid v x shown guarded s) {event : Int → GenerateEvent}
    {Q : Except (OperationError VerifierError) Unit → SharedServer κ Λ → Prop} {o : Option Token}
    (ho : ∀ now, Server.tokenOf (.event (event now) : Observation VerifierError) = o) (hk : k.holds = true)
    (hQ : ∀ t, At gone sid v x (shown ++ o.toList) guarded t → Q (.ok ()) t) :
    (yieldEvent k sid event).Survives (Rely gone sid) Q s := by
  refine Prog.Survives.atomic fun t ht clock => ?_
  obtain ⟨t', hrun, ht'⟩ := (h.rely ht hk).reveal (.event (event clock))
  rw [ho] at ht'
  rw [hrun]
  exact hQ t' ht'

/-- The terminal event shows no token, whatever has become of the verifier and of the session. -/
theorem yieldDone_survives (hshown : s.tokensShown sid = shown) (reason : StopReason) (count : Nat) (t0 : Int) :
    (yieldDone sid reason count t0).Survives (Rely gone sid) (Ends gone sid shown) s := by
  refine Prog.Survives.atomic fun t ht clock => Or.inl ?_
  have hstream : t.tokensShown sid = shown := by
    unfold Server.tokensShown
    rw [ht.1.stream]
    exact hshown
  unfold Server.tokensShown at hstream ⊢
  show ((t.streams.set sid ((t.streams.get? sid).getD [] ++ [_])).get? sid |>.getD []).filterMap _ = _
  rw [Dict.get?_set_self, Option.getD_some, List.filterMap_append, hstream]
  exact List.append_nil _

theorem generateLoop_survives {eos : List Token} {t0 : Int} (n count : Nat) (h : At gone sid v x shown guarded s)
    (hv : v.Standing) (hpos : x.nextGlobalPosition = v.nextGlobalPosition)
    (hready : ∃ row, v.nextTokenLogits = some row) :
    (generateLoop m cfg argmax sid eos t0 n count).Survives (Rely gone sid)
      (Ends gone sid (shown ++ Server.spoken m cfg argmax eos n v)) s := by
  induction n generalizing s v x shown count with
  | zero =>
    unfold generateLoop Server.spoken
    rw [List.append_nil]
    exact yieldDone_survives h.shown _ _ _
  | succ n ih =>
    obtain ⟨row, hrow⟩ := hready
    unfold generateLoop Server.spoken
    simp only [hrow]
    have hstand := SinkWindowVerifier.absorb_standing m cfg hv [argmax row]
    -- the token is chosen
    have hchoose : (SinkWindowVerifier.localVerifier m cfg argmax).greedyNextTokenId.run v = (.ok (argmax row), v) := by
      simp only [SinkWindowVerifier.localVerifier]
      rw [Proc.run_get_bind, hrow]
      rfl
    refine h.next rfl fun t _ ht => Or.inl ?_
    obtain ⟨t₁, hrun₁, ht₁⟩ := ht.callVerifier hchoose
    refine ⟨_, t₁, hrun₁, ?_⟩
    -- the verifier appends it
    refine Prog.Survives.bind ((append_survives ht₁ hv (by simp)).mono ?_)
    rintro _ t₂ ⟨rfl, ht₂⟩
    dsimp only
    by_cases hneg : argmax row < 0
    · rw [if_pos hneg, List.append_nil]
      refine Prog.Survives.bind ((record_survives_negative argmax ht₂ (by simpa using hneg)).mono ?_)
      rintro _ t₃ ⟨⟨e, rfl⟩, hshown⟩
      exact Or.inl hshown
    · rw [if_neg hneg]
      have hnonneg : ∀ t ∈ [argmax row], 0 ≤ t := by
        intro t ht
        rw [List.mem_singleton.1 ht]
        exact Int.not_lt.1 hneg
      have hmono : x.nextGlobalPosition ≤ (absorb m cfg v [argmax row]).nextGlobalPosition := by
        rw [hpos]
        simp only [absorb, SinkWindowVerifier.held]
        omega
      refine Prog.Survives.bind ((record_survives argmax ht₂ hstand hmono hnonneg).mono ?_)
      rintro _ t₃ (⟨rfl, x', ht₃, hpos', -⟩ | ⟨hgone, e, rfl⟩)
      · -- it is shown
        refine Prog.Survives.bind (yieldEvent_survives (o := some (argmax row)) ht₃ (fun _ => rfl) rfl
          fun t₄ ht₄ => ?_)
        dsimp only [Option.toList_some] at ht₄ ⊢
        by_cases hmem : argmax row ∈ eos
        · rw [if_pos hmem, if_pos hmem]
          exact yieldDone_survives ht₄.shown _ _ _
        · rw [if_neg hmem, if_neg hmem]
          have hnext := ih (count + 1) ht₄ hstand hpos' (Server.absorb_ready v (by simp))
          rw [List.append_assoc] at hnext
          exact hnext
      · exact Or.inr ⟨hgone, e, rfl⟩

theorem generateEvents_survives {maxTokens : Int} (h : At gone sid v x shown guarded s) (hv : v.Standing)
    (hpos : x.nextGlobalPosition = v.nextGlobalPosition) (hpast : 0 < v.nextGlobalPosition)
    (hready : ∃ row, v.nextTokenLogits = some row) :
    (generateEvents m cfg argmax sid maxTokens).Survives (Rely gone sid)
      (Ends gone sid (shown ++ match (Server.checkArguments maxTokens {} : Except (OperationError VerifierError) Unit) with
        | .error _ => []
        | .ok _ => Server.spoken m cfg argmax x.eosTokenIds maxTokens.toNat v)) s := by
  unfold generateEvents
  cases hargs : (Server.checkArguments maxTokens {} : Except (OperationError VerifierError) Unit) with
  | error e =>
    refine h.next rfl fun t _ ht => Or.inr ⟨e, t, rfl, Or.inl ?_⟩
    rw [List.append_nil]
    exact ht.shown
  | ok u =>
    refine h.next rfl fun t _ ht => Or.inl ⟨u, t, rfl, ht.next rfl fun t _ ht => ?_⟩
    rw [run_callStore]
    rcases ht.session with hsome | ⟨hgone, hnone⟩
    · rw [SessionStore.run_getSession, hsome]
      refine Or.inl ⟨x, t, rfl, ?_⟩
      rw [if_neg (by omega)]
      have hloop : ∀ t', At gone sid v x shown guarded t' →
          ((Prog.atomic .read fun clock => pure clock) >>= fun t0 =>
            generateLoop m cfg argmax sid x.eosTokenIds t0 maxTokens.toNat 0).Survives (Rely gone sid)
            (Ends gone sid (shown ++ Server.spoken m cfg argmax x.eosTokenIds maxTokens.toNat v)) t' :=
        fun t' ht' => ht'.next rfl fun u clock hu =>
          Or.inl ⟨clock, u, rfl, generateLoop_survives _ _ hu hv hpos hready⟩
      refine Prog.Survives.bind ?_
      unfold yieldTruncated
      by_cases hlt : x.cachedTokenSequence.length < x.historyTokenIds.length
      · rw [if_pos hlt]
        refine yieldEvent_survives (o := none) ht (fun _ => rfl) rfl ?_
        intro t' ht'
        rw [Option.toList_none, List.append_nil] at ht'
        exact hloop t' ht'
      · rw [if_neg hlt]
        exact hloop t ht
    · rw [SessionStore.run_getSession, hnone]
      exact Or.inr ⟨_, t, rfl, Or.inr ⟨hgone, _, rfl⟩⟩

theorem generate_survives {maxTokens : Int} (h : At gone sid v x shown false s) (hv : v.Standing)
    (hpos : x.nextGlobalPosition = v.nextGlobalPosition) (hpast : 0 < v.nextGlobalPosition)
    (hready : ∃ row, v.nextTokenLogits = some row) :
    (generate m cfg argmax sid maxTokens).Survives (Rely gone sid)
      (Ends gone sid (shown ++ Server.heard m cfg argmax x.eosTokenIds [] sid maxTokens {} v)) s := by
  unfold generate
  refine h.next rfl fun t _ ht => Or.inl ?_
  have henter : (Server.enterGuard sid : ServerProc _ _ Unit).run t =
      (.ok (), { t with generating := sid :: t.generating }) := by
    unfold Server.enterGuard
    rw [Proc.run_get_bind, if_neg (by rw [ht.guard]; simp)]
    rfl
  have hat : At gone sid v x shown true { t with generating := sid :: t.generating } :=
    ⟨ht.session, ht.id, ht.shown, by simp, ht.verifier⟩
  refine ⟨(), _, henter, Prog.Survives.andThen ((generateEvents_survives hat hv hpos hpast hready).mono ?_)⟩
  intro r t₁ ht₁
  refine Prog.Survives.next fun t₂ ht₂ _ => Or.inl ⟨(), _, rfl, ?_⟩
  rcases ht₁ with hshown | hraised
  · refine Or.inl ?_
    have hstream : t₂.tokensShown sid = t₁.tokensShown sid := by
      unfold Server.tokensShown
      rw [ht₂.1.stream]
    exact hstream.trans hshown
  · exact Or.inr hraised

/-- The tokens that a request is answered with. -/
def reply (m : KvModel κ Λ) (cfg : VerifierConfig) (argmax : Λ → Token) (sid : SessionId) (promptIds : List Token)
    (maxTokens : Int) (eos : List Token) : List Token :=
  if ∀ t ∈ promptIds, 0 ≤ t then Server.heard m cfg argmax eos [] sid maxTokens {} (absorb m cfg .empty promptIds)
  else []

/-- A request with a new session is answered with its tokens, whatever the verifier was before. -/
theorem chat_survives {promptIds : List Token} {maxTokens : Int} (hne : promptIds ≠ [])
    (h : At gone sid s.verifiers x [] false s) (hnew : x.nextGlobalPosition = 0) :
    (chat m cfg argmax sid x promptIds maxTokens).Survives (Rely gone sid)
      (Ends gone sid (reply m cfg argmax sid promptIds maxTokens x.eosTokenIds)) s := by
  have hstand := SinkWindowVerifier.absorb_standing m cfg
    (SinkWindowVerifier.empty_standing : (SinkWindowVerifier.empty : SinkWindowVerifier κ Λ).Standing) promptIds
  have hpast : 0 < (absorb m cfg (.empty : SinkWindowVerifier κ Λ) promptIds).nextGlobalPosition := by
    have := List.length_pos_of_ne_nil hne
    simp only [absorb, SinkWindowVerifier.held]
    omega
  unfold chat appendTokens
  rw [if_pos hnew]
  refine Prog.Survives.bind (Prog.Survives.next fun t ht _ => Or.inl ?_)
  -- whatever the verifier is, the prefill makes it anew
  obtain ⟨t₁, hrun₁, ht₁⟩ := (h.apart ht.1).callVerifier (SinkWindowVerifier.prefill_absorb m cfg hne t.verifiers)
  refine ⟨(), t₁, hrun₁, ?_⟩
  unfold reply
  by_cases hnonneg : ∀ t ∈ promptIds, 0 ≤ t
  · rw [if_pos hnonneg]
    refine (record_survives argmax ht₁ hstand (by omega) hnonneg).mono ?_
    rintro _ t₂ (⟨rfl, x', ht₂, hpos, heos⟩ | ⟨hgone, e, rfl⟩)
    · dsimp only
      rw [← heos]
      exact generate_survives ht₂ hstand hpos hpast (Server.absorb_ready _ hne)
    · exact Or.inr ⟨hgone, e, rfl⟩
  · rw [if_neg hnonneg]
    refine (record_survives_negative argmax ht₁ hnonneg).mono ?_
    rintro _ t₂ ⟨⟨e, rfl⟩, hshown⟩
    exact Or.inl hshown

end Chat

namespace HttpApp

open Chat

/-! ### Whole runs -/

/-- The program has ended without an exception, and its client has not been lost. -/
def completed (task : ChatTask κ Λ) : Bool :=
  decide (task.fate ≠ .lost) &&
    match task.program with
    | .done (.ok _) => true
    | _ => false

/-- The next step of the program relies on the verifier. -/
def relies (p : ChatProg κ Λ Unit) : Bool := (p.pending.map ChatStep.holds).getD false

/-- The next step of the program changes the verifier. -/
def changes (p : ChatProg κ Λ Unit) : Bool := (p.pending.map ChatStep.writes).getD false

/-- A step that changes the verifier is made while no other request relies on it, those apart whose client was lost. -/
def Exclusive (s : HttpApp κ Λ) : HttpEvent → Prop
  | .step sid _ => ∀ task ∈ s.tasks.get? sid, changes task.program = true →
    ∀ e ∈ s.tasks.entries, e.1 ≠ sid → e.2.fate ≠ .lost → relies e.2.program = false
  | _ => True

instance (s : HttpApp κ Λ) : (e : HttpEvent) → Decidable (s.Exclusive e)
  | .step sid _ => inferInstanceAs (Decidable (∀ task ∈ s.tasks.get? sid, _))
  | .arrive .. | .answer _ | .lose .. => isTrue trivial

variable (m cfg argmax) in
/-- A request that was not cut off is on its way to its reply. -/
def OnItsWay (sid : SessionId) (task : ChatTask κ Λ) (s : SharedServer κ Λ) : Prop :=
  task.fate ≠ .lost → task.program.Survives (Rely True sid)
    (Ends True sid (reply m cfg argmax sid task.promptIds task.maxTokens task.eosTokenIds)) s

variable (m cfg argmax) in
/-- What holds in an exclusive run. -/
structure Tracked (s : HttpApp κ Λ) : Prop where
  sound : Sound s.server
  fresh : ∀ sid, s.tasks.get? sid = none → s.server.store.sessions.get? sid = none ∧
    s.server.streams.get? sid = none ∧ s.server.generating.contains sid = false
  prompted : ∀ sid task, s.tasks.get? sid = some task → task.promptIds ≠ []
  guarantees : ∀ sid task, s.tasks.get? sid = some task → task.program.Guarantees Sound (Guarantee sid)
  onTheWay : ∀ sid task, s.tasks.get? sid = some task → OnItsWay m cfg argmax sid task s.server

variable {s : HttpApp κ Λ} {sid : SessionId} {task : ChatTask κ Λ}

/-- Others act. -/
theorem OnItsWay.interfere {s t : SharedServer κ Λ} (h : OnItsWay m cfg argmax sid task s) (hapart : Apart True sid s t)
    (hverifier : task.fate ≠ .lost → relies task.program = true → t.verifiers = s.verifiers) :
    OnItsWay m cfg argmax sid task t := by
  intro hfate
  refine Prog.Survives.interfere (R := Rely True sid) (fun _ _ _ _ => Rely.trans) (h hfate)
    (fun k hk => ⟨hapart, fun hholds => ?_⟩) fun r _ hr => ?_
  · refine hverifier hfate ?_
    unfold relies
    rw [hk]
    exact hholds
  · rcases hr with hshown | hraised
    · refine Or.inl ?_
      unfold Server.tokensShown at hshown ⊢
      rw [hapart.stream]
      exact hshown
    · exact Or.inr hraised

variable (task) in
/-- The rule for an event that concerns one request. -/
theorem Tracked.update (h : s.Tracked m cfg argmax) {t : SharedServer κ Λ} (hsound : Sound t)
    (hapart : ∀ id, id ≠ sid → Apart True id s.server t)
    (hverifier : ∀ id task', id ≠ sid → s.tasks.get? id = some task' → task'.fate ≠ .lost →
      relies task'.program = true → t.verifiers = s.server.verifiers)
    (hprompt : task.promptIds ≠ []) (hguarantees : task.program.Guarantees Sound (Guarantee sid))
    (hown : OnItsWay m cfg argmax sid task t) (value : Nat) : Tracked m cfg argmax { value := value, server := t, tasks := s.tasks.set sid task } := by
  have hcases : ∀ {P : SessionId → ChatTask κ Λ → Prop}, P sid task →
      (∀ id task', id ≠ sid → s.tasks.get? id = some task' → P id task') →
      ∀ id task', (s.tasks.set sid task).get? id = some task' → P id task' := by
    intro P hown hothers id task' hget
    rw [Dict.get?_set] at hget
    split at hget
    · rename_i heq
      cases hget
      rw [heq]
      exact hown
    · rename_i hne
      exact hothers id task' hne hget
  refine ⟨hsound, fun id hid => ?_, hcases hprompt fun id task' _ => h.prompted id task',
    hcases hguarantees fun id task' _ => h.guarantees id task', hcases hown fun id task' hne hget => ?_⟩
  · dsimp only at hid ⊢
    rw [Dict.get?_set] at hid
    split at hid
    · cases hid
    · rename_i hne
      obtain ⟨hsession, hstream, hguard⟩ := h.fresh id hid
      refine ⟨?_, (hapart id hne).stream.trans hstream, (hapart id hne).guard.trans hguard⟩
      rcases (hapart id hne).session with heq | hnone
      · exact heq.trans hsession
      · exact hnone.2
  · exact (h.onTheWay id task' hget).interfere (hapart id hne) fun hfate hrelies =>
      hverifier id task' hne hget hfate hrelies

/-- What `create_session` returns is what it has stored. -/
theorem createSession_ok {store store' : SessionStore} {eos : List Token} {clock : Int} {x : Session}
    (h : (SessionStore.createSession (fun _ => none) sid eos "" clock clock).run store = (.ok x, store')) :
    store'.sessions.get? sid = some x ∧ x.sessionId = sid ∧ x.nextGlobalPosition = 0 ∧ x.eosTokenIds = eos := by
  unfold SessionStore.createSession at h
  rw [Proc.run_bind] at h
  rcases hroom : (SessionStore.makeRoom fun _ => none).run store with ⟨_ | _, t⟩
  · rw [hroom] at h
    cases h
  · rw [hroom] at h
    dsimp only at h
    rw [Proc.run_bind] at h
    rcases hslab : SessionStore.acquireSlab.run t with ⟨_ | slab, u⟩
    · rw [hslab] at h
      cases h
    · rw [hslab] at h
      cases h
      exact ⟨by simp [SessionStore.write], rfl, rfl, rfl⟩

theorem Tracked.arrive (h : s.Tracked m cfg argmax) (promptIds : List Token) (maxTokens : Int) (eos : List Token)
    (clock : Int) : (s.arrive m cfg argmax sid promptIds maxTokens eos clock).Tracked m cfg argmax := by
  unfold HttpApp.arrive
  split
  · exact h
  · rename_i hnew
    simp only [not_or] at hnew
    obtain ⟨-, habsent, hne⟩ := hnew
    have hget : s.tasks.get? sid = none := by
      cases hg : s.tasks.get? sid with
      | none => rfl
      | some task => exact absurd (Dict.contains_iff.2 ⟨task, hg⟩) habsent
    obtain ⟨hsession, hstream, hguard⟩ := h.fresh sid hget
    have hlive : ¬ s.server.store.Live sid := by
      rintro ⟨x, hx⟩
      rw [hsession] at hx
      cases hx
    have hpruned := SessionStore.createSession_pruned h.sound sid eos "" clock clock
    have hcons : Sound { s.server with store :=
        ((SessionStore.createSession (fun _ => none) sid eos "" clock clock).run s.server.store).2 } :=
      (SessionStore.createSession_spec h.sound (fun _ => none) hlive eos "" clock clock).1
    rw [run_callStore]
    refine h.update _ hcons (fun id hid => ⟨?_, rfl, rfl⟩) (fun _ _ _ _ _ _ => rfl) hne ?_ (fun _ => ?_) _
    · rcases hpruned.2 id (fun heq => hid (Option.some.inj heq).symm) with heq | hnone
      · exact Or.inl heq
      · exact Or.inr ⟨trivial, hnone⟩
    · dsimp only
      rcases (SessionStore.createSession (fun _ => none) sid eos "" clock clock).run s.server.store with ⟨e | x, store'⟩
      · trivial
      · exact chat_guarantees x promptIds maxTokens
    · dsimp only
      rcases hrun : (SessionStore.createSession (fun _ => none) sid eos "" clock clock).run s.server.store with ⟨e | x, store'⟩
      · exact Or.inr ⟨trivial, _, rfl⟩
      · obtain ⟨hx, hid, hpos, rfl⟩ := createSession_ok hrun
        refine chat_survives hne ⟨Or.inl hx, hid, ?_, hguard, rfl⟩ hpos
        unfold Server.tokensShown
        dsimp only
        rw [hstream]
        rfl

/-- Steps that change the verifier are barred while others rely on it. -/
theorem Tracked.stepTask (h : s.Tracked m cfg argmax) (hget : s.tasks.get? sid = some task)
    (hexcl : changes task.program = true → ∀ e ∈ s.tasks.entries, e.1 ≠ sid → e.2.fate ≠ .lost →
      relies e.2.program = false) (clock : Int) : (s.stepTask sid clock task).Tracked m cfg argmax := by
  have hguarantees := h.guarantees sid task hget
  have hown := h.onTheWay sid task hget
  unfold HttpApp.stepTask
  cases hprogram : task.program with
  | done r => exact h
  | step k act next =>
    rw [hprogram] at hguarantees
    obtain ⟨hsound, ⟨hapart, hkeep⟩, hnext⟩ := hguarantees clock s.server h.sound
    refine h.update { task with program := next clock s.server } hsound hapart (fun id task' hne hget' hfate hrelies => hkeep ?_) (h.prompted sid task hget) hnext
      (fun hfate => ?_) _
    · -- somebody relies on the verifier, so the step does not change it
      cases hk : k.writes with
      | false => rfl
      | true =>
        have hchanges : changes task.program = true := by
          unfold changes
          rw [hprogram]
          exact hk
        have hfree := hexcl hchanges (id, task') (Dict.mem_entries_iff.2 hget') hne hfate
        rw [hrelies] at hfree
        cases hfree
    · have hsurvives := hown hfate
      rw [hprogram] at hsurvives
      exact hsurvives.step (fun k s => Rely.refl sid k s) clock

variable (sid) in
/-- The cleanup takes at most the session away. -/
theorem cleanUp_apart (h : s.Tracked m cfg argmax) (id : SessionId) :
    Sound (s.cleanUp m cfg argmax sid).server ∧ Apart True id s.server (s.cleanUp m cfg argmax sid).server ∧
      (s.cleanUp m cfg argmax sid).server.verifiers = s.server.verifiers := by
  unfold HttpApp.cleanUp
  rw [run_callStore]
  refine ⟨(SessionStore.closeSession_lowers (fun _ => none) sid s.server.store h.sound).1, ⟨?_, rfl, rfl⟩, rfl⟩
  rcases (SessionStore.closeSession_pruned h.sound sid).2 id (by simp) with heq | hnone
  · exact Or.inl heq
  · exact Or.inr ⟨trivial, hnone⟩

theorem Tracked.cleanUp (h : s.Tracked m cfg argmax) (hget : s.tasks.get? sid = some task) (fate : ChatFate)
    (hfate : fate ≠ .lost → task.fate ≠ .lost) :
    ((s.cleanUp m cfg argmax sid).setTask sid { task with fate := fate }).Tracked m cfg argmax := by
  obtain ⟨hsound, hapart, hverifier⟩ := cleanUp_apart sid h sid
  refine h.update { task with fate := fate } hsound (fun id _ => (cleanUp_apart sid h id).2.1) (fun _ _ _ _ _ _ => hverifier)
    (h.prompted sid task hget) (h.guarantees sid task hget) (fun hlost => ?_) _
  have hown := (h.onTheWay sid task hget).interfere hapart fun _ _ => hverifier
  exact hown (hfate hlost)

theorem Tracked.answer (h : s.Tracked m cfg argmax) (hget : s.tasks.get? sid = some task) :
    (s.answer m cfg argmax sid task).Tracked m cfg argmax := by
  unfold HttpApp.answer
  split
  · rename_i hdone
    exact h.cleanUp hget .answered fun _ => by rw [hdone.1]; simp
  · exact h

theorem Tracked.lose (h : s.Tracked m cfg argmax) (hget : s.tasks.get? sid = some task) (clean : Bool) :
    (s.lose m cfg argmax sid clean task).Tracked m cfg argmax := by
  unfold HttpApp.lose
  split
  · split
    · exact h.cleanUp hget .lost fun hlost => absurd rfl hlost
    · exact h.update { task with fate := .lost } h.sound (fun id _ => Apart.refl id _) (fun _ _ _ _ _ _ => rfl)
        (h.prompted sid task hget) (h.guarantees sid task hget) (fun hlost => absurd rfl hlost) _
  · exact h

theorem step_tracked (h : s.Tracked m cfg argmax) (e : HttpEvent) (he : s.Exclusive e) :
    (s.step m cfg argmax e).2.Tracked m cfg argmax := by
  have hact : ∀ (sid : SessionId) (f : ChatTask κ Λ → HttpApp κ Λ → HttpApp κ Λ),
      (∀ task, s.tasks.get? sid = some task → (f task s).Tracked m cfg argmax) →
      (s.act sid f).Tracked m cfg argmax := by
    intro sid f hf
    unfold HttpApp.act
    cases hget : s.tasks.get? sid with
    | none => exact h
    | some task => exact hf task hget
  cases e with
  | arrive sid promptIds maxTokens eos clock => exact h.arrive promptIds maxTokens eos clock
  | step sid clock => exact hact sid _ fun task hget => h.stepTask hget (he task hget) clock
  | answer sid => exact hact sid _ fun task hget => h.answer hget
  | lose sid clean => exact hact sid _ fun task hget => h.lose hget clean

theorem create_tracked {maxConcurrent : Nat} (h : create maxConcurrent = .ok s) : s.Tracked m cfg argmax := by
  unfold HttpApp.create at h
  split at h
  · cases h
  · rename_i pool hpool
    split at h
    · cases h
    · rename_i store hstore
      cases h
      obtain ⟨hcons, hempty, -⟩ := SessionStore.create_consistent hstore fun p hp =>
        ⟨maxConcurrent, by rw [← Option.some.inj hp]; exact hpool⟩
      refine ⟨hcons, fun sid _ => ⟨?_, rfl, rfl⟩, ?_, ?_, ?_⟩
      · cases hx : store.sessions.get? sid with
        | none => rfl
        | some x => exact absurd ⟨x, hx⟩ (hempty sid)
      all_goals intro sid task hget; simp at hget

variable (sid) in
/-- A new store has room for a session. -/
theorem createSession_new {maxConcurrent : Nat} {pool : SlabPool} {store : SessionStore}
    (hpool : SlabPool.create maxConcurrent = .ok pool)
    (hstore : SessionStore.create maxConcurrent true (some pool) false = .ok store) (eos : List Token) (clock : Int) :
    ∃ x store', (SessionStore.createSession (fun _ => none) sid eos "" clock clock).run store = (.ok x, store') := by
  unfold SlabPool.create at hpool
  unfold SessionStore.create at hstore
  split at hpool
  · cases hpool
  · split at hstore
    · cases hstore
    · rename_i hpos hcap
      cases hpool
      cases hstore
      have hroom : ∀ store : SessionStore, store.sessions.size < store.capacity →
          (SessionStore.makeRoom fun _ => none).run store = (.ok (), store) := by
        intro store hlt
        unfold SessionStore.makeRoom
        rw [Proc.run_get_bind, if_neg (by omega)]
        rfl
      unfold SessionStore.createSession
      rw [Proc.run_bind_ok (hroom _ (by simp; omega))]
      generalize hs : (SessionStore.mk _ _ _ _ _ _) = s
      rcases SessionStore.acquireSlab_cases s with ⟨hp, -⟩ | ⟨p, p', i, -, -, -, -, hrun⟩ | ⟨p, e, hp, hfull, -⟩
      · rw [← hs] at hp
        cases hp
      · rw [Proc.run_bind_ok hrun]
        exact ⟨_, _, rfl⟩
      · rw [← hs] at hp
        cases hp
        simp at hfull
        omega

variable (m cfg argmax) in
/-- A request that runs alone on a new app is answered with its tokens. -/
theorem solo_eq {maxConcurrent : Nat} (h : create maxConcurrent = .ok s) (sid : SessionId) {promptIds : List Token}
    (hne : promptIds ≠ []) (maxTokens : Int) (eos : List Token) (created : Int) (clock : Nat → Int) :
    s.solo m cfg argmax sid promptIds maxTokens eos created clock =
      reply m cfg argmax sid promptIds maxTokens eos := by
  unfold HttpApp.create at h
  split at h
  · cases h
  · rename_i pool hpool
    split at h
    · cases h
    · rename_i store hstore
      cases h
      obtain ⟨x, store', hrun⟩ := createSession_new sid hpool hstore eos created
      obtain ⟨hx, hid, hpos, heos⟩ := createSession_ok hrun
      have hroom : maxConcurrent ≠ 0 := by
        rintro rfl
        simp [SlabPool.create] at hpool
      let program := chat m cfg argmax sid x promptIds maxTokens
      let server : SharedServer κ Λ := { store := store', verifiers := {} }
      have harrive : (HttpApp.arrive m cfg argmax sid promptIds maxTokens eos created
          { value := maxConcurrent, server := { store := store, verifiers := {} } }) =
          { value := maxConcurrent - 1, server := server, tasks := Dict.empty.set sid
              { promptIds := promptIds, maxTokens := maxTokens, eosTokenIds := eos, program := program } } := by
        unfold HttpApp.arrive
        rw [if_neg (by simp [hroom, hne, Dict.contains]), run_callStore, hrun]
        rfl
      have hat : At False sid server.verifiers x [] false server := ⟨Or.inl hx, hid, rfl, rfl, rfl⟩
      have hend : Ends False sid (reply m cfg argmax sid promptIds maxTokens x.eosTokenIds)
          (program.alone clock 0 server).1 (program.alone clock 0 server).2 :=
        (chat_survives hne hat hpos).alone (fun k s => Rely.refl sid k s) clock 0
      rw [heos] at hend
      unfold HttpApp.solo
      rw [harrive]
      dsimp only
      rw [Dict.get?_set_self]
      exact hend.resolve_right fun hraised => hraised.1

/-- In every run whose steps change the verifier only while no other request relies on it, a request that completes has
shown the tokens that it shows when it runs alone on a new app. -/
theorem exclusive_requests_isolated (m : KvModel κ Λ) (cfg : VerifierConfig) (argmax : Λ → Token)
    {maxConcurrent maxConcurrent' : Nat} {s₀ s₁ : HttpApp κ Λ} (h₀ : create maxConcurrent = .ok s₀)
    (h₁ : create maxConcurrent' = .ok s₁) (events : List HttpEvent)
    (hexcl : Machine.AllSteps (step m cfg argmax) Exclusive s₀ events) :
    let s := Machine.final (step m cfg argmax) s₀ events
    ∀ sid task, s.tasks.get? sid = some task → completed task = true →
      ∀ created clock, s.server.tokensShown sid =
        s₁.solo m cfg argmax sid task.promptIds task.maxTokens task.eosTokenIds created clock := by
  intro s sid task hget hcompleted created clock
  have htracked : s.Tracked m cfg argmax :=
    Machine.final_of_steps (C := Exclusive) (I := Tracked m cfg argmax) (fun s e hs he => step_tracked hs e he)
      (create_tracked h₀) hexcl
  unfold completed at hcompleted
  rw [Bool.and_eq_true, decide_eq_true_eq] at hcompleted
  have hend := htracked.onTheWay sid task hget hcompleted.1
  have hshown : s.server.tokensShown sid =
      reply m cfg argmax sid task.promptIds task.maxTokens task.eosTokenIds := by
    cases hprogram : task.program with
    | step k act next =>
      rw [hprogram] at hcompleted
      cases hcompleted.2
    | done r =>
      rw [hprogram] at hend hcompleted
      cases r with
      | error e => cases hcompleted.2
      | ok u =>
        refine hend.resolve_right ?_
        rintro ⟨-, e, he⟩
        cases he
  rw [hshown, solo_eq m cfg argmax h₁ sid (htracked.prompted sid task hget)]

/-- A model whose logits add up what is in the cache, and whose token is what they say. -/
def adder : KvModel Token Token where
  entry t _ _ := t
  logits t _ cache := cache.foldl (· + ·) t

/-- A verifier with room for four tokens. -/
def smallConfig : VerifierConfig := ⟨1, 3, 1, pos_three, Nat.one_pos⟩

/-- A request makes so many steps. -/
def steps (sid : SessionId) (n : Nat) : List HttpEvent := List.replicate n (.step sid 0)

/-- Two requests one after the other. -/
def inTurn : List HttpEvent :=
  [.arrive "a" [1] 2 [] 0] ++ steps "a" 26 ++ [.answer "a", .arrive "b" [5] 2 [] 0] ++ steps "b" 26 ++ [.answer "b"]

/-- The second request runs on a verifier that the first has left behind. -/
theorem sequential_requests_isolated :
    ∃ s₀ : HttpApp Token Token, create 1 = .ok s₀ ∧ Machine.AllSteps (step adder smallConfig id) Exclusive s₀ inTurn ∧
      (Machine.final (step adder smallConfig id) s₀ inTurn).server.tokensShown "b" =
        s₀.solo adder smallConfig id "b" [5] 2 [] 0 (fun _ => 0) := by
  refine ⟨_, rfl, by decide +kernel, ?_⟩
  generalize hs : Machine.final (step adder smallConfig id) _ inTurn = s
  have hany : (s.tasks.get? "b").any (fun task => completed task &&
      decide (task.promptIds = [5] ∧ task.maxTokens = 2 ∧ task.eosTokenIds = [])) = true := by
    rw [← hs]
    decide +kernel
  obtain ⟨task, hget, htask⟩ := (Option.any_eq_true _ _).1 hany
  rw [Bool.and_eq_true, decide_eq_true_eq] at htask
  obtain ⟨hcompleted, hprompt, hmax, heos⟩ := htask
  subst hs
  have hrun := exclusive_requests_isolated adder smallConfig id (rfl : create 1 = .ok _) (rfl : create 1 = .ok _) inTurn
    (by decide +kernel) "b" task hget hcompleted 0 (fun _ => 0)
  rw [hprompt, hmax, heos] at hrun
  exact hrun

/-- The second request is prefilled while the first generates. -/
def overlapping : List HttpEvent :=
  [.arrive "b" [5] 2 [] 0] ++ steps "b" 4 ++ [.arrive "a" [1] 2 [] 0] ++ steps "a" 4 ++ steps "b" 22 ++ [.answer "b"]

/-- The client of the first request is lost while its thread has chosen a token and not yet forwarded it. -/
def orphaned : List HttpEvent :=
  [.arrive "a" [1] 2 [] 0] ++ steps "a" 9 ++ [.lose "a" true, .arrive "b" [5] 2 [] 0] ++ steps "b" 4 ++ steps "a" 6 ++
    steps "b" 22 ++ [.answer "b"]

/-- With two permits a request is answered with the tokens of another; with one permit the thread of a request whose client
was lost spoils the cache of the next. -/
theorem shared_verifier_mixes :
    ∃ s₀ s₁ : HttpApp Token Token, create 2 = .ok s₀ ∧ create 1 = .ok s₁ ∧
      ((Machine.final (step adder smallConfig id) s₀ overlapping).tasks.get? "b").any completed = true ∧
      (Machine.final (step adder smallConfig id) s₀ overlapping).server.tokensShown "b" = [1, 2] ∧
      ((Machine.final (step adder smallConfig id) s₁ orphaned).tasks.get? "b").any completed = true ∧
      (Machine.final (step adder smallConfig id) s₁ orphaned).server.tokensShown "b" = [6, 12] ∧
      s₁.solo adder smallConfig id "b" [5] 2 [] 0 (fun _ => 0) = [5, 10] := by
  exact ⟨_, _, rfl, rfl, by decide +kernel, by decide +kernel, by decide +kernel, by decide +kernel, by decide +kernel⟩

end HttpApp

end KakeyaEngine
