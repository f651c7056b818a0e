import KakeyaEngine.Session.Backends
import KakeyaEngine.Verifier.Continuation

/-!
# The same history in other pieces

A session is given its history by any number of `AppendTokens` calls and then generates.  `Serving` says what the server
holds for the session between two operations; there is one lemma for each step of a coordinator.  An `AppendTokens` call
leaves the verifier as `SinkWindowVerifier.absorb` says, and the tokens that `Generate` shows are a function of the
verifier.  So two ways of cutting the history end alike exactly when the verifier cannot tell the cuts.
-/

namespace KakeyaEngine

open SinkWindowVerifier (absorb absorbAll Standing)

variable {κ Λ : Type}

/-- `SinkWindowVerifier` as the verifier of the registry. -/
def SinkWindowVerifier.localVerifier (m : KvModel κ Λ) (cfg : VerifierConfig) (argmax : Λ → Token) :
    LocalVerifier (SinkWindowVerifier κ Λ) VerifierError where
  fresh := {}
  prefill := prefill m cfg
  append := appendBlock m cfg
  greedyNextTokenId := do
    let v ← Proc.get
    match v.nextTokenLogits with
    | none => Proc.raise (.typeError "argmax(): argument 'input' must be Tensor, not NoneType")
    | some row => pure (argmax row)
  cachedTokenSequence v := v.cachedTokenSequence
  nextGlobalPosition v := v.nextGlobalPosition
  kSeqLength v := v.cacheSeqLength

namespace Server

/-- A server whose verifiers are of this kind. -/
abbrev ModelServer (κ Λ : Type) : Type := Server (VerifierRegistry (SinkWindowVerifier κ Λ)) VerifierError

/-- No client cancels. -/
def Uncancelled (i : Moment) : Prop := i.cancelled = false

/-- The token of an observation. -/
def tokenOf {ε : Type} : Observation ε → Option Token
  | .event (.token t) => some t
  | _ => none

/-- The tokens that a client has seen. -/
def tokensShown {β ε : Type} (s : Server β ε) (sid : SessionId) : List Token :=
  ((s.streams.get? sid).getD []).filterMap tokenOf

/-- What the server holds for a session: its record `x`, the verifier `v` as object `n`, the tokens shown so far and the
guards. -/
structure Serving (s : ModelServer κ Λ) (sid : SessionId) (n : Nat) (v : SinkWindowVerifier κ Λ) (x : Session)
    (shown : List Token) (guards : List SessionId) : Prop where
  session : s.store.sessions.get? sid = some x
  id : x.sessionId = sid
  registered : s.verifiers.verifiers.get? sid = some n
  object : s.verifiers.objects sid n = v
  shown : s.tokensShown sid = shown
  guards : s.generating = guards

variable {m : KvModel κ Λ} {cfg : VerifierConfig} {argmax : Λ → Token} {s : ModelServer κ Λ} {sid : SessionId} {n : Nat}
  {v : SinkWindowVerifier κ Λ} {x : Session} {shown : List Token} {guards : List SessionId}

/-- The verifiers of the server. -/
abbrev verifiersOf (m : KvModel κ Λ) (cfg : VerifierConfig) (argmax : Λ → Token) :
    Verifiers (VerifierRegistry (SinkWindowVerifier κ Λ)) Nat VerifierError :=
  VerifierRegistry.backend (SinkWindowVerifier.localVerifier m cfg argmax)

/-! ### The steps -/

theorem run_checkCancelled {β ε : Type} {s : Server β ε} {i : Moment} (hi : Uncancelled i) (message : String) :
    (checkCancelled message i).run s = (.ok (), s) := by
  unfold checkCancelled
  rw [if_neg (by rw [hi]; simp)]
  rfl

/-- The store refuses a negative token, and nothing has changed. -/
theorem run_storeAppend_negative {β η ε : Type} (vs : Verifiers β η ε) {s : Server β ε}
    (hx : s.store.sessions.get? sid = some x) {ts : List Token} {t : Token}
    (ht : (ts.find? fun t => decide (t < 0)) = some t) (clock : Int) :
    (storeAppend vs sid ts clock).run s =
      (.error (.store (.valueError ("token_id must be a non-negative int, got " ++ toString t))), s) := by
  have hinspect : (inspect vs sid ts).run s = (.ok 0, s) := by
    have hrun : (inspect vs sid ts).run s =
        if asksInspector s.store sid ts then
          (.ok (vs.kSeqLength sid s.verifiers).1, { s with verifiers := (vs.kSeqLength sid s.verifiers).2 })
        else (.ok 0, s) := rfl
    rw [hrun, if_neg (by simp [asksInspector, ht])]
  have hraise := SessionStore.run_appendTokens_negative (fun _ => none) hx ht clock (.ok 0)
  unfold storeAppend
  rw [Proc.run_bind_ok hinspect]
  have hcall : (callStore vs (SessionStore.appendTokens (fun _ => none) sid ts clock (.ok 0))).run s =
      (((SessionStore.appendTokens (fun _ => none) sid ts clock (.ok 0)).run s.store).1.mapError .store, { s with
        store := ((SessionStore.appendTokens (fun _ => none) sid ts clock (.ok 0)).run s.store).2,
        verifiers := ((((SessionStore.appendTokens (fun _ => none) sid ts clock (.ok 0)).run s.store).2.notified.drop
          s.store.notified.length).map Prod.fst).foldl (fun b sid => vs.remove sid b) s.verifiers }) := rfl
  rw [hcall, hraise, List.drop_length]
  rfl

namespace Serving

theorem resolve (h : s.Serving sid n v x shown guards) :
    (Server.resolve (verifiersOf m cfg argmax) sid).run s = (.ok n, s) := by
  have hget : VerifierRegistry.get sid s.verifiers = (n, s.verifiers) := by
    unfold VerifierRegistry.get
    rw [h.registered]
  have hrun : (Server.resolve (verifiersOf m cfg argmax) sid).run s =
      (.ok (VerifierRegistry.get sid s.verifiers).1,
        { s with verifiers := (VerifierRegistry.get sid s.verifiers).2 }) := rfl
  rw [hrun, hget]

/-- A verifier's call changes its object and nothing else. -/
theorem onObject (h : s.Serving sid n v x shown guards) {α : Type}
    {y : Proc (SinkWindowVerifier κ Λ) VerifierError α} {a : α} {v' : SinkWindowVerifier κ Λ}
    (hy : y.run v = (.ok a, v')) :
    (VerifierRegistry.onObject sid n y).run s.verifiers =
        (.ok a, { s.verifiers with
          objects := Function.update s.verifiers.objects sid (Function.update (s.verifiers.objects sid) n v') }) ∧
      Serving { s with verifiers := { s.verifiers with
        objects := Function.update s.verifiers.objects sid (Function.update (s.verifiers.objects sid) n v') } }
        sid n v' x shown guards := by
  refine ⟨?_, h.session, h.id, h.registered, by simp, h.shown, h.guards⟩
  unfold VerifierRegistry.onObject
  rw [Proc.run_focus_ok (by rw [h.object]; exact hy)]

theorem callVerifier (h : s.Serving sid n v x shown guards) {α : Type}
    {y : Proc (SinkWindowVerifier κ Λ) VerifierError α} {a : α} {v' : SinkWindowVerifier κ Λ}
    (hy : y.run v = (.ok a, v')) :
    ∃ s', (Server.callVerifier (VerifierRegistry.onObject sid n y)).run s = (.ok a, s') ∧
      Serving s' sid n v' x shown guards := by
  obtain ⟨hrun, hserve⟩ := h.onObject hy
  refine ⟨_, ?_, hserve⟩
  unfold Server.callVerifier
  rw [Proc.run_focus_ok hrun]

variable (m cfg argmax) in
theorem mirror (h : s.Serving sid n v x shown guards) :
    ∃ s', (Server.mirror (verifiersOf m cfg argmax) sid n).run s = (.ok (), s') ∧
      Serving s' sid n v { x with cachedTokenSequence := v.cachedTokenSequence } shown guards := by
  have hcached : (verifiersOf m cfg argmax).cachedTokenSequence sid n s.verifiers = v.cachedTokenSequence :=
    congrArg SinkWindowVerifier.cachedTokenSequence h.object
  have hrun := run_mirror (verifiersOf m cfg argmax) n h.session
  rw [hcached] at hrun
  refine ⟨_, hrun, ?_, h.id, h.registered, h.object, h.shown, h.guards⟩
  simp [SessionStore.write, h.id]

variable (m cfg argmax) in
theorem storeAppend (h : s.Serving sid n v x shown guards) (hv : v.Standing)
    (hx : x.cachedTokenSequence = v.cachedTokenSequence) {ts : List Token} (hts : ∀ t ∈ ts, 0 ≤ t) (clock : Int) :
    ∃ s', (Server.storeAppend (verifiersOf m cfg argmax) sid ts clock).run s =
        (.ok (x.historyTokenIds ++ ts).length, s') ∧
      Serving s' sid n v { x with historyTokenIds := x.historyTokenIds ++ ts, lastActiveAt := clock } shown guards := by
  have hnone : (ts.find? fun t => decide (t < 0)) = none := by
    rw [List.find?_eq_none]
    intro t ht
    simpa using hts t ht
  have hget : VerifierRegistry.get sid s.verifiers = (n, s.verifiers) := by
    unfold VerifierRegistry.get
    rw [h.registered]
  -- the inspector reports as many entries as the session has tokens
  have hlen : v.cacheSeqLength = x.cachedTokenSequence.length := by
    obtain ⟨entries, tokens, pos, logits, hl, rfl⟩ := hv
    rw [hx]
    exact hl.symm
  have hask : ∃ k, (Server.inspect (verifiersOf m cfg argmax) sid ts).run s = (.ok k, s) ∧
      (s.store.hasInspector = true → k = x.cachedTokenSequence.length) := by
    have hrun : (Server.inspect (verifiersOf m cfg argmax) sid ts).run s =
        if asksInspector s.store sid ts then
          (.ok (((verifiersOf m cfg argmax).kSeqLength sid s.verifiers).1),
            { s with verifiers := ((verifiersOf m cfg argmax).kSeqLength sid s.verifiers).2 })
        else (.ok 0, s) := rfl
    have hk : (verifiersOf m cfg argmax).kSeqLength sid s.verifiers = ((v.cacheSeqLength : Int), s.verifiers) := by
      have hdef : (verifiersOf m cfg argmax).kSeqLength sid s.verifiers =
          ((((VerifierRegistry.get sid s.verifiers).2.objects sid
            (VerifierRegistry.get sid s.verifiers).1).cacheSeqLength : Int),
            (VerifierRegistry.get sid s.verifiers).2) := rfl
      rw [hdef, hget, h.object]
    rw [hrun, hk]
    by_cases ha : asksInspector s.store sid ts = true
    · rw [if_pos ha]
      exact ⟨_, rfl, fun _ => by omega⟩
    · rw [if_neg ha]
      refine ⟨0, rfl, fun hi => ?_⟩
      exact absurd (by simp [asksInspector, hi, hnone, h.session]) ha
  obtain ⟨k, hinspect, hk⟩ := hask
  unfold Server.storeAppend
  rw [Proc.run_bind_ok hinspect]
  refine ⟨_, run_callStore_ok (s.store.write
    { x with historyTokenIds := x.historyTokenIds ++ ts, lastActiveAt := clock }) ?_ rfl, ?_⟩
  · exact SessionStore.run_appendTokens _ h.session hts clock hk
  · refine ⟨?_, h.id, h.registered, h.object, h.shown, h.guards⟩
    simp [SessionStore.write, h.id]

variable (m cfg argmax) in
theorem recordPosition (h : s.Serving sid n v x shown guards) (hpos : x.nextGlobalPosition ≤ v.nextGlobalPosition)
    (clock : Int) :
    ∃ s', (Server.recordPosition (verifiersOf m cfg argmax) sid n clock).run s = (.ok (), s') ∧
      Serving s' sid n v { x with nextGlobalPosition := v.nextGlobalPosition, lastActiveAt := clock } shown guards := by
  have hposition : (verifiersOf m cfg argmax).nextGlobalPosition sid n s.verifiers = (v.nextGlobalPosition : Int) :=
    congrArg (fun w : SinkWindowVerifier κ Λ => (w.nextGlobalPosition : Int)) h.object
  unfold Server.recordPosition
  rw [Proc.run_get_bind, hposition]
  refine ⟨_, run_callStore_ok (s.store.write
    { x with nextGlobalPosition := v.nextGlobalPosition, lastActiveAt := clock }) ?_ rfl, ?_⟩
  · exact SessionStore.run_recordPositionAdvance _ h.session hpos clock
  · refine ⟨?_, h.id, h.registered, h.object, h.shown, h.guards⟩
    simp [SessionStore.write, h.id]

end Serving

/-! ### `AppendTokens` -/

variable (m cfg argmax) in
/-- A resolve finds the verifier of the session or makes one. -/
theorem resolve_serving (hx : s.store.sessions.get? sid = some x) (hid : x.sessionId = sid) :
    ∃ n v s', (resolve (verifiersOf m cfg argmax) sid).run s = (.ok n, s') ∧
      Serving s' sid n v x (s.tokensShown sid) s.generating := by
  have hrun : (resolve (verifiersOf m cfg argmax) sid).run s =
      (.ok (VerifierRegistry.get sid s.verifiers).1,
        { s with verifiers := (VerifierRegistry.get sid s.verifiers).2 }) := rfl
  refine ⟨_, _, _, hrun, hx, hid, ?_, rfl, rfl, rfl⟩
  unfold VerifierRegistry.get
  split
  · rename_i hn
    exact hn
  · simp

/-- The verifier after more tokens: the first ones are a prefill. -/
def driven (m : KvModel κ Λ) (cfg : VerifierConfig) (x : Session) (v : SinkWindowVerifier κ Λ) (ts : List Token) :
    SinkWindowVerifier κ Λ :=
  if x.nextGlobalPosition = 0 then absorb m cfg .empty ts else absorb m cfg v ts

theorem driven_standing (h : x.nextGlobalPosition = 0 ∨ v.Standing) (ts : List Token) :
    (driven m cfg x v ts).Standing := by
  unfold driven
  split
  · exact SinkWindowVerifier.absorb_standing m cfg SinkWindowVerifier.empty_standing ts
  · rename_i hpos
    rcases h with h | h
    · exact absurd h hpos
    · exact SinkWindowVerifier.absorb_standing m cfg h ts

variable (m cfg argmax) in
theorem drive_yields (h : s.Serving sid n v x shown guards) (hv : x.nextGlobalPosition = 0 ∨ v.Standing)
    {ts : List Token} (hts : ts ≠ []) :
    (drive (verifiersOf m cfg argmax) sid x n ts).Yields Uncancelled
      (fun r s' => r = .ok () ∧ Serving s' sid n (driven m cfg x v ts) x shown guards) s := by
  unfold drive driven
  by_cases hpos : x.nextGlobalPosition = 0
  · simp only [hpos, ↓reduceIte]
    refine Prog.Yields.focus_atomic ?_
    intro i _
    obtain ⟨hrun, hserve⟩ := h.onObject (SinkWindowVerifier.prefill_absorb m cfg hts v)
    have heq : (VerifierRegistry.onObject sid n ((SinkWindowVerifier.localVerifier m cfg argmax).prefill ts)).run
        s.verifiers = _ := hrun
    rw [heq]
    exact ⟨rfl, hserve⟩
  · simp only [hpos, ↓reduceIte]
    have hstand : v.Standing := by
      rcases hv with hv | hv
      · exact absurd hv hpos
      · exact hv
    refine Prog.Yields.atomic ?_
    intro i _
    obtain ⟨s', hrun, hserve⟩ := h.callVerifier (SinkWindowVerifier.appendBlock_absorb m cfg hstand hts)
    have heq : (Server.callVerifier ((verifiersOf m cfg argmax).append sid n ts i)).run s = _ := hrun
    rw [heq]
    exact ⟨rfl, hserve⟩

/-- Between two operations: the verifier of the session is `v`, at the position of the session's record. -/
structure Kept (s : ModelServer κ Λ) (sid : SessionId) (v : SinkWindowVerifier κ Λ) (eos : List Token)
    (shown : List Token) (guards : List SessionId) : Prop where
  standing : v.Standing
  ready : ∃ row, v.nextTokenLogits = some row
  position : 0 < v.nextGlobalPosition
  serving : ∃ n x, s.Serving sid n v x shown guards ∧ x.nextGlobalPosition = v.nextGlobalPosition ∧ x.eosTokenIds = eos

theorem absorb_ready (v : SinkWindowVerifier κ Λ) {ts : List Token} (hne : ts ≠ []) :
    ∃ row, (absorb m cfg v ts).nextTokenLogits = some row := by
  have hrow : (m.forward v.nextGlobalPosition (v.cache.getD []) ts).2 ≠ [] := by
    intro h
    have := congrArg List.length h
    rw [KvModel.length_logits, List.length_nil] at this
    exact hne (List.eq_nil_of_length_eq_zero this)
  exact ⟨_, List.getLast?_eq_some_getLast hrow⟩

variable (m cfg argmax) in
theorem appendTokens_yields (hx : s.store.sessions.get? sid = some x) (hid : x.sessionId = sid)
    (hv : x.nextGlobalPosition = 0 ∨
      ∃ n, s.Serving sid n v x (s.tokensShown sid) s.generating ∧ v.Standing ∧ x.nextGlobalPosition = v.nextGlobalPosition)
    {ts : List Token} (hne : ts ≠ []) (hts : ∀ t ∈ ts, 0 ≤ t) :
    (appendTokens (verifiersOf m cfg argmax) sid ts).Yields Uncancelled
      (fun r s' => r = .ok (x.historyTokenIds ++ ts).length ∧
        Kept s' sid (driven m cfg x v ts) x.eosTokenIds (s.tokensShown sid) s.generating) s := by
  unfold appendTokens
  refine Prog.Yields.next fun i hi => ⟨(), s, run_checkCancelled hi _, ?_⟩
  refine Prog.Yields.next fun i hi => ⟨x, s, run_lookup hx, ?_⟩
  refine Prog.Yields.next fun i hi => ?_
  -- the verifier that is resolved is the one of the session, or any if the session is new
  have hres : ∃ n w s', (resolve (verifiersOf m cfg argmax) sid).run s = (.ok n, s') ∧
      Serving s' sid n w x (s.tokensShown sid) s.generating ∧ (x.nextGlobalPosition = 0 ∨ w.Standing) ∧
      driven m cfg x w ts = driven m cfg x v ts ∧ x.nextGlobalPosition ≤ (driven m cfg x v ts).nextGlobalPosition := by
    rcases hv with h0 | ⟨n, hserve, hstand, hpos⟩
    · obtain ⟨n, w, s', hrun, hserve⟩ := resolve_serving m cfg argmax hx hid
      refine ⟨n, w, s', hrun, hserve, Or.inl h0, by simp [driven, h0], ?_⟩
      rw [h0]
      omega
    · refine ⟨n, v, s, hserve.resolve, hserve, Or.inr hstand, rfl, ?_⟩
      unfold driven
      split
      · rename_i h0
        rw [h0]
        omega
      · rw [hpos]
        simp only [absorb, SinkWindowVerifier.held]
        omega
  obtain ⟨n, w, s', hrun, hserve, hw, hsame, hpos⟩ := hres
  refine ⟨n, s', hrun, ?_⟩
  rw [if_neg hne]
  refine Prog.Yields.bind ((drive_yields m cfg argmax hserve hw hne).mono ?_)
  rintro _ s₁ ⟨rfl, hs₁⟩
  rw [hsame] at hs₁
  have hstand : (driven m cfg x v ts).Standing := hsame ▸ driven_standing hw ts
  refine Prog.Yields.next fun i hi => ⟨(), s₁, run_checkCancelled hi _, ?_⟩
  refine Prog.Yields.next fun i hi => ?_
  obtain ⟨s₂, hrun₂, hs₂⟩ := hs₁.mirror m cfg argmax
  refine ⟨(), s₂, hrun₂, ?_⟩
  refine Prog.Yields.next fun i hi => ?_
  obtain ⟨s₃, hrun₃, hs₃⟩ := hs₂.storeAppend m cfg argmax hstand rfl hts i.clock
  refine ⟨_, s₃, hrun₃, ?_⟩
  refine Prog.Yields.next fun i hi => ?_
  obtain ⟨s₄, hrun₄, hs₄⟩ := hs₃.recordPosition m cfg argmax hpos i.clock
  refine ⟨(), s₄, hrun₄, rfl, hstand, ?_, ?_, ⟨n, _, hs₄, rfl, rfl⟩⟩
  · unfold driven
    split
    · exact absorb_ready _ hne
    · exact absorb_ready _ hne
  · have hlen := List.length_pos_of_ne_nil hne
    unfold driven
    split <;> simp only [absorb, SinkWindowVerifier.held] <;> omega

/-- The calls of a session one after the other; the `k`-th call reads the `k`-th list of inputs. -/
def appendAll {β η ε : Type} (vs : Verifiers β η ε) (sid : SessionId) (inputs : Nat → Nat → Moment) :
    Nat → List (List Token) → Server β ε → Server β ε
  | _, [], s => s
  | k, ts :: calls, s => appendAll vs sid inputs (k + 1) calls ((appendTokens vs sid ts).alone (inputs k) 0 s).2

theorem appendAll_kept {inputs : Nat → Nat → Moment} (hin : ∀ k i, Uncancelled (inputs k i)) {eos : List Token}
    {calls : List (List Token)} (hne : ∀ ts ∈ calls, ts ≠ []) (hts : ∀ t ∈ calls.flatten, 0 ≤ t) (k : Nat)
    (h : s.Kept sid v eos shown guards) :
    (appendAll (verifiersOf m cfg argmax) sid inputs k calls s).Kept sid (absorbAll m cfg v calls) eos shown guards := by
  induction calls generalizing k s v with
  | nil => exact h
  | cons ts calls ih =>
    obtain ⟨hstand, -, hpos, n, x, hserve, hat, heos⟩ := h
    have hrun := (appendTokens_yields m cfg argmax (v := v) hserve.session hserve.id
      (Or.inr ⟨n, by rw [hserve.shown, hserve.guards]; exact hserve, hstand, hat⟩) (hne ts (by simp))
      (fun t ht => hts t (by simp [ht]))).alone (hin k) 0
    have hdriven : driven m cfg x v ts = absorb m cfg v ts := by
      unfold driven
      rw [if_neg (by omega)]
    have hkept := hrun.2
    rw [hdriven, heos, hserve.shown, hserve.guards] at hkept
    exact ih (fun u hu => hne u (by simp [hu])) (fun t ht => hts t (by simp [ht])) (k + 1) hkept

/-- A session that has not been given a token. -/
structure Opened (s : ModelServer κ Λ) (sid : SessionId) (x : Session) : Prop where
  session : s.store.sessions.get? sid = some x
  id : x.sessionId = sid
  position : x.nextGlobalPosition = 0

variable (m cfg argmax) in
theorem appendAll_opened {inputs : Nat → Nat → Moment} (hin : ∀ k i, Uncancelled (inputs k i))
    {calls : List (List Token)} (hcalls : calls ≠ []) (hne : ∀ ts ∈ calls, ts ≠ []) (hts : ∀ t ∈ calls.flatten, 0 ≤ t)
    (h : s.Opened sid x) :
    (appendAll (verifiersOf m cfg argmax) sid inputs 0 calls s).Kept sid (absorbAll m cfg .empty calls) x.eosTokenIds
      (s.tokensShown sid) s.generating := by
  cases calls with
  | nil => exact absurd rfl hcalls
  | cons ts calls =>
    have hrun := (appendTokens_yields m cfg argmax (v := .empty) h.session h.id
      (Or.inl h.position) (hne ts (by simp)) (fun t ht => hts t (by simp [ht]))).alone (hin 0) 0
    have hdriven : driven m cfg x .empty ts = absorb m cfg .empty ts := by
      unfold driven
      rw [if_pos h.position]
    have hkept := hrun.2
    rw [hdriven] at hkept
    exact appendAll_kept hin (fun u hu => hne u (by simp [hu])) (fun t ht => hts t (by simp [ht])) 1 hkept

/-! ### `Generate` -/

/-- The tokens that `Generate` shows, from the verifier of the session. -/
def spoken (m : KvModel κ Λ) (cfg : VerifierConfig) (argmax : Λ → Token) (eos : List Token) :
    Nat → SinkWindowVerifier κ Λ → List Token
  | 0, _ => []
  | k + 1, v =>
    match v.nextTokenLogits with
    | none => []
    | some row =>
      -- the store refuses a negative token before it is shown
      if argmax row < 0 then []
      else argmax row :: if argmax row ∈ eos then [] else spoken m cfg argmax eos k (absorb m cfg v [argmax row])

theorem Serving.reveal (h : s.Serving sid n v x shown guards) (o : Observation VerifierError) :
    ∃ s', (Server.reveal sid o).run s = (.ok (), s') ∧ Serving s' sid n v x (shown ++ (tokenOf o).toList) guards := by
  refine ⟨_, rfl, h.session, h.id, h.registered, h.object, ?_, h.guards⟩
  have hshown := h.shown
  unfold tokensShown at hshown ⊢
  simp only [Dict.get?_set_self, Option.getD_some, List.filterMap_append, hshown]
  cases hto : tokenOf o with
  | none => simp [hto]
  | some t => simp [hto]

theorem yieldEvent_yields (h : s.Serving sid n v x shown guards) (event : Int → GenerateEvent)
    (hquiet : ∀ now, tokenOf (.event (event now) : Observation VerifierError) = none)
    {Q : Except (OperationError VerifierError) Unit → ModelServer κ Λ → Prop}
    (hQ : ∀ s', Serving s' sid n v x shown guards → Q (.ok ()) s') :
    (yieldEvent sid event).Yields Uncancelled Q s := by
  refine Prog.Yields.atomic ?_
  intro i _
  obtain ⟨s', hrun, hs'⟩ := h.reveal (.event (event i.clock))
  rw [hquiet, Option.toList_none, List.append_nil] at hs'
  rw [hrun]
  exact hQ s' hs'

theorem generateLoop_yields {eos : List Token} {t0 : Int} (k count : Nat) (h : s.Serving sid n v x shown guards)
    (hv : v.Standing) (hpos : x.nextGlobalPosition = v.nextGlobalPosition) (hready : ∃ row, v.nextTokenLogits = some row) :
    (generateLoop (verifiersOf m cfg argmax) sid n eos t0 k count).Yields Uncancelled
      (fun _ s' => s'.tokensShown sid = shown ++ spoken m cfg argmax eos k v) s := by
  induction k generalizing s v x shown count with
  | zero =>
    unfold generateLoop spoken yieldDone
    refine yieldEvent_yields h _ (fun _ => rfl) fun s' hs' => ?_
    rw [hs'.shown, List.append_nil]
  | succ k ih =>
    obtain ⟨row, hrow⟩ := hready
    unfold generateLoop spoken
    simp only [hrow]
    refine Prog.Yields.next fun i hi => ⟨false, s, by rw [show i.cancelled = false from hi]; rfl, ?_⟩
    rw [if_neg (show ¬ false = true by simp)]
    -- the verifier chooses a token and appends it
    refine Prog.Yields.next fun i hi => ?_
    have hstep : (do
        let t ← (SinkWindowVerifier.localVerifier m cfg argmax).greedyNextTokenId
        (SinkWindowVerifier.localVerifier m cfg argmax).append [t]
        pure t : Proc (SinkWindowVerifier κ Λ) VerifierError Token).run v =
        (.ok (argmax row), absorb m cfg v [argmax row]) := by
      have hchoose : (SinkWindowVerifier.localVerifier m cfg argmax).greedyNextTokenId.run v = (.ok (argmax row), v) := by
        simp only [SinkWindowVerifier.localVerifier]
        rw [Proc.run_get_bind, hrow]
        rfl
      rw [Proc.run_bind_ok hchoose]
      exact Proc.run_bind_ok (SinkWindowVerifier.appendBlock_absorb m cfg hv (by simp))
    obtain ⟨s₁, hrun₁, hs₁⟩ := h.callVerifier hstep
    refine ⟨argmax row, s₁, hrun₁, ?_⟩
    have hstand := SinkWindowVerifier.absorb_standing m cfg hv [argmax row]
    refine Prog.Yields.next fun i hi => ?_
    obtain ⟨s₂, hrun₂, hs₂⟩ := hs₁.mirror m cfg argmax
    refine ⟨(), s₂, hrun₂, ?_⟩
    by_cases hneg : argmax row < 0
    · rw [if_pos hneg, List.append_nil]
      refine Prog.Yields.bind (Prog.Yields.atomic fun i hi => ?_)
      have hfind : ([argmax row].find? fun t => decide (t < 0)) = some (argmax row) := by simp [hneg]
      rw [run_storeAppend_negative (verifiersOf m cfg argmax) hs₂.session hfind i.clock]
      exact hs₂.shown
    · rw [if_neg hneg]
      have hnonneg : ∀ t ∈ [argmax row], 0 ≤ t := by
        intro t ht
        rw [List.mem_singleton.1 ht]
        exact Int.not_lt.1 hneg
      refine Prog.Yields.next fun i hi => ?_
      obtain ⟨s₃, hrun₃, hs₃⟩ := hs₂.storeAppend m cfg argmax hstand rfl hnonneg i.clock
      refine ⟨_, s₃, hrun₃, ?_⟩
      refine Prog.Yields.next fun i hi => ?_
      obtain ⟨s₄, hrun₄, hs₄⟩ := hs₃.recordPosition m cfg argmax (by
        show x.nextGlobalPosition ≤ _
        rw [hpos]
        simp only [absorb, SinkWindowVerifier.held]
        omega) i.clock
      refine ⟨(), s₄, hrun₄, ?_⟩
      refine Prog.Yields.next fun i hi => ?_
      obtain ⟨s₅, hrun₅, hs₅⟩ := hs₄.reveal (.event (.token (argmax row)))
      refine ⟨(), s₅, hrun₅, ?_⟩
      have hshown : shown ++ (tokenOf (.event (.token (argmax row)) : Observation VerifierError)).toList =
          shown ++ [argmax row] := rfl
      rw [hshown] at hs₅
      by_cases hmem : argmax row ∈ eos
      · rw [if_pos hmem, if_pos hmem]
        refine yieldEvent_yields hs₅ _ (fun _ => rfl) fun s' hs' => hs'.shown
      · rw [if_neg hmem, if_neg hmem]
        have hnext := ih (count + 1) hs₅ hstand rfl (absorb_ready v (by simp))
        rw [List.append_assoc] at hnext
        exact hnext

/-- What `Generate` shows of a session that can generate: nothing when the guard or the arguments stop it. -/
def heard (m : KvModel κ Λ) (cfg : VerifierConfig) (argmax : Λ → Token) (eos : List Token) (guards : List SessionId)
    (sid : SessionId) (maxTokens : Int) (sampling : Sampling) (v : SinkWindowVerifier κ Λ) : List Token :=
  if guards.contains sid then []
  else
    match (checkArguments maxTokens sampling : Except (OperationError VerifierError) Unit) with
    | .error _ => []
    | .ok _ => spoken m cfg argmax eos maxTokens.toNat v

theorem generateEvents_yields {eos : List Token} (h : s.Kept sid v eos shown guards) (maxTokens : Int)
    (sampling : Sampling) :
    (generateEvents (verifiersOf m cfg argmax) sid maxTokens sampling).Yields Uncancelled
      (fun _ s' => s'.tokensShown sid = shown ++
        match (checkArguments maxTokens sampling : Except (OperationError VerifierError) Unit) with
        | .error _ => []
        | .ok _ => spoken m cfg argmax eos maxTokens.toNat v) s := by
  obtain ⟨hstand, hready, hpos, n, x, hserve, hat, rfl⟩ := h
  unfold generateEvents
  cases hargs : (checkArguments maxTokens sampling : Except (OperationError VerifierError) Unit) with
  | error e =>
    refine Prog.Yields.bind (Prog.Yields.atomic fun i hi => ?_)
    rw [show (Proc.ofExcept (.error e) : ServerProc _ _ Unit).run s = (.error e, s) from rfl]
    dsimp only
    rw [hserve.shown, List.append_nil]
  | ok u =>
    refine Prog.Yields.next fun i hi => ⟨u, s, rfl, ?_⟩
    refine Prog.Yields.next fun i hi => ⟨x, s, run_lookup hserve.session, ?_⟩
    refine Prog.Yields.next fun i hi => ⟨n, s, hserve.resolve, ?_⟩
    rw [if_neg (by omega)]
    have hloop : ∀ s', Serving s' sid n v x shown guards →
        ((Prog.atomic .other fun m => pure m.clock) >>= fun t0 =>
          generateLoop (verifiersOf m cfg argmax) sid n x.eosTokenIds t0 maxTokens.toNat 0).Yields Uncancelled
          (fun _ s'' => s''.tokensShown sid = shown ++ spoken m cfg argmax x.eosTokenIds maxTokens.toNat v) s' :=
      fun s' hs' => Prog.Yields.next fun i hi => ⟨i.clock, s', rfl, generateLoop_yields _ _ hs' hstand hat hready⟩
    refine Prog.Yields.bind ?_
    unfold yieldTruncated
    by_cases hlt : x.cachedTokenSequence.length < x.historyTokenIds.length
    · rw [if_pos hlt]
      refine yieldEvent_yields hserve _ (fun _ => rfl) ?_
      exact hloop
    · rw [if_neg hlt]
      exact hloop s hserve

theorem generate_yields {eos : List Token} (h : s.Kept sid v eos shown guards) (maxTokens : Int) (sampling : Sampling) :
    (generate (verifiersOf m cfg argmax) sid maxTokens sampling).Yields Uncancelled
      (fun _ s' => s'.tokensShown sid = shown ++ heard m cfg argmax eos guards sid maxTokens sampling v) s := by
  obtain ⟨n, x, hserve, hat, heos⟩ := h.serving
  unfold generate
  refine Prog.Yields.bind (Prog.Yields.atomic fun i hi => ?_)
  unfold enterGuard heard
  rw [Proc.run_get_bind, hserve.guards]
  by_cases hg : guards.contains sid = true
  · rw [if_pos hg, if_pos hg, Proc.run_raise, List.append_nil]
    exact hserve.shown
  · rw [if_neg hg, if_neg hg]
    have hs' : Kept { s with generating := sid :: s.generating } sid v eos shown (sid :: guards) :=
      ⟨h.standing, h.ready, h.position, n, x,
        ⟨hserve.session, hserve.id, hserve.registered, hserve.object, hserve.shown, by rw [hserve.guards]⟩, hat, heos⟩
    refine Prog.Yields.andThen ((generateEvents_yields hs' maxTokens sampling).mono ?_)
    intro r s₁ hs₁
    refine Prog.Yields.next fun i hi => ⟨(), _, rfl, ?_⟩
    exact hs₁

/-- A session without a history generates nothing. -/
theorem generate_opened (h : s.Opened sid x) (maxTokens : Int) (sampling : Sampling) :
    (generate (verifiersOf m cfg argmax) sid maxTokens sampling).Yields Uncancelled
      (fun _ s' => s'.tokensShown sid = s.tokensShown sid) s := by
  unfold generate
  refine Prog.Yields.bind (Prog.Yields.atomic fun i hi => ?_)
  unfold enterGuard
  rw [Proc.run_get_bind]
  by_cases hg : s.generating.contains sid = true
  · rw [if_pos hg, Proc.run_raise]
  · rw [if_neg hg]
    refine Prog.Yields.andThen ?_
    have hleave : ∀ (r : Except (OperationError VerifierError) Unit) (s' : ModelServer κ Λ),
        s'.tokensShown sid = s.tokensShown sid →
        (((Prog.atomic .other fun _ => leaveGuard sid) >>= fun _ => .done r : ServerProg _ _ Unit)).Yields Uncancelled
          (fun _ s' => s'.tokensShown sid = s.tokensShown sid) s' :=
      fun r s' hs' => Prog.Yields.next fun i hi => ⟨(), _, rfl, hs'⟩
    unfold generateEvents
    cases hargs : (checkArguments maxTokens sampling : Except (OperationError VerifierError) Unit) with
    | error e => exact Prog.Yields.bind (Prog.Yields.atomic fun i hi => hleave _ _ rfl)
    | ok u =>
      refine Prog.Yields.next fun i hi => ⟨u, _, rfl, ?_⟩
      refine Prog.Yields.next fun i hi => ⟨x, _, run_lookup h.session, ?_⟩
      refine Prog.Yields.next fun i hi => ?_
      obtain ⟨n, v, s', hrun, hserve⟩ := resolve_serving m cfg argmax
        (s := { s with generating := sid :: s.generating }) h.session h.id
      refine ⟨n, s', hrun, ?_⟩
      rw [if_pos h.position]
      exact hleave _ _ hserve.shown

/-! ### Cutting the history -/

/-- The verifier that is registered for a session. -/
def verifierOf (s : ModelServer κ Λ) (sid : SessionId) : Option (SinkWindowVerifier κ Λ) :=
  (s.verifiers.verifiers.get? sid).map (s.verifiers.objects sid)

theorem Kept.verifierOf {eos : List Token} (h : s.Kept sid v eos shown guards) : s.verifierOf sid = some v := by
  obtain ⟨n, x, hserve, -, -⟩ := h.serving
  unfold Server.verifierOf
  rw [hserve.registered, Option.map_some, hserve.object]

/-- For every model, in every server and whatever the clock, the two ways of giving a new session its history leave the
same verifier, and every `Generate` after them shows the same tokens. -/
def SameContinuation (cfg : VerifierConfig) (sid : SessionId) (a b : List (List Token)) : Prop :=
  ∀ (κ Λ : Type) (m : KvModel κ Λ) (argmax : Λ → Token) (s : ModelServer κ Λ) (x : Session), s.Opened sid x →
    ∀ ia ib : Nat → Nat → Moment, (∀ k i, Uncancelled (ia k i)) → (∀ k i, Uncancelled (ib k i)) →
      let sa := appendAll (verifiersOf m cfg argmax) sid ia 0 a s
      let sb := appendAll (verifiersOf m cfg argmax) sid ib 0 b s
      sa.verifierOf sid = sb.verifierOf sid ∧
      ∀ maxTokens sampling (ga gb : Nat → Moment), (∀ i, Uncancelled (ga i)) → (∀ i, Uncancelled (gb i)) →
        ((generate (verifiersOf m cfg argmax) sid maxTokens sampling).alone ga 0 sa).2.tokensShown sid =
          ((generate (verifiersOf m cfg argmax) sid maxTokens sampling).alone gb 0 sb).2.tokensShown sid

/-- A server with one new session. -/
def openedServer (κ Λ : Type) (sid : SessionId) : ModelServer κ Λ where
  store :=
    { capacity := 1, hasInspector := true, slabPool := none, hasCallback := true,
      sessions := Dict.empty.set sid
        { sessionId := sid, eosTokenIds := [], clientLabel := "", createdAt := 0, lastActiveAt := 0 } }
  verifiers := { objects := fun _ _ => {} }

theorem openedServer_opened (κ Λ : Type) (sid : SessionId) :
    (openedServer κ Λ sid).Opened sid
      { sessionId := sid, eosTokenIds := [], clientLabel := "", createdAt := 0, lastActiveAt := 0 } :=
  ⟨by simp [openedServer], rfl, rfl⟩

/-- Two ways of cutting a history continue alike, for every model, exactly when every call that starts beyond sink and
window starts there in both. -/
theorem continuation_iff (cfg : VerifierConfig) (sid : SessionId) (a b : List (List Token))
    (ha : ∀ ts ∈ a, ts ≠ []) (hb : ∀ ts ∈ b, ts ≠ []) (hflat : a.flatten = b.flatten) (hts : ∀ t ∈ a.flatten, 0 ≤ t) :
    SameContinuation cfg sid a b ↔
      ∀ q, cfg.sinkSize + cfg.windowSize < q → (q ∈ startsFrom 0 a ↔ q ∈ startsFrom 0 b) := by
  by_cases hnil : a = []
  · -- no call at all
    subst hnil
    have hb0 : b = [] := by
      cases b with
      | nil => rfl
      | cons ts b =>
        have := hb ts (by simp)
        simp only [List.flatten_nil, List.flatten_cons] at hflat
        exact absurd (List.append_eq_nil_iff.1 hflat.symm).1 this
    subst hb0
    refine ⟨fun _ q _ => Iff.rfl, fun _ κ Λ m argmax s x hs ia ib _ _ => ⟨rfl, ?_⟩⟩
    intro maxTokens sampling ga gb hga hgb
    show (Prog.alone ga _ 0 s).2.tokensShown sid = (Prog.alone gb _ 0 s).2.tokensShown sid
    rw [(generate_opened hs maxTokens sampling).alone hga 0, (generate_opened hs maxTokens sampling).alone hgb 0]
  · have hbne : b ≠ [] := by
      rintro rfl
      cases a with
      | nil => exact hnil rfl
      | cons ts a =>
        have := ha ts (by simp)
        simp only [List.flatten_nil, List.flatten_cons] at hflat
        exact absurd (List.append_eq_nil_iff.1 hflat).1 this
    have hts' : ∀ t ∈ b.flatten, 0 ≤ t := by rw [← hflat]; exact hts
    constructor
    · intro h q hq
      refine SinkWindowVerifier.cuts_of_absorbAll ha hb hflat (fun q => ?_) q hq
      have hquiet : ∀ k i : Nat, Uncancelled ((fun _ _ => { clock := 0 } : Nat → Nat → Moment) k i) := fun _ _ => rfl
      have hsame := (h Nat Nat (KvModel.probe q) (fun w => w) (openedServer Nat Nat sid) _
        (openedServer_opened Nat Nat sid) _ _ hquiet hquiet).1
      rw [(appendAll_opened _ _ _ hquiet hnil ha hts (openedServer_opened Nat Nat sid)).verifierOf,
        (appendAll_opened _ _ _ hquiet hbne hb hts' (openedServer_opened Nat Nat sid)).verifierOf] at hsame
      exact Option.some.inj hsame
    · intro h κ Λ m argmax s x hs ia ib hia hib
      have hka := appendAll_opened m cfg argmax hia hnil ha hts hs
      have hkb := appendAll_opened m cfg argmax hib hbne hb hts' hs
      have heq : absorbAll m cfg .empty a = absorbAll m cfg .empty b :=
        SinkWindowVerifier.absorbAll_congr ha hb hflat h
      rw [heq] at hka
      refine ⟨by rw [hka.verifierOf, hkb.verifierOf], ?_⟩
      intro maxTokens sampling ga gb hga hgb
      rw [(generate_yields hka maxTokens sampling).alone hga 0, (generate_yields hkb maxTokens sampling).alone hgb 0]

/-- A verifier with one sink and one window slot. -/
def tinyConfig : VerifierConfig := ⟨1, 1, 1, Nat.one_pos, Nat.one_pos⟩

/-- Three tokens at once or one by one: no call starts beyond the second position. -/
theorem short_history_continues_alike : SameContinuation tinyConfig "sess-1" [[1, 2, 3]] [[1], [2], [3]] := by
  refine (continuation_iff tinyConfig "sess-1" [[1, 2, 3]] [[1], [2], [3]] (by simp) (by simp) rfl (by decide)).2 ?_
  intro q hq
  have h2 : 2 < q := hq
  have ha : q ∉ startsFrom 0 [[1, 2, 3]] := fun h => by simp [startsFrom] at h; omega
  have hb : q ∉ startsFrom 0 [[1], [2], [3]] := fun h => by simp [startsFrom] at h; omega
  exact ⟨fun h => absurd h ha, fun h => absurd h hb⟩

/-- Four tokens at once, or three and one: the last token sees three entries or two, and the model that says how many
generates another token. -/
theorem split_history_diverges :
    (let vs := verifiersOf (KvModel.probe 3) tinyConfig fun w => (w : Int)
      let s := openedServer Nat Nat "sess-1"
      let sa := appendAll vs "sess-1" (fun _ _ => { clock := 0 }) 0 [[1, 2, 3, 4]] s
      let sb := appendAll vs "sess-1" (fun _ _ => { clock := 0 }) 0 [[1, 2, 3], [4]] s
      ((generate vs "sess-1" 1 {}).alone (fun _ => { clock := 0 }) 0 sa).2.tokensShown "sess-1" = [3] ∧
      ((generate vs "sess-1" 1 {}).alone (fun _ => { clock := 0 }) 0 sb).2.tokensShown "sess-1" = [2]) ∧
    ¬ SameContinuation tinyConfig "sess-1" [[1, 2, 3, 4]] [[1, 2, 3], [4]] := by
  have hrun : (let vs := verifiersOf (KvModel.probe 3) tinyConfig fun w => (w : Int)
      let s := openedServer Nat Nat "sess-1"
      let sa := appendAll vs "sess-1" (fun _ _ => { clock := 0 }) 0 [[1, 2, 3, 4]] s
      let sb := appendAll vs "sess-1" (fun _ _ => { clock := 0 }) 0 [[1, 2, 3], [4]] s
      ((generate vs "sess-1" 1 {}).alone (fun _ => { clock := 0 }) 0 sa).2.tokensShown "sess-1" = [3] ∧
      ((generate vs "sess-1" 1 {}).alone (fun _ => { clock := 0 }) 0 sb).2.tokensShown "sess-1" = [2]) := by
    decide +kernel
  refine ⟨hrun, ?_⟩
  intro h
  have hsame := (h Nat Nat (KvModel.probe 3) (fun w => (w : Int)) (openedServer Nat Nat "sess-1") _
    (openedServer_opened Nat Nat "sess-1") (fun _ _ => { clock := 0 }) (fun _ _ => { clock := 0 }) (fun _ _ => rfl)
    (fun _ _ => rfl)).2 1 {} (fun _ => { clock := 0 }) (fun _ => { clock := 0 }) (fun _ => rfl) (fun _ => rfl)
  have h32 := hrun.1.symm.trans (hsame.trans hrun.2)
  exact absurd h32 (by decide)

end Server

end KakeyaEngine
