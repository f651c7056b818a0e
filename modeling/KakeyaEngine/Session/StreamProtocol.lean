import KakeyaEngine.Session.Isolation
import KakeyaEngine.Session.Streams

/-!
# The protocol of a stream

What a step of a stream does to the server: it works on its own session and leaves the others and the guard as they are
(`Follows`).  A stream that is left undisturbed under the guard, up to the removal of its session, and that ends by itself
has shown the protocol of what it has appended to the history (`generateEvents_returns`).
-/

namespace KakeyaEngine

namespace SessionStore

/-! ### Sessions that stay as they are -/

/-- Each session of `t` was there in `s`, with the same history and end tokens. -/
def KeepsHistory (s t : SessionStore) (sid : SessionId) : Prop :=
  ∀ y, t.sessions.get? sid = some y →
    ∃ x, s.sessions.get? sid = some x ∧ y.historyTokenIds = x.historyTokenIds ∧ y.eosTokenIds = x.eosTokenIds

theorem KeepsHistory.of_eq {s t : SessionStore} {sid : SessionId} (h : t.sessions.get? sid = s.sessions.get? sid) :
    KeepsHistory s t sid := fun y hy => ⟨y, h ▸ hy, rfl, rfl⟩

theorem KeepsHistory.trans {s t u : SessionStore} {sid : SessionId} (h : KeepsHistory s t sid)
    (h' : KeepsHistory t u sid) : KeepsHistory s u sid := by
  intro z hz
  obtain ⟨y, hy, hhist, heos⟩ := h' z hz
  obtain ⟨x, hx, hhist', heos'⟩ := h y hy
  exact ⟨x, hx, hhist.trans hhist', heos.trans heos'⟩

theorem KeepsHistory.write {s : SessionStore} {x y : Session} (hx : s.sessions.get? y.sessionId = some x)
    (hhist : y.historyTokenIds = x.historyTokenIds) (heos : y.eosTokenIds = x.eosTokenIds) (sid : SessionId) :
    KeepsHistory s (s.write y) sid := by
  intro z hz
  by_cases hsid : sid = y.sessionId
  · subst hsid
    obtain rfl : y = z := Option.some.inj ((Dict.get?_set_self _ _ _).symm.trans hz)
    exact ⟨x, hx, hhist, heos⟩
  · exact ⟨z, (Dict.get?_set_ne _ hsid).symm.trans hz, rfl, rfl⟩

theorem syncSession_keepsHistory {s : SessionStore} (hs : s.Consistent) (sid : SessionId) (cached : List Token)
    (active : Int) (id : SessionId) : KeepsHistory s ((syncSession sid cached active).run s).2 id := by
  unfold syncSession
  rw [Proc.run_get_bind]
  cases hx : s.sessions.get? sid with
  | none => exact KeepsHistory.of_eq rfl
  | some x =>
    have hid := hs.keyed sid x hx
    subst hid
    exact KeepsHistory.write (y := { x with cachedTokenSequence := cached, lastActiveAt := active }) hx rfl rfl id

theorem recordPositionAdvance_keepsHistory {s : SessionStore} (hs : s.Consistent) (sid : SessionId) (p now : Int)
    (id : SessionId) : KeepsHistory s ((recordPositionAdvance (fun _ => none) sid p now).run s).2 id := by
  unfold recordPositionAdvance
  rcases getSession_cases hs sid with ⟨x, hrun, hx, -⟩ | hrun
  · rw [Proc.run_bind_ok hrun]
    split
    · obtain ⟨s', hrem, hsess, -⟩ := removeSession_quiet hs "inv2_failure"
        (x := { x with inv2Violations := x.inv2Violations + 1 }) (y := x) rfl rfl hx
      rw [Proc.run_bind_ok hrem]
      intro z hz
      have hz' : (s.sessions.erase x.sessionId).get? id = some z := hsess ▸ hz
      rw [Dict.get?_erase] at hz'
      split at hz'
      · cases hz'
      · exact ⟨z, hz', rfl, rfl⟩
    · exact KeepsHistory.write (y := { x with nextGlobalPosition := p, lastActiveAt := now }) hx rfl rfl id
  · rw [Proc.run_bind_error hrun]
    exact KeepsHistory.of_eq rfl

theorem appendTokens_keepsHistory {s : SessionStore} (hs : s.Consistent) {sid : SessionId} (ts : List Token) (now : Int)
    (k : Except String Int) {id : SessionId} (hid : id ≠ sid) :
    KeepsHistory s ((appendTokens (fun _ => none) sid ts now k).run s).2 id := by
  obtain ⟨f, hf⟩ := appendTokens_local sid ts now k
  exact KeepsHistory.of_eq ((hf s hs).2.2.1 id hid)

/-- An append that returns has extended the history. -/
theorem appendTokens_appends {s s' : SessionStore} (hs : s.Consistent) {sid : SessionId} {ts : List Token} {now : Int}
    {k : Except String Int} {n : Nat} (hrun : (appendTokens (fun _ => none) sid ts now k).run s = (.ok n, s')) :
    ∃ x y, s.sessions.get? sid = some x ∧ s'.sessions.get? sid = some y ∧
      y.historyTokenIds = x.historyTokenIds ++ ts ∧ y.eosTokenIds = x.eosTokenIds ∧ y.slab = x.slab := by
  unfold appendTokens at hrun
  rcases getSession_cases hs sid with ⟨x, hget, hx, hid⟩ | hget
  · rw [Proc.run_bind_ok hget] at hrun
    subst hid
    cases hfind : ts.find? fun t => decide (t < 0) with
    | some t =>
      rw [hfind] at hrun
      cases (Prod.mk.inj hrun).1
    | none =>
      rw [hfind] at hrun
      dsimp only at hrun
      rw [Proc.run_modify_bind] at hrun
      obtain ⟨u, t, hinv, hrest⟩ := Proc.of_run_bind_ok hrun
      obtain rfl : t = s' := (Prod.mk.inj hrest).2
      refine ⟨x, { x with historyTokenIds := x.historyTokenIds ++ ts, lastActiveAt := now }, hx, ?_, rfl, rfl, rfl⟩
      unfold assertInv1 at hinv
      rw [Proc.run_get_bind] at hinv
      split at hinv
      · rw [← (Prod.mk.inj hinv).2]
        exact Dict.get?_set_self _ _ _
      · cases k with
        | error text => cases (Prod.mk.inj hinv).1
        | ok actual =>
          dsimp only at hinv
          split at hinv
          · obtain ⟨u', t', hrem, hraise⟩ := Proc.of_run_bind_ok hinv
            cases (Prod.mk.inj hraise).1
          · rw [← (Prod.mk.inj hinv).2]
            exact Dict.get?_set_self _ _ _
  · rw [Proc.run_bind_error hget] at hrun
    cases (Prod.mk.inj hrun).1

end SessionStore

namespace Server

variable {β η ε α : Type} (vs : Verifiers β η ε)

/-! ### What a step leaves alone -/

/-- What a stream of the session has shown and appended is as it was, unless the session is gone. -/
structure Undisturbed (sid : SessionId) (s t : Server β ε) : Prop where
  shown : t.streams.get? sid = s.streams.get? sid
  session : SessionStore.KeepsHistory s.store t.store sid

theorem Undisturbed.refl (sid : SessionId) (s : Server β ε) : Undisturbed sid s s := ⟨rfl, SessionStore.KeepsHistory.of_eq rfl⟩

theorem Undisturbed.trans {sid : SessionId} {s t u : Server β ε} (h : Undisturbed sid s t) (h' : Undisturbed sid t u) :
    Undisturbed sid s u := ⟨h'.shown.trans h.shown, h.session.trans h'.session⟩

/-- What a step for the session `sid` does: the guard is as it was, and so are the other sessions. -/
structure Follows (sid : SessionId) (s t : Server β ε) : Prop where
  consistent : t.store.Consistent
  generating : t.generating = s.generating
  others : ∀ id, id ≠ sid → Undisturbed id s t

/-- A step that appends and shows nothing. -/
def Quiet (x : ServerProc β ε α) : Prop :=
  ∀ s : Server β ε, s.store.Consistent → (x.run s).2.store.Consistent ∧ (x.run s).2.generating = s.generating ∧
    ∀ id, Undisturbed id s (x.run s).2

theorem Quiet.follows {x : ServerProc β ε α} (hx : Quiet x) (sid : SessionId) {s : Server β ε}
    (hs : s.store.Consistent) : Follows sid s (x.run s).2 :=
  ⟨(hx s hs).1, (hx s hs).2.1, fun id _ => (hx s hs).2.2 id⟩

theorem Quiet.of_state {x : ServerProc β ε α} (hx : ∀ s, (x.run s).2 = s) : Quiet x := by
  intro s hs
  rw [hx s]
  exact ⟨hs, rfl, fun id => Undisturbed.refl id s⟩

theorem Quiet.callStore {y : SessionProc α} (hy : SessionStore.Lowers y)
    (hkeeps : ∀ s : SessionStore, s.Consistent → ∀ id, SessionStore.KeepsHistory s (y.run s).2 id) :
    Quiet (callStore vs y) :=
  fun s hs => ⟨(hy s.store hs).1, rfl, fun id => ⟨rfl, hkeeps s.store hs id⟩⟩

theorem lookup_quiet (sid : SessionId) : Quiet (callStore vs (SessionStore.getSession sid)) := by
  refine Quiet.callStore vs (SessionStore.getSession_lowers sid) fun s _ id => SessionStore.KeepsHistory.of_eq ?_
  rw [SessionStore.run_getSession]
  cases s.sessions.get? sid with
  | none => rfl
  | some x => rfl

/-- A lookup that returns has found the session, and nothing has changed. -/
theorem lookup_ok {sid : SessionId} {s s' : Server β ε} {x : Session}
    (h : (callStore vs (SessionStore.getSession sid)).run s = (.ok x, s')) :
    s.store.sessions.get? sid = some x ∧ s' = s := by
  have hget := of_run_callStore_ok h
  rw [SessionStore.run_getSession] at hget
  cases hx : s.store.sessions.get? sid with
  | none =>
    rw [hx] at hget
    cases (Prod.mk.inj hget).1
  | some y =>
    rw [run_lookup hx] at h
    obtain ⟨hres, hs⟩ := Prod.mk.inj h
    exact ⟨congrArg some (Except.ok.inj hres), hs.symm⟩

theorem resolve_quiet (sid : SessionId) : Quiet (resolve vs sid) :=
  fun _ hs => ⟨hs, rfl, fun _ => ⟨rfl, SessionStore.KeepsHistory.of_eq rfl⟩⟩

theorem callVerifier_quiet (x : Proc β ε α) : Quiet (callVerifier x) := by
  intro s hs
  unfold callVerifier
  rw [Proc.run_focus]
  rcases x.run s.verifiers with ⟨_ | _, b⟩
  · exact ⟨hs, rfl, fun _ => ⟨rfl, SessionStore.KeepsHistory.of_eq rfl⟩⟩
  · exact ⟨hs, rfl, fun _ => ⟨rfl, SessionStore.KeepsHistory.of_eq rfl⟩⟩

theorem mirror_quiet (sid : SessionId) (verifier : η) : Quiet (mirror vs sid verifier) := by
  intro s hs
  unfold mirror
  rw [Proc.run_get_bind]
  cases hx : s.store.sessions.get? sid with
  | none => exact ⟨hs, rfl, fun id => Undisturbed.refl id s⟩
  | some x =>
    exact Quiet.callStore vs (SessionStore.syncSession_lowers sid _ _)
      (fun t ht id => SessionStore.syncSession_keepsHistory ht sid _ _ id) s hs

theorem touch_quiet (sid : SessionId) (clock : Int) : Quiet (touch vs sid clock) := by
  intro s hs
  unfold touch
  rw [Proc.run_get_bind]
  cases hx : s.store.sessions.get? sid with
  | none => exact ⟨hs, rfl, fun id => Undisturbed.refl id s⟩
  | some x =>
    exact Quiet.callStore vs (SessionStore.syncSession_lowers sid _ _)
      (fun t ht id => SessionStore.syncSession_keepsHistory ht sid _ _ id) s hs

theorem recordPosition_quiet (sid : SessionId) (verifier : η) (clock : Int) :
    Quiet (recordPosition vs sid verifier clock) := by
  intro s hs
  unfold recordPosition
  rw [Proc.run_get_bind]
  exact Quiet.callStore vs (SessionStore.recordPositionAdvance_lowers (fun _ => none) sid _ clock)
    (fun t ht id => SessionStore.recordPositionAdvance_keepsHistory ht sid _ clock id) s hs

theorem run_storeAppend (sid : SessionId) (ts : List Token) (clock : Int) (s : Server β ε) :
    ∃ (k : Int) (b : β), (storeAppend vs sid ts clock).run s =
      ((SessionStore.appendTokens (fun _ => none) sid ts clock (.ok k)).run s.store |>.1.mapError .store, { s with
        store := ((SessionStore.appendTokens (fun _ => none) sid ts clock (.ok k)).run s.store).2, verifiers := b }) := by
  have hinspect : ∃ (k : Int) (b : β), (inspect vs sid ts).run s = (.ok k, { s with verifiers := b }) := by
    by_cases h : asksInspector s.store sid ts = true
    · exact ⟨_, _, if_pos h⟩
    · exact ⟨0, s.verifiers, if_neg h⟩
  obtain ⟨k, b, hrun⟩ := hinspect
  unfold storeAppend
  rw [Proc.run_bind_ok hrun]
  exact ⟨k, _, rfl⟩

theorem storeAppend_follows (sid : SessionId) (ts : List Token) (clock : Int) {s : Server β ε}
    (hs : s.store.Consistent) : Follows sid s ((storeAppend vs sid ts clock).run s).2 := by
  obtain ⟨k, b, hrun⟩ := run_storeAppend vs sid ts clock s
  rw [hrun]
  refine ⟨(SessionStore.appendTokens_lowers (fun _ => none) sid ts clock (.ok k) s.store hs).1, rfl, fun id hid => ?_⟩
  exact ⟨rfl, SessionStore.appendTokens_keepsHistory hs ts clock (.ok k) hid⟩

/-- An append that returns shows nothing and has extended the history. -/
theorem storeAppend_appends {sid : SessionId} {ts : List Token} {clock : Int} {s s' : Server β ε}
    (hs : s.store.Consistent) {n : Nat} (hrun : (storeAppend vs sid ts clock).run s = (.ok n, s')) :
    s'.streams = s.streams ∧ ∃ x y, s.store.sessions.get? sid = some x ∧ s'.store.sessions.get? sid = some y ∧
      y.historyTokenIds = x.historyTokenIds ++ ts ∧ y.eosTokenIds = x.eosTokenIds ∧ y.slab = x.slab := by
  obtain ⟨k, b, hrun'⟩ := run_storeAppend vs sid ts clock s
  rw [hrun'] at hrun
  obtain ⟨hres, rfl⟩ := Prod.mk.inj hrun
  refine ⟨rfl, ?_⟩
  rcases h : (SessionStore.appendTokens (fun _ => none) sid ts clock (.ok k)).run s.store with ⟨e | m, t⟩
  · rw [h] at hres
    cases hres
  · exact SessionStore.appendTokens_appends hs h

theorem reveal_follows (sid : SessionId) (o : Observation ε) {s : Server β ε} (hs : s.store.Consistent) :
    Follows sid s ((reveal sid o).run s).2 := by
  refine ⟨hs, rfl, fun id hid => ⟨?_, SessionStore.KeepsHistory.of_eq rfl⟩⟩
  exact Dict.get?_set_ne _ hid

theorem run_enterGuard (sid : SessionId) (s : Server β ε) :
    (enterGuard sid).run s =
      if sid ∈ s.generating then (.error (.busy ("Generate already active for session '" ++ sid ++ "'")), s)
      else (.ok (), { s with generating := sid :: s.generating }) := by
  unfold enterGuard
  rw [Proc.run_get_bind]
  by_cases h : sid ∈ s.generating
  · rw [if_pos h, if_pos (List.contains_iff_mem.2 h)]
    rfl
  · rw [if_neg h, if_neg fun hc => h (List.contains_iff_mem.1 hc)]
    rfl

/-- `AppendTokens` works on its own session. -/
theorem appendTokens_follows (sid : SessionId) (ts : List Token) :
    (appendTokens vs sid ts).Guarantees (fun s => s.store.Consistent) (fun _ s t => Follows sid s t) := by
  have hquiet : ∀ {α : Type} {k : StepLabel} {x : Moment → ServerProc β ε α}, (∀ i, Quiet (x i)) →
      (Prog.atomic k x).Guarantees (fun s => s.store.Consistent) (fun _ s t => Follows sid s t) := by
    intro α k x hx
    exact Prog.Guarantees.atomic fun i s hs => ⟨(hx i s hs).1, (hx i).follows sid hs⟩
  have hcheck : ∀ message : String, ∀ i : Moment, Quiet (checkCancelled (ε := ε) (β := β) message i) := by
    intro message i
    refine Quiet.of_state fun s => ?_
    unfold checkCancelled
    cases i.cancelled
    · rfl
    · rfl
  refine Prog.Guarantees.bind (hquiet (hcheck _)) fun _ => ?_
  refine Prog.Guarantees.bind (hquiet fun _ => lookup_quiet vs sid) fun session => ?_
  refine Prog.Guarantees.bind (hquiet fun _ => resolve_quiet vs sid) fun verifier => ?_
  split
  · exact Prog.Guarantees.bind (hquiet fun i => touch_quiet vs sid i.clock) fun _ => trivial
  · refine Prog.Guarantees.bind ?_ fun _ => ?_
    · unfold drive
      split
      · refine Prog.Guarantees.focus fun s b hs => ⟨hs, hs, rfl, fun id _ => ⟨rfl, ?_⟩⟩
        exact SessionStore.KeepsHistory.of_eq rfl
      · exact hquiet fun i => callVerifier_quiet _
    refine Prog.Guarantees.bind (hquiet (hcheck _)) fun _ => ?_
    refine Prog.Guarantees.bind (hquiet fun _ => mirror_quiet vs sid verifier) fun _ => ?_
    refine Prog.Guarantees.bind (Prog.Guarantees.atomic fun i s hs => ?_) fun _ => ?_
    · exact ⟨(storeAppend_follows vs sid ts i.clock hs).consistent, storeAppend_follows vs sid ts i.clock hs⟩
    exact Prog.Guarantees.bind (hquiet fun i => recordPosition_quiet vs sid verifier i.clock) fun _ => trivial

end Server

namespace Stream

open Server (Undisturbed Follows Quiet)

variable {β η ε α : Type} (vs : Verifiers β η ε) (kvLiveBytes : SessionId → η → β → Int)

theorem run_onServer_ok {x : ServerProc β ε α} {m m' : Metered β ε} {a : α} (h : (onServer x).run m = (.ok a, m')) :
    x.run m.server = (.ok a, m'.server) := by
  rw [run_onServer] at h
  rcases hx : x.run m.server with ⟨e | b, s⟩
  · rw [hx] at h
    cases (Prod.mk.inj h).1
  · rw [hx] at h
    obtain ⟨hb, rfl⟩ := Prod.mk.inj h
    rw [Except.ok.inj hb]

/-! ### Under the guard -/

/-- What the server is between any two steps. -/
def Sound (m : Metered β ε) : Prop := m.server.store.Consistent

/-- What a step of a stream of the session `sid` does under the guard. -/
def Inside (sid : SessionId) (k : StreamLabel η) (m m' : Metered β ε) : Prop := k ≠ .outside ∧ Follows sid m.server m'.server

/-- A program that stays under the guard. -/
abbrev Working (sid : SessionId) (p : StreamProg β η ε α) : Prop := p.Guarantees Sound (Inside sid)

theorem serve_working {sid : SessionId} {x : Moment → ServerProc β ε α}
    (hx : ∀ i s, s.store.Consistent → Follows sid s ((x i).run s).2) : Working sid (serve x : StreamProg β η ε α) := by
  refine Prog.Guarantees.atomic fun i m hm => ?_
  have hfollows := hx i.toMoment m.server hm
  rw [run_onServer]
  exact ⟨hfollows.consistent, nofun, hfollows⟩

theorem quiet_working (sid : SessionId) {x : Moment → ServerProc β ε α} (hx : ∀ i, Quiet (x i)) :
    Working sid (serve x : StreamProg β η ε α) := serve_working fun i _ hs => (hx i).follows sid hs

/-- A step that does not concern the server. -/
theorem still_working (sid : SessionId) {k : StreamLabel η} (hk : k ≠ .outside) {x : Pull → StreamProc β ε α}
    (hx : ∀ i m, ((x i).run m).2.server = m.server) : Working sid (.atomic k x : StreamProg β η ε α) := by
  refine Prog.Guarantees.atomic fun i m hm => ?_
  unfold Sound Inside
  rw [hx i m]
  exact ⟨hm, hk, hm, rfl, fun id _ => Undisturbed.refl id _⟩

theorem await_server (i : Pull) (m : Metered β ε) :
    ((if i.closed then Proc.raise .generatorExit else pure () : StreamProc β ε Unit).run m).2 = m := by
  cases i.closed
  · rfl
  · rfl

theorem await_working (sid : SessionId) : Working sid (await .inside : StreamProg β η ε Unit) :=
  still_working sid (by simp) fun i m => congrArg Metered.server (await_server i m)

theorem yieldEvent_working (sid : SessionId) (event : Int → GenerateEvent) :
    Working sid (yieldEvent sid event : StreamProg β η ε Unit) :=
  Prog.Guarantees.bind (serve_working fun _ _ hs => Server.reveal_follows sid _ hs) fun _ => await_working sid

theorem finish_working (sid : SessionId) (verifier : η) (reason : StopReason) (count : Nat) (t0 : Int) :
    Working sid (finish kvLiveBytes sid verifier reason count t0 : StreamProg β η ε Unit) := by
  refine Prog.Guarantees.bind (still_working sid (by simp) fun _ m => syncSlabBytes_server kvLiveBytes sid verifier m) fun _ => ?_
  exact Prog.Guarantees.bind (still_working sid (by simp) fun _ _ => rfl) fun _ => yieldEvent_working sid _

theorem generateLoop_working (sid : SessionId) (verifier : η) (eos : List Token) (t0 : Int) (left count : Nat) :
    Working sid (generateLoop vs kvLiveBytes sid verifier eos t0 left count) := by
  induction left generalizing count with
  | zero => exact finish_working kvLiveBytes sid verifier .maxTokens count t0
  | succ left ih =>
    unfold generateLoop
    refine Prog.Guarantees.bind (still_working sid (by simp) fun _ _ => rfl) fun cancelled => ?_
    split
    · exact yieldEvent_working sid _
    · refine Prog.Guarantees.bind (quiet_working sid fun i => Server.callVerifier_quiet _) fun t => ?_
      refine Prog.Guarantees.bind (quiet_working sid fun _ => Server.mirror_quiet vs sid verifier) fun _ => ?_
      refine Prog.Guarantees.bind (serve_working fun i _ hs => Server.storeAppend_follows vs sid [t] i.clock hs) fun _ => ?_
      refine Prog.Guarantees.bind (quiet_working sid fun i => Server.recordPosition_quiet vs sid verifier i.clock) fun _ => ?_
      refine Prog.Guarantees.bind (yieldEvent_working sid _) fun _ => ?_
      split
      · exact finish_working kvLiveBytes sid verifier .eos (count + 1) t0
      · exact ih (count + 1)

theorem generateEvents_working (sid : SessionId) (maxTokens : Int) (sampling : Server.Sampling) :
    Working sid (generateEvents vs kvLiveBytes sid maxTokens sampling) := by
  refine Prog.Guarantees.bind (quiet_working sid fun _ => Quiet.of_state fun s => ?_) fun _ => ?_
  · rw [Proc.run_ofExcept]
  refine Prog.Guarantees.bind (quiet_working sid fun _ => Server.lookup_quiet vs sid) fun session => ?_
  refine Prog.Guarantees.bind (quiet_working sid fun _ => Server.resolve_quiet vs sid) fun verifier => ?_
  split
  · exact trivial
  · refine Prog.Guarantees.bind ?_ fun _ => ?_
    · unfold yieldTruncated
      split
      · exact yieldEvent_working sid _
      · exact trivial
    · refine Prog.Guarantees.bind (quiet_working sid fun _ => Quiet.of_state fun _ => rfl) fun t0 => ?_
      exact generateLoop_working vs kvLiveBytes sid verifier session.eosTokenIds t0 maxTokens.toNat 0

/-! ### What a stream has done so far -/

/-- What others do while a stream of the session is under the guard. -/
def Others (sid : SessionId) (_ : StreamLabel η) (m m' : Metered β ε) : Prop :=
  (Sound m → Sound m') ∧ Undisturbed sid m.server m'.server

theorem Others.refl (sid : SessionId) (k : StreamLabel η) (m : Metered β ε) : Others sid k m m :=
  ⟨id, Undisturbed.refl sid m.server⟩

theorem Others.trans {sid : SessionId} (k : StreamLabel η) (m m' m'' : Metered β ε) (h : Others sid k m m')
    (h' : Others sid k m' m'') : Others sid k m m'' := ⟨h'.1 ∘ h.1, h.2.trans h'.2⟩

/-- The events that the client of a session was shown, and what its operations returned. -/
def shown (sid : SessionId) (m : Metered β ε) : List (Observation ε) := (m.server.streams.get? sid).getD []

/-- Since the stream entered the guard, when `before` was shown and the history was `history`, it has shown `events` and
appended `tokens`. -/
structure Emitted (sid : SessionId) (before : List (Observation ε)) (history eos : List Token)
    (events : List GenerateEvent) (tokens : List Token) (m : Metered β ε) : Prop where
  sound : Sound m
  shown : shown sid m = before ++ events.map .event
  history : ∀ y, m.server.store.sessions.get? sid = some y →
    y.historyTokenIds = history ++ tokens ∧ y.eosTokenIds = eos

section Emitted

variable {vs} {sid : SessionId} {before : List (Observation ε)} {history eos : List Token} {events : List GenerateEvent}
  {tokens : List Token} {m m' : Metered β ε}

theorem Emitted.undisturbed (h : Emitted sid before history eos events tokens m) (hsound : Sound m')
    (hm : Undisturbed sid m.server m'.server) : Emitted sid before history eos events tokens m' := by
  refine ⟨hsound, ?_, fun z hz => ?_⟩
  · unfold Stream.shown
    rw [hm.shown]
    exact h.shown
  · obtain ⟨y, hy, hhist, heos⟩ := hm.session z hz
    rw [hhist, heos]
    exact h.history y hy

theorem Emitted.interfere (h : Emitted sid before history eos events tokens m) {k : StreamLabel η}
    (hm : Others sid k m m') : Emitted sid before history eos events tokens m' :=
  h.undisturbed (hm.1 h.sound) hm.2

theorem Emitted.quiet (h : Emitted sid before history eos events tokens m) {x : ServerProc β ε α} (hx : Quiet x) :
    Emitted sid before history eos events tokens ((onServer x).run m).2 := by
  rw [run_onServer]
  obtain ⟨hsound, -, hquiet⟩ := hx m.server h.sound
  exact h.undisturbed hsound (hquiet sid)

theorem Emitted.append (h : Emitted sid before history eos events tokens m) {t : Token} {clock : Int} {n : Nat}
    (hrun : (onServer (Server.storeAppend vs sid [t] clock)).run m = (.ok n, m')) :
    Emitted sid before history eos events (tokens ++ [t]) m' := by
  have hok := run_onServer_ok hrun
  have hfollows := Server.storeAppend_follows vs sid [t] clock h.sound
  rw [hok] at hfollows
  obtain ⟨hstreams, x, y, hx, hy, hhist, heos, -⟩ := Server.storeAppend_appends vs h.sound hok
  refine ⟨hfollows.consistent, ?_, fun z hz => ?_⟩
  · unfold Stream.shown
    rw [hstreams]
    exact h.shown
  · obtain rfl : y = z := Option.some.inj (hy.symm.trans hz)
    rw [hhist, heos, (h.history x hx).1, List.append_assoc]
    exact ⟨rfl, (h.history x hx).2⟩

theorem Emitted.reveal (h : Emitted sid before history eos events tokens m) (e : GenerateEvent) :
    Emitted sid before history eos (events ++ [e]) tokens ((onServer (Server.reveal sid (.event e))).run m).2 := by
  rw [run_onServer]
  refine ⟨h.sound, ?_, h.history⟩
  show ((m.server.streams.set sid (Stream.shown sid m ++ [.event e])).get? sid).getD [] = _
  rw [Dict.get?_set_self, h.shown, List.map_append, ← List.append_assoc]
  rfl

end Emitted

/-! ### What a stream returns with -/

/-- The events of a stream that ends by itself: perhaps that the history is truncated, then the tokens, then how it
ended. -/
def Protocol (maxTokens : Int) (eos tokens : List Token) (events : List GenerateEvent) : Prop :=
  ∃ (dropped : Option Nat) (reason : StopReason) (prefillSeconds totalSeconds : Int),
    events = dropped.toList.map .historyTruncated ++ tokens.map .token ++
      [.done reason tokens.length prefillSeconds totalSeconds] ∧
    (tokens.length : Int) ≤ maxTokens ∧ (reason = .eos ↔ ∃ t, tokens.getLast? = some t ∧ t ∈ eos)

section Returns

variable {sid : SessionId} {before : List (Observation ε)} {history eos : List Token} {events : List GenerateEvent}
  {tokens : List Token} {m : Metered β ε}

theorem quiet_returns (h : Emitted sid before history eos events tokens m) {x : Moment → ServerProc β ε α}
    (hx : ∀ i, Quiet (x i)) :
    (serve x : StreamProg β η ε α).Returns (Others sid) (fun _ m' => Emitted sid before history eos events tokens m') m := by
  refine Prog.Returns.atomic fun t ht i a t' hrun => ?_
  have hquiet := (h.interfere ht).quiet (hx i.toMoment)
  rw [hrun] at hquiet
  exact hquiet

/-- A step that does not concern the server. -/
theorem still_returns (h : Emitted sid before history eos events tokens m) {k : StreamLabel η}
    {x : Pull → StreamProc β ε α} (hx : ∀ i m, ((x i).run m).2.server = m.server) :
    (.atomic k x : StreamProg β η ε α).Returns (Others sid)
      (fun _ m' => Emitted sid before history eos events tokens m') m := by
  refine Prog.Returns.atomic fun t ht i a t' hrun => ?_
  have hserver : t'.server = t.server := by rw [← hx i t, hrun]
  have ht' := h.interfere ht
  refine ht'.undisturbed ?_ ?_
  · unfold Sound
    rw [hserver]
    exact ht'.sound
  · rw [hserver]
    exact Undisturbed.refl sid t.server

theorem yieldEvent_returns (h : Emitted sid before history eos events tokens m) (event : Int → GenerateEvent) :
    (yieldEvent sid event : StreamProg β η ε Unit).Returns (Others sid)
      (fun _ m' => ∃ now, Emitted sid before history eos (events ++ [event now]) tokens m') m := by
  refine Prog.Returns.bind (Prog.Returns.atomic fun t ht i _ t' hrun => ?_)
  have hreveal := (h.interfere ht).reveal (event i.clock)
  rw [hrun] at hreveal
  refine Prog.Returns.mono (still_returns hreveal fun j m => congrArg Metered.server (await_server j m)) ?_
  exact fun _ u hu => ⟨i.clock, hu⟩

theorem finish_returns (h : Emitted sid before history eos events tokens m) (verifier : η) (reason : StopReason)
    (count : Nat) (t0 : Int) :
    (finish kvLiveBytes sid verifier reason count t0).Returns (Others sid)
      (fun _ m' => ∃ total, Emitted sid before history eos (events ++ [.done reason count 0 total]) tokens m') m := by
  refine Prog.Returns.bind ?_
  refine Prog.Returns.mono (still_returns h fun _ m => syncSlabBytes_server kvLiveBytes sid verifier m) fun _ m₁ h₁ => ?_
  refine Prog.Returns.bind (Prog.Returns.mono (still_returns h₁ fun _ _ => rfl) fun _ m₂ h₂ => ?_)
  exact Prog.Returns.mono (yieldEvent_returns h₂ _) fun _ m₃ h₃ => ⟨_, h₃.choose_spec⟩

private theorem ended_otherwise {reason : StopReason} (hreason : reason ≠ .eos)
    (hlast : ∀ t, tokens.getLast? = some t → t ∉ eos) :
    reason = .eos ↔ ∃ t, tokens.getLast? = some t ∧ t ∈ eos := by
  constructor
  · intro heq
    exact absurd heq hreason
  · rintro ⟨t, ht, hmem⟩
    exact absurd hmem (hlast t ht)

/-- The loop, entered with the tokens that were emitted, none of which ends the stream. -/
theorem generateLoop_returns (verifier : η) (t0 : Int) {maxTokens : Int} {dropped : Option Nat} (left : Nat)
    (h : Emitted sid before history eos (dropped.toList.map .historyTruncated ++ tokens.map .token) tokens m)
    (hmax : (tokens.length : Int) + left ≤ maxTokens) (hlast : ∀ t, tokens.getLast? = some t → t ∉ eos) :
    (generateLoop vs kvLiveBytes sid verifier eos t0 left tokens.length).Returns (Others sid)
      (fun _ m' => ∃ tokens' events', Protocol maxTokens eos tokens' events' ∧
        Emitted sid before history eos events' tokens' m') m := by
  induction left generalizing tokens m with
  | zero =>
    refine Prog.Returns.mono (finish_returns kvLiveBytes h verifier .maxTokens tokens.length t0) ?_
    rintro _ m' ⟨total, h'⟩
    exact ⟨tokens, _, ⟨dropped, .maxTokens, 0, total, rfl, by omega, ended_otherwise (by simp) hlast⟩, h'⟩
  | succ left ih =>
    unfold generateLoop
    refine Prog.Returns.bind (Prog.Returns.mono (still_returns h fun _ _ => rfl) ?_)
    intro cancelled m₁ h₁
    split
    · refine Prog.Returns.mono (yieldEvent_returns h₁ _) ?_
      rintro _ m' ⟨now, h'⟩
      exact ⟨tokens, _, ⟨dropped, .cancelled, 0, _, rfl, by omega, ended_otherwise (by simp) hlast⟩, h'⟩
    · refine Prog.Returns.bind (Prog.Returns.mono (quiet_returns h₁ fun i => Server.callVerifier_quiet _) ?_)
      intro t m₂ h₂
      refine Prog.Returns.bind (Prog.Returns.mono (quiet_returns h₂ fun _ => Server.mirror_quiet vs sid verifier) ?_)
      intro _ m₃ h₃
      refine Prog.Returns.bind (Prog.Returns.atomic fun u hu i n m₄ hrun => ?_)
      have h₄ := (h₃.interfere hu).append hrun
      refine Prog.Returns.bind (Prog.Returns.mono
        (quiet_returns h₄ fun j => Server.recordPosition_quiet vs sid verifier j.clock) ?_)
      intro _ m₅ h₅
      refine Prog.Returns.bind (Prog.Returns.mono (yieldEvent_returns h₅ fun _ => .token t) ?_)
      rintro _ m₆ ⟨-, h₆⟩
      have hevents : dropped.toList.map GenerateEvent.historyTruncated ++ tokens.map .token ++ [.token t] =
          dropped.toList.map .historyTruncated ++ (tokens ++ [t]).map .token := by simp
      rw [hevents] at h₆
      have hlength : (tokens ++ [t]).length = tokens.length + 1 := by simp
      rw [← hlength]
      split
      · rename_i hmem
        refine Prog.Returns.mono (finish_returns kvLiveBytes h₆ verifier .eos (tokens ++ [t]).length t0) ?_
        rintro _ m' ⟨total, h'⟩
        refine ⟨tokens ++ [t], _, ⟨dropped, .eos, 0, total, rfl, by omega, ?_⟩, h'⟩
        exact ⟨fun _ => ⟨t, by simp, hmem⟩, fun _ => rfl⟩
      · rename_i hmem
        refine ih h₆ (by omega) ?_
        intro t' ht'
        simp only [List.getLast?_append, List.getLast?_singleton, Option.some_or, Option.some.injEq] at ht'
        rw [← ht']
        exact hmem

private theorem one_le_of_checkArguments {maxTokens : Int} {sampling : Server.Sampling}
    (h : Server.checkArguments (ε := ε) maxTokens sampling = .ok ()) : 1 ≤ maxTokens := by
  by_contra hlt
  unfold Server.checkArguments at h
  rw [if_pos (by omega)] at h
  cases h

theorem yieldTruncated_returns (h : Emitted sid before history eos [] tokens m) (session : Session) :
    (yieldTruncated sid session : StreamProg β η ε Unit).Returns (Others sid)
      (fun _ m' => ∃ dropped : Option Nat,
        Emitted sid before history eos (dropped.toList.map .historyTruncated) tokens m') m := by
  unfold yieldTruncated
  split
  · refine Prog.Returns.mono (yieldEvent_returns h _) fun _ m' h' => ?_
    exact ⟨some (session.historyTokenIds.length - session.cachedTokenSequence.length), h'.choose_spec⟩
  · exact Prog.Returns.pure ⟨none, h⟩

/-- From the entry on: the session was there, and what was shown since then is the protocol of what was appended. -/
theorem generateEvents_returns (hsound : Sound m) (maxTokens : Int) (sampling : Server.Sampling) :
    (generateEvents vs kvLiveBytes sid maxTokens sampling).Returns (Others sid)
      (fun _ m' => ∃ x tokens events, m.server.store.sessions.get? sid = some x ∧
        Protocol maxTokens x.eosTokenIds tokens events ∧
        Emitted sid (shown sid m) x.historyTokenIds x.eosTokenIds events tokens m') m := by
  refine Prog.Returns.bind (Prog.Returns.atomic fun m₁ hm₁ i _ m₁' hrun => ?_)
  obtain ⟨hargs, hsame⟩ : Server.checkArguments (ε := ε) maxTokens sampling = .ok () ∧ m₁.server = m₁'.server := by
    have hok := run_onServer_ok hrun
    rw [Proc.run_ofExcept] at hok
    exact Prod.mk.inj hok
  have hmax := one_le_of_checkArguments hargs
  refine Prog.Returns.bind (Prog.Returns.atomic fun m₂ hm₂ j session m₂' hlookup => ?_)
  obtain ⟨hsession, hsame'⟩ := Server.lookup_ok vs (run_onServer_ok hlookup)
  have hm : Others sid (.inside : StreamLabel η) m m₂' := by
    have h₁₂ : Others sid (.inside : StreamLabel η) m₁ m₂' := by
      unfold Others Sound
      rw [hsame', hsame]
      exact hm₂
    exact Others.trans .inside m m₁ m₂' hm₁ h₁₂
  obtain ⟨x, hx, hhist, heos⟩ := hm.2.session session (by rw [hsame']; exact hsession)
  have hstart : Emitted sid (shown sid m) x.historyTokenIds x.eosTokenIds [] [] m := by
    refine ⟨hsound, by simp, fun y hy => ?_⟩
    obtain rfl : x = y := Option.some.inj (hx.symm.trans hy)
    exact ⟨by simp, rfl⟩
  refine Prog.Returns.bind (Prog.Returns.mono
    (quiet_returns (hstart.interfere hm) fun _ => Server.resolve_quiet vs sid) fun verifier m₃ h₃ => ?_)
  split
  · exact Prog.Returns.raise
  · refine Prog.Returns.bind (Prog.Returns.mono (yieldTruncated_returns h₃ session) ?_)
    rintro _ m₄ ⟨dropped, h₄⟩
    refine Prog.Returns.bind (Prog.Returns.mono (quiet_returns h₄ fun _ => Quiet.of_state fun _ => rfl) ?_)
    intro t0 m₅ h₅
    rw [heos]
    have hloop : Emitted sid (shown sid m) x.historyTokenIds x.eosTokenIds
        (dropped.toList.map .historyTruncated ++ ([] : List Token).map .token) [] m₅ := by simpa using h₅
    have hleft : (([] : List Token).length : Int) + maxTokens.toNat ≤ maxTokens := by
      rw [List.length_nil]
      omega
    refine Prog.Returns.mono (generateLoop_returns vs kvLiveBytes verifier t0 maxTokens.toNat hloop hleft (by simp)) ?_
    rintro _ m' ⟨tokens, events, hprotocol, h'⟩
    exact ⟨x, tokens, events, hx, hprotocol, h'⟩

end Returns

end Stream

end KakeyaEngine
