import KakeyaEngine.Decode.ExactlyOnce
import KakeyaEngine.Session.Backends
import KakeyaEngine.Session.Conservation

/-!
# Entries for removed sessions

The resolver makes an entry for any id it is asked for, and only the removal callback drops one.  So an operation that
looked its session up before the removal and resolves it after leaves an entry that nobody drops.
When every resolve finds its session in the store, an entry is only ever held for a session of the store
(`entries_live`).
-/

namespace KakeyaEngine

/-- What the entries of the verifiers must satisfy: only a resolve makes one, and a removal drops it. -/
structure Verifiers.Entries {β η ε : Type} (vs : Verifiers β η ε) (Holds : β → SessionId → Prop) : Prop where
  resolve : ∀ sid b id, Holds (vs.resolve sid b).2 id → Holds b id ∨ id = sid
  remove : ∀ sid b id, sid ≠ "" → Holds (vs.remove sid b) id → Holds b id ∧ id ≠ sid
  kSeqLength : ∀ sid b id, Holds (vs.kSeqLength sid b).2 id → Holds b id ∨ id = sid
  prefill : ∀ sid h ts, (vs.prefill sid h ts).Steps fun b b' => ∀ id, Holds b' id → Holds b id
  append : ∀ sid h ts m b id, Holds ((vs.append sid h ts m).run b).2 id → Holds b id
  generateStep : ∀ sid h m b id, Holds ((vs.generateStep sid h m).run b).2 id → Holds b id

/-! ### The registry -/

namespace VerifierRegistry

variable {V ε : Type} (lv : LocalVerifier V ε)

/-- Whether the registry has an entry for a session. -/
def Holds (r : VerifierRegistry V) (sid : SessionId) : Prop := ∃ n, r.verifiers.get? sid = some n

instance (r : VerifierRegistry V) (sid : SessionId) : Decidable (r.Holds sid) :=
  decidable_of_iff (r.verifiers.contains sid = true) Dict.contains_iff

theorem get_holds {sid id : SessionId} {r : VerifierRegistry V} (h : (get sid r).2.Holds id) : r.Holds id ∨ id = sid := by
  obtain ⟨n, hn⟩ := h
  unfold get at hn
  split at hn
  · exact Or.inl ⟨n, hn⟩
  · dsimp only at hn
    by_cases hid : id = sid
    · exact Or.inr hid
    · rw [Dict.get?_set_ne _ hid] at hn
      exact Or.inl ⟨n, hn⟩

theorem onObject_verifiers {α : Type} (sid : SessionId) (n : Nat) (x : Proc V ε α) (r : VerifierRegistry V) :
    ((onObject sid n x).run r).2.verifiers = r.verifiers := by
  unfold onObject
  rw [Proc.run_focus]
  rcases x.run (r.objects sid n) with ⟨_ | _, _⟩ <;> rfl

theorem onObject_holds {α : Type} {sid : SessionId} {n : Nat} {x : Proc V ε α} {r : VerifierRegistry V}
    {id : SessionId} (hid : ((onObject sid n x).run r).2.Holds id) : r.Holds id := by
  unfold Holds at hid
  rw [onObject_verifiers] at hid
  exact hid

theorem entries : (backend lv).Entries Holds where
  resolve _ _ _ h := get_holds h
  remove sid b id _ h := by
    obtain ⟨n, hn⟩ := h
    have hn : (b.verifiers.erase sid).get? id = some n := hn
    by_cases hid : id = sid
    · rw [hid, Dict.get?_erase_self] at hn
      cases hn
    · rw [Dict.get?_erase_ne hid] at hn
      exact ⟨⟨n, hn⟩, hid⟩
  kSeqLength _ _ _ h := get_holds h
  prefill _ _ _ := Prog.Preserves.atomic fun _ _ _ _ => ⟨trivial, fun _ h => onObject_holds h⟩
  append _ _ _ _ _ _ h := onObject_holds h
  generateStep _ _ _ _ _ h := onObject_holds h

end VerifierRegistry

/-! ### The router -/

namespace Router

variable {V : Type} (ver : Verifier V)

/-- Whether the router or the child has anything of a session. -/
def Holds (r : Router V) (sid : SessionId) : Prop :=
  (∃ x, r.proxies.get? sid = some x) ∨ (∃ x, r.checkpoints.get? sid = some x) ∨
    (∃ x, r.restoredGeneration.get? sid = some x) ∨ ∃ v, r.slot sid = some v

/-- Of the sessions other than `sid`, the router has something only of those with `P`. -/
def HoldsOnly (sid : SessionId) (P : SessionId → Prop) (r : Router V) : Prop := ∀ id, id ≠ sid → r.Holds id → P id

variable {sid : SessionId} {P : SessionId → Prop}

theorem HoldsOnly.of_worker {r r' : Router V} (h : r.HoldsOnly sid P) (hbooks : ∃ w, r' = { r with worker := w })
    (hslot : ∀ id, id ≠ sid → r'.slot id = r.slot id ∨ r'.slot id = none) : r'.HoldsOnly sid P := by
  intro id hid hh
  refine h id hid ?_
  obtain ⟨w, rfl⟩ := hbooks
  rcases hh with hp | hc | hg | ⟨v, hv⟩
  · exact Or.inl hp
  · exact Or.inr (Or.inl hc)
  · exact Or.inr (Or.inr (Or.inl hg))
  · rcases hslot id hid with heq | hnone
    · exact Or.inr (Or.inr (Or.inr ⟨v, heq ▸ hv⟩))
    · rw [hnone] at hv
      cases hv

theorem requestLocked_holdsOnly (op : SessionOp) (cancelled : Bool) :
    Proc.Keeps (HoldsOnly (V := V) sid P) (requestLocked ver (.session sid op) cancelled) := by
  intro r hr
  rcases hq : (requestLocked ver (.session sid op) cancelled).run r with ⟨x, r'⟩
  rcases sessionRequestLocked_cases ver hq with ⟨e, -, -, rfl⟩ | ⟨reply, hserved, -, -⟩
  · exact hr.of_worker ⟨none, rfl⟩ fun _ _ => Or.inr rfl
  · obtain ⟨w, hw⟩ := hserved.books
    exact hr.of_worker ⟨some w, hw⟩ fun id hid => Or.inl (hserved.frame id hid)

theorem start_holdsOnly : Proc.Keeps (HoldsOnly (V := V) sid P) (start ver) := by
  intro r hr
  rcases hq : (start ver).run r with ⟨x, r'⟩
  have hempty : ∀ w : Option (Worker V), (∀ id, ((w.bind fun w => w.runtime.sessions.get? id) : Option V) = none) →
      ∀ n starts, HoldsOnly sid P { r with worker := w, generation := n, starts := starts } := by
    intro w hw n starts id hid hh
    refine hr id hid ?_
    rcases hh with hp | hc | hg | ⟨v, hv⟩
    · exact Or.inl hp
    · exact Or.inr (Or.inl hc)
    · exact Or.inr (Or.inr (Or.inl hg))
    · have hv : (w.bind fun w => w.runtime.sessions.get? id) = some v := hv
      rw [hw] at hv
      cases hv
  rcases start_cases ver hq with ⟨e, -, -, rfl⟩ | ⟨fate, -, rfl⟩
  · exact hempty none (fun _ => rfl) r.generation r.starts.tail
  · exact hempty (some ⟨⟨Dict.empty⟩, fate⟩) (fun _ => rfl) (r.generation + 1) r.starts.tail

theorem markCurrent_holdsOnly : Proc.Keeps (HoldsOnly (V := V) sid P) (markCurrent sid) := by
  intro r hr id hid hh
  refine hr id hid ?_
  rcases hh with hp | hc | ⟨g, hg⟩ | hv
  · exact Or.inl hp
  · exact Or.inr (Or.inl hc)
  · have hg : (r.restoredGeneration.set sid r.generation).get? id = some g := hg
    rw [Dict.get?_set_ne _ hid] at hg
    exact Or.inr (Or.inr (Or.inl ⟨g, hg⟩))
  · exact Or.inr (Or.inr (Or.inr hv))

theorem restoreSnapshot_holdsOnly (cp : ProofCheckpoint) :
    Proc.Keeps (HoldsOnly (V := V) sid P) (restoreSnapshot ver sid cp) := by
  unfold restoreSnapshot
  cases cp.snapshot with
  | none => exact Proc.Keeps.pure ()
  | some snapshot =>
    refine (requestLocked_holdsOnly ver _ _).bind fun _ => ?_
    split
    · exact Proc.Keeps.pure ()
    · exact (requestLocked_holdsOnly ver _ _).bind fun _ => Proc.Keeps.pure ()

theorem restoreLocked_holdsOnly : Proc.Keeps (HoldsOnly (V := V) sid P) (restoreLocked ver sid) := by
  unfold restoreLocked
  refine Proc.Keeps.get.bind fun r => ?_
  dsimp only
  split
  · exact Proc.Keeps.pure ()
  · refine (requestLocked_holdsOnly ver _ _).bind fun _ => ?_
    exact (restoreSnapshot_holdsOnly ver _).bind fun _ => markCurrent_holdsOnly

theorem attempts_holdsOnly (op : SessionOp) (cancelAt : Option Nat) :
    Proc.Keeps (HoldsOnly (V := V) sid P) (attempts ver sid op cancelAt) := by
  refine (requestLocked_holdsOnly ver _ _).handle fun e => ?_
  cases e with
  | unavailable m =>
    -- the second attempt
    refine Proc.Keeps.bind (fun r hr => hr) fun _ => ?_
    refine (start_holdsOnly ver).bind fun _ => ?_
    exact (restoreLocked_holdsOnly ver).bind fun _ => requestLocked_holdsOnly ver _ _
  | _ => exact Proc.Keeps.raise _

theorem sessionRequest_holdsOnly (op : SessionOp) (cancelAt : Option Nat) :
    Proc.Keeps (HoldsOnly (V := V) sid P) (sessionRequest ver sid op cancelAt) := by
  unfold sessionRequest
  refine Proc.Keeps.get.bind fun r => ?_
  split
  · exact (restoreLocked_holdsOnly ver).bind fun _ => attempts_holdsOnly ver op cancelAt
  · exact attempts_holdsOnly ver op cancelAt

theorem publish_holdsOnly {r : Router V} (hr : r.HoldsOnly sid P) (cp : ProofCheckpoint) (marks : Bool) (res : Result) :
    (r.publish sid cp marks res).HoldsOnly sid P := by
  intro id hid hh
  refine hr id hid ?_
  rcases hh with ⟨x, hp⟩ | ⟨x, hc⟩ | ⟨g, hg⟩ | hv
  · have hp : (r.applyState sid res).get? id = some x := hp
    refine Or.inl ⟨x, ?_⟩
    unfold applyState at hp
    split at hp
    · rwa [Dict.get?_set_ne _ hid] at hp
    · exact hp
  · have hc : (r.checkpoints.set sid cp).get? id = some x := hc
    rw [Dict.get?_set_ne _ hid] at hc
    exact Or.inr (Or.inl ⟨x, hc⟩)
  · refine Or.inr (Or.inr (Or.inl ⟨g, ?_⟩))
    unfold publish at hg
    cases marks with
    | false => exact hg
    | true =>
      have hg : (r.restoredGeneration.set sid r.generation).get? id = some g := hg
      rwa [Dict.get?_set_ne _ hid] at hg
  · exact Or.inr (Or.inr (Or.inr hv))

/-- A procedure that looks the checkpoint up first makes no entry for a session without one. -/
theorem checkpointLocked_holds {α : Type} {f : ProofCheckpoint → RouterProc V α}
    (hf : ∀ P cp, Proc.Keeps (HoldsOnly sid P) (f cp)) {r : Router V} {id : SessionId}
    (h : ((checkpointLocked sid >>= f).run r).2.Holds id) : r.Holds id := by
  unfold checkpointLocked at h
  rw [Proc.run_bind, Proc.run_get_bind] at h
  cases hc : r.checkpoints.get? sid with
  | none =>
    simp only [hc] at h
    exact h
  | some cp =>
    simp only [hc] at h
    by_cases hid : id = sid
    · rw [hid]
      exact Or.inr (Or.inl ⟨cp, hc⟩)
    · exact hf (fun id => r.Holds id) cp r (fun _ _ h => h) id hid h

theorem commitRequest_holds {op : SessionOp} {cancelAt : Option Nat} {commit : ProofCheckpoint → Result → ProofCheckpoint}
    {marks : Bool} {r : Router V} {id : SessionId}
    (h : ((commitRequest ver sid op cancelAt commit marks).run r).2.Holds id) : r.Holds id := by
  refine checkpointLocked_holds (fun P cp => ?_) h
  refine (sessionRequest_holdsOnly ver op cancelAt).bind fun state => ?_
  exact (Proc.Keeps.modify fun r hr => publish_holdsOnly hr _ _ _).bind fun _ => Proc.Keeps.pure state

theorem importSnapshot_holds {payload : Bytes} {compatibility : CacheCompatibility} {r : Router V} {id : SessionId}
    (h : ((importSnapshot ver sid payload compatibility).run r).2.Holds id) : r.Holds id := by
  refine checkpointLocked_holds (fun P cp => ?_) h
  refine (sessionRequest_holdsOnly ver _ _).bind fun _ => ?_
  refine (sessionRequest_holdsOnly ver _ _).bind fun state => ?_
  exact (Proc.Keeps.modify fun r hr => publish_holdsOnly hr _ _ _).bind fun _ => Proc.Keeps.pure state

theorem performProxy_holds {m : Moment} {c : ProxyCall} {r : Router V} {id : SessionId}
    (h : ((performProxy ver sid m c).run r).2.Holds id) : r.Holds id := by
  cases c with
  | prefill ts => exact commitRequest_holds ver h
  | appendAcceptedTokens ts => exact commitRequest_holds ver h
  | importSnapshot p c => exact importSnapshot_holds ver h
  | reset => exact commitRequest_holds ver h

theorem act_holds {t : Turn} {r : Router V} {id : SessionId} (h : (act ver t r).Holds id) : r.Holds id := by
  have hworker : ∀ w : Option (Worker V), (∀ id, ({ r with worker := w } : Router V).slot id = r.slot id ∨
      ({ r with worker := w } : Router V).slot id = none) → ({ r with worker := w } : Router V).Holds id → r.Holds id := by
    intro w hw hh
    rcases hh with hp | hc | hg | ⟨v, hv⟩
    · exact Or.inl hp
    · exact Or.inr (Or.inl hc)
    · exact Or.inr (Or.inr (Or.inl hg))
    · rcases hw id with heq | hnone
      · exact Or.inr (Or.inr (Or.inr ⟨v, heq ▸ hv⟩))
      · rw [hnone] at hv
        cases hv
  cases t with
  | fate fate =>
    have h : ({ r with worker := r.worker.map fun w => { w with fate := fate } } : Router V).Holds id := h
    refine hworker _ (fun id => Or.inl ?_) h
    unfold slot
    cases r.worker <;> rfl
  | hardKill => exact hworker none (fun _ => Or.inr rfl) h
  | health =>
    rcases hq : (requestLocked ver .health false).run r with ⟨x, r'⟩
    have hact : act ver .health r = r' := by
      have h2 := Proc.run_map (requestLocked ver .health false) some r
      rw [hq] at h2
      exact congrArg Prod.snd h2
    rw [hact] at h
    rcases requestLocked_cases ver hq with ⟨e, -, -, rfl⟩ | ⟨w, w', reply, hw, -, -, hserve, -, rfl⟩
    · exact hworker none (fun _ => Or.inr rfl) h
    · refine hworker (some w') (fun id => Or.inl ?_) h
      have hrt : w.runtime = w'.runtime := congrArg Prod.snd hserve
      unfold slot
      rw [hw]
      exact congrArg (fun rt => rt.sessions.get? id) hrt.symm

theorem runScript_steps (s : Script) :
    (runScript ver sid s).Steps fun r r' => ∀ id, r'.Holds id → r.Holds id := by
  induction s with
  | finish r => exact trivial
  | call c next ih =>
    intro m r _ _
    exact ⟨trivial, fun id h => performProxy_holds ver h, ih _⟩

/-- `close_session` drops what the router and the child have of the session, whether or not the child replies. -/
theorem closeSession_forgets (hsid : sid ≠ "") (r : Router V) :
    ∃ w, ((closeSession ver sid).run r).2 = ({ r with worker := w } : Router V).forget sid ∧
      ({ r with worker := w } : Router V).slot sid = none ∧
      ∀ id, id ≠ sid → ({ r with worker := w } : Router V).slot id = r.slot id ∨
        ({ r with worker := w } : Router V).slot id = none := by
  have hlost : ∀ m, (requestLocked ver (.session sid .close) false).run r =
      (.error (.unavailable m), { r with worker := none }) →
      ((closeSession ver sid).run r).2 = ({ r with worker := none } : Router V).forget sid := by
    intro m hq
    unfold closeSession
    rw [Proc.run_bind, Proc.run_handle, Proc.run_bind_error hq]
    rfl
  by_cases hanswered : (Request.session sid .close).fits = false ∨ ¬ r.Lasts 1
  · obtain ⟨m, hm⟩ := requestLocked_unanswered ver (.session sid .close) hanswered
    exact ⟨none, hlost m hm, rfl, fun _ _ => Or.inr rfl⟩
  · obtain ⟨hfit, hlast⟩ := not_or.1 hanswered
    obtain ⟨res, hserve⟩ : ∃ res, serveSession ver sid .close (r.slot sid) = (.ok res, none) := by
      rcases hq : serveSession ver sid .close (r.slot sid) with ⟨reply, slot'⟩
      rcases serve_close hq with ⟨rfl, res, rfl⟩ | ⟨-, e, rfl, -⟩
      · exact ⟨res, rfl⟩
      · unfold serveSession dispatchSession at hq
        simp only [hsid, if_false, closed_fits, if_true] at hq
        cases (Prod.mk.inj hq).1
    obtain ⟨r₁, hrun, hserved, -⟩ := requestLocked_answered ver (not_not.1 hlast) (by simpa using hfit) hserve
    obtain ⟨w, rfl⟩ := hserved.books
    refine ⟨some w, ?_, hserved.close_slot, fun id hid => Or.inl (hserved.frame id hid)⟩
    unfold closeSession
    rw [Proc.run_bind, Proc.run_handle, Proc.run_bind_ok hrun]
    rfl

theorem forget_holds {r : Router V} {id : SessionId} (hslot : r.slot sid = none) (h : (r.forget sid).Holds id) :
    r.Holds id ∧ id ≠ sid := by
  have hslots : (r.forget sid).slot id = r.slot id := rfl
  unfold Holds at h
  rw [hslots] at h
  simp only [forget, Dict.get?_erase] at h
  by_cases hid : id = sid
  · simp [hid, hslot] at h
  · simp only [hid, if_false] at h
    exact ⟨h, hid⟩

theorem closeSession_holds (hsid : sid ≠ "") {r : Router V} {id : SessionId}
    (h : ((closeSession ver sid).run r).2.Holds id) : r.Holds id ∧ id ≠ sid := by
  obtain ⟨w, hrun, hslot, hframe⟩ := closeSession_forgets ver hsid r
  rw [hrun] at h
  obtain ⟨hholds, hne⟩ := forget_holds hslot h
  refine ⟨?_, hne⟩
  rcases hholds with hp | hc | hg | ⟨v, hv⟩
  · exact Or.inl hp
  · exact Or.inr (Or.inl hc)
  · exact Or.inr (Or.inr (Or.inl hg))
  · rcases hframe id hne with heq | hnone
    · exact Or.inr (Or.inr (Or.inr ⟨v, heq ▸ hv⟩))
    · rw [hnone] at hv
      cases hv

theorem get_holds {r : Router V} {id : SessionId} (h : ((get sid).run r).2.Holds id) : r.Holds id ∨ id = sid := by
  by_cases hid : id = sid
  · exact Or.inr hid
  · refine Or.inl ?_
    unfold get at h
    rw [Proc.run_modify] at h
    split at h
    · exact h
    · rcases h with ⟨x, hx⟩ | ⟨x, hx⟩ | hg | hv
      · have hx : (r.proxies.set sid {}).get? id = some x := hx
        rw [Dict.get?_set_ne _ hid] at hx
        exact Or.inl ⟨x, hx⟩
      · dsimp only at hx
        split at hx
        · exact Or.inr (Or.inl ⟨x, hx⟩)
        · rw [Dict.get?_set_ne _ hid] at hx
          exact Or.inr (Or.inl ⟨x, hx⟩)
      · exact Or.inr (Or.inr (Or.inl hg))
      · exact Or.inr (Or.inr (Or.inr hv))

theorem entries (cold : SessionId → List Token → Script) : (backend ver cold).Entries Holds where
  resolve _ _ _ h := get_holds h
  remove _ _ _ hsid h := closeSession_holds ver hsid h
  kSeqLength _ _ _ h := get_holds h
  prefill sid _ ts := runScript_steps ver (cold sid ts)
  append sid _ ts m b id h := by
    have h : ((appendAcceptedTokens ver sid ts m.cancelAt >>= fun _ => pure ()).run b).2.Holds id := h
    rw [Proc.run_map_snd] at h
    exact commitRequest_holds ver h
  generateStep sid _ m b id h := by
    have h : ((generateStep ver sid m.cancelAt >>= fun res => pure (resultToken res)).run b).2.Holds id := h
    rw [Proc.run_map_snd] at h
    exact commitRequest_holds ver h

end Router

/-! ### Runs of the server -/

namespace Server

variable {β η ε : Type} {vs : Verifiers β η ε} {Holds : β → SessionId → Prop}

/-- Entries are held for sessions of the store only. -/
structure Tracked (Holds : β → SessionId → Prop) (s : Server β ε) : Prop where
  consistent : s.store.Consistent
  hasCallback : s.store.hasCallback = true
  named : ∀ id, s.store.Live id → id ≠ ""
  entries : ∀ id, Holds s.verifiers id → s.store.Live id

/-- No session comes into the store. -/
def NoneNew (s s' : Server β ε) : Prop := ∀ id, s'.store.Live id → s.store.Live id

theorem foldl_remove_holds (hvs : vs.Entries Holds) {ids : List SessionId} (hids : ∀ id ∈ ids, id ≠ "") {b : β}
    {id : SessionId} (h : Holds (ids.foldl (fun b sid => vs.remove sid b) b) id) : Holds b id ∧ id ∉ ids := by
  induction ids generalizing b with
  | nil => exact ⟨h, List.not_mem_nil⟩
  | cons sid ids ih =>
    obtain ⟨hb, hmem⟩ := ih (fun i hi => hids i (List.mem_cons_of_mem sid hi)) h
    obtain ⟨hb, hne⟩ := hvs.remove sid b id (hids sid List.mem_cons_self) hb
    refine ⟨hb, ?_⟩
    rw [List.mem_cons, not_or]
    exact ⟨hne, hmem⟩

/-- A call of the store tells the verifiers of the sessions that it removed. -/
theorem callStore_tracked (hvs : vs.Entries Holds) {α : Type} {x : SessionProc α} {s : Server β ε} (hs : s.Tracked Holds)
    {issued : Option SessionId} (hissued : ∀ id, issued = some id → id ≠ "") (hx : (x.run s.store).2.Consistent)
    (hstep : SessionStore.Stepped issued s.store (x.run s.store).2) :
    ((callStore vs x).run s).2.Tracked Holds := by
  obtain ⟨new, hnew, hspec⟩ := hstep.notified
  obtain ⟨-, hgone⟩ := hspec hs.hasCallback
  have hdrop : (x.run s.store).2.notified.drop s.store.notified.length = new := by rw [hnew, List.drop_left]
  have hnamed : ∀ id, (x.run s.store).2.Live id → id ≠ "" := by
    intro id hid
    rcases hstep.live id hid with h | h
    · exact hs.named id h
    · exact hissued id h
  refine ⟨hx, hstep.hasCallback.trans hs.hasCallback, hnamed, ?_⟩
  intro id hid
  have hid : Holds (((x.run s.store).2.notified.drop s.store.notified.length).map Prod.fst |>.foldl
      (fun b sid => vs.remove sid b) s.verifiers) id := hid
  rw [hdrop] at hid
  obtain ⟨hold, hmem⟩ := foldl_remove_holds hvs (fun i hi => hs.named i ((hgone i).1 hi).1) hid
  by_contra hlive
  exact hmem ((hgone id).2 ⟨hs.entries id hold, hlive⟩)

theorem callStore_lowers (hvs : vs.Entries Holds) {α : Type} {x : SessionProc α} (hx : SessionStore.Lowers x)
    {s : Server β ε} (hs : s.Tracked Holds) :
    ((callStore vs x).run s).2.Tracked Holds ∧ NoneNew s ((callStore vs x).run s).2 := by
  obtain ⟨hcons, hshrink⟩ := hx s.store hs.consistent
  exact ⟨callStore_tracked hvs hs (by simp) hcons hshrink, fun id hid => hshrink.live_of hid⟩

/-- A change of the verifiers that makes entries for sessions of the store only. -/
theorem Tracked.verifiers {s : Server β ε} (hs : s.Tracked Holds) {b : β}
    (hb : ∀ id, Holds b id → Holds s.verifiers id ∨ s.store.Live id) :
    ({ s with verifiers := b } : Server β ε).Tracked Holds :=
  ⟨hs.consistent, hs.hasCallback, hs.named, fun id hid => (hb id hid).elim (hs.entries id) fun h => h⟩

/-- A resolve finds its session in the store. -/
def ResolvesLive (k : StepLabel) (s : Server β ε) : Prop :=
  match k with
  | .resolve sid => s.store.Live sid
  | .other => True

/-- What the steps of the operations keep. -/
abbrev Tracks (Holds : β → SessionId → Prop) {α : Type} (p : ServerProg β ε α) : Prop :=
  p.Preserves ResolvesLive (Tracked Holds) NoneNew

theorem callStore_tracks (hvs : vs.Entries Holds) {α : Type} {x : Moment → SessionProc α}
    (hx : ∀ m, SessionStore.Lowers (x m)) : Tracks Holds (.atomic .other fun m => callStore vs (x m)) :=
  Prog.Preserves.atomic fun m _ hs _ => callStore_lowers hvs (hx m) hs

theorem resolve_tracks (hvs : vs.Entries Holds) (sid : SessionId) :
    Tracks Holds (.atomic (.resolve sid) fun _ => resolve vs sid : ServerProg β ε η) := by
  refine Prog.Preserves.atomic fun _ s hs hlive => ⟨hs.verifiers fun id hid => ?_, fun _ h => h⟩
  rcases hvs.resolve sid s.verifiers id hid with h | rfl
  · exact Or.inl h
  · exact Or.inr hlive

theorem callVerifier_tracks {α : Type} {x : Moment → Proc β ε α}
    (hx : ∀ m b id, Holds ((x m).run b).2 id → Holds b id) :
    Tracks Holds (.atomic .other fun m => callVerifier (x m)) := by
  refine Prog.Preserves.atomic fun m s hs _ => ?_
  have hrun : ((callVerifier (x m)).run s).2 = { s with verifiers := ((x m).run s.verifiers).2 } := by
    unfold callVerifier
    rw [Proc.run_focus]
    rcases (x m).run s.verifiers with ⟨_ | _, _⟩ <;> rfl
  rw [hrun]
  exact ⟨hs.verifiers fun id hid => Or.inl (hx m s.verifiers id hid), fun _ h => h⟩

/-- A step that leaves the store and the verifiers as they are. -/
theorem still_tracks {α : Type} {x : Moment → ServerProc β ε α}
    (hx : ∀ m s, ((x m).run s).2.store = s.store ∧ ((x m).run s).2.verifiers = s.verifiers) :
    Tracks Holds (.atomic .other x) := by
  refine Prog.Preserves.atomic fun m s hs _ => ?_
  obtain ⟨hstore, hver⟩ := hx m s
  refine ⟨⟨?_, ?_, ?_, ?_⟩, ?_⟩
  · rw [hstore]
    exact hs.consistent
  · rw [hstore]
    exact hs.hasCallback
  · rw [hstore]
    exact hs.named
  · rw [hstore, hver]
    exact hs.entries
  · unfold NoneNew
    rw [hstore]
    exact fun _ h => h

theorem inspect_run (hvs : vs.Entries Holds) (sid : SessionId) (ts : List Token) {s : Server β ε}
    (hs : s.Tracked Holds) :
    ∃ k s', (inspect vs sid ts).run s = (.ok k, s') ∧ s'.Tracked Holds ∧ NoneNew s s' := by
  by_cases hask : asksInspector s.store sid ts = true
  · refine ⟨_, _, if_pos hask, hs.verifiers fun id hid => ?_, fun _ h => h⟩
    rcases hvs.kSeqLength sid s.verifiers id hid with h | rfl
    · exact Or.inl h
    · unfold asksInspector at hask
      rw [Bool.and_eq_true, Bool.and_eq_true] at hask
      exact Or.inr (Dict.contains_iff.1 hask.1.2)
  · exact ⟨0, s, if_neg hask, hs, fun _ h => h⟩

theorem storeAppend_tracks (hvs : vs.Entries Holds) (sid : SessionId) (ts : List Token) :
    Tracks Holds (.atomic .other fun m => storeAppend vs sid ts m.clock : ServerProg β ε Nat) := by
  refine Prog.Preserves.atomic fun m s hs _ => ?_
  obtain ⟨k, s', hrun, hs', hnew⟩ := inspect_run hvs sid ts hs
  unfold storeAppend
  rw [Proc.run_bind_ok hrun]
  obtain ⟨h, h'⟩ := callStore_lowers hvs (SessionStore.appendTokens_lowers (fun _ => none) sid ts m.clock (.ok k)) hs'
  exact ⟨h, fun id hid => hnew id (h' id hid)⟩

theorem recordPosition_tracks (hvs : vs.Entries Holds) (sid : SessionId) (h : η) :
    Tracks Holds (.atomic .other fun m => recordPosition vs sid h m.clock : ServerProg β ε Unit) := by
  refine Prog.Preserves.atomic fun m s hs _ => ?_
  unfold recordPosition
  rw [Proc.run_get_bind]
  exact callStore_lowers hvs (SessionStore.recordPositionAdvance_lowers (fun _ => none) sid _ m.clock) hs

theorem mirror_tracks (hvs : vs.Entries Holds) (sid : SessionId) (h : η) :
    Tracks Holds (.atomic .other fun _ => mirror vs sid h : ServerProg β ε Unit) := by
  refine Prog.Preserves.atomic fun m s hs _ => ?_
  unfold mirror
  rw [Proc.run_get_bind]
  cases hx : s.store.sessions.get? sid with
  | none => exact ⟨hs, fun _ h => h⟩
  | some x => exact callStore_lowers hvs (SessionStore.syncSession_lowers sid _ _) hs

theorem touch_tracks (hvs : vs.Entries Holds) (sid : SessionId) :
    Tracks Holds (.atomic .other fun m => touch vs sid m.clock : ServerProg β ε Unit) := by
  refine Prog.Preserves.atomic fun m s hs _ => ?_
  unfold touch
  rw [Proc.run_get_bind]
  cases hx : s.store.sessions.get? sid with
  | none => exact ⟨hs, fun _ h => h⟩
  | some x => exact callStore_lowers hvs (SessionStore.syncSession_lowers sid _ _) hs

theorem checkCancelled_tracks (message : String) :
    Tracks Holds (.atomic .other (checkCancelled message) : ServerProg β ε Unit) := by
  refine still_tracks fun m s => ?_
  unfold checkCancelled
  cases m.cancelled
  · exact ⟨rfl, rfl⟩
  · exact ⟨rfl, rfl⟩

theorem reveal_tracks (sid : SessionId) (o : Moment → Observation ε) :
    Tracks Holds (.atomic .other fun m => reveal sid (o m) : ServerProg β ε Unit) :=
  still_tracks fun _ _ => ⟨rfl, rfl⟩

theorem drive_tracks (hvs : vs.Entries Holds) (sid : SessionId) (session : Session) (h : η) (ts : List Token) :
    Tracks Holds (drive vs sid session h ts : ServerProg β ε Unit) := by
  unfold drive
  split
  · exact Prog.Preserves.focus (hvs.prefill sid h ts) fun s b hs hb =>
      ⟨hs.verifiers fun id hid => Or.inl (hb id hid), fun _ hlive => hlive⟩
  · exact callVerifier_tracks fun m b id hid => hvs.append sid h ts m b id hid

theorem appendTokens_tracks (hvs : vs.Entries Holds) (sid : SessionId) (ts : List Token) :
    Tracks Holds (appendTokens vs sid ts : ServerProg β ε Nat) := by
  refine (checkCancelled_tracks _).bind fun _ => ?_
  refine (callStore_tracks hvs fun _ => SessionStore.getSession_lowers sid).bind fun session => ?_
  refine (resolve_tracks hvs sid).bind fun verifier => ?_
  split
  · exact (touch_tracks hvs sid).bind fun _ => trivial
  · refine (drive_tracks hvs sid session verifier ts).bind fun _ => ?_
    refine (checkCancelled_tracks _).bind fun _ => ?_
    refine (mirror_tracks hvs sid verifier).bind fun _ => ?_
    refine (storeAppend_tracks hvs sid ts).bind fun _ => ?_
    exact (recordPosition_tracks hvs sid verifier).bind fun _ => trivial

theorem generateLoop_tracks (hvs : vs.Entries Holds) (sid : SessionId) (h : η) (eos : List Token) (t0 : Int)
    (n count : Nat) : Tracks Holds (generateLoop vs sid h eos t0 n count : ServerProg β ε Unit) := by
  induction n generalizing count with
  | zero => exact reveal_tracks sid _
  | succ n ih =>
    refine (still_tracks fun _ _ => ⟨rfl, rfl⟩).bind fun cancelled => ?_
    split
    · exact reveal_tracks sid _
    · refine (callVerifier_tracks fun m b id hid => hvs.generateStep sid h m b id hid).bind fun nextToken => ?_
      refine (mirror_tracks hvs sid h).bind fun _ => ?_
      refine (storeAppend_tracks hvs sid [nextToken]).bind fun _ => ?_
      refine (recordPosition_tracks hvs sid h).bind fun _ => ?_
      refine (reveal_tracks sid _).bind fun _ => ?_
      split
      · exact reveal_tracks sid _
      · exact ih (count + 1)

theorem generateEvents_tracks (hvs : vs.Entries Holds) (sid : SessionId) (maxTokens : Int) (sampling : Sampling) :
    Tracks Holds (generateEvents vs sid maxTokens sampling : ServerProg β ε Unit) := by
  refine Prog.Preserves.bind (still_tracks fun _ s => ?_) fun _ => ?_
  · cases checkArguments (ε := ε) maxTokens sampling
    · exact ⟨rfl, rfl⟩
    · exact ⟨rfl, rfl⟩
  refine (callStore_tracks hvs fun _ => SessionStore.getSession_lowers sid).bind fun session => ?_
  refine (resolve_tracks hvs sid).bind fun verifier => ?_
  split
  · exact trivial
  · refine Prog.Preserves.bind ?_ fun _ => ?_
    · unfold yieldTruncated
      split
      · exact reveal_tracks sid _
      · exact trivial
    · refine (still_tracks fun _ _ => ⟨rfl, rfl⟩).bind fun t0 => ?_
      exact generateLoop_tracks hvs sid verifier session.eosTokenIds t0 maxTokens.toNat 0

/-- Every operation keeps entries to the sessions of the store, as long as it resolves sessions of the store. -/
theorem program_tracks (hvs : vs.Entries Holds) (sid : SessionId) (op : Operation) :
    Tracks Holds (program vs sid op : ServerProg β ε Unit) := by
  cases op with
  | appendTokens ts => exact (appendTokens_tracks hvs sid ts).andThen fun r => reveal_tracks sid _
  | generate maxTokens sampling =>
    refine Prog.Preserves.andThen ?_ fun r => reveal_tracks sid _
    refine Prog.Preserves.bind (still_tracks fun _ s => ?_) fun _ => ?_
    · unfold enterGuard
      rw [Proc.run_get_bind]
      split
      · exact ⟨rfl, rfl⟩
      · exact ⟨rfl, rfl⟩
    · refine (generateEvents_tracks hvs sid maxTokens sampling).andThen fun r => ?_
      exact (still_tracks fun _ _ => ⟨rfl, rfl⟩).bind fun _ => trivial

/-- The id that a step issues. -/
def issuedId {ρ : Type} : Move Moment SessionId Operation (ServerEvent ρ) → Option SessionId
  | .turn (.createSession hex _ _ _ _) => some (issueId hex)
  | _ => none

/-- The ids that a run issues. -/
def issuedIds {ρ : Type} (run : List (Move Moment SessionId Operation (ServerEvent ρ))) : List SessionId :=
  run.filterMap issuedId

/-- No entry is held for a session that is not in the store and has no operation in flight. -/
def NoLeak (Holds : β → SessionId → Prop) (p : Running β ε) : Prop :=
  ∀ sid, ¬ p.shared.store.Live sid → InFlight p sid = false → ¬ Holds p.shared.verifiers sid

/-- A step that resolves a session finds it in the store. -/
def Timely {ρ : Type} (p : Running β ε) (m : Move Moment SessionId Operation (ServerEvent ρ)) : Prop :=
  ∀ sid, p.label m = some (.resolve sid) → p.shared.store.Live sid

instance {ρ : Type} (p : Running β ε) (m : Move Moment SessionId Operation (ServerEvent ρ)) : Decidable (Timely p m) :=
  match h : p.label m with
  | some (.resolve sid) =>
    decidable_of_iff (p.shared.store.Live sid) ⟨fun hl sid' hs => by simp_all, fun ht => ht sid h⟩
  | some .other => isTrue fun sid hs => by simp_all
  | none => isTrue fun sid hs => by simp_all

section

variable {ρ : Type} {act : ρ → β → β}

theorem issueId_ne (hex : String) : issueId hex ≠ "" := by
  intro h
  have := congrArg String.length h
  rw [issueId, String.length_append] at this
  simp at this

/-- An event keeps entries to the sessions of the store, provided the id it issues is new. -/
theorem turn_tracked (hvs : vs.Entries Holds) (hact : ∀ t b id, Holds (act t b) id → Holds b id) {s : Server β ε}
    (hs : s.Tracked Holds) (e : ServerEvent ρ)
    (hnew : ∀ id, issuedId (.turn e) = some id → ¬ s.store.Live id) :
    (turn vs act e s).Tracked Holds ∧
      ∀ id, (turn vs act e s).store.Live id → s.store.Live id ∨ issuedId (.turn e) = some id := by
  cases e with
  | createSession hex eos label created active =>
    obtain ⟨hcons, hstep, -⟩ :=
      SessionStore.createSession_spec hs.consistent (fun _ => none) (hnew _ rfl) eos label created active
    refine ⟨callStore_tracked hvs hs (fun id hid => ?_) hcons hstep, fun id hid => hstep.live id hid⟩
    rw [← Option.some.inj hid]
    exact issueId_ne hex
  | closeSession sid =>
    obtain ⟨h, h'⟩ := callStore_lowers hvs (SessionStore.closeSession_lowers (fun _ => none) sid) hs
    exact ⟨h, fun id hid => Or.inl (h' id hid)⟩
  | removeSessionIfPresent sid reason =>
    obtain ⟨h, h'⟩ := callStore_lowers hvs (SessionStore.removeSessionIfPresent_lowers (fun _ => none) sid reason) hs
    exact ⟨h, fun id hid => Or.inl (h' id hid)⟩
  | evictIdle ttl clock =>
    obtain ⟨h, h'⟩ := callStore_lowers hvs (SessionStore.evictIdle_lowers (fun _ => none) ttl clock) hs
    exact ⟨h, fun id hid => Or.inl (h' id hid)⟩
  | verifiers t => exact ⟨hs.verifiers fun id hid => Or.inl (hact t _ id hid), fun id hid => Or.inl hid⟩

theorem step_tracked (hvs : vs.Entries Holds) (hact : ∀ t b id, Holds (act t b) id → Holds b id) {p : Running β ε}
    {m : Move Moment SessionId Operation (ServerEvent ρ)} (hp : p.Preserving ResolvesLive (Tracked Holds) NoneNew)
    (hlive : Timely p m) (hnew : ∀ id, issuedId m = some id → ¬ p.shared.store.Live id) :
    (step vs act p m).2.Preserving ResolvesLive (Tracked Holds) NoneNew ∧
      ∀ id, (step vs act p m).2.shared.store.Live id → p.shared.store.Live id ∨ issuedId m = some id := by
  have hlabel : ∀ k, p.label m = some k → ResolvesLive k p.shared := by
    intro k hk
    cases k with
    | resolve sid => exact hlive sid hk
    | other => trivial
  have hmove : (∀ e, m ≠ .turn e) → (step vs act p m).2.Preserving ResolvesLive (Tracked Holds) NoneNew ∧
      NoneNew p.shared (step vs act p m).2.shared := fun hm =>
    Pool.move_preserving (program_tracks hvs) (fun _ _ h => h) hp hlabel fun e he => absurd he (hm e)
  cases m with
  | turn e =>
    obtain ⟨h, h'⟩ := turn_tracked hvs hact hp.1 e hnew
    exact ⟨⟨h, hp.2⟩, h'⟩
  | start n op =>
    obtain ⟨h, h'⟩ := hmove (by simp)
    exact ⟨h, fun id hid => Or.inl (h' id hid)⟩
  | step n i =>
    obtain ⟨h, h'⟩ := hmove (by simp)
    exact ⟨h, fun id hid => Or.inl (h' id hid)⟩

theorem final_tracked (hvs : vs.Entries Holds) (hact : ∀ t b id, Holds (act t b) id → Holds b id)
    (run : List (Move Moment SessionId Operation (ServerEvent ρ))) {p : Running β ε}
    (hp : p.Preserving ResolvesLive (Tracked Holds) NoneNew) (hfresh : (issuedIds run).Nodup)
    (hnew : ∀ id ∈ issuedIds run, ¬ p.shared.store.Live id)
    (hlive : Machine.AllSteps (step vs act) Timely p run) :
    (Machine.final (step vs act) p run).shared.Tracked Holds := by
  induction run generalizing p with
  | nil => exact hp.1
  | cons m run ih =>
    have hcons : issuedIds (m :: run) = (issuedId m).toList ++ issuedIds run := by
      unfold issuedIds
      cases h : issuedId m <;> simp [h]
    rw [hcons, List.nodup_append] at hfresh
    obtain ⟨-, hrest, hdisj⟩ := hfresh
    have hmem : ∀ id, issuedId m = some id → id ∈ (issuedId m).toList := fun id h => by simp [h]
    obtain ⟨hp', hlive'⟩ := step_tracked hvs hact hp hlive.1 fun id hid =>
      hnew id (by rw [hcons]; exact List.mem_append_left _ (hmem id hid))
    refine ih hp' hrest (fun id hid h => ?_) hlive.2
    rcases hlive' id h with h | h
    · exact hnew id (by rw [hcons]; exact List.mem_append_right _ hid) h
    · exact hdisj id (hmem id h) id hid rfl

/-- A run whose resolves all find their session in the store holds entries for sessions of the store only. -/
theorem entries_live (hvs : vs.Entries Holds) (hact : ∀ t b id, Holds (act t b) id → Holds b id) {b₀ : β}
    (hnone : ∀ id, ¬ Holds b₀ id) {capacity : Int} {hasInspector : Bool} {pool : Option SlabPool} {s₀ : SessionStore}
    (hs : SessionStore.create capacity hasInspector pool true = .ok s₀)
    (hpool : ∀ p, pool = some p → ∃ n, SlabPool.create n = .ok p)
    {run : List (Move Moment SessionId Operation (ServerEvent ρ))} (hfresh : (issuedIds run).Nodup)
    (hlive : Machine.AllSteps (step vs act) Timely (started s₀ b₀) run) :
    NoLeak Holds (Machine.final (step vs act) (started (ε := ε) s₀ b₀) run) := by
  obtain ⟨hcons, hempty, -, hcb, -⟩ := SessionStore.create_consistent hs hpool
  have hstart : (started (ε := ε) s₀ b₀).Preserving ResolvesLive (Tracked Holds) NoneNew := by
    refine ⟨⟨hcons, hcb, fun id hid => absurd hid (hempty id), fun id hid => absurd hid (hnone id)⟩, ?_⟩
    intro n q hq
    cases hq
  have htracked := final_tracked hvs hact run hstart hfresh (fun id _ => hempty id) hlive
  intro sid hgone _ hholds
  exact hgone (htracked.entries sid hholds)

end

end Server

/-- In every run in which no id is issued twice and every resolve finds its session in the store, neither the registry nor
the router has an entry for a session that is removed and without an operation in flight. -/
theorem removed_sessions_leave_no_entry {V ε W : Type} (lv : LocalVerifier V ε) (ver : Verifier W)
    (cold : SessionId → List Token → Script) {capacity : Int} {hasInspector : Bool} {pool : Option SlabPool}
    {s₀ : SessionStore} (hs : SessionStore.create capacity hasInspector pool true = .ok s₀)
    (hpool : ∀ p, pool = some p → ∃ n, SlabPool.create n = .ok p) :
    (∀ run, (Server.issuedIds run).Nodup →
      Machine.AllSteps (Server.step (VerifierRegistry.backend lv) Empty.elim) Server.Timely
        (Server.started s₀ (VerifierRegistry.initial lv)) run →
      Server.NoLeak VerifierRegistry.Holds (Machine.final (Server.step (VerifierRegistry.backend lv) Empty.elim)
        (Server.started s₀ (VerifierRegistry.initial lv)) run)) ∧
    (∀ starts run, (Server.issuedIds run).Nodup →
      Machine.AllSteps (Server.step (Router.backend ver cold) (Router.act ver)) Server.Timely
        (Server.started s₀ (Router.launched starts)) run →
      Server.NoLeak Router.Holds (Machine.final (Server.step (Router.backend ver cold) (Router.act ver))
        (Server.started s₀ (Router.launched starts)) run)) := by
  constructor
  · intro run hfresh hlive
    refine Server.entries_live (VerifierRegistry.entries lv) (fun t => t.elim) ?_ hs hpool hfresh hlive
    rintro id ⟨n, hn⟩
    cases hn
  · intro starts run hfresh hlive
    refine Server.entries_live (Router.entries ver cold) (fun t b id h => Router.act_holds ver h) ?_ hs hpool hfresh hlive
    rintro id (⟨x, hx⟩ | ⟨x, hx⟩ | ⟨x, hx⟩ | ⟨x, hx⟩)
    · cases hx
    · cases hx
    · cases hx
    · cases hx

/-! ### A resolve after the removal -/

/-- An append of one token to the session, and the steps it makes in a row. -/
def appendSteps (n : Nat) : List (Move Moment SessionId Server.Operation (Server.ServerEvent Empty)) :=
  List.replicate n (.step ("sess-0", 0) ⟨0, none⟩)

/-- The session is closed after the append has looked it up and before it resolves its verifier. -/
def lateResolveRun : List (Move Moment SessionId Server.Operation (Server.ServerEvent Empty)) :=
  [.turn (.createSession "0" [] "" 0 0), .start ("sess-0", 0) (.appendTokens [7])] ++ appendSteps 2 ++
    [.turn (.closeSession "sess-0")] ++ appendSteps 6

/-- The append fails for want of its session and leaves an entry for it. -/
theorem late_resolve_leaks :
    ∃ s₀, SessionStore.create 1 true none true = .ok s₀ ∧ (Server.issuedIds lateResolveRun).Nodup ∧
      ¬ Server.NoLeak VerifierRegistry.Holds
        (Machine.final (Server.step (VerifierRegistry.backend echoVerifier) Empty.elim)
          (Server.started s₀ (VerifierRegistry.initial echoVerifier)) lateResolveRun) := by
  refine ⟨_, rfl, by decide, fun h => ?_⟩
  refine h "sess-0" ?_ ?_ ?_
  · decide +kernel
  · decide +kernel
  · decide +kernel

/-- The session is closed when the append has returned. -/
def timelyRun : List (Move Moment SessionId Server.Operation (Server.ServerEvent Empty)) :=
  [.turn (.createSession "0" [] "" 0 0), .start ("sess-0", 0) (.appendTokens [7])] ++ appendSteps 8 ++
    [.turn (.closeSession "sess-0")]

/-- The closed session leaves no entry. -/
theorem timely_close_drops_entry :
    ∃ s₀, SessionStore.create 1 true none true = .ok s₀ ∧ (Server.issuedIds timelyRun).Nodup ∧
      Machine.AllSteps (Server.step (VerifierRegistry.backend echoVerifier) Empty.elim) Server.Timely
        (Server.started s₀ (VerifierRegistry.initial echoVerifier)) timelyRun ∧
      Server.NoLeak VerifierRegistry.Holds
        (Machine.final (Server.step (VerifierRegistry.backend echoVerifier) Empty.elim)
          (Server.started s₀ (VerifierRegistry.initial echoVerifier)) timelyRun) := by
  obtain ⟨s₀, hs⟩ : ∃ s₀, SessionStore.create 1 true none true = .ok s₀ := ⟨_, rfl⟩
  have hfresh : (Server.issuedIds timelyRun).Nodup := by decide
  have htimely : Machine.AllSteps (Server.step (VerifierRegistry.backend echoVerifier) Empty.elim) Server.Timely
      (Server.started s₀ (VerifierRegistry.initial echoVerifier)) timelyRun := by
    obtain rfl := Except.ok.inj hs
    decide +kernel
  refine ⟨s₀, hs, hfresh, htimely, ?_⟩
  exact (removed_sessions_leave_no_entry echoVerifier Router.tokenVerifier (fun _ => Router.plainScript) hs (by simp)).1
    timelyRun hfresh htimely

end KakeyaEngine
