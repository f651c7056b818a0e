import KakeyaEngine.Session.Backends
import KakeyaEngine.Session.Conservation

/-!
# Isolation of sessions

With a verifier of its own for each session, an operation on a session reads and writes only what the server has of that
session: its entry in the store, its verifiers, its guard and its stream (`view`).  The slab pool and the table of
verifiers are shared, but a consistent store never refuses a slab, and the callback of a removal drops the entry of the
removed session only.  So the operations are confined to their sessions, and a client sees in company what it would see
alone.
-/

namespace KakeyaEngine

namespace SessionStore

/-! ### Calls that concern one session -/

/-- What a call returns, and what it makes of the session `sid`, depends on that session alone; and it changes no other
session. -/
def LocalTo {α : Type} (sid : SessionId) (x : SessionProc α) : Prop :=
  ∃ f : Bool → Option Session → Except SessionError α × Option Session, ∀ s : SessionStore, s.Consistent →
    (x.run s).1 = (f s.hasInspector (s.sessions.get? sid)).1 ∧
    (x.run s).2.sessions.get? sid = (f s.hasInspector (s.sessions.get? sid)).2 ∧
    (∀ id, id ≠ sid → (x.run s).2.sessions.get? id = s.sessions.get? id) ∧
    (x.run s).2.hasInspector = s.hasInspector

theorem removeSession_hasInspector (callback : RemovalCallback) (x : Session) (reason : String) (b : Bool) :
    Proc.Keeps (fun s : SessionStore => s.hasInspector = b) (removeSession callback x reason) := by
  refine Proc.Keeps.bind ?_ fun _ => Proc.Keeps.bind (Proc.Keeps.modify fun s hs => hs) fun _ => ?_
  · unfold releaseSlabIfHeld
    cases x.slab with
    | none => exact Proc.Keeps.pure ()
    | some slab =>
      refine Proc.Keeps.bind (Proc.Keeps.modify fun s hs => hs) fun _ => Proc.Keeps.bind Proc.Keeps.get fun s => ?_
      cases s.slabPool with
      | none => exact Proc.Keeps.pure ()
      | some pool =>
        dsimp only
        cases pool.release slab with
        | error e => exact Proc.Keeps.raise _
        | ok pool => exact Proc.Keeps.modify fun s hs => hs
  · unfold notify
    refine Proc.Keeps.bind Proc.Keeps.get fun s => ?_
    split
    · exact Proc.Keeps.pure ()
    · refine Proc.Keeps.bind (Proc.Keeps.modify fun s hs => hs) fun _ => ?_
      cases callback x.sessionId with
      | none => exact Proc.Keeps.pure ()
      | some text => exact Proc.Keeps.raise _

/-- A removal whose callback does not raise drops the session and returns. -/
theorem removeSession_quiet {s : SessionStore} (hs : s.Consistent) (reason : String) {x y : Session}
    (hid : x.sessionId = y.sessionId) (hslab : x.slab = y.slab) (hy : s.sessions.get? y.sessionId = some y) :
    ∃ s', (removeSession (fun _ => none) x reason).run s = (.ok (), s') ∧
      s'.sessions = s.sessions.erase y.sessionId ∧ s'.hasInspector = s.hasInspector := by
  obtain ⟨r, s', hrun, hdrop, hr⟩ := removeSession_run hs (fun _ => none) reason hid hslab hy
  have hinsp := removeSession_hasInspector (fun _ => none) x reason s.hasInspector s rfl
  rw [hrun] at hinsp
  rcases hr with rfl | ⟨text, htext, -⟩
  · exact ⟨s', hrun, hdrop.sessions, hinsp⟩
  · cases htext

/-- What `get_session` makes of a session. -/
private def getOutcome (sid : SessionId) : Option Session → Except SessionError Session × Option Session
  | none => (.error (.notFound sid), none)
  | some x => (.ok x, some x)

theorem getSession_local (sid : SessionId) : LocalTo sid (getSession sid) := by
  refine ⟨fun _ => getOutcome sid, fun s _ => ?_⟩
  rw [run_getSession]
  cases hx : s.sessions.get? sid with
  | none => exact ⟨rfl, hx, fun _ _ => rfl, rfl⟩
  | some x => exact ⟨rfl, hx, fun _ _ => rfl, rfl⟩

theorem syncSession_local (sid : SessionId) (cached : List Token) (active : Int) :
    LocalTo sid (syncSession sid cached active) := by
  refine ⟨fun _ o => (.ok (), o.map fun x => { x with cachedTokenSequence := cached, lastActiveAt := active }),
    fun s hs => ?_⟩
  unfold syncSession
  rw [Proc.run_get_bind]
  cases hx : s.sessions.get? sid with
  | none => exact ⟨rfl, hx, fun _ _ => rfl, rfl⟩
  | some x =>
    have hid := hs.keyed sid x hx
    subst hid
    exact ⟨rfl, Dict.get?_set_self _ _ _, fun id hne => Dict.get?_set_ne _ hne, rfl⟩

/-- What `record_position_advance` makes of a session. -/
private def positionOutcome (sid : SessionId) (p now : Int) : Option Session → Except SessionError Unit × Option Session
  | none => (.error (.notFound sid), none)
  | some x =>
    if p < x.nextGlobalPosition then
      (.error (.invariantViolation "2" sid ("position must be non-decreasing; current=" ++
        toString x.nextGlobalPosition ++ ", requested=" ++ toString p)), none)
    else (.ok (), some { x with nextGlobalPosition := p, lastActiveAt := now })

theorem recordPositionAdvance_local (sid : SessionId) (p now : Int) :
    LocalTo sid (recordPositionAdvance (fun _ => none) sid p now) := by
  refine ⟨fun _ => positionOutcome sid p now, fun s hs => ?_⟩
  unfold recordPositionAdvance
  have hget := run_getSession s sid
  cases hx : s.sessions.get? sid with
  | none =>
    rw [hx] at hget
    rw [Proc.run_bind_error hget]
    exact ⟨rfl, hx, fun _ _ => rfl, rfl⟩
  | some x =>
    rw [hx] at hget
    rw [Proc.run_bind_ok hget]
    have hid := hs.keyed sid x hx
    subst hid
    dsimp only
    rw [positionOutcome]
    by_cases hp : p < x.nextGlobalPosition
    · rw [if_pos hp, if_pos hp]
      obtain ⟨s', hrem, hsess, hinsp⟩ := removeSession_quiet hs "inv2_failure"
        (x := { x with inv2Violations := x.inv2Violations + 1 }) (y := x) rfl rfl hx
      rw [Proc.run_bind_ok hrem]
      refine ⟨rfl, ?_, fun id hne => ?_, hinsp⟩
      · show s'.sessions.get? x.sessionId = none
        rw [hsess, Dict.get?_erase_self]
      · show s'.sessions.get? id = _
        rw [hsess, Dict.get?_erase_ne hne]
    · rw [if_neg hp, if_neg hp]
      exact ⟨rfl, Dict.get?_set_self _ _ _, fun id hne => Dict.get?_set_ne _ hne, rfl⟩

/-- What `_assert_inv1` makes of a session. -/
private def inv1Outcome (x : Session) (k : Except String Int) (hasInspector : Bool) :
    Except SessionError Unit × Option Session :=
  if hasInspector = false then (.ok (), some x)
  else
    match k with
    | .error text => (.error (.raised text), some x)
    | .ok actual =>
      if actual ≠ x.cachedTokenSequence.length then
        (.error (.invariantViolation "1" x.sessionId
          ("cached_token_sequence length (" ++ toString x.cachedTokenSequence.length ++
            ") != K/V tensor sequence length (" ++ toString actual ++ ")")), none)
      else (.ok (), some x)

private theorem assertInv1_outcome {s : SessionStore} (hs : s.Consistent) {x : Session}
    (hx : s.sessions.get? x.sessionId = some x) (k : Except String Int) :
    ((assertInv1 (fun _ => none) x k).run s).1 = (inv1Outcome x k s.hasInspector).1 ∧
      ((assertInv1 (fun _ => none) x k).run s).2.sessions.get? x.sessionId = (inv1Outcome x k s.hasInspector).2 ∧
      (∀ id, id ≠ x.sessionId →
        ((assertInv1 (fun _ => none) x k).run s).2.sessions.get? id = s.sessions.get? id) ∧
      ((assertInv1 (fun _ => none) x k).run s).2.hasInspector = s.hasInspector := by
  unfold assertInv1 inv1Outcome
  rw [Proc.run_get_bind]
  split
  · exact ⟨rfl, hx, fun _ _ => rfl, rfl⟩
  · cases k with
    | error text => exact ⟨rfl, hx, fun _ _ => rfl, rfl⟩
    | ok actual =>
      dsimp only
      split
      · obtain ⟨s', hrem, hsess, hinsp⟩ := removeSession_quiet hs "inv1_failure"
          (x := { x with inv1Violations := x.inv1Violations + 1 }) (y := x) rfl rfl hx
        rw [Proc.run_bind_ok hrem]
        refine ⟨rfl, ?_, fun id hne => ?_, hinsp⟩
        · show s'.sessions.get? x.sessionId = none
          rw [hsess, Dict.get?_erase_self]
        · show s'.sessions.get? id = _
          rw [hsess, Dict.get?_erase_ne hne]
      · exact ⟨rfl, hx, fun _ _ => rfl, rfl⟩

/-- What `append_tokens` makes of a session. -/
private def appendOutcome (sid : SessionId) (ts : List Token) (now : Int) (k : Except String Int) (hasInspector : Bool) :
    Option Session → Except SessionError Nat × Option Session
  | none => (.error (.notFound sid), none)
  | some x =>
    match ts.find? fun t => decide (t < 0) with
    | some t => (.error (.valueError ("token_id must be a non-negative int, got " ++ toString t)), some x)
    | none =>
      let z : Session := { x with historyTokenIds := x.historyTokenIds ++ ts, lastActiveAt := now }
      ((inv1Outcome z k hasInspector).1.map fun _ => z.historyTokenIds.length, (inv1Outcome z k hasInspector).2)

theorem appendTokens_local (sid : SessionId) (ts : List Token) (now : Int) (k : Except String Int) :
    LocalTo sid (appendTokens (fun _ => none) sid ts now k) := by
  refine ⟨appendOutcome sid ts now k, fun s hs => ?_⟩
  unfold appendTokens
  have hget := run_getSession s sid
  cases hx : s.sessions.get? sid with
  | none =>
    rw [hx] at hget
    rw [Proc.run_bind_error hget]
    exact ⟨rfl, hx, fun _ _ => rfl, rfl⟩
  | some x =>
    rw [hx] at hget
    rw [Proc.run_bind_ok hget]
    have hid := hs.keyed sid x hx
    subst hid
    rw [appendOutcome]
    cases ts.find? fun t => decide (t < 0) with
    | some t => exact ⟨rfl, hx, fun _ _ => rfl, rfl⟩
    | none =>
      dsimp only
      rw [Proc.run_modify_bind]
      generalize hz : ({ x with historyTokenIds := x.historyTokenIds ++ ts, lastActiveAt := now } : Session) = z
      have hzid : z.sessionId = x.sessionId := by rw [← hz]
      have hzslab : z.slab = x.slab := by rw [← hz]
      have hwrite : (s.write z).Consistent := (write_shrinks hs (hzid ▸ hx) hzslab).1
      obtain ⟨hres, hown, hframe, hinsp⟩ := assertInv1_outcome hwrite (x := z) (Dict.get?_set_self _ _ _) k
      have hinsp' : (s.write z).hasInspector = s.hasInspector := rfl
      rw [hinsp'] at hres hown hinsp
      rw [← hzid, Proc.run_bind]
      have hother : ∀ id, id ≠ z.sessionId →
          ((assertInv1 (fun _ => none) z k).run (s.write z)).2.sessions.get? id = s.sessions.get? id :=
        fun id hne => (hframe id hne).trans (Dict.get?_set_ne _ hne)
      rcases hr : (assertInv1 (fun _ => none) z k).run (s.write z) with ⟨e | u, t⟩
      · rw [hr] at hres hown hinsp hother
        exact ⟨by rw [← hres]; rfl, hown, hother, hinsp⟩
      · rw [hr] at hres hown hinsp hother
        exact ⟨by rw [← hres]; rfl, hown, hother, hinsp⟩

/-! ### Calls that remove sessions -/

/-- Up to the session that is issued, sessions are left as they are or removed. -/
def Pruned (issued : Option SessionId) (s t : SessionStore) : Prop :=
  t.hasInspector = s.hasInspector ∧
    ∀ id, issued ≠ some id → t.sessions.get? id = s.sessions.get? id ∨ t.sessions.get? id = none

theorem Pruned.refl (s : SessionStore) : Pruned none s s := ⟨rfl, fun _ _ => Or.inl rfl⟩

theorem Pruned.trans {issued : Option SessionId} {s t u : SessionStore} (h : Pruned none s t) (h' : Pruned issued t u) :
    Pruned issued s u := by
  refine ⟨h'.1.trans h.1, fun id hid => ?_⟩
  rcases h'.2 id hid with heq | hnone
  · rw [heq]
    exact h.2 id (by simp)
  · exact Or.inr hnone

theorem removeSession_pruned {s : SessionStore} (hs : s.Consistent) (reason : String) {y : Session}
    (hy : s.sessions.get? y.sessionId = some y) :
    ∃ s', (removeSession (fun _ => none) y reason).run s = (.ok (), s') ∧ Pruned none s s' ∧ Below s s' := by
  obtain ⟨s', hrun, hsess, hinsp⟩ := removeSession_quiet hs reason rfl rfl hy
  refine ⟨s', hrun, ⟨hinsp, fun id _ => ?_⟩, ?_⟩
  · rw [hsess, Dict.get?_erase]
    split
    · exact Or.inr rfl
    · exact Or.inl rfl
  · have hbelow := removeSession_below hs (fun _ => none) reason rfl rfl hy
    rw [hrun] at hbelow
    exact hbelow

theorem closeSession_pruned {s : SessionStore} (hs : s.Consistent) (sid : SessionId) :
    Pruned none s ((closeSession (fun _ => none) sid).run s).2 := by
  unfold closeSession
  rcases getSession_cases hs sid with ⟨x, hrun, hx, -⟩ | hrun
  · rw [Proc.run_bind_ok hrun]
    obtain ⟨s', hrem, hpruned, -⟩ := removeSession_pruned hs "explicit_close" hx
    rw [Proc.run_bind_ok hrem]
    exact hpruned
  · rw [Proc.run_bind_error hrun]
    exact Pruned.refl s

theorem removeSessionIfPresent_pruned {s : SessionStore} (hs : s.Consistent) (sid : SessionId) (reason : String) :
    Pruned none s ((removeSessionIfPresent (fun _ => none) sid reason).run s).2 := by
  unfold removeSessionIfPresent
  rw [Proc.run_get_bind]
  cases hx : s.sessions.get? sid with
  | none => exact Pruned.refl s
  | some x =>
    have hid := hs.keyed sid x hx
    subst hid
    obtain ⟨s', hrem, hpruned, -⟩ := removeSession_pruned hs reason hx
    dsimp only
    rw [Proc.run_bind_ok hrem]
    exact hpruned

theorem evictIdleLoop_pruned (ttl clock : Int) (ids : List SessionId) {s : SessionStore} (hs : s.Consistent) :
    Pruned none s ((evictIdleLoop (fun _ => none) ttl clock ids).run s).2 := by
  induction ids generalizing s with
  | nil => exact Pruned.refl s
  | cons id ids ih =>
    unfold evictIdleLoop
    rcases getSession_cases hs id with ⟨x, hrun, hx, -⟩ | hrun
    · rw [Proc.run_bind_ok hrun]
      split
      · obtain ⟨t, hrem, hpruned, hbelow⟩ := removeSession_pruned hs "ttl_eviction" hx
        rw [Proc.run_bind_ok hrem, Proc.run_bind]
        have hrest := ih hbelow.1
        rcases hr : (evictIdleLoop (fun _ => none) ttl clock ids).run t with ⟨_ | _, u⟩
        · rw [hr] at hrest
          exact hpruned.trans hrest
        · rw [hr] at hrest
          exact hpruned.trans hrest
      · exact ih hs
    · rw [Proc.run_bind_error hrun]
      exact Pruned.refl s

theorem createSession_pruned {s : SessionStore} (hs : s.Consistent) (sid : SessionId) (eos : List Token) (label : String)
    (created active : Int) :
    Pruned (some sid) s ((createSession (fun _ => none) sid eos label created active).run s).2 := by
  have hroom : Pruned none s ((makeRoom fun _ => none).run s).2 := by
    unfold makeRoom
    rw [Proc.run_get_bind]
    split
    · unfold evictOneLru
      rw [Proc.run_get_bind]
      cases hl : leastActive s.sessions.entries with
      | none => exact Pruned.refl s
      | some y =>
        obtain ⟨id, hmem⟩ := leastActive_mem hl
        have hy := Dict.mem_entries_iff.1 hmem
        have hid := hs.keyed id y hy
        subst hid
        obtain ⟨s', hrem, hpruned, -⟩ := removeSession_pruned hs "lru_eviction" hy
        dsimp only
        rw [hrem]
        exact hpruned
    · exact Pruned.refl s
  have hstop : ∀ t, Pruned none s t → Pruned (some sid) s t := fun t ht => ⟨ht.1, fun id _ => ht.2 id (by simp)⟩
  unfold createSession
  rw [Proc.run_bind]
  rcases hr : (makeRoom fun _ => none).run s with ⟨e | u, t⟩
  · rw [hr] at hroom
    exact hstop t hroom
  · rw [hr] at hroom
    refine hroom.trans ?_
    have hwrite : ∀ (pool : Option SlabPool) (x : Session), x.sessionId = sid →
        Pruned (some sid) t (({ t with slabPool := pool } : SessionStore).write x) := by
      rintro pool x rfl
      refine ⟨rfl, fun id hid => Or.inl ?_⟩
      exact Dict.get?_set_ne _ fun h => hid (by rw [h])
    dsimp only
    rcases acquireSlab_cases t with ⟨hp, hrun⟩ | ⟨p, p', i, hp, hi, huse, htotal, hrun⟩ | ⟨p, e, hp, hfull, hrun⟩
    · rw [Proc.run_bind_ok hrun]
      exact hwrite t.slabPool _ rfl
    · rw [Proc.run_bind_ok hrun]
      exact hwrite (some p') _ rfl
    · rw [Proc.run_bind_error hrun]
      exact ⟨rfl, fun _ _ => Or.inl rfl⟩

end SessionStore

namespace Server

variable {V ε : Type} (lv : LocalVerifier V ε)

/-! ### What the server has of a session -/

/-- What the server has of a session: its entry in the store, its verifiers, its guard and its stream. -/
structure View (V ε : Type) where
  session : Option Session
  hasInspector : Bool
  registered : Option Nat
  made : Nat
  objects : Nat → V
  generating : Bool
  stream : Option (List (Observation ε))

def view (sid : SessionId) (s : Server (VerifierRegistry V) ε) : View V ε where
  session := s.store.sessions.get? sid
  hasInspector := s.store.hasInspector
  registered := s.verifiers.verifiers.get? sid
  made := s.verifiers.made sid
  objects := s.verifiers.objects sid
  generating := s.generating.contains sid
  stream := s.streams.get? sid

/-- The store is consistent and tells the registry of its removals. -/
def Sound (s : Server (VerifierRegistry V) ε) : Prop := s.store.Consistent ∧ s.store.hasCallback = true

/-- The view once the session is as given: when it was removed, its entry in the registry is gone. -/
def View.withSession (w : View V ε) (session : Option Session) : View V ε :=
  { w with
    session := session,
    registered := if w.session.isSome = true ∧ session = none then none else w.registered }

theorem foldl_remove (ids : List SessionId) (r : VerifierRegistry V) :
    (∀ sid, (ids.foldl (fun r id => VerifierRegistry.remove id r) r).verifiers.get? sid =
        if sid ∈ ids then none else r.verifiers.get? sid) ∧
      (ids.foldl (fun r id => VerifierRegistry.remove id r) r).made = r.made ∧
      (ids.foldl (fun r id => VerifierRegistry.remove id r) r).objects = r.objects := by
  induction ids generalizing r with
  | nil => exact ⟨fun sid => by simp, rfl, rfl⟩
  | cons id ids ih =>
    obtain ⟨hget, hmade, hobj⟩ := ih (VerifierRegistry.remove id r)
    refine ⟨fun sid => ?_, hmade, hobj⟩
    rw [List.foldl_cons, hget]
    by_cases hmem : sid ∈ ids
    · simp [hmem]
    · have hrem : (VerifierRegistry.remove id r).verifiers.get? sid = if sid = id then none else r.verifiers.get? sid :=
        Dict.get?_erase _ _ _
      rw [if_neg hmem, hrem]
      by_cases hid : sid = id
      · simp [hid]
      · simp [hid, hmem]

variable {lv}

/-- What a call of the store makes of the view of a session. -/
theorem callStore_view {α : Type} {x : SessionProc α} {s : Server (VerifierRegistry V) ε} (hs : s.Sound)
    {issued : Option SessionId} (hstep : SessionStore.Stepped issued s.store (x.run s.store).2)
    (hinsp : (x.run s.store).2.hasInspector = s.store.hasInspector) (sid : SessionId) :
    view sid ((callStore (VerifierRegistry.backend lv) x).run s).2 =
      (view sid s).withSession ((x.run s.store).2.sessions.get? sid) := by
  obtain ⟨new, hnew, hspec⟩ := hstep.notified
  obtain ⟨-, hgone⟩ := hspec hs.2
  have hdrop : (x.run s.store).2.notified.drop s.store.notified.length = new := by rw [hnew, List.drop_left]
  obtain ⟨hget, hmade, hobj⟩ := foldl_remove (new.map Prod.fst) s.verifiers
  have hrun : ((callStore (VerifierRegistry.backend lv) x).run s).2 =
      { s with
        store := (x.run s.store).2,
        verifiers := (new.map Prod.fst).foldl (fun r id => VerifierRegistry.remove id r) s.verifiers } := by
    rw [← hdrop]
    rfl
  have hreg : ((new.map Prod.fst).foldl (fun r id => VerifierRegistry.remove id r) s.verifiers).verifiers.get? sid =
      if (s.store.sessions.get? sid).isSome = true ∧ (x.run s.store).2.sessions.get? sid = none then none
      else s.verifiers.verifiers.get? sid := by
    rw [hget]
    refine if_congr ?_ rfl rfl
    rw [hgone, Option.isSome_iff_exists]
    refine and_congr_right fun _ => ?_
    unfold SessionStore.Live
    cases (x.run s.store).2.sessions.get? sid <;> simp
  rw [hrun]
  unfold view View.withSession
  dsimp only
  rw [hreg, hmade, hobj, hinsp]

/-- A call of the store that concerns one session is confined to it. -/
theorem callStore_confined {α : Type} {sid : SessionId} {x : SessionProc α} (hlocal : SessionStore.LocalTo sid x)
    (hx : SessionStore.Lowers x) {s : Server (VerifierRegistry V) ε} (hs : s.Sound) :
    ((callStore (VerifierRegistry.backend lv) x).run s).2.Sound ∧
      ∀ w, w ≠ sid → view w ((callStore (VerifierRegistry.backend lv) x).run s).2 = view w s := by
  obtain ⟨f, hf⟩ := hlocal
  obtain ⟨-, -, hframe, hinsp⟩ := hf s.store hs.1
  obtain ⟨hcons, hstep⟩ := hx s.store hs.1
  refine ⟨⟨hcons, hstep.hasCallback.trans hs.2⟩, fun w hw => ?_⟩
  rw [callStore_view hs hstep hinsp w, hframe w hw]
  unfold View.withSession view
  cases s.store.sessions.get? w <;> simp

theorem callStore_own {α : Type} {sid : SessionId} {x : SessionProc α} (hlocal : SessionStore.LocalTo sid x)
    (hx : SessionStore.Lowers x) {s t : Server (VerifierRegistry V) ε} (hs : s.Sound) (ht : t.Sound)
    (hv : view sid s = view sid t) :
    view sid ((callStore (VerifierRegistry.backend lv) x).run s).2 =
        view sid ((callStore (VerifierRegistry.backend lv) x).run t).2 ∧
      ((callStore (VerifierRegistry.backend lv) x).run s).1 = ((callStore (VerifierRegistry.backend lv) x).run t).1 := by
  obtain ⟨f, hf⟩ := hlocal
  obtain ⟨hres, hown, -, hinsp⟩ := hf s.store hs.1
  obtain ⟨hres', hown', -, hinsp'⟩ := hf t.store ht.1
  have hsess : s.store.sessions.get? sid = t.store.sessions.get? sid := congrArg View.session hv
  have hins : s.store.hasInspector = t.store.hasInspector := congrArg View.hasInspector hv
  constructor
  · rw [callStore_view hs (hx s.store hs.1).2 hinsp, callStore_view ht (hx t.store ht.1).2 hinsp', hown, hown', hv, hsess,
      hins]
  · have hrun : ∀ u : Server (VerifierRegistry V) ε, ((callStore (VerifierRegistry.backend lv) x).run u).1 =
        (x.run u.store).1.mapError .store := fun _ => rfl
    rw [hrun, hrun, hres, hres', hsess, hins]

/-! ### Procedures on a session -/

/-- The procedure sees and changes only what the server has of the session. -/
structure OnSession {α : Type} (sid : SessionId) (x : ServerProc (VerifierRegistry V) ε α) : Prop where
  others : ∀ s, Sound s → Sound (x.run s).2 ∧ ∀ w, w ≠ sid → view w (x.run s).2 = view w s
  own : ∀ s t, Sound s → Sound t → view sid s = view sid t →
    view sid (x.run s).2 = view sid (x.run t).2 ∧ (x.run s).1 = (x.run t).1

variable {sid : SessionId}

theorem OnSession.confined {α : Type} {k : StepLabel} {x : Moment → ServerProc (VerifierRegistry V) ε α}
    (hx : ∀ m, OnSession sid (x m)) : (Prog.atomic k x).Confined view Sound sid :=
  Prog.Confined.atomic (fun m => (hx m).others) fun m => (hx m).own

theorem OnSession.pure {α : Type} (a : α) : OnSession sid (Pure.pure a : ServerProc (VerifierRegistry V) ε α) :=
  ⟨fun _ hs => ⟨hs, fun _ _ => rfl⟩, fun _ _ _ _ hv => ⟨hv, rfl⟩⟩

theorem OnSession.raise {α : Type} (e : OperationError ε) :
    OnSession sid (Proc.raise e : ServerProc (VerifierRegistry V) ε α) :=
  ⟨fun _ hs => ⟨hs, fun _ _ => rfl⟩, fun _ _ _ _ hv => ⟨hv, rfl⟩⟩

theorem OnSession.bind {α β : Type} {x : ServerProc (VerifierRegistry V) ε α}
    {f : α → ServerProc (VerifierRegistry V) ε β} (hx : OnSession sid x) (hf : ∀ a, OnSession sid (f a)) :
    OnSession sid (x >>= f) := by
  constructor
  · intro s hs
    obtain ⟨hsound, hview⟩ := hx.others s hs
    rw [Proc.run_bind]
    rcases hr : x.run s with ⟨e | a, s'⟩
    · rw [hr] at hsound hview
      exact ⟨hsound, hview⟩
    · rw [hr] at hsound hview
      obtain ⟨hsound', hview'⟩ := (hf a).others s' hsound
      exact ⟨hsound', fun w hw => (hview' w hw).trans (hview w hw)⟩
  · intro s t hs ht hv
    obtain ⟨hview, hres⟩ := hx.own s t hs ht hv
    have hsound := (hx.others s hs).1
    have hsound' := (hx.others t ht).1
    rw [Proc.run_bind, Proc.run_bind]
    rcases hr : x.run s with ⟨r, s'⟩
    rcases hr' : x.run t with ⟨r', t'⟩
    rw [hr, hr'] at hview hres
    rw [hr] at hsound
    rw [hr'] at hsound'
    obtain rfl : r = r' := hres
    cases r with
    | error e => exact ⟨hview, rfl⟩
    | ok a => exact (hf a).own s' t' hsound hsound' hview

/-- A procedure that first reads what the server has of the session. -/
theorem OnSession.reads {α : Type} {f : View V ε → ServerProc (VerifierRegistry V) ε α}
    (hf : ∀ v, OnSession sid (f v)) : OnSession sid (fun s => (f (view sid s)).run s) := by
  constructor
  · intro s hs
    exact (hf (view sid s)).others s hs
  · intro s t hs ht hv
    have h := (hf (view sid s)).own s t hs ht hv
    show view sid ((f (view sid s)).run s).2 = view sid ((f (view sid t)).run t).2 ∧
      ((f (view sid s)).run s).1 = ((f (view sid t)).run t).1
    rw [← hv]
    exact h

theorem callStore_onSession {α : Type} {x : SessionProc α} (hlocal : SessionStore.LocalTo sid x)
    (hx : SessionStore.Lowers x) :
    OnSession sid (callStore (VerifierRegistry.backend lv) x : ServerProc (VerifierRegistry V) ε α) :=
  ⟨fun _ hs => callStore_confined hlocal hx hs, fun _ _ hs ht hv => callStore_own hlocal hx hs ht hv⟩

/-- A change of the guard and the streams of the session. -/
theorem modify_onSession {f : Server (VerifierRegistry V) ε → Server (VerifierRegistry V) ε}
    (hstore : ∀ s, (f s).store = s.store) (hothers : ∀ s w, w ≠ sid → view w (f s) = view w s)
    (hown : ∀ s t, view sid s = view sid t → view sid (f s) = view sid (f t)) :
    OnSession sid (Proc.modify f : ServerProc (VerifierRegistry V) ε Unit) := by
  constructor
  · intro s hs
    refine ⟨?_, hothers s⟩
    unfold Sound
    rw [Proc.run_modify, hstore]
    exact hs
  · intro s t _ _ hv
    exact ⟨hown s t hv, rfl⟩

theorem reveal_onSession (o : Observation ε) :
    OnSession sid (reveal sid o : ServerProc (VerifierRegistry V) ε Unit) := by
  refine modify_onSession (fun _ => rfl) (fun s w hw => ?_) fun s t hv => ?_
  · unfold view
    dsimp only
    rw [Dict.get?_set_ne _ hw]
  · have hstream : s.streams.get? sid = t.streams.get? sid := congrArg View.stream hv
    unfold view at hv ⊢
    simp only [View.mk.injEq] at hv ⊢
    rw [Dict.get?_set_self, Dict.get?_set_self, hstream]
    exact ⟨hv.1, hv.2.1, hv.2.2.1, hv.2.2.2.1, hv.2.2.2.2.1, hv.2.2.2.2.2.1, rfl⟩

theorem enterGuard_onSession : OnSession sid (enterGuard sid : ServerProc (VerifierRegistry V) ε Unit) := by
  have henter : OnSession sid
      (Proc.modify fun s => { s with generating := sid :: s.generating } :
        ServerProc (VerifierRegistry V) ε Unit) := by
    refine modify_onSession (fun _ => rfl) (fun s w hw => ?_) fun s t hv => ?_
    · unfold view
      simp [hw]
    · unfold view at hv ⊢
      simp only [View.mk.injEq] at hv ⊢
      exact ⟨hv.1, hv.2.1, hv.2.2.1, hv.2.2.2.1, hv.2.2.2.2.1, by simp, hv.2.2.2.2.2.2⟩
  refine OnSession.reads (f := fun v => if v.generating then
    Proc.raise (.busy ("Generate already active for session '" ++ sid ++ "'")) else _) fun v => ?_
  split
  · exact OnSession.raise _
  · exact henter

theorem leaveGuard_onSession : OnSession sid (leaveGuard sid : ServerProc (VerifierRegistry V) ε Unit) := by
  refine modify_onSession (fun _ => rfl) (fun s w hw => ?_) fun s t hv => ?_
  · unfold view
    simp [hw]
  · unfold view at hv ⊢
    simp only [View.mk.injEq] at hv ⊢
    exact ⟨hv.1, hv.2.1, hv.2.2.1, hv.2.2.2.1, hv.2.2.2.2.1, by simp, hv.2.2.2.2.2.2⟩

/-- The registry after `get`: the session has an entry, and a verifier is made when it had none. -/
theorem get_view (s : Server (VerifierRegistry V) ε) (w : SessionId) :
    view w { s with verifiers := (VerifierRegistry.get sid s.verifiers).2 } =
      if w = sid ∧ s.verifiers.verifiers.get? sid = none then
        { view w s with registered := some (s.verifiers.made sid), made := s.verifiers.made sid + 1 }
      else view w s := by
  unfold VerifierRegistry.get
  cases hn : s.verifiers.verifiers.get? sid with
  | some n => simp
  | none =>
    by_cases hw : w = sid
    · subst hw
      simp [view]
    · simp [view, hw, Dict.get?_set_ne _ hw]

theorem get_fst (r : VerifierRegistry V) :
    (VerifierRegistry.get sid r).1 = (r.verifiers.get? sid).getD (r.made sid) := by
  unfold VerifierRegistry.get
  cases r.verifiers.get? sid <;> rfl

theorem get_objects (r : VerifierRegistry V) : (VerifierRegistry.get sid r).2.objects = r.objects := by
  unfold VerifierRegistry.get
  cases r.verifiers.get? sid <;> rfl

theorem resolve_onSession :
    OnSession sid (resolve (VerifierRegistry.backend lv) sid : ServerProc (VerifierRegistry V) ε Nat) := by
  have hrun : ∀ s : Server (VerifierRegistry V) ε, (resolve (VerifierRegistry.backend lv) sid).run s =
      (.ok (VerifierRegistry.get sid s.verifiers).1,
        { s with verifiers := (VerifierRegistry.get sid s.verifiers).2 }) := fun _ => rfl
  constructor
  · intro s hs
    rw [hrun]
    refine ⟨hs, fun w hw => ?_⟩
    rw [get_view, if_neg (fun h => hw h.1)]
  · intro s t _ _ hv
    have hreg : s.verifiers.verifiers.get? sid = t.verifiers.verifiers.get? sid := congrArg View.registered hv
    have hmade : s.verifiers.made sid = t.verifiers.made sid := congrArg View.made hv
    rw [hrun, hrun, get_view, get_view, get_fst, get_fst, hv, hreg, hmade]
    exact ⟨rfl, rfl⟩

theorem onObject_view {α : Type} {n : Nat} (x : Proc V ε α) (s : Server (VerifierRegistry V) ε) (w : SessionId) :
    view w ((callVerifier (VerifierRegistry.onObject sid n x)).run s).2 =
      if w = sid then
        { view w s with objects := Function.update (view w s).objects n (x.run (s.verifiers.objects sid n)).2 }
      else view w s := by
  unfold callVerifier VerifierRegistry.onObject
  rw [Proc.run_focus, Proc.run_focus]
  rcases x.run (s.verifiers.objects sid n) with ⟨_ | _, v⟩
  · by_cases hw : w = sid
    · subst hw
      simp [view]
    · simp [view, hw]
  · by_cases hw : w = sid
    · subst hw
      simp [view]
    · simp [view, hw]

theorem onObject_result {α : Type} {n : Nat} (x : Proc V ε α) (s : Server (VerifierRegistry V) ε) :
    ((callVerifier (VerifierRegistry.onObject sid n x)).run s).1 =
      (x.run (s.verifiers.objects sid n)).1.mapError .verifier := by
  unfold callVerifier VerifierRegistry.onObject
  rw [Proc.run_focus, Proc.run_focus]
  rcases x.run (s.verifiers.objects sid n) with ⟨_ | _, _⟩ <;> rfl

theorem onObject_store {α : Type} {n : Nat} (x : Proc V ε α) (s : Server (VerifierRegistry V) ε) :
    ((callVerifier (VerifierRegistry.onObject sid n x)).run s).2.store = s.store := by
  unfold callVerifier
  rw [Proc.run_focus]
  rcases (VerifierRegistry.onObject sid n x).run s.verifiers with ⟨_ | _, _⟩ <;> rfl

theorem onObject_onSession {α : Type} (n : Nat) (x : Proc V ε α) :
    OnSession sid (callVerifier (VerifierRegistry.onObject sid n x) : ServerProc (VerifierRegistry V) ε α) := by
  constructor
  · intro s hs
    refine ⟨?_, fun w hw => ?_⟩
    · unfold Sound
      rw [onObject_store]
      exact hs
    · rw [onObject_view, if_neg hw]
  · intro s t _ _ hv
    have hobj : s.verifiers.objects sid n = t.verifiers.objects sid n := congrFun (congrArg View.objects hv) n
    rw [onObject_view, onObject_view, onObject_result, onObject_result, hobj, hv]
    exact ⟨rfl, rfl⟩

theorem inspect_onSession (ts : List Token) :
    OnSession sid (inspect (VerifierRegistry.backend lv) sid ts : ServerProc (VerifierRegistry V) ε Int) := by
  have hask : ∀ s : Server (VerifierRegistry V) ε, (inspect (VerifierRegistry.backend lv) sid ts).run s =
      if ((view sid s).hasInspector && (view sid s).session.isSome &&
          (ts.find? fun t => decide (t < 0)).isNone) = true then
        (.ok (lv.kSeqLength ((view sid s).objects ((view sid s).registered.getD (view sid s).made))),
          { s with verifiers := (VerifierRegistry.get sid s.verifiers).2 })
      else (.ok 0, s) := by
    intro s
    show (if asksInspector s.store sid ts = true then
      (Except.ok (lv.kSeqLength ((VerifierRegistry.get sid s.verifiers).2.objects sid
        (VerifierRegistry.get sid s.verifiers).1)), _) else _) = _
    rw [get_objects, get_fst]
    rfl
  constructor
  · intro s hs
    rw [hask]
    split
    · refine ⟨hs, fun w hw => ?_⟩
      rw [get_view, if_neg (fun h => hw h.1)]
    · exact ⟨hs, fun _ _ => rfl⟩
  · intro s t _ _ hv
    rw [hask, hask, hv]
    split
    · have hreg : s.verifiers.verifiers.get? sid = t.verifiers.verifiers.get? sid := congrArg View.registered hv
      have hmade : s.verifiers.made sid = t.verifiers.made sid := congrArg View.made hv
      rw [get_view, get_view, hv, hreg, hmade]
      exact ⟨rfl, rfl⟩
    · exact ⟨hv, rfl⟩

theorem storeAppend_onSession (ts : List Token) (clock : Int) :
    OnSession sid (storeAppend (VerifierRegistry.backend lv) sid ts clock : ServerProc (VerifierRegistry V) ε Nat) :=
  (inspect_onSession ts).bind fun _ =>
    callStore_onSession (SessionStore.appendTokens_local sid ts clock _) (SessionStore.appendTokens_lowers _ sid ts clock _)

/-- What `_mirror` does for a session of the given view. -/
private def mirrorOf (lv : LocalVerifier V ε) (sid : SessionId) (n : Nat) (v : View V ε) :
    ServerProc (VerifierRegistry V) ε Unit :=
  match v.session with
  | none => pure ()
  | some x => callStore (VerifierRegistry.backend lv)
      (SessionStore.syncSession sid (lv.cachedTokenSequence (v.objects n)) x.lastActiveAt)

/-- What `_touch` does for a session of the given view. -/
private def touchOf (lv : LocalVerifier V ε) (sid : SessionId) (clock : Int) (v : View V ε) :
    ServerProc (VerifierRegistry V) ε Unit :=
  match v.session with
  | none => pure ()
  | some x => callStore (VerifierRegistry.backend lv) (SessionStore.syncSession sid x.cachedTokenSequence clock)

theorem mirror_onSession (n : Nat) :
    OnSession sid (mirror (VerifierRegistry.backend lv) sid n : ServerProc (VerifierRegistry V) ε Unit) := by
  refine OnSession.reads (f := mirrorOf lv sid n) fun v => ?_
  unfold mirrorOf
  cases v.session with
  | none => exact OnSession.pure ()
  | some x => exact callStore_onSession (SessionStore.syncSession_local sid _ _) (SessionStore.syncSession_lowers sid _ _)

theorem touch_onSession (clock : Int) :
    OnSession sid (touch (VerifierRegistry.backend lv) sid clock : ServerProc (VerifierRegistry V) ε Unit) := by
  refine OnSession.reads (f := touchOf lv sid clock) fun v => ?_
  unfold touchOf
  cases v.session with
  | none => exact OnSession.pure ()
  | some x => exact callStore_onSession (SessionStore.syncSession_local sid _ _) (SessionStore.syncSession_lowers sid _ _)

theorem recordPosition_onSession (n : Nat) (clock : Int) :
    OnSession sid
      (recordPosition (VerifierRegistry.backend lv) sid n clock : ServerProc (VerifierRegistry V) ε Unit) :=
  OnSession.reads (f := fun v => callStore (VerifierRegistry.backend lv)
      (SessionStore.recordPositionAdvance (fun _ => none) sid (lv.nextGlobalPosition (v.objects n)) clock)) fun _ =>
    callStore_onSession (SessionStore.recordPositionAdvance_local sid _ clock)
      (SessionStore.recordPositionAdvance_lowers _ sid _ clock)

theorem checkCancelled_onSession (message : String) (m : Moment) :
    OnSession sid (checkCancelled message m : ServerProc (VerifierRegistry V) ε Unit) := by
  unfold checkCancelled
  split
  · exact OnSession.raise _
  · exact OnSession.pure ()

/-! ### The operations -/

theorem drive_eq (session : Session) (n : Nat) (ts : List Token) :
    (drive (VerifierRegistry.backend lv) sid session n ts : ServerProg (VerifierRegistry V) ε Unit) =
      .atomic .other fun _ => callVerifier (VerifierRegistry.onObject sid n
        (if session.nextGlobalPosition = 0 then lv.prefill ts else lv.append ts)) := by
  unfold drive
  by_cases hpos : session.nextGlobalPosition = 0
  · rw [if_pos hpos]
    simp only [if_pos hpos]
    have hrun : ∀ (x : Proc (VerifierRegistry V) ε Unit) (s : Server (VerifierRegistry V) ε),
        (callVerifier x).run s =
          ((x.run s.verifiers).1.mapError .verifier, { s with verifiers := (x.run s.verifiers).2 }) := by
      intro x s
      unfold callVerifier
      rw [Proc.run_focus]
      rcases x.run s.verifiers with ⟨_ | _, _⟩ <;> rfl
    unfold Prog.atomic
    simp only [hrun]
    rfl
  · rw [if_neg hpos]
    simp only [if_neg hpos]
    rfl

theorem drive_confined (session : Session) (n : Nat) (ts : List Token) :
    (drive (VerifierRegistry.backend lv) sid session n ts).Confined view (Sound (ε := ε)) sid := by
  rw [drive_eq]
  exact OnSession.confined fun _ => onObject_onSession n _

theorem appendTokens_confined (ts : List Token) :
    (appendTokens (VerifierRegistry.backend lv) sid ts).Confined view (Sound (ε := ε)) sid := by
  refine (OnSession.confined fun m => checkCancelled_onSession _ m).bind fun _ => ?_
  refine (OnSession.confined fun _ => callStore_onSession (SessionStore.getSession_local sid)
    (SessionStore.getSession_lowers sid)).bind fun session => ?_
  refine (OnSession.confined fun _ => resolve_onSession).bind fun n => ?_
  split
  · exact (OnSession.confined fun m => touch_onSession m.clock).bind fun _ => trivial
  · refine (drive_confined session n ts).bind fun _ => ?_
    refine (OnSession.confined fun m => checkCancelled_onSession _ m).bind fun _ => ?_
    refine (OnSession.confined fun _ => mirror_onSession n).bind fun _ => ?_
    refine (OnSession.confined fun m => storeAppend_onSession ts m.clock).bind fun _ => ?_
    exact (OnSession.confined fun m => recordPosition_onSession n m.clock).bind fun _ => trivial

theorem yieldEvent_confined (event : Int → GenerateEvent) :
    (yieldEvent sid event : ServerProg (VerifierRegistry V) ε Unit).Confined view Sound sid :=
  OnSession.confined fun _ => reveal_onSession _

theorem generateLoop_confined (n : Nat) (eos : List Token) (t0 : Int) (left count : Nat) :
    (generateLoop (VerifierRegistry.backend lv) sid n eos t0 left count).Confined view (Sound (ε := ε)) sid := by
  induction left generalizing count with
  | zero =>
    unfold generateLoop
    exact yieldEvent_confined _
  | succ left ih =>
    refine (OnSession.confined fun m => OnSession.pure m.cancelled).bind fun cancelled => ?_
    split
    · exact yieldEvent_confined _
    · refine (OnSession.confined fun _ => onObject_onSession n _).bind fun nextToken => ?_
      refine (OnSession.confined fun _ => mirror_onSession n).bind fun _ => ?_
      refine (OnSession.confined fun m => storeAppend_onSession [nextToken] m.clock).bind fun _ => ?_
      refine (OnSession.confined fun m => recordPosition_onSession n m.clock).bind fun _ => ?_
      refine (yieldEvent_confined _).bind fun _ => ?_
      split
      · exact yieldEvent_confined _
      · exact ih (count + 1)

theorem generateEvents_confined (maxTokens : Int) (sampling : Sampling) :
    (generateEvents (VerifierRegistry.backend lv) sid maxTokens sampling).Confined view (Sound (ε := ε)) sid := by
  refine Prog.Confined.bind (OnSession.confined fun _ => ?_) fun _ => ?_
  · cases checkArguments (ε := ε) maxTokens sampling with
    | error e => exact OnSession.raise e
    | ok a => exact OnSession.pure a
  refine (OnSession.confined fun _ => callStore_onSession (SessionStore.getSession_local sid)
    (SessionStore.getSession_lowers sid)).bind fun session => ?_
  refine (OnSession.confined fun _ => resolve_onSession).bind fun n => ?_
  split
  · exact trivial
  · refine Prog.Confined.bind ?_ fun _ => ?_
    · unfold yieldTruncated
      split
      · exact yieldEvent_confined _
      · exact trivial
    · refine (OnSession.confined fun m => OnSession.pure m.clock).bind fun t0 => ?_
      exact generateLoop_confined n session.eosTokenIds t0 maxTokens.toNat 0

/-- Every operation is confined to its session. -/
theorem program_confined (lv : LocalVerifier V ε) (sid : SessionId) (op : Operation) :
    (program (VerifierRegistry.backend lv) sid op).Confined view Sound sid := by
  cases op with
  | appendTokens ts =>
    exact (appendTokens_confined ts).andThen fun r => OnSession.confined fun _ => reveal_onSession _
  | generate maxTokens sampling =>
    refine Prog.Confined.andThen ?_ fun r => OnSession.confined fun _ => reveal_onSession _
    refine (OnSession.confined fun _ => enterGuard_onSession).bind fun _ => ?_
    refine (generateEvents_confined maxTokens sampling).andThen fun r => ?_
    exact (OnSession.confined fun _ => leaveGuard_onSession).bind fun _ => trivial

/-! ### Runs -/

/-- The id that an event issues is not that of a session of the store. -/
def Fresh {ρ : Type} (p : Running (VerifierRegistry V) ε) (m : Move Moment SessionId Operation (ServerEvent ρ)) : Prop :=
  match m with
  | .turn (.createSession hex _ _ _ _) => ¬ p.shared.store.Live (issueId hex)
  | _ => True

/-- An event neither removes the session from the store nor brings it there. -/
def Spares (lv : LocalVerifier V ε) (sid : SessionId) (p : Running (VerifierRegistry V) ε)
    (m : Move Moment SessionId Operation (ServerEvent Empty)) : Prop :=
  match m with
  | .turn e => (turn (VerifierRegistry.backend lv) Empty.elim e p.shared).store.Live sid ↔ p.shared.store.Live sid
  | _ => True

instance {ρ : Type} (p : Running (VerifierRegistry V) ε) (m : Move Moment SessionId Operation (ServerEvent ρ)) :
    Decidable (Fresh p m) := by
  unfold Fresh
  split <;> infer_instance

instance (sid : SessionId) (p : Running (VerifierRegistry V) ε)
    (m : Move Moment SessionId Operation (ServerEvent Empty)) : Decidable (Spares lv sid p m) := by
  unfold Spares
  split <;> infer_instance

variable (sid) in
/-- An event keeps the store consistent, and leaves alone what it spares. -/
theorem turn_sound {s : Server (VerifierRegistry V) ε} (hs : s.Sound) (e : ServerEvent Empty)
    (hfresh : ∀ hex eos label created active, e = .createSession hex eos label created active →
      ¬ s.store.Live (issueId hex)) :
    (turn (VerifierRegistry.backend lv) Empty.elim e s).Sound ∧
      ((((turn (VerifierRegistry.backend lv) Empty.elim e s).store.Live sid ↔ s.store.Live sid)) →
        view sid (turn (VerifierRegistry.backend lv) Empty.elim e s) = view sid s) := by
  have hcall : ∀ {α : Type} {x : SessionProc α} {issued : Option SessionId}, (x.run s.store).2.Consistent →
      SessionStore.Stepped issued s.store (x.run s.store).2 → SessionStore.Pruned issued s.store (x.run s.store).2 →
      (∀ id, issued = some id → ¬ s.store.Live id) →
      ((callStore (VerifierRegistry.backend lv) x).run s).2.Sound ∧
        (((x.run s.store).2.Live sid ↔ s.store.Live sid) →
          view sid ((callStore (VerifierRegistry.backend lv) x).run s).2 = view sid s) := by
    intro α x issued hcons hstep hpruned hnew
    refine ⟨⟨hcons, hstep.hasCallback.trans hs.2⟩, fun hlive => ?_⟩
    rw [callStore_view hs hstep hpruned.1]
    have hsame : (x.run s.store).2.sessions.get? sid = s.store.sessions.get? sid := by
      unfold SessionStore.Live at hlive
      cases hx : s.store.sessions.get? sid with
      | none =>
        cases hx' : (x.run s.store).2.sessions.get? sid with
        | none => rfl
        | some y => simp [hx, hx'] at hlive
      | some y =>
        have hne : issued ≠ some sid := fun h => hnew sid h ⟨y, hx⟩
        rcases hpruned.2 sid hne with h | h
        · rw [h, hx]
        · simp [hx, h] at hlive
    rw [hsame]
    unfold View.withSession view
    cases s.store.sessions.get? sid <;> simp
  cases e with
  | createSession hex eos label created active =>
    obtain ⟨hcons, hstep, -⟩ := SessionStore.createSession_spec hs.1 (fun _ => none)
      (hfresh hex eos label created active rfl) eos label created active
    refine hcall hcons hstep (SessionStore.createSession_pruned hs.1 _ eos label created active) fun id hid => ?_
    rw [← Option.some.inj hid]
    exact hfresh hex eos label created active rfl
  | closeSession id =>
    obtain ⟨hcons, hstep⟩ := SessionStore.closeSession_lowers (fun _ => none) id s.store hs.1
    exact hcall hcons hstep (SessionStore.closeSession_pruned hs.1 id) (by simp)
  | removeSessionIfPresent id reason =>
    obtain ⟨hcons, hstep⟩ := SessionStore.removeSessionIfPresent_lowers (fun _ => none) id reason s.store hs.1
    exact hcall hcons hstep (SessionStore.removeSessionIfPresent_pruned hs.1 id reason) (by simp)
  | evictIdle ttl clock =>
    obtain ⟨hcons, hstep⟩ := SessionStore.evictIdle_lowers (fun _ => none) ttl clock s.store hs.1
    exact hcall hcons hstep (SessionStore.evictIdleLoop_pruned ttl clock s.store.sessions.keys hs.1) (by simp)
  | verifiers t => exact t.elim

/-- Every state of a run is sound, and its operations are confined to their sessions. -/
theorem final_confining {p : Running (VerifierRegistry V) ε} (hp : p.Confining view Sound)
    {run : List (Move Moment SessionId Operation (ServerEvent Empty))}
    (hfresh : Machine.AllSteps (step (VerifierRegistry.backend lv) Empty.elim) Fresh p run) :
    (Machine.final (step (VerifierRegistry.backend lv) Empty.elim) p run).Confining view Sound := by
  refine Machine.final_of_steps (C := Fresh) (I := fun p => p.Confining view Sound) ?_ hp hfresh
  intro p m hp hm
  cases m with
  | turn e =>
    refine ⟨(turn_sound "" hp.1 e ?_).1, hp.2⟩
    rintro hex eos label created active rfl
    exact hm
  | start n op =>
    unfold step Pool.move
    dsimp only
    split
    · exact hp
    · exact hp.set hp.1 (program_confined lv n.1 op)
  | step n i =>
    unfold step Pool.move
    dsimp only
    cases hq : p.programs.get? n with
    | none => exact hp
    | some q =>
      cases q with
      | done r => exact hp
      | step k act next =>
        obtain ⟨hothers, -, hnext⟩ := hp.2 n _ hq i
        exact hp.set (hothers p.shared hp.1).1 (hnext p.shared)

end Server

/-- From every state that a run of the server leads to, and for every further run in which a session is neither removed by
an event nor brought back: the session, with its history and its position, and what its client sees, are as after the moves
of its own operations alone. -/
theorem sessions_do_not_interfere {V ε : Type} (lv : LocalVerifier V ε) {capacity : Int} {hasInspector : Bool}
    {pool : Option SlabPool} {s₀ : SessionStore} (hs : SessionStore.create capacity hasInspector pool true = .ok s₀)
    (hpool : ∀ p, pool = some p → ∃ n, SlabPool.create n = .ok p) (sid : SessionId)
    (before run : List (Move Moment SessionId Server.Operation (Server.ServerEvent Empty)))
    (hfresh : Machine.AllSteps (Server.step (VerifierRegistry.backend lv) Empty.elim) Server.Fresh
      (Server.started s₀ (VerifierRegistry.initial lv)) (before ++ run))
    (hspared : Machine.AllSteps (Server.step (VerifierRegistry.backend lv) Empty.elim) (Server.Spares lv sid)
      (Machine.final (Server.step (VerifierRegistry.backend lv) Empty.elim)
        (Server.started s₀ (VerifierRegistry.initial lv)) before) run) :
    let state := Machine.final (Server.step (VerifierRegistry.backend lv) Empty.elim)
      (Server.started s₀ (VerifierRegistry.initial lv)) before
    let company := Machine.final (Server.step (VerifierRegistry.backend lv) Empty.elim) state run
    let alone := Machine.final (Server.step (VerifierRegistry.backend lv) Empty.elim) state
      (run.filter (Pool.Concerns sid))
    company.shared.store.sessions.get? sid = alone.shared.store.sessions.get? sid ∧
      company.shared.streams.get? sid = alone.shared.streams.get? sid := by
  intro state company alone
  obtain ⟨hcons, -, -, hcb, -⟩ := SessionStore.create_consistent hs hpool
  have hstart : (Server.started (ε := ε) s₀ (VerifierRegistry.initial lv)).Confining Server.view Server.Sound := by
    refine ⟨⟨hcons, hcb⟩, ?_⟩
    intro n q hq
    cases hq
  rw [Machine.allSteps_append] at hfresh
  have hstate : state.Confining Server.view Server.Sound := Server.final_confining hstart hfresh.1
  have halike : Pool.Alike Server.view Server.Sound sid company alone := by
    refine Pool.final_confined (Server.program_confined lv) run ⟨hstate, hstate, rfl, fun _ => rfl⟩ ?_
    have hboth := hfresh.2.and hspared
    refine hboth.mono ?_
    rintro p m ⟨hf, hsp⟩ hI e rfl
    obtain ⟨hsound, hview⟩ := Server.turn_sound sid hI e (by
      rintro hex eos label created active rfl
      exact hf)
    exact ⟨hsound, hview hsp⟩
  exact ⟨congrArg Server.View.session halike.views, congrArg Server.View.stream halike.views⟩

/-- Two sessions. -/
def twoSessions : List (Move Moment SessionId Server.Operation (Server.ServerEvent Empty)) :=
  [.turn (.createSession "0" [9] "" 0 0), .turn (.createSession "1" [] "" 0 0)]

/-- Steps of the two sessions in turns, with appends to both, a stream for each, and the other session closed. -/
def interleavedRun : List (Move Moment SessionId Server.Operation (Server.ServerEvent Empty)) :=
  [.start ("sess-0", 0) (.appendTokens [9]), .start ("sess-1", 0) (.appendTokens [4, 5])] ++
    (List.replicate 9 [.step ("sess-1", 0) ⟨1, none⟩, .step ("sess-0", 0) ⟨2, none⟩]).flatten ++
    [.start ("sess-0", 1) (.generate 3 {}), .start ("sess-1", 1) (.generate 2 {})] ++
    (List.replicate 16 [.step ("sess-1", 1) ⟨3, none⟩, .step ("sess-0", 1) ⟨4, none⟩]).flatten ++
    [.turn (.closeSession "sess-1")]

/-- The first session ends as it does alone, with its token and the end token of its stream. -/
theorem interleaved_sessions_isolated :
    ∃ s₀, SessionStore.create 2 true none true = .ok s₀ ∧
      let step := Server.step (VerifierRegistry.backend echoVerifier) Empty.elim
      let state := Machine.final step (Server.started s₀ (VerifierRegistry.initial echoVerifier)) twoSessions
      let company := Machine.final step state interleavedRun
      let alone := Machine.final step state (interleavedRun.filter (Pool.Concerns "sess-0"))
      (company.shared.store.sessions.get? "sess-0").map Session.historyTokenIds = some [9, 9] ∧
        company.shared.store.sessions.get? "sess-0" = alone.shared.store.sessions.get? "sess-0" ∧
        company.shared.streams.get? "sess-0" = alone.shared.streams.get? "sess-0" := by
  obtain ⟨s₀, hs⟩ : ∃ s₀, SessionStore.create 2 true none true = .ok s₀ := ⟨_, rfl⟩
  have h := sessions_do_not_interfere echoVerifier hs (by simp) "sess-0" twoSessions interleavedRun
  obtain rfl := Except.ok.inj hs
  refine ⟨_, rfl, ?_, h ?_ ?_⟩
  · decide +kernel
  · decide +kernel
  · decide +kernel

end KakeyaEngine
