import KakeyaEngine.Session.Store

/-!
# Conservation of sessions and slabs

A removal takes a session out of the table, gives its slab back and tells the callback (`Dropped`).  Every operation but
`create_session` is a chain of removals and of writes that keep ids and slabs (`Shrinks`); `create_session` adds one
session at the end of such a chain.  The invariant `Consistent` and what the callback has been told follow from this for
every run in which no id is issued twice.
-/

namespace KakeyaEngine

namespace SessionStore

/-- The table, the slabs and the pool agree. -/
structure Consistent (s : SessionStore) : Prop where
  roomy : 0 < s.capacity
  keyed : ∀ id x, s.sessions.get? id = some x → x.sessionId = id
  within : s.sessions.size ≤ s.capacity
  distinct : ∀ id id' x x' i, s.sessions.get? id = some x → s.sessions.get? id' = some x' → x.slab = some i →
    x'.slab = some i → id = id'
  held : ∀ p, s.slabPool = some p → ∀ i, i ∈ p.inUse ↔ ∃ id x, s.sessions.get? id = some x ∧ x.slab = some i
  counted : ∀ p, s.slabPool = some p → p.inUse.card = s.sessions.size
  owned : ∀ p, s.slabPool = some p → ∀ id x, s.sessions.get? id = some x → ∃ i, x.slab = some i
  slabless : s.slabPool = none → ∀ id x, s.sessions.get? id = some x → x.slab = none

/-- What a call does: at most the id it issues is new, and the callback is told of exactly the sessions that are gone,
of each once. -/
structure Stepped (issued : Option SessionId) (s s' : SessionStore) : Prop where
  capacity : s'.capacity = s.capacity
  hasCallback : s'.hasCallback = s.hasCallback
  total : s'.slabPool.map SlabPool.totalCount = s.slabPool.map SlabPool.totalCount
  live : ∀ id, s'.Live id → s.Live id ∨ issued = some id
  notified : ∃ new, s'.notified = s.notified ++ new ∧ (s.hasCallback = true → (new.map Prod.fst).Nodup ∧
    ∀ id, id ∈ new.map Prod.fst ↔ s.Live id ∧ ¬ s'.Live id)

/-- What a chain of removals and writes does. -/
abbrev Shrinks (s s' : SessionStore) : Prop := Stepped none s s'

theorem Shrinks.live_of {s s' : SessionStore} (h : Shrinks s s') {id : SessionId} (hid : s'.Live id) : s.Live id :=
  (h.live id hid).resolve_right (by simp)

theorem Shrinks.refl (s : SessionStore) : Shrinks s s := by
  refine ⟨rfl, rfl, rfl, fun _ h => Or.inl h, [], by simp, fun _ => ⟨by simp, ?_⟩⟩
  intro id
  simp

/-- A chain of removals and writes before a call that issues a new id. -/
theorem Shrinks.stepped {s t u : SessionStore} {issued : Option SessionId} (h : Shrinks s t) (h' : Stepped issued t u)
    (hissued : ∀ id, issued = some id → ¬ s.Live id) : Stepped issued s u := by
  obtain ⟨new, hnew, hspec⟩ := h.notified
  obtain ⟨new', hnew', hspec'⟩ := h'.notified
  refine ⟨h'.capacity.trans h.capacity, h'.hasCallback.trans h.hasCallback, h'.total.trans h.total,
    fun id hu => (h'.live id hu).imp_left h.live_of, new ++ new', by rw [hnew', hnew, List.append_assoc], ?_⟩
  intro hcb
  obtain ⟨hnd, hmem⟩ := hspec hcb
  obtain ⟨hnd', hmem'⟩ := hspec' (h.hasCallback.trans hcb)
  rw [List.map_append]
  constructor
  · rw [List.nodup_append]
    refine ⟨hnd, hnd', ?_⟩
    rintro id hid id' hid' rfl
    exact ((hmem id).1 hid).2 ((hmem' id).1 hid').1
  · intro id
    rw [List.mem_append, hmem, hmem']
    constructor
    · rintro (⟨hs, ht⟩ | ⟨ht, hu⟩)
      · refine ⟨hs, fun hu => ?_⟩
        rcases h'.live id hu with hlive | heq
        · exact ht hlive
        · exact hissued id heq hs
      · exact ⟨h.live_of ht, hu⟩
    · rintro ⟨hs, hu⟩
      by_cases ht : t.Live id
      · exact Or.inr ⟨ht, hu⟩
      · exact Or.inl ⟨hs, ht⟩

theorem Shrinks.trans {s t u : SessionStore} (h : Shrinks s t) (h' : Shrinks t u) : Shrinks s u :=
  h.stepped h' (by simp)

/-! ### Writing a session -/

private theorem live_write (s : SessionStore) (x : Session) (id : SessionId) :
    (s.write x).Live id ↔ id = x.sessionId ∨ s.Live id := by
  unfold Live write
  simp only [Dict.get?_set]
  by_cases h : id = x.sessionId
  · simp [h]
  · simp [h]

/-- A write that keeps the id and the slab of a session keeps the invariant. -/
theorem write_shrinks {s : SessionStore} (hs : s.Consistent) {x y : Session}
    (hy : s.sessions.get? x.sessionId = some y) (hslab : x.slab = y.slab) :
    (s.write x).Consistent ∧ Shrinks s (s.write x) := by
  have hget : ∀ id z, (s.write x).sessions.get? id = some z →
      ∃ z', s.sessions.get? id = some z' ∧ z.slab = z'.slab ∧ z.sessionId = id := by
    intro id z hz
    unfold write at hz
    rw [Dict.get?_set] at hz
    split at hz
    · rename_i h
      obtain rfl := Option.some.inj hz
      exact ⟨y, by rw [h]; exact hy, hslab, h.symm⟩
    · exact ⟨z, hz, rfl, hs.keyed id z hz⟩
  have hback : ∀ id z, s.sessions.get? id = some z → ∃ z', (s.write x).sessions.get? id = some z' ∧ z'.slab = z.slab := by
    intro id z hz
    unfold write
    rw [Dict.get?_set]
    split
    · rename_i h
      rw [h, hy] at hz
      obtain rfl := Option.some.inj hz
      exact ⟨x, rfl, hslab⟩
    · exact ⟨z, hz, rfl⟩
  have hsize : (s.write x).sessions.size = s.sessions.size := Dict.size_set_old x hy
  refine ⟨⟨hs.roomy, fun id z hz => (hget id z hz).choose_spec.2.2, ?_, ?_, ?_, ?_, ?_, ?_⟩, ⟨rfl, rfl, rfl, ?_, ?_⟩⟩
  · rw [hsize]
    exact hs.within
  · intro id id' z z' i hz hz' hi hi'
    obtain ⟨w, hw, hws, -⟩ := hget id z hz
    obtain ⟨w', hw', hws', -⟩ := hget id' z' hz'
    exact hs.distinct id id' w w' i hw hw' (hws ▸ hi) (hws' ▸ hi')
  · intro p hp i
    rw [hs.held p hp i]
    constructor
    · rintro ⟨id, z, hz, hi⟩
      obtain ⟨z', hz', hs'⟩ := hback id z hz
      exact ⟨id, z', hz', hs'.trans hi⟩
    · rintro ⟨id, z, hz, hi⟩
      obtain ⟨w, hw, hws, -⟩ := hget id z hz
      exact ⟨id, w, hw, hws ▸ hi⟩
  · intro p hp
    rw [hsize]
    exact hs.counted p hp
  · intro p hp id z hz
    obtain ⟨w, hw, hws, -⟩ := hget id z hz
    obtain ⟨i, hi⟩ := hs.owned p hp id w hw
    exact ⟨i, hws.trans hi⟩
  · intro hp id z hz
    obtain ⟨w, hw, hws, -⟩ := hget id z hz
    exact hws.trans (hs.slabless hp id w hw)
  · intro id hid
    rcases (live_write s x id).1 hid with rfl | h
    · exact Or.inl ⟨y, hy⟩
    · exact Or.inl h
  · refine ⟨[], by simp [write], fun _ => ⟨by simp, ?_⟩⟩
    intro id
    rw [live_write]
    simp only [List.map_nil, List.not_mem_nil, false_iff, not_and, not_not]
    exact Or.inr

/-! ### Removing a session -/

/-- The store without a session. -/
structure Dropped (s : SessionStore) (y : Session) (reason : String) (s' : SessionStore) : Prop where
  capacity : s'.capacity = s.capacity
  hasCallback : s'.hasCallback = s.hasCallback
  sessions : s'.sessions = s.sessions.erase y.sessionId
  pool : (s.slabPool = none ∧ s'.slabPool = none) ∨ ∃ p p' i, s.slabPool = some p ∧ s'.slabPool = some p' ∧
    y.slab = some i ∧ p'.inUse = p.inUse.erase i ∧ p'.totalCount = p.totalCount
  notified : s'.notified = if s.hasCallback = true then s.notified ++ [(y.sessionId, reason)] else s.notified

theorem Dropped.shrinks {s s' : SessionStore} {y : Session} {reason : String} (h : Dropped s y reason s')
    (hs : s.Consistent) (hy : s.sessions.get? y.sessionId = some y) : s'.Consistent ∧ Shrinks s s' := by
  have hget : ∀ id z, s'.sessions.get? id = some z → id ≠ y.sessionId ∧ s.sessions.get? id = some z := by
    intro id z hz
    rw [h.sessions, Dict.get?_erase] at hz
    split at hz
    · cases hz
    · rename_i hne
      exact ⟨hne, hz⟩
  have hsize : s.sessions.size = s'.sessions.size + 1 := by
    rw [h.sessions]
    exact Dict.size_erase hy
  have hlive : ∀ id, s'.Live id ↔ id ≠ y.sessionId ∧ s.Live id := by
    intro id
    unfold Live
    rw [h.sessions]
    simp only [Dict.get?_erase]
    by_cases hid : id = y.sessionId <;> simp [hid]
  refine ⟨⟨h.capacity ▸ hs.roomy, fun id z hz => hs.keyed id z (hget id z hz).2, ?_, ?_, ?_, ?_, ?_, ?_⟩,
    ⟨h.capacity, h.hasCallback, ?_, fun id hid => Or.inl ((hlive id).1 hid).2, ?_⟩⟩
  · have := hs.within
    rw [h.capacity]
    omega
  · intro id id' z z' i hz hz'
    exact hs.distinct id id' z z' i (hget id z hz).2 (hget id' z' hz').2
  · intro q hq i
    rcases h.pool with ⟨-, hnone⟩ | ⟨p, p', j, hp, hp', hj, huse, -⟩
    · rw [hnone] at hq
      cases hq
    · rw [hp'] at hq
      obtain rfl := Option.some.inj hq
      rw [huse, Finset.mem_erase, hs.held p hp i]
      constructor
      · rintro ⟨hne, id, z, hz, hi⟩
        refine ⟨id, z, ?_, hi⟩
        rw [h.sessions, Dict.get?_erase, if_neg]
        · exact hz
        · rintro rfl
          rw [hy] at hz
          obtain rfl := Option.some.inj hz
          rw [hj] at hi
          exact hne (Option.some.inj hi).symm
      · rintro ⟨id, z, hz, hi⟩
        obtain ⟨hne, hz⟩ := hget id z hz
        refine ⟨?_, id, z, hz, hi⟩
        rintro rfl
        exact hne (hs.distinct id y.sessionId z y i hz hy hi hj)
  · intro q hq
    rcases h.pool with ⟨-, hnone⟩ | ⟨p, p', j, hp, hp', hj, huse, -⟩
    · rw [hnone] at hq
      cases hq
    · rw [hp'] at hq
      obtain rfl := Option.some.inj hq
      have hmem : j ∈ p.inUse := (hs.held p hp j).2 ⟨y.sessionId, y, hy, hj⟩
      have hcard := Finset.card_erase_add_one hmem
      have hcount := hs.counted p hp
      rw [huse]
      omega
  · intro q hq id z hz
    rcases h.pool with ⟨-, hnone⟩ | ⟨p, p', j, hp, hp', -, -, -⟩
    · rw [hnone] at hq
      cases hq
    · exact hs.owned p hp id z (hget id z hz).2
  · intro hq id z hz
    rcases h.pool with ⟨hnone, -⟩ | ⟨p, p', j, -, hp', -, -, -⟩
    · exact hs.slabless hnone id z (hget id z hz).2
    · rw [hp'] at hq
      cases hq
  · rcases h.pool with ⟨hnone, hnone'⟩ | ⟨p, p', j, hp, hp', -, -, htotal⟩
    · rw [hnone, hnone']
    · rw [hp, hp', Option.map_some, Option.map_some, htotal]
  · by_cases hcb : s.hasCallback = true
    · refine ⟨[(y.sessionId, reason)], by rw [h.notified, if_pos hcb], fun _ => ⟨by simp, ?_⟩⟩
      intro id
      rw [hlive]
      simp only [List.map_cons, List.map_nil, List.mem_singleton, not_and]
      constructor
      · rintro rfl
        exact ⟨⟨y, hy⟩, fun h => absurd rfl h⟩
      · rintro ⟨hl, himp⟩
        by_contra hne
        exact himp hne hl
    · exact ⟨[], by rw [h.notified, if_neg hcb, List.append_nil], fun h => absurd h hcb⟩

/-- Giving the slab back never fails, and leaves the session without it. -/
private theorem releaseSlabIfHeld_run {s : SessionStore} (hs : s.Consistent) {x y : Session}
    (hid : x.sessionId = y.sessionId) (hslab : x.slab = y.slab) (hy : s.sessions.get? y.sessionId = some y) :
    ∃ t, (releaseSlabIfHeld x).run s = (.ok (), t) ∧ t.capacity = s.capacity ∧ t.hasCallback = s.hasCallback ∧
      t.notified = s.notified ∧ t.sessions.erase y.sessionId = s.sessions.erase y.sessionId ∧
      ((s.slabPool = none ∧ t.slabPool = none) ∨ ∃ p p' i, s.slabPool = some p ∧ t.slabPool = some p' ∧
        y.slab = some i ∧ p'.inUse = p.inUse.erase i ∧ p'.totalCount = p.totalCount) := by
  unfold releaseSlabIfHeld
  cases hp : s.slabPool with
  | none =>
    rw [hslab, hs.slabless hp _ _ hy]
    exact ⟨s, rfl, rfl, rfl, rfl, rfl, Or.inl ⟨rfl, hp⟩⟩
  | some p =>
    obtain ⟨i, hi⟩ := hs.owned p hp _ _ hy
    have hmem : i ∈ p.inUse := (hs.held p hp i).2 ⟨_, y, hy, hi⟩
    obtain ⟨p', hrel, huse, htotal⟩ := SlabPool.release_ok hmem
    rw [hslab, hi]
    dsimp only
    rw [Proc.run_modify_bind, Proc.run_get_bind]
    have hpool : (s.write { x with slab := none }).slabPool = some p := hp
    rw [hpool]
    dsimp only
    rw [hrel]
    refine ⟨_, rfl, rfl, rfl, rfl, ?_, Or.inr ⟨p, p', i, rfl, rfl, rfl, huse, htotal⟩⟩
    unfold write
    dsimp only
    rw [hid, Dict.erase_set]

/-- A removal drops the session, and only the callback can make it raise. -/
theorem removeSession_run {s : SessionStore} (hs : s.Consistent) (callback : RemovalCallback) (reason : String)
    {x y : Session} (hid : x.sessionId = y.sessionId) (hslab : x.slab = y.slab)
    (hy : s.sessions.get? y.sessionId = some y) :
    ∃ r s', (removeSession callback x reason).run s = (r, s') ∧ Dropped s y reason s' ∧
      (r = .ok () ∨ ∃ text, callback x.sessionId = some text ∧ r = .error (.raised text)) := by
  obtain ⟨t, hrel, hcap, hcb, hnote, hsess, hpool⟩ := releaseSlabIfHeld_run hs hid hslab hy
  unfold removeSession
  rw [Proc.run_bind_ok hrel, Proc.run_modify_bind]
  unfold notify
  rw [Proc.run_get_bind]
  dsimp only
  by_cases hc : t.hasCallback = false
  · rw [if_pos hc]
    refine ⟨_, _, rfl, ⟨hcap, hcb, ?_, hpool, ?_⟩, Or.inl rfl⟩
    · dsimp only
      rw [hid, hsess]
    · dsimp only
      rw [hnote, ← hcb, hc, if_neg (by simp)]
  · rw [if_neg hc, Proc.run_modify_bind]
    have hdrop : Dropped s y reason
        { t with
          sessions := t.sessions.erase x.sessionId, notified := t.notified ++ [(x.sessionId, reason)] } := by
      refine ⟨hcap, hcb, ?_, hpool, ?_⟩
      · dsimp only
        rw [hid, hsess]
      · dsimp only
        rw [hnote, hid, ← hcb, if_pos (by simpa using hc)]
    cases callback x.sessionId with
    | none => exact ⟨_, _, rfl, hdrop, Or.inl rfl⟩
    | some text => exact ⟨_, _, rfl, hdrop, Or.inr ⟨text, rfl, rfl⟩⟩

/-! ### The operations -/

/-- The store is consistent and has come from `s` by removals and writes. -/
def Below (s t : SessionStore) : Prop := t.Consistent ∧ Shrinks s t

theorem Below.refl {s : SessionStore} (hs : s.Consistent) : Below s s := ⟨hs, Shrinks.refl s⟩

theorem Below.trans {s t u : SessionStore} (h : Below s t) (h' : Below t u) : Below s u := ⟨h'.1, h.2.trans h'.2⟩

/-- A procedure that takes every consistent store to one below it. -/
def Lowers {α : Type} (x : SessionProc α) : Prop := ∀ s : SessionStore, s.Consistent → Below s (x.run s).2

theorem Lowers.pure {α : Type} (a : α) : Lowers (Pure.pure a : SessionProc α) := fun _ hs => Below.refl hs

theorem Lowers.bind {α β : Type} {x : SessionProc α} {f : α → SessionProc β} (hx : Lowers x) (hf : ∀ a, Lowers (f a)) :
    Lowers (x >>= f) := by
  intro s hs
  have h := hx s hs
  rw [Proc.run_bind]
  rcases hr : x.run s with ⟨_ | a, t⟩
  · rw [hr] at h
    exact h
  · rw [hr] at h
    exact h.trans (hf a t h.1)

/-- A continuation that only returns or raises changes nothing. -/
theorem Below.bind_end {α β : Type} {s : SessionStore} {x : SessionProc α} {f : α → SessionProc β}
    (h : Below s (x.run s).2) (hf : ∀ a t, ((f a).run t).2 = t) : Below s ((x >>= f).run s).2 := by
  rw [Proc.run_bind]
  rcases hr : x.run s with ⟨_ | a, t⟩
  · rw [hr] at h
    exact h
  · rw [hr] at h
    dsimp only
    rw [hf a t]
    exact h

theorem getSession_lowers (id : SessionId) : Lowers (getSession id) := by
  intro s hs
  unfold getSession
  rw [Proc.run_get_bind]
  cases s.sessions.get? id with
  | none => exact Below.refl hs
  | some x => exact Below.refl hs

/-- A session that resolves is stored under its id. -/
theorem getSession_cases {s : SessionStore} (hs : s.Consistent) (id : SessionId) :
    (∃ x, (getSession id).run s = (.ok x, s) ∧ s.sessions.get? x.sessionId = some x ∧ x.sessionId = id) ∨
      (getSession id).run s = (.error (.notFound id), s) := by
  unfold getSession
  rw [Proc.run_get_bind]
  cases hx : s.sessions.get? id with
  | none => exact Or.inr rfl
  | some x =>
    have hid := hs.keyed id x hx
    exact Or.inl ⟨x, rfl, by rw [hid]; exact hx, hid⟩

theorem removeSession_below {s : SessionStore} (hs : s.Consistent) (callback : RemovalCallback) (reason : String)
    {x y : Session} (hid : x.sessionId = y.sessionId) (hslab : x.slab = y.slab)
    (hy : s.sessions.get? y.sessionId = some y) : Below s ((removeSession callback x reason).run s).2 := by
  obtain ⟨r, s', hrun, hdrop, -⟩ := removeSession_run hs callback reason hid hslab hy
  rw [hrun]
  exact hdrop.shrinks hs hy

theorem closeSession_lowers (callback : RemovalCallback) (id : SessionId) : Lowers (closeSession callback id) := by
  intro s hs
  unfold closeSession
  rcases getSession_cases hs id with ⟨x, hrun, hx, -⟩ | hrun
  · rw [Proc.run_bind_ok hrun]
    exact (removeSession_below hs callback "explicit_close" rfl rfl hx).bind_end fun _ _ => rfl
  · rw [Proc.run_bind_error hrun]
    exact Below.refl hs

theorem removeSessionIfPresent_lowers (callback : RemovalCallback) (id : SessionId) (reason : String) :
    Lowers (removeSessionIfPresent callback id reason) := by
  intro s hs
  unfold removeSessionIfPresent
  rw [Proc.run_get_bind]
  cases hx : s.sessions.get? id with
  | none => exact Below.refl hs
  | some x =>
    have hid := hs.keyed id x hx
    have hx' : s.sessions.get? x.sessionId = some x := by rw [hid]; exact hx
    exact (removeSession_below hs callback reason rfl rfl hx').bind_end fun _ _ => rfl

theorem recordPositionAdvance_lowers (callback : RemovalCallback) (id : SessionId) (p now : Int) :
    Lowers (recordPositionAdvance callback id p now) := by
  intro s hs
  unfold recordPositionAdvance
  rcases getSession_cases hs id with ⟨x, hrun, hx, -⟩ | hrun
  · rw [Proc.run_bind_ok hrun]
    split
    · refine Below.bind_end (removeSession_below hs callback "inv2_failure" (y := x) rfl rfl hx) ?_
      exact fun _ _ => rfl
    · exact write_shrinks hs (x := { x with nextGlobalPosition := p, lastActiveAt := now }) hx rfl
  · rw [Proc.run_bind_error hrun]
    exact Below.refl hs

theorem assertInv1_below {s : SessionStore} (hs : s.Consistent) (callback : RemovalCallback) {x : Session}
    (hx : s.sessions.get? x.sessionId = some x) (k : Except String Int) :
    Below s ((assertInv1 callback x k).run s).2 := by
  unfold assertInv1
  rw [Proc.run_get_bind]
  split
  · exact Below.refl hs
  cases k with
  | error text => exact Below.refl hs
  | ok actual =>
    dsimp only
    split
    · refine Below.bind_end (removeSession_below hs callback "inv1_failure" (y := x) rfl rfl hx) ?_
      exact fun _ _ => rfl
    · exact Below.refl hs

theorem appendTokens_lowers (callback : RemovalCallback) (id : SessionId) (ts : List Token) (now : Int)
    (k : Except String Int) : Lowers (appendTokens callback id ts now k) := by
  intro s hs
  unfold appendTokens
  rcases getSession_cases hs id with ⟨x, hrun, hx, -⟩ | hrun
  · rw [Proc.run_bind_ok hrun]
    split
    · exact Below.refl hs
    · dsimp only
      rw [Proc.run_modify_bind]
      generalize hz : ({ x with historyTokenIds := x.historyTokenIds ++ ts, lastActiveAt := now } : Session) = z
      have hzid : z.sessionId = x.sessionId := by rw [← hz]
      have hzslab : z.slab = x.slab := by rw [← hz]
      have hwrite : Below s (s.write z) := write_shrinks hs (hzid ▸ hx) hzslab
      have h := assertInv1_below hwrite.1 callback (x := z) (Dict.get?_set_self _ _ _) k
      exact hwrite.trans (h.bind_end fun _ _ => rfl)
  · rw [Proc.run_bind_error hrun]
    exact Below.refl hs

theorem evictIdleLoop_lowers (callback : RemovalCallback) (ttl clock : Int) (ids : List SessionId) :
    Lowers (evictIdleLoop callback ttl clock ids) := by
  induction ids with
  | nil => exact Lowers.pure _
  | cons id ids ih =>
    intro s hs
    unfold evictIdleLoop
    rcases getSession_cases hs id with ⟨x, hrun, hx, -⟩ | hrun
    · rw [Proc.run_bind_ok hrun]
      split
      · have h := removeSession_below hs callback "ttl_eviction" rfl rfl hx
        rw [Proc.run_bind]
        rcases hr : (removeSession callback x "ttl_eviction").run s with ⟨_ | a, t⟩
        · rw [hr] at h
          exact h
        · rw [hr] at h
          exact h.trans (Lowers.bind ih (fun _ => Lowers.pure _) t h.1)
      · exact ih s hs
    · rw [Proc.run_bind_error hrun]
      exact Below.refl hs

theorem evictIdle_lowers (callback : RemovalCallback) (ttl clock : Int) : Lowers (evictIdle callback ttl clock) :=
  fun s hs => evictIdleLoop_lowers callback ttl clock s.sessions.keys s hs

theorem syncSession_lowers (id : SessionId) (cached : List Token) (active : Int) :
    Lowers (syncSession id cached active) := by
  intro s hs
  unfold syncSession
  rw [Proc.run_get_bind]
  cases hx : s.sessions.get? id with
  | none => exact Below.refl hs
  | some x =>
    have hid := hs.keyed id x hx
    exact write_shrinks hs (x := { x with cachedTokenSequence := cached, lastActiveAt := active }) (y := x)
      (by rw [hid]; exact hx) rfl

/-! ### Creating a session -/

theorem leastActive_mem {es : List (SessionId × Session)} {x : Session} (h : leastActive es = some x) :
    ∃ id, (id, x) ∈ es := by
  cases es with
  | nil => cases h
  | cons e es =>
    obtain rfl := Option.some.inj h
    have hfold : ∀ (l : List (SessionId × Session)) (best : Session), (∃ id, (id, best) ∈ e :: es) → l ⊆ e :: es →
        ∃ id, (id, l.foldl (fun best e => if e.2.lastActiveAt < best.lastActiveAt then e.2 else best) best) ∈ e :: es := by
      intro l
      induction l with
      | nil => exact fun best hb _ => hb
      | cons a l ih =>
        intro best hb hl
        refine ih _ ?_ fun y hy => hl (List.mem_cons_of_mem a hy)
        dsimp only
        split
        · exact ⟨a.1, hl List.mem_cons_self⟩
        · exact hb
    exact hfold es e.2 ⟨e.1, List.mem_cons_self⟩ (List.subset_cons_self e es)

/-- What evicting the least active session does: it drops a session, unless the table is empty. -/
theorem evictOneLru_cases {s : SessionStore} (hs : s.Consistent) (callback : RemovalCallback) :
    (∃ r s' y, (evictOneLru callback).run s = (r, s') ∧ s.sessions.get? y.sessionId = some y ∧
      Dropped s y "lru_eviction" s' ∧ (r = .ok () ∨ ∃ text, r = .error (.raised text))) ∨
    (s.sessions.size = 0 ∧ ((evictOneLru callback).run s).2 = s) := by
  unfold evictOneLru
  rw [Proc.run_get_bind]
  cases hl : leastActive s.sessions.entries with
  | none =>
    refine Or.inr ⟨?_, rfl⟩
    cases he : s.sessions.entries with
    | nil => unfold Dict.size; rw [he]; rfl
    | cons e es => rw [he] at hl; cases hl
  | some y =>
    obtain ⟨id, hmem⟩ := leastActive_mem hl
    have hy := Dict.mem_entries_iff.1 hmem
    have hid := hs.keyed id y hy
    rw [← hid] at hy
    obtain ⟨r, s', hrun, hdrop, hr⟩ := removeSession_run hs callback "lru_eviction" rfl rfl hy
    exact Or.inl ⟨r, s', y, hrun, hy, hdrop, hr.imp_right fun ⟨text, _, h⟩ => ⟨text, h⟩⟩

theorem evictOneLru_lowers (callback : RemovalCallback) : Lowers (evictOneLru callback) := by
  intro s hs
  rcases evictOneLru_cases hs callback with ⟨r, s', y, hrun, hy, hdrop, -⟩ | ⟨-, hsame⟩
  · rw [hrun]
    exact hdrop.shrinks hs hy
  · rw [hsame]
    exact Below.refl hs

/-- Making room leaves room, unless the callback raises. -/
theorem makeRoom_spec {s : SessionStore} (hs : s.Consistent) (callback : RemovalCallback) :
    Below s ((makeRoom callback).run s).2 ∧
      (((makeRoom callback).run s).1 = .ok () ∧
          ((makeRoom callback).run s).2.sessions.size < ((makeRoom callback).run s).2.capacity ∨
        ∃ text, ((makeRoom callback).run s).1 = .error (.raised text)) := by
  unfold makeRoom
  rw [Proc.run_get_bind]
  split
  · rename_i hfull
    have hroomy := hs.roomy
    rcases evictOneLru_cases hs callback with ⟨r, s', y, hrun, hy, hdrop, hr⟩ | ⟨hempty, -⟩
    · rw [hrun]
      refine ⟨hdrop.shrinks hs hy, ?_⟩
      rcases hr with rfl | htext
      · refine Or.inl ⟨rfl, ?_⟩
        have hsize := Dict.size_erase hy
        have hwithin := hs.within
        show s'.sessions.size < s'.capacity
        rw [hdrop.sessions, hdrop.capacity]
        omega
      · exact Or.inr htext
    · omega
  · rename_i hroom
    exact ⟨Below.refl hs, Or.inl ⟨rfl, by simpa using hroom⟩⟩

/-- A new session in a consistent store with room, with a slab that was not in use. -/
theorem write_new {s : SessionStore} (hs : s.Consistent) (hroom : s.sessions.size < s.capacity) {x : Session}
    (hnew : ¬ s.Live x.sessionId) {pool : Option SlabPool}
    (hpool : (s.slabPool = none ∧ pool = none ∧ x.slab = none) ∨ ∃ p p' i, s.slabPool = some p ∧ pool = some p' ∧
      x.slab = some i ∧ i ∉ p.inUse ∧ p'.inUse = insert i p.inUse ∧ p'.totalCount = p.totalCount) :
    (({ s with slabPool := pool } : SessionStore).write x).Consistent ∧
      Stepped (some x.sessionId) s (({ s with slabPool := pool } : SessionStore).write x) := by
  have habsent : s.sessions.get? x.sessionId = none := by
    cases h : s.sessions.get? x.sessionId with
    | none => rfl
    | some y => exact absurd ⟨y, h⟩ hnew
  generalize hs' : ({ s with slabPool := pool } : SessionStore).write x = s'
  have hsess : s'.sessions = s.sessions.set x.sessionId x := by rw [← hs']; rfl
  have hsp : s'.slabPool = pool := by rw [← hs']; rfl
  have hcap : s'.capacity = s.capacity := by rw [← hs']; rfl
  have hget : ∀ id z, s'.sessions.get? id = some z ↔ (id = x.sessionId ∧ z = x) ∨ s.sessions.get? id = some z := by
    intro id z
    rw [hsess, Dict.get?_set]
    by_cases hid : id = x.sessionId
    · subst hid
      simp [habsent, eq_comm]
    · simp [hid]
  have hlive : ∀ id, s'.Live id ↔ id = x.sessionId ∨ s.Live id := by
    intro id
    rw [← hs']
    exact live_write { s with slabPool := pool } x id
  have hsize : s'.sessions.size = s.sessions.size + 1 := by
    rw [hsess]
    exact Dict.size_set_new x habsent
  -- the slab of the new session is held by no other one
  have hfresh : ∀ p i, s.slabPool = some p → i ∉ p.inUse → ∀ id z, s.sessions.get? id = some z → z.slab ≠ some i := by
    intro p i hp hi id z hz hzi
    exact hi ((hs.held p hp i).2 ⟨id, z, hz, hzi⟩)
  refine ⟨⟨?_, ?_, ?_, ?_, ?_, ?_, ?_, ?_⟩, ⟨hcap, by rw [← hs']; rfl, ?_, ?_, ?_⟩⟩
  · rw [hcap]
    exact hs.roomy
  · intro id z hz
    rcases (hget id z).1 hz with ⟨rfl, rfl⟩ | hz
    · rfl
    · exact hs.keyed id z hz
  · rw [hsize, hcap]
    omega
  · intro id id' z z' i hz hz' hi hi'
    rcases hpool with ⟨hnone, -, hx⟩ | ⟨p, p', j, hp, -, hx, hj, -, -⟩
    · rcases (hget id z).1 hz with ⟨-, rfl⟩ | hz
      · rw [hx] at hi
        cases hi
      · rw [hs.slabless hnone id z hz] at hi
        cases hi
    · rcases (hget id z).1 hz with ⟨rfl, rfl⟩ | hz
      · rcases (hget id' z').1 hz' with ⟨rfl, -⟩ | hz'
        · rfl
        · rw [hx] at hi
          exact absurd (hi'.trans hi.symm) (hfresh p j hp hj id' z' hz')
      · rcases (hget id' z').1 hz' with ⟨rfl, rfl⟩ | hz'
        · rw [hx] at hi'
          exact absurd (hi.trans hi'.symm) (hfresh p j hp hj id z hz)
        · exact hs.distinct id id' z z' i hz hz' hi hi'
  · intro q hq i
    rw [hsp] at hq
    rcases hpool with ⟨-, hnone, -⟩ | ⟨p, p', j, hp, hp', hx, -, huse, -⟩
    · rw [hnone] at hq
      cases hq
    · rw [hp'] at hq
      obtain rfl := Option.some.inj hq
      rw [huse, Finset.mem_insert, hs.held p hp i]
      constructor
      · rintro (rfl | ⟨id, z, hz, hi⟩)
        · exact ⟨x.sessionId, x, (hget _ _).2 (Or.inl ⟨rfl, rfl⟩), hx⟩
        · exact ⟨id, z, (hget _ _).2 (Or.inr hz), hi⟩
      · rintro ⟨id, z, hz, hi⟩
        rcases (hget id z).1 hz with ⟨-, rfl⟩ | hz
        · rw [hx] at hi
          exact Or.inl (Option.some.inj hi).symm
        · exact Or.inr ⟨id, z, hz, hi⟩
  · intro q hq
    rw [hsp] at hq
    rcases hpool with ⟨-, hnone, -⟩ | ⟨p, p', j, hp, hp', -, hj, huse, -⟩
    · rw [hnone] at hq
      cases hq
    · rw [hp'] at hq
      obtain rfl := Option.some.inj hq
      rw [huse, Finset.card_insert_of_notMem hj, hs.counted p hp, hsize]
  · intro q hq id z hz
    rw [hsp] at hq
    rcases hpool with ⟨-, hnone, -⟩ | ⟨p, p', j, hp, -, hx, -, -, -⟩
    · rw [hnone] at hq
      cases hq
    · rcases (hget id z).1 hz with ⟨-, rfl⟩ | hz
      · exact ⟨j, hx⟩
      · exact hs.owned p hp id z hz
  · intro hq id z hz
    rw [hsp] at hq
    rcases hpool with ⟨hnone, -, hx⟩ | ⟨p, p', j, -, hp', -, -, -, -⟩
    · rcases (hget id z).1 hz with ⟨-, rfl⟩ | hz
      · exact hx
      · exact hs.slabless hnone id z hz
    · rw [hp'] at hq
      cases hq
  · rw [hsp]
    rcases hpool with ⟨hnone, hnone', -⟩ | ⟨p, p', j, hp, hp', -, -, -, htotal⟩
    · rw [hnone, hnone']
    · rw [hp, hp', Option.map_some, Option.map_some, htotal]
  · intro id hid
    rcases (hlive id).1 hid with rfl | h
    · exact Or.inr rfl
    · exact Or.inl h
  · refine ⟨[], by rw [← hs']; simp [write], fun _ => ⟨by simp, ?_⟩⟩
    intro id
    rw [hlive]
    simp only [List.map_nil, List.not_mem_nil, false_iff, not_and, not_not]
    exact Or.inr

theorem acquireSlab_cases (s : SessionStore) :
    (s.slabPool = none ∧ acquireSlab.run s = (.ok none, s)) ∨
    (∃ p p' i, s.slabPool = some p ∧ i ∉ p.inUse ∧ p'.inUse = insert i p.inUse ∧ p'.totalCount = p.totalCount ∧
      acquireSlab.run s = (.ok (some i), { s with slabPool := some p' })) ∨
    (∃ p e, s.slabPool = some p ∧ p.inUse.card = p.totalCount ∧ acquireSlab.run s = (.error e, s)) := by
  unfold acquireSlab
  rw [Proc.run_get_bind]
  cases hp : s.slabPool with
  | none => exact Or.inl ⟨rfl, rfl⟩
  | some p =>
    dsimp only
    cases ha : p.acquire with
    | error e => exact Or.inr (Or.inr ⟨p, _, rfl, SlabPool.acquire_error ha, rfl⟩)
    | ok r =>
      obtain ⟨i, p'⟩ := r
      obtain ⟨hi, huse, htotal⟩ := SlabPool.acquire_ok ha
      exact Or.inr (Or.inl ⟨p, p', i, rfl, hi, huse, htotal, rfl⟩)

/-- `create_session` with a new id keeps the invariant, and with enough slabs the pool is not exhausted. -/
theorem createSession_spec {s : SessionStore} (hs : s.Consistent) (callback : RemovalCallback) {id : SessionId}
    (hnew : ¬ s.Live id) (eos : List Token) (label : String) (created active : Int) :
    ((createSession callback id eos label created active).run s).2.Consistent ∧
      Stepped (some id) s ((createSession callback id eos label created active).run s).2 ∧
      ((∀ p, s.slabPool = some p → s.capacity ≤ p.totalCount) →
        ∀ m, ((createSession callback id eos label created active).run s).1 ≠ .error (.poolExhausted m)) := by
  obtain ⟨hbelow, hroom⟩ := makeRoom_spec hs callback
  have hissued : ∀ id', some id = some id' → ¬ s.Live id' := by
    rintro id' h
    rw [← Option.some.inj h]
    exact hnew
  have hstop : ∀ t, Below s t → Stepped (some id) s t := by
    intro t ht
    exact ⟨ht.2.capacity, ht.2.hasCallback, ht.2.total, fun i hi => Or.inl (ht.2.live_of hi), ht.2.notified⟩
  unfold createSession
  rw [Proc.run_bind]
  rcases hr : (makeRoom callback).run s with ⟨e | u, t⟩
  · rw [hr] at hbelow hroom
    refine ⟨hbelow.1, hstop t hbelow, fun _ m h => ?_⟩
    rcases hroom with ⟨h0, -⟩ | ⟨text, h0⟩
    · cases h0
    · rw [Except.error.inj h0] at h
      cases h
  · rw [hr] at hbelow hroom
    dsimp only at hbelow hroom ⊢
    have hsize : t.sessions.size < t.capacity := by
      rcases hroom with ⟨-, h⟩ | ⟨text, h⟩
      · exact h
      · cases h
    have hnew' : ¬ t.Live id := fun h => hnew (hbelow.2.live_of h)
    rcases acquireSlab_cases t with ⟨hp, hrun⟩ | ⟨p, p', i, hp, hi, huse, htotal, hrun⟩ | ⟨p, e, hp, hfull, hrun⟩
    · rw [Proc.run_bind_ok hrun]
      have h := write_new hbelow.1 hsize (x := ⟨id, eos, label, [], [], 0, 0, 0, created, active, none⟩) hnew'
        (Or.inl ⟨hp, rfl, rfl⟩)
      have heq : ({ t with slabPool := none } : SessionStore) = t := by rw [← hp]
      rw [heq] at h
      refine ⟨h.1, hbelow.2.stepped h.2 hissued, fun _ m h => ?_⟩
      cases h
    · rw [Proc.run_bind_ok hrun]
      have h := write_new hbelow.1 hsize (x := ⟨id, eos, label, [], [], 0, 0, 0, created, active, some i⟩) hnew'
        (Or.inr ⟨p, p', i, hp, rfl, rfl, hi, huse, htotal⟩)
      refine ⟨h.1, hbelow.2.stepped h.2 hissued, fun _ m h => ?_⟩
      cases h
    · rw [Proc.run_bind_error hrun]
      refine ⟨hbelow.1, hstop t hbelow, fun henough m _ => ?_⟩
      have hcount := hbelow.1.counted p hp
      have htotal := hbelow.2.total
      rw [hp] at htotal
      obtain ⟨q, hq, hqt⟩ := Option.map_eq_some_iff.1 htotal.symm
      have hcap := hbelow.2.capacity
      have := henough q hq
      omega

/-! ### Runs -/

/-- Every call keeps the invariant, provided the id it issues is new. -/
theorem step_spec {s : SessionStore} (hs : s.Consistent) (call : SessionCall)
    (hnew : ∀ id, issuedId call = some id → ¬ s.Live id) :
    (step s call).2.Consistent ∧ Stepped (issuedId call) s (step s call).2 := by
  obtain ⟨event, callback⟩ := call
  cases event with
  | createSession id eos label created active =>
    obtain ⟨h, h', -⟩ := createSession_spec hs callback (hnew id rfl) eos label created active
    unfold step perform
    rw [Proc.run_map_snd]
    exact ⟨h, h'⟩
  | getSession id =>
    unfold step perform
    rw [Proc.run_map_snd]
    exact getSession_lowers id s hs
  | appendTokens id ts now k =>
    unfold step perform
    rw [Proc.run_map_snd]
    exact appendTokens_lowers callback id ts now k s hs
  | closeSession id =>
    unfold step perform
    rw [Proc.run_map_snd]
    exact closeSession_lowers callback id s hs
  | removeSessionIfPresent id reason =>
    unfold step perform
    rw [Proc.run_map_snd]
    exact removeSessionIfPresent_lowers callback id reason s hs
  | recordPositionAdvance id p now =>
    unfold step perform
    rw [Proc.run_map_snd]
    exact recordPositionAdvance_lowers callback id p now s hs
  | evictIdle ttl clock =>
    unfold step perform
    rw [Proc.run_map_snd]
    exact evictIdle_lowers callback ttl clock s hs
  | evictOneLru =>
    unfold step perform
    rw [Proc.run_map_snd]
    exact evictOneLru_lowers callback s hs
  | syncSession id cached active =>
    unfold step perform
    rw [Proc.run_map_snd]
    exact syncSession_lowers id cached active s hs

/-- The ids that a run issues. -/
def issuedIds (run : List SessionCall) : List SessionId := run.filterMap issuedId

/-- A run that issues new ids, each once, keeps the invariant; what it adds are ids it issued. -/
theorem final_spec {s : SessionStore} (hs : s.Consistent) (run : List SessionCall) (hnodup : (issuedIds run).Nodup)
    (hnew : ∀ id ∈ issuedIds run, ¬ s.Live id) :
    (Machine.final step s run).Consistent ∧ (Machine.final step s run).capacity = s.capacity ∧
      (Machine.final step s run).hasCallback = s.hasCallback ∧
      (Machine.final step s run).slabPool.map SlabPool.totalCount = s.slabPool.map SlabPool.totalCount ∧
      ∀ id, (Machine.final step s run).Live id → s.Live id ∨ id ∈ issuedIds run := by
  induction run generalizing s with
  | nil => exact ⟨hs, rfl, rfl, rfl, fun id h => Or.inl h⟩
  | cons call run ih =>
    have hfirst : ∀ id, issuedId call = some id → ¬ s.Live id := by
      intro id hid
      apply hnew
      simp [issuedIds, hid]
    obtain ⟨hs', hstep⟩ := step_spec hs call hfirst
    have hrest : (issuedIds run).Nodup ∧ ∀ id ∈ issuedIds run, issuedId call ≠ some id := by
      cases hc : issuedId call with
      | none => simpa [issuedIds, hc] using hnodup
      | some i =>
        simp only [issuedIds, List.filterMap_cons, hc, List.nodup_cons] at hnodup
        refine ⟨hnodup.2, fun id hid h => ?_⟩
        rw [Option.some.inj h] at hnodup
        exact hnodup.1 hid
    have hsub : ∀ id ∈ issuedIds run, id ∈ issuedIds (call :: run) := by
      intro id hid
      unfold issuedIds at hid ⊢
      rw [List.filterMap_cons]
      split
      · exact hid
      · exact List.mem_cons_of_mem _ hid
    obtain ⟨h1, h2, h3, h4, h5⟩ := ih hs' hrest.1 (by
      intro id hid hlive
      rcases hstep.live id hlive with h | h
      · exact hnew id (hsub id hid) h
      · exact hrest.2 id hid h)
    refine ⟨h1, h2.trans hstep.capacity, h3.trans hstep.hasCallback, h4.trans hstep.total, ?_⟩
    intro id hid
    rcases h5 id hid with h | h
    · rcases hstep.live id h with h | h
      · exact Or.inl h
      · exact Or.inr (by simp [issuedIds, h])
    · exact Or.inr (hsub id h)

theorem issuedIds_append (a b : List SessionCall) : issuedIds (a ++ b) = issuedIds a ++ issuedIds b :=
  List.filterMap_append

section Runs

variable {s₀ : SessionStore} (h₀ : s₀.Consistent) (hempty : ∀ id, ¬ s₀.Live id)

include h₀ hempty

/-- From a store without sessions only issued ids are live. -/
theorem live_issued {run : List SessionCall} (hnodup : (issuedIds run).Nodup) {id : SessionId}
    (h : (Machine.final step s₀ run).Live id) : id ∈ issuedIds run :=
  ((final_spec h₀ run hnodup fun id _ => hempty id).2.2.2.2 id h).resolve_left (hempty id)

/-- What a run continues with issues ids that are not live. -/
theorem issued_not_live {a b : List SessionCall} (hnodup : (issuedIds (a ++ b)).Nodup) {id : SessionId}
    (h : id ∈ issuedIds b) : ¬ (Machine.final step s₀ a).Live id := by
  rw [issuedIds_append, List.nodup_append] at hnodup
  intro hlive
  exact hnodup.2.2 id (live_issued h₀ hempty hnodup.1 hlive) id h rfl

/-- An id that was live and is no more stays so. -/
theorem gone_for_good {a b c : List SessionCall} (hnodup : (issuedIds (a ++ b ++ c)).Nodup) {id : SessionId}
    (hlive : (Machine.final step s₀ a).Live id) (hgone : ¬ (Machine.final step s₀ (a ++ b)).Live id) :
    ¬ (Machine.final step s₀ (a ++ b ++ c)).Live id := by
  have hab : (issuedIds (a ++ b)).Nodup := by
    rw [issuedIds_append] at hnodup
    exact (List.nodup_append.1 hnodup).1
  have hc : (issuedIds c).Nodup := by
    rw [issuedIds_append] at hnodup
    exact (List.nodup_append.1 hnodup).2.1
  have hmem : id ∈ issuedIds (a ++ b) := by
    have ha : (issuedIds a).Nodup := by
      rw [issuedIds_append] at hab
      exact (List.nodup_append.1 hab).1
    rw [issuedIds_append]
    exact List.mem_append_left _ (live_issued h₀ hempty ha hlive)
  have hcons := (final_spec h₀ (a ++ b) hab fun id _ => hempty id).1
  intro h
  rw [Machine.final_append] at h
  rcases (final_spec hcons c hc fun id hid => issued_not_live h₀ hempty hnodup hid).2.2.2.2 id h with h | h
  · exact hgone h
  · rw [issuedIds_append, List.nodup_append] at hnodup
    exact hnodup.2.2 id hmem id h rfl

/-- The callback has been told of exactly the ids that were live and are gone, of each once. -/
theorem notified_once (hcb : s₀.hasCallback = true) (hnone : s₀.notified = []) (run : List SessionCall)
    (hnodup : (issuedIds run).Nodup) :
    ((Machine.final step s₀ run).notified.map Prod.fst).Nodup ∧
      ∀ id, id ∈ (Machine.final step s₀ run).notified.map Prod.fst ↔
        (∃ a, a <+: run ∧ (Machine.final step s₀ a).Live id) ∧ ¬ (Machine.final step s₀ run).Live id := by
  induction run using List.reverseRecOn with
  | nil =>
    refine ⟨by simp [Machine.final, hnone], ?_⟩
    intro id
    simp only [Machine.final, hnone, List.map_nil, List.not_mem_nil, List.prefix_nil, exists_eq_left, false_iff]
    exact fun h => h.2 h.1
  | append_singleton run call ih =>
    have hrun : (issuedIds run).Nodup := by
      rw [issuedIds_append] at hnodup
      exact (List.nodup_append.1 hnodup).1
    obtain ⟨hnd, hmem⟩ := ih hrun
    obtain ⟨hcons, -, hcb', -, -⟩ := final_spec h₀ run hrun fun id _ => hempty id
    have hstep := (step_spec hcons call (by
      intro id hid
      apply issued_not_live h₀ hempty hnodup
      simp [issuedIds, hid])).2
    obtain ⟨new, hnew, hspec⟩ := hstep.notified
    obtain ⟨hnd', hmem'⟩ := hspec (hcb'.trans hcb)
    have hfinal : Machine.final step s₀ (run ++ [call]) = (step (Machine.final step s₀ run) call).2 := by
      rw [Machine.final_append]
      rfl
    have hgone : ∀ a id, a <+: run → (Machine.final step s₀ a).Live id → ¬ (Machine.final step s₀ run).Live id →
        ¬ (Machine.final step s₀ (run ++ [call])).Live id := by
      rintro a id ⟨b, rfl⟩ ha hlive
      exact gone_for_good h₀ hempty hnodup ha hlive
    rw [hfinal, hnew, List.map_append]
    constructor
    · rw [List.nodup_append]
      refine ⟨hnd, hnd', ?_⟩
      rintro id hid id' hid' rfl
      exact ((hmem id).1 hid).2 ((hmem' id).1 hid').1
    · intro id
      rw [List.mem_append, hmem, hmem', ← hfinal]
      constructor
      · rintro (⟨⟨a, ha, hlive⟩, hn⟩ | ⟨hlive, hn⟩)
        · exact ⟨⟨a, ha.trans (List.prefix_append run [call]), hlive⟩, hgone a id ha hlive hn⟩
        · exact ⟨⟨run, List.prefix_append run [call], hlive⟩, hn⟩
      · rintro ⟨⟨a, ha, hlive⟩, hn⟩
        have ha' : a <+: run := by
          rcases List.prefix_concat_iff.1 ha with rfl | h
          · exact absurd hlive hn
          · exact h
        by_cases hl : (Machine.final step s₀ run).Live id
        · exact Or.inr ⟨hl, hn⟩
        · exact Or.inl ⟨⟨a, ha', hlive⟩, hl⟩

end Runs

/-- What holds of sessions and slabs in every reachable store. -/
structure Conserved (s : SessionStore) : Prop where
  within : s.sessions.size ≤ s.capacity
  distinct : ∀ id id' x x' i, s.sessions.get? id = some x → s.sessions.get? id' = some x' → x.slab = some i →
    x'.slab = some i → id = id'
  inUse : ∀ p, s.slabPool = some p → ∀ i, i ∈ p.inUse ↔ ∃ id x, s.sessions.get? id = some x ∧ x.slab = some i
  partition : ∀ p, s.slabPool = some p → p.free.Nodup ∧ (∀ i, i < p.totalCount ↔ i ∈ p.free ∨ i ∈ p.inUse) ∧
    ∀ i ∈ p.free, i ∉ p.inUse

theorem Consistent.conserved {s : SessionStore} (hs : s.Consistent) : s.Conserved :=
  ⟨hs.within, hs.distinct, hs.held, fun p _ => ⟨p.free_nodup, p.partition, p.disjoint⟩⟩

theorem create_consistent {capacity : Int} {hasInspector hasCallback : Bool} {pool : Option SlabPool}
    {s : SessionStore} (hs : create capacity hasInspector pool hasCallback = .ok s)
    (hpool : ∀ p, pool = some p → ∃ n, SlabPool.create n = .ok p) :
    s.Consistent ∧ (∀ id, ¬ s.Live id) ∧ s.notified = [] ∧ s.hasCallback = hasCallback ∧ s.slabPool = pool := by
  unfold create at hs
  split at hs
  · cases hs
  · rename_i hcap
    obtain rfl := Except.ok.inj hs
    have hnone : ∀ id, (Dict.empty : Dict SessionId Session).get? id = none := fun _ => rfl
    have hfree : ∀ p, pool = some p → p.inUse = ∅ := by
      intro p hp
      obtain ⟨n, hn⟩ := hpool p hp
      unfold SlabPool.create at hn
      split at hn
      · cases hn
      · rw [← Except.ok.inj hn]
    refine ⟨⟨?_, ?_, ?_, ?_, ?_, ?_, ?_, ?_⟩, ?_, rfl, rfl, rfl⟩
    · show 0 < capacity.toNat
      omega
    · intro id x hx
      cases hx
    · exact Nat.zero_le _
    · intro id id' x x' i hx
      cases hx
    · intro p hp i
      rw [hfree p hp]
      refine ⟨fun h => absurd h (Finset.notMem_empty i), ?_⟩
      rintro ⟨id, x, hx, -⟩
      cases hx
    · intro p hp
      rw [hfree p hp]
      rfl
    · intro p _ id x hx
      cases hx
    · intro _ id x hx
      cases hx
    · rintro id ⟨x, hx⟩
      cases hx

/-- In every run that issues no id twice, whatever the calls raise: sessions and slabs are conserved, a removed id never
resolves again, the callback is told of every removal exactly once, and with as many slabs as sessions the pool is never
exhausted. -/
theorem sessions_conserved {capacity : Int} {hasInspector hasCallback : Bool} {pool : Option SlabPool}
    {s₀ : SessionStore} (hs : create capacity hasInspector pool hasCallback = .ok s₀)
    (hpool : ∀ p, pool = some p → ∃ n, SlabPool.create n = .ok p) (run : List SessionCall)
    (hfresh : (issuedIds run).Nodup) :
    let s := Machine.final step s₀ run
    s.Conserved ∧
    (∀ a b c id, run = a ++ b ++ c → (Machine.final step s₀ a).Live id → ¬ (Machine.final step s₀ (a ++ b)).Live id →
      ((getSession id).run s).1 = .error (.notFound id)) ∧
    (hasCallback = true → (s.notified.map Prod.fst).Nodup ∧ ∀ id, id ∈ s.notified.map Prod.fst ↔
      (∃ a, a <+: run ∧ (Machine.final step s₀ a).Live id) ∧ ¬ s.Live id) ∧
    ((∀ p, pool = some p → capacity ≤ p.totalCount) → ∀ callback id eos label created active m, id ∉ issuedIds run →
      ((createSession callback id eos label created active).run s).1 ≠ .error (.poolExhausted m)) := by
  intro s
  obtain ⟨h₀, hempty, hnone, hcb, hsp⟩ := create_consistent hs hpool
  obtain ⟨hcons, hcap, -, htotal, hlive⟩ := final_spec h₀ run hfresh fun id _ => hempty id
  refine ⟨hcons.conserved, ?_, ?_, ?_⟩
  · rintro a b c id rfl ha hgone
    have h := gone_for_good h₀ hempty hfresh ha hgone
    unfold getSession
    rw [Proc.run_get_bind]
    cases hx : s.sessions.get? id with
    | none => rfl
    | some x => exact absurd ⟨x, hx⟩ h
  · intro hc
    exact notified_once h₀ hempty (hcb.trans hc) hnone run hfresh
  · intro henough callback id eos label created active m hid
    refine (createSession_spec hcons callback ?_ eos label created active).2.2 ?_ m
    · exact fun h => ((hlive id h).elim (hempty id) hid)
    · intro p hp
      rw [hp, hsp] at htotal
      obtain ⟨q, hq, hqt⟩ := Option.map_eq_some_iff.1 htotal.symm
      have hq' := henough q hq
      have hs₀ : s₀.capacity = capacity.toNat := by
        unfold create at hs
        split at hs
        · cases hs
        · rw [← Except.ok.inj hs]
      rw [hcap, hs₀]
      omega

/-- Three sessions in a store for two, with a callback that raises for the first, and a close. -/
def busyRun : List SessionCall :=
  [⟨.createSession "a" [] "" 0 0, fun _ => none⟩, ⟨.createSession "b" [] "" 1 1, fun _ => none⟩,
    ⟨.createSession "c" [] "" 2 2, fun _ => some "drop failed"⟩, ⟨.createSession "d" [] "" 3 3, fun _ => none⟩,
    ⟨.closeSession "b", fun _ => none⟩]

/-- The callback is told of the evicted and of the closed session, and the slabs are conserved. -/
theorem evicted_and_closed_notified :
    ∃ p s₀, SlabPool.create 2 = .ok p ∧ create 2 false (some p) true = .ok s₀ ∧
      (Machine.final step s₀ busyRun).notified = [("a", "lru_eviction"), ("b", "explicit_close")] ∧
      (Machine.final step s₀ busyRun).Conserved ∧
      ((Machine.final step s₀ busyRun).notified.map Prod.fst).Nodup := by
  obtain ⟨p, hp⟩ : ∃ p, SlabPool.create 2 = .ok p := ⟨_, rfl⟩
  obtain ⟨s₀, hs⟩ : ∃ s₀, create 2 false (some p) true = .ok s₀ := ⟨_, rfl⟩
  have h := sessions_conserved hs (fun q hq => ⟨2, by rw [hp, Option.some.inj hq]⟩) busyRun (by decide)
  refine ⟨p, s₀, hp, hs, ?_, h.1, (h.2.2.1 rfl).1⟩
  obtain rfl := Except.ok.inj hp
  obtain rfl := Except.ok.inj hs
  decide

end SessionStore

end KakeyaEngine
