import KakeyaEngine.Scheduler.Admission

/-!
# Conservation of the slabs

In `Inv` every slab that is in use has exactly one holder, a worker or a request that was handed it, and while a request
waits no slab is free.  Two kinds of event break this.  A request that is cancelled or times out between the hand-off and
its next step drops the slab.  And a release that finds a finished request at the front of the queue gives the slab back to
the pool, although others may wait behind.  `Timely` excludes both.
-/

namespace KakeyaEngine

namespace Scheduler

variable {s s' : Scheduler} {e : SchedulerEvent} {id : String}

/-- The slab of a request. -/
def Phase.slab? : Phase → Option Nat
  | .handed i | .starting i | .generating i => some i
  | _ => none

/-- A request holds a slab. -/
def Holds (s : Scheduler) (id : String) (i : Nat) : Prop := (s.phase id).slab? = some i

/-- Someone waits for a slab. -/
def Awaited (s : Scheduler) : Prop := ∃ id, s.phase id = .waiting

/-- What holds in a timely run. -/
structure Inv (s : Scheduler) : Prop where
  inUse : ∀ id i, s.Holds id i → i ∈ s.pool.inUse
  unique : ∀ id id' i, s.Holds id i → s.Holds id' i → id = id'
  held : ∀ i ∈ s.pool.inUse, ∃ id, s.Holds id i
  parked : ∀ id, s.phase id = .waiting → id ∈ s.waitQueue
  starved : s.Awaited → s.pool.free = []

/-- No request is cancelled or times out while a slab is on its way to it, and when a worker ends, a request at the front
of the queue that is finished has nobody waiting behind it. -/
def Timely (s : Scheduler) : SchedulerEvent → Prop
  | .timeout id | .cancelSubmit id => ∀ i, s.phase id ≠ .handed i
  | .start _ | .finish .. => ∀ id rest, s.waitQueue = id :: rest → s.phase id = .waiting ∨ ¬ s.Awaited
  | _ => True

/-! ### Moving a request on -/

@[simp] theorem phase_setPhase (s : Scheduler) (id id' : String) (p : Phase) :
    (s.setPhase id p).phase id' = if id' = id then p else s.phase id' := rfl

theorem holds_setPhase (s : Scheduler) (id id' : String) (p : Phase) (i : Nat) :
    (s.setPhase id p).Holds id' i ↔ if id' = id then p.slab? = some i else s.Holds id' i := by
  unfold Holds
  rw [phase_setPhase]
  split <;> rfl

/-- A request moves on without a slab changing hands. -/
theorem Inv.setPhase (h : s.Inv) (id : String) {p : Phase} (hslab : p.slab? = (s.phase id).slab?) (hwait : p ≠ .waiting) :
    (s.setPhase id p).Inv := by
  have hholds : ∀ id' i, (s.setPhase id p).Holds id' i ↔ s.Holds id' i := by
    intro id' i
    rw [holds_setPhase]
    split
    · rename_i hid
      rw [hid, hslab]
      rfl
    · rfl
  have hwaits : ∀ id', (s.setPhase id p).phase id' = .waiting → s.phase id' = .waiting := by
    intro id' hw
    rw [phase_setPhase] at hw
    split at hw
    · exact absurd hw hwait
    · exact hw
  refine ⟨fun id' i hh => h.inUse id' i ((hholds id' i).1 hh), ?_, ?_, fun id' hw => h.parked id' (hwaits id' hw), ?_⟩
  · exact fun a b i ha hb => h.unique a b i ((hholds a i).1 ha) ((hholds b i).1 hb)
  · intro i hi
    obtain ⟨id', hid'⟩ := h.held i hi
    exact ⟨id', (hholds id' i).2 hid'⟩
  · rintro ⟨id', hw⟩
    exact h.starved ⟨id', hwaits id' hw⟩

/-- The state of the sessions and the engine lock do not matter. -/
theorem Inv.of_eq (h : s.Inv) (hpool : s'.pool = s.pool) (hphase : s'.phase = s.phase) (hqueue : s'.waitQueue = s.waitQueue) :
    s'.Inv := by
  have hholds : ∀ id' i, s'.Holds id' i ↔ s.Holds id' i := fun id' i => by unfold Holds; rw [hphase]
  refine ⟨?_, ?_, ?_, ?_, ?_⟩
  · intro id' i hh
    rw [hpool]
    exact h.inUse id' i ((hholds id' i).1 hh)
  · exact fun a b i ha hb => h.unique a b i ((hholds a i).1 ha) ((hholds b i).1 hb)
  · intro i hi
    rw [hpool] at hi
    obtain ⟨id', hid'⟩ := h.held i hi
    exact ⟨id', (hholds id' i).2 hid'⟩
  · intro id' hw
    rw [hphase] at hw
    rw [hqueue]
    exact h.parked id' hw
  · rintro ⟨id', hw⟩
    rw [hphase] at hw
    rw [hpool]
    exact h.starved ⟨id', hw⟩

theorem Inv.setState (h : s.Inv) (id : String) (st : SessionState) : (s.setState id st).Inv := h.of_eq rfl rfl rfl

/-! ### The events -/

theorem inv_create {n : Int} {pool : SlabPool} {maxConcurrent wait : Nat} {policy : AdmissionPolicy}
    (hpool : SlabPool.create n = .ok pool) (hs : create pool maxConcurrent policy wait = .ok s) : s.Inv := by
  have hempty : pool.inUse = ∅ := by
    unfold SlabPool.create at hpool
    split at hpool
    · cases hpool
    · obtain rfl := Except.ok.inj hpool
      rfl
  unfold create at hs
  split at hs
  · cases hs
  · obtain rfl := Except.ok.inj hs
    refine ⟨?_, ?_, ?_, ?_, ?_⟩
    · intro id i hh
      cases hh
    · intro id id' i hh
      cases hh
    · intro i hi
      rw [hempty] at hi
      simp at hi
    · intro id hw
      cases hw
    · rintro ⟨id, hw⟩
      cases hw

/-- A request gets a free slab. -/
theorem Inv.acquire (h : s.Inv) {i : Nat} {pool : SlabPool} (hacq : s.pool.acquire = .ok (i, pool))
    (hphase : s.phase id = .absent) : ({ s with pool := pool }.admitted id i).Inv := by
  obtain ⟨hfresh, huse, -⟩ := SlabPool.acquire_ok hacq
  have hfree : s.pool.free ≠ [] := by
    intro hnil
    unfold SlabPool.acquire at hacq
    split at hacq
    · cases hacq
    · rename_i hlast
      rw [hnil] at hlast
      cases hlast
  have hholds : ∀ id' j, ({ s with pool := pool }.admitted id i).Holds id' j ↔
      (id' = id ∧ j = i) ∨ (id' ≠ id ∧ s.Holds id' j) := by
    intro id' j
    unfold admitted
    rw [holds_setPhase]
    split
    · rename_i hid
      simp only [Phase.slab?, Option.some.injEq, hid, true_and, ne_eq, not_true_eq_false, false_and, or_false]
      exact eq_comm
    · rename_i hid
      simp only [hid, false_and, ne_eq, not_false_eq_true, true_and, false_or]
      rfl
  refine ⟨?_, ?_, ?_, ?_, ?_⟩
  · intro id' j hh
    show j ∈ pool.inUse
    rw [huse, Finset.mem_insert]
    rcases (hholds id' j).1 hh with ⟨-, rfl⟩ | ⟨-, hold⟩
    · exact Or.inl rfl
    · exact Or.inr (h.inUse id' j hold)
  · intro a b j ha hb
    rcases (hholds a j).1 ha with ⟨ha, hj⟩ | ⟨-, ha⟩
    · rcases (hholds b j).1 hb with ⟨hb, -⟩ | ⟨-, hb⟩
      · rw [ha, hb]
      · rw [hj] at hb
        exact absurd (h.inUse b i hb) hfresh
    · rcases (hholds b j).1 hb with ⟨-, hj⟩ | ⟨-, hb⟩
      · rw [hj] at ha
        exact absurd (h.inUse a i ha) hfresh
      · exact h.unique a b j ha hb
  · intro j hj
    have hj' : j ∈ pool.inUse := hj
    rw [huse, Finset.mem_insert] at hj'
    rcases hj' with rfl | hj'
    · exact ⟨id, (hholds id j).2 (Or.inl ⟨rfl, rfl⟩)⟩
    · obtain ⟨id', hid'⟩ := h.held j hj'
      refine ⟨id', (hholds id' j).2 (Or.inr ⟨?_, hid'⟩)⟩
      rintro rfl
      unfold Holds at hid'
      rw [hphase] at hid'
      cases hid'
  · intro id' hw
    have hw' : (if id' = id then Phase.starting i else s.phase id') = .waiting := hw
    split at hw'
    · cases hw'
    · exact h.parked id' hw'
  · rintro ⟨id', hw⟩
    have hw' : (if id' = id then Phase.starting i else s.phase id') = .waiting := hw
    split at hw'
    · cases hw'
    · exact absurd (h.starved ⟨id', hw'⟩) hfree

theorem free_of_acquire_error {p : SlabPool} {x : PoolError} (h : p.acquire = .error x) : p.free = [] := by
  unfold SlabPool.acquire at h
  split at h
  · rename_i hlast
    exact List.getLast?_eq_none_iff.1 hlast
  · cases h

theorem Inv.submit (h : s.Inv) (id : String) : (s.submit id).Inv := by
  unfold Scheduler.submit
  cases hphase : s.phase id <;> dsimp only <;> try exact h
  cases hacq : s.pool.acquire with
  | ok p =>
    obtain ⟨i, pool⟩ := p
    exact h.acquire hacq hphase
  | error x =>
    have hfree := free_of_acquire_error hacq
    cases s.policy with
    | reject => exact h.setPhase id (by rw [hphase]; rfl) (by simp)
    | queue =>
      -- the request is parked, and nothing is free
      have hholds : ∀ id' i, (s.setPhase id .waiting).Holds id' i ↔ s.Holds id' i := by
        intro id' i
        rw [holds_setPhase]
        split
        · rename_i hid
          unfold Holds
          rw [hid, hphase]
          rfl
        · rfl
      refine ⟨fun id' i hh => h.inUse id' i ((hholds id' i).1 hh), ?_, ?_, ?_, fun _ => hfree⟩
      · exact fun a b i ha hb => h.unique a b i ((hholds a i).1 ha) ((hholds b i).1 hb)
      · intro i hi
        obtain ⟨id', hid'⟩ := h.held i hi
        exact ⟨id', (hholds id' i).2 hid'⟩
      · intro id' hw
        have hw' : (if id' = id then Phase.waiting else s.phase id') = .waiting := hw
        show id' ∈ s.waitQueue ++ [id]
        split at hw'
        · rename_i hid
          simp [hid]
        · exact List.mem_append_left _ (h.parked id' hw')

theorem Inv.resume (h : s.Inv) (id : String) : (s.resume id).Inv := by
  unfold Scheduler.resume
  cases hphase : s.phase id with
  | handed i =>
    unfold admitted
    exact (h.setState id .admitted).setPhase id (by show _ = (s.phase id).slab?; rw [hphase]; rfl) (by simp)
  | expired =>
    have hnext := h.setPhase id (p := .raised) (by rw [hphase]; rfl) (by simp)
    refine ⟨hnext.inUse, hnext.unique, hnext.held, fun id' hw => ?_, hnext.starved⟩
    have hmem := hnext.parked id' hw
    refine List.mem_filter.2 ⟨hmem, ?_⟩
    rw [decide_eq_true_eq]
    rintro rfl
    have hw' : (s.setPhase id' .raised).phase id' = .waiting := hw
    simp at hw'
  | refused => exact h.setPhase id (by rw [hphase]; rfl) (by simp)
  | _ => exact h

theorem Inv.timeout (h : s.Inv) (ht : ∀ i, s.phase id ≠ .handed i) : (s.timeout id).Inv := by
  unfold Scheduler.timeout
  split
  · exact h
  · cases hphase : s.phase id with
    | handed i => exact absurd hphase (ht i)
    | waiting => exact h.setPhase id (by rw [hphase]; rfl) (by simp)
    | refused => exact h.setPhase id (by rw [hphase]; rfl) (by simp)
    | _ => exact h

theorem Inv.cancelSubmit (h : s.Inv) (ht : ∀ i, s.phase id ≠ .handed i) : (s.cancelSubmit id).Inv := by
  unfold Scheduler.cancelSubmit
  cases hphase : s.phase id with
  | handed i => exact absurd hphase (ht i)
  | waiting => exact h.setPhase id (by rw [hphase]; rfl) (by simp)
  | expired => exact h.setPhase id (by rw [hphase]; rfl) (by simp)
  | refused => exact h.setPhase id (by rw [hphase]; rfl) (by simp)
  | _ => exact h

/-! ### Workers -/

/-- The invariant but for one slab, which has lost its holder. -/
structure InvBut (s : Scheduler) (i : Nat) : Prop where
  loose : i ∈ s.pool.inUse ∧ ∀ id, ¬ s.Holds id i
  inUse : ∀ id j, s.Holds id j → j ∈ s.pool.inUse
  unique : ∀ id id' j, s.Holds id j → s.Holds id' j → id = id'
  held : ∀ j ∈ s.pool.inUse, j ≠ i → ∃ id, s.Holds id j
  parked : ∀ id, s.phase id = .waiting → id ∈ s.waitQueue
  starved : s.Awaited → s.pool.free = []

/-- A worker ends. -/
theorem Inv.ended (h : s.Inv) {i : Nat} (hi : s.Holds id i) : (s.setPhase id .ended).InvBut i := by
  have hholds : ∀ id' j, (s.setPhase id .ended).Holds id' j ↔ id' ≠ id ∧ s.Holds id' j := by
    intro id' j
    rw [holds_setPhase]
    split
    · rename_i hid
      simp [Phase.slab?, hid]
    · rename_i hid
      simp [hid]
  have hwaits : ∀ id', (s.setPhase id .ended).phase id' = .waiting → s.phase id' = .waiting := by
    intro id' hw
    rw [phase_setPhase] at hw
    split at hw
    · cases hw
    · exact hw
  refine ⟨⟨h.inUse id i hi, ?_⟩, ?_, ?_, ?_, fun id' hw => h.parked id' (hwaits id' hw), ?_⟩
  · intro id' hh
    obtain ⟨hne, hh⟩ := (hholds id' i).1 hh
    exact hne (h.unique id' id i hh hi)
  · exact fun id' j hh => h.inUse id' j ((hholds id' j).1 hh).2
  · exact fun a b j ha hb => h.unique a b j ((hholds a j).1 ha).2 ((hholds b j).1 hb).2
  · intro j hj hne
    obtain ⟨id', hid'⟩ := h.held j hj
    refine ⟨id', (hholds id' j).2 ⟨?_, hid'⟩⟩
    rintro rfl
    unfold Holds at hi hid'
    rw [hi] at hid'
    exact hne (Option.some.inj hid').symm
  · rintro ⟨id', hw⟩
    exact h.starved ⟨id', hwaits id' hw⟩

/-- The slab goes back to the pool when nobody waits. -/
theorem InvBut.giveBack {i : Nat} (h : s.InvBut i) (hnone : ¬ s.Awaited) : (s.giveBack i).Inv := by
  obtain ⟨pool, hrel, huse, -⟩ := SlabPool.release_ok h.loose.1
  unfold Scheduler.giveBack
  rw [hrel]
  refine ⟨?_, h.unique, ?_, h.parked, fun ha => absurd ha hnone⟩
  · intro id' j hh
    show j ∈ pool.inUse
    rw [huse, Finset.mem_erase]
    refine ⟨?_, h.inUse id' j hh⟩
    rintro rfl
    exact h.loose.2 id' hh
  · intro j hj
    have hj' : j ∈ pool.inUse := hj
    rw [huse, Finset.mem_erase] at hj'
    exact h.held j hj'.2 hj'.1

/-- The slab goes to the request at the front of the queue. -/
theorem InvBut.handOff {i : Nat} {rest : List String} (h : s.InvBut i) (hqueue : s.waitQueue = id :: rest)
    (hphase : s.phase id = .waiting) : Inv { s.setPhase id (.handed i) with waitQueue := rest } := by
  have hholds : ∀ id' j, ({ s.setPhase id (.handed i) with waitQueue := rest } : Scheduler).Holds id' j ↔
      (id' = id ∧ j = i) ∨ (id' ≠ id ∧ s.Holds id' j) := by
    intro id' j
    show (s.setPhase id (.handed i)).Holds id' j ↔ _
    rw [holds_setPhase]
    split
    · rename_i hid
      simp only [Phase.slab?, Option.some.injEq, hid, true_and, ne_eq, not_true_eq_false, false_and, or_false]
      exact eq_comm
    · rename_i hid
      simp [hid]
  have hwaits : ∀ id', ({ s.setPhase id (.handed i) with waitQueue := rest } : Scheduler).phase id' = .waiting →
      id' ≠ id ∧ s.phase id' = .waiting := by
    intro id' hw
    have hw' : (if id' = id then Phase.handed i else s.phase id') = .waiting := hw
    split at hw'
    · cases hw'
    · exact ⟨by assumption, hw'⟩
  refine ⟨?_, ?_, ?_, ?_, ?_⟩
  · intro id' j hh
    rcases (hholds id' j).1 hh with ⟨-, rfl⟩ | ⟨-, hh⟩
    · exact h.loose.1
    · exact h.inUse id' j hh
  · intro a b j ha hb
    rcases (hholds a j).1 ha with ⟨ha, hj⟩ | ⟨-, ha⟩
    · rcases (hholds b j).1 hb with ⟨hb, -⟩ | ⟨-, hb⟩
      · rw [ha, hb]
      · rw [hj] at hb
        exact absurd hb (h.loose.2 b)
    · rcases (hholds b j).1 hb with ⟨-, hj⟩ | ⟨-, hb⟩
      · rw [hj] at ha
        exact absurd ha (h.loose.2 a)
      · exact h.unique a b j ha hb
  · intro j hj
    by_cases hji : j = i
    · exact ⟨id, (hholds id j).2 (Or.inl ⟨rfl, hji⟩)⟩
    · obtain ⟨id', hid'⟩ := h.held j hj hji
      refine ⟨id', (hholds id' j).2 (Or.inr ⟨?_, hid'⟩)⟩
      rintro rfl
      unfold Holds at hid'
      rw [hphase] at hid'
      cases hid'
  · intro id' hw
    obtain ⟨hne, hw⟩ := hwaits id' hw
    have hmem := h.parked id' hw
    rw [hqueue] at hmem
    exact (List.mem_cons.1 hmem).resolve_left hne
  · rintro ⟨id', hw⟩
    exact h.starved ⟨id', (hwaits id' hw).2⟩

/-- A release hands the slab on or gives it back; nobody is left waiting when it is free. -/
theorem InvBut.release {i : Nat} (h : s.InvBut i)
    (ht : ∀ id rest, s.waitQueue = id :: rest → s.phase id = .waiting ∨ ¬ s.Awaited) :
    (s.releaseSlabAndWakeWaiter i).Inv := by
  unfold releaseSlabAndWakeWaiter
  cases hqueue : s.waitQueue with
  | nil =>
    refine h.giveBack ?_
    rintro ⟨id', hw⟩
    have hmem := h.parked id' hw
    rw [hqueue] at hmem
    cases hmem
  | cons id rest =>
    have hback : ¬ s.Awaited → ({ s with waitQueue := rest }.giveBack i).Inv := by
      intro hnone
      have h' : InvBut { s with waitQueue := rest } i :=
        ⟨h.loose, h.inUse, h.unique, h.held, fun id' hw => absurd ⟨id', hw⟩ hnone, h.starved⟩
      exact h'.giveBack hnone
    dsimp only
    cases hphase : s.phase id with
    | waiting => exact h.handOff hqueue hphase
    | _ =>
      refine hback ((ht id rest hqueue).resolve_left ?_)
      rw [hphase]
      simp

theorem Inv.endSession (h : s.Inv) {i : Nat} (hi : s.Holds id i)
    (ht : ∀ id rest, s.waitQueue = id :: rest → s.phase id = .waiting ∨ ¬ s.Awaited) : (s.endSession id i).Inv := by
  refine (h.ended hi).release fun id' rest hqueue => ?_
  have hnot : s.phase id ≠ .waiting := by
    intro hw
    unfold Holds at hi
    rw [hw] at hi
    cases hi
  rcases ht id' rest hqueue with hw | hnone
  · left
    rw [phase_setPhase, if_neg]
    · exact hw
    · rintro rfl
      exact hnot hw
  · right
    rintro ⟨id'', hw⟩
    rw [phase_setPhase] at hw
    split at hw
    · cases hw
    · exact hnone ⟨id'', hw⟩

theorem Inv.start (h : s.Inv) (id : String)
    (ht : ∀ id rest, s.waitQueue = id :: rest → s.phase id = .waiting ∨ ¬ s.Awaited) : (s.start id).Inv := by
  unfold Scheduler.start
  cases hphase : s.phase id with
  | starting i =>
    dsimp only
    split
    · exact h
    · split
      · exact h.endSession (by unfold Holds; rw [hphase]; rfl) ht
      · have hnext := h.setPhase id (p := .generating i) (by rw [hphase]; rfl) (by simp)
        exact hnext.of_eq rfl rfl rfl
  | _ => exact h

theorem Inv.finish (h : s.Inv) (id : String) (returned : Bool)
    (ht : ∀ id rest, s.waitQueue = id :: rest → s.phase id = .waiting ∨ ¬ s.Awaited) : (s.finish id returned).Inv := by
  unfold Scheduler.finish
  cases hphase : s.phase id with
  | generating i =>
    have hnext : ({ s with engineLock := false }.setState id (outcome returned (s.state id))).Inv := h.of_eq rfl rfl rfl
    exact hnext.endSession (by show (s.phase id).slab? = some i; rw [hphase]; rfl) ht
  | _ => exact h

theorem Inv.shutdown (h : s.Inv) : s.shutdown.Inv := by
  have hholds : ∀ id' i, s.shutdown.Holds id' i ↔ s.Holds id' i := by
    intro id' i
    show (if id' ∈ s.waitQueue ∧ s.phase id' = .waiting then Phase.refused else s.phase id').slab? = some i ↔ _
    split
    · rename_i hw
      unfold Holds
      rw [hw.2]
      rfl
    · rfl
  have hnone : ∀ id', s.shutdown.phase id' ≠ .waiting := by
    intro id' hw
    have hw' : (if id' ∈ s.waitQueue ∧ s.phase id' = .waiting then Phase.refused else s.phase id') = .waiting := hw
    split at hw'
    · cases hw'
    · rename_i hnot
      exact hnot ⟨h.parked id' hw', hw'⟩
  refine ⟨fun id' i hh => h.inUse id' i ((hholds id' i).1 hh), ?_, ?_, fun id' hw => absurd hw (hnone id'), ?_⟩
  · exact fun a b i ha hb => h.unique a b i ((hholds a i).1 ha) ((hholds b i).1 hb)
  · intro i hi
    obtain ⟨id', hid'⟩ := h.held i hi
    exact ⟨id', (hholds id' i).2 hid'⟩
  · rintro ⟨id', hw⟩
    exact absurd hw (hnone id')

theorem step_inv (h : s.Inv) (ht : s.Timely e) : (step s e).2.Inv := by
  cases e with
  | submit id => exact h.submit id
  | resume id => exact h.resume id
  | timeout id => exact h.timeout ht
  | cancelSubmit id => exact h.cancelSubmit ht
  | start id => exact h.start id ht
  | finish id returned => exact h.finish id returned ht
  | cancelSession id =>
    show (s.cancelSession id).Inv
    unfold cancelSession
    split
    · split
      · exact h
      · exact h.setState id .cancelled
    · split
      · exact h
      · exact h.setState id .cancelled
    · exact h
  | shutdown => exact h.shutdown

/-! ### The main result -/

/-- Every slab is free, or held by exactly one worker or request it was handed to; and no slab is free while a request
waits. -/
structure Conserved (s : Scheduler) : Prop where
  slabs : ∀ i < s.pool.totalCount,
    (i ∈ s.pool.free ∧ ∀ id, ¬ s.Holds id i) ∨ (i ∉ s.pool.free ∧ ∃ id, s.Holds id i ∧ ∀ id', s.Holds id' i → id' = id)
  awake : s.Awaited → s.pool.free = []

theorem Inv.conserved (h : s.Inv) : s.Conserved := by
  refine ⟨fun i hi => ?_, h.starved⟩
  rcases (s.pool.partition i).1 hi with hfree | huse
  · left
    refine ⟨hfree, fun id hh => ?_⟩
    exact s.pool.disjoint i hfree (h.inUse id i hh)
  · right
    obtain ⟨id, hh⟩ := h.held i huse
    exact ⟨fun hfree => s.pool.disjoint i hfree huse, id, hh, fun id' hh' => h.unique id' id i hh' hh⟩

/-- In every timely run every slab is free, held by one worker, or on its way to one request, which gets it when it goes
on; and no request waits while a slab is free. -/
theorem timely_run_conserves {n : Int} {pool : SlabPool} {maxConcurrent wait : Nat} {policy : AdmissionPolicy}
    {s₀ : Scheduler} (hpool : SlabPool.create n = .ok pool) (hs₀ : create pool maxConcurrent policy wait = .ok s₀)
    (es : List SchedulerEvent) (hall : Machine.AllSteps step Timely s₀ es) :
    let s := Machine.final step s₀ es
    s.Conserved ∧ ∀ id i, s.phase id = .handed i → (step s (.resume id)).2.phase id = .starting i := by
  intro s
  have hinv : s.Inv := Machine.final_of_steps (fun t e ht he => step_inv ht he) (inv_create hpool hs₀) hall
  refine ⟨hinv.conserved, fun id i hphase => ?_⟩
  show (s.resume id).phase id = .starting i
  unfold Scheduler.resume
  rw [hphase]
  simp [admitted]

/-- A scheduler with one slab that queues. -/
def exampleScheduler : Scheduler :=
  { pool := { totalCount := 1, free := [0], inUse := ∅, free_nodup := by decide, partition := by simp, disjoint := by simp },
    policy := .queue }

/-- A request takes the slab, another one waits and is handed it. -/
def exampleHandOff : List SchedulerEvent := [.submit "a", .start "a", .submit "b", .finish "a" true]

/-- A request that is cancelled when it has been handed the slab loses it; and one that was cancelled in the queue stands
in the way of the request behind it. -/
theorem slab_lost_and_wakeup_lost :
    create exampleScheduler.pool 1 .queue 0 = .ok exampleScheduler ∧
      ¬ (Machine.final step exampleScheduler (exampleHandOff ++ [.cancelSubmit "b"])).Conserved ∧
      ¬ (Machine.final step exampleScheduler
        [.submit "a", .start "a", .submit "b", .submit "c", .cancelSubmit "b", .finish "a" true]).Conserved := by
  refine ⟨rfl, fun h => ?_, fun h => ?_⟩
  · have hslab := h.slabs 0 (by decide)
    rcases hslab with ⟨hfree, -⟩ | ⟨-, id, hid, -⟩
    · revert hfree
      decide
    · have hphase : (Machine.final step exampleScheduler (exampleHandOff ++ [.cancelSubmit "b"])).phase id =
          if id = "b" then .raised else if id = "b" then .handed 0 else if id = "a" then .ended else
            if id = "b" then .waiting else if id = "a" then .generating 0 else if id = "a" then .starting 0 else .absent :=
        rfl
      unfold Holds at hid
      rw [hphase] at hid
      by_cases hb : id = "b" <;> by_cases ha : id = "a" <;> simp [hb, ha, Phase.slab?] at hid
  · have hfree := h.awake ⟨"c", by decide⟩
    revert hfree
    decide

/-- Left alone, the waiting request gets the slab. -/
theorem handed_request_starts :
    (Machine.final step exampleScheduler exampleHandOff).Conserved ∧
      (step (Machine.final step exampleScheduler exampleHandOff) (.resume "b")).2.phase "b" = .starting 0 := by
  have hall : Machine.AllSteps step Timely exampleScheduler exampleHandOff := by
    refine ⟨trivial, fun id rest h => ?_, trivial, fun id rest h => ?_, trivial⟩
    · cases h
    · obtain ⟨rfl, -⟩ : "b" = id ∧ [] = rest := by simpa using (show ["b"] = id :: rest from h)
      exact Or.inl rfl
  obtain ⟨hconserved, hgets⟩ := timely_run_conserves (rfl : SlabPool.create 1 = .ok exampleScheduler.pool)
    (rfl : create exampleScheduler.pool 1 .queue 0 = .ok exampleScheduler) exampleHandOff hall
  exact ⟨hconserved, hgets "b" 0 (by decide)⟩

end Scheduler

end KakeyaEngine
