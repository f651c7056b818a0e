import KakeyaEngine.Lib.Locks

/-!
# The locks of the session store and the memory governor

`SessionStore` guards its table by a re-entrant lock, and `PrimaryMemoryGovernor` its last sample by a plain one.  The
removal callback runs under the lock of the store and takes a sample, so a removal takes the lock of the governor second;
a sample reads the number of sessions under the lock of the governor, so it takes the lock of the store second.

Each operation is the list of the locks it takes and gives back.  Where it depends on the data whether it removes sessions,
and whether the governor resets the verifier after a removal and samples once more, the operation says so.  Other locks
(those of the registry, of the decode worker, of the liveness file) are not part of this.
-/

namespace KakeyaEngine

/-- The locks. -/
inductive RuntimeLock
  | store
  | governor
deriving DecidableEq

namespace RuntimeLock

open Locks (Step)

/-- `threading.RLock` for the store, `threading.Lock` for the governor. -/
def reentrant : RuntimeLock → Bool
  | store => true
  | governor => false

/-- The other lock. -/
def other : RuntimeLock → RuntimeLock
  | store => governor
  | governor => store

/-- `with self._lock` around the steps. -/
def guarded (l : RuntimeLock) (body : List (Step RuntimeLock)) : List (Step RuntimeLock) :=
  .acquire l :: body ++ [.release l]

/-! ### The operations -/

/-- `active_count`, `total_kv_live_bytes` and `get_session`, which read the table. -/
def readStore : List (Step RuntimeLock) := guarded store []

/-- `PrimaryMemoryGovernor.sample`: the number of sessions and their bytes are read under the lock. -/
def sample : List (Step RuntimeLock) := guarded governor (readStore ++ readStore)

/-- `draining` and `unhealthy`. -/
def readLevel : List (Step RuntimeLock) := guarded governor []

/-- `on_session_removed` of the governor; with `resets` it reclaims the memory and samples once more. -/
def onSessionRemoved (resets : Bool) : List (Step RuntimeLock) := sample ++ if resets then sample else []

/-- The removals of an operation, each with what the governor does after it. -/
def removals (removed : List Bool) : List (Step RuntimeLock) := removed.flatMap onSessionRemoved

end RuntimeLock

open RuntimeLock in
/-- The operations of the store and of the governor.  `removed` lists the sessions that a call removes, with whether the
governor resets the verifier: the least active one for a create at capacity, the session itself for a close, a cancellation
and a violated invariant, and any number for the eviction of idle sessions. -/
inductive RuntimeOperation
  | createSession (removed : List Bool)
  | getSession
  | appendTokens (removed : List Bool)
  | closeSession (removed : List Bool)
  | removeSessionIfPresent (removed : List Bool)
  | recordPositionAdvance (removed : List Bool)
  | evictIdle (removed : List Bool)
  | admission
  | sample
deriving DecidableEq

namespace RuntimeOperation

open RuntimeLock

/-- The locks that an operation takes and gives back. -/
def steps : RuntimeOperation → List (Locks.Step RuntimeLock)
  | createSession removed => guarded store (readStore ++ removals removed)
  | getSession => readStore
  | appendTokens removed => guarded store (readStore ++ removals removed)
  | closeSession removed => guarded store (readStore ++ removals removed)
  | removeSessionIfPresent removed => guarded store (removals removed)
  | recordPositionAdvance removed => guarded store (readStore ++ removals removed)
  | evictIdle removed => guarded store (removals removed)
  | admission => readLevel
  | sample => RuntimeLock.sample

end RuntimeOperation

/-- What happens next: a thread calls an operation, or makes its next step. -/
inductive RuntimeEvent
  | call (t : Nat) (op : RuntimeOperation)
  | step (t : Nat)
deriving DecidableEq

namespace RuntimeLock

/-- The event of the locks. -/
def event : RuntimeEvent → Locks.Event RuntimeLock
  | .call t op => .start t op.steps
  | .step t => .step t

/-- A step of a run of the runtime. -/
def run (s : Locks.State RuntimeLock) (e : RuntimeEvent) : Unit × Locks.State RuntimeLock := Locks.run reentrant s (event e)

/-! ### Nesting -/

/-- Steps that can be made from any depths at which the governor's lock is free, and lead back to them. -/
def Neutral (body : List (Locks.Step RuntimeLock)) : Prop :=
  ∀ d rest, d governor = 0 → Locks.WellNested reentrant d rest → Locks.WellNested reentrant d (body ++ rest)

theorem Neutral.append {a b : List (Locks.Step RuntimeLock)} (ha : Neutral a) (hb : Neutral b) : Neutral (a ++ b) := by
  intro d rest hd hrest
  rw [List.append_assoc]
  exact ha d _ hd (hb d rest hd hrest)

theorem Neutral.nil : Neutral [] := fun _ _ _ h => h

theorem Neutral.flatMap {α : Type} {f : α → List (Locks.Step RuntimeLock)} (hf : ∀ a, Neutral (f a)) (xs : List α) :
    Neutral (xs.flatMap f) := by
  induction xs with
  | nil => exact Neutral.nil
  | cons x xs ih =>
    rw [List.flatMap_cons]
    exact (hf x).append ih

/-- Taking and giving back a lock leads back to the depths. -/
theorem update_back (d : RuntimeLock → Nat) (l : RuntimeLock) :
    Function.update (Function.update d l (d l + 1)) l (Function.update d l (d l + 1) l - 1) = d := by
  funext l'
  by_cases h : l' = l
  · subst h
    simp
  · simp [h]

/-- A read of the store can be made at any depths. -/
theorem readStore_nested {d : RuntimeLock → Nat} {rest : List (Locks.Step RuntimeLock)}
    (hrest : Locks.WellNested reentrant d rest) : Locks.WellNested reentrant d (readStore ++ rest) := by
  refine ⟨Or.inl rfl, ?_, ?_⟩
  · simp
  · rw [update_back]
    exact hrest

theorem guarded_store_neutral {body : List (Locks.Step RuntimeLock)} (hbody : Neutral body) :
    Neutral (guarded store body) := by
  intro d rest hd hrest
  unfold guarded
  rw [List.cons_append, List.cons_append, List.append_assoc]
  refine ⟨Or.inl rfl, hbody _ _ ?_ ?_⟩
  · simp [hd]
  · refine ⟨by simp, ?_⟩
    rw [update_back]
    exact hrest

theorem sample_neutral : Neutral sample := by
  intro d rest hd hrest
  have hlast : Locks.WellNested reentrant (Function.update d governor (d governor + 1)) (.release governor :: rest) := by
    refine ⟨by simp, ?_⟩
    rw [update_back]
    exact hrest
  refine ⟨Or.inr hd, ?_⟩
  exact readStore_nested (readStore_nested hlast)

theorem readLevel_neutral : Neutral readLevel := by
  intro d rest hd hrest
  refine ⟨Or.inr hd, by simp, ?_⟩
  rw [update_back]
  exact hrest

theorem removals_neutral (removed : List Bool) : Neutral (removals removed) := by
  refine Neutral.flatMap (fun resets => ?_) removed
  unfold onSessionRemoved
  cases resets
  · simpa using sample_neutral
  · simpa using sample_neutral.append sample_neutral

theorem readStore_neutral : Neutral readStore := fun _ _ _ hrest => readStore_nested hrest

theorem steps_neutral (op : RuntimeOperation) : Neutral op.steps := by
  have hread : ∀ removed, Neutral (guarded store (readStore ++ removals removed)) := fun removed =>
    guarded_store_neutral (readStore_neutral.append (removals_neutral removed))
  cases op with
  | createSession removed => exact hread removed
  | getSession => exact readStore_neutral
  | appendTokens removed => exact hread removed
  | closeSession removed => exact hread removed
  | removeSessionIfPresent removed => exact guarded_store_neutral (removals_neutral removed)
  | recordPositionAdvance removed => exact hread removed
  | evictIdle removed => exact guarded_store_neutral (removals_neutral removed)
  | admission => exact readLevel_neutral
  | sample => exact sample_neutral

theorem steps_nested (op : RuntimeOperation) : Locks.WellNested reentrant (fun _ => 0) op.steps := by
  have h := steps_neutral op (fun _ => 0) [] rfl fun _ => rfl
  rwa [List.append_nil] at h

/-! ### Crossing threads -/

/-- A thread holds a lock. -/
def Holds (s : Locks.State RuntimeLock) (t : Nat) (l : RuntimeLock) : Prop := ∃ d, s.holder l = some (t, d)

/-- Two threads hold one lock each, and each has still to take the other one. -/
def Crossing (s : Locks.State RuntimeLock) : Prop :=
  ∃ t u l, t ≠ u ∧ Holds s t l ∧ .acquire l.other ∈ s.rest t ∧ Holds s u l.other ∧ .acquire l ∈ s.rest u

/-- A thread that takes a free lock and has still to take the other one does not find the other one held by a thread that
has still to take the first. -/
def Orderly (s : Locks.State RuntimeLock) : RuntimeEvent → Prop
  | .call _ _ => True
  | .step t =>
    match s.rest t with
    | .acquire l :: rest =>
      s.holder l = none → .acquire l.other ∈ rest →
        match s.holder l.other with
        | some (u, _) => u = t ∨ .acquire l ∉ s.rest u
        | none => True
    | _ => True

instance (s : Locks.State RuntimeLock) (e : RuntimeEvent) : Decidable (Orderly s e) := by
  unfold Orderly
  cases e with
  | call t op => exact inferInstanceAs (Decidable True)
  | step t =>
    dsimp only
    split
    · have : ∀ l, Decidable (match s.holder (other l) with
          | some (u, _) => u = t ∨ Locks.Step.acquire l ∉ s.rest u
          | none => True) := by
        intro l
        split <;> infer_instance
      infer_instance
    · infer_instance

theorem other_other (l : RuntimeLock) : l.other.other = l := by cases l <;> rfl

theorem other_ne (l : RuntimeLock) : l.other ≠ l := by cases l <;> decide

theorem eq_other_of_ne {l l' : RuntimeLock} (h : l' ≠ l) : l' = l.other := by
  cases l <;> cases l' <;> first | rfl | exact absurd rfl h

/-- Threads that hold no more and have no more to take do not come to cross. -/
theorem Crossing.of_less {s s' : Locks.State RuntimeLock} (hholds : ∀ t l, Holds s' t l → Holds s t l)
    (hrest : ∀ t l, .acquire l ∈ s'.rest t → .acquire l ∈ s.rest t) (h : Crossing s') : Crossing s := by
  obtain ⟨t, u, l, hne, ht, hto, hu, hul⟩ := h
  exact ⟨t, u, l, hne, hholds t l ht, hrest t _ hto, hholds u _ hu, hrest u l hul⟩

/-- Taking a free lock in order does not make threads cross. -/
theorem Crossing.of_take {s : Locks.State RuntimeLock} {t : Nat} {l : RuntimeLock} {rest : List (Locks.Step RuntimeLock)}
    (hr : s.rest t = .acquire l :: rest) (horderly : .acquire l.other ∈ rest → ∀ u, u ≠ t → Holds s u l.other →
      .acquire l ∉ s.rest u)
    (h : Crossing ⟨Function.update s.holder l (some (t, 1)), Function.update s.rest t rest⟩) : Crossing s := by
  obtain ⟨a, b, k, hne, ha, hao, hb, hbk⟩ := h
  have hkept : ∀ u, Holds ⟨Function.update s.holder l (some (t, 1)), Function.update s.rest t rest⟩ u l.other →
      Holds s u l.other := by
    rintro u ⟨d, hd⟩
    exact ⟨d, by simpa [other_ne] using hd⟩
  have htaken : ∀ u, Holds ⟨Function.update s.holder l (some (t, 1)), Function.update s.rest t rest⟩ u l → u = t := by
    rintro u ⟨d, hd⟩
    simp only [Function.update_self, Option.some.injEq, Prod.mk.injEq] at hd
    exact hd.1.symm
  by_cases hk : k = l
  · -- the thread that took the lock is the first of the two
    subst hk
    obtain rfl := htaken a ha
    have hao : Locks.Step.acquire k.other ∈ rest := by simpa using hao
    have hbk : Locks.Step.acquire k ∈ s.rest b := by simpa [Ne.symm hne] using hbk
    exact absurd hbk (horderly hao b (Ne.symm hne) (hkept b hb))
  · -- it is the second of the two
    obtain rfl : k = l.other := eq_other_of_ne hk
    rw [other_other] at hao hb
    obtain rfl := htaken b hb
    have hbk : Locks.Step.acquire l.other ∈ rest := by simpa using hbk
    have hao : Locks.Step.acquire l ∈ s.rest a := by simpa [hne] using hao
    exact absurd hao (horderly hbk a hne (hkept a ha))

/-- A step in order does not make threads cross. -/
theorem run_not_crossing {s : Locks.State RuntimeLock} (hs : Locks.Nested reentrant s) (hcross : ¬ Crossing s)
    {e : RuntimeEvent} (he : Orderly s e) : ¬ Crossing (run s e).2 := by
  intro h
  cases e with
  | call t op =>
    cases hr : s.rest t with
    | cons a as =>
      simp only [run, event, Locks.run, hr] at h
      exact hcross h
    | nil =>
      simp only [run, event, Locks.run, hr] at h
      -- an idle thread holds nothing
      have hidle : ∀ l, ¬ Holds s t l := by
        intro l hl
        have hzero := hs.threads t
        rw [hr] at hzero
        have hpos := (Locks.depth_holder hs.held).2 hl
        have := hzero l
        omega
      obtain ⟨a, b, k, hne, ha, hao, hb, hbk⟩ := h
      have hat : a ≠ t := fun h => hidle k (h ▸ ha)
      have hbt : b ≠ t := fun h => hidle k.other (h ▸ hb)
      refine hcross ⟨a, b, k, hne, ha, ?_, hb, ?_⟩
      · simpa [hat] using hao
      · simpa [hbt] using hbk
  | step t =>
    have hless : ∀ (l : RuntimeLock) (h : Option (Nat × Nat)) (a : Locks.Step RuntimeLock)
        (rest : List (Locks.Step RuntimeLock)), s.rest t = a :: rest → (∀ u d, h = some (u, d) → Holds s u l) →
        ¬ Crossing ⟨Function.update s.holder l h, Function.update s.rest t rest⟩ := by
      intro l h a rest hr hh hc
      refine hcross (hc.of_less ?_ ?_)
      · rintro u k ⟨d, hd⟩
        by_cases hk : k = l
        · subst hk
          exact hh u d (by simpa using hd)
        · exact ⟨d, by simpa [hk] using hd⟩
      · intro u k hk
        by_cases hu : u = t
        · subst hu
          rw [hr]
          exact List.mem_cons_of_mem a (by simpa using hk)
        · simpa [hu] using hk
    cases hr : s.rest t with
    | nil =>
      simp only [run, event, Locks.run, hr] at h
      exact hcross h
    | cons a rest =>
      cases a with
      | acquire l =>
        simp only [run, event, Locks.run, hr] at h
        cases hh : s.holder l with
        | none =>
          rw [hh] at h
          refine hcross (Crossing.of_take hr ?_ h)
          rintro hao u hu ⟨d, hd⟩
          simp only [Orderly, hr] at he
          have := he hh hao
          rw [hd] at this
          exact this.resolve_left hu
        | some p =>
          obtain ⟨u, d⟩ := p
          rw [hh] at h
          by_cases hu : u = t ∧ reentrant l = true
          · simp only [Locks.take, hu, and_self, if_true] at h
            refine hless l _ _ rest hr ?_ h
            rintro v e hv
            simp only [Option.some.injEq, Prod.mk.injEq] at hv
            exact ⟨d, by rw [hh, hu.1, hv.1]⟩
          · simp only [Locks.take, hu, if_false] at h
            exact hcross h
      | release l =>
        simp only [run, event, Locks.run, hr] at h
        refine hless l _ _ rest hr ?_ h
        intro v e hv
        cases hh : s.holder l with
        | none =>
          rw [hh] at hv
          cases hv
        | some p =>
          obtain ⟨u, d⟩ := p
          rw [hh] at hv
          refine ⟨d, ?_⟩
          simp only [Locks.giveBack] at hv
          by_cases hu : u = t
          · rw [if_pos hu] at hv
            split at hv
            · cases hv
            · simp only [Option.some.injEq, Prod.mk.injEq] at hv
              rw [hh, hu, hv.1]
          · simp only [hu, if_false, Option.some.injEq, Prod.mk.injEq] at hv
            rw [hh, hv.1]

/-- A cyclic wait has two threads that cross. -/
theorem crossing_of_cyclicWait {s : Locks.State RuntimeLock} (hs : Locks.Nested reentrant s)
    (h : Locks.CyclicWait reentrant s) : Crossing s := by
  obtain ⟨t, u, v, w, htu, huv, hvw⟩ := h.chain
  have huvne := huv.ne hs
  have hvwne := hvw.ne hs
  obtain ⟨l, rest, d, -, hl, -⟩ := htu
  obtain ⟨k, restu, e, hru, hk, -⟩ := huv
  obtain ⟨j, restv, f, hrv, hj, -⟩ := hvw
  -- the second thread holds `l` and waits for `k`, which the third holds and waits for `j`
  have hkl : k = l.other := by
    refine eq_other_of_ne fun heq => ?_
    rw [heq, hl] at hk
    exact huvne (congrArg Prod.fst (Option.some.inj hk))
  have hjk : j = k.other := by
    refine eq_other_of_ne fun heq => ?_
    rw [heq, hk] at hj
    exact hvwne (congrArg Prod.fst (Option.some.inj hj))
  rw [hkl] at hk hru
  rw [hjk, hkl, other_other] at hrv
  refine ⟨u, v, l, huvne, ⟨d, hl⟩, ?_, ⟨e, hk⟩, ?_⟩
  · rw [hru]
    exact List.mem_cons_self
  · rw [hrv]
    exact List.mem_cons_self

/-- In every run in which no thread takes a lock out of order, from any number of threads, no state has a cyclic wait. -/
theorem no_cyclic_wait_in_order (es : List RuntimeEvent) (horderly : Machine.AllSteps run Orderly Locks.idle es) :
    ¬ Locks.CyclicWait reentrant (Machine.final run Locks.idle es) := by
  have hinv : Locks.Nested reentrant (Machine.final run Locks.idle es) ∧ ¬ Crossing (Machine.final run Locks.idle es) := by
    refine Machine.final_of_steps (I := fun s => Locks.Nested reentrant s ∧ ¬ Crossing s) ?_
      ⟨Locks.idle_nested, ?_⟩ horderly
    · rintro s e ⟨hs, hc⟩ he
      refine ⟨Locks.run_nested hs ?_, run_not_crossing hs hc he⟩
      cases e with
      | call t op => exact steps_nested op
      | step t => trivial
    · rintro ⟨t, u, l, -, ⟨d, hd⟩, -⟩
      cases hd
  exact fun h => hinv.2 (crossing_of_cyclicWait hinv.1 h)

/-- A close that removes its session, and a sample, one after the other. -/
def quietRun : List RuntimeEvent :=
  [.call 0 (.closeSession [true]), .call 1 .sample] ++ List.replicate 16 (.step 0) ++ List.replicate 6 (.step 1)

theorem quiet_run_no_wait :
    Machine.AllSteps run Orderly Locks.idle quietRun ∧
      ¬ Locks.CyclicWait reentrant (Machine.final run Locks.idle quietRun) := by
  have h : Machine.AllSteps run Orderly Locks.idle quietRun := by decide +kernel
  exact ⟨h, no_cyclic_wait_in_order quietRun h⟩

/-- A close takes the lock of the store, and a sample that of the governor, before either takes its second lock. -/
def crossedRun : List RuntimeEvent :=
  [.call 0 (.closeSession [false]), .call 1 .sample] ++ List.replicate 3 (.step 0) ++ [.step 1]

/-- The close waits for the sample, and the sample for the close. -/
theorem close_and_sample_deadlock : Locks.CyclicWait reentrant (Machine.final run Locks.idle crossedRun) := by
  have hclose : Locks.Waits reentrant (Machine.final run Locks.idle crossedRun) 0 1 := ⟨governor, _, 1, rfl, rfl, rfl⟩
  have hsample : Locks.Waits reentrant (Machine.final run Locks.idle crossedRun) 1 0 := ⟨store, _, 1, rfl, rfl, rfl⟩
  exact ⟨0, (Relation.TransGen.single hclose).tail hsample⟩

end RuntimeLock

end KakeyaEngine
