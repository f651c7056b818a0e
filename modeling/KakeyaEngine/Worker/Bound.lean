import KakeyaEngine.Worker.Safety
import Mathlib.Data.List.Perm.Subperm

/-!
# The size of the job table

`submit` admits a job while fewer than `max_jobs` are queued or running, and the collection before it drops finished jobs
down to twice that number.  A job whose task has set its state but not yet the time of its end is neither active nor
finished; such a job still has a thread of the executor.  So with no more threads than `max_jobs`, the jobs that cannot be
dropped are at most `2 * max_jobs`, and the table never has more than one job beyond that (`table_bound`).
-/

namespace KakeyaEngine

private theorem countP_le_add {α : Type} {l : List α} {p q r : α → Bool} (h : ∀ x ∈ l, p x → q x ∨ r x) :
    l.countP p ≤ l.countP q + l.countP r := by
  induction l with
  | nil => simp
  | cons x l ih =>
    rw [List.forall_mem_cons] at h
    have hx := h.1
    have hl := ih h.2
    rw [List.countP_cons, List.countP_cons, List.countP_cons]
    cases hp : p x <;> cases hq : q x <;> cases hr : r x <;> simp_all <;> omega

/-- The task has a thread of the executor. -/
def Task.Busy (t : Task) : Prop := t ≠ .pending ∧ t ≠ .cancelled ∧ t ≠ .done

instance (t : Task) : Decidable t.Busy := inferInstanceAs (Decidable (_ ∧ _))

namespace PrefillJob

/-- The job is queued or running. -/
def Active (job : PrefillJob) : Prop := job.state = .queued ∨ job.state = .running

instance (job : PrefillJob) : Decidable job.Active := inferInstanceAs (Decidable (_ ∨ _))

variable {job job' : PrefillJob}

theorem Fits.active_iff (h : job.Fits) : job.Active ↔ ¬ job.state.Terminal := by
  unfold Fits at h
  unfold Active PrefillJobState.Terminal
  cases ht : job.task <;> rw [ht] at h <;> grind [PrefillJobState.Terminal]

theorem not_busy_iff : ¬ job.task.Busy ↔ job.task = .pending ∨ job.Ended := by
  unfold Task.Busy Ended
  grind

/-- A job that cannot be dropped is active, or its task is about to set the time of its end. -/
theorem Fits.unfinished (h : job.Fits) (hf : job.finishedAt = 0) (hend : job.Ended → job.finishedAt ≠ 0) :
    job.Active ∨ job.task.Busy := by
  have hlive : ¬ job.Ended := fun he => hend he hf
  by_cases hb : job.task.Busy
  · exact Or.inr hb
  · left
    have hp := (not_busy_iff.mp hb).resolve_right hlive
    rw [Fits, hp] at h
    exact Or.inl h.1

/-- What an event does to the task of a job: it starts only by `starts`, and a task that ends sets the time, which is not
zero when the event is `timed`. -/
structure Proceeds (starts timed : Prop) (job job' : PrefillJob) : Prop where
  jobId : job'.jobId = job.jobId
  digest : job'.requestDigest = job.requestDigest
  busy : job'.task.Busy → job.task.Busy ∨ (starts ∧ job.task = .pending)
  stamped : timed → job'.Ended → job'.finishedAt ≠ 0 ∨ (job.Ended ∧ job'.finishedAt = job.finishedAt)

variable {starts timed : Prop}

/-- The task and the time of its end are the same. -/
theorem Proceeds.of_same (hid : job'.jobId = job.jobId) (hd : job'.requestDigest = job.requestDigest)
    (ht : job'.task = job.task) (hf : job'.finishedAt = job.finishedAt) : Proceeds starts timed job job' := by
  refine ⟨hid, hd, fun h => Or.inl (ht ▸ h), fun _ h => Or.inr ⟨?_, hf⟩⟩
  unfold Ended at h ⊢
  rwa [ht] at h

theorem Proceeds.refl (job : PrefillJob) : Proceeds starts timed job job := Proceeds.of_same rfl rfl rfl rfl

/-- A task that has a thread and goes on. -/
theorem Proceeds.of_live (hid : job'.jobId = job.jobId) (hd : job'.requestDigest = job.requestDigest)
    (hbusy : job.task.Busy) (hlive : ¬ job'.Ended) : Proceeds starts timed job job' :=
  ⟨hid, hd, fun _ => Or.inl hbusy, fun _ h => absurd h hlive⟩

end PrefillJob

namespace PrefillJobStore

open PrefillJob

variable {s s' : PrefillJobStore} {job : PrefillJob} {d : Draw} {C : EngineContract}

/-- A step of a task of a job in the table. -/
theorem advance_proceeds (hjob : s.objects.get? job.jobId = some job)
    (hkept : job.task = .starting → job.jobId ∈ s.jobs) :
    ∃ job', (s.advance job d).objects.get? job.jobId = some job' ∧ Proceeds True (d.now ≠ 0) job job' := by
  have hset : ∀ job', Proceeds True (d.now ≠ 0) job job' →
      ∃ job'', (s.setJob job').objects.get? job.jobId = some job'' ∧ Proceeds True (d.now ≠ 0) job job'' := by
    intro job' h
    refine ⟨job', ?_, h⟩
    rw [← h.jobId]
    exact Dict.get?_set_self _ _ _
  unfold advance
  cases ht : job.task with
  | pending => exact hset { job with task := .starting } ⟨rfl, rfl, fun _ => Or.inr ⟨trivial, ht⟩, by simp [Ended]⟩
  | starting =>
    refine hset (job.start (decide (job.jobId ∈ s.jobs)) d.now) ?_
    unfold start
    rw [if_neg (by simp [hkept ht])]
    split
    · exact ⟨rfl, rfl, by simp [Task.Busy], fun hnow _ => Or.inl hnow⟩
    · exact Proceeds.of_live rfl rfl (by simp [Task.Busy, ht]) (by simp [Ended])
  | checkingDeadline =>
    refine hset (job.checkDeadline d.now) ?_
    unfold checkDeadline
    split <;> [skip; split] <;> exact Proceeds.of_live rfl rfl (by simp [Task.Busy, ht]) (by simp [Ended])
  | reserving =>
    have hreserved : ∀ r, Proceeds True (d.now ≠ 0) job (job.reserved r) := by
      intro r
      unfold reserved
      split <;> exact Proceeds.of_live rfl rfl (by simp [Task.Busy, ht]) (by simp [Ended])
    dsimp only
    split
    · exact hset _ (hreserved _)
    · exact hset _ (hreserved _)
  | computing =>
    refine hset (job.engineDone d.outcome) ?_
    unfold engineDone
    split <;> exact Proceeds.of_live rfl rfl (by simp [Task.Busy, ht]) (by simp [Ended])
  | computed =>
    refine hset job.check ?_
    unfold check
    split <;> [skip; split] <;> exact Proceeds.of_live rfl rfl (by simp [Task.Busy, ht]) (by simp [Ended])
  | publishing =>
    refine hset (job.publishDone _) ?_
    unfold publishDone
    split <;> exact Proceeds.of_live rfl rfl (by simp [Task.Busy, ht]) (by simp [Ended])
  | published =>
    refine hset job.recheck ?_
    unfold recheck
    split <;> exact Proceeds.of_live rfl rfl (by simp [Task.Busy, ht]) (by simp [Ended])
  | completing =>
    refine hset job.complete ?_
    unfold complete
    split <;> [skip; (split <;> [skip; (dsimp only; split)])] <;>
      exact Proceeds.of_live rfl rfl (by simp [Task.Busy, ht]) (by simp [Ended])
  | interrupted message =>
    exact hset { job with state := .cancelled, failureReason := message, task := .releasing }
      (Proceeds.of_live rfl rfl (by simp [Task.Busy, ht]) (by simp [Ended]))
  | failing reason =>
    exact hset { job with state := .failed, failureReason := reason, task := .releasing }
      (Proceeds.of_live rfl rfl (by simp [Task.Busy, ht]) (by simp [Ended]))
  | releasing =>
    exact hset { job with task := .finishing } (Proceeds.of_live rfl rfl (by simp [Task.Busy, ht]) (by simp [Ended]))
  | finishing =>
    exact hset { job with finishedAt := d.now, task := .done } ⟨rfl, rfl, by simp [Task.Busy], fun hnow _ => Or.inl hnow⟩
  | cancelled | done => exact ⟨job, hjob, Proceeds.refl _⟩

/-! ### Counting jobs -/

/-- How many jobs in the table meet a condition. -/
def countJobs (s : PrefillJobStore) (p : PrefillJob → Bool) : Nat := s.jobs.countP fun id => (s.objects.get? id).any p

theorem length_filter_keptJobs (s : PrefillJobStore) (p : PrefillJob → Bool) :
    (s.keptJobs.filter p).length = s.countJobs p := by
  unfold keptJobs countJobs
  rw [← List.countP_eq_length_filter, List.countP_filterMap]
  refine congrArg (List.countP · s.jobs) (funext fun id => ?_)
  cases s.objects.get? id <;> rfl

/-- The jobs whose tasks have a thread. -/
def busyJobs (s : PrefillJobStore) : List PrefillJob := s.keptJobs.filter fun job => decide job.task.Busy

theorem length_activeJobs (s : PrefillJobStore) : s.activeJobs.length = s.countJobs fun job => decide job.Active :=
  length_filter_keptJobs s fun job => decide job.Active

theorem length_busyJobs (s : PrefillJobStore) : s.busyJobs.length = s.countJobs fun job => decide job.task.Busy :=
  length_filter_keptJobs s fun job => decide job.task.Busy

theorem countJobs_mono {p q : PrefillJob → Bool} (hjobs : s'.jobs.Sublist s.jobs)
    (h : ∀ id ∈ s'.jobs, (s'.objects.get? id).any p = true → (s.objects.get? id).any q = true) :
    s'.countJobs p ≤ s.countJobs q :=
  Nat.le_trans (List.countP_mono_left h) (hjobs.countP_le)

/-! ### Garbage collection -/

theorem jobs_dropJobs (s : PrefillJobStore) (dropped : List PrefillJob) :
    (s.dropJobs dropped).jobs = s.jobs.filter fun id => decide (id ∉ dropped.map PrefillJob.jobId) := by
  induction dropped generalizing s with
  | nil => simp [dropJobs]
  | cons job dropped ih =>
    have hrest := ih (s.dropJob job)
    unfold dropJobs at hrest ⊢
    rw [List.foldl_cons, hrest]
    unfold dropJob
    rw [List.filter_filter]
    refine List.filter_congr fun id _ => ?_
    simp only [List.map_cons, List.mem_cons, not_or, Bool.decide_and]
    exact Bool.and_comm _ _

theorem dropJobs_limits (s : PrefillJobStore) (dropped : List PrefillJob) : (s.dropJobs dropped).limits = s.limits := by
  induction dropped generalizing s with
  | nil => rfl
  | cons job dropped ih => exact ih (s.dropJob job)

theorem length_dropJobs {dropped : List PrefillJob} (hn : (dropped.map PrefillJob.jobId).Nodup)
    (hsub : ∀ job ∈ dropped, job.jobId ∈ s.jobs) :
    (s.dropJobs dropped).jobs.length + dropped.length ≤ s.jobs.length := by
  rw [jobs_dropJobs]
  have hle : dropped.length ≤ (s.jobs.filter fun id => decide (id ∈ dropped.map PrefillJob.jobId)).length := by
    rw [← List.length_map PrefillJob.jobId]
    refine (List.subperm_of_subset hn fun id hid => ?_).length_le
    obtain ⟨job, hjob, rfl⟩ := List.mem_map.mp hid
    exact List.mem_filter.mpr ⟨hsub job hjob, decide_eq_true hid⟩
  have hsplit := List.length_eq_length_filter_add (l := s.jobs) fun id => decide (id ∈ dropped.map PrefillJob.jobId)
  simp only [decide_not] at hsplit ⊢
  omega

theorem map_jobId_keptJobs (hs : s.Inv C) : s.keptJobs.map PrefillJob.jobId = s.jobs := by
  unfold keptJobs
  have htable := hs.table
  generalize s.jobs = ids at htable ⊢
  induction ids with
  | nil => rfl
  | cons id ids ih =>
    rw [List.forall_mem_cons] at htable
    obtain ⟨job, hjob, -⟩ := htable.1
    rw [List.filterMap_cons_some hjob, List.map_cons, ih htable.2, hs.jobId id job hjob]

theorem gcLocked_limits (s : PrefillJobStore) (now : Int) : (s.gcLocked now).limits = s.limits := by
  unfold gcLocked
  dsimp only
  rw [dropJobs_limits, dropJobs_limits]

theorem gcLocked_sublist (s : PrefillJobStore) (now : Int) : (s.gcLocked now).jobs.Sublist s.jobs := by
  unfold gcLocked
  dsimp only
  rw [jobs_dropJobs, jobs_dropJobs]
  exact List.filter_sublist.trans List.filter_sublist

theorem finished_of_expired {now : Int} (h : job ∈ s.expiredJobs now) : job ∈ s.keptJobs ∧ job.finishedAt ≠ 0 := by
  obtain ⟨hk, hf⟩ := List.mem_filter.mp h
  exact ⟨hk, (of_decide_eq_true hf).1⟩

theorem finished_of_overflow (h : job ∈ s.overflowJobs) : job ∈ s.keptJobs ∧ job.finishedAt ≠ 0 := by
  unfold overflowJobs at h
  dsimp only at h
  split at h
  · have hmem := List.mem_of_mem_take h
    rw [List.mem_mergeSort] at hmem
    obtain ⟨hk, hf⟩ := List.mem_filter.mp hmem
    exact ⟨hk, of_decide_eq_true hf⟩
  · cases h

theorem dropExpired_keeps (hs : s.Inv C) (now : Int) :
    (s.dropJobs (s.expiredJobs now)).Inv C ∧ (s.dropJobs (s.expiredJobs now)).objects = s.objects := by
  have hdrop : ∀ job ∈ s.expiredJobs now, s.Droppable job := fun job hjob =>
    droppable_of_finished hs (finished_of_expired hjob).1 (finished_of_expired hjob).2
  obtain ⟨hs₁, hobj₁, -⟩ := dropJobs_keeps hs hdrop
  exact ⟨hs₁, hobj₁⟩

/-- The collection drops no job without the time of its end. -/
theorem mem_gcLocked (hs : s.Inv C) (now : Int) {id : String} (hid : id ∈ s.jobs) (hjob : s.objects.get? id = some job)
    (hf : job.finishedAt = 0) : id ∈ (s.gcLocked now).jobs := by
  have hkeep : ∀ (t : PrefillJobStore) (dropped : List PrefillJob), t.Inv C → t.objects = s.objects → id ∈ t.jobs →
      (∀ other ∈ dropped, other ∈ t.keptJobs ∧ other.finishedAt ≠ 0) → id ∈ (t.dropJobs dropped).jobs := by
    intro t dropped ht hobj hmem hdropped
    rw [jobs_dropJobs]
    refine List.mem_filter.mpr ⟨hmem, decide_eq_true fun hin => ?_⟩
    obtain ⟨other, hother, heq⟩ := List.mem_map.mp hin
    obtain ⟨hk, hfin⟩ := hdropped other hother
    have hstored := (droppable_of_finished ht hk hfin).stored
    rw [heq, hobj, hjob] at hstored
    exact hfin (Option.some.inj hstored ▸ hf)
  obtain ⟨hs₁, hobj₁⟩ := dropExpired_keeps hs now
  unfold gcLocked
  dsimp only
  refine hkeep _ _ hs₁ hobj₁ ?_ fun other hother => finished_of_overflow hother
  exact hkeep s _ hs rfl hid fun other hother => finished_of_expired hother

/-- The collection leaves at most twice `max_jobs`, when no more than that cannot be dropped. -/
theorem length_gcLocked (hs : s.Inv C) (hn : s.jobs.Nodup) (now : Int)
    (hun : (s.countJobs fun job => decide (job.finishedAt = 0) : Int) ≤ s.limits.maxJobs * 2) :
    ((s.gcLocked now).jobs.length : Int) ≤ s.limits.maxJobs * 2 := by
  obtain ⟨hs₁, hobj₁⟩ := dropExpired_keeps hs now
  have hsub : (s.dropJobs (s.expiredJobs now)).jobs.Sublist s.jobs := by
    rw [jobs_dropJobs]
    exact List.filter_sublist
  have hlim : (s.dropJobs (s.expiredJobs now)).limits = s.limits := dropJobs_limits _ _
  have hn₁ := hn.sublist hsub
  have hun₁ : (s.dropJobs (s.expiredJobs now)).countJobs (fun job => decide (job.finishedAt = 0)) ≤
      s.countJobs fun job => decide (job.finishedAt = 0) :=
    countJobs_mono hsub fun id _ h => by rwa [hobj₁] at h
  unfold gcLocked
  dsimp only
  generalize s.dropJobs (s.expiredJobs now) = t at hs₁ hlim hn₁ hun₁
  have hids := map_jobId_keptJobs hs₁
  have hlen : t.keptJobs.length = t.jobs.length := by rw [← hids, List.length_map]
  have hsplit := List.length_eq_length_filter_add (l := t.keptJobs) fun job => decide (job.finishedAt ≠ 0)
  have hcount := length_filter_keptJobs t fun job => decide (job.finishedAt = 0)
  simp only [decide_not, Bool.not_not] at hsplit
  have hdrop : (t.dropJobs t.overflowJobs).jobs.length + t.overflowJobs.length ≤ t.jobs.length := by
    refine length_dropJobs ?_ fun job hjob => ?_
    · unfold overflowJobs
      dsimp only
      split
      · have hperm := (List.mergeSort_perm (t.keptJobs.filter fun job => decide (job.finishedAt ≠ 0))
          fun a b => decide (a.finishedAt ≤ b.finishedAt)).map PrefillJob.jobId
        refine List.Nodup.sublist ((List.take_sublist _ _).map _) (hperm.nodup_iff.mpr ?_)
        refine List.Nodup.sublist (List.filter_sublist.map _) ?_
        rw [hids]
        exact hn₁
      · exact List.nodup_nil
    · rw [← hids]
      exact List.mem_map_of_mem (finished_of_overflow hjob).1
  have hover : (t.jobs.length : Int) - t.limits.maxJobs * 2 ≤ t.overflowJobs.length ∨
      (t.keptJobs.filter fun job => decide (job.finishedAt ≠ 0)).length ≤ t.overflowJobs.length := by
    unfold overflowJobs
    dsimp only
    split
    · rw [List.length_take, List.length_mergeSort]
      omega
    · left
      simp only [List.length_nil]
      omega
  rw [hlim] at hover
  simp only [decide_not] at hover
  omega

/-! ### Steps -/

/-- The clock readings that a job may keep are not zero. -/
def Timed : JobEvent → Prop
  | .cancel _ _ _ now => now ≠ 0
  | .run _ d => d.now ≠ 0
  | _ => True

/-- What the executor promises about an event: a task gets a thread only while one is free. -/
def Scheduled (s : PrefillJobStore) : JobEvent → Prop
  | .run id _ => ∀ job, s.objects.get? id = some job → job.task = .pending →
      (s.busyJobs.length : Int) < s.limits.maxConcurrentJobs
  | _ => True

/-- An event that stores no new job: jobs are dropped from the table, and go on. -/
structure Moves (starts : String → Prop) (timed : Prop) (s s' : PrefillJobStore) : Prop where
  limits : s'.limits = s.limits
  jobs : s'.jobs.Sublist s.jobs
  objects : ∀ id, Option.Rel (Proceeds (starts id) timed) (s.objects.get? id) (s'.objects.get? id)

variable {starts : String → Prop} {timed : Prop}

theorem Moves.of_objects (hlim : s'.limits = s.limits) (hjobs : s'.jobs.Sublist s.jobs) (hobj : s'.objects = s.objects) :
    Moves starts timed s s' := by
  refine ⟨hlim, hjobs, fun id => ?_⟩
  rw [hobj]
  cases s.objects.get? id with
  | none => exact .none
  | some job => exact .some (Proceeds.refl job)

theorem Moves.gcLocked (hs : s.Inv C) (now : Int) : Moves starts timed s (s.gcLocked now) :=
  Moves.of_objects (gcLocked_limits s now) (gcLocked_sublist s now) (gcLocked_keeps hs now).2.1

/-- An event that concerns one job. -/
theorem Moves.of_touched {job' : PrefillJob} (hlim : s'.limits = s.limits) (hjobs : s'.jobs.Sublist s.jobs)
    (hjob : s.objects.get? job.jobId = some job) (hhere : s'.objects.get? job.jobId = some job')
    (hothers : ∀ k, k ≠ job.jobId → s'.objects.get? k = s.objects.get? k)
    (h : Proceeds (starts job.jobId) timed job job') :
    Moves starts timed s s' := by
  refine ⟨hlim, hjobs, fun id => ?_⟩
  by_cases hid : id = job.jobId
  · rw [hid, hjob, hhere]
    exact .some h
  · rw [hothers id hid]
    cases s.objects.get? id with
    | none => exact .none
    | some job => exact .some (Proceeds.refl job)

theorem Moves.setJob {job' : PrefillJob} (hjob : s.objects.get? job.jobId = some job)
    (h : Proceeds (starts job.jobId) timed job job') : Moves starts timed s (s.setJob job') := by
  have htouch := touches_setJob s job h.jobId
  exact Moves.of_touched rfl (List.Sublist.refl _) hjob htouch.here htouch.others h

/-- The calls that collect before they look at a job. -/
theorem Moves.after_gc (hs : s.Inv C) {now : Int} (h : Moves starts timed (s.gcLocked now) s') :
    Moves starts timed s s' := by
  refine ⟨h.limits.trans (gcLocked_limits s now), h.jobs.trans (gcLocked_sublist s now), fun id => ?_⟩
  have hobj := h.objects id
  rwa [(gcLocked_keeps hs now).2.1] at hobj

theorem Moves.onCache {α : Type} (h : Moves starts timed s s') (x : CacheProc α) : Moves starts timed s (s'.onCache x) :=
  ⟨h.limits, h.jobs, h.objects⟩

theorem moves_flagged (hjob : s.objects.get? job.jobId = some job) :
    Moves starts timed s (s.setJob { job with cancelled := true }) :=
  Moves.setJob hjob (Proceeds.of_same rfl rfl rfl rfl)

theorem moves_cancel (hs : s.Inv C) (id tenantId : String) (gcNow now : Int) :
    Moves starts (now ≠ 0) s ((cancel id tenantId gcNow now).run s).2 := by
  obtain ⟨hgc, -, -⟩ := gcLocked_keeps hs gcNow
  unfold cancel
  rcases run_get s id tenantId gcNow with ⟨e, hget⟩ | ⟨job, hjob, hget⟩
  · rw [Proc.run_bind_error hget]
    exact Moves.gcLocked hs gcNow
  · rw [Proc.run_bind_ok hget]
    obtain ⟨-, hstored⟩ := stored_of_job? hgc hjob
    split
    · exact Moves.gcLocked hs gcNow
    · apply Moves.after_gc hs
      split
      · have hqueued : Moves starts (now ≠ 0) (s.gcLocked gcNow) ((s.gcLocked gcNow).setJob (cancelQueued now job)) :=
          Moves.setJob hstored ⟨rfl, rfl, by simp [cancelQueued, Task.Busy], fun hnow _ => Or.inl hnow⟩
        exact hqueued.onCache (PrefixCacheStore.releaseReservation job.jobId)
      · exact moves_flagged hstored

theorem moves_progress (hs : s.Inv C) (id : String) (n : Int) : Moves starts timed s ((updateJobProgress id n).run s).2 := by
  unfold updateJobProgress
  rw [Proc.run_get_bind]
  cases hjob : s.job? id with
  | none => exact Moves.of_objects rfl (List.Sublist.refl _) rfl
  | some job =>
    obtain ⟨-, hstored⟩ := stored_of_job? hs hjob
    exact Moves.setJob hstored (Proceeds.of_same rfl rfl rfl rfl)

theorem advance_limits (s : PrefillJobStore) (job : PrefillJob) (d : Draw) : (s.advance job d).limits = s.limits := by
  unfold advance
  cases job.task with
  | reserving =>
    dsimp only
    split <;> rfl
  | _ => rfl

/-- Every event but a submit. -/
theorem step_moves (hs : s.Inv C) {e : JobEvent} (he : s.Allowed C e)
    (hsubmit : ∀ r gcNow now jobId, e ≠ .submit r gcNow now jobId) :
    Moves (fun id => ∃ d, e = .run id d) (Timed e) s (step s e).2 := by
  cases e with
  | submit r gcNow now jobId => exact absurd rfl (hsubmit r gcNow now jobId)
  | get id tenantId now =>
    unfold step perform
    rw [Proc.run_map_snd]
    rcases run_get s id tenantId now with ⟨e, hget⟩ | ⟨job, -, hget⟩
    · rw [hget]
      exact Moves.gcLocked hs now
    · rw [hget]
      exact Moves.gcLocked hs now
  | cancel id tenantId gcNow now =>
    unfold step perform
    rw [Proc.run_map_snd]
    exact moves_cancel hs id tenantId gcNow now
  | progress id n =>
    unfold step perform
    rw [Proc.run_map_snd]
    exact moves_progress hs id n
  | timer id =>
    show Moves _ _ s (s.fireTimer id)
    unfold fireTimer
    cases hjob : s.objects.get? id with
    | none => exact Moves.of_objects rfl (List.Sublist.refl _) rfl
    | some job =>
      dsimp only
      split
      · exact moves_flagged (by rw [hs.jobId id job hjob]; exact hjob)
      · exact Moves.of_objects rfl (List.Sublist.refl _) rfl
  | run id d =>
    unfold step perform
    rw [Proc.run_modify_bind]
    cases hjob : s.objects.get? id with
    | none => exact Moves.of_objects rfl (List.Sublist.refl _) rfl
    | some job =>
      have hid := hs.jobId id job hjob
      subst hid
      have hinv := hs.job _ job hjob
      have hkept : job.task = .starting → job.jobId ∈ s.jobs := fun ht => hinv.kept (by simp [Ended, ht])
      obtain ⟨job', hhere, hproceeds⟩ := @advance_proceeds s job d hjob hkept
      obtain ⟨job'', htouch, -, -⟩ := advance_spec hinv hjob (he job hjob)
      have hstarts : Proceeds (∃ d', JobEvent.run job.jobId d = .run job.jobId d') (d.now ≠ 0) job job' :=
        ⟨hproceeds.jobId, hproceeds.digest, fun hb => (hproceeds.busy hb).imp_right fun h => ⟨⟨d, rfl⟩, h.2⟩,
          hproceeds.stamped⟩
      refine Moves.of_touched (advance_limits s job d) ?_ hjob hhere htouch.others hstarts
      show (s.advance job d).jobs.Sublist s.jobs
      rw [htouch.jobs]
  | cache e => exact Moves.of_objects rfl (List.Sublist.refl _) rfl

/-- What a call of `submit` comes to. -/
inductive Submitted (s : PrefillJobStore) (r : PrefillRequest) (gcNow now : Int) (jobId : String) :
    Except JobError String × PrefillJobStore → Prop
  | refused (e : JobError) : Submitted s r gcNow now jobId (.error e, s)
  | rejected (e : JobError) : Submitted s r gcNow now jobId (.error e, s.gcLocked gcNow)
  | found {id : String} {job : PrefillJob}
      (hkey : (s.gcLocked gcNow).requests.get? (r.tenantId, r.requestId) = some id)
      (hjob : (s.gcLocked gcNow).job? id = some job) (hdigest : digest r = .ok job.requestDigest) :
      Submitted s r gcNow now jobId (.ok id, s.gcLocked gcNow)
  | made {requestDigest : Bytes} (hkey : (s.gcLocked gcNow).requests.get? (r.tenantId, r.requestId) = none)
      (hdigest : digest r = .ok requestDigest)
      (hroom : ((s.gcLocked gcNow).activeJobs.length : Int) < (s.gcLocked gcNow).limits.maxJobs) :
      Submitted s r gcNow now jobId (.ok jobId, (s.gcLocked gcNow).enqueue (newJob r requestDigest now jobId))

theorem run_submit (s : PrefillJobStore) (r : PrefillRequest) (gcNow now : Int) (jobId : String) :
    Submitted s r gcNow now jobId ((submit r gcNow now jobId).run s) := by
  unfold submit
  rw [Proc.run_get_bind]
  cases s.validate r with
  | error e => exact .refused e
  | ok u =>
    dsimp only
    cases hdigest : digest r with
    | error e => exact .refused e
    | ok requestDigest =>
      dsimp only
      unfold submitLocked
      rw [Proc.run_modify_bind, Proc.run_get_bind]
      cases hkey : (s.gcLocked gcNow).requests.get? (r.tenantId, r.requestId) with
      | none =>
        dsimp only
        unfold accept
        rw [Proc.run_get_bind]
        split
        · exact .rejected _
        · rename_i hroom
          cases (s.gcLocked gcNow).estimate r.tokenIds with
          | error e => exact .rejected _
          | ok bytes =>
            dsimp only
            split
            · exact .rejected _
            · exact .made hkey hdigest (Int.not_le.mp hroom)
      | some existingId =>
        dsimp only
        cases hjob : (s.gcLocked gcNow).job? existingId with
        | none => exact .rejected _
        | some existing =>
          dsimp only
          split
          · exact .rejected _
          · rename_i hsame
            exact .found hkey hjob (by rw [hdigest, not_not.mp hsame])

/-! ### The bound -/

/-- The sizes of a store: `active` counts the jobs that are queued or running, `busy` those with a thread. -/
structure Bounded (s : PrefillJobStore) : Prop where
  nodup : s.jobs.Nodup
  active : (s.activeJobs.length : Int) ≤ s.limits.maxJobs
  busy : (s.busyJobs.length : Int) ≤ s.limits.maxConcurrentJobs
  stamped : ∀ id job, s.objects.get? id = some job → job.Ended → job.finishedAt ≠ 0
  table : (s.jobs.length : Int) ≤ s.limits.maxJobs * 2 + 1

/-- The jobs that cannot be dropped are active, or have a thread. -/
theorem Bounded.unfinished (hb : s.Bounded) (hs : s.Inv C) (hlim : s.limits.maxConcurrentJobs ≤ s.limits.maxJobs) :
    (s.countJobs fun job => decide (job.finishedAt = 0) : Int) ≤ s.limits.maxJobs * 2 := by
  have hle : s.countJobs (fun job => decide (job.finishedAt = 0)) ≤
      s.countJobs (fun job => decide job.Active) + s.countJobs fun job => decide job.task.Busy := by
    refine countP_le_add fun id _ h => ?_
    cases hjob : s.objects.get? id with
    | none =>
      rw [hjob] at h
      cases h
    | some job =>
      rw [hjob] at h
      have hf : job.finishedAt = 0 := of_decide_eq_true h
      refine (((hs.job id job hjob).fits.unfinished hf (hb.stamped id job hjob)).imp ?_ ?_) <;>
        exact fun h => decide_eq_true h
  have hactive := hb.active
  have hbusy := hb.busy
  rw [length_activeJobs] at hactive
  rw [length_busyJobs] at hbusy
  omega

/-- An event that concerns jobs in the table makes no more of them active. -/
theorem countActive_le (hs : s.Inv C) (hs' : s'.Inv C) (hext : Extends s s') (hjobs : s'.jobs.Sublist s.jobs) :
    s'.activeJobs.length ≤ s.activeJobs.length := by
  rw [length_activeJobs, length_activeJobs]
  refine countJobs_mono hjobs fun id hid h => ?_
  obtain ⟨job, hjob, -⟩ := hs.table id (hjobs.subset hid)
  obtain ⟨job', hjob', hf⟩ := hext id job hjob
  rw [hjob'] at h
  rw [hjob]
  have hact' : job'.Active := of_decide_eq_true h
  refine decide_eq_true ((hs.job id job hjob).fits.active_iff.mpr fun hterm => ?_)
  refine (hs'.job id job' hjob').fits.active_iff.mp hact' ?_
  rw [hf.terminal hterm]
  exact hterm

/-- An event gives a thread to one task at most. -/
theorem countBusy_le {e : JobEvent} (hn : s.jobs.Nodup) (h : Moves (fun id => ∃ d, e = .run id d) (Timed e) s s') :
    s'.busyJobs.length ≤ s.busyJobs.length ∨
      ∃ id d job, e = .run id d ∧ s.objects.get? id = some job ∧ job.task = .pending ∧
        s'.busyJobs.length ≤ s.busyJobs.length + 1 := by
  rw [length_busyJobs, length_busyJobs]
  by_cases hstart : ∃ id d job, e = .run id d ∧ s.objects.get? id = some job ∧ job.task = .pending
  · right
    obtain ⟨id, d, job, rfl, hjob, htask⟩ := hstart
    refine ⟨id, d, job, rfl, hjob, htask, ?_⟩
    have hle : s'.jobs.countP (fun k => (s'.objects.get? k).any fun job => decide job.task.Busy) ≤
        s'.jobs.countP (fun k => (s.objects.get? k).any fun job => decide job.task.Busy) +
          s'.jobs.countP fun k => k == id := by
      refine countP_le_add fun k _ hk => ?_
      have hrel := h.objects k
      generalize s.objects.get? k = o at hrel ⊢
      generalize s'.objects.get? k = o' at hk hrel
      cases hrel with
      | none => cases hk
      | @some job job' hproceeds =>
        rcases hproceeds.busy (of_decide_eq_true hk) with hbusy | ⟨⟨d', heq⟩, -⟩
        · exact Or.inl (decide_eq_true hbusy)
        · right
          rw [(JobEvent.run.inj heq).1]
          exact beq_self_eq_true k
    have hone : s'.jobs.countP (fun k => k == id) ≤ 1 := List.nodup_iff_count_le_one.mp (hn.sublist h.jobs) id
    have hsub := h.jobs.countP_le (p := fun k => (s.objects.get? k).any fun job => decide job.task.Busy)
    unfold countJobs
    omega
  · left
    refine countJobs_mono h.jobs fun k _ hk => ?_
    have hrel := h.objects k
    generalize hold : s.objects.get? k = o at hrel ⊢
    generalize s'.objects.get? k = o' at hk hrel
    cases hrel with
    | none => cases hk
    | @some job job' hproceeds =>
      rcases hproceeds.busy (of_decide_eq_true hk) with hbusy | ⟨⟨d, rfl⟩, htask⟩
      · exact decide_eq_true hbusy
      · exact absurd ⟨k, d, job, rfl, hold, htask⟩ hstart

theorem Moves.stamped (h : Moves starts timed s s') (htimed : timed)
    (hs : ∀ id job, s.objects.get? id = some job → job.Ended → job.finishedAt ≠ 0) (id : String) (job' : PrefillJob)
    (hjob' : s'.objects.get? id = some job') (hend : job'.Ended) : job'.finishedAt ≠ 0 := by
  have hrel := h.objects id
  rw [hjob'] at hrel
  generalize hjob : s.objects.get? id = o at hrel
  cases hrel with
  | @some job _ hproceeds =>
    rcases hproceeds.stamped htimed hend with hne | ⟨hwas, heq⟩
    · exact hne
    · rw [heq]
      exact hs id job hjob hwas

/-- A store of jobs after an event other than a submit. -/
theorem Bounded.moves {e : JobEvent} (hb : s.Bounded) (hs : s.Inv C) (hs' : s'.Inv C) (hext : Extends s s')
    (h : Moves (fun id => ∃ d, e = .run id d) (Timed e) s s') (htimed : Timed e) (hsched : s.Scheduled e) :
    s'.Bounded := by
  refine ⟨hb.nodup.sublist h.jobs, ?_, ?_, h.stamped htimed hb.stamped, ?_⟩
  · have hle := countActive_le hs hs' hext h.jobs
    have hactive := hb.active
    rw [h.limits]
    omega
  · have hbusy := hb.busy
    rw [h.limits]
    rcases countBusy_le hb.nodup h with hle | ⟨id, d, job, rfl, hjob, htask, hle⟩
    · omega
    · have hfree := hsched job hjob htask
      omega
  · have hle := h.jobs.length_le
    have htable := hb.table
    rw [h.limits]
    omega

theorem Bounded.gcLocked (hb : s.Bounded) (hs : s.Inv C) (now : Int) : (s.gcLocked now).Bounded := by
  obtain ⟨hgc, hobj, -⟩ := gcLocked_keeps hs now
  have hmoves : Moves (fun id => ∃ d, JobEvent.get "" "" now = .run id d) True s (s.gcLocked now) := Moves.gcLocked hs now
  exact hb.moves hs hgc (Extends.of_objects hobj) hmoves trivial trivial

/-- A new job is stored. -/
theorem Bounded.enqueue (hb : s.Bounded) (hs : s.Inv C) (hfresh : s.objects.get? job.jobId = none)
    (hnew : job.state = .queued ∧ job.task = .pending) (hroom : (s.activeJobs.length : Int) < s.limits.maxJobs)
    (htable : (s.jobs.length : Int) ≤ s.limits.maxJobs * 2) : (s.enqueue job).Bounded := by
  have hout : job.jobId ∉ s.jobs := by
    intro hin
    obtain ⟨other, hother, -⟩ := hs.table _ hin
    rw [hfresh] at hother
    cases hother
  have hold : ∀ id ∈ s.jobs, (s.enqueue job).objects.get? id = s.objects.get? id := fun id hid =>
    Dict.get?_set_ne _ fun heq => hout (heq ▸ hid)
  have hcount : ∀ p : PrefillJob → Bool, (s.enqueue job).countJobs p = s.countJobs p + if p job then 1 else 0 := by
    intro p
    unfold countJobs
    rw [show (s.enqueue job).jobs = s.jobs ++ [job.jobId] from rfl, List.countP_append, List.countP_singleton]
    have hhere : (s.enqueue job).objects.get? job.jobId = some job := Dict.get?_set_self _ _ _
    rw [hhere, List.countP_congr fun id hid => by rw [hold id hid]]
    rfl
  have hlim : (s.enqueue job).limits = s.limits := rfl
  refine ⟨?_, ?_, ?_, ?_, ?_⟩
  · exact List.nodup_append.mpr ⟨hb.nodup, List.nodup_singleton _, fun id hid k hk => by
      rw [List.mem_singleton] at hk
      rintro rfl
      exact hout (hk ▸ hid)⟩
  · rw [length_activeJobs] at hroom ⊢
    rw [hcount, hlim]
    split <;> omega
  · have hbusy := hb.busy
    rw [length_busyJobs] at hbusy ⊢
    rw [hcount, if_neg (by simp [Task.Busy, hnew.2]), hlim]
    omega
  · intro id other hother hend
    have hother' : (s.objects.set job.jobId job).get? id = some other := hother
    rw [Dict.get?_set] at hother'
    split at hother'
    · obtain rfl := Option.some.inj hother'
      simp [Ended, hnew.2] at hend
    · exact hb.stamped id other hother' hend
  · rw [hlim, show (s.enqueue job).jobs = s.jobs ++ [job.jobId] from rfl, List.length_append, List.length_singleton]
    omega

/-- An event keeps the sizes. -/
theorem step_bounded (hs : s.Inv C) (hb : s.Bounded) (hlim : s.limits.maxConcurrentJobs ≤ s.limits.maxJobs) {e : JobEvent}
    (he : s.Allowed C e) (htimed : Timed e) (hsched : s.Scheduled e) :
    (step s e).2.Bounded ∧ (step s e).2.limits = s.limits := by
  by_cases hsubmit : ∃ r gcNow now jobId, e = .submit r gcNow now jobId
  · obtain ⟨r, gcNow, now, jobId, rfl⟩ := hsubmit
    obtain ⟨hgc, hobj, -⟩ := gcLocked_keeps hs gcNow
    have hbgc := hb.gcLocked hs gcNow
    have hlimits := gcLocked_limits s gcNow
    have hstep : (step s (.submit r gcNow now jobId)).2 = ((submit r gcNow now jobId).run s).2 := Proc.run_map_snd _ _ _
    rw [hstep]
    have hout := run_submit s r gcNow now jobId
    generalize (submit r gcNow now jobId).run s = out at hout ⊢
    cases hout with
    | refused e => exact ⟨hb, rfl⟩
    | rejected e => exact ⟨hbgc, hlimits⟩
    | found hkey hjob hdigest => exact ⟨hbgc, hlimits⟩
    | made hkey hdigest hroom =>
      have hfresh : (s.gcLocked gcNow).objects.get? jobId = none := by
        rw [hobj]
        exact he
      have htable := length_gcLocked hs hb.nodup gcNow (hb.unfinished hs hlim)
      rw [← hlimits] at htable
      exact ⟨hbgc.enqueue hgc hfresh ⟨rfl, rfl⟩ hroom htable, hlimits⟩
  · have hmoves := step_moves hs he fun r gcNow now jobId heq => hsubmit ⟨r, gcNow, now, jobId, heq⟩
    obtain ⟨hs', hext⟩ := step_keeps hs he
    exact ⟨hb.moves hs hs' hext hmoves htimed hsched, hmoves.limits⟩

theorem create_ok {limits : WorkerLimits} {cache : PrefixCacheStore} (hs : create limits cache = .ok s) :
    0 < limits.maxConcurrentJobs ∧ 0 < limits.maxJobs ∧ s = { limits := limits, cacheStore := cache } := by
  unfold create at hs
  split at hs
  · cases hs
  · split at hs
    · cases hs
    · exact ⟨by omega, by omega, (Except.ok.inj hs).symm⟩

end PrefillJobStore

end KakeyaEngine
