import KakeyaEngine.PrefixCache.Budget
import KakeyaEngine.Worker.Jobs

/-!
# Safety of the prefill jobs

`JobInv` says what holds of one job at the point where its task stands: its state, whether it may hold a reservation,
its token count and its lease.  `Inv` adds that the table and the index agree.  Every event touches one job, drops
finished ones or stores a new one, and keeps `Inv`; what became of a job after some events is related to what it was by
`Follows`.

A task that raised has its state set before its reservation is released, so a reservation may stand for a job that has
just failed or been cancelled; it is gone when the job is marked as finished.
-/

namespace KakeyaEngine

/-! ### Reservations of the cache store -/

namespace PrefixCacheStore

variable {R : Dict String Nat}

theorem keeps_modify {f : PrefixCacheStore → PrefixCacheStore} (h : ∀ s, (f s).reservations = s.reservations) :
    Proc.Keeps (fun s => s.reservations = R) (Proc.modify f : CacheProc Unit) :=
  Proc.Keeps.modify fun s hs => (h s).trans hs

theorem failPut_keeps_reservations {α : Type} (message : String) :
    Proc.Keeps (fun s => s.reservations = R) (failPut message : CacheProc α) :=
  Proc.Keeps.bind (keeps_modify fun _ => rfl) fun _ => Proc.Keeps.raise _

theorem putLocked_keeps_reservations (b : CacheBlock) : Proc.Keeps (fun s => s.reservations = R) (putLocked b) := by
  intro s hs
  rw [run_putLocked]
  cases s.blocks.get? b.blockHash with
  | none => exact hs
  | some existing =>
    dsimp only
    split <;> exact hs

theorem put_keeps_reservations (b : CacheBlock) (now : Int) : Proc.Keeps (fun s => s.reservations = R) (put b now) := by
  apply Proc.Keeps.get_bind
  intro s hs
  dsimp only
  split
  · exact failPut_keeps_reservations _ s hs
  · rw [Proc.run_modify_bind]
    refine Proc.Keeps.bind (putLocked_keeps_reservations b) (fun stored => ?_) (s.expireLeases now) hs
    split
    · exact Proc.Keeps.pure _
    · refine Proc.Keeps.bind (keeps_modify fun t => (evictToLimit_frame _ t).2.1) fun _ => ?_
      apply Proc.Keeps.get_bind
      intro t ht
      split
      · exact ht
      · exact failPut_keeps_reservations _ t ht

theorem putBoundaries_keeps_reservations (size : Int) (n : Nat) (clock : Nat → Int) (index : Nat)
    (l : List (Bytes × Bytes)) : Proc.Keeps (fun s => s.reservations = R) (putBoundaries size n clock index l) := by
  induction l generalizing index with
  | nil => exact Proc.Keeps.pure _
  | cons p l ih =>
    obtain ⟨hash, payload⟩ := p
    unfold putBoundaries
    cases CacheBlock.create hash (min ((index + 1) * size) n) payload with
    | error e => exact Proc.Keeps.raise _
    | ok b => exact Proc.Keeps.bind (put_keeps_reservations b _) fun _ => ih (index + 1)

theorem putPrefix_keeps_reservations (ts : List Token) (ps : List Bytes) (clock : Nat → Int) :
    Proc.Keeps (fun s => s.reservations = R) (putPrefix ts ps clock) := by
  apply Proc.Keeps.get_bind
  intro s hs
  cases chainedBlockHashes ts s.compatibility [] with
  | error e => exact hs
  | ok hashes =>
    dsimp only
    split
    · exact hs
    · exact Proc.Keeps.bind (putBoundaries_keeps_reservations _ _ _ _ _) (fun _ => Proc.Keeps.pure _) s hs

theorem lookup_keeps_reservations (hashes : List Bytes) (secs now : Int) (id : String) :
    Proc.Keeps (fun s => s.reservations = R) (lookup hashes secs now id) := by
  unfold lookup
  split
  · exact Proc.Keeps.raise _
  · refine Proc.Keeps.bind (keeps_modify fun _ => rfl) fun _ => ?_
    apply Proc.Keeps.get_bind
    intro s hs
    cases longestHit s.blocks 0 hashes none with
    | none => exact hs
    | some p => exact hs

theorem fetch_keeps_reservations (id : String) (now : Int) :
    Proc.Keeps (fun s => s.reservations = R) (fetch id now) := by
  refine Proc.Keeps.bind (keeps_modify fun _ => rfl) fun _ => ?_
  apply Proc.Keeps.get_bind
  intro s hs
  cases s.leases.get? id with
  | none => exact hs
  | some l =>
    dsimp only
    cases leasedBlocks s.blocks l.blockHashes with
    | none => exact hs
    | some bs => exact hs

theorem resize_keeps_reservations (n : Int) : Proc.Keeps (fun s => s.reservations = R) (resize n) := by
  unfold resize
  split
  · exact Proc.Keeps.raise _
  · apply Proc.Keeps.get_bind
    intro s hs
    dsimp only
    split
    · exact hs
    · rw [Proc.run_modify_bind]
      refine Proc.Keeps.bind (keeps_modify fun t => (evictToLimit_frame _ t).2.1) (fun _ => ?_) { s with maxBytes := n } hs
      apply Proc.Keeps.get_bind
      intro t ht
      split
      · exact ht
      · exact ht

theorem invalidate_keeps_reservations (hash : Bytes) :
    Proc.Keeps (fun s => s.reservations = R) (invalidate hash) := by
  apply Proc.Keeps.get_bind
  intro s hs
  cases s.blocks.get? hash with
  | none => exact hs
  | some b => exact hs

/-- The calls that make, release or settle a reservation. -/
def Reserving : CacheEvent → Prop
  | .reserve .. | .releaseReservation .. | .publishAndLease .. => True
  | _ => False

/-- Every other call leaves the reservations alone. -/
theorem perform_reservations {e : CacheEvent} (he : ¬ Reserving e) (s : PrefixCacheStore) :
    ((perform e).run s).2.reservations = s.reservations := by
  have hkeeps : Proc.Keeps (fun t => t.reservations = s.reservations) (perform e) := by
    cases e with
    | put b now => exact Proc.Keeps.bind (put_keeps_reservations b now) fun _ => Proc.Keeps.pure _
    | putPrefix ts ps clock => exact Proc.Keeps.bind (putPrefix_keeps_reservations ts ps clock) fun _ => Proc.Keeps.pure _
    | lookup hs secs now id => exact Proc.Keeps.bind (lookup_keeps_reservations hs secs now id) fun _ => Proc.Keeps.pure _
    | fetch id now => exact Proc.Keeps.bind (fetch_keeps_reservations id now) fun _ => Proc.Keeps.pure _
    | resize n => exact Proc.Keeps.bind (resize_keeps_reservations n) fun _ => Proc.Keeps.pure _
    | invalidate h => exact Proc.Keeps.bind (invalidate_keeps_reservations h) fun _ => Proc.Keeps.pure _
    | expire now => exact Proc.Keeps.bind (keeps_modify fun _ => rfl) fun _ => Proc.Keeps.pure _
    | reserve id n now => exact absurd trivial he
    | releaseReservation id => exact absurd trivial he
    | publishAndLease bs hs rid secs now id => exact absurd trivial he
  exact hkeeps s rfl

/-- A call of `reserve` adds no other reservation. -/
theorem reserve_reservations (id : String) (n now : Int) (s : PrefixCacheStore) {k : String} (hk : k ≠ id)
    (h : ((reserve id n now).run s).2.reservations.contains k = true) : s.reservations.contains k = true := by
  have hkeeps : Proc.Keeps (fun t => t.reservations.get? k = s.reservations.get? k) (reserve id n now) := by
    unfold reserve
    split
    · exact Proc.Keeps.raise _
    · apply Proc.Keeps.get_bind
      intro t ht
      split
      · exact ht
      · dsimp only
        split
        · exact ht
        · rw [Proc.run_modify_bind]
          refine Proc.Keeps.bind (I := fun t => t.reservations.get? k = s.reservations.get? k)
            (Proc.Keeps.modify fun u hu => ?_) (fun _ => ?_) (t.expireLeases now) ht
          · rw [(evictToLimit_frame _ u).2.1]
            exact hu
          · apply Proc.Keeps.get_bind
            intro u hu
            split
            · exact hu
            · show (u.reservations.set id n.toNat).get? k = _
              rw [Dict.get?_set_ne _ hk]
              exact hu
  have hsame := hkeeps s rfl
  unfold Dict.contains at h ⊢
  rw [← hsame]
  exact h

theorem releaseReservation_reservations (id : String) (s : PrefixCacheStore) {k : String}
    (h : ((releaseReservation id).run s).2.reservations.contains k = true) :
    k ≠ id ∧ s.reservations.contains k = true := by
  have h' : (s.reservations.erase id).contains k = true := h
  unfold Dict.contains at h' ⊢
  rw [Dict.get?_erase] at h'
  split at h'
  · cases h'
  · exact ⟨by assumption, h'⟩

/-- The part of a publication under the lock: it raises with the reservations as they were, or settles its own. -/
theorem publishLocked_reservations (final : CacheBlock) (spares : List CacheBlock) (n : Nat) (rid : String)
    (secs now : Int) (id : String) (s : PrefixCacheStore) :
    let r := (publishLocked final spares n rid secs now id).run s
    (r.2.reservations = s.reservations ∧ ∃ e, r.1 = .error e) ∨
      (r.2.reservations = s.reservations.erase rid ∧
        ∀ lease, r.1 = .ok lease → ∃ u : PrefixCacheStore, lease = u.leaseOn id final n (now + secs)) := by
  unfold publishLocked
  dsimp only
  rw [Proc.run_get_bind]
  cases s.reservations.get? rid with
  | none => exact Or.inl ⟨rfl, _, rfl⟩
  | some reserved =>
    dsimp only
    split
    · exact Or.inl ⟨rfl, _, rfl⟩
    · have hevict : ((s.expireLeases now).evictToLimit (s.maxBytes - final.nbytes)).reservations = s.reservations :=
        (evictToLimit_frame _ _).2.1
      rw [Proc.run_modify_bind, Proc.run_modify_bind, Proc.run_get_bind]
      generalize (s.expireLeases now).evictToLimit (s.maxBytes - final.nbytes) = t at hevict
      split
      · exact Or.inl ⟨hevict, _, rfl⟩
      · have hput := putLocked_keeps_reservations final t hevict
        rcases hx : (putLocked final).run t with ⟨e | b, u⟩
        · rw [hx] at hput
          rw [Proc.run_bind_error hx]
          exact Or.inl ⟨hput, e, rfl⟩
        · right
          rw [hx] at hput
          rw [Proc.run_bind_ok hx, Proc.run_get_bind, Proc.run_modify_bind]
          have hspares := (publishSpares_frame spares
            (settleReservation rid (u.leaseOn id final n (now + secs)) u)).2.1
          have hu : u.reservations = s.reservations := hput
          have hsettle : (settleReservation rid (u.leaseOn id final n (now + secs)) u).reservations =
              s.reservations.erase rid := by
            rw [← hu]
            rfl
          rw [hsettle] at hspares
          rcases hy : (publishSpares spares).run (settleReservation rid (u.leaseOn id final n (now + secs)) u) with
            ⟨e | x, w⟩
          · rw [hy] at hspares
            rw [Proc.run_bind_error hy]
            exact ⟨hspares, fun lease h => by cases h⟩
          · rw [hy] at hspares
            rw [Proc.run_bind_ok hy]
            exact ⟨hspares, fun lease h => ⟨u, (Except.ok.inj h).symm⟩⟩

/-- What a publication does: it makes no reservation, and when it returns, its own is settled with a lease on the last
block, which has the last hash. -/
theorem publishAndLease_spec (blocks : List CacheBlock) (hashes : List Bytes) (rid : String) (secs now : Int)
    (id : String) (s : PrefixCacheStore) :
    (∀ k, ((publishAndLease blocks hashes rid secs now id).run s).2.reservations.contains k = true →
      s.reservations.contains k = true) ∧
    ∀ lease, ((publishAndLease blocks hashes rid secs now id).run s).1 = .ok lease →
      ((publishAndLease blocks hashes rid secs now id).run s).2.reservations.contains rid = false ∧
      ∃ final, blocks.getLast? = some final ∧ hashes.getLast? = some final.blockHash ∧
        ∃ u : PrefixCacheStore, lease = u.leaseOn id final hashes.length (now + secs) := by
  rcases publishAndLease_cases s blocks hashes rid secs now id with ⟨final, r, ha, hrun⟩ | ⟨-, e, hrun, -⟩
  · rw [hrun]
    rcases publishLocked_reservations final blocks.dropLast.reverse hashes.length rid secs now id s with
      ⟨hsame, e, he⟩ | ⟨herase, hlease⟩
    · rw [hsame, he]
      exact ⟨fun k h => h, fun lease h => by cases h⟩
    · rw [herase]
      constructor
      · intro k h
        unfold Dict.contains at h ⊢
        rw [Dict.get?_erase] at h
        split at h
        · cases h
        · exact h
      · intro lease h
        exact ⟨by simp [Dict.contains], final, ha.last, ha.hash, hlease lease h⟩
  · rw [hrun]
    exact ⟨fun k h => h, fun lease h => by cases h⟩

end PrefixCacheStore

/-! ### One job -/

namespace PrefillJob

/-- `lease` was granted on `final`, the last snapshot that the engine returned for the tokens of the job, which has the
last of the job's hashes. -/
structure Granted (job : PrefillJob) (lease : PrefixLease) (final : CacheBlock) : Prop where
  last : job.blocks.getLast? = some final
  hash : job.blockHashes.getLast? = some final.blockHash
  taken : job.lease = some lease
  pinned : lease.blockHashes = [final.blockHash]
  blocks : lease.hitBlockCount = job.blockHashes.length
  tokens : lease.hitTokenCount = final.tokenCount
  bytes : lease.transferBytes = final.nbytes
  digest : lease.payloadSha256 = final.payloadSha256

theorem Granted.of_eq {job job' : PrefillJob} {lease : PrefixLease} {final : CacheBlock} (h : job.Granted lease final)
    (hb : job'.blocks = job.blocks) (hh : job'.blockHashes = job.blockHashes) (hl : job'.lease = job.lease) :
    job'.Granted lease final :=
  ⟨by rw [hb]; exact h.last, by rw [hh]; exact h.hash, by rw [hl]; exact h.taken, h.pinned, by rw [hh]; exact h.blocks,
    h.tokens, h.bytes, h.digest⟩

/-- The job names the lease and the snapshot that it was granted on. -/
structure Carries (job : PrefillJob) (lease : PrefixLease) (final : CacheBlock) : Prop where
  granted : job.Granted lease final
  leaseId : job.leaseId = lease.leaseId
  blockHash : job.blockHash = final.blockHash
  payloadSha256 : job.payloadSha256 = final.payloadSha256
  transferBytes : job.transferBytes = final.nbytes
  tokens : job.tokensComputed = job.tokenIds.length

/-- The state and the time of the end of a job, by the point where its task stands. -/
def Fits (job : PrefillJob) : Prop :=
  match job.task with
  | .pending | .starting => job.state = .queued ∧ job.finishedAt = 0
  | .cancelled => job.state = .cancelled
  | .releasing | .finishing => job.state.Terminal ∧ job.finishedAt = 0
  | .done => job.state.Terminal
  | _ => job.state = .running ∧ job.finishedAt = 0

/-- Where a task may hold a reservation. -/
def MayReserve (job : PrefillJob) : Prop :=
  match job.task with
  | .computing | .computed | .publishing | .interrupted _ | .failing _ => True
  | .releasing => job.state ≠ .completed
  | _ => False

/-- The task never runs, or has run. -/
def Ended (job : PrefillJob) : Prop := job.task = .cancelled ∨ job.task = .done

/-- What an engine promises about the last snapshot that it returns for the tokens and hashes of a job. -/
abbrev EngineContract := List Token → List Bytes → CacheBlock → Prop

/-- What holds of a job, for whether it is in the table and whether a reservation stands for it. -/
structure JobInv (C : EngineContract) (job : PrefillJob) (kept reserved : Prop) : Prop where
  fits : job.Fits
  held : reserved → job.MayReserve
  kept : ¬ job.Ended → kept
  tokens : 0 ≤ job.tokensComputed ∧ job.tokensComputed ≤ job.tokenIds.length
  granted : job.task = .published ∨ job.task = .completing → ∃ lease final, job.Granted lease final
  completed : job.state = .completed → ∃ lease final, job.Carries lease final
  promised : ∀ final, job.blocks.getLast? = some final → C job.tokenIds job.blockHashes final

variable {C : EngineContract}

/-- What became of a job: its request is the same, a terminal state is not left, tokens are not lost, and once it is
cancelled it is not completed. -/
structure Follows (job job' : PrefillJob) : Prop where
  jobId : job'.jobId = job.jobId
  key : (job'.tenantId, job'.requestId) = (job.tenantId, job.requestId)
  tokenIds : job'.tokenIds = job.tokenIds
  terminal : job.state.Terminal → job'.state = job.state
  tokens : job.tokensComputed ≤ job'.tokensComputed
  cancelled : job.cancelled = true → job'.cancelled = true
  uncompleted : job.cancelled = true → job.state ≠ .completed → job'.state ≠ .completed

theorem Follows.refl (job : PrefillJob) : Follows job job :=
  ⟨rfl, rfl, rfl, fun _ => rfl, Int.le_refl _, id, fun _ h => h⟩

theorem Follows.trans {a b c : PrefillJob} (h : Follows a b) (h' : Follows b c) : Follows a c where
  jobId := h'.jobId.trans h.jobId
  key := h'.key.trans h.key
  tokenIds := h'.tokenIds.trans h.tokenIds
  terminal ht := by
    have hb := h.terminal ht
    rw [h'.terminal (by rw [hb]; exact ht), hb]
  tokens := Int.le_trans h.tokens h'.tokens
  cancelled hc := h'.cancelled (h.cancelled hc)
  uncompleted hc hs := h'.uncompleted (h.cancelled hc) (h.uncompleted hc hs)

/-- A step of a task that has not ended to a point that is neither after a publication nor after a completion. -/
theorem JobInv.next {job job' : PrefillJob} {kept reserved reserved' : Prop} (h : job.JobInv C kept reserved)
    (hlive : ¬ job.Ended) (hfits : job'.Fits) (hheld : reserved' → job'.MayReserve)
    (htok : job'.tokensComputed = job.tokensComputed) (hids : job'.tokenIds = job.tokenIds)
    (hhs : job'.blockHashes = job.blockHashes) (hbs : job'.blocks = job.blocks)
    (hgr : ¬ (job'.task = .published ∨ job'.task = .completing)) (hst : job'.state ≠ .completed) :
    job'.JobInv C kept reserved' where
  fits := hfits
  held := hheld
  kept _ := h.kept hlive
  tokens := by rw [htok, hids]; exact h.tokens
  granted hg := absurd hg hgr
  completed hc := absurd hc hst
  promised := by rw [hids, hhs, hbs]; exact h.promised

/-- The points between the first critical section and the end of the `try` block. -/
def Trying (t : Task) : Prop :=
  t = .checkingDeadline ∨ t = .reserving ∨ t = .computing ∨ t = .computed ∨ t = .publishing ∨ t = .published ∨
    t = .completing ∨ (∃ x, t = .interrupted x) ∨ ∃ x, t = .failing x

theorem JobInv.mono {job : PrefillJob} {kept kept' reserved reserved' : Prop} (h : job.JobInv C kept reserved)
    (hk : ¬ job.Ended → kept → kept') (hr : reserved' → reserved) : job.JobInv C kept' reserved' :=
  ⟨h.fits, fun hr' => h.held (hr hr'), fun hlive => hk hlive (h.kept hlive), h.tokens, h.granted, h.completed,
    h.promised⟩

theorem JobInv.running {job : PrefillJob} {kept reserved : Prop} (h : job.JobInv C kept reserved)
    (ht : Trying job.task) : job.state = .running ∧ job.finishedAt = 0 ∧ ¬ job.Ended := by
  have hfits := h.fits
  unfold Fits at hfits
  unfold Ended
  rcases ht with ht | ht | ht | ht | ht | ht | ht | ⟨x, ht⟩ | ⟨x, ht⟩ <;> rw [ht] at hfits ⊢ <;>
    exact ⟨hfits.1, hfits.2, by simp⟩

/-- A job that is not in a terminal state and changes neither its request nor its tokens. -/
theorem Follows.of_active {job job' : PrefillJob} (hact : ¬ job.state.Terminal) (hid : job'.jobId = job.jobId)
    (hkey : (job'.tenantId, job'.requestId) = (job.tenantId, job.requestId)) (hids : job'.tokenIds = job.tokenIds)
    (htok : job.tokensComputed ≤ job'.tokensComputed) (hc : job.cancelled = true → job'.cancelled = true)
    (hst : job.cancelled = true → job'.state ≠ .completed) : Follows job job' :=
  ⟨hid, hkey, hids, fun ht => absurd ht hact, htok, hc, fun hc _ => hst hc⟩

/-- Where the engine of a job returns snapshots, it keeps its contract. -/
def Promises (C : EngineContract) (job : PrefillJob) (d : Draw) : Prop :=
  job.task = .computing → ∀ blocks final, d.outcome = .returned blocks → blocks.getLast? = some final →
    C job.tokenIds job.blockHashes final

/-- A finished job has ended. -/
theorem JobInv.ended {job : PrefillJob} {kept reserved : Prop} (h : job.JobInv C kept reserved) (hf : job.finishedAt ≠ 0) :
    job.Ended := by
  have hfits := h.fits
  unfold Fits at hfits
  unfold Ended
  cases ht : job.task <;> simp_all

end PrefillJob

/-! ### Steps of a task -/

namespace PrefillJobStore

open PrefillJob

/-- An event that concerns one job. -/
structure Touches (s s' : PrefillJobStore) (job job' : PrefillJob) : Prop where
  jobs : s'.jobs = s.jobs
  requests : s'.requests = s.requests
  here : s'.objects.get? job.jobId = some job'
  others : ∀ k, k ≠ job.jobId → s'.objects.get? k = s.objects.get? k
  reservations : ∀ k, k ≠ job.jobId → s'.cacheStore.reservations.contains k = true →
    s.cacheStore.reservations.contains k = true

theorem touches_setJob (s : PrefillJobStore) (job : PrefillJob) {job' : PrefillJob} (h : job'.jobId = job.jobId) :
    Touches s (s.setJob job') job job' where
  jobs := rfl
  requests := rfl
  here := by
    rw [← h]
    exact Dict.get?_set_self _ _ _
  others k hk := Dict.get?_set_ne _ (by rw [h]; exact hk)
  reservations _ _ hr := hr

theorem touches_onCache (s : PrefillJobStore) {job job' : PrefillJob} {α : Type} {x : CacheProc α}
    (h : job'.jobId = job.jobId)
    (hx : ∀ k, k ≠ job.jobId → (x.run s.cacheStore).2.reservations.contains k = true →
      s.cacheStore.reservations.contains k = true) :
    Touches s ((s.setJob job').onCache x) job job' :=
  ⟨rfl, rfl, (touches_setJob s job h).here, (touches_setJob s job h).others, hx⟩

variable {C : EngineContract} {s : PrefillJobStore} {job : PrefillJob} {d : Draw}

/-- What a step of a task does: it concerns the job alone, which follows what it was and keeps its invariant. -/
def Advances (C : EngineContract) (s : PrefillJobStore) (job : PrefillJob) (d : Draw) : Prop :=
  ∃ job', Touches s (s.advance job d) job job' ∧ Follows job job' ∧
    job'.JobInv C (job.jobId ∈ s.jobs) ((s.advance job d).cacheStore.reservations.contains job.jobId = true)

theorem Advances.of_setJob (job' : PrefillJob) (hadv : s.advance job d = s.setJob job') (hf : Follows job job')
    (hj : job'.JobInv C (job.jobId ∈ s.jobs) (s.cacheStore.reservations.contains job.jobId = true)) : Advances C s job d := by
  unfold Advances
  rw [hadv]
  exact ⟨job', touches_setJob s job hf.jobId, hf, hj⟩

theorem Advances.of_onCache (job' : PrefillJob) {α : Type} (x : CacheProc α)
    (hadv : s.advance job d = (s.setJob job').onCache x)
    (hx : ∀ k, k ≠ job.jobId → (x.run s.cacheStore).2.reservations.contains k = true →
      s.cacheStore.reservations.contains k = true) (hf : Follows job job')
    (hj : job'.JobInv C (job.jobId ∈ s.jobs) ((x.run s.cacheStore).2.reservations.contains job.jobId = true)) :
    Advances C s job d := by
  unfold Advances
  rw [hadv]
  exact ⟨job', touches_onCache s hf.jobId hx, hf, hj⟩

/-- The task goes on with its `try` block: the job keeps all but its task, its cancellation and the local variables. -/
structure GoesOn (job job' : PrefillJob) : Prop where
  trying : Trying job'.task
  jobId : job'.jobId = job.jobId
  key : (job'.tenantId, job'.requestId) = (job.tenantId, job.requestId)
  tokenIds : job'.tokenIds = job.tokenIds
  state : job'.state = job.state
  finishedAt : job'.finishedAt = job.finishedAt
  tokens : job'.tokensComputed = job.tokensComputed
  blockHashes : job'.blockHashes = job.blockHashes
  cancelled : job.cancelled = true → job'.cancelled = true

theorem GoesOn.follows {job job' : PrefillJob} (hgo : GoesOn job job') : Follows job job' :=
  ⟨hgo.jobId, hgo.key, hgo.tokenIds, fun _ => hgo.state, Int.le_of_eq hgo.tokens.symm, hgo.cancelled,
    fun _ hne => by rw [hgo.state]; exact hne⟩

theorem GoesOn.inv {job job' : PrefillJob} {kept reserved reserved' : Prop} (hgo : GoesOn job job')
    (h : job.JobInv C kept reserved) (ht : Trying job.task) (hheld : reserved' → job'.MayReserve)
    (hgr : job'.task = .published ∨ job'.task = .completing → ∃ lease final, job'.Granted lease final)
    (hbs : ∀ final, job'.blocks.getLast? = some final → C job.tokenIds job.blockHashes final) :
    job'.JobInv C kept reserved' := by
  obtain ⟨hst, hfin, hlive⟩ := h.running ht
  refine ⟨?_, hheld, fun _ => h.kept hlive, ?_, hgr, ?_, by rw [hgo.tokenIds, hgo.blockHashes]; exact hbs⟩
  · have hst' := hgo.state.trans hst
    have hfin' := hgo.finishedAt.trans hfin
    unfold Fits
    rcases hgo.trying with ht' | ht' | ht' | ht' | ht' | ht' | ht' | ⟨x, ht'⟩ | ⟨x, ht'⟩ <;> rw [ht'] <;>
      exact ⟨hst', hfin'⟩
  · rw [hgo.tokens, hgo.tokenIds]
    exact h.tokens
  · intro hc
    rw [hgo.state, hst] at hc
    cases hc

section Advance

variable (h : job.JobInv C (job.jobId ∈ s.jobs) (s.cacheStore.reservations.contains job.jobId = true))

include h

/-- A step within the `try` block that leaves the cache store alone. -/
theorem Advances.of_goesOn (ht : Trying job.task) (job' : PrefillJob) (hadv : s.advance job d = s.setJob job')
    (hgo : GoesOn job job') (hheld : job.MayReserve → job'.MayReserve)
    (hgr : job'.task = .published ∨ job'.task = .completing → ∃ lease final, job'.Granted lease final)
    (hbs : ∀ final, job'.blocks.getLast? = some final → C job.tokenIds job.blockHashes final) : Advances C s job d :=
  Advances.of_setJob job' hadv hgo.follows (hgo.inv h ht (fun hr => hheld (h.held hr)) hgr hbs)

theorem advance_pending (ht : job.task = .pending) : Advances C s job d := by
  have hfits := h.fits
  have hno : s.cacheStore.reservations.contains job.jobId = true → False := by simpa [MayReserve, ht] using h.held
  rw [Fits, ht] at hfits
  refine Advances.of_setJob { job with task := .starting } (by rw [advance, ht]) ?_ ?_
  · exact ⟨rfl, rfl, rfl, fun _ => rfl, Int.le_refl _, id, fun _ h => h⟩
  · exact h.next (by simp [Ended, ht]) hfits (fun hr => (hno hr).elim) rfl rfl rfl rfl (by simp) (by simp [hfits.1])

theorem advance_starting (ht : job.task = .starting) : Advances C s job d := by
  have hfits := h.fits
  have hno : s.cacheStore.reservations.contains job.jobId = true → False := by simpa [MayReserve, ht] using h.held
  rw [Fits, ht] at hfits
  have hact : ¬ job.state.Terminal := by rw [hfits.1]; decide
  have hlive : ¬ job.Ended := by simp [Ended, ht]
  have hkept : job.jobId ∈ s.jobs := h.kept hlive
  cases hc : job.cancelled with
  | true =>
    refine Advances.of_onCache { job with state := .cancelled, finishedAt := d.now, task := .done }
      (PrefixCacheStore.releaseReservation job.jobId) (by rw [advance, ht]; simp [hkept, hc, start]) ?_ ?_ ?_
    · intro k _ hr
      exact (PrefixCacheStore.releaseReservation_reservations _ _ hr).2
    · exact Follows.of_active hact rfl rfl rfl (Int.le_refl _) id (by simp)
    · refine h.next hlive (by simp [Fits, PrefillJobState.Terminal]) ?_ rfl rfl rfl rfl (by simp) (by simp)
      intro hr
      exact absurd rfl (PrefixCacheStore.releaseReservation_reservations _ _ hr).1
  | false =>
    refine Advances.of_onCache { job with state := .running, task := .checkingDeadline } (pure () : CacheProc Unit) (by rw [advance, ht]; simp [hkept, hc, start]) (fun k _ hr => hr) ?_ ?_
    · exact Follows.of_active hact rfl rfl rfl (Int.le_refl _) id (by simp [hc])
    · exact h.next hlive (by simp [Fits, hfits.2]) (fun hr => (hno hr).elim) rfl rfl rfl rfl (by simp) (by simp)

theorem advance_checkingDeadline (ht : job.task = .checkingDeadline) : Advances C s job d := by
  have hno : job.MayReserve → False := by simp [MayReserve, ht]
  have htask : (job.checkDeadline d.now).task = .reserving := by
    unfold checkDeadline
    split <;> [rfl; (split <;> rfl)]
  refine Advances.of_goesOn h (by simp [Trying, ht]) (job.checkDeadline d.now) (by rw [advance, ht]) ?_
    (fun hm => (hno hm).elim) (by simp [htask]) ?_
  · unfold checkDeadline
    split
    · exact ⟨by simp [Trying], rfl, rfl, rfl, rfl, rfl, rfl, rfl, id⟩
    · split
      · exact ⟨by simp [Trying], rfl, rfl, rfl, rfl, rfl, rfl, rfl, fun _ => rfl⟩
      · exact ⟨by simp [Trying], rfl, rfl, rfl, rfl, rfl, rfl, rfl, id⟩
  · have hbs : (job.checkDeadline d.now).blocks = job.blocks := by
      unfold checkDeadline
      split <;> [rfl; (split <;> rfl)]
    rw [hbs]
    exact h.promised

theorem advance_reserving (ht : job.task = .reserving) : Advances C s job d := by
  have htry : Trying job.task := by simp [Trying, ht]
  cases hest : s.estimate job.tokenIds with
  | error e =>
    exact Advances.of_goesOn h htry { job with task := .failing e.describe } (by rw [advance, ht]; simp only [hest]; rfl)
      ⟨by simp [Trying], rfl, rfl, rfl, rfl, rfl, rfl, rfl, id⟩ (fun _ => trivial) (by simp) h.promised
  | ok bytes =>
    have hadv : s.advance job d =
        (s.setJob (job.reserved ((PrefixCacheStore.reserve job.jobId bytes d.now).run s.cacheStore).1)).onCache
          (PrefixCacheStore.reserve job.jobId bytes d.now) := by
      rw [advance, ht]
      simp only [hest]
    have hgo : ∀ r, GoesOn job (job.reserved r) ∧ (job.reserved r).MayReserve ∧
        ¬ ((job.reserved r).task = .published ∨ (job.reserved r).task = .completing) ∧
        (job.reserved r).blocks = job.blocks := by
      intro r
      cases r <;>
        exact ⟨⟨by simp [Trying, reserved], rfl, rfl, rfl, rfl, rfl, rfl, rfl, id⟩, trivial, by simp [reserved], rfl⟩
    obtain ⟨hgo, hmay, hgr, hbs⟩ := hgo ((PrefixCacheStore.reserve job.jobId bytes d.now).run s.cacheStore).1
    exact Advances.of_onCache _ _ hadv (fun k hk => PrefixCacheStore.reserve_reservations _ _ _ _ hk) hgo.follows
      (hgo.inv h htry (fun _ => hmay) (fun hg => absurd hg hgr) (by rw [hbs]; exact h.promised))

theorem advance_computing (ht : job.task = .computing) (hpromise : job.Promises C d) : Advances C s job d := by
  have htry : Trying job.task := by simp [Trying, ht]
  have hadv : s.advance job d = s.setJob (job.engineDone d.outcome) := by rw [advance, ht]
  cases hout : d.outcome with
  | returned blocks =>
    rw [hout] at hadv
    exact Advances.of_goesOn h htry _ hadv ⟨by simp [Trying, engineDone], rfl, rfl, rfl, rfl, rfl, rfl, rfl, id⟩
      (fun _ => trivial) (by simp [engineDone]) fun final hlast => hpromise ht blocks final hout hlast
  | interrupted message | raised reason =>
    rw [hout] at hadv
    exact Advances.of_goesOn h htry _ hadv ⟨by simp [Trying, engineDone], rfl, rfl, rfl, rfl, rfl, rfl, rfl, id⟩
      (fun _ => trivial) (by simp [engineDone]) h.promised

theorem advance_computed (ht : job.task = .computed) : Advances C s job d := by
  have htry : Trying job.task := by simp [Trying, ht]
  have hbs : job.check.blocks = job.blocks := by
    unfold check
    split <;> [rfl; (split <;> rfl)]
  refine Advances.of_goesOn h htry job.check (by rw [advance, ht]) ?_ ?_ ?_ (by rw [hbs]; exact h.promised)
  all_goals unfold check
  all_goals split
  all_goals try split
  · exact ⟨by simp [Trying], rfl, rfl, rfl, rfl, rfl, rfl, rfl, id⟩
  · exact ⟨by simp [Trying], rfl, rfl, rfl, rfl, rfl, rfl, rfl, id⟩
  · exact ⟨by simp [Trying], rfl, rfl, rfl, rfl, rfl, rfl, rfl, id⟩
  all_goals simp [MayReserve]

theorem advance_publishing (ht : job.task = .publishing) : Advances C s job d := by
  have htry : Trying job.task := by simp [Trying, ht]
  obtain ⟨hsub, hok⟩ := PrefixCacheStore.publishAndLease_spec job.blocks job.blockHashes job.jobId leaseTime d.now d.leaseId
    s.cacheStore
  have hadv : s.advance job d =
      (s.setJob (job.publishDone ((PrefixCacheStore.publishAndLease job.blocks job.blockHashes job.jobId leaseTime d.now
        d.leaseId).run s.cacheStore).1)).onCache
        (PrefixCacheStore.publishAndLease job.blocks job.blockHashes job.jobId leaseTime d.now d.leaseId) := by
    rw [advance, ht]
  generalize PrefixCacheStore.publishAndLease job.blocks job.blockHashes job.jobId leaseTime d.now d.leaseId =
    publication at hsub hok hadv
  cases hres : (publication.run s.cacheStore).1 with
  | error e =>
    rw [hres] at hadv
    have hgo : GoesOn job (job.publishDone (.error e)) :=
      ⟨by simp [Trying, publishDone], rfl, rfl, rfl, rfl, rfl, rfl, rfl, id⟩
    exact Advances.of_onCache _ _ hadv (fun k _ => hsub k) hgo.follows
      (hgo.inv h htry (fun _ => trivial) (by simp [publishDone]) h.promised)
  | ok lease =>
    rw [hres] at hadv
    obtain ⟨hgone, final, hlast, hhash, u, rfl⟩ := hok lease hres
    have hgo : GoesOn job (job.publishDone (.ok (u.leaseOn d.leaseId final job.blockHashes.length (d.now + leaseTime)))) :=
      ⟨by simp [Trying, publishDone], rfl, rfl, rfl, rfl, rfl, rfl, rfl, id⟩
    refine Advances.of_onCache _ _ hadv (fun k _ => hsub k) hgo.follows (hgo.inv h htry ?_ (fun _ => ?_) h.promised)
    · intro hr
      rw [hgone] at hr
      cases hr
    · exact ⟨_, final, ⟨hlast, hhash, rfl, rfl, rfl, rfl, rfl, rfl⟩⟩

theorem advance_published (ht : job.task = .published) : Advances C s job d := by
  have htry : Trying job.task := by simp [Trying, ht]
  have hno : job.MayReserve → False := by simp [MayReserve, ht]
  obtain ⟨lease, final, hgr⟩ := h.granted (Or.inl ht)
  have hbs : job.recheck.blocks = job.blocks := by
    unfold recheck
    split <;> rfl
  refine Advances.of_goesOn h htry job.recheck (by rw [advance, ht]) ?_ (fun hm => (hno hm).elim) ?_
    (by rw [hbs]; exact h.promised)
  · unfold recheck
    split
    · exact ⟨by simp [Trying], rfl, rfl, rfl, rfl, rfl, rfl, rfl, id⟩
    · exact ⟨by simp [Trying], rfl, rfl, rfl, rfl, rfl, rfl, rfl, id⟩
  · intro _
    unfold recheck
    split
    · exact ⟨lease, final, hgr.of_eq rfl rfl rfl⟩
    · exact ⟨lease, final, hgr.of_eq rfl rfl rfl⟩

/-- The only step that completes a job: it is not cancelled, and takes the lease that was granted. -/
theorem advance_completing (ht : job.task = .completing) : Advances C s job d := by
  have htry : Trying job.task := by simp [Trying, ht]
  have hno : job.MayReserve → False := by simp [MayReserve, ht]
  obtain ⟨hst, hfin, hlive⟩ := h.running htry
  obtain ⟨lease, final, hgr⟩ := h.granted (Or.inr ht)
  have hadv : s.advance job d = s.setJob job.complete := by rw [advance, ht]
  cases hc : job.cancelled with
  | true =>
    have hcomp : job.complete = { job with task := .interrupted cancelMessage } := by
      rw [complete, if_pos hc]
    rw [hcomp] at hadv
    exact Advances.of_goesOn h htry _ hadv ⟨by simp [Trying], rfl, rfl, rfl, rfl, rfl, rfl, rfl, id⟩
      (fun hm => (hno hm).elim) (by simp) h.promised
  | false =>
    have hcomp : job.complete =
        { job with
          state := .completed, tokensComputed := job.tokenIds.length, leaseId := lease.leaseId,
          blockHash := final.blockHash, payloadSha256 := final.payloadSha256, transferBytes := final.nbytes,
          task := .releasing } := by
      rw [complete, if_neg (by simp [hc])]
      simp only [hgr.taken, hgr.last]
    rw [hcomp] at hadv
    have hact : ¬ job.state.Terminal := by rw [hst]; decide
    refine Advances.of_setJob _ hadv ?_ ?_
    · exact Follows.of_active hact rfl rfl rfl h.tokens.2 id (by simp [hc])
    · refine ⟨⟨Or.inl rfl, hfin⟩, fun hr => (hno (h.held hr)).elim, fun _ => h.kept hlive, ?_, by simp, fun _ => ?_,
        h.promised⟩
      · exact ⟨Int.natCast_nonneg _, Int.le_refl _⟩
      · exact ⟨lease, final, hgr.of_eq rfl rfl rfl, rfl, rfl, rfl, rfl, rfl⟩

/-- The handlers of `_run`. -/
theorem advance_handler {job' : PrefillJob} (ht : Trying job.task) (hadv : s.advance job d = s.setJob job')
    {st : PrefillJobState} (hst : st = .cancelled ∨ st = .failed) {reason : String}
    (hjob : job' = { job with state := st, failureReason := reason, task := .releasing }) : Advances C s job d := by
  obtain ⟨hrun, hfin, hlive⟩ := h.running ht
  have hact : ¬ job.state.Terminal := by rw [hrun]; decide
  have hne : st ≠ .completed := by rcases hst with rfl | rfl <;> decide
  have hterm : st.Terminal := by rcases hst with rfl | rfl <;> decide
  subst hjob
  refine Advances.of_setJob _ hadv (Follows.of_active hact rfl rfl rfl (Int.le_refl _) id fun _ => hne) ?_
  exact h.next hlive ⟨hterm, hfin⟩ (fun _ => hne) rfl rfl rfl rfl (by simp) hne

theorem advance_releasing (ht : job.task = .releasing) : Advances C s job d := by
  have hfits := h.fits
  rw [Fits, ht] at hfits
  have hlive : ¬ job.Ended := by simp [Ended, ht]
  refine Advances.of_onCache { job with task := .finishing } (PrefixCacheStore.releaseReservation job.jobId)
    (by rw [advance, ht]) ?_ ⟨rfl, rfl, rfl, fun _ => rfl, Int.le_refl _, id, fun _ h => h⟩ ?_
  · intro k _ hr
    exact (PrefixCacheStore.releaseReservation_reservations _ _ hr).2
  · refine ⟨hfits, fun hr => ?_, fun _ => h.kept hlive, h.tokens, by simp, fun hc => ?_, h.promised⟩
    · exact absurd rfl (PrefixCacheStore.releaseReservation_reservations _ _ hr).1
    · obtain ⟨lease, final, hgr, h1, h2, h3, h4, h5⟩ := h.completed hc
      exact ⟨lease, final, hgr.of_eq rfl rfl rfl, h1, h2, h3, h4, h5⟩

theorem advance_finishing (ht : job.task = .finishing) : Advances C s job d := by
  have hfits := h.fits
  rw [Fits, ht] at hfits
  have hno : job.MayReserve → False := by simp [MayReserve, ht]
  refine Advances.of_setJob { job with finishedAt := d.now, task := .done } (by rw [advance, ht])
    ⟨rfl, rfl, rfl, fun _ => rfl, Int.le_refl _, id, fun _ h => h⟩ ?_
  refine ⟨hfits.1, fun hr => (hno (h.held hr)).elim, fun hlive => ?_, h.tokens, by simp, fun hc => ?_, h.promised⟩
  · exact absurd (Or.inr rfl) hlive
  · obtain ⟨lease, final, hgr, h1, h2, h3, h4, h5⟩ := h.completed hc
    exact ⟨lease, final, hgr.of_eq rfl rfl rfl, h1, h2, h3, h4, h5⟩

end Advance

/-- Every step of a task. -/
theorem advance_spec (h : job.JobInv C (job.jobId ∈ s.jobs) (s.cacheStore.reservations.contains job.jobId = true))
    (hjob : s.objects.get? job.jobId = some job) {d : Draw} (hd : job.Promises C d) : Advances C s job d := by
  cases ht : job.task with
  | pending => exact advance_pending h ht
  | starting => exact advance_starting h ht
  | checkingDeadline => exact advance_checkingDeadline h ht
  | reserving => exact advance_reserving h ht
  | computing => exact advance_computing h ht hd
  | computed => exact advance_computed h ht
  | publishing => exact advance_publishing h ht
  | published => exact advance_published h ht
  | completing => exact advance_completing h ht
  | interrupted message =>
    exact advance_handler h (by simp [Trying, ht]) (by rw [advance, ht]) (Or.inl rfl) rfl
  | failing reason => exact advance_handler h (by simp [Trying, ht]) (by rw [advance, ht]) (Or.inr rfl) rfl
  | releasing => exact advance_releasing h ht
  | finishing => exact advance_finishing h ht
  | cancelled | done =>
    have hadv : s.advance job d = s := by rw [advance, ht]
    unfold Advances
    rw [hadv]
    exact ⟨job, ⟨rfl, rfl, hjob, fun _ _ => rfl, fun _ _ hr => hr⟩, Follows.refl job, h⟩

/-! ### The table -/

/-- What holds of the store: every job has its invariant, only known jobs hold reservations, and the table and the index
agree. -/
structure Inv (C : EngineContract) (s : PrefillJobStore) : Prop where
  jobId : ∀ id job, s.objects.get? id = some job → job.jobId = id
  job : ∀ id job, s.objects.get? id = some job →
    job.JobInv C (id ∈ s.jobs) (s.cacheStore.reservations.contains id = true)
  known : ∀ id, s.cacheStore.reservations.contains id = true → ∃ job, s.objects.get? id = some job
  table : ∀ id ∈ s.jobs, ∃ job, s.objects.get? id = some job ∧ s.requests.get? (job.tenantId, job.requestId) = some id
  index : ∀ key id, s.requests.get? key = some id →
    id ∈ s.jobs ∧ ∃ job, s.objects.get? id = some job ∧ (job.tenantId, job.requestId) = key

/-- What became of every job. -/
def Extends (s s' : PrefillJobStore) : Prop :=
  ∀ id job, s.objects.get? id = some job → ∃ job', s'.objects.get? id = some job' ∧ Follows job job'

theorem Extends.refl (s : PrefillJobStore) : Extends s s := fun _ job h => ⟨job, h, Follows.refl job⟩

theorem Extends.trans {s s' s'' : PrefillJobStore} (h : Extends s s') (h' : Extends s' s'') : Extends s s'' := by
  intro id job hjob
  obtain ⟨job', hjob', hf⟩ := h id job hjob
  obtain ⟨job'', hjob'', hf'⟩ := h' id job' hjob'
  exact ⟨job'', hjob'', hf.trans hf'⟩

/-- Jobs that are the same objects. -/
theorem Extends.of_objects {s s' : PrefillJobStore} (h : s'.objects = s.objects) : Extends s s' := by
  intro id job hjob
  exact ⟨job, by rw [h]; exact hjob, Follows.refl job⟩

/-- An event that concerns one job keeps the invariant when the job does. -/
theorem Touches.keeps {s s' : PrefillJobStore} {job job' : PrefillJob} (h : Touches s s' job job') (hs : s.Inv C)
    (hjob : s.objects.get? job.jobId = some job) (hf : Follows job job')
    (hj : job'.JobInv C (job.jobId ∈ s.jobs) (s'.cacheStore.reservations.contains job.jobId = true)) :
    s'.Inv C ∧ Extends s s' := by
  have hget : ∀ k job₁, s'.objects.get? k = some job₁ →
      (k = job.jobId ∧ job₁ = job') ∨ (k ≠ job.jobId ∧ s.objects.get? k = some job₁) := by
    intro k job₁ hk
    by_cases hkid : k = job.jobId
    · subst hkid
      rw [h.here] at hk
      exact Or.inl ⟨rfl, (Option.some.inj hk).symm⟩
    · rw [h.others k hkid] at hk
      exact Or.inr ⟨hkid, hk⟩
  have hold : ∀ k job₁, s.objects.get? k = some job₁ → ∃ job₂, s'.objects.get? k = some job₂ ∧ Follows job₁ job₂ := by
    intro k job₁ hk
    by_cases hkid : k = job.jobId
    · subst hkid
      rw [hjob] at hk
      obtain rfl := Option.some.inj hk
      exact ⟨job', h.here, hf⟩
    · exact ⟨job₁, by rw [h.others k hkid]; exact hk, Follows.refl _⟩
  refine ⟨⟨?_, ?_, ?_, ?_, ?_⟩, hold⟩
  · intro k job₁ hk
    rcases hget k job₁ hk with ⟨rfl, rfl⟩ | ⟨-, hk'⟩
    · exact hf.jobId
    · exact hs.jobId k job₁ hk'
  · intro k job₁ hk
    rw [h.jobs]
    rcases hget k job₁ hk with ⟨rfl, rfl⟩ | ⟨hne, hk'⟩
    · exact hj
    · exact (hs.job k job₁ hk').mono (fun _ hk => hk) (h.reservations k hne)
  · intro k hr
    by_cases hkid : k = job.jobId
    · exact ⟨job', by rw [hkid]; exact h.here⟩
    · obtain ⟨job₁, hk⟩ := hs.known k (h.reservations k hkid hr)
      obtain ⟨job₂, hk', -⟩ := hold k job₁ hk
      exact ⟨job₂, hk'⟩
  · intro k hk
    rw [h.jobs] at hk
    rw [h.requests]
    obtain ⟨job₁, hjob₁, hreq⟩ := hs.table k hk
    obtain ⟨job₂, hk', hf'⟩ := hold k job₁ hjob₁
    exact ⟨job₂, hk', by rw [hf'.key]; exact hreq⟩
  · intro key k hk
    rw [h.requests] at hk
    rw [h.jobs]
    obtain ⟨hmem, job₁, hjob₁, hkey⟩ := hs.index key k hk
    obtain ⟨job₂, hk', hf'⟩ := hold k job₁ hjob₁
    exact ⟨hmem, job₂, hk', hf'.key.trans hkey⟩

/-! ### Garbage collection -/

/-- A job that may be taken out of the table, also when it is out already. -/
structure Droppable (s : PrefillJobStore) (job : PrefillJob) : Prop where
  stored : s.objects.get? job.jobId = some job
  ended : job.Ended
  indexed : job.jobId ∈ s.jobs ∨ s.requests.get? (job.tenantId, job.requestId) = none

theorem dropJob_keeps (hs : s.Inv C) (hd : s.Droppable job) : (s.dropJob job).Inv C := by
  refine ⟨hs.jobId, ?_, hs.known, ?_, ?_⟩
  · intro k job₁ hk
    refine (hs.job k job₁ hk).mono (fun hlive hmem => ?_) id
    refine List.mem_filter.2 ⟨hmem, decide_eq_true ?_⟩
    rintro rfl
    have hsame : job = job₁ := Option.some.inj (hd.stored.symm.trans hk)
    exact hlive (hsame ▸ hd.ended)
  · intro k hk
    obtain ⟨hmem, hne⟩ := List.mem_filter.1 hk
    have hne' : k ≠ job.jobId := of_decide_eq_true hne
    obtain ⟨job₁, hjob₁, hreq⟩ := hs.table k hmem
    refine ⟨job₁, hjob₁, ?_⟩
    show (s.requests.erase (job.tenantId, job.requestId)).get? _ = _
    rw [Dict.get?_erase_ne, hreq]
    -- the keys of two jobs in the table differ
    intro hkey
    rw [hkey] at hreq
    rcases hd.indexed with hin | hnone
    · obtain ⟨job₂, hjob₂, hreq₂⟩ := hs.table job.jobId hin
      rw [hd.stored] at hjob₂
      obtain rfl := Option.some.inj hjob₂
      rw [hreq] at hreq₂
      exact hne' (Option.some.inj hreq₂)
    · rw [hnone] at hreq
      cases hreq
  · intro key k hk
    have hk' : (s.requests.erase (job.tenantId, job.requestId)).get? key = some k := hk
    rw [Dict.get?_erase] at hk'
    split at hk'
    · cases hk'
    · rename_i hne
      obtain ⟨hmem, job₁, hjob₁, hkey⟩ := hs.index key k hk'
      refine ⟨List.mem_filter.2 ⟨hmem, decide_eq_true ?_⟩, job₁, hjob₁, hkey⟩
      rintro rfl
      rw [hd.stored] at hjob₁
      obtain rfl := Option.some.inj hjob₁
      exact hne hkey.symm

theorem Droppable.dropJob {other : PrefillJob} (hd : s.Droppable job) (ho : s.Droppable other) :
    (s.dropJob job).Droppable other := by
  refine ⟨ho.stored, ho.ended, ?_⟩
  by_cases hid : other.jobId = job.jobId
  · right
    have hsame : other = job := by
      have := ho.stored
      rw [hid, hd.stored] at this
      exact (Option.some.inj this).symm
    rw [hsame]
    exact Dict.get?_erase_self _ _
  · rcases ho.indexed with hin | hnone
    · exact Or.inl (List.mem_filter.2 ⟨hin, decide_eq_true hid⟩)
    · right
      show (s.requests.erase (job.tenantId, job.requestId)).get? _ = none
      rw [Dict.get?_erase]
      split
      · rfl
      · exact hnone

theorem dropJobs_keeps {dropped : List PrefillJob} (hs : s.Inv C) (hd : ∀ job ∈ dropped, s.Droppable job) :
    (s.dropJobs dropped).Inv C ∧ (s.dropJobs dropped).objects = s.objects ∧
      (s.dropJobs dropped).cacheStore = s.cacheStore := by
  induction dropped generalizing s with
  | nil => exact ⟨hs, rfl, rfl⟩
  | cons job dropped ih =>
    have hjob := hd job (by simp)
    exact ih (dropJob_keeps hs hjob) fun other ho => hjob.dropJob (hd other (List.mem_cons_of_mem _ ho))

/-- A finished job in the table may be dropped. -/
theorem droppable_of_finished (hs : s.Inv C) (hk : job ∈ s.keptJobs) (hf : job.finishedAt ≠ 0) : s.Droppable job := by
  obtain ⟨id, hid, hjob⟩ := List.mem_filterMap.1 hk
  obtain rfl := hs.jobId id job hjob
  exact ⟨hjob, (hs.job _ job hjob).ended hf, Or.inl hid⟩

theorem gcLocked_keeps (hs : s.Inv C) (now : Int) :
    (s.gcLocked now).Inv C ∧ (s.gcLocked now).objects = s.objects ∧ (s.gcLocked now).cacheStore = s.cacheStore := by
  have hexp : ∀ job ∈ s.expiredJobs now, s.Droppable job := by
    intro job hjob
    obtain ⟨hk, hf⟩ := List.mem_filter.1 hjob
    exact droppable_of_finished hs hk (of_decide_eq_true hf).1
  obtain ⟨hs₁, hobj₁, hcache₁⟩ := dropJobs_keeps hs hexp
  unfold gcLocked
  dsimp only
  generalize s.dropJobs (s.expiredJobs now) = t at hs₁ hobj₁ hcache₁
  have hover : ∀ job ∈ t.overflowJobs, t.Droppable job := by
    intro job hjob
    unfold overflowJobs at hjob
    dsimp only at hjob
    split at hjob
    · have hmem := List.mem_of_mem_take hjob
      rw [List.mem_mergeSort] at hmem
      obtain ⟨hk, hf⟩ := List.mem_filter.1 hmem
      exact droppable_of_finished hs₁ hk (of_decide_eq_true hf)
    · cases hjob
  obtain ⟨hs₂, hobj₂, hcache₂⟩ := dropJobs_keeps hs₁ hover
  exact ⟨hs₂, hobj₂.trans hobj₁, hcache₂.trans hcache₁⟩

/-! ### Submitting -/

theorem enqueue_keeps (hs : s.Inv C) (hfresh : s.objects.get? job.jobId = none)
    (hkey : s.requests.get? (job.tenantId, job.requestId) = none) (htask : job.task = .pending)
    (hstate : job.state = .queued) (hfin : job.finishedAt = 0) (htok : job.tokensComputed = 0)
    (hbs : job.blocks = []) :
    (s.enqueue job).Inv C ∧ Extends s (s.enqueue job) := by
  have hget : ∀ k job₁, (s.enqueue job).objects.get? k = some job₁ →
      (k = job.jobId ∧ job₁ = job) ∨ (k ≠ job.jobId ∧ s.objects.get? k = some job₁) := by
    intro k job₁ hk
    have hk' : (s.objects.set job.jobId job).get? k = some job₁ := hk
    rw [Dict.get?_set] at hk'
    split at hk'
    · rename_i heq
      exact Or.inl ⟨heq, (Option.some.inj hk').symm⟩
    · rename_i hne
      exact Or.inr ⟨hne, hk'⟩
  have hold : ∀ k job₁, s.objects.get? k = some job₁ → (s.enqueue job).objects.get? k = some job₁ := by
    intro k job₁ hk
    have hne : k ≠ job.jobId := by
      rintro rfl
      rw [hfresh] at hk
      cases hk
    exact (Dict.get?_set_ne _ hne).trans hk
  have hfree : s.cacheStore.reservations.contains job.jobId = true → False := by
    intro hr
    obtain ⟨job₁, hk⟩ := hs.known _ hr
    rw [hfresh] at hk
    cases hk
  refine ⟨⟨?_, ?_, ?_, ?_, ?_⟩, fun k job₁ hk => ⟨job₁, hold k job₁ hk, Follows.refl _⟩⟩
  · intro k job₁ hk
    rcases hget k job₁ hk with ⟨rfl, rfl⟩ | ⟨-, hk'⟩
    · rfl
    · exact hs.jobId k job₁ hk'
  · intro k job₁ hk
    rcases hget k job₁ hk with ⟨rfl, rfl⟩ | ⟨hne, hk'⟩
    · refine ⟨?_, fun hr => (hfree hr).elim, fun _ => ?_, ?_, by simp [htask], by simp [hstate], by simp [hbs]⟩
      · rw [Fits, htask]
        exact ⟨hstate, hfin⟩
      · exact List.mem_append_right _ (by simp)
      · rw [htok]
        exact ⟨Int.le_refl _, Int.natCast_nonneg _⟩
    · exact (hs.job k job₁ hk').mono (fun _ hmem => List.mem_append_left _ hmem) id
  · intro k hr
    obtain ⟨job₁, hk⟩ := hs.known k hr
    exact ⟨job₁, hold k job₁ hk⟩
  · intro k hk
    rcases List.mem_append.1 hk with hk | hk
    · obtain ⟨job₁, hjob₁, hreq⟩ := hs.table k hk
      refine ⟨job₁, hold k job₁ hjob₁, ?_⟩
      show (s.requests.set (job.tenantId, job.requestId) job.jobId).get? _ = _
      rw [Dict.get?_set_ne, hreq]
      intro heq
      rw [heq, hkey] at hreq
      cases hreq
    · obtain rfl := List.mem_singleton.1 hk
      exact ⟨job, Dict.get?_set_self _ _ _, Dict.get?_set_self _ _ _⟩
  · intro key k hk
    have hk' : (s.requests.set (job.tenantId, job.requestId) job.jobId).get? key = some k := hk
    rw [Dict.get?_set] at hk'
    split at hk'
    · rename_i heq
      obtain rfl := Option.some.inj hk'
      exact ⟨List.mem_append_right _ (by simp), job, Dict.get?_set_self _ _ _, heq.symm⟩
    · obtain ⟨hmem, job₁, hjob₁, hkey₁⟩ := hs.index key k hk'
      exact ⟨List.mem_append_left _ hmem, job₁, hold k job₁ hjob₁, hkey₁⟩

theorem accept_keeps (hs : s.Inv C) {r : PrefillRequest} {jobId : String} (hfresh : s.objects.get? jobId = none)
    (hkey : s.requests.get? (r.tenantId, r.requestId) = none) (requestDigest : Bytes) (now : Int) :
    ((accept r requestDigest now jobId).run s).2.Inv C ∧ Extends s ((accept r requestDigest now jobId).run s).2 := by
  unfold accept
  rw [Proc.run_get_bind]
  split
  · exact ⟨hs, Extends.refl s⟩
  · cases s.estimate r.tokenIds with
    | error e => exact ⟨hs, Extends.refl s⟩
    | ok bytes =>
      dsimp only
      split
      · exact ⟨hs, Extends.refl s⟩
      · exact enqueue_keeps hs hfresh hkey rfl rfl rfl rfl rfl

theorem submit_keeps (hs : s.Inv C) (r : PrefillRequest) (gcNow now : Int) {jobId : String}
    (hfresh : s.objects.get? jobId = none) :
    ((submit r gcNow now jobId).run s).2.Inv C ∧ Extends s ((submit r gcNow now jobId).run s).2 := by
  unfold submit
  rw [Proc.run_get_bind]
  cases s.validate r with
  | error e => exact ⟨hs, Extends.refl s⟩
  | ok u =>
    dsimp only
    cases digest r with
    | error e => exact ⟨hs, Extends.refl s⟩
    | ok requestDigest =>
      dsimp only
      unfold submitLocked
      obtain ⟨hgc, hobj, -⟩ := gcLocked_keeps hs gcNow
      rw [Proc.run_modify_bind, Proc.run_get_bind]
      generalize s.gcLocked gcNow = t at hgc hobj
      have hext : Extends s t := Extends.of_objects hobj
      cases hreq : t.requests.get? (r.tenantId, r.requestId) with
      | none =>
        obtain ⟨hadm, hadm'⟩ := accept_keeps hgc (by rw [hobj]; exact hfresh) hreq requestDigest now
        exact ⟨hadm, hext.trans hadm'⟩
      | some existingId =>
        dsimp only
        cases t.job? existingId with
        | none => exact ⟨hgc, hext⟩
        | some existing =>
          dsimp only
          split
          · exact ⟨hgc, hext⟩
          · exact ⟨hgc, hext⟩

/-! ### Asking and cancelling -/

theorem run_get (s : PrefillJobStore) (id tenantId : String) (now : Int) :
    (∃ e, (get id tenantId now).run s = (.error e, s.gcLocked now)) ∨
      ∃ job, (s.gcLocked now).job? id = some job ∧ (get id tenantId now).run s = (.ok job, s.gcLocked now) := by
  unfold get
  rw [Proc.run_modify_bind, Proc.run_get_bind]
  cases hjob : (s.gcLocked now).job? id with
  | none => exact Or.inl ⟨_, rfl⟩
  | some job =>
    dsimp only
    split
    · exact Or.inl ⟨_, rfl⟩
    · exact Or.inr ⟨job, rfl, rfl⟩

theorem stored_of_job? {id : String} (hs : s.Inv C) (h : s.job? id = some job) :
    job.jobId = id ∧ s.objects.get? job.jobId = some job := by
  unfold job? at h
  split at h
  · have hid := hs.jobId id job h
    exact ⟨hid, by rw [hid]; exact h⟩
  · cases h

/-- A job that is marked as cancelled keeps its invariant. -/
theorem JobInv.cancel {kept reserved : Prop} (h : job.JobInv C kept reserved) :
    { job with cancelled := true }.JobInv C kept reserved := by
  refine ⟨h.fits, h.held, h.kept, h.tokens, fun hg => ?_, fun hc => ?_, h.promised⟩
  · obtain ⟨lease, final, hgr⟩ := h.granted hg
    exact ⟨lease, final, hgr.of_eq rfl rfl rfl⟩
  · obtain ⟨lease, final, hgr, h1, h2, h3, h4, h5⟩ := h.completed hc
    exact ⟨lease, final, hgr.of_eq rfl rfl rfl, h1, h2, h3, h4, h5⟩

theorem setJob_keeps (hs : s.Inv C) (hjob : s.objects.get? job.jobId = some job) (job' : PrefillJob)
    (hf : Follows job job')
    (hj : job'.JobInv C (job.jobId ∈ s.jobs) (s.cacheStore.reservations.contains job.jobId = true)) :
    (s.setJob job').Inv C ∧ Extends s (s.setJob job') :=
  (touches_setJob s job hf.jobId).keeps hs hjob hf hj

theorem setCancelled_keeps (hs : s.Inv C) (hjob : s.objects.get? job.jobId = some job) :
    (s.setJob { job with cancelled := true }).Inv C ∧ Extends s (s.setJob { job with cancelled := true }) :=
  setJob_keeps hs hjob { job with cancelled := true }
    ⟨rfl, rfl, rfl, fun _ => rfl, Int.le_refl _, fun _ => rfl, fun _ h => h⟩ (JobInv.cancel (hs.job _ job hjob))

/-- A call of `cancel`: the invariant is kept, and when it returns true the job is marked and not completed. -/
theorem cancel_keeps (hs : s.Inv C) (id tenantId : String) (gcNow now : Int) :
    (((cancel id tenantId gcNow now).run s).2.Inv C ∧ Extends s ((cancel id tenantId gcNow now).run s).2) ∧
    (((cancel id tenantId gcNow now).run s).1 = .ok true →
      ∃ job, ((cancel id tenantId gcNow now).run s).2.objects.get? id = some job ∧ job.cancelled = true ∧
        job.state ≠ .completed) := by
  obtain ⟨hgc, hobj, -⟩ := gcLocked_keeps hs gcNow
  have hext : Extends s (s.gcLocked gcNow) := Extends.of_objects hobj
  unfold cancel
  rcases run_get s id tenantId gcNow with ⟨e, hget⟩ | ⟨job, hjob, hget⟩
  · rw [Proc.run_bind_error hget]
    exact ⟨⟨hgc, hext⟩, fun h => by cases h⟩
  · rw [Proc.run_bind_ok hget]
    generalize s.gcLocked gcNow = t at hgc hext hjob
    obtain ⟨rfl, hstored⟩ := stored_of_job? hgc hjob
    have hinv := hgc.job _ job hstored
    split
    · exact ⟨⟨hgc, hext⟩, fun h => by cases h⟩
    · rename_i hterm
      have hne : job.state ≠ .completed := fun h => hterm (Or.inl h)
      split
      · -- the task has not started
        rw [Proc.run_modify_bind, Proc.run_modify_bind]
        have htouch : Touches t ((t.setJob (cancelQueued now job)).onCache
            (PrefixCacheStore.releaseReservation job.jobId)) job (cancelQueued now job) :=
          touches_onCache t rfl fun k _ hr => (PrefixCacheStore.releaseReservation_reservations _ _ hr).2
        have hf : Follows job (cancelQueued now job) :=
          Follows.of_active hterm rfl rfl rfl (Int.le_refl _) (fun _ => rfl) (by simp [cancelQueued])
        have hj : (cancelQueued now job).JobInv C (job.jobId ∈ t.jobs)
            (((t.setJob (cancelQueued now job)).onCache
              (PrefixCacheStore.releaseReservation job.jobId)).cacheStore.reservations.contains job.jobId = true) := by
          refine ⟨rfl, fun hr => ?_, fun hlive => ?_, hinv.tokens, by simp [cancelQueued], by simp [cancelQueued],
            hinv.promised⟩
          · exact absurd rfl (PrefixCacheStore.releaseReservation_reservations _ _ hr).1
          · exact absurd (Or.inl rfl) hlive
        obtain ⟨hkeep, hkeep'⟩ := htouch.keeps hgc hstored hf hj
        exact ⟨⟨hkeep, hext.trans hkeep'⟩, fun _ => ⟨_, htouch.here, rfl, by simp [cancelQueued]⟩⟩
      · rw [Proc.run_modify_bind]
        obtain ⟨hkeep, hkeep'⟩ := setCancelled_keeps hgc hstored
        exact ⟨⟨hkeep, hext.trans hkeep'⟩, fun _ => ⟨_, Dict.get?_set_self _ _ _, rfl, hne⟩⟩

theorem updateJobProgress_keeps (hs : s.Inv C) (id : String) (n : Int) :
    ((updateJobProgress id n).run s).2.Inv C ∧ Extends s ((updateJobProgress id n).run s).2 := by
  unfold updateJobProgress
  rw [Proc.run_get_bind]
  cases hjob : s.job? id with
  | none => exact ⟨hs, Extends.refl s⟩
  | some job =>
    obtain ⟨rfl, hstored⟩ := stored_of_job? hs hjob
    have hinv := hs.job _ job hstored
    have htok := hinv.tokens
    refine setJob_keeps hs hstored
      { job with tokensComputed := min job.tokenIds.length (max job.tokensComputed n) } ?_ ?_
    · exact ⟨rfl, rfl, rfl, fun _ => rfl, by dsimp only; omega, id, fun _ h => h⟩
    · refine ⟨hinv.fits, hinv.held, hinv.kept, by dsimp only; omega, fun hg => ?_, fun hc => ?_, hinv.promised⟩
      · obtain ⟨lease, final, hgr⟩ := hinv.granted hg
        exact ⟨lease, final, hgr.of_eq rfl rfl rfl⟩
      · obtain ⟨lease, final, hgr, h1, h2, h3, h4, h5⟩ := hinv.completed hc
        exact ⟨lease, final, hgr.of_eq rfl rfl rfl, h1, h2, h3, h4, by dsimp only; omega⟩

theorem fireTimer_keeps (hs : s.Inv C) (id : String) : (s.fireTimer id).Inv C ∧ Extends s (s.fireTimer id) := by
  unfold fireTimer
  cases hjob : s.objects.get? id with
  | none => exact ⟨hs, Extends.refl s⟩
  | some job =>
    dsimp only
    split
    · exact setCancelled_keeps hs (by rw [hs.jobId id job hjob]; exact hjob)
    · exact ⟨hs, Extends.refl s⟩

/-! ### Runs -/

/-- What a run relies on: a submitted job has a fresh id, nothing else makes reservations in the cache store, and the
engine keeps its contract. -/
def Allowed (C : EngineContract) (s : PrefillJobStore) : JobEvent → Prop
  | .submit _ _ _ jobId => s.objects.get? jobId = none
  | .cache e => ¬ PrefixCacheStore.Reserving e
  | .run id d => ∀ job, s.objects.get? id = some job → job.Promises C d
  | _ => True

theorem step_keeps (hs : s.Inv C) {e : JobEvent} (he : s.Allowed C e) : (step s e).2.Inv C ∧ Extends s (step s e).2 := by
  cases e with
  | submit r gcNow now jobId =>
    unfold step perform
    rw [Proc.run_map_snd]
    exact submit_keeps hs r gcNow now he
  | get id tenantId now =>
    obtain ⟨hgc, hobj, -⟩ := gcLocked_keeps hs now
    unfold step perform
    rw [Proc.run_map_snd]
    rcases run_get s id tenantId now with ⟨e, hget⟩ | ⟨job, -, hget⟩ <;> rw [hget] <;>
      exact ⟨hgc, Extends.of_objects hobj⟩
  | cancel id tenantId gcNow now =>
    unfold step perform
    rw [Proc.run_map_snd]
    exact (cancel_keeps hs id tenantId gcNow now).1
  | progress id n =>
    unfold step perform
    rw [Proc.run_map_snd]
    exact updateJobProgress_keeps hs id n
  | timer id => exact fireTimer_keeps hs id
  | run id d =>
    unfold step perform
    rw [Proc.run_modify_bind]
    cases hjob : s.objects.get? id with
    | none => exact ⟨hs, Extends.refl s⟩
    | some job =>
      have hid := hs.jobId id job hjob
      rw [← hid] at hjob
      obtain ⟨job', htouch, hf, hj⟩ := advance_spec (hs.job _ job hjob) hjob (he job (by rw [← hid]; exact hjob))
      exact htouch.keeps hs hjob hf hj
  | cache e =>
    have hres := PrefixCacheStore.perform_reservations he s.cacheStore
    refine ⟨⟨hs.jobId, ?_, ?_, hs.table, hs.index⟩, Extends.of_objects rfl⟩
    · intro k job hk
      show job.JobInv C (k ∈ s.jobs) (((PrefixCacheStore.perform e).run s.cacheStore).2.reservations.contains k = true)
      rw [hres]
      exact hs.job k job hk
    · intro k hk
      have hk' : ((PrefixCacheStore.perform e).run s.cacheStore).2.reservations.contains k = true := hk
      rw [hres] at hk'
      exact hs.known k hk'

theorem inv_create {limits : WorkerLimits} {cache : PrefixCacheStore} (hcache : cache.reservations = Dict.empty)
    (hs : create limits cache = .ok s) : s.Inv C := by
  unfold create at hs
  split at hs
  · cases hs
  · split at hs
    · cases hs
    · obtain rfl := Except.ok.inj hs
      refine ⟨?_, ?_, ?_, ?_, ?_⟩
      · intro id job hjob
        cases hjob
      · intro id job hjob
        cases hjob
      · intro id hr
        have hr' : cache.reservations.contains id = true := hr
        rw [hcache] at hr'
        cases hr'
      · intro id hid
        cases hid
      · intro key id hreq
        cases hreq

/-- What holds at the end of a run, and what a run does to the jobs it starts with. -/
theorem final_keeps (hs : s.Inv C) {es : List JobEvent} (hall : Machine.AllSteps step (Allowed C) s es) :
    (Machine.final step s es).Inv C ∧ Extends s (Machine.final step s es) := by
  refine Machine.final_of_steps (I := fun t => t.Inv C ∧ Extends s t) ?_ ⟨hs, Extends.refl s⟩ hall
  rintro t e ⟨ht, hext⟩ he
  obtain ⟨hkeep, hkeep'⟩ := step_keeps ht he
  exact ⟨hkeep, hext.trans hkeep'⟩

theorem job?_of_mem {id : String} (hid : id ∈ s.jobs) (hjob : s.objects.get? id = some job) : s.job? id = some job := by
  unfold job?
  rw [if_pos hid]
  exact hjob

/-- A reservation stands for a job in the table whose task still runs: the job is running, or has just failed or been
cancelled and is not yet marked as finished. -/
theorem Inv.reservation (hs : s.Inv C) {id : String} (hr : s.cacheStore.reservations.contains id = true) :
    ∃ job, s.job? id = some job ∧ job.finishedAt = 0 ∧
      (job.state = .running ∨ ((job.state = .failed ∨ job.state = .cancelled) ∧ job.task = .releasing)) := by
  obtain ⟨job, hjob⟩ := hs.known id hr
  have hinv := hs.job id job hjob
  have hmay := hinv.held hr
  have hfits := hinv.fits
  have hlive : ¬ job.Ended := by
    unfold MayReserve at hmay
    unfold Ended
    rintro (ht | ht) <;> rw [ht] at hmay <;> exact hmay
  refine ⟨job, job?_of_mem (hinv.kept hlive) hjob, ?_⟩
  unfold MayReserve at hmay
  unfold Fits at hfits
  cases ht : job.task <;> rw [ht] at hmay hfits <;> try exact hmay.elim
  case releasing =>
    refine ⟨hfits.2, Or.inr ⟨?_, rfl⟩⟩
    rcases hfits.1 with hc | hf | hc
    · exact absurd hc hmay
    · exact Or.inl hf
    · exact Or.inr hc
  all_goals exact ⟨hfits.2, Or.inl hfits.1⟩

/-- Safety of the prefill jobs, over every interleaving.  At every moment the table and the index agree, a reservation
stands only for a job whose task still runs, the tokens of a job are within its request, and a completed job carries the
lease on the last snapshot that the engine returned for all its tokens.  Later on, no terminal state is left, no tokens
are lost, and a job whose cancellation was confirmed is not completed. -/
theorem job_safety (C : EngineContract) {c : CacheCompatibility} {n : Int} {nodeId : String} {cache : PrefixCacheStore}
    {limits : WorkerLimits} {s₀ : PrefillJobStore} (hcache : PrefixCacheStore.create c n nodeId = .ok cache)
    (hs₀ : create limits cache = .ok s₀) (es es' : List JobEvent)
    (hall : Machine.AllSteps step (Allowed C) s₀ (es ++ es')) :
    let s := Machine.final step s₀ es
    let s' := Machine.final step s es'
    (∀ id job, s.job? id = some job → s.requests.get? (job.tenantId, job.requestId) = some id) ∧
    (∀ key id, s.requests.get? key = some id → ∃ job, s.job? id = some job ∧ (job.tenantId, job.requestId) = key) ∧
    (∀ id job, s.objects.get? id = some job → ∃ job', s'.objects.get? id = some job' ∧
      (job.state.Terminal → job'.state = job.state) ∧ job.tokensComputed ≤ job'.tokensComputed) ∧
    (∀ pre id tenantId gcNow now, es = pre ++ [.cancel id tenantId gcNow now] →
      (step (Machine.final step s₀ pre) (.cancel id tenantId gcNow now)).1 = .ok (.bool true) →
      ∃ job', s'.objects.get? id = some job' ∧ job'.state ≠ .completed) ∧
    (∀ id, s.cacheStore.reservations.contains id = true → ∃ job, s.job? id = some job ∧ job.finishedAt = 0 ∧
      (job.state = .running ∨ ((job.state = .failed ∨ job.state = .cancelled) ∧ job.task = .releasing))) ∧
    (∀ id job, s.objects.get? id = some job →
      0 ≤ job.tokensComputed ∧ job.tokensComputed ≤ job.tokenIds.length) ∧
    (∀ id job, s.objects.get? id = some job → job.state = .completed →
      ∃ lease final, job.Carries lease final ∧ C job.tokenIds job.blockHashes final) := by
  intro s s'
  have hempty : cache.reservations = Dict.empty := by
    unfold PrefixCacheStore.create at hcache
    split at hcache
    · cases hcache
    · split at hcache
      · cases hcache
      · obtain rfl := Except.ok.inj hcache
        rfl
  have hinit : s₀.Inv C := inv_create hempty hs₀
  obtain ⟨hall₁, hall₂⟩ := (Machine.allSteps_append step (Allowed C) s₀ es es').1 hall
  obtain ⟨hs, -⟩ := final_keeps hinit hall₁
  obtain ⟨-, hext⟩ := final_keeps hs hall₂
  refine ⟨?_, ?_, ?_, ?_, fun id hr => hs.reservation hr, fun id job hjob => (hs.job id job hjob).tokens, ?_⟩
  · intro id job hjob
    unfold job? at hjob
    split at hjob
    · rename_i hid
      obtain ⟨job₁, hjob₁, hreq⟩ := hs.table id hid
      rw [hjob] at hjob₁
      obtain rfl := Option.some.inj hjob₁
      exact hreq
    · cases hjob
  · intro key id hreq
    obtain ⟨hmem, job, hjob, hkey⟩ := hs.index key id hreq
    exact ⟨job, job?_of_mem hmem hjob, hkey⟩
  · intro id job hjob
    obtain ⟨job', hjob', hf⟩ := hext id job hjob
    exact ⟨job', hjob', hf.terminal, hf.tokens⟩
  · rintro pre id tenantId gcNow now hes hreply
    -- the job is marked right after the call, and follows from there
    have hpre : Machine.AllSteps step (Allowed C) s₀ pre := by
      rw [hes, Machine.allSteps_append] at hall₁
      exact hall₁.1
    have hlast : s = (step (Machine.final step s₀ pre) (.cancel id tenantId gcNow now)).2 := by
      show Machine.final step s₀ es = _
      rw [hes, Machine.final_append]
      rfl
    obtain ⟨hpre', -⟩ := final_keeps hinit hpre
    obtain ⟨b, hrun, hb⟩ := Proc.run_map_ok (Prod.ext hreply rfl :
      (perform (.cancel id tenantId gcNow now)).run (Machine.final step s₀ pre) =
        (.ok (.bool true), (step (Machine.final step s₀ pre) (.cancel id tenantId gcNow now)).2))
    obtain rfl := JobReply.bool.inj hb
    obtain ⟨job, hjob, hc, hne⟩ := (cancel_keeps hpre' id tenantId gcNow now).2 (by rw [hrun])
    rw [hrun, ← hlast] at hjob
    obtain ⟨job', hjob', hf⟩ := hext id job hjob
    exact ⟨job', hjob', hf.uncompleted hc hne⟩
  · intro id job hjob hcomp
    have hinv := hs.job id job hjob
    obtain ⟨lease, final, hcarries⟩ := hinv.completed hcomp
    exact ⟨lease, final, hcarries, hinv.promised final hcarries.granted.last⟩

/-! ### A worker -/

/-- A cache store of 100 bytes. -/
def exampleCache : PrefixCacheStore := { compatibility := { modelId := "m" }, maxBytes := 100, nodeId := "n" }

/-- A worker with the default limits in front of it. -/
def exampleWorker : PrefillJobStore := { limits := {}, cacheStore := exampleCache }

/-- A request for one token, whose block has an arbitrary hash. -/
def exampleRequest : PrefillRequest :=
  { requestId := "r", tenantId := "t", tokenIds := [1], blockHashes := [List.replicate 32 0],
    compatibility := { modelId := "m" }, compression := .none }

/-- The snapshot that the engine returns for it. -/
def exampleSnapshot : CacheBlock :=
  { blockHash := List.replicate 32 0, tokenCount := 1, payload := [7], payloadSha256 := Sha256.sha256 [7] }

/-- The job is submitted and runs until the engine ends in some way; then its task takes `n` more steps. -/
def exampleRun (outcome : EngineOutcome) (n : Nat) : List JobEvent :=
  .submit exampleRequest 1 1 "j" :: List.replicate 4 (.run "j" { now := 1 }) ++
    .run "j" { now := 2, outcome := outcome } :: List.replicate n (.run "j" { now := 2, leaseId := "l" })

/-- A job whose engine raised has failed before its reservation is released. -/
theorem failed_with_reservation :
    let s := Machine.final step exampleWorker (exampleRun (.raised "RuntimeError: boom") 1)
    PrefixCacheStore.create { modelId := "m" } 100 "n" = .ok exampleCache ∧ create {} exampleCache = .ok exampleWorker ∧
      s.cacheStore.reservations.contains "j" = true ∧ (s.job? "j").map (fun job => job.state) = some .failed := by
  refine ⟨rfl, rfl, ?_, ?_⟩ <;> decide +kernel

theorem exampleRun_allowed :
    Machine.AllSteps step (Allowed fun _ _ _ => True) exampleWorker (exampleRun (.returned [exampleSnapshot]) 8) := by
  refine ⟨rfl, ?_⟩
  repeat refine ⟨fun _ _ _ _ _ _ _ => trivial, ?_⟩
  trivial

/-- A job whose engine returned a snapshot completes and carries its lease. -/
theorem completed_with_lease :
    ∃ job, (Machine.final step exampleWorker (exampleRun (.returned [exampleSnapshot]) 8)).objects.get? "j" = some job ∧
      ∃ lease final, job.Carries lease final := by
  have hsafe := job_safety (fun _ _ _ => True) (rfl : PrefixCacheStore.create { modelId := "m" } 100 "n" = .ok exampleCache)
    (rfl : create {} exampleCache = .ok exampleWorker) (exampleRun (.returned [exampleSnapshot]) 8) []
    (by rw [List.append_nil]; exact exampleRun_allowed)
  obtain ⟨-, -, -, -, -, -, hcompleted⟩ := hsafe
  have hstate : ((Machine.final step exampleWorker (exampleRun (.returned [exampleSnapshot]) 8)).objects.get? "j").map
      (fun job => job.state) = some .completed := by decide +kernel
  obtain ⟨job, hjob, hst⟩ := Option.map_eq_some_iff.1 hstate
  obtain ⟨lease, final, hcarries, -⟩ := hcompleted "j" job hjob hst
  exact ⟨job, hjob, lease, final, hcarries⟩

end PrefillJobStore

end KakeyaEngine
