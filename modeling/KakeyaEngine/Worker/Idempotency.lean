import KakeyaEngine.Lib.Endian
import KakeyaEngine.Worker.Bound

/-!
# Submitting twice

A request is recognised by its tenant and request id, and compared by a digest of its tokens, block hashes, compression
and deadline.  The lists are digested without their lengths, but a valid request has one hash for every block of tokens,
so the bytes can be cut up in one way (`digestInput_inj`).  As long as the job of a request is in the table, the same
request gets this job and another one under the same id is refused (`submit_twice`).  It is in the table at least until
its task has ended; a job that was collected is forgotten.
-/

namespace KakeyaEngine

namespace PrefillJobStore

open PrefillJob

/-! ### The digest -/

/-- What the digest of a request is computed from. -/
def digestInput (r : PrefillRequest) : Bytes :=
  compatibilityFingerprint r.compatibility ++ (encodeBlock r.tokenIds).toOption.getD [] ++ r.blockHashes.flatten ++
    littleEndian 2 r.compression.toNat ++ littleEndian 8 r.deadlineMs.toNat

theorem digest_ok {r : PrefillRequest} {d : Bytes} (h : digest r = .ok d) :
    ∃ tokens, encodeBlock r.tokenIds = .ok tokens ∧ r.deadlineMs < 2 ^ 64 ∧ d = Sha256.sha256 (digestInput r) := by
  unfold digest at h
  rcases htokens : encodeBlock r.tokenIds with e | tokens
  · rw [htokens] at h
    cases h
  · rw [htokens] at h
    dsimp only at h
    split at h
    · cases h
    · refine ⟨tokens, rfl, by omega, ?_⟩
      unfold digestInput
      rw [htokens]
      exact (Except.ok.inj h).symm

theorem length_littleEndian (width n : Nat) : (littleEndian width n).length = width := LittleEndian.length_bytes width n

theorem littleEndian_inj {width m n : Nat} (hm : m < 256 ^ width) (hn : n < 256 ^ width)
    (h : littleEndian width m = littleEndian width n) : m = n := by
  have hvalue : LittleEndian.value (LittleEndian.bytes width m) = LittleEndian.value (LittleEndian.bytes width n) :=
    congrArg LittleEndian.value h
  rwa [LittleEndian.value_bytes hm, LittleEndian.value_bytes hn] at hvalue

theorem length_encodeBlock {ts : List Token} {b : Bytes} (h : encodeBlock ts = .ok b) : b.length = 4 * ts.length := by
  induction ts generalizing b with
  | nil =>
    obtain rfl := Except.ok.inj h
    rfl
  | cons t ts ih =>
    obtain ⟨b', hb', -, -, rfl⟩ := encodeBlock_cons h
    rw [List.length_append, ih hb', List.length_cons]
    show 4 + _ = _
    omega

/-- A list of hashes of one size is determined by their bytes. -/
theorem flatten_inj {size : Nat} (hsize : 0 < size) {xs ys : List Bytes} (hx : ∀ x ∈ xs, x.length = size)
    (hy : ∀ y ∈ ys, y.length = size) (h : xs.flatten = ys.flatten) : xs = ys := by
  induction xs generalizing ys with
  | nil =>
    cases ys with
    | nil => rfl
    | cons y ys =>
      have hlen := congrArg List.length h
      rw [List.forall_mem_cons] at hy
      rw [List.flatten_nil, List.length_nil, List.flatten_cons, List.length_append, hy.1] at hlen
      omega
  | cons x xs ih =>
    rw [List.forall_mem_cons] at hx
    cases ys with
    | nil =>
      have hlen := congrArg List.length h
      rw [List.flatten_nil, List.length_nil, List.flatten_cons, List.length_append, hx.1] at hlen
      omega
    | cons y ys =>
      rw [List.forall_mem_cons] at hy
      rw [List.flatten_cons, List.flatten_cons] at h
      obtain ⟨rfl, hrest⟩ := List.append_inj h (hx.1.trans hy.1.symm)
      rw [ih hx.2 hy.2 hrest]

theorem length_flatten {size : Nat} {xs : List Bytes} (hx : ∀ x ∈ xs, x.length = size) :
    xs.flatten.length = size * xs.length := by
  induction xs with
  | nil => simp
  | cons x xs ih =>
    rw [List.forall_mem_cons] at hx
    rw [List.flatten_cons, List.length_append, hx.1, ih hx.2, List.length_cons, Nat.mul_succ, Nat.add_comm]

theorem toNat_inj {c c' : CompressionCodec} (h : c.toNat = c'.toNat) : c = c' := by
  cases c <;> cases c' <;> first | rfl | cases h

/-- What `submit` has checked of a request. -/
structure Valid (c : CacheCompatibility) (r : PrefillRequest) : Prop where
  deadline : 0 ≤ r.deadlineMs
  compatibility : r.compatibility = c
  tokens : r.tokenIds ≠ []
  hashes : r.blockHashes ≠ []
  size : c.blockSizeTokens ≠ 0
  count : (r.blockHashes.length : Int) = expectedBlocks r
  digests : ∀ h ∈ r.blockHashes, h.length = 32

theorem validate_ok {s : PrefillJobStore} {r : PrefillRequest} (h : s.validate r = .ok ()) :
    Valid s.cacheStore.compatibility r := by
  unfold validate invalid at h
  split at h <;> [cases h; skip]
  split at h <;> [cases h; (rename_i hdeadline)]
  split at h <;> [cases h; (rename_i hcompat)]
  split at h <;> [cases h; (rename_i hempty)]
  split at h <;> [cases h; skip]
  split at h <;> [cases h; (rename_i hsize)]
  split at h <;> [cases h; (rename_i hcount)]
  split at h <;> [cases h; (rename_i hdigests)]
  rw [not_or] at hempty
  rw [not_not] at hcompat
  refine ⟨by omega, hcompat, hempty.1, hempty.2, by rwa [← hcompat], not_not.mp hcount, fun x hx => ?_⟩
  by_contra hne
  exact hdigests (List.any_eq_true.mpr ⟨x, hx, decide_eq_true hne⟩)

/-- The fields of a request that its digest is to tell apart. -/
structure SameWork (r r' : PrefillRequest) : Prop where
  tokenIds : r'.tokenIds = r.tokenIds
  blockHashes : r'.blockHashes = r.blockHashes
  compression : r'.compression = r.compression
  deadlineMs : r'.deadlineMs = r.deadlineMs

/-- With one hash for every block, the lengths of tokens and hashes are tied together. -/
theorem tokens_length_eq {c : CacheCompatibility} {r r' : PrefillRequest} (hr : Valid c r) (hr' : Valid c r')
    (h : 4 * r.tokenIds.length + 32 * r.blockHashes.length = 4 * r'.tokenIds.length + 32 * r'.blockHashes.length) :
    r.tokenIds.length = r'.tokenIds.length := by
  have hcount := hr.count
  have hcount' := hr'.count
  unfold expectedBlocks at hcount hcount'
  rw [hr.compatibility] at hcount
  rw [hr'.compatibility] at hcount'
  have hpos := List.length_pos_of_ne_nil hr.hashes
  have hpos' := List.length_pos_of_ne_nil hr'.hashes
  have htok := List.length_pos_of_ne_nil hr.tokens
  have htok' := List.length_pos_of_ne_nil hr'.tokens
  rcases Int.lt_or_gt_of_ne hr.size with hneg | hsize
  · -- a negative block size is only met by one token
    have hone : ∀ n m : Nat, 0 < n → 0 < m →
        (m : Int) = Int.fdiv (n + c.blockSizeTokens - 1) c.blockSizeTokens → n = 1 := by
      intro n m hn hm hdiv
      obtain ⟨hmod, -, hle⟩ := (Int.fdiv_fmod_unique' hneg).mp ⟨hdiv.symm, rfl⟩
      have hprod : c.blockSizeTokens * m ≤ c.blockSizeTokens * 1 :=
        Int.mul_le_mul_of_nonpos_left (by omega) (by omega)
      omega
    rw [hone _ _ htok hpos hcount, hone _ _ htok' hpos' hcount']
  · -- more tokens have no fewer blocks
    have hmono : ∀ a b : Nat, a ≤ b → Int.fdiv (a + c.blockSizeTokens - 1) c.blockSizeTokens ≤
        Int.fdiv (b + c.blockSizeTokens - 1) c.blockSizeTokens := by
      intro a b hab
      rw [Int.fdiv_eq_ediv_of_nonneg _ (by omega), Int.fdiv_eq_ediv_of_nonneg _ (by omega)]
      exact Int.ediv_le_ediv hsize (by omega)
    rcases Nat.lt_trichotomy r.tokenIds.length r'.tokenIds.length with hlt | heq | hlt
    · have hle := hmono _ _ (Nat.le_of_lt hlt)
      omega
    · exact heq
    · have hle := hmono _ _ (Nat.le_of_lt hlt)
      omega

/-- The input of the digest can be cut up in one way. -/
theorem digestInput_inj {c : CacheCompatibility} {r r' : PrefillRequest} {d d' : Bytes} (hr : Valid c r) (hr' : Valid c r')
    (hd : digest r = .ok d) (hd' : digest r' = .ok d') (h : digestInput r = digestInput r') : SameWork r r' := by
  obtain ⟨tokens, htokens, hmax, -⟩ := digest_ok hd
  obtain ⟨tokens', htokens', hmax', -⟩ := digest_ok hd'
  unfold digestInput at h
  rw [htokens, htokens', hr.compatibility, hr'.compatibility] at h
  obtain ⟨h, hdeadline⟩ := List.append_inj' h (by rw [length_littleEndian, length_littleEndian])
  obtain ⟨h, hcodec⟩ := List.append_inj' h (by rw [length_littleEndian, length_littleEndian])
  rw [List.append_assoc, List.append_assoc] at h
  have hbody : tokens ++ r.blockHashes.flatten = tokens' ++ r'.blockHashes.flatten := List.append_cancel_left h
  have hlens := congrArg List.length hbody
  rw [List.length_append, List.length_append, length_encodeBlock htokens, length_encodeBlock htokens',
    length_flatten hr.digests, length_flatten hr'.digests] at hlens
  have hn := tokens_length_eq hr hr' hlens
  obtain ⟨rfl, hhashes⟩ := List.append_inj hbody (by rw [length_encodeBlock htokens, length_encodeBlock htokens', hn])
  have h8 : (256 : Nat) ^ 8 = 2 ^ 64 := by decide
  have hpos := hr.deadline
  have hpos' := hr'.deadline
  refine ⟨encodeBlock_inj htokens' htokens, (flatten_inj (by decide) hr.digests hr'.digests hhashes).symm, ?_, ?_⟩
  · refine (toNat_inj (littleEndian_inj ?_ ?_ hcodec)).symm
    · cases r.compression <;> decide
    · cases r'.compression <;> decide
  · have hms := littleEndian_inj (by omega) (by omega) hdeadline
    omega

/-! ### What a run keeps -/

variable {s s' : PrefillJobStore} {C : EngineContract}

theorem gcLocked_cacheStore (s : PrefillJobStore) (now : Int) : (s.gcLocked now).cacheStore = s.cacheStore := by
  have hdrop : ∀ (t : PrefillJobStore) (dropped : List PrefillJob), (t.dropJobs dropped).cacheStore = t.cacheStore := by
    intro t dropped
    induction dropped generalizing t with
    | nil => rfl
    | cons job dropped ih => exact ih (t.dropJob job)
  unfold gcLocked
  dsimp only
  rw [hdrop, hdrop]

/-- The cache store is what some calls have made of it. -/
def CacheRun (c c' : PrefixCacheStore) : Prop := ∃ run, c' = Machine.final PrefixCacheStore.step c run

theorem CacheRun.refl (c : PrefixCacheStore) : CacheRun c c := ⟨[], rfl⟩

theorem CacheRun.trans {c c' c'' : PrefixCacheStore} (h : CacheRun c c') (h' : CacheRun c' c'') : CacheRun c c'' := by
  obtain ⟨run, rfl⟩ := h
  obtain ⟨run', rfl⟩ := h'
  exact ⟨run ++ run', (Machine.final_append _ _ _ _).symm⟩

/-- A call of a job on the cache store. -/
theorem cacheRun_call {α : Type} {x : CacheProc α} {f : α → CacheReply} {e : CacheEvent}
    (h : PrefixCacheStore.perform e = x >>= fun a => pure (f a)) (c : PrefixCacheStore) : CacheRun c (x.run c).2 := by
  refine ⟨[e], ?_⟩
  show (x.run c).2 = ((PrefixCacheStore.perform e).run c).2
  rw [h, Proc.run_map_snd]

theorem cacheRun_release (id : String) (c : PrefixCacheStore) :
    CacheRun c ((PrefixCacheStore.releaseReservation id).run c).2 :=
  cacheRun_call (e := .releaseReservation id) rfl c

theorem cacheRun_advance (s : PrefillJobStore) (job : PrefillJob) (d : Draw) :
    CacheRun s.cacheStore (s.advance job d).cacheStore := by
  unfold advance
  cases job.task with
  | starting =>
    dsimp only
    split
    · exact cacheRun_release job.jobId s.cacheStore
    · exact CacheRun.refl _
  | reserving =>
    dsimp only
    split
    · exact CacheRun.refl _
    · rename_i bytes _
      exact cacheRun_call (e := .reserve job.jobId bytes d.now) rfl s.cacheStore
  | publishing =>
    exact cacheRun_call (e := .publishAndLease job.blocks job.blockHashes job.jobId PrefillJob.leaseTime d.now d.leaseId) rfl
      s.cacheStore
  | releasing => exact cacheRun_release job.jobId s.cacheStore
  | _ => exact CacheRun.refl _

theorem step_submit (s : PrefillJobStore) (r : PrefillRequest) (gcNow now : Int) (jobId : String) :
    step s (.submit r gcNow now jobId) =
      (((submit r gcNow now jobId).run s).1.map .id, ((submit r gcNow now jobId).run s).2) := Proc.run_map _ _ _

theorem cacheRun_step (s : PrefillJobStore) (e : JobEvent) : CacheRun s.cacheStore (step s e).2.cacheStore := by
  have hgc : ∀ now, CacheRun s.cacheStore (s.gcLocked now).cacheStore := fun now => by
    rw [gcLocked_cacheStore]
    exact CacheRun.refl _
  cases e with
  | submit r gcNow now jobId =>
    rw [step_submit]
    have hout := run_submit s r gcNow now jobId
    generalize (submit r gcNow now jobId).run s = out at hout ⊢
    cases hout with
    | refused e => exact CacheRun.refl _
    | rejected e => exact hgc gcNow
    | found hkey hjob hdigest => exact hgc gcNow
    | made hkey hdigest hroom => exact hgc gcNow
  | get id tenantId now =>
    unfold step perform
    rw [Proc.run_map_snd]
    rcases run_get s id tenantId now with ⟨e, hget⟩ | ⟨job, -, hget⟩
    · rw [hget]
      exact hgc now
    · rw [hget]
      exact hgc now
  | cancel id tenantId gcNow now =>
    unfold step perform
    rw [Proc.run_map_snd]
    unfold cancel
    rcases run_get s id tenantId gcNow with ⟨e, hget⟩ | ⟨job, -, hget⟩
    · rw [Proc.run_bind_error hget]
      exact hgc gcNow
    · rw [Proc.run_bind_ok hget]
      split
      · exact hgc gcNow
      · split
        · exact (hgc gcNow).trans (cacheRun_release job.jobId _)
        · exact hgc gcNow
  | progress id n =>
    unfold step perform
    rw [Proc.run_map_snd]
    unfold updateJobProgress
    rw [Proc.run_get_bind]
    cases s.job? id with
    | none => exact CacheRun.refl _
    | some job => exact CacheRun.refl _
  | timer id =>
    show CacheRun _ (s.fireTimer id).cacheStore
    unfold fireTimer
    cases s.objects.get? id with
    | none => exact CacheRun.refl _
    | some job =>
      dsimp only
      split
      · exact CacheRun.refl _
      · exact CacheRun.refl _
  | run id d =>
    unfold step perform
    rw [Proc.run_modify_bind]
    cases s.objects.get? id with
    | none => exact CacheRun.refl _
    | some job => exact cacheRun_advance s job d
  | cache e => exact ⟨[e], rfl⟩

/-- The job of every object has the digest it was made with. -/
def SameDigests (s s' : PrefillJobStore) : Prop :=
  ∀ id job, s.objects.get? id = some job →
    ∃ job', s'.objects.get? id = some job' ∧ job'.requestDigest = job.requestDigest

theorem sameDigests_of_objects (h : s'.objects = s.objects) : SameDigests s s' := fun id job hjob =>
  ⟨job, by rw [h]; exact hjob, rfl⟩

theorem Moves.sameDigests {starts : String → Prop} {timed : Prop} (h : Moves starts timed s s') : SameDigests s s' := by
  intro id job hjob
  have hrel := h.objects id
  rw [hjob] at hrel
  generalize s'.objects.get? id = o at hrel ⊢
  cases hrel with
  | some hproceeds => exact ⟨_, rfl, hproceeds.digest⟩

/-- A new object leaves the others. -/
theorem sameDigests_enqueue {job : PrefillJob} (hfresh : s.objects.get? job.jobId = none) : SameDigests s (s.enqueue job) := by
  intro id other hother
  have hne : id ≠ job.jobId := by
    rintro rfl
    rw [hfresh] at hother
    cases hother
  exact ⟨other, (Dict.get?_set_ne _ hne).trans hother, rfl⟩

theorem step_sameDigests (hs : s.Inv C) {e : JobEvent} (he : s.Allowed C e) :
    SameDigests s (step s e).2 ∧ (step s e).2.limits = s.limits := by
  by_cases hsubmit : ∃ r gcNow now jobId, e = .submit r gcNow now jobId
  · obtain ⟨r, gcNow, now, jobId, rfl⟩ := hsubmit
    obtain ⟨-, hobj, -⟩ := gcLocked_keeps hs gcNow
    have hlimits := gcLocked_limits s gcNow
    rw [step_submit]
    have hout := run_submit s r gcNow now jobId
    generalize (submit r gcNow now jobId).run s = out at hout ⊢
    cases hout with
    | refused e => exact ⟨sameDigests_of_objects rfl, rfl⟩
    | rejected e => exact ⟨sameDigests_of_objects hobj, hlimits⟩
    | found hkey hjob hdigest => exact ⟨sameDigests_of_objects hobj, hlimits⟩
    | made hkey hdigest hroom =>
      refine ⟨fun id job hjob => ?_, hlimits⟩
      rw [← hobj] at hjob
      exact sameDigests_enqueue (by rw [hobj]; exact he) id job hjob
  · have hmoves := step_moves hs he fun r gcNow now jobId heq => hsubmit ⟨r, gcNow, now, jobId, heq⟩
    exact ⟨hmoves.sameDigests, hmoves.limits⟩

/-- What holds of every store of a worker. -/
structure Serves (limits : WorkerLimits) (c : CacheCompatibility) (s : PrefillJobStore) : Prop where
  inv : s.Inv fun _ _ _ => True
  limits : s.limits = limits
  compatibility : s.cacheStore.compatibility = c

theorem serves_final {c : CacheCompatibility} {n : Int} {nodeId : String} {cache : PrefixCacheStore}
    {limits : WorkerLimits} {s₀ : PrefillJobStore} (hcache : PrefixCacheStore.create c n nodeId = .ok cache)
    (hs₀ : create limits cache = .ok s₀) {es : List JobEvent}
    (hall : Machine.AllSteps step (Allowed fun _ _ _ => True) s₀ es) :
    Serves limits c (Machine.final step s₀ es) := by
  have hempty : cache.reservations = Dict.empty := by
    obtain ⟨-, rfl⟩ := PrefixCacheStore.create_ok hcache
    rfl
  have hinit : s₀.Inv (fun _ _ _ => True) ∧ s₀.limits = limits ∧ CacheRun cache s₀.cacheStore := by
    refine ⟨inv_create hempty hs₀, ?_⟩
    obtain ⟨-, -, rfl⟩ := create_ok hs₀
    exact ⟨rfl, CacheRun.refl _⟩
  have hfinal := Machine.final_of_steps
    (I := fun t => t.Inv (fun _ _ _ => True) ∧ t.limits = limits ∧ CacheRun cache t.cacheStore)
    (fun t e ht he => ⟨(step_keeps ht.1 he).1, (step_sameDigests ht.1 he).2.trans ht.2.1,
      ht.2.2.trans (cacheRun_step t e)⟩) hinit hall
  obtain ⟨hinv, hlimits, run, hrun⟩ := hfinal
  refine ⟨hinv, hlimits, ?_⟩
  rw [hrun]
  exact (PrefixCacheStore.final_sound hcache run).2

/-- What became of the jobs in a run. -/
theorem final_sameDigests (hs : s.Inv C) {es : List JobEvent} (hall : Machine.AllSteps step (Allowed C) s es) :
    SameDigests s (Machine.final step s es) := by
  refine (Machine.final_of_steps (I := fun t => t.Inv C ∧ SameDigests s t) (fun t e ht he => ?_)
    ⟨hs, sameDigests_of_objects rfl⟩ hall).2
  refine ⟨(step_keeps ht.1 he).1, fun id job hjob => ?_⟩
  obtain ⟨job₁, hjob₁, hd₁⟩ := ht.2 id job hjob
  obtain ⟨job₂, hjob₂, hd₂⟩ := (step_sameDigests ht.1 he).1 id job₁ hjob₁
  exact ⟨job₂, hjob₂, hd₂.trans hd₁⟩

/-! ### The second submit -/

/-- A submit that returns has made or found a job with the key and the digest of its request. -/
theorem submit_returned (hs : s.Inv C) {r : PrefillRequest} {gcNow now : Int} {jobId id : String}
    (h : (step s (.submit r gcNow now jobId)).1 = .ok (.id id)) :
    s.validate r = .ok () ∧ ∃ job, (step s (.submit r gcNow now jobId)).2.objects.get? id = some job ∧
      (job.tenantId, job.requestId) = (r.tenantId, r.requestId) ∧ digest r = .ok job.requestDigest := by
  constructor
  · unfold step perform submit at h
    rw [Proc.run_bind, Proc.run_get_bind] at h
    rcases hvalid : s.validate r with e | u
    · rw [hvalid] at h
      cases h
    · rfl
  · obtain ⟨hgc, -, -⟩ := gcLocked_keeps hs gcNow
    rw [step_submit] at h ⊢
    have hout := run_submit s r gcNow now jobId
    generalize (submit r gcNow now jobId).run s = out at hout h ⊢
    cases hout with
    | refused e => cases h
    | rejected e => cases h
    | @found id' job hkey hjob hdigest =>
      obtain rfl : id' = id := JobReply.id.inj (Except.ok.inj h)
      obtain ⟨hid, hstored⟩ := stored_of_job? hgc hjob
      obtain ⟨-, job₁, hjob₁, hkey₁⟩ := hgc.index _ _ hkey
      rw [hid, hjob₁] at hstored
      obtain rfl := Option.some.inj hstored
      exact ⟨job₁, hjob₁, hkey₁, hdigest⟩
    | made hkey hdigest hroom =>
      obtain rfl : jobId = id := JobReply.id.inj (Except.ok.inj h)
      exact ⟨_, Dict.get?_set_self _ _ _, rfl, hdigest⟩

/-- A submit whose key has a job in the table returns this job or is refused, and makes no other. -/
theorem submit_known (hs : s.Inv C) {r : PrefillRequest} {gcNow : Int} {job : PrefillJob}
    (hmem : job.jobId ∈ (s.gcLocked gcNow).jobs) (hjob : s.objects.get? job.jobId = some job)
    (hkey : (r.tenantId, r.requestId) = (job.tenantId, job.requestId)) (now : Int) (jobId : String) :
    (step s (.submit r gcNow now jobId)).2.objects = s.objects ∧
    (s.validate r = .ok () → digest r = .ok job.requestDigest →
      (step s (.submit r gcNow now jobId)).1 = .ok (.id job.jobId)) ∧
    ((step s (.submit r gcNow now jobId)).1 = .ok (.id job.jobId) ∧ s.validate r = .ok () ∧
        digest r = .ok job.requestDigest ∨
      ∃ e, (step s (.submit r gcNow now jobId)).1 = .error e) := by
  obtain ⟨hgc, hobj, -⟩ := gcLocked_keeps hs gcNow
  have hindexed : (s.gcLocked gcNow).requests.get? (r.tenantId, r.requestId) = some job.jobId := by
    obtain ⟨job₁, hjob₁, hreq⟩ := hgc.table _ hmem
    rw [hobj, hjob] at hjob₁
    obtain rfl := Option.some.inj hjob₁
    rw [hkey]
    exact hreq
  have hfound : (s.gcLocked gcNow).job? job.jobId = some job := job?_of_mem hmem (by rw [hobj]; exact hjob)
  rw [step_submit]
  unfold submit
  rw [Proc.run_get_bind]
  rcases s.validate r with e | u
  · exact ⟨rfl, (fun h => by cases h), Or.inr ⟨e, rfl⟩⟩
  · dsimp only
    rcases hdigest : digest r with e | requestDigest
    · exact ⟨rfl, (fun _ h => by cases h), Or.inr ⟨e, rfl⟩⟩
    · dsimp only
      unfold submitLocked
      rw [Proc.run_modify_bind, Proc.run_get_bind, hindexed]
      dsimp only
      rw [hfound]
      dsimp only
      by_cases hsame : job.requestDigest = requestDigest
      · rw [if_neg (not_not.mpr hsame)]
        exact ⟨hobj, fun _ _ => rfl, Or.inl ⟨rfl, rfl, by rw [hsame]⟩⟩
      · rw [if_pos hsame]
        exact ⟨hobj, (fun _ h => absurd (Except.ok.inj h).symm hsame), Or.inr ⟨_, rfl⟩⟩

/-- Submitting twice, over every interleaving.  As long as the first job is in the table, a second submit under its key
makes no job: it returns the first one when tokens, hashes, compression and deadline are the same, and is refused
otherwise.  The first job is in the table until its task has ended. -/
theorem submit_twice {c : CacheCompatibility} {n : Int} {nodeId : String} {cache : PrefixCacheStore}
    {limits : WorkerLimits} {s₀ : PrefillJobStore} (hcache : PrefixCacheStore.create c n nodeId = .ok cache)
    (hs₀ : create limits cache = .ok s₀) (es es' : List JobEvent) (r r' : PrefillRequest)
    (gcNow now gcNow' now' : Int) (jobId jobId' id : String)
    (hall : Machine.AllSteps step (Allowed fun _ _ _ => True) s₀ (es ++ .submit r gcNow now jobId :: es'))
    (hfirst : (step (Machine.final step s₀ es) (.submit r gcNow now jobId)).1 = .ok (.id id))
    (hkey : (r'.tenantId, r'.requestId) = (r.tenantId, r.requestId))
    (hsha : Sha256.sha256 (digestInput r') = Sha256.sha256 (digestInput r) → digestInput r' = digestInput r) :
    let s := Machine.final step s₀ (es ++ .submit r gcNow now jobId :: es')
    let second := step s (.submit r' gcNow' now' jobId')
    (id ∈ (s.gcLocked gcNow').jobs →
      second.2.objects = s.objects ∧
        (SameWork r r' → r'.compatibility = r.compatibility → second.1 = .ok (.id id)) ∧
        (¬ SameWork r r' → ∃ e, second.1 = .error e)) ∧
    ∀ job, s.objects.get? id = some job → ¬ job.Ended → id ∈ (s.gcLocked gcNow').jobs := by
  intro s second
  obtain ⟨hbefore, hsubmit, hafter⟩ := (Machine.allSteps_append _ _ _ _ _).mp hall
  have hs₁ := serves_final hcache hs₀ hbefore
  have hs : Serves limits c s := serves_final hcache hs₀ hall
  obtain ⟨hvalid, job₀, hjob₀, hkey₀, hdigest⟩ := submit_returned hs₁.inv hfirst
  -- the job of the first submit is still known
  have hs₂ := (step_keeps hs₁.inv hsubmit).1
  have hsplit : s = Machine.final step (step (Machine.final step s₀ es) (.submit r gcNow now jobId)).2 es' :=
    Machine.final_append _ _ _ _
  obtain ⟨job, hjob, hfollows⟩ := (final_keeps hs₂ hafter).2 id job₀ hjob₀
  obtain ⟨job₂, hjob₂, hsame⟩ := final_sameDigests hs₂ hafter id job₀ hjob₀
  rw [hjob] at hjob₂
  obtain rfl := Option.some.inj hjob₂
  rw [← hsplit] at hjob
  have hid := hs.inv.jobId id job hjob
  subst hid
  have hkey' : (r'.tenantId, r'.requestId) = (job.tenantId, job.requestId) := by rw [hkey, hfollows.key, hkey₀]
  rw [← hsame] at hdigest
  constructor
  · intro hmem
    obtain ⟨hobj, hreturns, hcases⟩ := submit_known hs.inv hmem hjob hkey' now' jobId'
    refine ⟨hobj, fun hwork hcompat => ?_, fun hdiffer => ?_⟩
    · -- the checks and the digest are those of the first
      refine hreturns ?_ ?_
      · have htenant := (Prod.mk.inj hkey).1
        have hrequest := (Prod.mk.inj hkey).2
        unfold validate expectedBlocks at hvalid ⊢
        rw [hs₁.limits, hs₁.compatibility] at hvalid
        rw [hs.limits, hs.compatibility, hwork.tokenIds, hwork.blockHashes, hwork.deadlineMs, hcompat, htenant, hrequest]
        exact hvalid
      · unfold digest at hdigest ⊢
        rw [hwork.tokenIds, hwork.blockHashes, hwork.deadlineMs, hwork.compression, hcompat]
        exact hdigest
    · rcases hcases with ⟨-, hvalid', hdigest'⟩ | herr
      · have hv := validate_ok hvalid
        have hv' := validate_ok hvalid'
        rw [hs₁.compatibility] at hv
        rw [hs.compatibility] at hv'
        obtain ⟨-, -, -, hsum⟩ := digest_ok hdigest
        obtain ⟨-, -, -, hsum'⟩ := digest_ok hdigest'
        have hinput := hsha (hsum'.symm.trans hsum)
        exact absurd (digestInput_inj hv hv' hdigest hdigest' hinput.symm) hdiffer
      · exact herr
  · intro job' hjob' hlive
    rw [hjob] at hjob'
    obtain rfl := Option.some.inj hjob'
    obtain ⟨hgc, hobj, -⟩ := gcLocked_keeps hs.inv gcNow'
    exact (hgc.job _ job (by rw [hobj]; exact hjob)).kept hlive

/-- The job runs to its end and is collected; the same request then makes a second job. -/
theorem resubmitted_after_collection :
    let s := Machine.final step exampleWorker (exampleRun (.returned [exampleSnapshot]) 8)
    let second := step s (.submit exampleRequest 600003 600003 "k")
    (step exampleWorker (.submit exampleRequest 1 1 "j")).1 = .ok (.id "j") ∧ second.1 = .ok (.id "k") ∧
      (second.2.objects.get? "k").map (fun job => (job.state, job.tokenIds)) = some (.queued, [1]) := by
  refine ⟨?_, ?_, ?_⟩
  · decide +kernel
  · decide +kernel
  · decide +kernel

/-- A retry while the job is running, and one with other tokens. -/
theorem submit_twice_running :
    let s := Machine.final step exampleWorker [.submit exampleRequest 1 1 "j", .run "j" { now := 1 }]
    (step s (.submit exampleRequest 2 2 "k")).1 = .ok (.id "j") ∧
      ∃ e, (step s (.submit { exampleRequest with tokenIds := [2] } 2 2 "k")).1 = .error e := by
  have hall : Machine.AllSteps step (Allowed fun _ _ _ => True) exampleWorker
      ([] ++ .submit exampleRequest 1 1 "j" :: [.run "j" { now := 1 }]) :=
    ⟨rfl, fun _ _ _ _ _ _ _ => trivial, trivial⟩
  have hmem : "j" ∈ ((Machine.final step exampleWorker [.submit exampleRequest 1 1 "j", .run "j" { now := 1 }]).gcLocked
      2).jobs := by decide +kernel
  have hcache : PrefixCacheStore.create { modelId := "m" } 100 "n" = .ok exampleCache := rfl
  have hworker : create {} exampleCache = .ok exampleWorker := rfl
  have hfirst : (step exampleWorker (.submit exampleRequest 1 1 "j")).1 = .ok (.id "j") := by decide +kernel
  constructor
  · have hsame := submit_twice hcache hworker [] [.run "j" { now := 1 }] exampleRequest exampleRequest 1 1 2 2 "j" "k" "j"
      hall hfirst rfl (fun _ => rfl)
    exact (hsame.1 hmem).2.1 ⟨rfl, rfl, rfl, rfl⟩ rfl
  · have hother := submit_twice hcache hworker [] [.run "j" { now := 1 }] exampleRequest
      { exampleRequest with tokenIds := [2] } 1 1 2 2 "j" "k" "j" hall hfirst rfl
      (fun h => absurd h (by decide +kernel))
    exact (hother.1 hmem).2.2 fun h => absurd h.tokenIds (by decide)

end PrefillJobStore

end KakeyaEngine
