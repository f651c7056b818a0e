import KakeyaEngine.PrefixCache.Store
import KakeyaEngine.Proto

/-!
# Prefill jobs

`PrefillJobStore` queues prefill jobs in front of a compute engine.  A job is submitted under a tenant and a request id,
runs on a thread of its own, reserves room in the prefix cache, computes, publishes the snapshot with a lease, and is
collected some time after it has finished.  It can be cancelled at any moment, by a call or by its deadline.

A run is a sequence of events, each of which is atomic in the source: the critical sections of `submit`, `get`, `cancel`
and of the progress callback, the firing of a deadline timer, a call on the cache store from elsewhere, and the steps of
the task `_run`, which is cut wherever another thread may come in between.  `Task` is the point at which a task stands.
Clock readings (in milliseconds), fresh ids and what the engine does are inputs of the events.  The measured times and
rates, and the shutdown of the executor, are left out.
-/

namespace KakeyaEngine

namespace PrefillJobState

/-- The states that `cancel` refuses. -/
def Terminal (st : PrefillJobState) : Prop := st = completed ∨ st = failed ∨ st = cancelled

instance (st : PrefillJobState) : Decidable st.Terminal := inferInstanceAs (Decidable (_ ∨ _ ∨ _))

end PrefillJobState

/-- Where the task of a job stands: its future is pending, was cancelled before it ran, or runs `_run`, named by what
comes next. -/
inductive Task
  | pending
  | cancelled
  | starting
  | checkingDeadline
  | reserving
  | computing
  | computed
  | publishing
  | published
  | completing
  | interrupted (message : String)
  | failing (reason : String)
  | releasing
  | finishing
  | done
deriving DecidableEq

/-- `PrefillJob`.  `task` stands for its future, and `blocks` and `lease` are the local variables of `_run`. -/
structure PrefillJob where
  jobId : String
  requestId : String
  tenantId : String
  tokenIds : List Token
  blockHashes : List Bytes
  compression : CompressionCodec
  state : PrefillJobState := .queued
  tokensComputed : Int := 0
  leaseId : String := ""
  blockHash : Bytes := []
  payloadSha256 : Bytes := []
  transferBytes : Nat := 0
  failureReason : String := ""
  finishedAt : Int := 0
  cancelled : Bool := false
  requestDigest : Bytes
  deadlineAt : Int := 0
  timer : Bool := false
  task : Task := .pending
  blocks : List CacheBlock := []
  lease : Option PrefixLease := none
deriving DecidableEq

/-- The limits of a worker. -/
structure WorkerLimits where
  maxConcurrentJobs : Int := 1
  maxJobs : Int := 128
  completedTtl : Int := 600000
  maxPromptTokens : Int := 131072
  estimatedSnapshotBytesPerToken : Int := 16
  maxRetainedTokens : Int := 0
deriving DecidableEq

/-- `PrefillJobStore`.  All jobs made so far stand in `objects`; `jobs` are the ids of those in the table. -/
structure PrefillJobStore where
  limits : WorkerLimits
  cacheStore : PrefixCacheStore
  objects : Dict String PrefillJob := Dict.empty
  jobs : List String := []
  requests : Dict (String × String) String := Dict.empty

/-- The exceptions of the job store. -/
inductive JobError
  | cache (e : CacheError)
  | zeroDivisionError
deriving DecidableEq

/-- A procedure on the job store. -/
abbrev JobProc (α : Type) : Type := Proc PrefillJobStore JobError α

/-- What a client submits. -/
structure PrefillRequest where
  requestId : String
  tenantId : String
  tokenIds : List Token
  blockHashes : List Bytes
  compatibility : CacheCompatibility
  compression : CompressionCodec
  deadlineMs : Int := 0
deriving DecidableEq

/-- `estimate_final_snapshot_bytes`. -/
def estimateFinalSnapshotBytes (tokenCount : Int) (c : CacheCompatibility) (bytesPerToken maxRetainedTokens : Int) :
    Except CacheError Int :=
  if tokenCount ≤ 0 ∨ bytesPerToken ≤ 0 then .error (.valueError "token_count and bytes_per_token must be > 0")
  else
    let limit := if maxRetainedTokens ≤ 0 ∧ 0 < c.windowSize then c.sinkSize + c.windowSize else maxRetainedTokens
    let retained := if 0 < limit then min tokenCount limit else tokenCount
    .ok (retained * bytesPerToken)

namespace PrefillJobStore

/-- `PrefillJobStore.__init__`. -/
def create (limits : WorkerLimits) (cacheStore : PrefixCacheStore) : Except JobError PrefillJobStore :=
  if limits.maxConcurrentJobs ≤ 0 ∨ limits.maxJobs ≤ 0 ∨ limits.completedTtl ≤ 0 ∨ limits.maxPromptTokens ≤ 0 ∨
      limits.estimatedSnapshotBytesPerToken ≤ 0 then
    .error (.cache (.valueError "worker limits must be > 0"))
  else if limits.maxRetainedTokens < 0 then .error (.cache (.valueError "max_retained_tokens must be >= 0"))
  else .ok { limits := limits, cacheStore := cacheStore }

/-! ### The table -/

/-- The job in the table under an id. -/
def job? (s : PrefillJobStore) (id : String) : Option PrefillJob := if id ∈ s.jobs then s.objects.get? id else none

/-- The jobs in the table, oldest first. -/
def keptJobs (s : PrefillJobStore) : List PrefillJob := s.jobs.filterMap s.objects.get?

/-- Replaces a job by what became of it. -/
def setJob (job : PrefillJob) (s : PrefillJobStore) : PrefillJobStore :=
  { s with objects := s.objects.set job.jobId job }

/-- Takes a job out of the table and the index. -/
def dropJob (job : PrefillJob) (s : PrefillJobStore) : PrefillJobStore :=
  { s with
    jobs := s.jobs.filter fun id => decide (id ≠ job.jobId),
    requests := s.requests.erase (job.tenantId, job.requestId) }

/-- Takes several jobs out. -/
def dropJobs (s : PrefillJobStore) (dropped : List PrefillJob) : PrefillJobStore :=
  dropped.foldl (fun s job => s.dropJob job) s

/-- The jobs that have been finished for longer than the time they are kept. -/
def expiredJobs (now : Int) (s : PrefillJobStore) : List PrefillJob :=
  s.keptJobs.filter fun job => decide (job.finishedAt ≠ 0 ∧ job.finishedAt < now - s.limits.completedTtl)

/-- The finished jobs beyond twice the size of the queue, the first to finish first. -/
def overflowJobs (s : PrefillJobStore) : List PrefillJob :=
  let overflow := (s.jobs.length : Int) - s.limits.maxJobs * 2
  if 0 < overflow then
    ((s.keptJobs.filter fun job => decide (job.finishedAt ≠ 0)).mergeSort
      fun a b => decide (a.finishedAt ≤ b.finishedAt)).take overflow.toNat
  else []

/-- `_gc_locked`. -/
def gcLocked (now : Int) (s : PrefillJobStore) : PrefillJobStore :=
  let s := s.dropJobs (s.expiredJobs now)
  s.dropJobs s.overflowJobs

/-! ### Submitting -/

/-- The bytes of a number, the lowest first. -/
def littleEndian (width n : Nat) : Bytes := (List.range width).map fun i => UInt8.ofNat (n / 256 ^ i)

/-- A `ValueError`. -/
def invalid {α : Type} (message : String) : Except JobError α := .error (.cache (.valueError message))

/-- The number of blocks that a request must name. -/
def expectedBlocks (r : PrefillRequest) : Int :=
  Int.fdiv (r.tokenIds.length + r.compatibility.blockSizeTokens - 1) r.compatibility.blockSizeTokens

/-- The checks of `submit` before the lock. -/
def validate (s : PrefillJobStore) (r : PrefillRequest) : Except JobError Unit :=
  if r.requestId = "" ∨ r.tenantId = "" then invalid "request_id and tenant_id must be non-empty"
  else if r.deadlineMs < 0 then invalid "deadline_ms must be >= 0"
  else if r.compatibility ≠ s.cacheStore.compatibility then invalid "prefill worker compatibility mismatch"
  else if r.tokenIds = [] ∨ r.blockHashes = [] then invalid "token_ids and block_hashes must be non-empty"
  else if s.limits.maxPromptTokens < r.tokenIds.length then invalid "prefill prompt exceeds worker token limit"
  else if r.compatibility.blockSizeTokens = 0 then .error .zeroDivisionError
  else if (r.blockHashes.length : Int) ≠ expectedBlocks r then
    invalid ("expected " ++ toString (expectedBlocks r) ++ " block hashes, got " ++ toString r.blockHashes.length)
  else if r.blockHashes.any fun h => decide (h.length ≠ 32) then
    invalid "every prefill block hash must be SHA-256 (32 bytes)"
  else .ok ()

/-- The digest under which a request is recognised. -/
def digest (r : PrefillRequest) : Except JobError Bytes :=
  match encodeBlock r.tokenIds with
  | .error e => .error (.cache e)
  | .ok tokens =>
    if 2 ^ 64 ≤ r.deadlineMs then .error (.cache (.overflowError "int too big to convert"))
    else
      .ok (Sha256.sha256 (compatibilityFingerprint r.compatibility ++ tokens ++ r.blockHashes.flatten ++
        littleEndian 2 r.compression.toNat ++ littleEndian 8 r.deadlineMs.toNat))

/-- The bytes that a job reserves. -/
def estimate (s : PrefillJobStore) (tokenIds : List Token) : Except CacheError Int :=
  estimateFinalSnapshotBytes tokenIds.length s.cacheStore.compatibility s.limits.estimatedSnapshotBytesPerToken
    s.limits.maxRetainedTokens

/-- The jobs that are queued or running. -/
def activeJobs (s : PrefillJobStore) : List PrefillJob :=
  s.keptJobs.filter fun job => decide (job.state = .queued ∨ job.state = .running)

/-- The job of a request. -/
def newJob (r : PrefillRequest) (requestDigest : Bytes) (now : Int) (jobId : String) : PrefillJob :=
  { jobId := jobId, requestId := r.requestId, tenantId := r.tenantId, tokenIds := r.tokenIds,
    blockHashes := r.blockHashes, compression := r.compression, requestDigest := requestDigest,
    deadlineAt := if 0 < r.deadlineMs then now + r.deadlineMs else 0 }

/-- Stores a new job, whose task is handed to the executor. -/
def enqueue (job : PrefillJob) (s : PrefillJobStore) : PrefillJobStore :=
  { s with
    objects := s.objects.set job.jobId job, jobs := s.jobs ++ [job.jobId],
    requests := s.requests.set (job.tenantId, job.requestId) job.jobId }

/-- `submit` once the request has no job: the queue and the estimate are checked. -/
def accept (r : PrefillRequest) (requestDigest : Bytes) (now : Int) (jobId : String) : JobProc String := do
  let s ← Proc.get
  if s.limits.maxJobs ≤ s.activeJobs.length then Proc.ofExcept (invalid "prefill worker job queue is full")
  else
    match s.estimate r.tokenIds with
    | .error e => Proc.raise (.cache e)
    | .ok bytes =>
      if s.cacheStore.maxBytes < bytes then
        Proc.ofExcept (invalid ("estimated final snapshot " ++ toString bytes ++ " exceeds cache capacity " ++
          toString s.cacheStore.maxBytes))
      else do
        Proc.modify (enqueue (newJob r requestDigest now jobId))
        pure jobId

/-- The critical section of `submit`: the job of the request, or a new one. -/
def submitLocked (r : PrefillRequest) (requestDigest : Bytes) (gcNow now : Int) (jobId : String) : JobProc String := do
  Proc.modify (gcLocked gcNow)
  let s ← Proc.get
  match s.requests.get? (r.tenantId, r.requestId) with
  | none => accept r requestDigest now jobId
  | some existingId =>
    match s.job? existingId with
    | none => Proc.raise (.cache (.keyError existingId))
    | some existing =>
      if existing.requestDigest ≠ requestDigest then
        Proc.ofExcept (invalid "idempotency key reused with different prefill request")
      else pure existingId

/-- `submit`: the id of the job. -/
def submit (r : PrefillRequest) (gcNow now : Int) (jobId : String) : JobProc String := do
  let s ← Proc.get
  match s.validate r with
  | .error e => Proc.raise e
  | .ok () =>
    match digest r with
    | .error e => Proc.raise e
    | .ok requestDigest => submitLocked r requestDigest gcNow now jobId

/-! ### Asking and cancelling -/

/-- `get`. -/
def get (id tenantId : String) (now : Int) : JobProc PrefillJob := do
  Proc.modify (gcLocked now)
  let s ← Proc.get
  match s.job? id with
  | none => Proc.raise (.cache (.keyError id))
  | some job => if job.tenantId ≠ tenantId then Proc.raise (.cache (.keyError id)) else pure job

/-- `future.cancel()`: a task that has not started is cancelled. -/
def cancelFuture (job : PrefillJob) : Bool := decide (job.task = .pending ∨ job.task = .cancelled)

/-- A job whose task never starts. -/
def cancelQueued (now : Int) (job : PrefillJob) : PrefillJob :=
  { job with cancelled := true, state := .cancelled, finishedAt := now, task := .cancelled }

/-- Runs a call on the cache store, whatever it returns or raises. -/
def onCache {α : Type} (x : CacheProc α) (s : PrefillJobStore) : PrefillJobStore :=
  { s with cacheStore := (x.run s.cacheStore).2 }

/-- `cancel`. -/
def cancel (id tenantId : String) (gcNow now : Int) : JobProc Bool := do
  let job ← get id tenantId gcNow
  if job.state.Terminal then pure false
  else if cancelFuture job then do
    Proc.modify (setJob (cancelQueued now job))
    Proc.modify (onCache (PrefixCacheStore.releaseReservation job.jobId))
    pure true
  else do
    Proc.modify (setJob { job with cancelled := true })
    pure true

/-- `_update_job_progress`. -/
def updateJobProgress (id : String) (tokenCount : Int) : JobProc Unit := do
  let s ← Proc.get
  match s.job? id with
  | none => Proc.raise (.cache (.keyError id))
  | some job =>
    Proc.modify (setJob { job with tokensComputed := min job.tokenIds.length (max job.tokensComputed tokenCount) })

end PrefillJobStore

/-! ### The task of a job -/

/-- What the engine does: it returns snapshots, or raises. -/
inductive EngineOutcome
  | returned (blocks : List CacheBlock)
  | interrupted (message : String)
  | raised (reason : String)
deriving DecidableEq

/-- What a step of a task may draw: the time, an id for a lease, and what the engine does. -/
structure Draw where
  now : Int := 0
  leaseId : String := ""
  outcome : EngineOutcome := .returned []
deriving DecidableEq

/-- The type and message of an exception, as the handler of `_run` writes them. -/
def CacheError.describe : CacheError → String
  | .valueError message => "ValueError: " ++ message
  | .keyError message => "KeyError: '" ++ message ++ "'"
  | .indexError => "IndexError: tuple index out of range"
  | .overflowError message => "OverflowError: " ++ message

namespace PrefillJob

/-- The message of a cancelled job. -/
def cancelMessage : String := "prefill job cancelled"

/-- `DEFAULT_LEASE_SECONDS`, in milliseconds. -/
def leaseTime : Int := 30000

/-- The first critical section of `_run`; `kept` is whether the job is in the table. -/
def start (kept : Bool) (now : Int) (job : PrefillJob) : PrefillJob :=
  if kept = false then { job with task := .done }
  else if job.cancelled then { job with state := .cancelled, finishedAt := now, task := .done }
  else { job with state := .running, task := .checkingDeadline }

/-- A deadline that has passed cancels the job, another one starts a timer. -/
def checkDeadline (now : Int) (job : PrefillJob) : PrefillJob :=
  if job.deadlineAt = 0 then { job with task := .reserving }
  else if job.deadlineAt - now ≤ 0 then { job with cancelled := true, task := .reserving }
  else { job with timer := true, task := .reserving }

/-- Goes on after the reservation. -/
def reserved (result : Except CacheError Unit) (job : PrefillJob) : PrefillJob :=
  match result with
  | .ok () => { job with task := .computing }
  | .error e => { job with task := .failing e.describe }

/-- The engine has returned or raised. -/
def engineDone (outcome : EngineOutcome) (job : PrefillJob) : PrefillJob :=
  match outcome with
  | .returned blocks => { job with blocks := blocks, task := .computed }
  | .interrupted message => { job with task := .interrupted message }
  | .raised reason => { job with task := .failing reason }

/-- The checks before the publication. -/
def check (job : PrefillJob) : PrefillJob :=
  if job.cancelled then { job with task := .interrupted cancelMessage }
  else if job.blocks.length ≠ 1 ∧ job.blocks.length ≠ job.blockHashes.length then
    { job with
      task := .failing
        "RuntimeError: prefill engine must return only the final snapshot or one snapshot per block hash" }
  else { job with task := .publishing }

/-- Goes on after the publication. -/
def publishDone (result : Except CacheError PrefixLease) (job : PrefillJob) : PrefillJob :=
  match result with
  | .ok lease => { job with lease := some lease, task := .published }
  | .error e => { job with task := .failing e.describe }

/-- The check after the publication. -/
def recheck (job : PrefillJob) : PrefillJob :=
  if job.cancelled then { job with task := .interrupted cancelMessage } else { job with task := .completing }

/-- The critical section that completes a job. -/
def complete (job : PrefillJob) : PrefillJob :=
  if job.cancelled then { job with task := .interrupted cancelMessage }
  else
    match job.lease with
    | none => { job with task := .failing "UnboundLocalError: lease" }
    | some lease =>
      let job := { job with
        state := .completed, tokensComputed := job.tokenIds.length, leaseId := lease.leaseId }
      match job.blocks.getLast? with
      | none => { job with task := .failing "IndexError: tuple index out of range" }
      | some final =>
        { job with
          blockHash := final.blockHash, payloadSha256 := final.payloadSha256, transferBytes := final.nbytes,
          task := .releasing }

end PrefillJob

namespace PrefillJobStore

/-- A step of the task of a job.  What the exceptions of `_run` lead to are steps of their own. -/
def advance (s : PrefillJobStore) (job : PrefillJob) (d : Draw) : PrefillJobStore :=
  match job.task with
  | .pending => s.setJob { job with task := .starting }
  | .starting =>
    (s.setJob (job.start (decide (job.jobId ∈ s.jobs)) d.now)).onCache
      (if decide (job.jobId ∈ s.jobs) && job.cancelled then PrefixCacheStore.releaseReservation job.jobId else pure ())
  | .checkingDeadline => s.setJob (job.checkDeadline d.now)
  | .reserving =>
    match s.estimate job.tokenIds with
    | .error e => s.setJob (job.reserved (.error e))
    | .ok bytes =>
      (s.setJob (job.reserved ((PrefixCacheStore.reserve job.jobId bytes d.now).run s.cacheStore).1)).onCache
        (PrefixCacheStore.reserve job.jobId bytes d.now)
  | .computing => s.setJob (job.engineDone d.outcome)
  | .computed => s.setJob job.check
  | .publishing =>
    let publication := PrefixCacheStore.publishAndLease job.blocks job.blockHashes job.jobId PrefillJob.leaseTime d.now
      d.leaseId
    (s.setJob (job.publishDone (publication.run s.cacheStore).1)).onCache publication
  | .published => s.setJob job.recheck
  | .completing => s.setJob job.complete
  | .interrupted message =>
    s.setJob { job with state := .cancelled, failureReason := message, task := .releasing }
  | .failing reason => s.setJob { job with state := .failed, failureReason := reason, task := .releasing }
  | .releasing =>
    (s.setJob { job with task := .finishing }).onCache (PrefixCacheStore.releaseReservation job.jobId)
  | .finishing => s.setJob { job with finishedAt := d.now, task := .done }
  | .cancelled => s
  | .done => s

/-- The timer of a deadline fires, also when it is late. -/
def fireTimer (id : String) (s : PrefillJobStore) : PrefillJobStore :=
  match s.objects.get? id with
  | none => s
  | some job => if job.timer then s.setJob { job with cancelled := true } else s

end PrefillJobStore

/-! ### Runs -/

/-- An atomic event. -/
inductive JobEvent
  | submit (r : PrefillRequest) (gcNow now : Int) (jobId : String)
  | get (id tenantId : String) (now : Int)
  | cancel (id tenantId : String) (gcNow now : Int)
  | progress (id : String) (tokenCount : Int)
  | timer (id : String)
  | run (id : String) (d : Draw)
  | cache (e : CacheEvent)

/-- What an event returns to its caller. -/
inductive JobReply
  | none
  | id (jobId : String)
  | job (job : PrefillJob)
  | bool (b : Bool)
deriving DecidableEq

namespace PrefillJobStore

/-- The procedure of an event. -/
def perform : JobEvent → JobProc JobReply
  | .submit r gcNow now jobId => do let id ← submit r gcNow now jobId; pure (.id id)
  | .get id tenantId now => do let job ← get id tenantId now; pure (.job job)
  | .cancel id tenantId gcNow now => do let b ← cancel id tenantId gcNow now; pure (.bool b)
  | .progress id tokenCount => do updateJobProgress id tokenCount; pure .none
  | .timer id => do Proc.modify (fireTimer id); pure .none
  | .run id d => do
    Proc.modify fun s =>
      match s.objects.get? id with
      | Option.none => s
      | some job => s.advance job d
    pure .none
  | .cache e => do Proc.modify (onCache (PrefixCacheStore.perform e)); pure .none

/-- A step of a run. -/
def step (s : PrefillJobStore) (e : JobEvent) : Except JobError JobReply × PrefillJobStore := (perform e).run s

end PrefillJobStore

end KakeyaEngine
