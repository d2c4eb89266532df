import Codebot.Tables
import Mathlib.Data.List.Sort

/-!
The `assistant_runs` and `run_jobs` tables and the statements that the workers and the cancel endpoint execute on
them. Every statement is one function of the table it reads and writes. Columns that none of these statements reads
are left out.
-/
namespace Codebot.JobTable
open Tables

/-- The `status` column of a run and of a job. -/
inductive Status
  | queued | running | completed | failed | blocked | cancelled
deriving DecidableEq
/-- `TERMINAL_RUN_STATUSES`. -/
def isTerminalRunStatus : Status → Bool
  | .completed | .failed | .blocked | .cancelled => true
  | .queued | .running => false
/-- The codes that the workers and the cancel endpoint write to `error_code`. -/
inductive ErrorCode
  | apiCancelled
  | previewCompatibilityLimit | previewRuntimeUnavailable | previewDataError | previewExecutionError
  | backtestWorkerTimeout | backtestWorkerCrash | workerError
  | previewCompatibilityRepairFailed | chatBacktestSummaryFailed
deriving DecidableEq
/-- The `job_type` column. -/
inductive JobType
  | backtestPreview | chatBacktestSummary | previewCompatibilityRepair
deriving DecidableEq

/-- `limits.workspace_active_limit` in the payload of a job: no number, a JSON
    number, a JSON string of digits with a sign, or a JSON boolean. -/
inductive LimitValue
  | missing
  | integer (value : Int)
  | digits (value : Int)
  | boolean (value : Bool)
deriving DecidableEq

structure AssistantRunRow where
  id : Nat
  status : Status
  errorCode : Option ErrorCode
deriving DecidableEq

/-- `rangeSeconds` is the end minus the start of the backtest config where both
    are written as datetimes, as the claim statement casts them. -/
structure RunJobRow where
  id : Nat
  runId : Nat
  workspaceId : Nat
  jobType : JobType
  status : Status
  workspaceActiveLimit : LimitValue
  rangeSeconds : Option Int
  attempts : Nat
  maxAttempts : Nat
  leaseOwner : Option Nat
  leasedUntil : Option Nat
  errorCode : Option ErrorCode
  createdAt : Nat
deriving DecidableEq

instance : Keyed AssistantRunRow := ⟨AssistantRunRow.id⟩
instance : Keyed RunJobRow := ⟨RunJobRow.id⟩
@[simp] theorem key_run (run : AssistantRunRow) : Keyed.key run = run.id := rfl
@[simp] theorem key_job (job : RunJobRow) : Keyed.key job = job.id := rfl

/-- `LEASE_SECONDS`, `DEFAULT_WORKSPACE_ACTIVE_LIMIT` and `LONG_RANGE_ACTIVE_LIMIT`
    of the backtest worker, and the lease of the chat worker. -/
structure Settings where
  leaseSeconds : Nat
  chatLeaseSeconds : Nat
  defaultWorkspaceActiveLimit : Int
  longRangeActiveLimit : Nat
deriving DecidableEq

/-- `job.leased_until < now()`, which is not true of a null column. -/
def leaseExpired (now : Nat) (job : RunJobRow) : Bool := job.leasedUntil.any (· < now)
/-- `status = 'running' AND leased_until >= now()`. -/
def leaseActive (now : Nat) (job : RunJobRow) : Bool :=
  job.status == .running && job.leasedUntil.any (now ≤ ·)
/-- The columns of the candidate itself that a claim requires. -/
def claimable (now : Nat) (jobType : JobType) (job : RunJobRow) : Bool :=
  job.jobType == jobType && (job.status == .queued || job.status == .running) && job.attempts < job.maxAttempts &&
    (job.status == .queued || leaseExpired now job)
def activeIn (now : Nat) (jobType : JobType) (workspaceId : Nat) (job : RunJobRow) : Bool :=
  job.jobType == jobType && job.workspaceId == workspaceId && leaseActive now job
def activeCount (now : Nat) (jobType : JobType) (workspaceId : Nat) (jobs : List RunJobRow) : Nat :=
  jobs.countP (activeIn now jobType workspaceId)
/-- `GREATEST(1, COALESCE(payload limit when it is written in digits, $4))`. -/
def greatestLimit (fallback : Int) : LimitValue → Int
  | .integer value => max 1 value
  | .digits value => max 1 value
  | .missing => max 1 fallback
  | .boolean _ => max 1 fallback
/-- `BACKTEST_DEFAULT_ACTIVE_LIMIT`, the limit of the tier `paid_low`. -/
def backtestDefaultActiveLimit : Int := 2
/-- `backtest_active_limit_from_payload`, where a boolean is an `int` as well. -/
def backtestActiveLimitFromPayload : LimitValue → Int
  | .integer value => max 1 value
  | .boolean value => max 1 (if value then 1 else 0)
  | .missing => backtestDefaultActiveLimit
  | .digits _ => backtestDefaultActiveLimit
/-- `COALESCE(end - start, interval '0 seconds') > interval '365 days'`. -/
def longRange (job : RunJobRow) : Bool := decide (365 * 86400 < job.rangeSeconds.getD 0)
def longRangeCount (now : Nat) (jobType : JobType) (workspaceId : Nat) (jobs : List RunJobRow) : Nat :=
  jobs.countP fun job => activeIn now jobType workspaceId job && longRange job
/-- The two code paths that claim jobs. -/
inductive Claimer
  | claimJob
  | claimRunJob (jobType : JobType)
deriving DecidableEq
def Claimer.jobType : Claimer → JobType
  | .claimJob => .backtestPreview
  | .claimRunJob jobType => jobType
/-- The active jobs that the claim allows a candidate's workspace to have. -/
def Claimer.limit (settings : Settings) (job : RunJobRow) : Claimer → Int
  | .claimJob => greatestLimit settings.defaultWorkspaceActiveLimit job.workspaceActiveLimit
  | .claimRunJob _ => backtestActiveLimitFromPayload job.workspaceActiveLimit

/-- The counts over other rows that a claim takes from its snapshot. Only the
    TypeScript statement bounds the long ranges. -/
def withinQuota (settings : Settings) (claimer : Claimer) (now : Nat) (snapshot : List RunJobRow)
    (job : RunJobRow) : Bool :=
  decide ((activeCount now job.jobType job.workspaceId snapshot : Int) < claimer.limit settings job) &&
    match claimer with
    | .claimJob => !longRange job || longRangeCount now job.jobType job.workspaceId snapshot < settings.longRangeActiveLimit
    | .claimRunJob _ => true

/-- `ORDER BY job.created_at ASC, job.id ASC`. -/
def claimOrder (jobs : List RunJobRow) : List RunJobRow :=
  jobs.insertionSort fun a b => a.createdAt < b.createdAt ∨ (a.createdAt = b.createdAt ∧ a.id ≤ b.id)

/-- The rows of the job that a claim takes: the first candidate of its snapshot that is not locked and still claimable.
    The conditions on other rows are not evaluated again. -/
def claimRows (settings : Settings) (claimer : Claimer) (now : Nat) (snapshot : List RunJobRow)
    (locked : List Nat) (jobs : List RunJobRow) : Option (RunJobRow × RunJobRow) :=
  (claimOrder (snapshot.filter fun job => claimable now claimer.jobType job && withinQuota settings claimer now snapshot job)).findSome?
    fun loaded =>
      if loaded.id ∈ locked then none
      else ((find jobs loaded.id).filter (claimable now claimer.jobType)).map fun job => (loaded,job)

/-- The current row of that job. -/
def claimCandidate (settings : Settings) (claimer : Claimer) (now : Nat) (snapshot : List RunJobRow)
    (locked : List Nat) (jobs : List RunJobRow) : Option RunJobRow :=
  (claimRows settings claimer now snapshot locked jobs).map Prod.snd
/-- The columns that a claim writes. -/
def claimed (settings : Settings) (now workerId : Nat) (job : RunJobRow) : RunJobRow :=
  { job with
    status := .running
    attempts := job.attempts + 1
    leaseOwner := some workerId
    leasedUntil := some (now + settings.leaseSeconds) }

/-- The commit of `claim_run_job`. The lock does not load the row again, and the
    session writes the columns that differ from the row that it loaded. -/
def claimedRunJob (leaseSeconds now workerId : Nat) (loaded job : RunJobRow) : RunJobRow :=
  { job with
    status := if loaded.status = .running then job.status else .running
    attempts := loaded.attempts + 1
    leaseOwner := if loaded.leaseOwner = some workerId then job.leaseOwner else some workerId
    leasedUntil := if loaded.leasedUntil = some (now + leaseSeconds) then job.leasedUntil else some (now + leaseSeconds) }

/-- `setRunStatus`, also the status columns of the repository's `set_run_status`. -/
def setRunStatus (runs : List AssistantRunRow) (runId : Nat) (status : Status) (errorCode : Option ErrorCode) :
    List AssistantRunRow :=
  update runs runId fun run => { run with status, errorCode }
/-- The columns that `completeJob` writes, and `complete_run_job` where they changed. -/
def finished (status : Status) (errorCode : Option ErrorCode) (job : RunJobRow) : RunJobRow :=
  { job with status, errorCode, leaseOwner := none, leasedUntil := none }
/-- `completeJob`: the statement names the job by its id only. -/
def completeJob (jobs : List RunJobRow) (jobId : Nat) (status : Status) (errorCode : Option ErrorCode) : List RunJobRow :=
  update jobs jobId (finished status errorCode)
/-- `requeueJob`: the statement names the job by its id only. -/
def requeueJob (jobs : List RunJobRow) (jobId : Nat) (errorCode : Option ErrorCode) : List RunJobRow :=
  update jobs jobId (finished .queued errorCode)
/-- `renewJobLeaseOrThrow` matches the job while the worker owns it and its run
    has not ended. -/
def renewable (runs : List AssistantRunRow) (workerId : Nat) (job : RunJobRow) : Bool :=
  job.status == .running && job.leaseOwner == some workerId &&
    !((find runs job.runId).any fun run => isTerminalRunStatus run.status)
def renewed (until_ : Nat) (job : RunJobRow) : RunJobRow := { job with leasedUntil := some until_ }
/-- `renewJobLeaseOrThrow`: no result is the `StaleJobLeaseError`. -/
def renewJobLeaseOrThrow (settings : Settings) (now : Nat) (runs : List AssistantRunRow) (jobs : List RunJobRow)
    (jobId workerId : Nat) : Option (List RunJobRow) :=
  if (find jobs jobId).any (renewable runs workerId) then
    some (update jobs jobId (renewed (now + settings.leaseSeconds)))
  else none
/-- The jobs that `cancel_run_jobs` selects: those of the run that are queued or running. -/
def cancelSelection (jobs : List RunJobRow) (runId : Nat) : List Nat :=
  (jobs.filter fun job => job.runId == runId && (job.status == .queued || job.status == .running)).map (·.id)
/-- The commit of `cancel_run_jobs`: the selected rows by their primary keys. -/
def cancelRunJobs (jobs : List RunJobRow) (selected : List Nat) : List RunJobRow :=
  updateAll jobs selected (finished .cancelled (some .apiCancelled))

/-- The commit of `complete_run_job`. The session writes the columns that differ
    from the row that it loaded. -/
def completeRunJob (loaded : RunJobRow) (status : Status) (errorCode : Option ErrorCode) (job : RunJobRow) : RunJobRow :=
  { job with
    status := if loaded.status = status then job.status else status
    errorCode := if loaded.errorCode = errorCode then job.errorCode else errorCode
    leaseOwner := if loaded.leaseOwner = none then job.leaseOwner else none
    leasedUntil := if loaded.leasedUntil = none then job.leasedUntil else none }

@[simp] theorem claimed_id (settings : Settings) (now workerId : Nat) (job : RunJobRow) :
    (claimed settings now workerId job).id = job.id := rfl
@[simp] theorem claimed_status (settings : Settings) (now workerId : Nat) (job : RunJobRow) :
    (claimed settings now workerId job).status = .running := rfl
@[simp] theorem finished_id (status : Status) (errorCode : Option ErrorCode) (job : RunJobRow) :
    (finished status errorCode job).id = job.id := rfl
@[simp] theorem finished_status (status : Status) (errorCode : Option ErrorCode) (job : RunJobRow) :
    (finished status errorCode job).status = status := rfl
@[simp] theorem finished_attempts (status : Status) (errorCode : Option ErrorCode) (job : RunJobRow) :
    (finished status errorCode job).attempts = job.attempts := rfl

@[simp] theorem renewed_status (until_ : Nat) (job : RunJobRow) : (renewed until_ job).status = job.status := rfl
theorem find_setRunStatus (runs : List AssistantRunRow) (runId : Nat) (status : Status) (errorCode : Option ErrorCode)
    (id : Nat) : find (setRunStatus runs runId status errorCode) id =
      if id = runId then (find runs id).map fun run => { run with status, errorCode } else find runs id :=
  find_update (by intro row; rfl) id
theorem find_completeJob (jobs : List RunJobRow) (jobId : Nat) (status : Status) (errorCode : Option ErrorCode)
    (id : Nat) : find (completeJob jobs jobId status errorCode) id =
      if id = jobId then (find jobs id).map (finished status errorCode) else find jobs id :=
  find_update (by intro row; rfl) id
theorem find_renewed (jobs : List RunJobRow) (jobId until_ id : Nat) : find (update jobs jobId (renewed until_)) id =
    if id = jobId then (find jobs id).map (renewed until_) else find jobs id :=
  find_update (by intro row; rfl) id
theorem find_claimed (settings : Settings) (now workerId : Nat) (jobs : List RunJobRow) (jobId id : Nat) :
    find (update jobs jobId (claimed settings now workerId)) id =
      if id = jobId then (find jobs id).map (claimed settings now workerId) else find jobs id :=
  find_update (by intro row; rfl) id
theorem find_cancelRunJobs (jobs : List RunJobRow) (selected : List Nat) (id : Nat) :
    find (cancelRunJobs jobs selected) id =
      if id ∈ selected then (find jobs id).map (finished .cancelled (some .apiCancelled)) else find jobs id :=
  find_updateAll (by intro row; rfl) id

variable {jobs : List RunJobRow} {now : Nat} {settings : Settings}

theorem renewJobLeaseOrThrow_some {runs : List AssistantRunRow} {after : List RunJobRow} {jobId workerId : Nat}
    (answered : renewJobLeaseOrThrow settings now runs jobs jobId workerId = some after) :
    (∃ job, find jobs jobId = some job ∧ renewable runs workerId job) ∧
      after = update jobs jobId (renewed (now + settings.leaseSeconds)) := by
  unfold renewJobLeaseOrThrow at answered
  split at answered
  · rename_i owned
    rw [Option.any_eq_true] at owned
    exact ⟨owned,(Option.some.inj answered).symm⟩
  · cases answered

variable {claimer : Claimer} {job : RunJobRow} {locked : List Nat} {snapshot : List RunJobRow}

/-- A claim takes a row of the table that is claimable now and whose workspace
    has a free slot in the snapshot of the claim. -/
theorem claimRows_some {loaded : RunJobRow}
    (rows : claimRows settings claimer now snapshot locked jobs = some (loaded,job)) :
    loaded.id = job.id ∧ find jobs job.id = some job ∧ claimable now claimer.jobType job ∧
      loaded ∈ snapshot ∧ claimable now claimer.jobType loaded ∧ withinQuota settings claimer now snapshot loaded := by
  obtain ⟨seen,listed,taken⟩ := List.exists_of_findSome?_eq_some rows
  have filtered := (List.perm_insertionSort _ _).mem_iff.mp listed
  rw [List.mem_filter,Bool.and_eq_true] at filtered
  split at taken
  · cases taken
  · rw [Option.map_eq_some_iff] at taken
    obtain ⟨current,free,same⟩ := taken
    obtain ⟨rfl,rfl⟩ := Prod.mk.inj same
    rw [Option.filter_eq_some_iff] at free
    have keyed : current.id = seen.id := find_key free.1
    exact ⟨keyed.symm,keyed ▸ free.1,free.2,filtered.1,filtered.2.1,filtered.2.2⟩

theorem claimCandidate_some (candidate : claimCandidate settings claimer now snapshot locked jobs = some job) :
    find jobs job.id = some job ∧ claimable now claimer.jobType job := by
  obtain ⟨⟨loaded,current⟩,rows,rfl⟩ := Option.map_eq_some_iff.mp candidate
  obtain ⟨_,found,free,_⟩ := claimRows_some rows
  exact ⟨found,free⟩
theorem claimable_status {jobType : JobType} (free : claimable now jobType job) :
    job.status = .queued ∨ job.status = .running := by
  simp only [claimable,Bool.and_eq_true,Bool.or_eq_true,beq_iff_eq] at free
  exact free.1.1.2

end Codebot.JobTable
