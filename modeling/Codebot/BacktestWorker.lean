import Codebot.Runs
import Codebot.JobTable
import Mathlib.Data.Fintype.Basic

/-!
The backtest worker as a party of a system. Any number of workers go through
`main`, `processJob` and `markJobFailed` one database statement at a time, while
requests go through `cancel_run` and time passes. A worker is described by the
statement that it executes next and by the row that its claim returned.
-/
namespace Codebot.BacktestWorker
open Tables JobTable

/-- The clock and the two tables. -/
structure Db where
  now : Nat
  runs : List AssistantRunRow
  jobs : List RunJobRow
deriving DecidableEq

/-- What a worker does next. -/
inductive Phase
  /-- Polling, or no process. -/
  | idle
  /-- In the claim statement, after it took its snapshot. -/
  | claiming (snapshot : List RunJobRow) (at_ : Nat)
  /-- Before the first `getRun` of `processJob`. -/
  | claimed (job : RunJobRow)
  /-- The run had ended: before `completeJob` with `cancelled`. -/
  | refusing (job : RunJobRow)
  /-- The run had not ended: before `setRunStatus` with `running`. -/
  | starting (job : RunJobRow)
  /-- Until the execution settles; `lost` is `leaseLostError` of the heartbeat. -/
  | executing (job : RunJobRow) (lost : Bool)
  /-- Before `renewJobLeaseOrThrow` after the execution. -/
  | renewing (job : RunJobRow)
  /-- Before the second `getRun`. -/
  | rechecking (job : RunJobRow)
  /-- Writing artifacts and events: before `completeJob` with `completed`. -/
  | persisting (job : RunJobRow)
  /-- Before `setRunStatus` with `completed`. -/
  | closing (job : RunJobRow)
  /-- After it: the event `run.completed` and the summary job. -/
  | announcing (job : RunJobRow)
  /-- `processJob` threw: before the `getRun` of `markJobFailed`. -/
  | failing (job : RunJobRow) (error : ErrorCode)
  /-- Before `requeueJob`, or `completeJob` with `failed`. -/
  | recording (job : RunJobRow) (error : ErrorCode)
  /-- Before `setRunStatus` with `queued`. -/
  | requeued (job : RunJobRow) (error : ErrorCode)
  /-- Before `setRunStatus` with `failed`. -/
  | failed (job : RunJobRow) (error : ErrorCode)
deriving DecidableEq

/-- The row that the worker's claim returned, until the worker is done with it. -/
def Phase.job : Phase → Option RunJobRow
  | .idle => none
  | .claiming _ _ => none
  | .claimed job => some job
  | .refusing job => some job
  | .starting job => some job
  | .executing job _ => some job
  | .renewing job => some job
  | .rechecking job => some job
  | .persisting job => some job
  | .closing job => some job
  | .announcing job => some job
  | .failing job _ => some job
  | .recording job _ => some job
  | .requeued job _ => some job
  | .failed job _ => some job

/-- The database answers, an exception reaches the caller, or the process dies. -/
inductive Outcome
  | ok
  | raised (error : ErrorCode)
  | crashed
deriving DecidableEq

/-- One statement of `processJob` and `markJobFailed`. An exception of the former leads to the latter, one of the latter
    ends the process. -/
def work (settings : Settings) (workerId : Nat) (db : Db) : Phase → Outcome → Option (Phase × Db)
  | .idle, _ => none
  | .claiming _ _, _ => none
  | _, .crashed => some (.idle,db)
  | .failing _ _, .raised _ => some (.idle,db)
  | .recording _ _, .raised _ => some (.idle,db)
  | .requeued _ _, .raised _ => some (.idle,db)
  | .failed _ _, .raised _ => some (.idle,db)
  | .claimed job, .raised error => some (.failing job error,db)
  | .refusing job, .raised error => some (.failing job error,db)
  | .starting job, .raised error => some (.failing job error,db)
  | .executing job _, .raised error => some (.failing job error,db)
  | .renewing job, .raised error => some (.failing job error,db)
  | .rechecking job, .raised error => some (.failing job error,db)
  | .persisting job, .raised error => some (.failing job error,db)
  | .closing job, .raised error => some (.failing job error,db)
  | .announcing job, .raised error => some (.failing job error,db)
  | .claimed job, .ok =>
    match find db.runs job.runId with
    | none => some (.failing job .workerError,db)
    | some run => if isTerminalRunStatus run.status then some (.refusing job,db) else some (.starting job,db)
  | .refusing job, .ok => some (.idle,{ db with jobs := completeJob db.jobs job.id .cancelled none })
  | .starting job, .ok => some (.executing job false,{ db with runs := setRunStatus db.runs job.runId .running none })
  | .executing job lost, .ok => if lost then some (.idle,db) else some (.renewing job,db)
  | .renewing job, .ok =>
    match renewJobLeaseOrThrow settings db.now db.runs db.jobs job.id workerId with
    | none => some (.idle,db)
    | some jobs => some (.rechecking job,{ db with jobs })
  | .rechecking job, .ok =>
    match find db.runs job.runId with
    | none => some (.failing job .workerError,db)
    | some run => if isTerminalRunStatus run.status then some (.refusing job,db) else some (.persisting job,db)
  | .persisting job, .ok => some (.closing job,{ db with jobs := completeJob db.jobs job.id .completed none })
  | .closing job, .ok => some (.announcing job,{ db with runs := setRunStatus db.runs job.runId .completed none })
  | .announcing _, .ok => some (.idle,db)
  | .failing job error, .ok =>
    match find db.runs job.runId with
    | none => some (.idle,db)
    | some _ => some (.recording job error,db)
  | .recording job error, .ok =>
    if job.attempts < job.maxAttempts then
      some (.requeued job error,{ db with jobs := requeueJob db.jobs job.id (some error) })
    else some (.failed job error,{ db with jobs := completeJob db.jobs job.id .failed (some error) })
  | .requeued job _, .ok => some (.idle,{ db with runs := setRunStatus db.runs job.runId .queued none })
  | .failed job error, .ok => some (.idle,{ db with runs := setRunStatus db.runs job.runId .failed (some error) })

/-- What a request to `cancel_run` does next. -/
inductive CancelPhase
  /-- No request. -/
  | idle
  /-- `get_run` returned a run that had not ended: before `set_run_status`. -/
  | checked (runId : Nat)
  /-- `set_run_status` loaded the row with this status: before its commit. -/
  | loaded (runId : Nat) (status : Status)
  /-- Before the select of `cancel_run_jobs`. -/
  | marked (runId : Nat)
  /-- Before the commit of `cancel_run_jobs`. -/
  | selected (runId : Nat) (jobs : List Nat)
deriving DecidableEq

/-- One read or one commit of `cancel_run`. The session writes the status only
    where it differs from the one that it loaded. -/
def cancel (db : Db) : CancelPhase → Option (CancelPhase × Db)
  | .idle => none
  | .checked runId =>
    match find db.runs runId with
    | none => some (.idle,db)
    | some run => some (.loaded runId run.status,db)
  | .loaded runId status =>
    if status = .cancelled then some (.marked runId,db)
    else some (.marked runId,{ db with runs := update db.runs runId fun run => { run with status := .cancelled } })
  | .marked runId => some (.selected runId (cancelSelection db.jobs runId),db)
  | .selected _ jobs => some (.idle,{ db with jobs := cancelRunJobs db.jobs jobs })

/-- The new job of `create_run_job`. -/
structure JobInput where
  id : Nat
  runId : Nat
  workspaceId : Nat
  jobType : JobType
  workspaceActiveLimit : LimitValue
  rangeSeconds : Option Int
  maxAttempts : Nat
deriving DecidableEq

def JobInput.row (now : Nat) (input : JobInput) : RunJobRow :=
  { id := input.id, runId := input.runId, workspaceId := input.workspaceId, jobType := input.jobType,
    status := .queued, workspaceActiveLimit := input.workspaceActiveLimit, rangeSeconds := input.rangeSeconds,
    attempts := 0, maxAttempts := input.maxAttempts, leaseOwner := none, leasedUntil := none, errorCode := none,
    createdAt := now }
/-- The database, the workers and the requests. -/
structure World (workers requests : Nat) where
  db : Db
  worker : Fin workers → Phase
  request : Fin requests → CancelPhase

inductive Label (workers requests : Nat)
  /-- Time passes; leases expire by it. -/
  | tick (amount : Nat)
  | createRun (id : Nat)
  | createRunJob (input : JobInput)
  /-- A worker sends the claim statement, which takes its snapshot. -/
  | claim (worker : Fin workers)
  /-- The claim statement locks a row that is not locked, writes it and commits. -/
  | take (worker : Fin workers) (locked : List Nat)
  /-- The timer of `startJobHeartbeat` fires; the connection may fail. -/
  | heartbeat (worker : Fin workers) (connected : Bool)
  | work (worker : Fin workers) (outcome : Outcome)
  /-- A request reads the run it is to cancel. -/
  | cancelRun (request : Fin requests) (runId : Nat)
  | cancel (request : Fin requests)
deriving DecidableEq

variable {workers requests : Nat}
def World.put (world : World workers requests) (w : Fin workers) (next : Phase × Db) : World workers requests :=
  { world with db := next.2, worker := Function.update world.worker w next.1 }
def World.answer (world : World workers requests) (c : Fin requests) (next : CancelPhase × Db) : World workers requests :=
  { world with db := next.2, request := Function.update world.request c next.1 }
def initial (workers requests : Nat) : World workers requests :=
  ⟨⟨0,[],[]⟩,fun _ => .idle,fun _ => .idle⟩
/-- The claim statement of a worker, at the time and on the snapshot it started with. -/
def takes (settings : Settings) (world : World workers requests) (w : Fin workers) (locked : List Nat) :
    Option RunJobRow :=
  match world.worker w with
  | .claiming snapshot at_ => claimCandidate settings .claimJob at_ snapshot locked world.db.jobs
  | _ => none

/-- The commit of the claim statement, or its end without a row. -/
def take (settings : Settings) (world : World workers requests) (w : Fin workers) (locked : List Nat) :
    Option (World workers requests) :=
  match world.worker w with
  | .claiming snapshot at_ =>
    match claimCandidate settings .claimJob at_ snapshot locked world.db.jobs with
    | none => some (world.put w (.idle,world.db))
    | some job => some (world.put w (.claimed (claimed settings at_ w job),
        { world.db with jobs := update world.db.jobs job.id (claimed settings at_ w) }))
  | _ => none

/-- A heartbeat renews the lease unless an earlier one failed. -/
def heartbeat (settings : Settings) (workerId : Nat) (db : Db) : Phase → Bool → Option (Phase × Db)
  | .executing job false, connected =>
    match if connected then renewJobLeaseOrThrow settings db.now db.runs db.jobs job.id workerId else none with
    | none => some (.executing job true,db)
    | some jobs => some (.executing job false,{ db with jobs })
  | .executing job true, _ => some (.executing job true,db)
  | _, _ => none

def step (settings : Settings) (world : World workers requests) : Label workers requests → Option (World workers requests)
  | .tick amount => some { world with db := { world.db with now := world.db.now + amount } }
  | .createRun id =>
    if find world.db.runs id = none then
      some { world with db := { world.db with runs := world.db.runs ++ [⟨id,.queued,none⟩] } }
    else none
  | .createRunJob input =>
    if find world.db.jobs input.id = none ∧ (find world.db.runs input.runId).isSome then
      some { world with db := { world.db with jobs := world.db.jobs ++ [input.row world.db.now] } }
    else none
  | .claim w => if world.worker w = .idle then some (world.put w (.claiming world.db.jobs world.db.now,world.db)) else none
  | .take w locked => take settings world w locked
  | .heartbeat w connected => (heartbeat settings w world.db (world.worker w) connected).map (world.put w)
  | .work w outcome => (work settings w world.db (world.worker w) outcome).map (world.put w)
  | .cancelRun c runId =>
    match world.request c, find world.db.runs runId with
    | .idle, some run =>
      if isTerminalRunStatus run.status then some world else some (world.answer c (.checked runId,world.db))
    | _, _ => none
  | .cancel c => (cancel world.db (world.request c)).map (world.answer c)

end Codebot.BacktestWorker
