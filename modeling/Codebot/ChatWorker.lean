import Codebot.BacktestWorker

/-!
The chat worker, and the whole fleet: the backtest workers, the chat workers and the requests at one database.
`run_chat_worker` has no heartbeat, and completes its job in two statements. The fleet also remembers who claimed each
job last; no statement reads that.
-/
namespace Codebot.ChatWorker
open Tables JobTable BacktestWorker

/-- What a chat worker does next. -/
inductive ChatPhase
  /-- Before the claim of a job of the type, or no process. -/
  | polling (jobType : JobType)
  /-- In `claim_run_job`, after it read the candidates. -/
  | claiming (jobType : JobType) (snapshot : List RunJobRow) (at_ : Nat)
  | processing (job : RunJobRow)
  /-- In the handler of `run_chat_worker`: before the events of the failure. -/
  | reporting (job : RunJobRow)
  /-- Before `complete_run_job`. -/
  | completing (job : RunJobRow) (status : Status) (errorCode : Option ErrorCode)
  /-- `complete_run_job` loaded the row: before its commit. -/
  | saving (job loaded : RunJobRow) (status : Status) (errorCode : Option ErrorCode)
deriving DecidableEq

/-- `CHAT_WORKER_JOB_TYPES`: the type that the worker claims after this one. -/
def nextJobType : JobType → JobType
  | .previewCompatibilityRepair => .chatBacktestSummary
  | .chatBacktestSummary => .previewCompatibilityRepair
  | .backtestPreview => .previewCompatibilityRepair
def ChatPhase.start : ChatPhase := .polling .previewCompatibilityRepair
def jobErrorCode : JobType → ErrorCode
  | .previewCompatibilityRepair => .previewCompatibilityRepairFailed
  | .chatBacktestSummary => .chatBacktestSummaryFailed
  | .backtestPreview => .chatBacktestSummaryFailed

/-- One statement of `run_chat_worker`. An exception of the work or of the
    completion leads to the handler; one in the handler ends the process. -/
def chatWork (db : Db) : ChatPhase → Outcome → Option (ChatPhase × Db)
  | _, .crashed => some (.start,db)
  | .polling _, _ => none
  | .claiming _ _ _, _ => none
  | .processing job, .ok => some (.completing job .completed none,db)
  | .processing job, .raised _ => some (.reporting job,db)
  | .reporting job, .ok => some (.completing job .failed (some (jobErrorCode job.jobType)),db)
  | .reporting _, .raised _ => some (.start,db)
  | .completing job status errorCode, .ok =>
    match find db.jobs job.id with
    | none => some (.start,db)
    | some loaded => some (.saving job loaded status errorCode,db)
  | .completing job status _, .raised _ => if status = .completed then some (.reporting job,db) else some (.start,db)
  | .saving job loaded status errorCode, .ok =>
    some (.start,{ db with jobs := update db.jobs job.id (completeRunJob loaded status errorCode) })
  | .saving job _ status _, .raised _ => if status = .completed then some (.reporting job,db) else some (.start,db)

/-- A backtest worker or a chat worker. -/
inductive Party (workers chats : Nat)
  | backtest (worker : Fin workers)
  | chat (worker : Fin chats)
deriving DecidableEq
/-- The number that stands in `lease_owner`. -/
def Party.workerId {workers chats : Nat} : Party workers chats → Nat
  | .backtest worker => worker
  | .chat worker => workers + worker
structure Fleet (workers requests chats : Nat) where
  world : World workers requests
  chat : Fin chats → ChatPhase
  latest : Nat → Option (Party workers chats)

inductive FleetLabel (workers requests chats : Nat)
  | backtest (label : Label workers requests)
  /-- A chat worker calls `claim_run_job`, which reads the counts and the candidates. -/
  | claim (worker : Fin chats)
  /-- `claim_run_job` locks a candidate and commits. -/
  | take (worker : Fin chats) (locked : List Nat)
  | work (worker : Fin chats) (outcome : Outcome)
deriving DecidableEq

variable {workers requests chats : Nat}
def Fleet.db (fleet : Fleet workers requests chats) : Db := fleet.world.db
def Fleet.put (fleet : Fleet workers requests chats) (c : Fin chats) (next : ChatPhase × Db) :
    Fleet workers requests chats :=
  { fleet with world := { fleet.world with db := next.2 }, chat := Function.update fleet.chat c next.1 }
/-- The party claimed the job. -/
def Fleet.remember (fleet : Fleet workers requests chats) (id : Nat) (party : Party workers chats) :
    Fleet workers requests chats :=
  { fleet with latest := Function.update fleet.latest id (some party) }
def initialFleet (workers requests chats : Nat) : Fleet workers requests chats :=
  ⟨initial workers requests,fun _ => .start,fun _ => none⟩

/-- A step of the backtest system; its claims are remembered. -/
def backtestStep (settings : Settings) (fleet : Fleet workers requests chats) (label : Label workers requests) :
    Option (Fleet workers requests chats) :=
  (step settings fleet.world label).map fun world =>
    match label with
    | .take w locked =>
      match takes settings fleet.world w locked with
      | some job => { fleet with world }.remember job.id (.backtest w)
      | none => { fleet with world }
    | _ => { fleet with world }

/-- The commit of `claim_run_job`, or its end without a row. -/
def chatTake (settings : Settings) (fleet : Fleet workers requests chats) (c : Fin chats) (locked : List Nat) :
    Option (Fleet workers requests chats) :=
  match fleet.chat c with
  | .claiming jobType snapshot at_ =>
    match claimRows settings (.claimRunJob jobType) at_ snapshot locked fleet.db.jobs with
    | none => some (fleet.put c (.polling (nextJobType jobType),fleet.db))
    | some (loaded,job) =>
      let write := claimedRunJob settings.chatLeaseSeconds at_ (Party.chat c : Party workers chats).workerId loaded
      some ((fleet.put c (.processing (write job),{ fleet.db with jobs := update fleet.db.jobs job.id write })).remember
        job.id (.chat c))
  | _ => none

def fleetStep (settings : Settings) (fleet : Fleet workers requests chats) :
    FleetLabel workers requests chats → Option (Fleet workers requests chats)
  | .backtest label => backtestStep settings fleet label
  | .claim c =>
    match fleet.chat c with
    | .polling jobType => some (fleet.put c (.claiming jobType fleet.db.jobs fleet.db.now,fleet.db))
    | _ => none
  | .take c locked => chatTake settings fleet c locked
  | .work c outcome => (chatWork fleet.db (fleet.chat c) outcome).map (fleet.put c)

end Codebot.ChatWorker
