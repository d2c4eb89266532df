import Codebot.ChatWorker
import Codebot.TerminalStatuses

/-!
Lease fencing. `completeJob`, `requeueJob` and `complete_run_job` name the job by its id only, so a worker that
outlived its lease finishes a job that another worker has claimed (`not_always_fenced`, `fenced_iff_harmless`).
`renewJobLeaseOrThrow` has the owner in its predicate (`Leases.owned`).
-/
namespace Codebot.JobLeases
open Runs Tables JobTable BacktestWorker ChatWorker Function
open TerminalStatuses (work_crashed work_raised work_writes heartbeat_writes)
variable {workers requests chats : Nat}

/-- The party that a step belongs to, where it is not part of a claim. -/
def actor : FleetLabel workers requests chats → Option (Party workers chats)
  | .backtest (.heartbeat w _) => some (.backtest w)
  | .backtest (.work w _) => some (.backtest w)
  | .work c _ => some (.chat c)
  | _ => none
/-- Every job that the party of a step changes is one that it claimed last, so that at any time the writes of at most
    one worker change a job. -/
def Fenced (settings : Settings) (fleet : Fleet workers requests chats) (label : FleetLabel workers requests chats) : Prop :=
  ∀ next, fleetStep settings fleet label = some next → ∀ party, actor label = some party →
    ∀ id row, find fleet.db.jobs id = some row → find next.db.jobs id ≠ some row → fleet.latest id = some party
/-- A write that ends the work on a job: its status and error code, and the row
    that the session loaded where it writes the difference to that row. -/
structure Finish where
  id : Nat
  status : Status
  errorCode : Option ErrorCode
  loaded : Option RunJobRow
def Finish.change (finish : Finish) : RunJobRow → RunJobRow :=
  match finish.loaded with
  | none => finished finish.status finish.errorCode
  | some loaded => completeRunJob loaded finish.status finish.errorCode

/-- The finishing writes of `processJob` and `markJobFailed`. -/
def finishing : Phase → Option Finish
  | .refusing job => some ⟨job.id,.cancelled,none,none⟩
  | .persisting job => some ⟨job.id,.completed,none,none⟩
  | .recording job error =>
    if job.attempts < job.maxAttempts then some ⟨job.id,.queued,some error,none⟩
    else some ⟨job.id,.failed,some error,none⟩
  | _ => none

/-- The finishing write of `run_chat_worker`. -/
def chatFinishing : ChatPhase → Option Finish
  | .saving job loaded status errorCode => some ⟨job.id,status,errorCode,some loaded⟩
  | _ => none
/-- The finishing write of a step, with its party. -/
def finishingWrite (fleet : Fleet workers requests chats) :
    FleetLabel workers requests chats → Option (Party workers chats × Finish)
  | .backtest (.work w .ok) => (finishing (fleet.world.worker w)).map fun finish => (.backtest w,finish)
  | .work c .ok => (chatFinishing (fleet.chat c)).map fun finish => (.chat c,finish)
  | _ => none
/-- A column that has the value already, or that the session does not write. -/
def stands {Value : Type} [DecidableEq Value] (column : RunJobRow → Value) (value : Value) (loaded : Option RunJobRow)
    (row : RunJobRow) : Bool :=
  column row == value || loaded.any fun before => column before == value
/-- The row was finished already with the status and the error code. -/
def alreadyFinished (finish : Finish) (row : RunJobRow) : Bool :=
  stands (·.status) finish.status finish.loaded row && stands (·.errorCode) finish.errorCode finish.loaded row &&
    stands (·.leaseOwner) none finish.loaded row && stands (·.leasedUntil) none finish.loaded row
/-- Where another party claimed the job since, a finishing write meets a row that
    was finished already with the same status and error code. -/
def Harmless (fleet : Fleet workers requests chats) (label : FleetLabel workers requests chats) : Prop :=
  ∀ write ∈ finishingWrite fleet label, fleet.latest write.2.id ≠ some write.1 →
    ∀ row ∈ find fleet.db.jobs write.2.id, alreadyFinished write.2 row
instance (fleet : Fleet workers requests chats) (label : FleetLabel workers requests chats) :
    Decidable (Harmless fleet label) :=
  inferInstanceAs (Decidable (∀ write ∈ finishingWrite fleet label, fleet.latest write.2.id ≠ some write.1 →
    ∀ row ∈ find fleet.db.jobs write.2.id, alreadyFinished write.2 row))

theorem change_eq_iff (finish : Finish) (row : RunJobRow) : finish.change row = row ↔ alreadyFinished finish row := by
  obtain ⟨id,status,errorCode,loaded⟩ := finish
  cases row
  cases loaded with
  | none =>
    simp only [Finish.change,finished,alreadyFinished,stands,RunJobRow.mk.injEq,Option.any_none,Bool.or_false,
      Bool.and_eq_true,beq_iff_eq]
    grind
  | some loaded =>
    simp only [Finish.change,completeRunJob,alreadyFinished,stands,RunJobRow.mk.injEq,Option.any_some,
      Bool.and_eq_true,Bool.or_eq_true,beq_iff_eq]
    grind

@[simp] theorem change_id (finish : Finish) (row : RunJobRow) : (finish.change row).id = row.id := by
  cases same : finish.loaded <;> simp [Finish.change,same,completeRunJob]

variable {row : RunJobRow}

theorem change_leaseOwner (finish : Finish) {owner : Nat}
    (owned : (finish.change row).leaseOwner = some owner) : row.leaseOwner = some owner := by
  cases same : finish.loaded with
  | none => simp [Finish.change,same,finished] at owned
  | some loaded =>
    simp only [Finish.change,same,completeRunJob] at owned
    split at owned
    · exact owned
    · cases owned

/-- The jobs and the last claims after a step. -/
inductive JobsStep (fleet : Fleet workers requests chats) (label : FleetLabel workers requests chats) :
    List RunJobRow → (Nat → Option (Party workers chats)) → Prop
  | same : finishingWrite fleet label = none → JobsStep fleet label fleet.db.jobs fleet.latest
  | created (input : JobInput) : actor label = none → find fleet.db.jobs input.id = none →
      JobsStep fleet label (fleet.db.jobs ++ [input.row fleet.db.now]) fleet.latest
  | taken (w : Fin workers) (job : RunJobRow) (settings : Settings) (at_ : Nat) : actor label = none →
      find fleet.db.jobs job.id = some job → job.jobType = .backtestPreview →
      JobsStep fleet label (update fleet.db.jobs job.id (claimed settings at_ w))
        (Function.update fleet.latest job.id (some (.backtest w)))
  | chatTaken (c : Fin chats) (loaded job : RunJobRow) (leaseSeconds at_ : Nat) : actor label = none →
      find fleet.db.jobs job.id = some job → job.jobType ≠ .backtestPreview →
      JobsStep fleet label
        (update fleet.db.jobs job.id (claimedRunJob leaseSeconds at_ (Party.chat c : Party workers chats).workerId loaded))
        (Function.update fleet.latest job.id (some (.chat c)))
  | renewed (w : Fin workers) (id until_ : Nat) : actor label = some (.backtest w) → finishingWrite fleet label = none →
      (∃ job, find fleet.db.jobs id = some job ∧ job.jobType = .backtestPreview ∧ job.leaseOwner = some w.val) →
      JobsStep fleet label (update fleet.db.jobs id (renewed until_)) fleet.latest
  | finished (party : Party workers chats) (finish : Finish) : actor label = some party →
      finishingWrite fleet label = some (party,finish) →
      JobsStep fleet label (update fleet.db.jobs finish.id finish.change) fleet.latest
  | cancelled (selected : List Nat) : actor label = none →
      JobsStep fleet label (cancelRunJobs fleet.db.jobs selected) fleet.latest

def polled : ChatPhase → Option JobType
  | .polling jobType => some jobType
  | .claiming jobType _ _ => some jobType
  | _ => none
/-- Owners claimed last; the workers claim the jobs of their own types. -/
structure Leases (fleet : Fleet workers requests chats) : Prop where
  owned : ∀ id row (w : Fin workers), find fleet.db.jobs id = some row → row.jobType = .backtestPreview →
    row.leaseOwner = some w.val → fleet.latest id = some (.backtest w)
  preview : ∀ w job, (fleet.world.worker w).job = some job →
    ∃ row, find fleet.db.jobs job.id = some row ∧ row.jobType = .backtestPreview
  polls : ∀ c, polled (fleet.chat c) ≠ some .backtestPreview
theorem nextJobType_chat (jobType : JobType) : nextJobType jobType ≠ .backtestPreview := by cases jobType <;> decide

variable {settings : Settings}
variable {db : Db} {outcome : Outcome} {workerId : Nat}

theorem work_jobs {phase : Phase} {next : Phase × Db} (stepped : work settings workerId db phase outcome = some next) :
    (next.2.jobs = db.jobs ∧ (outcome = .ok → finishing phase = none)) ∨
    (∃ finish, outcome = .ok ∧ finishing phase = some finish ∧ next.2.jobs = update db.jobs finish.id finish.change) ∨
    (∃ job, phase = .renewing job ∧
      renewJobLeaseOrThrow settings db.now db.runs db.jobs job.id workerId = some next.2.jobs) := by
  cases outcome with
  | crashed =>
    have stopped := work_crashed stepped
    subst stopped
    exact .inl ⟨rfl,by simp⟩
  | raised error =>
    rcases work_raised stepped with rfl | ⟨job,_,rfl⟩
    · exact .inl ⟨rfl,by simp⟩
    · exact .inl ⟨rfl,by simp⟩
  | ok =>
    cases phase with
    | idle => simp [work] at stepped
    | claiming snapshot at_ => simp [work] at stepped
    | claimed job | rechecking job =>
      simp only [work] at stepped
      split at stepped
      · cases stepped
        exact .inl ⟨rfl,fun _ => rfl⟩
      · split at stepped <;> cases stepped <;> exact .inl ⟨rfl,fun _ => rfl⟩
    | refusing job | persisting job =>
      simp only [work,Option.some.injEq] at stepped
      subst stepped
      exact .inr (.inl ⟨_,rfl,rfl,rfl⟩)
    | starting job | closing job | requeued job error | failed job error | announcing job =>
      simp only [work,Option.some.injEq] at stepped
      subst stepped
      exact .inl ⟨rfl,fun _ => rfl⟩
    | executing job lost =>
      simp only [work] at stepped
      split at stepped <;> cases stepped <;> exact .inl ⟨rfl,fun _ => rfl⟩
    | renewing job =>
      simp only [work] at stepped
      split at stepped
      · cases stepped
        exact .inl ⟨rfl,fun _ => rfl⟩
      · rename_i jobs answered
        cases stepped
        exact .inr (.inr ⟨job,rfl,answered⟩)
    | failing job error =>
      simp only [work] at stepped
      split at stepped <;> cases stepped <;> exact .inl ⟨rfl,fun _ => rfl⟩
    | recording job error =>
      simp only [work] at stepped
      split at stepped
      · rename_i again
        cases stepped
        exact .inr (.inl ⟨⟨job.id,.queued,some error,none⟩,rfl,by simp [finishing,again],rfl⟩)
      · rename_i last
        cases stepped
        exact .inr (.inl ⟨⟨job.id,.failed,some error,none⟩,rfl,by simp [finishing,last],rfl⟩)

variable {phase : ChatPhase}

theorem chatWork_jobs {next : ChatPhase × Db} (stepped : chatWork db phase outcome = some next) :
    (next.2.jobs = db.jobs ∧ (outcome = .ok → chatFinishing phase = none)) ∨
    ∃ finish, outcome = .ok ∧ chatFinishing phase = some finish ∧ next.2.jobs = update db.jobs finish.id finish.change := by
  cases outcome with
  | crashed =>
    cases phase <;> simp only [chatWork,Option.some.injEq] at stepped <;> subst stepped <;> exact .inl ⟨rfl,by simp⟩
  | raised error =>
    refine .inl ⟨?_,by simp⟩
    cases phase with
    | polling jobType => simp [chatWork] at stepped
    | claiming jobType snapshot at_ => simp [chatWork] at stepped
    | processing job | reporting job =>
      simp only [chatWork,Option.some.injEq] at stepped
      subst stepped
      rfl
    | completing job status errorCode | saving job loaded status errorCode =>
      simp only [chatWork] at stepped
      split at stepped <;> cases stepped <;> rfl
  | ok =>
    cases phase with
    | polling jobType => simp [chatWork] at stepped
    | claiming jobType snapshot at_ => simp [chatWork] at stepped
    | processing job | reporting job =>
      simp only [chatWork,Option.some.injEq] at stepped
      subst stepped
      exact .inl ⟨rfl,fun _ => rfl⟩
    | completing job status errorCode =>
      simp only [chatWork] at stepped
      split at stepped <;> cases stepped <;> exact .inl ⟨rfl,fun _ => rfl⟩
    | saving job loaded status errorCode =>
      simp only [chatWork,Option.some.injEq] at stepped
      subst stepped
      exact .inr ⟨_,rfl,rfl,rfl⟩

variable {jobs : List RunJobRow}
variable {job : RunJobRow}

theorem renewed_jobs {now : Nat} {runs : List AssistantRunRow} {after : List RunJobRow} (preview : ∃ row, find jobs job.id = some row ∧ row.jobType = .backtestPreview)
    (answered : renewJobLeaseOrThrow settings now runs jobs job.id workerId = some after) :
    after = update jobs job.id (renewed (now + settings.leaseSeconds)) ∧
      ∃ row, find jobs job.id = some row ∧ row.jobType = .backtestPreview ∧ row.leaseOwner = some workerId := by
  obtain ⟨⟨row,found,owned⟩,rfl⟩ := renewJobLeaseOrThrow_some answered
  obtain ⟨same,foundSame,ofType⟩ := preview
  rw [found] at foundSame
  cases foundSame
  simp only [renewable,Bool.and_eq_true,beq_iff_eq] at owned
  exact ⟨rfl,row,found,ofType,owned.1.2⟩

variable {fleet next : Fleet workers requests chats}

/-- Every step of the fleet is one of the changes of `JobsStep`. -/
theorem backtestStep_jobs
    {label : Label workers requests} (leases : Leases fleet) (stepped : backtestStep settings fleet label = some next) :
    JobsStep fleet (.backtest label) next.db.jobs next.latest := by
  obtain ⟨world,moved,rfl⟩ := Option.map_eq_some_iff.mp stepped
  cases label with
  | tick amount =>
    cases moved
    exact .same rfl
  | createRun id =>
    simp only [step] at moved
    split at moved <;> cases moved
    exact .same rfl
  | createRunJob input =>
    simp only [step] at moved
    split at moved <;> cases moved
    rename_i fresh
    exact .created input rfl fresh.1
  | claim w =>
    simp only [step] at moved
    split at moved <;> cases moved
    exact .same rfl
  | take w locked =>
    simp only [step,take] at moved
    split at moved
    · rename_i snapshot at_ phase
      split at moved
      · rename_i nobody
        cases moved
        have none_ : takes settings fleet.world w locked = none := by simp only [takes,phase,nobody]
        simp only [none_]
        exact .same rfl
      · rename_i job candidate
        cases moved
        have some_ : takes settings fleet.world w locked = some job := by simp only [takes,phase,candidate]
        simp only [some_]
        obtain ⟨found,free⟩ := claimCandidate_some candidate
        simp only [claimable,Bool.and_eq_true,beq_iff_eq] at free
        exact .taken w job settings at_ rfl found free.1.1.1
    · cases moved
  | heartbeat w connected =>
    obtain ⟨after,beat,rfl⟩ := Option.map_eq_some_iff.mp moved
    unfold heartbeat at beat
    split at beat
    · rename_i job phase
      split at beat
      · cases beat
        exact .same rfl
      · rename_i jobs answered
        cases beat
        split at answered
        · obtain ⟨rfl,row,owned⟩ := renewed_jobs (leases.preview w job (by rw [phase]; rfl)) answered
          exact .renewed w job.id _ rfl rfl ⟨row,owned⟩
        · cases answered
    · cases beat
      exact .same rfl
    · cases beat
  | work w outcome =>
    obtain ⟨after,worked,rfl⟩ := Option.map_eq_some_iff.mp moved
    rcases work_jobs worked with ⟨same,unfinished⟩ | ⟨finish,rfl,isFinishing,changed⟩ | ⟨job,phase,answered⟩
    · have nothing : finishingWrite fleet (.backtest (.work w outcome)) = none := by
        cases outcome with
        | ok => simp [finishingWrite,unfinished rfl]
        | raised error => rfl
        | crashed => rfl
      change JobsStep _ _ after.2.jobs _
      rw [same]
      exact .same nothing
    · change JobsStep _ _ after.2.jobs _
      rw [changed]
      exact .finished (.backtest w) finish rfl (by simp [finishingWrite,isFinishing])
    · obtain ⟨changed,row,owned⟩ := renewed_jobs (leases.preview w job (by rw [phase]; rfl)) answered
      have nothing : finishingWrite fleet (.backtest (.work w outcome)) = none := by
        cases outcome with
        | ok => simp [finishingWrite,phase,finishing]
        | raised error => rfl
        | crashed => rfl
      change JobsStep _ _ after.2.jobs _
      rw [changed]
      exact .renewed w job.id _ rfl nothing ⟨row,owned⟩
  | cancelRun c runId =>
    simp only [step] at moved
    split at moved
    · split at moved <;> cases moved <;> exact .same rfl
    · cases moved
  | cancel c =>
    obtain ⟨after,answered,rfl⟩ := Option.map_eq_some_iff.mp moved
    unfold cancel at answered
    split at answered
    · cases answered
    · split at answered <;> cases answered <;> exact .same rfl
    · split at answered <;> cases answered <;> exact .same rfl
    · cases answered
      exact .same rfl
    · rename_i jobs phase
      cases answered
      exact .cancelled jobs rfl

variable {label : FleetLabel workers requests chats}

theorem fleetStep_jobs (leases : Leases fleet) (stepped : fleetStep settings fleet label = some next) :
    JobsStep fleet label next.db.jobs next.latest := by
  cases label with
  | backtest label => exact backtestStep_jobs leases stepped
  | claim c =>
    simp only [fleetStep] at stepped
    split at stepped <;> cases stepped
    exact .same rfl
  | take c locked =>
    simp only [fleetStep,chatTake] at stepped
    split at stepped
    · rename_i jobType snapshot at_ phase
      split at stepped
      · cases stepped
        exact .same rfl
      · rename_i loaded job rows
        cases stepped
        obtain ⟨_,found,free,_⟩ := claimRows_some rows
        simp only [claimable,Bool.and_eq_true,beq_iff_eq] at free
        refine .chatTaken c loaded job _ _ rfl found ?_
        have others := leases.polls c
        rw [phase] at others
        rw [free.1.1.1]
        exact fun same => others (congrArg some same)
    · cases stepped
  | work c outcome =>
    obtain ⟨after,worked,rfl⟩ := Option.map_eq_some_iff.mp stepped
    rcases chatWork_jobs worked with ⟨same,unfinished⟩ | ⟨finish,rfl,isFinishing,changed⟩
    · have nothing : finishingWrite fleet (.work c outcome) = none := by
        cases outcome with
        | ok => simp [finishingWrite,unfinished rfl]
        | raised error => rfl
        | crashed => rfl
      change JobsStep _ _ after.2.jobs _
      rw [same]
      exact .same nothing
    · change JobsStep _ _ after.2.jobs _
      rw [changed]
      exact .finished (.chat c) finish rfl (by simp [finishingWrite,isFinishing])

variable {id : Nat} {later : RunJobRow} {other : Nat}

theorem row_update {change : RunJobRow → RunJobRow} (keyed : ∀ row, Keyed.key (change row) = Keyed.key row)
    (found : find (update jobs id change) other = some later) :
    find jobs other = some later ∧ other ≠ id ∨ ∃ row, find jobs other = some row ∧ later = change row ∧ other = id := by
  rw [find_update keyed] at found
  split at found
  · rename_i same
    obtain ⟨row,was,rfl⟩ := Option.map_eq_some_iff.mp found
    exact .inr ⟨row,was,rfl,same⟩
  · rename_i apart
    exact .inl ⟨found,apart⟩

def SameJob (row later : RunJobRow) : Prop :=
  later.jobType = row.jobType ∧ later.workspaceId = row.workspaceId ∧
    later.workspaceActiveLimit = row.workspaceActiveLimit
theorem change_sameJob (finish : Finish) (row : RunJobRow) : SameJob row (finish.change row) := by
  cases same : finish.loaded <;> simp [SameJob,Finish.change,same,completeRunJob,finished]
theorem sameJob_update {change : RunJobRow → RunJobRow}
    (keyed : ∀ row, Keyed.key (change row) = Keyed.key row) (same : ∀ row, SameJob row (change row)) (found : find jobs other = some row) :
    ∃ later, find (update jobs id change) other = some later ∧ SameJob row later := by
  rw [find_update keyed,found]
  split
  · exact ⟨change row,rfl,same row⟩
  · exact ⟨row,rfl,rfl,rfl,rfl⟩

variable {latest : Nat → Option (Party workers chats)}

theorem jobsStep_sameJob (change : JobsStep fleet label jobs latest) (found : find fleet.db.jobs id = some row) :
    ∃ later, find jobs id = some later ∧ SameJob row later := by
  cases change with
  | same _ => exact ⟨row,found,rfl,rfl,rfl⟩
  | created input _ fresh => exact ⟨row,by rw [find_append,found]; rfl,rfl,rfl,rfl⟩
  | taken w job settings at_ _ _ _ => exact sameJob_update (by intro other; rfl) (by intro other; exact ⟨rfl,rfl,rfl⟩) found
  | chatTaken c loaded job leaseSeconds at_ _ _ _ =>
    exact sameJob_update (by intro other; rfl) (by intro other; exact ⟨rfl,rfl,rfl⟩) found
  | renewed w job until_ _ _ _ => exact sameJob_update (by intro other; rfl) (by intro other; exact ⟨rfl,rfl,rfl⟩) found
  | finished party finish _ _ => exact sameJob_update (change_id finish) (change_sameJob finish) found
  | cancelled selected _ =>
    rw [find_cancelRunJobs,found]
    split
    · exact ⟨_,rfl,rfl,rfl,rfl⟩
    · exact ⟨row,rfl,rfl,rfl,rfl⟩

theorem jobsStep_distinct (change : JobsStep fleet label jobs latest)
    (distinct : (fleet.db.jobs.map Keyed.key).Nodup) : (jobs.map Keyed.key).Nodup := by
  cases change with
  | same _ => exact distinct
  | created input _ fresh =>
    rw [List.map_append,List.map_cons,List.map_nil,← List.concat_eq_append,List.nodup_concat]
    exact ⟨find_none.mp fresh,distinct⟩
  | taken w job settings at_ _ _ _ | chatTaken c loaded job leaseSeconds at_ _ _ _ | renewed w job until_ _ _ _ =>
    rw [keys_update (by intro other; rfl)]
    exact distinct
  | finished party finish _ _ =>
    rw [keys_update (change_id finish)]
    exact distinct
  | cancelled selected _ =>
    rw [cancelRunJobs,keys_updateAll (by intro other; rfl)]
    exact distinct

variable {w : Fin workers}

theorem jobsStep_owned (leases : Leases fleet) (change : JobsStep fleet label jobs latest)
    (found : find jobs id = some later) (ofType : later.jobType = .backtestPreview)
    (owner : later.leaseOwner = some w.val) : latest id = some (.backtest w) := by
  cases change with
  | same _ => exact leases.owned id later w found ofType owner
  | created input _ fresh =>
    rw [find_append_fresh fresh] at found
    split at found
    · cases found
      cases owner
    · exact leases.owned id later w found ofType owner
  | taken v job settings at_ _ _ _ =>
    rcases row_update (by intro other; rfl) found with ⟨was,apart⟩ | ⟨row,was,rfl,same⟩
    · rw [update_of_ne apart]
      exact leases.owned id later w was ofType owner
    · have mine : v = w := Fin.ext (Option.some.inj owner)
      rw [same,update_self,mine]
  | chatTaken c loaded job leaseSeconds at_ _ isJob other =>
    rcases row_update (by intro other; rfl) found with ⟨was,apart⟩ | ⟨row,was,rfl,same⟩
    · rw [update_of_ne apart]
      exact leases.owned id later w was ofType owner
    · subst same
      rw [isJob] at was
      cases was
      exact absurd ofType other
  | renewed v job until_ _ _ _ =>
    rcases row_update (by intro other; rfl) found with ⟨was,_⟩ | ⟨row,was,rfl,_⟩
    · exact leases.owned id later w was ofType owner
    · exact leases.owned id row w was ofType owner
  | finished party finish _ _ =>
    rcases row_update (change_id finish) found with ⟨was,_⟩ | ⟨row,was,rfl,_⟩
    · exact leases.owned id later w was ofType owner
    · exact leases.owned id row w was ((change_sameJob finish row).1 ▸ ofType) (change_leaseOwner finish owner)
  | cancelled selected _ =>
    rw [find_cancelRunJobs] at found
    split at found
    · obtain ⟨row,_,rfl⟩ := Option.map_eq_some_iff.mp found
      cases owner
    · exact leases.owned id later w found ofType owner

variable {v : Fin workers}
variable {world : World workers requests}
theorem put_held {next : Phase × Db}
    (held : ((world.put w next).worker v).job = some job) : next.1.job = some job ∧ v = w ∨ (world.worker v).job = some job := by
  simp only [World.put,update_apply] at held
  split at held
  · rename_i same
    exact .inl ⟨held,same⟩
  · exact .inr held

theorem step_held {next : World workers requests} {label : Label workers requests}
    (stepped : step settings world label = some next) (held : (next.worker v).job = some job) :
    (world.worker v).job = some job ∨ ∃ row, find world.db.jobs job.id = some row ∧ row.jobType = .backtestPreview := by
  cases label with
  | tick amount =>
    cases stepped
    exact .inl held
  | createRun id =>
    simp only [step] at stepped
    split at stepped <;> cases stepped
    exact .inl held
  | createRunJob input =>
    simp only [step] at stepped
    split at stepped <;> cases stepped
    exact .inl held
  | claim w =>
    simp only [step] at stepped
    split at stepped <;> cases stepped
    rcases put_held held with ⟨⟨⟩,_⟩ | before
    exact .inl before
  | take w locked =>
    simp only [step,take] at stepped
    split at stepped
    · split at stepped
      · cases stepped
        rcases put_held held with ⟨⟨⟩,_⟩ | before
        exact .inl before
      · rename_i candidate
        cases stepped
        rcases put_held held with ⟨⟨⟩,_⟩ | before
        · obtain ⟨found,free⟩ := claimCandidate_some candidate
          simp only [claimable,Bool.and_eq_true,beq_iff_eq] at free
          exact .inr ⟨_,found,free.1.1.1⟩
        · exact .inl before
    · cases stepped
  | heartbeat w connected =>
    obtain ⟨after,beat,rfl⟩ := Option.map_eq_some_iff.mp stepped
    obtain ⟨mine,lost,phase,⟨later,still⟩,_⟩ := heartbeat_writes beat
    rcases put_held held with ⟨own,rfl⟩ | before
    · rw [still] at own
      rw [phase]
      exact .inl own
    · exact .inl before
  | work w outcome =>
    obtain ⟨after,worked,rfl⟩ := Option.map_eq_some_iff.mp stepped
    obtain ⟨mine,phase,still | done,_⟩ := work_writes worked
    · rcases put_held held with ⟨own,rfl⟩ | before
      · rw [phase]
        exact .inl (still.symm.trans own)
      · exact .inl before
    · rcases put_held held with ⟨own,rfl⟩ | before
      · rw [done] at own
        cases own
      · exact .inl before
  | cancelRun c runId =>
    simp only [step] at stepped
    split at stepped
    · split at stepped <;> cases stepped <;> exact .inl held
    · cases stepped
  | cancel c =>
    obtain ⟨after,answered,rfl⟩ := Option.map_eq_some_iff.mp stepped
    exact .inl held

theorem backtestStep_world
    {label : Label workers requests} (stepped : backtestStep settings fleet label = some next) :
    step settings fleet.world label = some next.world ∧ next.chat = fleet.chat := by
  obtain ⟨world,moved,rfl⟩ := Option.map_eq_some_iff.mp stepped
  rw [moved]
  split
  · split <;> exact ⟨rfl,rfl⟩
  · exact ⟨rfl,rfl⟩

theorem fleetStep_held (stepped : fleetStep settings fleet label = some next) (held : (next.world.worker v).job = some job) :
    (fleet.world.worker v).job = some job ∨ ∃ row, find fleet.db.jobs job.id = some row ∧ row.jobType = .backtestPreview := by
  cases label with
  | backtest label => exact step_held (backtestStep_world stepped).1 held
  | claim c =>
    simp only [fleetStep] at stepped
    split at stepped <;> cases stepped
    exact .inl held
  | take c locked =>
    simp only [fleetStep,chatTake] at stepped
    split at stepped
    · split at stepped <;> cases stepped <;> exact .inl held
    · cases stepped
  | work c outcome =>
    obtain ⟨after,worked,rfl⟩ := Option.map_eq_some_iff.mp stepped
    exact .inl held

theorem chatWork_polled {next : ChatPhase × Db}
    (stepped : chatWork db phase outcome = some next) : polled next.1 ≠ some .backtestPreview := by
  cases phase <;> cases outcome <;> simp only [chatWork] at stepped <;> try split at stepped
  all_goals cases stepped <;> simp [polled,ChatPhase.start]

theorem leases_step (leases : Leases fleet) (stepped : fleetStep settings fleet label = some next) : Leases next := by
  have change := fleetStep_jobs leases stepped
  refine ⟨fun id row w => jobsStep_owned leases change,?_,?_⟩
  · intro w job held
    obtain ⟨row,found,ofType⟩ := (fleetStep_held stepped held).elim (leases.preview w job) id
    obtain ⟨later,foundLater,same,_⟩ := jobsStep_sameJob change found
    exact ⟨later,foundLater,same.trans ofType⟩
  · intro c
    have before := leases.polls c
    cases label with
    | backtest label => rwa [(backtestStep_world stepped).2]
    | claim d =>
      simp only [fleetStep] at stepped
      split at stepped <;> cases stepped
      rename_i jobType phase
      simp only [Fleet.put,update_apply]
      split
      · rename_i same
        rwa [same,phase] at before
      · exact before
    | take d locked =>
      simp only [fleetStep,chatTake] at stepped
      split at stepped
      · split at stepped
        · cases stepped
          simp only [Fleet.put,update_apply]
          split
          · exact fun same => nextJobType_chat _ (Option.some.inj same)
          · exact before
        · cases stepped
          simp only [Fleet.put,Fleet.remember,update_apply]
          split
          · simp [polled]
          · exact before
      · cases stepped
    | work d outcome =>
      obtain ⟨after,worked,rfl⟩ := Option.map_eq_some_iff.mp stepped
      simp only [Fleet.put,update_apply]
      split
      · exact chatWork_polled worked
      · exact before

theorem leases_initial : Leases (initialFleet workers requests chats) := by
  refine ⟨?_,?_,?_⟩
  · intro id row w found
    cases found
  · intro w job held
    cases held
  · intro c same
    cases same

theorem finishing_work {workerId : Nat} {db : Db} {phase : Phase} {finish : Finish}
    (isFinishing : finishing phase = some finish) : ∃ next, work settings workerId db phase .ok = some next ∧
      next.2.jobs = update db.jobs finish.id finish.change := by
  unfold finishing at isFinishing
  split at isFinishing
  · cases isFinishing
    exact ⟨_,rfl,rfl⟩
  · cases isFinishing
    exact ⟨_,rfl,rfl⟩
  · split at isFinishing
    · rename_i again
      cases isFinishing
      exact ⟨_,if_pos again,rfl⟩
    · rename_i last
      cases isFinishing
      exact ⟨_,if_neg last,rfl⟩
  · cases isFinishing

theorem finishing_step {fleet : Fleet workers requests chats}
    {label : FleetLabel workers requests chats} {party : Party workers chats} {finish : Finish}
    (write : finishingWrite fleet label = some (party,finish)) :
    ∃ next, fleetStep settings fleet label = some next ∧ actor label = some party ∧
      next.db.jobs = update fleet.db.jobs finish.id finish.change := by
  unfold finishingWrite at write
  split at write
  · rename_i w
    obtain ⟨same,isFinishing,written⟩ := Option.map_eq_some_iff.mp write
    cases written
    obtain ⟨next,worked,changed⟩ := @finishing_work settings w fleet.db _ _ isFinishing
    change work settings w fleet.world.db _ _ = _ at worked
    refine ⟨{ fleet with world := fleet.world.put w next },?_,rfl,changed⟩
    simp only [fleetStep,backtestStep,step,worked,Option.map_some]
  · rename_i c
    obtain ⟨same,isFinishing,written⟩ := Option.map_eq_some_iff.mp write
    cases written
    unfold chatFinishing at isFinishing
    split at isFinishing
    · rename_i phase
      cases isFinishing
      exact ⟨fleet.put c _,by rw [fleetStep,phase]; rfl,rfl,rfl⟩
    · cases isFinishing
  · cases write

theorem fenced_step_iff (leases : Leases fleet) (label : FleetLabel workers requests chats) :
    Fenced settings fleet label ↔ Harmless fleet label := by
  constructor
  · rintro fenced ⟨party,finish⟩ write other row found
    obtain ⟨next,stepped,acts,changed⟩ := @finishing_step _ _ _ settings _ _ _ _ write
    rw [← change_eq_iff]
    by_contra differs
    refine other (fenced next stepped party acts finish.id row found ?_)
    rw [changed,find_update (change_id finish),if_pos rfl,found]
    exact fun same => differs (Option.some.inj same)
  · intro harmless next stepped party acts id row found differs
    have change := fleetStep_jobs leases stepped
    generalize next.db.jobs = jobs at change differs
    generalize next.latest = latest at change
    cases change with
    | same _ => exact absurd found differs
    | created input nobody _ | taken w job settings at_ nobody _ _ | chatTaken c loaded job leaseSeconds at_ nobody _ _
    | cancelled selected nobody =>
      rw [nobody] at acts
      cases acts
    | renewed w job until_ isActor _ owned =>
      rw [isActor] at acts
      cases acts
      obtain ⟨mine,foundMine,ofType,owner⟩ := owned
      by_cases same : id = job
      · subst same
        exact leases.owned id mine w foundMine ofType owner
      · rw [find_renewed,if_neg same] at differs
        exact absurd found differs
    | finished writer finish isActor write =>
      rw [isActor] at acts
      cases acts
      by_cases same : id = finish.id
      · subst same
        by_contra other
        refine differs ?_
        rw [find_update (change_id finish),if_pos rfl,found]
        exact congrArg some ((change_eq_iff finish row).mpr (harmless _ write other row found))
      · rw [find_update (change_id finish),if_neg same] at differs
        exact absurd found differs

/-- The writes of the workers change no job but those that they claimed last
    exactly in the runs where no late finishing write changes anything. -/
theorem fenced_iff_harmless (settings : Settings) (labels : List (FleetLabel workers requests chats)) :
    Meets (fleetStep settings) (Fenced settings) (initialFleet workers requests chats) labels ↔
      Meets (fleetStep settings) Harmless (initialFleet workers requests chats) labels :=
  meets_iff (fun _ _ _ leases _ => leases_step leases) (fun _ label leases => fenced_step_iff leases label) leases_initial

local instance twoWorkers : @NeZero Nat Zero.ofOfNat0 2 := @NeZero.mk Nat Zero.ofOfNat0 2 (Nat.succ_ne_zero 1)

/-- A chat worker is at its commit when its lease has expired and the job was
    claimed by another worker. -/
def untilTakenOver : List (FleetLabel 0 0 2) :=
  [.backtest (.createRun 0),.backtest (.createRunJob ⟨0,0,0,.chatBacktestSummary,.missing,none,2⟩),
    .claim 0,.take 0 [],.claim 0,.take 0 [],.work 0 .ok,.backtest (.tick 100),
    .claim 1,.take 1 [],.claim 1,.take 1 [],.work 0 .ok]

theorem not_always_fenced : ¬ ∀ (workers requests chats : Nat) (settings : Settings)
    (labels : List (FleetLabel workers requests chats)),
    Meets (fleetStep settings) (Fenced settings) (initialFleet workers requests chats) labels := by
  intro always
  have meets := always 0 0 2 ⟨60,60,1,1⟩ (untilTakenOver ++ [FleetLabel.work 0 .ok])
  obtain ⟨fleet,reached,late⟩ : ∃ fleet, run (fleetStep ⟨60,60,1,1⟩) (initialFleet 0 0 2) untilTakenOver = some fleet ∧
      ¬ Harmless fleet (.work 0 .ok) := ⟨_,rfl,by decide⟩
  have leases : Leases fleet := reachable_keeps (fun _ _ _ => leases_step) leases_initial ⟨_,reached⟩
  exact late ((fenced_step_iff leases _).mp ((meets_append meets).2 fleet reached).1)

end Codebot.JobLeases
