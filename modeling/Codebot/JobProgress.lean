import Codebot.JobLeases

/-!
Whether a job can get stuck. A job that is not done is held under a lease or waits for a claim (`moving`), and a claim
needs an attempt that is left. A worker that dies on the last attempt leaves its job running without either
(`jobs_get_stuck`, `none_stuck_iff`).
-/
namespace Codebot.JobProgress
open Runs Tables JobTable BacktestWorker ChatWorker JobLeases
variable {workers requests chats : Nat}

/-- The job has ended, or is held under a lease, or can be claimed. -/
def moving (now : Nat) (job : RunJobRow) : Bool :=
  isTerminalRunStatus job.status || leaseActive now job || claimable now job.jobType job
def NoneStuck (fleet : Fleet workers requests chats) : Prop :=
  ∀ job ∈ fleet.db.jobs, moving fleet.db.now job ∧ job.attempts ≤ job.maxAttempts
/-- No job is stuck after the step. -/
def StaysMoving (settings : Settings) (fleet : Fleet workers requests chats) (label : FleetLabel workers requests chats) :
    Prop :=
  ∀ next, fleetStep settings fleet label = some next → NoneStuck next

/-- The lease of a job on its last attempt does not run out while it runs or before the claim commits, and no job
    without attempts is queued. -/
def LastAttemptsEnd (settings : Settings) (fleet : Fleet workers requests chats) :
    FleetLabel workers requests chats → Prop
  | .backtest (.tick amount) => ∀ job ∈ fleet.db.jobs, job.status = .running →
      job.attempts < job.maxAttempts ∨ leaseActive (fleet.db.now + amount) job
  | .backtest (.createRunJob input) => find fleet.db.jobs input.id = none → (find fleet.db.runs input.runId).isSome →
      0 < input.maxAttempts
  | .backtest (.take w locked) => ∀ snapshot at_, fleet.world.worker w = .claiming snapshot at_ →
      ∀ job ∈ claimCandidate settings .claimJob at_ snapshot locked fleet.db.jobs,
        job.attempts + 1 < job.maxAttempts ∨ fleet.db.now ≤ at_ + settings.leaseSeconds
  | .take c locked => ∀ jobType snapshot at_, fleet.chat c = .claiming jobType snapshot at_ →
      ∀ rows ∈ claimRows settings (.claimRunJob jobType) at_ snapshot locked fleet.db.jobs,
        rows.1.attempts + 1 < rows.2.maxAttempts ∨ fleet.db.now ≤ at_ + settings.chatLeaseSeconds
  | .backtest (.work w .ok) => ∀ job error, fleet.world.worker w = .recording job error → job.attempts < job.maxAttempts →
      ∀ row ∈ find fleet.db.jobs job.id, row.attempts < row.maxAttempts
  | _ => True

/-- The clock and the jobs after a step, with what the step found. -/
inductive Move (settings : Settings) (fleet : Fleet workers requests chats) (label : FleetLabel workers requests chats) :
    Nat → List RunJobRow → Prop
  | same : Move settings fleet label fleet.db.now fleet.db.jobs
  | ticked (amount : Nat) : label = .backtest (.tick amount) →
      Move settings fleet label (fleet.db.now + amount) fleet.db.jobs
  | created (input : JobInput) : label = .backtest (.createRunJob input) → find fleet.db.jobs input.id = none →
      (find fleet.db.runs input.runId).isSome →
      Move settings fleet label fleet.db.now (fleet.db.jobs ++ [input.row fleet.db.now])
  | taken (w : Fin workers) (locked : List Nat) (snapshot : List RunJobRow) (at_ : Nat) (job : RunJobRow) :
      label = .backtest (.take w locked) → fleet.world.worker w = .claiming snapshot at_ →
      claimCandidate settings .claimJob at_ snapshot locked fleet.db.jobs = some job →
      Move settings fleet label fleet.db.now (update fleet.db.jobs job.id (claimed settings at_ w))
  | chatTaken (c : Fin chats) (locked : List Nat) (jobType : JobType) (snapshot : List RunJobRow) (at_ : Nat)
      (loaded job : RunJobRow) : label = .take c locked → fleet.chat c = .claiming jobType snapshot at_ →
      claimRows settings (.claimRunJob jobType) at_ snapshot locked fleet.db.jobs = some (loaded,job) →
      Move settings fleet label fleet.db.now (update fleet.db.jobs job.id
        (claimedRunJob settings.chatLeaseSeconds at_ (Party.chat c : Party workers chats).workerId loaded))
  | renewed (id : Nat) (row : RunJobRow) : find fleet.db.jobs id = some row → row.status = .running →
      Move settings fleet label fleet.db.now
        (update fleet.db.jobs id (JobTable.renewed (fleet.db.now + settings.leaseSeconds)))
  | finished (party : Party workers chats) (finish : Finish) : finishingWrite fleet label = some (party,finish) →
      Move settings fleet label fleet.db.now (update fleet.db.jobs finish.id finish.change)
  | cancelled (selected : List Nat) : Move settings fleet label fleet.db.now (cancelRunJobs fleet.db.jobs selected)

variable {jobs : List RunJobRow} {now : Nat} {settings : Settings}
variable {workerId : Nat}
theorem renewal_running {runs : List AssistantRunRow} {after : List RunJobRow}
    {jobId : Nat} (answered : renewJobLeaseOrThrow settings now runs jobs jobId workerId = some after) :
    after = update jobs jobId (JobTable.renewed (now + settings.leaseSeconds)) ∧
      ∃ row, find jobs jobId = some row ∧ row.status = .running := by
  obtain ⟨⟨row,found,owned⟩,rfl⟩ := renewJobLeaseOrThrow_some answered
  simp only [renewable,Bool.and_eq_true,beq_iff_eq] at owned
  exact ⟨rfl,row,found,owned.1.1⟩

variable {after : Phase × Db} {fleet : Fleet workers requests chats} {w : Fin workers}

theorem heartbeat_move {connected : Bool} (beat : heartbeat settings w fleet.db (fleet.world.worker w) connected = some after) :
    Move settings fleet (.backtest (.heartbeat w connected)) after.2.now after.2.jobs := by
  unfold heartbeat at beat
  split at beat
  · rename_i job phase
    split at beat
    · cases beat
      exact .same
    · rename_i jobs answered
      cases beat
      split at answered
      · obtain ⟨rfl,row,found,running⟩ := renewal_running answered
        exact .renewed job.id row found running
      · cases answered
  · cases beat
    exact .same
  · cases beat

variable {outcome : Outcome}
theorem work_now {db : Db} {phase : Phase}
    {next : Phase × Db} (stepped : work settings workerId db phase outcome = some next) : next.2.now = db.now := by
  obtain ⟨job,_,_,same | ⟨status,errorCode,same⟩ | ⟨_,⟨status,errorCode,same⟩ | ⟨until_,same⟩⟩⟩ :=
    TerminalStatuses.work_writes stepped <;> rw [same]

theorem work_move (worked : work settings w fleet.db (fleet.world.worker w) outcome = some after) :
    Move settings fleet (.backtest (.work w outcome)) after.2.now after.2.jobs := by
  rw [work_now worked]
  rcases work_jobs worked with ⟨same,_⟩ | ⟨finish,rfl,isFinishing,changed⟩ | ⟨job,phase,answered⟩
  · rw [same]
    exact .same
  · rw [changed]
    exact .finished (.backtest w) finish (by simp [finishingWrite,isFinishing])
  · obtain ⟨changed,row,found,running⟩ := renewal_running answered
    rw [changed]
    exact .renewed job.id row found running

variable {c : Fin chats}

theorem chatWork_move {after : ChatPhase × Db} (worked : chatWork fleet.db (fleet.chat c) outcome = some after) :
    Move settings fleet (.work c outcome) after.2.now after.2.jobs := by
  have clock : after.2.now = fleet.db.now := by
    unfold chatWork at worked
    split at worked <;> try split at worked
    all_goals cases worked <;> rfl
  rw [clock]
  rcases chatWork_jobs worked with ⟨same,_⟩ | ⟨finish,rfl,isFinishing,changed⟩
  · rw [same]
    exact .same
  · rw [changed]
    exact .finished (.chat c) finish (by simp [finishingWrite,isFinishing])

theorem cancel_move {c : Fin requests} {phase : CancelPhase}
    {after : CancelPhase × Db} (answered : cancel fleet.db phase = some after) :
    Move settings fleet (.backtest (.cancel c)) after.2.now after.2.jobs := by
  cases phase with
  | idle => cases answered
  | checked runId | loaded runId status =>
    simp only [cancel] at answered
    split at answered <;> cases answered <;> exact .same
  | marked runId =>
    cases answered
    exact .same
  | selected runId jobs =>
    cases answered
    exact .cancelled jobs

variable {label : FleetLabel workers requests chats} {next : Fleet workers requests chats}

theorem step_move (stepped : fleetStep settings fleet label = some next) :
    Move settings fleet label next.db.now next.db.jobs := by
  cases label with
  | backtest label =>
    obtain ⟨moved,_⟩ := backtestStep_world stepped
    change Move settings fleet (.backtest label) next.world.db.now next.world.db.jobs
    generalize next.world = world at moved
    cases label with
    | tick amount =>
      cases moved
      exact .ticked amount rfl
    | createRun id =>
      simp only [step] at moved
      split at moved <;> cases moved
      exact .same
    | createRunJob input =>
      simp only [step] at moved
      split at moved <;> cases moved
      rename_i fresh
      exact .created input rfl fresh.1 fresh.2
    | claim w =>
      simp only [step] at moved
      split at moved <;> cases moved
      exact .same
    | take w locked =>
      simp only [step,take] at moved
      split at moved
      · rename_i snapshot at_ phase
        split at moved
        · cases moved
          exact .same
        · rename_i job candidate
          cases moved
          exact .taken w locked snapshot at_ job rfl phase candidate
      · cases moved
    | heartbeat w connected =>
      obtain ⟨after,beat,rfl⟩ := Option.map_eq_some_iff.mp moved
      exact heartbeat_move beat
    | work w outcome =>
      obtain ⟨after,worked,rfl⟩ := Option.map_eq_some_iff.mp moved
      exact work_move worked
    | cancelRun c runId =>
      simp only [step] at moved
      split at moved
      · split at moved <;> cases moved <;> exact .same
      · cases moved
    | cancel c =>
      obtain ⟨after,answered,rfl⟩ := Option.map_eq_some_iff.mp moved
      exact cancel_move answered
  | claim c =>
    simp only [fleetStep] at stepped
    split at stepped <;> cases stepped
    exact .same
  | take c locked =>
    simp only [fleetStep,chatTake] at stepped
    split at stepped
    · rename_i jobType snapshot at_ phase
      split at stepped
      · cases stepped
        exact .same
      · rename_i loaded job rows
        cases stepped
        exact .chatTaken c locked jobType snapshot at_ loaded job rfl phase rows
    · cases stepped
  | work c outcome =>
    obtain ⟨after,worked,rfl⟩ := Option.map_eq_some_iff.mp stepped
    exact chatWork_move worked

def stage : Status → Nat
  | .queued => 0
  | .running => 1
  | .completed | .failed | .blocked | .cancelled => 2
/-- A running job has a lease, and a queued one has none. -/
structure Leased (job : RunJobRow) : Prop where
  running : job.status = .running → job.leasedUntil.isSome
  queued : job.status = .queued → job.leasedUntil = none
/-- The job of a row that was read earlier is still there; one of the chat workers has
    not gone back. -/
def Follows (jobs : List RunJobRow) (row : RunJobRow) : Prop :=
  ∃ later, find jobs row.id = some later ∧ later.jobType = row.jobType ∧ later.maxAttempts = row.maxAttempts ∧
    (row.jobType ≠ .backtestPreview → stage row.status ≤ stage later.status)

/-- The rows that a chat worker has read. -/
def read : ChatPhase → List RunJobRow
  | .polling _ => []
  | .claiming _ snapshot _ => snapshot
  | .processing job => [job]
  | .reporting job => [job]
  | .completing job _ _ => [job]
  | .saving job loaded _ _ => [job,loaded]

/-- The phase is about a job of the chat workers, and ends it. -/
def Closing : ChatPhase → Prop
  | .polling _ => True
  | .claiming _ _ _ => True
  | .processing job => job.jobType ≠ .backtestPreview
  | .reporting job => job.jobType ≠ .backtestPreview
  | .completing job status _ => job.jobType ≠ .backtestPreview ∧ isTerminalRunStatus status
  | .saving job loaded status _ => job.jobType ≠ .backtestPreview ∧ isTerminalRunStatus status ∧ loaded.id = job.id

/-- The tables and the rows that the chat workers have read are in order. -/
structure Sound (fleet : Fleet workers requests chats) : Prop where
  leases : Leases fleet
  distinct : (fleet.db.jobs.map Keyed.key).Nodup
  leased : ∀ job ∈ fleet.db.jobs, Leased job
  follows : ∀ c, ∀ row ∈ read (fleet.chat c), Follows fleet.db.jobs row ∧ Leased row
  closing : ∀ c, Closing (fleet.chat c)
theorem terminal_stage {status : Status} : isTerminalRunStatus status ↔ stage status = 2 := by
  cases status <;> simp [isTerminalRunStatus,stage]
theorem stage_le (status : Status) : stage status ≤ 2 := by
  cases status <;> simp [stage]
/-- What later jobs are to earlier ones. -/
def Advances (jobs later : List RunJobRow) : Prop := ∀ id row, find jobs id = some row →
  ∃ next, find later id = some next ∧ next.jobType = row.jobType ∧ next.maxAttempts = row.maxAttempts ∧
    (row.jobType ≠ .backtestPreview → stage row.status ≤ stage next.status)

variable {row : RunJobRow}
theorem follows_advances {later : List RunJobRow} (follows : Follows jobs row)
    (advances : Advances jobs later) : Follows later row := by
  obtain ⟨mid,found,sameType,sameMax,order⟩ := follows
  obtain ⟨last,foundLast,lastType,lastMax,lastOrder⟩ := advances row.id mid found
  refine ⟨last,foundLast,lastType.trans sameType,lastMax.trans sameMax,fun chat => ?_⟩
  exact Nat.le_trans (order chat) (lastOrder (by rwa [sameType]))
theorem advances_refl (jobs : List RunJobRow) : Advances jobs jobs :=
  fun _ row found => ⟨row,found,rfl,rfl,fun _ => Nat.le_refl _⟩

variable {id : Nat}

theorem advances_update {change : RunJobRow → RunJobRow} (keyed : ∀ row, Keyed.key (change row) = Keyed.key row)
    (same : ∀ row, (change row).jobType = row.jobType ∧ (change row).maxAttempts = row.maxAttempts)
    (order : ∀ row, find jobs id = some row → row.jobType ≠ .backtestPreview → stage row.status ≤ stage (change row).status) :
    Advances jobs (update jobs id change) := by
  intro other row found
  rw [find_update keyed,found]
  by_cases here : other = id
  · rw [if_pos here]
    exact ⟨change row,rfl,(same row).1,(same row).2,order row (here ▸ found)⟩
  · rw [if_neg here]
    exact ⟨row,rfl,rfl,rfl,fun _ => Nat.le_refl _⟩

variable {at_ : Nat}
variable {job loaded : RunJobRow}

theorem claimRows_read (sound : Sound fleet) {jobType : JobType} {snapshot : List RunJobRow} {locked : List Nat}
    (phase : fleet.chat c = .claiming jobType snapshot at_)
    (rows : claimRows settings (.claimRunJob jobType) at_ snapshot locked fleet.db.jobs = some (loaded,job)) :
    find fleet.db.jobs job.id = some job ∧ job.jobType ≠ .backtestPreview ∧ job.maxAttempts = loaded.maxAttempts ∧
      loaded.attempts < loaded.maxAttempts ∧
      (claimedRunJob settings.chatLeaseSeconds at_ (Party.chat c : Party workers chats).workerId loaded job).status = .running ∧
      (claimedRunJob settings.chatLeaseSeconds at_ (Party.chat c : Party workers chats).workerId loaded job).leasedUntil =
        some (at_ + settings.chatLeaseSeconds) := by
  obtain ⟨keyed,found,free,member,freeLoaded,_⟩ := claimRows_some rows
  obtain ⟨follows,leased⟩ := sound.follows c loaded (by rw [phase]; exact member)
  have polls := sound.leases.polls c
  rw [phase] at polls
  obtain ⟨later,foundLater,_,sameMax,order⟩ := follows
  rw [keyed,found] at foundLater
  cases foundLater
  simp only [claimable,Bool.and_eq_true,Bool.or_eq_true,beq_iff_eq,decide_eq_true_eq] at free freeLoaded
  have ofType : job.jobType ≠ .backtestPreview := by
    rw [free.1.1.1]
    exact fun same => polls (congrArg some same)
  have chatLoaded : loaded.jobType ≠ .backtestPreview := by
    rw [freeLoaded.1.1.1,← free.1.1.1]
    exact ofType
  have after := order chatLoaded
  refine ⟨found,ofType,sameMax,freeLoaded.1.2,?_,?_⟩
  · simp only [claimedRunJob]
    split
    · rename_i running
      rw [running] at after
      rcases free.1.1.2 with queued | still
      · simp [queued,stage] at after
      · exact still
    · rfl
  · simp only [claimedRunJob]
    rw [if_neg]
    intro same
    rcases freeLoaded.2 with queued | expired
    · rw [leased.queued queued] at same
      cases same
    · rw [leaseExpired,same,Option.any_some,decide_eq_true_eq] at expired
      omega

variable {finish : Finish}

theorem chatFinish_terminal (sound : Sound fleet) (isFinishing : chatFinishing (fleet.chat c) = some finish) :
    ∃ row, find fleet.db.jobs finish.id = some row ∧ isTerminalRunStatus (finish.change row).status := by
  unfold chatFinishing at isFinishing
  split at isFinishing
  · rename_i job loaded status errorCode phase
    cases isFinishing
    have closing := sound.closing c
    rw [phase] at closing
    obtain ⟨chat,terminal,keyed⟩ := closing
    obtain ⟨⟨row,found,sameType,_⟩,_⟩ := sound.follows c job (by rw [phase]; simp [read])
    obtain ⟨⟨later,foundLater,laterType,_,order⟩,_⟩ := sound.follows c loaded (by rw [phase]; simp [read])
    rw [keyed,found] at foundLater
    cases foundLater
    refine ⟨row,found,?_⟩
    simp only [Finish.change,completeRunJob]
    split
    · rename_i same
      have reached := order (by rw [← laterType,sameType]; exact chat)
      rw [same,terminal_stage.mp terminal] at reached
      exact terminal_stage.mpr (Nat.le_antisymm (stage_le _) reached)
    · exact terminal
  · cases isFinishing

theorem finish_status (sound : Sound fleet) {party : Party workers chats}
    (write : finishingWrite fleet label = some (party,finish)) :
    ∃ row, find fleet.db.jobs finish.id = some row ∧
      (isTerminalRunStatus (finish.change row).status ∨
        row.jobType = .backtestPreview ∧ finish.change row = JobTable.finished .queued finish.errorCode row ∧
          ∃ w job error, label = .backtest (.work w .ok) ∧ fleet.world.worker w = .recording job error ∧
            job.attempts < job.maxAttempts ∧ finish.id = job.id) := by
  unfold finishingWrite at write
  split at write
  · rename_i w
    obtain ⟨same,isFinishing,written⟩ := Option.map_eq_some_iff.mp write
    cases written
    unfold finishing at isFinishing
    split at isFinishing
    · rename_i job phase
      cases isFinishing
      obtain ⟨row,found,_⟩ := sound.leases.preview w job (by rw [phase]; rfl)
      exact ⟨row,found,.inl rfl⟩
    · rename_i job phase
      cases isFinishing
      obtain ⟨row,found,_⟩ := sound.leases.preview w job (by rw [phase]; rfl)
      exact ⟨row,found,.inl rfl⟩
    · rename_i job error phase
      obtain ⟨row,found,preview⟩ := sound.leases.preview w job (by rw [phase]; rfl)
      split at isFinishing
      · rename_i again
        cases isFinishing
        exact ⟨row,found,.inr ⟨preview,rfl,w,job,error,rfl,phase,again,rfl⟩⟩
      · cases isFinishing
        exact ⟨row,found,.inl rfl⟩
    · cases isFinishing
  · rename_i c
    obtain ⟨same,isFinishing,written⟩ := Option.map_eq_some_iff.mp write
    cases written
    obtain ⟨row,found,terminal⟩ := chatFinish_terminal sound isFinishing
    exact ⟨row,found,.inl terminal⟩
  · cases write

theorem change_same (finish : Finish) (row : RunJobRow) :
    (finish.change row).jobType = row.jobType ∧ (finish.change row).maxAttempts = row.maxAttempts := by
  cases same : finish.loaded <;> simp [Finish.change,same,completeRunJob,JobTable.finished]

theorem move_advances (sound : Sound fleet)
    (move : Move settings fleet label now jobs) : Advances fleet.db.jobs jobs := by
  cases move with
  | same => exact advances_refl _
  | ticked amount _ => exact advances_refl _
  | created input _ fresh _ =>
    intro id row found
    exact ⟨row,by rw [find_append,found]; rfl,rfl,rfl,fun _ => Nat.le_refl _⟩
  | taken w locked snapshot at_ job _ _ candidate =>
    obtain ⟨found,free⟩ := claimCandidate_some candidate
    refine advances_update (by intro row; rfl) (by intro row; exact ⟨rfl,rfl⟩) ?_
    intro row again chat
    rw [found] at again
    cases again
    simp only [claimable,Bool.and_eq_true,beq_iff_eq] at free
    exact absurd free.1.1.1 chat
  | chatTaken c locked jobType snapshot at_ loaded job _ phase rows =>
    refine advances_update (by intro row; rfl) (by intro row; exact ⟨rfl,rfl⟩) ?_
    intro row again _
    obtain ⟨found,_,_,_,running,_⟩ := claimRows_read sound phase rows
    obtain ⟨_,_,free,_⟩ := claimRows_some rows
    rw [found] at again
    cases again
    rw [running]
    rcases claimable_status free with same | same <;> simp [same,stage]
  | renewed id row _ _ =>
    exact advances_update (by intro row; rfl) (by intro row; exact ⟨rfl,rfl⟩) fun _ _ _ => Nat.le_refl _
  | finished party finish write =>
    refine advances_update (change_id finish) (change_same finish) ?_
    intro row found chat
    obtain ⟨same,foundSame,terminal | ⟨preview,_⟩⟩ := finish_status sound write
    · rw [found] at foundSame
      cases foundSame
      rw [terminal_stage.mp terminal]
      exact stage_le _
    · rw [found] at foundSame
      cases foundSame
      exact absurd preview chat
  | cancelled selected =>
    intro id row found
    rw [find_cancelRunJobs,found]
    split
    · exact ⟨_,rfl,rfl,rfl,fun _ => stage_le _⟩
    · exact ⟨row,rfl,rfl,rfl,fun _ => Nat.le_refl _⟩

theorem move_leased (sound : Sound fleet) (move : Move settings fleet label now jobs) : ∀ job ∈ jobs, Leased job := by
  cases move with
  | same => exact sound.leased
  | ticked amount _ => exact sound.leased
  | created input _ _ _ =>
    intro job member
    rcases List.mem_append.mp member with old | new
    · exact sound.leased job old
    · rw [List.mem_singleton.mp new]
      exact ⟨fun running => by simp [JobInput.row] at running,fun _ => rfl⟩
  | taken w locked snapshot at_ job _ _ candidate =>
    refine (forall_update sound.distinct (claimCandidate_some candidate).1 sound.leased).mpr ?_
    exact ⟨fun _ => rfl,fun queued => by simp at queued⟩
  | chatTaken c locked jobType snapshot at_ loaded job _ phase rows =>
    obtain ⟨found,_,_,_,running,until_⟩ := claimRows_read sound phase rows
    refine (forall_update sound.distinct found sound.leased).mpr ⟨fun _ => by rw [until_]; rfl,fun queued => ?_⟩
    rw [running] at queued
    cases queued
  | renewed id row found running =>
    refine (forall_update sound.distinct found sound.leased).mpr ⟨fun _ => rfl,fun queued => ?_⟩
    rw [renewed_status,running] at queued
    cases queued
  | finished party finish write =>
    obtain ⟨row,found,terminal | ⟨_,same,_⟩⟩ := finish_status sound write
    · refine (forall_update sound.distinct found sound.leased).mpr ⟨fun running => ?_,fun queued => ?_⟩
      · rw [running] at terminal
        cases terminal
      · rw [queued] at terminal
        cases terminal
    · refine (forall_update sound.distinct found sound.leased).mpr ?_
      rw [same]
      exact ⟨fun running => by simp at running,fun _ => rfl⟩
  | cancelled selected =>
    intro job member
    obtain ⟨before,isBefore,rfl⟩ := List.mem_map.mp member
    split
    · exact ⟨fun running => by simp at running,fun queued => by simp at queued⟩
    · exact sound.leased before isBefore

theorem chatWork_read (sound : Sound fleet)
    {after : ChatPhase × Db} (worked : chatWork fleet.db (fleet.chat c) outcome = some after) :
    (∀ row ∈ read after.1, row ∈ read (fleet.chat c) ∨ row ∈ fleet.db.jobs) ∧ Closing after.1 := by
  have closing := sound.closing c
  generalize fleet.chat c = phase at worked closing ⊢
  cases outcome with
  | crashed =>
    cases phase <;> simp only [chatWork,Option.some.injEq] at worked <;> subst worked <;>
      exact ⟨fun _ member => absurd member List.not_mem_nil,trivial⟩
  | raised error =>
    cases phase with
    | polling jobType | claiming jobType snapshot at_ => simp [chatWork] at worked
    | processing job =>
      cases worked
      exact ⟨fun _ member => .inl member,closing⟩
    | reporting job =>
      cases worked
      exact ⟨fun _ member => absurd member List.not_mem_nil,trivial⟩
    | completing job status errorCode | saving job loaded status errorCode =>
      simp only [chatWork] at worked
      split at worked <;> cases worked
      · refine ⟨fun _ member => .inl ?_,closing.1⟩
        rw [List.mem_singleton.mp member]
        exact List.mem_cons_self
      · exact ⟨fun _ member => absurd member List.not_mem_nil,trivial⟩
  | ok =>
    cases phase with
    | polling jobType | claiming jobType snapshot at_ => simp [chatWork] at worked
    | processing job | reporting job =>
      cases worked
      exact ⟨fun _ member => .inl member,closing,rfl⟩
    | completing job status errorCode =>
      simp only [chatWork] at worked
      split at worked
      · cases worked
        exact ⟨fun _ member => absurd member List.not_mem_nil,trivial⟩
      · rename_i loaded found
        cases worked
        refine ⟨?_,closing.1,closing.2,find_key found⟩
        simp only [read,List.mem_cons,List.not_mem_nil,or_false]
        rintro row (rfl | rfl)
        · exact .inl rfl
        · exact .inr (find_mem found)
    | saving job loaded status errorCode =>
      cases worked
      exact ⟨fun _ member => absurd member List.not_mem_nil,trivial⟩

theorem follows_mem (sound : Sound fleet) (member : row ∈ fleet.db.jobs) : Follows fleet.db.jobs row ∧ Leased row :=
  ⟨⟨row,find_of_mem sound.distinct member,rfl,rfl,fun _ => Nat.le_refl _⟩,sound.leased row member⟩

theorem step_read (sound : Sound fleet) (stepped : fleetStep settings fleet label = some next)
    (c : Fin chats) : (∀ row ∈ read (next.chat c), row ∈ read (fleet.chat c) ∨ row ∈ fleet.db.jobs ∨ row ∈ next.db.jobs) ∧
      Closing (next.chat c) := by
  have stays : (∀ row ∈ read (fleet.chat c), row ∈ read (fleet.chat c) ∨ row ∈ fleet.db.jobs ∨ row ∈ next.db.jobs) ∧
      Closing (fleet.chat c) := ⟨fun _ member => .inl member,sound.closing c⟩
  cases label with
  | backtest label =>
    rw [(backtestStep_world stepped).2]
    exact stays
  | claim d =>
    simp only [fleetStep] at stepped
    split at stepped <;> cases stepped
    simp only [Fleet.put,Function.update_apply]
    split
    · exact ⟨fun _ member => .inr (.inl member),trivial⟩
    · exact stays
  | take d locked =>
    simp only [fleetStep,chatTake] at stepped
    split at stepped
    · rename_i jobType snapshot at_ phase
      split at stepped
      · cases stepped
        simp only [Fleet.put,Function.update_apply]
        split
        · exact ⟨fun _ member => absurd member List.not_mem_nil,trivial⟩
        · exact stays
      · rename_i loaded job rows
        cases stepped
        obtain ⟨found,chat,_⟩ := claimRows_read sound phase rows
        simp only [Fleet.put,Fleet.remember,Function.update_apply]
        split
        · refine ⟨fun row member => .inr (.inr ?_),chat⟩
          rw [List.mem_singleton.mp member]
          exact List.mem_map.mpr ⟨job,find_mem found,if_pos rfl⟩
        · exact stays
    · cases stepped
  | work d outcome =>
    obtain ⟨after,worked,rfl⟩ := Option.map_eq_some_iff.mp stepped
    obtain ⟨known,closing⟩ := chatWork_read sound worked
    simp only [Fleet.put,Function.update_apply]
    split
    · rename_i same
      subst same
      exact ⟨fun row member => (known row member).imp id .inl,closing⟩
    · exact stays

theorem sound_step (sound : Sound fleet) (stepped : fleetStep settings fleet label = some next) : Sound next := by
  have move := step_move stepped
  have advances := move_advances sound move
  have leased := move_leased sound move
  have distinct := jobsStep_distinct (fleetStep_jobs sound.leases stepped) sound.distinct
  refine ⟨leases_step sound.leases stepped,distinct,leased,?_,fun c => (step_read sound stepped c).2⟩
  intro c row member
  rcases (step_read sound stepped c).1 row member with before | table | written
  · obtain ⟨follows,wasLeased⟩ := sound.follows c row before
    exact ⟨follows_advances follows advances,wasLeased⟩
  · obtain ⟨follows,wasLeased⟩ := follows_mem sound table
    exact ⟨follows_advances follows advances,wasLeased⟩
  · exact ⟨⟨row,find_of_mem distinct written,rfl,rfl,fun _ => Nat.le_refl _⟩,leased row written⟩

theorem sound_initial : Sound (initialFleet workers requests chats) where
  leases := leases_initial
  distinct := List.nodup_nil
  leased _ member := absurd member List.not_mem_nil
  follows _ _ member := absurd member List.not_mem_nil
  closing _ := trivial
theorem advances_trans {mid later : List RunJobRow} (first : Advances jobs mid) (second : Advances mid later) :
    Advances jobs later := by
  intro id row found
  obtain rfl := find_key found
  exact follows_advances (first _ row found) second
/-- In every run no job is lost or changes its type, the ones of the chat workers do not go back, and each running job has a
    lease. -/
theorem jobs_advance (reached : Reachable (fleetStep settings) (initialFleet workers requests chats) fleet)
    (later : Reachable (fleetStep settings) fleet next) :
    Advances fleet.db.jobs next.db.jobs ∧ ∀ job ∈ next.db.jobs, Leased job := by
  have sound := reachable_keeps (fun _ _ _ here stepped => sound_step here stepped) sound_initial reached
  have both : Sound next ∧ Advances fleet.db.jobs next.db.jobs := by
    refine @reachable_keeps _ _ _ (fun mid => Sound mid ∧ Advances fleet.db.jobs mid.db.jobs) ?_ _ _ ⟨sound,advances_refl _⟩ later
    rintro mid label last ⟨here,advanced⟩ stepped
    exact ⟨sound_step here stepped,advances_trans advanced (move_advances here (step_move stepped))⟩
  exact ⟨both.2,both.1.leased⟩
theorem moving_terminal (ended : isTerminalRunStatus job.status) : moving now job := by
  simp [moving,ended]

theorem moving_running (running : job.status = .running) (leased : job.leasedUntil.isSome) :
    moving now job ↔ job.attempts < job.maxAttempts ∨ leaseActive now job := by
  obtain ⟨until_,isUntil⟩ := Option.isSome_iff_exists.mp leased
  simp only [moving,running,isUntil,isTerminalRunStatus,leaseActive,claimable,leaseExpired,Option.any_some,beq_self_eq_true,
    Bool.or_eq_true,Bool.and_eq_true,decide_eq_true_eq,Bool.or_true,Bool.true_and]
  by_cases late : until_ < now
  · have ended : ¬ now ≤ until_ := by omega
    simp [late,ended]
  · have lasts : now ≤ until_ := by omega
    simp [lasts]

theorem moving_queued (queued : job.status = .queued) : moving now job ↔ job.attempts < job.maxAttempts := by
  simp [moving,queued,isTerminalRunStatus,leaseActive,claimable]
theorem moving_claimed :
    moving now (claimed settings at_ workerId job) ↔
      job.attempts + 1 < job.maxAttempts ∨ now ≤ at_ + settings.leaseSeconds := by
  rw [moving_running (claimed_status _ _ _ _) rfl]
  simp [claimed,leaseActive]
theorem moving_claimedRunJob {leaseSeconds : Nat}
    (running : (claimedRunJob leaseSeconds at_ workerId loaded job).status = .running)
    (leased : (claimedRunJob leaseSeconds at_ workerId loaded job).leasedUntil = some (at_ + leaseSeconds)) :
    moving now (claimedRunJob leaseSeconds at_ workerId loaded job) ↔
      loaded.attempts + 1 < job.maxAttempts ∨ now ≤ at_ + leaseSeconds := by
  rw [moving_running running (by rw [leased]; rfl),leaseActive,running,leased]
  simp [claimedRunJob]
theorem noneStuck_update (sound : Sound fleet) (unstuck : NoneStuck fleet) (found : find fleet.db.jobs id = some row) (change : RunJobRow → RunJobRow) :
    (∀ job ∈ update fleet.db.jobs id change, moving fleet.db.now job ∧ job.attempts ≤ job.maxAttempts) ↔
      moving fleet.db.now (change row) ∧ (change row).attempts ≤ (change row).maxAttempts :=
  forall_update sound.distinct found unstuck

theorem lastAttempts_of_moving (sound : Sound fleet)
    (unstuck : NoneStuck fleet) (stays : StaysMoving settings fleet label) : LastAttemptsEnd settings fleet label := by
  cases label with
  | backtest label =>
    cases label with
    | tick amount =>
      intro job member running
      have after := (stays { fleet with world := { fleet.world with db := { fleet.db with now := fleet.db.now + amount } } } rfl
        job member).1
      exact (moving_running running ((sound.leased job member).running running)).mp after
    | createRunJob input =>
      intro fresh isRun
      have stepped : fleetStep settings fleet (.backtest (.createRunJob input)) = some { fleet with
          world := { fleet.world with db := { fleet.db with jobs := fleet.db.jobs ++ [input.row fleet.db.now] } } } := by
        simp only [Fleet.db] at fresh isRun
        simp only [fleetStep,backtestStep,step,fresh,isRun,and_self,if_true,Option.map_some]
        rfl
      have after := (stays _ stepped (input.row fleet.db.now) (List.mem_append_right _ List.mem_cons_self)).1
      exact (moving_queued rfl).mp after
    | take w locked =>
      intro snapshot at_ phase job candidate
      have found := (claimCandidate_some candidate).1
      have stepped : ∃ next, fleetStep settings fleet (.backtest (.take w locked)) = some next ∧
          next.db = { fleet.db with jobs := update fleet.db.jobs job.id (claimed settings at_ w) } := by
        have current : claimCandidate settings .claimJob at_ snapshot locked fleet.world.db.jobs = some job := candidate
        simp only [fleetStep,backtestStep,step,take,takes,phase,current,Option.map_some]
        exact ⟨_,rfl,rfl⟩
      obtain ⟨next,stepped,written⟩ := stepped
      have after := stays next stepped
      rw [NoneStuck,written,noneStuck_update sound unstuck found] at after
      exact moving_claimed.mp after.1
    | work w outcome =>
      cases outcome with
      | ok =>
        intro job error phase again row found
        have stepped : ∃ next, fleetStep settings fleet (.backtest (.work w .ok)) = some next ∧
            next.db = { fleet.db with jobs := requeueJob fleet.db.jobs job.id (some error) } := by
          simp only [fleetStep,backtestStep,step,phase,work,again,if_true,Option.map_some]
          exact ⟨_,rfl,rfl⟩
        obtain ⟨next,stepped,written⟩ := stepped
        have after := stays next stepped
        rw [NoneStuck,written,requeueJob,noneStuck_update sound unstuck found] at after
        have queued : (finished .queued (some error) row).status = .queued := rfl
        exact (moving_queued queued).mp after.1
      | raised error => trivial
      | crashed => trivial
    | createRun id => trivial
    | claim w => trivial
    | heartbeat w connected => trivial
    | cancelRun c runId => trivial
    | cancel c => trivial
  | claim c => trivial
  | take c locked =>
    rintro jobType snapshot at_ phase ⟨loaded,job⟩ rows
    obtain ⟨found,_,_,_,running,leased⟩ := claimRows_read sound phase rows
    have stepped : ∃ next, fleetStep settings fleet (.take c locked) = some next ∧
        next.db.now = fleet.db.now ∧ next.db.jobs = update fleet.db.jobs job.id
          (claimedRunJob settings.chatLeaseSeconds at_ (Party.chat c : Party workers chats).workerId loaded) := by
      have current : claimRows settings (.claimRunJob jobType) at_ snapshot locked fleet.db.jobs = some (loaded,job) := rows
      simp only [fleetStep,chatTake,phase,current]
      exact ⟨_,rfl,rfl,rfl⟩
    obtain ⟨next,stepped,clock,written⟩ := stepped
    have after := stays next stepped
    rw [NoneStuck,clock,written,noneStuck_update sound unstuck found] at after
    exact (moving_claimedRunJob running leased).mp after.1
  | work c outcome => trivial

theorem moving_of_lastAttempts (sound : Sound fleet)
    (unstuck : NoneStuck fleet) (inTime : LastAttemptsEnd settings fleet label) : StaysMoving settings fleet label := by
  intro next stepped
  have move := step_move stepped
  unfold NoneStuck
  generalize next.db.now = now at move ⊢
  generalize next.db.jobs = jobs at move ⊢
  cases move with
  | same => exact unstuck
  | ticked amount isTick =>
    subst isTick
    intro job member
    obtain ⟨moves,bounded⟩ := unstuck job member
    refine ⟨?_,bounded⟩
    cases status : job.status with
    | queued => exact (moving_queued status).mpr ((moving_queued status).mp moves)
    | running =>
      exact (moving_running status ((sound.leased job member).running status)).mpr (inTime job member status)
    | completed | failed | blocked | cancelled => exact moving_terminal (by rw [status]; rfl)
  | created input isCreate fresh isRun =>
    subst isCreate
    intro job member
    rcases List.mem_append.mp member with old | new
    · exact unstuck job old
    · rw [List.mem_singleton.mp new]
      exact ⟨(moving_queued rfl).mpr (inTime fresh isRun),Nat.zero_le _⟩
  | taken w locked snapshot at_ job isTake phase candidate =>
    subst isTake
    obtain ⟨found,free⟩ := claimCandidate_some candidate
    refine (noneStuck_update sound unstuck found _).mpr ⟨moving_claimed.mpr (inTime snapshot at_ phase job candidate),?_⟩
    simp only [claimable,Bool.and_eq_true,decide_eq_true_eq] at free
    exact free.1.2
  | chatTaken c locked jobType snapshot at_ loaded job isTake phase rows =>
    subst isTake
    obtain ⟨found,_,sameMax,free,running,leased⟩ := claimRows_read sound phase rows
    refine (noneStuck_update sound unstuck found _).mpr ⟨?_,?_⟩
    · exact (moving_claimedRunJob running leased).mpr (inTime jobType snapshot at_ phase (loaded,job) rows)
    · show loaded.attempts + 1 ≤ job.maxAttempts
      omega
  | renewed id row found running =>
    refine (noneStuck_update sound unstuck found _).mpr ⟨?_,(unstuck row (find_mem found)).2⟩
    have still : (JobTable.renewed (fleet.db.now + settings.leaseSeconds) row).status = .running := running
    refine (moving_running still rfl).mpr (.inr ?_)
    simp [leaseActive,JobTable.renewed,running]
  | finished party finish write =>
    obtain ⟨row,found,result⟩ := finish_status sound write
    have bounded := (unstuck row (find_mem found)).2
    refine (noneStuck_update sound unstuck found _).mpr ⟨?_,?_⟩
    · rcases result with terminal | ⟨_,same,w,job,error,rfl,phase,again,keyed⟩
      · exact moving_terminal terminal
      · rw [same]
        rw [keyed] at found
        exact (moving_queued rfl).mpr (inTime job error phase again row found)
    · have kept : (finish.change row).attempts = row.attempts := by
        cases same : finish.loaded <;> simp [Finish.change,same,completeRunJob]
      rwa [kept,(change_same finish row).2]
  | cancelled selected =>
    intro job member
    obtain ⟨before,isBefore,rfl⟩ := List.mem_map.mp member
    obtain ⟨moves,bounded⟩ := unstuck before isBefore
    split
    · exact ⟨moving_terminal rfl,bounded⟩
    · exact ⟨moves,bounded⟩

/-- In every run no job is ever stuck, exactly if the last attempts end in time. -/
theorem none_stuck_iff (settings : Settings) (labels : List (FleetLabel workers requests chats)) :
    Meets (fleetStep settings) (StaysMoving settings) (initialFleet workers requests chats) labels ↔
      Meets (fleetStep settings) (LastAttemptsEnd settings) (initialFleet workers requests chats) labels := by
  refine @meets_iff _ _ _ _ (fun fleet => Sound fleet ∧ NoneStuck fleet) _ ?_ ?_ _ ⟨sound_initial,?_⟩ labels
  · rintro fleet label next ⟨sound,_⟩ stays stepped
    exact ⟨sound_step sound stepped,stays next stepped⟩
  · rintro fleet label ⟨sound,unstuck⟩
    exact ⟨lastAttempts_of_moving sound unstuck,moving_of_lastAttempts sound unstuck⟩
  · exact fun _ member => absurd member List.not_mem_nil

local instance oneWorker : @NeZero Nat Zero.ofOfNat0 1 := @NeZero.mk Nat Zero.ofOfNat0 1 (Nat.succ_ne_zero 0)

def oneCrash : List (FleetLabel 1 0 0) :=
  [.backtest (.claim 0),.backtest (.take 0 []),.backtest (.work 0 .crashed),.backtest (.tick 61)]
def threeCrashes : List (FleetLabel 1 0 0) :=
  [.backtest (.createRun 0),.backtest (.createRunJob ⟨0,0,0,.backtestPreview,.missing,none,3⟩)] ++
    oneCrash ++ oneCrash ++ oneCrash

theorem sample_advance : ∃ fleet next : Fleet 1 0 0, Advances fleet.db.jobs next.db.jobs ∧ fleet.db.jobs ≠ [] :=
  ⟨_,_,(@jobs_advance 1 0 0 ⟨60,60,1,1⟩ _ _ ⟨threeCrashes,rfl⟩ ⟨[.backtest (.tick 1)],rfl⟩).1,by decide⟩
theorem jobs_get_stuck : ¬ ∀ (workers requests chats : Nat) (settings : Settings)
    (labels : List (FleetLabel workers requests chats)),
    Meets (fleetStep settings) (StaysMoving settings) (initialFleet workers requests chats) labels := by
  intro always
  obtain ⟨fleet,reached,stuck⟩ : ∃ fleet, run (fleetStep ⟨60,60,1,1⟩) (initialFleet 1 0 0) threeCrashes = some fleet ∧
      ∃ job ∈ fleet.db.jobs, moving fleet.db.now job = false := by
    refine ⟨_,rfl,?_⟩
    decide
  have unstuck : NoneStuck fleet :=
    run_keeps (fun _ _ next _ stays stepped => stays next stepped) (fun _ member => absurd member List.not_mem_nil)
      (always 1 0 0 ⟨60,60,1,1⟩ threeCrashes) reached
  obtain ⟨job,member,isStuck⟩ := stuck
  have moves := (unstuck job member).1
  rw [isStuck] at moves
  cases moves

end Codebot.JobProgress
