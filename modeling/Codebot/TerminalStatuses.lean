import Codebot.BacktestWorker

/-!
Whether the terminal statuses of runs and jobs are final. The statements of the worker and of `cancel_run` name rows
by their ids only, so a status that was terminal when a statement is sent is overwritten (`statuses_not_final`). They
are final in the runs where no write relies on a check that has been overtaken (`Undisturbed`).
-/
namespace Codebot.TerminalStatuses
open Runs Tables JobTable BacktestWorker Function
variable {workers requests : Nat}

def RunOpen (db : Db) (id : Nat) : Prop := ∃ run, find db.runs id = some run ∧ isTerminalRunStatus run.status = false
def RunEnded (db : Db) (id : Nat) : Prop := ∃ run, find db.runs id = some run ∧ isTerminalRunStatus run.status = true
/-- Every terminal status of a run and of a job is the same in the later state. -/
def StatusesKept (before after : World workers requests) : Prop :=
  (∀ id run, find before.db.runs id = some run → isTerminalRunStatus run.status →
    ∃ later, find after.db.runs id = some later ∧ later.status = run.status) ∧
  ∀ id job, find before.db.jobs id = some job → isTerminalRunStatus job.status →
    ∃ later, find after.db.jobs id = some later ∧ later.status = job.status

/-- The phases of `processJob`, where an exception leads to `markJobFailed`. -/
def attempt : Phase → Option RunJobRow
  | .claimed job => some job
  | .refusing job => some job
  | .starting job => some job
  | .executing job _ => some job
  | .renewing job => some job
  | .rechecking job => some job
  | .persisting job => some job
  | .closing job => some job
  | .announcing job => some job
  | _ => none

/-- The phases between a worker's last check of the run and its last write to it. -/
def settling : Phase → Option RunJobRow
  | .starting job => some job
  | .persisting job => some job
  | .closing job => some job
  | .failing job _ => some job
  | .recording job _ => some job
  | .requeued job _ => some job
  | .failed job _ => some job
  | _ => none

/-- The run and the job of an attempt have not ended. -/
def unfinished (db : Db) (job : RunJobRow) : Bool :=
  (find db.runs job.runId).all (fun run => !isTerminalRunStatus run.status) &&
    (find db.jobs job.id).all (fun row => !isTerminalRunStatus row.status)
/-- A cancellation is written to a run that has not ended otherwise, while no
    worker is about to write to it. -/
def timely (world : World workers requests) (runId : Nat) : Prop :=
  (∀ run ∈ find world.db.runs runId, isTerminalRunStatus run.status → run.status = .cancelled) ∧
    ∀ w, ∀ job ∈ settling (world.worker w), job.runId ≠ runId

/-- The condition on one step, in the state before it. -/
def Undisturbed (settings : Settings) (world : World workers requests) : Label workers requests → Prop
  | .take w locked => ∀ job ∈ takes settings world w locked, ∀ v, ∀ held ∈ (world.worker v).job, held.runId ≠ job.runId
  | .work w (.raised _) => ∀ job ∈ attempt (world.worker w), unfinished world.db job
  | .cancel c =>
    match world.request c with
    | .loaded runId status => status = .cancelled ∨ timely world runId
    | _ => True
  | _ => True

instance (world : World workers requests) (runId : Nat) : Decidable (timely world runId) :=
  inferInstanceAs (Decidable (_ ∧ _))

instance decidableUndisturbed (settings : Settings) (world : World workers requests) :
    ∀ label, Decidable (Undisturbed settings world label)
  | .take w locked => inferInstanceAs (Decidable (∀ job ∈ takes settings world w locked,
      ∀ v, ∀ held ∈ (world.worker v).job, held.runId ≠ job.runId))
  | .work w (.raised _) => inferInstanceAs (Decidable (∀ job ∈ attempt (world.worker w), unfinished world.db job))
  | .cancel c =>
    match phase : world.request c with
    | .loaded runId status =>
      decidable_of_iff (status = .cancelled ∨ timely world runId) (by simp [Undisturbed,phase])
    | .idle => .isTrue (by simp [Undisturbed,phase])
    | .checked _ => .isTrue (by simp [Undisturbed,phase])
    | .marked _ => .isTrue (by simp [Undisturbed,phase])
    | .selected _ _ => .isTrue (by simp [Undisturbed,phase])
  | .tick _ => .isTrue trivial
  | .createRun _ => .isTrue trivial
  | .createRunJob _ => .isTrue trivial
  | .claim _ => .isTrue trivial
  | .heartbeat _ _ => .isTrue trivial
  | .work _ .ok => .isTrue trivial
  | .work _ .crashed => .isTrue trivial
  | .cancelRun _ _ => .isTrue trivial

/-- The phases in which no other party may finish the worker's job. -/
def holding : Phase → Option RunJobRow
  | .claimed job => some job
  | .refusing job => some job
  | .starting job => some job
  | .executing job _ => some job
  | .renewing job => some job
  | .rechecking job => some job
  | .persisting job => some job
  | .failing job _ => some job
  | .recording job _ => some job
  | _ => none

def Held (db : Db) (job : RunJobRow) : Prop :=
  ∃ row, find db.jobs job.id = some row ∧ row.runId = job.runId ∧ (row.status = .running ∨ row.status = .cancelled)
structure Knows (db : Db) (phase : Phase) : Prop where
  opened : ∀ job, settling phase = some job → RunOpen db job.runId
  ended : ∀ job, phase = .refusing job ∨ phase = .announcing job → RunEnded db job.runId
  closed : ∀ job, phase = .closing job → ∃ row, find db.jobs job.id = some row ∧ isTerminalRunStatus row.status
  holds : ∀ job, holding phase = some job → Held db job

/-- What a request knows of the run that it cancels. -/
def Informed (db : Db) : CancelPhase → Prop
  | .idle => True
  | .checked _ => True
  | .loaded runId status => (∃ run, find db.runs runId = some run) ∧ (status = .cancelled → RunEnded db runId)
  | .marked runId => RunEnded db runId
  | .selected runId jobs => RunEnded db runId ∧ ∀ id ∈ jobs, ∃ row, find db.jobs id = some row ∧ row.runId = runId ∧
      (row.status = .queued ∨ row.status = .running ∨ row.status = .cancelled)

structure Orderly (world : World workers requests) : Prop where
  distinct : (world.db.jobs.map Keyed.key).Nodup
  jobRun : ∀ id job, find world.db.jobs id = some job → ∃ run, find world.db.runs job.runId = some run
  cancelledEnded : ∀ id job, find world.db.jobs id = some job → job.status = .cancelled → RunEnded world.db job.runId
  apart : ∀ v w job other, (world.worker v).job = some job → (world.worker w).job = some other →
    job.runId = other.runId → v = w
  knows : ∀ w, Knows world.db (world.worker w)
  informed : ∀ c, Informed world.db (world.request c)

/-- A step keeps terminal statuses and completes or fails no job of an ended run. -/
structure Evolves (before after : Db) : Prop where
  runs : ∀ id run, find before.runs id = some run →
    ∃ later, find after.runs id = some later ∧ (isTerminalRunStatus run.status → later.status = run.status)
  jobs : ∀ id job, find before.jobs id = some job →
    ∃ later, find after.jobs id = some later ∧ later.runId = job.runId ∧
      (isTerminalRunStatus job.status → later.status = job.status) ∧
      (RunEnded before job.runId → (job.status = .queued ∨ job.status = .running ∨ job.status = .cancelled) →
        later.status = .queued ∨ later.status = .running ∨ later.status = .cancelled)
  origin : ∀ id later, find after.jobs id = some later →
    (∃ job, find before.jobs id = some job ∧ later.runId = job.runId ∧
      (later.status = .cancelled → job.status = .cancelled ∨ RunEnded before job.runId)) ∨
    later.status ≠ .cancelled ∧ ∃ run, find before.runs later.runId = some run
  distinct : (before.jobs.map Keyed.key).Nodup → (after.jobs.map Keyed.key).Nodup

variable {after before : Db}

theorem evolves_jobs (same : after.jobs = before.jobs) (runs : ∀ id run, find before.runs id = some run →
      ∃ later, find after.runs id = some later ∧ (isTerminalRunStatus run.status → later.status = run.status)) :
    Evolves before after := by
  refine ⟨runs,?_,?_,same ▸ id⟩
  · intro id job found
    exact ⟨job,same ▸ found,rfl,fun _ => rfl,fun _ live => live⟩
  · intro id later found
    exact .inl ⟨later,same ▸ found,rfl,.inl⟩

theorem evolves_refl (db : Db) : Evolves db db := evolves_jobs rfl fun _ run found => ⟨run,found,fun _ => rfl⟩

variable {db : Db} {job : RunJobRow}

theorem evolves_job {change : RunJobRow → RunJobRow} (found : find db.jobs job.id = some job)
    (keyed : ∀ row, Keyed.key (change row) = Keyed.key row) (ofRun : (change job).runId = job.runId)
    (kept : isTerminalRunStatus job.status → (change job).status = job.status)
    (live : RunEnded db job.runId → (job.status = .queued ∨ job.status = .running ∨ job.status = .cancelled) →
      (change job).status = .queued ∨ (change job).status = .running ∨ (change job).status = .cancelled)
    (cancels : (change job).status = .cancelled → job.status = .cancelled ∨ RunEnded db job.runId) :
    Evolves db { db with jobs := update db.jobs job.id change } := by
  refine ⟨fun _ run foundRun => ⟨run,foundRun,fun _ => rfl⟩,?_,?_,by rw [keys_update keyed]; exact id⟩
  · intro id other foundOther
    by_cases same : id = job.id
    · subst same
      rw [found] at foundOther
      cases foundOther
      exact ⟨change job,by rw [find_update keyed,if_pos rfl,found]; rfl,ofRun,kept,live⟩
    · exact ⟨other,by rw [find_update keyed,if_neg same,foundOther],rfl,fun _ => rfl,fun _ live => live⟩
  · intro id later foundLater
    rw [find_update keyed] at foundLater
    by_cases same : id = job.id
    · subst same
      rw [if_pos rfl,found] at foundLater
      cases foundLater
      exact .inl ⟨job,found,ofRun,cancels⟩
    · rw [if_neg same] at foundLater
      exact .inl ⟨later,foundLater,rfl,.inl⟩

theorem evolves_kept {before after : World workers requests} (evolves : Evolves before.db after.db) :
    StatusesKept before after := by
  constructor
  · intro id run found terminal
    obtain ⟨later,foundLater,same⟩ := evolves.runs id run found
    exact ⟨later,foundLater,same terminal⟩
  · intro id job found terminal
    obtain ⟨later,foundLater,_,same,_⟩ := evolves.jobs id job found
    exact ⟨later,foundLater,same terminal⟩

variable {id : Nat}
theorem evolves_ended (evolves : Evolves before after) (ended : RunEnded before id) : RunEnded after id := by
  obtain ⟨run,found,terminal⟩ := ended
  obtain ⟨later,foundLater,same⟩ := evolves.runs id run found
  exact ⟨later,foundLater,by rw [same terminal]; exact terminal⟩
theorem not_open_and_ended (isOpen : RunOpen db id) : ¬ RunEnded db id := by
  rintro ⟨run,found,terminal⟩
  obtain ⟨same,foundSame,still⟩ := isOpen
  rw [found] at foundSame
  cases foundSame
  rw [terminal] at still
  cases still

theorem evolves_informed (evolves : Evolves before after) {phase : CancelPhase}
    (informed : Informed before phase) : Informed after phase := by
  cases phase with
  | idle => trivial
  | checked runId => trivial
  | loaded runId status =>
    obtain ⟨run,found⟩ := informed.1
    obtain ⟨later,foundLater,_⟩ := evolves.runs _ run found
    exact ⟨⟨later,foundLater⟩,fun cancelled => evolves_ended evolves (informed.2 cancelled)⟩
  | marked runId => exact evolves_ended evolves informed
  | selected runId jobs =>
    refine ⟨evolves_ended evolves informed.1,?_⟩
    intro id listed
    obtain ⟨row,found,ofRun,live⟩ := informed.2 id listed
    obtain ⟨later,foundLater,same,_,stays⟩ := evolves.jobs id row found
    exact ⟨later,foundLater,same.trans ofRun,stays (ofRun ▸ informed.1) live⟩

theorem evolves_jobRun (evolves : Evolves before after)
    (jobRun : ∀ id job, find before.jobs id = some job → ∃ run, find before.runs job.runId = some run) :
    ∀ id job, find after.jobs id = some job → ∃ run, find after.runs job.runId = some run := by
  intro id later found
  have was : ∃ run, find before.runs later.runId = some run := by
    rcases evolves.origin id later found with ⟨job,foundJob,ofRun,_⟩ | ⟨_,exists_⟩
    · exact ofRun ▸ jobRun id job foundJob
    · exact exists_
  obtain ⟨run,foundRun⟩ := was
  obtain ⟨kept,foundKept,_⟩ := evolves.runs _ run foundRun
  exact ⟨kept,foundKept⟩

theorem evolves_cancelled (evolves : Evolves before after)
    (cancelledEnded : ∀ id job, find before.jobs id = some job → job.status = .cancelled → RunEnded before job.runId) :
    ∀ id job, find after.jobs id = some job → job.status = .cancelled → RunEnded after job.runId := by
  intro id later found isCancelled
  rcases evolves.origin id later found with ⟨job,foundJob,ofRun,cancels⟩ | ⟨other,_⟩
  · have ended : RunEnded before job.runId := by
      rcases cancels isCancelled with already | ended
      · exact cancelledEnded id job foundJob already
      · exact ended
    exact ofRun ▸ evolves_ended evolves ended
  · exact absurd isCancelled other

theorem knows_idle (db : Db) : Knows db .idle :=
  ⟨by simp [settling],by simp,by simp,by simp [holding]⟩

variable {phase : Phase}
theorem settling_job (isSettling : settling phase = some job) : phase.job = some job := by
  cases phase <;> simp_all [settling,Phase.job]
theorem holding_job (isHolding : holding phase = some job) : phase.job = some job := by
  cases phase <;> simp_all [holding,Phase.job]

theorem knows_frame (evolves : Evolves before after)
    (runs : ∀ job run, settling phase = some job → find before.runs job.runId = some run →
      find after.runs job.runId = some run)
    (jobs : ∀ job row, holding phase = some job → find before.jobs job.id = some row → row.runId = job.runId →
      find after.jobs job.id = some row)
    (knows : Knows before phase) : Knows after phase := by
  refine ⟨?_,?_,?_,?_⟩
  · intro job isSettling
    obtain ⟨run,found,still⟩ := knows.opened job isSettling
    exact ⟨run,runs job run isSettling found,still⟩
  · intro job isDone
    exact evolves_ended evolves (knows.ended job isDone)
  · intro job isClosing
    obtain ⟨row,found,terminal⟩ := knows.closed job isClosing
    obtain ⟨later,foundLater,_,same,_⟩ := evolves.jobs job.id row found
    exact ⟨later,foundLater,by rw [same terminal]; exact terminal⟩
  · intro job isHolding
    obtain ⟨row,found,ofRun,live⟩ := knows.holds job isHolding
    exact ⟨row,jobs job row isHolding found ofRun,ofRun,live⟩

variable {runId : Nat}

theorem evolves_setRunStatus (isOpen : RunOpen db runId) (status : Status)
    (errorCode : Option ErrorCode) : Evolves db { db with runs := setRunStatus db.runs runId status errorCode } := by
  refine evolves_jobs rfl ?_
  intro id run found
  by_cases same : id = runId
  · subst same
    refine ⟨{ run with status, errorCode },by simp [find_setRunStatus,found],?_⟩
    intro terminal
    exact absurd ⟨run,found,terminal⟩ (not_open_and_ended isOpen)
  · exact ⟨run,by simp [find_setRunStatus,same,found],fun _ => rfl⟩

/-- A status written to a held job, of an open run or `cancelled` after the run
    ended, ends no terminal status. -/
theorem evolves_finished {status : Status} {errorCode : Option ErrorCode} (held : Held db job)
    (cancelledEnded : ∀ id row, find db.jobs id = some row → row.status = .cancelled → RunEnded db row.runId)
    (allowed : RunOpen db job.runId ∧ status ≠ .cancelled ∨ RunEnded db job.runId ∧ status = .cancelled) :
    Evolves db { db with jobs := completeJob db.jobs job.id status errorCode } := by
  obtain ⟨row,found,ofRun,live⟩ := held
  have keyed : row.id = job.id := find_key found
  have changed : completeJob db.jobs job.id status errorCode = update db.jobs row.id (finished status errorCode) := by
    rw [keyed]
    rfl
  rw [changed]
  refine evolves_job (keyed ▸ found) (by intro other; rfl) rfl ?_ ?_ ?_
  · intro terminal
    rcases live with running | cancelled
    · rw [running] at terminal
      cases terminal
    · rcases allowed with ⟨isOpen,_⟩ | ⟨_,rfl⟩
      · exact absurd (cancelledEnded _ row found cancelled) (ofRun ▸ not_open_and_ended isOpen)
      · exact cancelled.symm
  · intro ended _
    rcases allowed with ⟨isOpen,_⟩ | ⟨_,rfl⟩
    · exact absurd ended (ofRun ▸ not_open_and_ended isOpen)
    · exact .inr (.inr rfl)
  · intro cancels
    rcases allowed with ⟨_,other⟩ | ⟨ended,_⟩
    · exact absurd cancels other
    · exact .inr (ofRun ▸ ended)

theorem held_finished (held : Held db job) (status : Status) (errorCode : Option ErrorCode) :
    ∃ row, find (completeJob db.jobs job.id status errorCode) job.id = some (finished status errorCode row) ∧
      find db.jobs job.id = some row ∧ row.runId = job.runId := by
  obtain ⟨row,found,ofRun,_⟩ := held
  exact ⟨row,by simp [find_completeJob,found],found,ofRun⟩
theorem evolves_renewed (found : find db.jobs job.id = some job) (until_ : Nat) :
    Evolves db { db with jobs := update db.jobs job.id (renewed until_) } :=
  evolves_job found (by intro other; rfl) rfl (fun _ => rfl) (fun _ live => live) .inl

variable {settings : Settings}
variable {workerId : Nat}
theorem work_crashed {next : Phase × Db}
    (stepped : work settings workerId db phase .crashed = some next) : next = (.idle,db) := by
  cases phase <;> simp_all [work]
/-- An exception leads to `markJobFailed`, or ends the process in it. -/
theorem work_raised {error : ErrorCode}
    {next : Phase × Db} (stepped : work settings workerId db phase (.raised error) = some next) :
    next = (.idle,db) ∨ ∃ job, attempt phase = some job ∧ next = (.failing job error,db) := by
  cases phase <;> simp_all [work,attempt]
theorem held_run (jobRun : ∀ id job, find db.jobs id = some job → ∃ run, find db.runs job.runId = some run) (held : Held db job) : ∃ run, find db.runs job.runId = some run := by
  obtain ⟨row,found,ofRun,_⟩ := held
  exact ofRun ▸ jobRun _ row found
/-- After `setRunStatus` the run has the status. -/
theorem set_run (isOpen : RunOpen db runId) (status : Status) (errorCode : Option ErrorCode) :
    ∃ run, find (setRunStatus db.runs runId status errorCode) runId = some run ∧ run.status = status := by
  obtain ⟨run,found,_⟩ := isOpen
  exact ⟨{ run with status, errorCode },by simp [find_setRunStatus,found],rfl⟩
theorem knows_refusing {run : AssistantRunRow} (held : Held db job)
    (found : find db.runs job.runId = some run) (terminal : isTerminalRunStatus run.status) : Knows db (.refusing job) := by
  refine ⟨by simp [settling],?_,by simp,?_⟩
  · rintro _ (⟨⟨⟩⟩ | ⟨⟨⟩⟩)
    exact ⟨run,found,terminal⟩
  · rintro _ ⟨⟩
    exact held

theorem knows_open (held : Held db job) (isOpen : RunOpen db job.runId)
    (goes : phase = .starting job ∨ phase = .persisting job ∨ ∃ error, phase = .recording job error) : Knows db phase := by
  rcases goes with rfl | rfl | ⟨error,rfl⟩
  all_goals
    refine ⟨?_,by simp,by simp,?_⟩
    · rintro _ ⟨⟩
      exact isOpen
    · rintro _ ⟨⟩
      exact held

theorem work_ok {next : Phase × Db}
    (jobRun : ∀ id job, find db.jobs id = some job → ∃ run, find db.runs job.runId = some run)
    (cancelledEnded : ∀ id row, find db.jobs id = some row → row.status = .cancelled → RunEnded db row.runId)
    (knows : Knows db phase) (stepped : work settings workerId db phase .ok = some next) :
    Knows next.2 next.1 ∧ Evolves db next.2 := by
  cases phase with
  | idle => simp [work] at stepped
  | claiming snapshot at_ => simp [work] at stepped
  | claimed job =>
    have held := knows.holds job rfl
    obtain ⟨run,found⟩ := held_run jobRun held
    simp only [work,found] at stepped
    split at stepped
    · rename_i terminal
      cases stepped
      exact ⟨knows_refusing held found terminal,evolves_refl db⟩
    · rename_i still
      cases stepped
      exact ⟨knows_open held ⟨run,found,by simpa using still⟩ (.inl rfl),evolves_refl db⟩
  | refusing job =>
    simp only [work,Option.some.injEq] at stepped
    subst stepped
    exact ⟨knows_idle _,evolves_finished (knows.holds job rfl) cancelledEnded (.inr ⟨knows.ended job (.inl rfl),rfl⟩)⟩
  | starting job =>
    simp only [work,Option.some.injEq] at stepped
    subst stepped
    refine ⟨⟨by simp [settling],by simp,by simp,?_⟩,evolves_setRunStatus (knows.opened job rfl) _ _⟩
    rintro _ ⟨⟩
    exact knows.holds job rfl
  | executing job lost =>
    simp only [work] at stepped
    split at stepped
    · cases stepped
      exact ⟨knows_idle _,evolves_refl db⟩
    · cases stepped
      refine ⟨⟨by simp [settling],by simp,by simp,?_⟩,evolves_refl db⟩
      rintro _ ⟨⟩
      exact knows.holds job rfl
  | renewing job =>
    simp only [work] at stepped
    split at stepped
    · cases stepped
      exact ⟨knows_idle _,evolves_refl db⟩
    · rename_i jobs answered
      cases stepped
      obtain ⟨_,rfl⟩ := renewJobLeaseOrThrow_some answered
      obtain ⟨row,found,rest⟩ := knows.holds job rfl
      have keyed : row.id = job.id := find_key found
      refine ⟨⟨by simp [settling],by simp,by simp,?_⟩,keyed ▸ evolves_renewed (keyed ▸ found) _⟩
      rintro _ ⟨⟩
      exact ⟨renewed _ row,by rw [find_renewed,if_pos rfl,found]; rfl,rest⟩
  | rechecking job =>
    have held := knows.holds job rfl
    obtain ⟨run,found⟩ := held_run jobRun held
    simp only [work,found] at stepped
    split at stepped
    · rename_i terminal
      cases stepped
      exact ⟨knows_refusing held found terminal,evolves_refl db⟩
    · rename_i still
      cases stepped
      exact ⟨knows_open held ⟨run,found,by simpa using still⟩ (.inr (.inl rfl)),evolves_refl db⟩
  | persisting job =>
    simp only [work,Option.some.injEq] at stepped
    subst stepped
    have isOpen := knows.opened job rfl
    obtain ⟨row,done,_⟩ := held_finished (knows.holds job rfl) .completed none
    refine ⟨⟨?_,by simp,?_,by simp [holding]⟩,evolves_finished (knows.holds job rfl) cancelledEnded (.inl ⟨isOpen,by decide⟩)⟩
    · rintro _ ⟨⟩
      exact isOpen
    · rintro _ ⟨⟩
      exact ⟨_,done,rfl⟩
  | closing job =>
    simp only [work,Option.some.injEq] at stepped
    subst stepped
    have isOpen := knows.opened job rfl
    refine ⟨⟨by simp [settling],?_,by simp,by simp [holding]⟩,evolves_setRunStatus isOpen _ _⟩
    rintro _ (⟨⟨⟩⟩ | ⟨⟨⟩⟩)
    obtain ⟨run,found,same⟩ := set_run isOpen .completed none
    exact ⟨run,found,by rw [same]; rfl⟩
  | announcing job =>
    simp only [work,Option.some.injEq] at stepped
    subst stepped
    exact ⟨knows_idle _,evolves_refl db⟩
  | failing job error =>
    obtain ⟨run,found,still⟩ := knows.opened job rfl
    simp only [work,found,Option.some.injEq] at stepped
    subst stepped
    exact ⟨knows_open (knows.holds job rfl) ⟨run,found,still⟩ (.inr (.inr ⟨error,rfl⟩)),evolves_refl db⟩
  | recording job error =>
    have isOpen := knows.opened job rfl
    simp only [work] at stepped
    split at stepped
    · cases stepped
      refine ⟨⟨?_,by simp,by simp,by simp [holding]⟩,evolves_finished (knows.holds job rfl) cancelledEnded (.inl ⟨isOpen,by decide⟩)⟩
      rintro _ ⟨⟩
      exact isOpen
    · cases stepped
      refine ⟨⟨?_,by simp,by simp,by simp [holding]⟩,evolves_finished (knows.holds job rfl) cancelledEnded (.inl ⟨isOpen,by decide⟩)⟩
      rintro _ ⟨⟩
      exact isOpen
  | requeued job error =>
    simp only [work,Option.some.injEq] at stepped
    subst stepped
    exact ⟨knows_idle _,evolves_setRunStatus (knows.opened job rfl) _ _⟩
  | failed job error =>
    simp only [work,Option.some.injEq] at stepped
    subst stepped
    exact ⟨knows_idle _,evolves_setRunStatus (knows.opened job rfl) _ _⟩

variable {outcome : Outcome}

theorem work_writes {next : Phase × Db} (stepped : work settings workerId db phase outcome = some next) :
    ∃ job, phase.job = some job ∧ (next.1.job = some job ∨ next.1.job = none) ∧
      (next.2 = db ∨
        (∃ status errorCode, next.2 = { db with runs := setRunStatus db.runs job.runId status errorCode }) ∨
        holding phase = some job ∧
          ((∃ status errorCode, next.2 = { db with jobs := completeJob db.jobs job.id status errorCode }) ∨
            ∃ until_, next.2 = { db with jobs := update db.jobs job.id (renewed until_) })) := by
  cases outcome with
  | crashed =>
    have stopped := work_crashed stepped
    subst stopped
    cases phase <;> simp_all [work,Phase.job]
  | raised error =>
    rcases work_raised stepped with rfl | ⟨job,isAttempt,rfl⟩
    · cases phase <;> simp_all [work,Phase.job]
    · refine ⟨job,?_,.inl rfl,.inl rfl⟩
      cases phase <;> simp_all [attempt,Phase.job]
  | ok =>
    cases phase with
    | idle => simp [work] at stepped
    | claiming snapshot at_ => simp [work] at stepped
    | claimed job | rechecking job =>
      refine ⟨job,rfl,?_⟩
      simp only [work] at stepped
      split at stepped
      · cases stepped
        exact ⟨.inl rfl,.inl rfl⟩
      · split at stepped <;> cases stepped <;> exact ⟨.inl rfl,.inl rfl⟩
    | refusing job | persisting job =>
      simp only [work,Option.some.injEq] at stepped
      subst stepped
      exact ⟨job,rfl,by simp [Phase.job],.inr (.inr ⟨rfl,.inl ⟨_,_,rfl⟩⟩)⟩
    | starting job | closing job | requeued job error | failed job error =>
      simp only [work,Option.some.injEq] at stepped
      subst stepped
      exact ⟨job,rfl,by simp [Phase.job],.inr (.inl ⟨_,_,rfl⟩)⟩
    | executing job lost =>
      simp only [work] at stepped
      split at stepped <;> cases stepped <;> exact ⟨job,rfl,by simp [Phase.job],.inl rfl⟩
    | renewing job =>
      simp only [work] at stepped
      split at stepped
      · cases stepped
        exact ⟨job,rfl,.inr rfl,.inl rfl⟩
      · rename_i jobs answered
        cases stepped
        obtain ⟨_,rfl⟩ := renewJobLeaseOrThrow_some answered
        exact ⟨job,rfl,.inl rfl,.inr (.inr ⟨rfl,.inr ⟨_,rfl⟩⟩)⟩
    | announcing job =>
      simp only [work,Option.some.injEq] at stepped
      subst stepped
      exact ⟨job,rfl,.inr rfl,.inl rfl⟩
    | failing job error =>
      simp only [work] at stepped
      split at stepped <;> cases stepped <;> exact ⟨job,rfl,by simp [Phase.job],.inl rfl⟩
    | recording job error =>
      simp only [work] at stepped
      split at stepped <;> cases stepped <;> exact ⟨job,rfl,.inl rfl,.inr (.inr ⟨rfl,.inl ⟨_,_,rfl⟩⟩)⟩

variable {connected : Bool}

theorem heartbeat_writes {next : Phase × Db} (stepped : heartbeat settings workerId db phase connected = some next) :
    ∃ job lost, phase = .executing job lost ∧ (∃ later, next.1 = .executing job later) ∧
      (next.2 = db ∨ ∃ until_, next.2 = { db with jobs := update db.jobs job.id (renewed until_) }) := by
  unfold heartbeat at stepped
  split at stepped
  · rename_i job
    split at stepped
    · cases stepped
      exact ⟨job,_,rfl,⟨_,rfl⟩,.inl rfl⟩
    · rename_i jobs answered
      cases stepped
      split at answered
      · obtain ⟨_,rfl⟩ := renewJobLeaseOrThrow_some answered
        exact ⟨job,_,rfl,⟨_,rfl⟩,.inr ⟨_,rfl⟩⟩
      · cases answered
  · cases stepped
    exact ⟨_,_,rfl,⟨_,rfl⟩,.inl rfl⟩
  · cases stepped

variable {w : Fin workers}
variable {world : World workers requests}

theorem orderly_put (orderly : Orderly world) {next : Phase × Db} (ofPhase : (world.worker w).job = some job) (later : next.1.job = some job ∨ next.1.job = none)
    (evolves : Evolves world.db next.2) (knows : Knows next.2 next.1)
    (runs : ∀ id, id ≠ job.runId → find next.2.runs id = find world.db.runs id)
    (jobs : ∀ id row, find world.db.jobs id = some row → row.runId ≠ job.runId → find next.2.jobs id = some row) :
    Orderly (world.put w next) := by
  have jobOf : ∀ v held, ((world.put w next).worker v).job = some held → (world.worker v).job = some held := by
    intro v held ofLater
    simp only [World.put,update_apply] at ofLater
    split at ofLater
    · rename_i same
      subst same
      rcases later with kept | done
      · exact ofPhase.trans (kept ▸ ofLater)
      · rw [done] at ofLater
        cases ofLater
    · exact ofLater
  refine ⟨evolves.distinct orderly.distinct,evolves_jobRun evolves orderly.jobRun,
    evolves_cancelled evolves orderly.cancelledEnded,?_,?_,?_⟩
  · intro v u held other ofV ofU same
    exact orderly.apart v u held other (jobOf v held ofV) (jobOf u other ofU) same
  · intro v
    simp only [World.put,update_apply]
    split
    · exact knows
    · rename_i other
      refine knows_frame evolves ?_ ?_ (orderly.knows v)
      · intro held run isSettling found
        refine (runs held.runId ?_).trans found
        intro same
        exact other (orderly.apart v w held job (settling_job isSettling) ofPhase same)
      · intro held row isHolding found ofRun
        refine jobs held.id row found ?_
        intro same
        exact other (orderly.apart v w held job (holding_job isHolding) ofPhase (ofRun ▸ same))
  · intro c
    exact evolves_informed evolves (orderly.informed c)

theorem orderly_tables (orderly : Orderly world) (evolves : Evolves world.db db)
    (runs : ∀ id run, find world.db.runs id = some run → find db.runs id = some run)
    (jobs : ∀ id job, find world.db.jobs id = some job → find db.jobs id = some job) : Orderly { world with db } := by
  refine ⟨evolves.distinct orderly.distinct,evolves_jobRun evolves orderly.jobRun,
    evolves_cancelled evolves orderly.cancelledEnded,orderly.apart,?_,?_⟩
  · intro w
    exact knows_frame evolves (fun job run _ found => runs _ run found) (fun job row _ found _ => jobs _ row found)
      (orderly.knows w)
  · intro c
    exact evolves_informed evolves (orderly.informed c)

variable {c : Fin requests}

theorem orderly_answer (orderly : Orderly world)
    {next : CancelPhase × Db} (evolves : Evolves world.db next.2) (informed : Informed next.2 next.1)
    (knows : ∀ w, Knows next.2 (world.worker w)) : Orderly (world.answer c next) := by
  refine ⟨evolves.distinct orderly.distinct,evolves_jobRun evolves orderly.jobRun,
    evolves_cancelled evolves orderly.cancelledEnded,orderly.apart,knows,?_⟩
  intro d
  simp only [World.answer,update_apply]
  split
  · exact informed
  · exact evolves_informed evolves (orderly.informed d)

/-- What a worker knows after an exception that leads to `markJobFailed`: its
    attempt was unfinished. -/
theorem knows_failing (orderly : Orderly world)
    (isAttempt : attempt (world.worker w) = some job) (open_ : unfinished world.db job) (error : ErrorCode) :
    Knows world.db (.failing job error) := by
  have knows := orderly.knows w
  simp only [unfinished,Bool.and_eq_true,Option.all_eq_true] at open_
  have notEnded : ¬ RunEnded world.db job.runId := by
    rintro ⟨run,found,terminal⟩
    have still := open_.1 run found
    rw [terminal] at still
    cases still
  have held : Held world.db job := by
    cases phase : world.worker w with
    | announcing other =>
      rw [phase] at isAttempt knows
      cases isAttempt
      exact absurd (knows.ended _ (.inr rfl)) notEnded
    | closing other =>
      rw [phase] at isAttempt knows
      cases isAttempt
      obtain ⟨row,found,terminal⟩ := knows.closed _ rfl
      have still := open_.2 row found
      rw [terminal] at still
      cases still
    | _ => exact knows.holds job (by rw [phase] at isAttempt ⊢; simp_all [attempt,holding])
  refine ⟨?_,by simp,by simp,?_⟩
  · rintro _ ⟨⟩
    obtain ⟨run,found⟩ := held_run orderly.jobRun held
    exact ⟨run,found,by simpa using open_.1 run found⟩
  · rintro _ ⟨⟩
    exact held

variable {next : World workers requests}

theorem orderly_work (orderly : Orderly world) (undisturbed : Undisturbed settings world (.work w outcome))
    (stepped : step settings world (.work w outcome) = some next) : Orderly next ∧ Evolves world.db next.db := by
  obtain ⟨moved,worked,rfl⟩ := Option.map_eq_some_iff.mp stepped
  have settles : Knows moved.2 moved.1 ∧ Evolves world.db moved.2 := by
    cases outcome with
    | ok => exact work_ok orderly.jobRun orderly.cancelledEnded (orderly.knows w) worked
    | crashed =>
      rw [work_crashed worked]
      exact ⟨knows_idle _,evolves_refl _⟩
    | raised error =>
      rcases work_raised worked with rfl | ⟨job,isAttempt,rfl⟩
      · exact ⟨knows_idle _,evolves_refl _⟩
      · exact ⟨knows_failing orderly isAttempt (undisturbed job isAttempt) error,evolves_refl _⟩
  obtain ⟨job,ofPhase,later,writes⟩ := work_writes worked
  refine ⟨orderly_put orderly ofPhase later settles.2 settles.1 ?_ ?_,settles.2⟩
  · intro id other
    rcases writes with same | ⟨status,errorCode,same⟩ | ⟨_,⟨status,errorCode,same⟩ | ⟨until_,same⟩⟩ <;> rw [same]
    rw [find_setRunStatus,if_neg other]
  · intro id row found otherRun
    -- A worker writes a job only while it holds it, so the job is one of its run.
    have otherJob : holding (world.worker w) = some job → id ≠ job.id := by
      rintro isHolding rfl
      obtain ⟨own,foundOwn,ofRun,_⟩ := (orderly.knows w).holds job isHolding
      rw [found] at foundOwn
      cases foundOwn
      exact otherRun ofRun
    rcases writes with same | ⟨status,errorCode,same⟩ | ⟨isHolding,⟨status,errorCode,same⟩ | ⟨until_,same⟩⟩ <;> rw [same]
    · exact found
    · exact found
    · rw [find_completeJob,if_neg (otherJob isHolding),found]
    · rw [find_renewed,if_neg (otherJob isHolding),found]

theorem orderly_heartbeat
    (orderly : Orderly world) (stepped : step settings world (.heartbeat w connected) = some next) :
    Orderly next ∧ Evolves world.db next.db := by
  obtain ⟨moved,beaten,rfl⟩ := Option.map_eq_some_iff.mp stepped
  obtain ⟨job,lost,phase,⟨later,again⟩,writes⟩ := heartbeat_writes beaten
  have held : Held world.db job := (orderly.knows w).holds job (by rw [phase]; rfl)
  obtain ⟨row,found,ofRun,live⟩ := held
  have keyed : row.id = job.id := find_key found
  have evolves : Evolves world.db moved.2 := by
    rcases writes with same | ⟨until_,same⟩ <;> rw [same]
    · exact evolves_refl _
    · exact keyed ▸ evolves_renewed (keyed ▸ found) until_
  refine ⟨orderly_put orderly (by rw [phase]; rfl : (world.worker w).job = some job) (.inl (by rw [again]; rfl)) evolves ?_ ?_ ?_,evolves⟩
  · rw [again]
    refine ⟨by simp [settling],by simp,by simp,?_⟩
    rintro _ ⟨⟩
    rcases writes with same | ⟨until_,same⟩ <;> rw [same]
    · exact ⟨row,found,ofRun,live⟩
    · exact ⟨renewed until_ row,by rw [find_renewed,if_pos rfl,found]; rfl,ofRun,live⟩
  · intro id _
    rcases writes with same | ⟨until_,same⟩ <;> rw [same]
  · intro id other foundOther otherRun
    rcases writes with same | ⟨until_,same⟩ <;> rw [same]
    · exact foundOther
    · rw [find_renewed,if_neg,foundOther]
      rintro rfl
      rw [found] at foundOther
      cases foundOther
      exact otherRun ofRun

theorem orderly_take {locked : List Nat}
    (orderly : Orderly world) (undisturbed : Undisturbed settings world (.take w locked))
    (stepped : step settings world (.take w locked) = some next) : Orderly next ∧ Evolves world.db next.db := by
  simp only [step,take] at stepped
  split at stepped
  case h_2 => cases stepped
  rename_i snapshot at_ phase
  split at stepped
  · -- No candidate: the worker polls again.
    cases stepped
    refine ⟨?_,evolves_refl _⟩
    have kept : ∀ v held, ((world.put w (.idle,world.db)).worker v).job = some held → (world.worker v).job = some held := by
      intro v held ofLater
      simp only [World.put,update_apply] at ofLater
      split at ofLater
      · cases ofLater
      · exact ofLater
    refine ⟨orderly.distinct,orderly.jobRun,orderly.cancelledEnded,?_,?_,orderly.informed⟩
    · intro v u held other ofV ofU same
      exact orderly.apart v u held other (kept v held ofV) (kept u other ofU) same
    · intro v
      simp only [World.put,update_apply]
      split
      · exact knows_idle _
      · exact orderly.knows v
  · rename_i job candidate
    cases stepped
    obtain ⟨found,free⟩ := claimCandidate_some candidate
    have status := claimable_status free
    have alone : ∀ v held, (world.worker v).job = some held → held.runId ≠ job.runId := by
      intro v held ofV
      exact undisturbed job (by simp only [takes,phase]; exact candidate) v held ofV
    have evolves : Evolves world.db { world.db with jobs := update world.db.jobs job.id (claimed settings at_ w) } := by
      refine evolves_job found (by intro row; rfl) rfl ?_ (fun _ _ => .inr (.inl rfl)) (by simp)
      intro terminal
      rcases status with queued | running
      · rw [queued] at terminal
        cases terminal
      · rw [running] at terminal
        cases terminal
    refine ⟨⟨evolves.distinct orderly.distinct,evolves_jobRun evolves orderly.jobRun,
      evolves_cancelled evolves orderly.cancelledEnded,?_,?_,?_⟩,evolves⟩
    · intro v u held other ofV ofU same
      simp only [World.put,update_apply] at ofV ofU
      split at ofV <;> split at ofU
      · rename_i isV isU
        exact isV.trans isU.symm
      · cases ofV
        exact absurd same.symm (alone u other ofU)
      · cases ofU
        exact absurd same (alone v held ofV)
      · exact orderly.apart v u held other ofV ofU same
    · intro v
      simp only [World.put,update_apply]
      split
      · refine ⟨by simp [settling],by simp,by simp,?_⟩
        rintro _ ⟨⟩
        exact ⟨claimed settings at_ w job,by rw [claimed_id,find_claimed,if_pos rfl,found]; rfl,rfl,.inl rfl⟩
      · refine knows_frame evolves (fun _ _ _ foundRun => foundRun) ?_ (orderly.knows v)
        intro held row isHolding foundRow ofRun
        rw [find_claimed,if_neg,foundRow]
        intro same
        rw [same,found] at foundRow
        cases foundRow
        exact alone v held (holding_job isHolding) ofRun.symm
    · intro c
      exact evolves_informed evolves (orderly.informed c)

/-- The commit of `cancel_run_jobs` changes the jobs of an ended run that no
    worker has finished. -/
theorem evolves_cancelRunJobs {jobs : List Nat} (informed : Informed db (.selected runId jobs)) :
    Evolves db { db with jobs := cancelRunJobs db.jobs jobs } := by
  refine ⟨fun _ run found => ⟨run,found,fun _ => rfl⟩,?_,?_,by rw [cancelRunJobs,keys_updateAll (by intro row; rfl)]; exact id⟩
  · intro id job found
    by_cases listed : id ∈ jobs
    · obtain ⟨row,foundRow,_,live⟩ := informed.2 id listed
      rw [found] at foundRow
      cases foundRow
      refine ⟨finished .cancelled (some .apiCancelled) job,by rw [find_cancelRunJobs,if_pos listed,found]; rfl,rfl,?_,?_⟩
      · intro terminal
        rcases live with queued | running | cancelled
        · rw [queued] at terminal
          cases terminal
        · rw [running] at terminal
          cases terminal
        · exact cancelled.symm
      · exact fun _ _ => .inr (.inr rfl)
    · exact ⟨job,by rw [find_cancelRunJobs,if_neg listed,found],rfl,fun _ => rfl,fun _ live => live⟩
  · intro id later found
    rw [find_cancelRunJobs] at found
    by_cases listed : id ∈ jobs
    · obtain ⟨row,foundRow,ofRun,_⟩ := informed.2 id listed
      rw [if_pos listed,foundRow] at found
      cases found
      exact .inl ⟨row,foundRow,rfl,fun _ => .inr (ofRun ▸ informed.1)⟩
    · rw [if_neg listed] at found
      exact .inl ⟨later,found,rfl,.inl⟩

theorem orderly_cancel (orderly : Orderly world) (undisturbed : Undisturbed settings world (.cancel c))
    (stepped : step settings world (.cancel c) = some next) : Orderly next ∧ Evolves world.db next.db := by
  obtain ⟨moved,answered,rfl⟩ := Option.map_eq_some_iff.mp stepped
  have informed := orderly.informed c
  simp only [Undisturbed] at undisturbed
  cases phase : world.request c with
  | idle => simp [phase,cancel] at answered
  | checked runId =>
    simp only [phase,cancel] at answered
    split at answered
    · cases answered
      exact ⟨orderly_answer orderly (evolves_refl _) trivial orderly.knows,evolves_refl _⟩
    · rename_i run found
      cases answered
      refine ⟨orderly_answer orderly (evolves_refl _) ⟨⟨run,found⟩,?_⟩ orderly.knows,evolves_refl _⟩
      intro cancelled
      exact ⟨run,found,by rw [cancelled]; rfl⟩
  | loaded runId status =>
    rw [phase] at informed undisturbed
    simp only [phase,cancel] at answered
    split at answered
    · rename_i already
      cases answered
      exact ⟨orderly_answer orderly (evolves_refl _) (informed.2 already) orderly.knows,evolves_refl _⟩
    · rename_i other
      cases answered
      obtain ⟨timely,alone⟩ := undisturbed.resolve_left other
      have written : ∀ id, find (update world.db.runs runId fun run => { run with status := .cancelled }) id =
          if id = runId then (find world.db.runs id).map fun run => { run with status := .cancelled }
          else find world.db.runs id := fun id => find_update (by intro row; rfl) id
      have evolves : Evolves world.db
          { world.db with runs := update world.db.runs runId fun run => { run with status := .cancelled } } := by
        refine evolves_jobs rfl ?_
        intro id run found
        by_cases same : id = runId
        · subst same
          exact ⟨{ run with status := .cancelled },by rw [written,if_pos rfl,found]; rfl,
            fun terminal => (timely run found terminal).symm⟩
        · exact ⟨run,by rw [written,if_neg same,found],fun _ => rfl⟩
      refine ⟨orderly_answer orderly evolves ?_ ?_,evolves⟩
      · obtain ⟨run,found⟩ := informed.1
        exact ⟨{ run with status := .cancelled },by rw [written,if_pos rfl,found]; rfl,rfl⟩
      · intro w
        refine knows_frame evolves ?_ (fun _ _ _ found _ => found) (orderly.knows w)
        intro job run isSettling found
        rw [written,if_neg (alone w job isSettling),found]
  | marked runId =>
    rw [phase] at informed
    simp only [phase,cancel,Option.some.injEq] at answered
    subst answered
    refine ⟨orderly_answer orderly (evolves_refl _) ⟨informed,?_⟩ orderly.knows,evolves_refl _⟩
    intro id listed
    obtain ⟨row,selected,rfl⟩ := List.mem_map.mp listed
    simp only [List.mem_filter,Bool.and_eq_true,Bool.or_eq_true,beq_iff_eq] at selected
    refine ⟨row,find_of_mem orderly.distinct selected.1,selected.2.1,?_⟩
    rcases selected.2.2 with queued | running
    · exact .inl queued
    · exact .inr (.inl running)
  | selected runId jobs =>
    rw [phase] at informed
    simp only [phase,cancel,Option.some.injEq] at answered
    subst answered
    have evolves := evolves_cancelRunJobs informed
    refine ⟨orderly_answer orderly evolves trivial ?_,evolves⟩
    intro w
    have knows := orderly.knows w
    refine ⟨knows.opened,fun job isDone => evolves_ended evolves (knows.ended job isDone),?_,?_⟩
    · intro job isClosing
      obtain ⟨row,found,terminal⟩ := knows.closed job isClosing
      obtain ⟨later,foundLater,_,same,_⟩ := evolves.jobs _ row found
      exact ⟨later,foundLater,by rw [same terminal]; exact terminal⟩
    · intro job isHolding
      obtain ⟨row,found,ofRun,live⟩ := knows.holds job isHolding
      by_cases listed : job.id ∈ jobs
      · exact ⟨finished .cancelled (some .apiCancelled) row,by rw [find_cancelRunJobs,if_pos listed,found]; rfl,ofRun,.inr rfl⟩
      · exact ⟨row,by rw [find_cancelRunJobs,if_neg listed,found],ofRun,live⟩

theorem orderly_cancelRun (orderly : Orderly world) (stepped : step settings world (.cancelRun c runId) = some next) :
    Orderly next ∧ Evolves world.db next.db := by
  simp only [step] at stepped
  split at stepped
  · split at stepped
    · cases stepped
      exact ⟨orderly,evolves_refl _⟩
    · cases stepped
      exact ⟨orderly_answer orderly (evolves_refl _) trivial orderly.knows,evolves_refl _⟩
  · cases stepped

theorem orderly_claim (orderly : Orderly world) (stepped : step settings world (.claim w) = some next) :
    Orderly next ∧ Evolves world.db next.db := by
  simp only [step] at stepped
  split at stepped
  · rename_i phase
    cases stepped
    refine ⟨?_,evolves_refl _⟩
    have kept : ∀ v held, ((world.put w (.claiming world.db.jobs world.db.now,world.db)).worker v).job = some held →
        (world.worker v).job = some held := by
      intro v held ofLater
      simp only [World.put,update_apply] at ofLater
      split at ofLater
      · cases ofLater
      · exact ofLater
    refine ⟨orderly.distinct,orderly.jobRun,orderly.cancelledEnded,?_,?_,orderly.informed⟩
    · intro v u held other ofV ofU same
      exact orderly.apart v u held other (kept v held ofV) (kept u other ofU) same
    · intro v
      simp only [World.put,update_apply]
      split
      · exact ⟨by simp [settling],by simp,by simp,by simp [holding]⟩
      · exact orderly.knows v
  · cases stepped

theorem orderly_createRun (orderly : Orderly world) (stepped : step settings world (.createRun id) = some next) :
    Orderly next ∧ Evolves world.db next.db := by
  simp only [step] at stepped
  split at stepped
  · rename_i fresh
    cases stepped
    have kept : ∀ other run, find world.db.runs other = some run →
        find (world.db.runs ++ [⟨id,.queued,none⟩]) other = some run := by
      intro other run found
      rw [find_append,found]
      rfl
    have evolves : Evolves world.db { world.db with runs := world.db.runs ++ [⟨id,.queued,none⟩] } :=
      evolves_jobs rfl fun other run found => ⟨run,kept other run found,fun _ => rfl⟩
    exact ⟨orderly_tables orderly evolves kept fun _ _ found => found,evolves⟩
  · cases stepped

theorem orderly_createRunJob {input : JobInput}
    (orderly : Orderly world) (stepped : step settings world (.createRunJob input) = some next) :
    Orderly next ∧ Evolves world.db next.db := by
  simp only [step] at stepped
  split at stepped
  · rename_i allowed
    cases stepped
    obtain ⟨fresh,ofRun⟩ := allowed
    have kept : ∀ id job, find world.db.jobs id = some job →
        find (world.db.jobs ++ [input.row world.db.now]) id = some job := by
      intro id job found
      rw [find_append,found]
      rfl
    have evolves : Evolves world.db { world.db with jobs := world.db.jobs ++ [input.row world.db.now] } := by
      refine ⟨fun _ run found => ⟨run,found,fun _ => rfl⟩,
        fun id job found => ⟨job,kept id job found,rfl,fun _ => rfl,fun _ live => live⟩,?_,?_⟩
      · intro id later found
        rw [find_append_fresh fresh] at found
        split at found
        · cases found
          exact .inr ⟨by simp [JobInput.row],Option.isSome_iff_exists.mp ofRun⟩
        · exact .inl ⟨later,found,rfl,.inl⟩
      · intro distinct
        rw [List.map_append,List.nodup_append]
        refine ⟨distinct,List.nodup_singleton _,?_⟩
        intro a member b isNew
        simp only [List.map_cons,List.map_nil,List.mem_singleton] at isNew
        subst isNew
        rintro rfl
        exact find_none.mp fresh member
    exact ⟨orderly_tables orderly evolves (fun _ _ found => found) kept,evolves⟩
  · cases stepped

theorem orderly_step {label : Label workers requests}
    (orderly : Orderly world) (undisturbed : Undisturbed settings world label)
    (stepped : step settings world label = some next) : Orderly next ∧ Evolves world.db next.db := by
  cases label with
  | tick amount =>
    simp only [step,Option.some.injEq] at stepped
    subst stepped
    have evolves : Evolves world.db { world.db with now := world.db.now + amount } :=
      evolves_jobs rfl fun _ run found => ⟨run,found,fun _ => rfl⟩
    exact ⟨orderly_tables orderly evolves (fun _ _ found => found) (fun _ _ found => found),evolves⟩
  | createRun id => exact orderly_createRun orderly stepped
  | createRunJob input => exact orderly_createRunJob orderly stepped
  | claim w => exact orderly_claim orderly stepped
  | take w locked => exact orderly_take orderly undisturbed stepped
  | heartbeat w connected => exact orderly_heartbeat orderly stepped
  | work w outcome => exact orderly_work orderly undisturbed stepped
  | cancelRun c runId => exact orderly_cancelRun orderly stepped
  | cancel c => exact orderly_cancel orderly undisturbed stepped

theorem orderly_initial : Orderly (initial workers requests) :=
  ⟨List.nodup_nil,by simp [initial,find],by simp [initial,find],by simp [initial,Phase.job],
    fun _ => knows_idle _,fun _ => trivial⟩

/-- In every run whose steps are undisturbed, a run or a job that has reached a
    terminal status in some state has that status in every later state. -/
theorem terminal_statuses_final (settings : Settings) (before after : List (Label workers requests))
    (mid last : World workers requests) (meets : Meets (step settings) (Undisturbed settings) (initial workers requests) (before ++ after))
    (reached : run (step settings) (initial workers requests) before = some mid)
    (continued : run (step settings) mid after = some last) : StatusesKept mid last := by
  obtain ⟨first,second⟩ := meets_append meets
  have orderly : Orderly mid :=
    run_keeps (fun _ _ _ here ok stepped => (orderly_step here ok stepped).1) orderly_initial first reached
  refine run_relates (fun _ _ _ here ok stepped => (orderly_step here ok stepped).1) ?_ ?_ ?_ orderly
    (second mid reached) continued
  · intro world
    exact evolves_kept (evolves_refl _)
  · rintro a b c ⟨runsAB,jobsAB⟩ ⟨runsBC,jobsBC⟩
    constructor
    · intro id run found terminal
      obtain ⟨later,foundLater,same⟩ := runsAB id run found terminal
      obtain ⟨last,foundLast,again⟩ := runsBC id later foundLater (by rw [same]; exact terminal)
      exact ⟨last,foundLast,again.trans same⟩
    · intro id job found terminal
      obtain ⟨later,foundLater,same⟩ := jobsAB id job found terminal
      obtain ⟨last,foundLast,again⟩ := jobsBC id later foundLater (by rw [same]; exact terminal)
      exact ⟨last,foundLast,again.trans same⟩
  · intro s label t here ok stepped
    exact evolves_kept (orderly_step here ok stepped).2

def sampleSettings : Settings := ⟨60,60,1,1⟩
def untilChecked : List (Label 1 1) :=
  [.createRun 0,.createRunJob ⟨0,0,0,.backtestPreview,.missing,none,2⟩,.claim 0,.take 0 [],.work 0 .ok]
/-- The whole of `cancel_run`. -/
def cancelling : List (Label 1 1) := [.cancelRun 0 0,.cancel 0,.cancel 0,.cancel 0,.cancel 0]
/-- The rest of `processJob`. -/
def untilDone : List (Label 1 1) :=
  [.work 0 .ok,.heartbeat 0 true,.work 0 .ok,.work 0 .ok,.work 0 .ok,.work 0 .ok,.work 0 .ok,.work 0 .ok]
theorem terminal_statuses_final_sample : ∃ mid last : World 1 1,
    run (step sampleSettings) (initial 1 1) (untilChecked ++ untilDone) = some mid ∧
      find mid.db.runs 0 = some ⟨0,.completed,none⟩ ∧
      run (step sampleSettings) mid [.cancelRun 0 0,.tick 100,.claim 0,.take 0 []] = some last ∧ StatusesKept mid last := by
  refine ⟨_,_,rfl,rfl,rfl,?_⟩
  exact terminal_statuses_final sampleSettings (untilChecked ++ untilDone) [.cancelRun 0 0,.tick 100,.claim 0,.take 0 []]
    _ _ (by decide) rfl rfl

/-- A run that was cancelled after the worker's check of it is running again once
    the worker writes. -/
theorem statuses_not_final : ¬ ∀ (workers requests : Nat) (settings : Settings) (before after : List (Label workers requests))
    (mid last : World workers requests), run (step settings) (initial workers requests) before = some mid →
      run (step settings) mid after = some last → StatusesKept mid last := by
  intro final
  obtain ⟨mid,reached,cancelled⟩ : ∃ mid, run (step sampleSettings) (initial 1 1) (untilChecked ++ cancelling) = some mid ∧
      find mid.db.runs 0 = some ⟨0,.cancelled,none⟩ := ⟨_,rfl,rfl⟩
  obtain ⟨last,ran,running⟩ : ∃ last,
      run (step sampleSettings) (initial 1 1) (untilChecked ++ cancelling ++ [Label.work 0 .ok]) = some last ∧
        find last.db.runs 0 = some ⟨0,.running,none⟩ := ⟨_,rfl,rfl⟩
  obtain ⟨same,again,continued⟩ := run_append_some.mp ran
  rw [reached] at again
  cases again
  obtain ⟨later,found,kept⟩ := (final 1 1 _ _ _ mid last reached continued).1 0 _ cancelled rfl
  rw [running] at found
  cases found
  cases kept

end Codebot.TerminalStatuses
