import Codebot.BacktestWorker

/-!
The requests that create runs: `create_runner_run` in every mode and `retry_run`. A request is a sequence of calls to
the repository and to services, each of which returns or raises; one that fails should leave no run pending
(`leaves_none_iff`).
-/
namespace Codebot.OrphanRuns
open JobTable
open BacktestWorker (JobInput)
open Runs (run Meets)

/-- What a call raises: a `SecurityControlError` that is a `BudgetExceeded`, another one, or
    another exception. -/
inductive Exception
  | budgetExceeded
  | securityControl
  | other
deriving DecidableEq
def Exception.security : Exception → Bool
  | .budgetExceeded => true
  | .securityControl => true
  | .other => false
/-- `RUN_MODES`. -/
inductive RunMode
  | dryRun | agent | liveGeneration | backtestPreview
deriving DecidableEq
inductive Request
  | createRunnerRun (mode : RunMode)
  | retryRun
deriving DecidableEq

/-- The call that comes next. `_finish_blocked_run` is called before the `try` around the model
    stream and within it. -/
inductive Phase
  /-- The security controls, the conversation, the schema and the policy, and `_require_run_mode`. -/
  | admission (mode : RunMode)
  | checkRunStart (mode : RunMode)
  /-- `_create_blocked_run_response`. -/
  | blockedRun
  | blockedCalls
  /-- The backtest preview. -/
  | previewRun
  | previewSpec
  | previewPine
  | previewValidation
  | previewJob
  | previewStatus
  | previewFailedEvent
  | previewQueuedEvent
  /-- `execute_agent_run`: `check_model_call` and the events of the first `try`. -/
  | ensureConfigured
  | agentRun
  | modelCalls
  | policyBlocked
  | finishStatus (within : Bool)
  | finishCalls (within : Bool)
  /-- The model stream and `_handle_client_event`. -/
  | streaming
  | handling
  /-- `_execute_tool_call`: before its `try`, in it and in its handler. -/
  | toolGate
  | tool
  | toolFailed (exception : Exception)
  /-- `_queue_backtest_preview` in a tool. -/
  | childConfig
  | childRun
  | childSpec
  | childJob
  | childStatus
  | childFailedEvent
  | childQueuedEvents
  | modelStage
  | agentStatus
  | agentCalls
  /-- `_execute_runner`. -/
  | runnerRun
  | runnerCalls
  | runnerWork
  | runnerStatus
  | runnerEnd
  | runnerFailed
  | runnerFailedEvent
  /-- `retry_run`. -/
  | retryGet
  | retryRun
  /-- `_complete_idempotent_response`. -/
  | completing
  | answered
  | failed
deriving DecidableEq

/-- How a call ends. A record that is not found is `false`, and so are a validation that fails,
    a policy that blocks and a run that is no backtest preview. -/
inductive Label
  | returns (found : Bool)
  | raises (exception : Exception)
  /-- The response of an earlier request is answered. -/
  | replays
  /-- The next event of the model, a tool call or another one, or the end of the stream. -/
  | receives (event : Option Bool)
  /-- The tool queues a backtest preview. -/
  | queues
deriving DecidableEq

/-- A run that the request has created, with its job. -/
structure Row where
  status : Status
  job : Option RunJobRow
deriving DecidableEq
/-- The run of the request, and the runs of its tools, the last one first. -/
structure State where
  phase : Phase
  own : Option Row
  children : List Row
deriving DecidableEq
def initial : Request → State
  | .createRunnerRun mode => ⟨.admission mode,none,[]⟩
  | .retryRun => ⟨.retryGet,none,[]⟩

/-- What a call does to the runs. -/
inductive Change
  | keep
  | createRun (status : Status)
  | createRunJob
  | setRunStatus (status : Status)
  | createChild
  | createChildJob
  | failChild
deriving DecidableEq

def backtestJobMaxAttempts : Nat := 3

/-- What a job is made of. -/
structure Submission where
  now : Nat
  jobId : Nat
  runId : Nat
  workspaceId : Nat
  workspaceActiveLimit : LimitValue
  rangeSeconds : Option Int

/-- The row of `create_run_job`. -/
def Submission.job (submission : Submission) : RunJobRow :=
  JobInput.row submission.now {
    id := submission.jobId
    runId := submission.runId
    workspaceId := submission.workspaceId
    jobType := .backtestPreview
    workspaceActiveLimit := submission.workspaceActiveLimit
    rangeSeconds := submission.rangeSeconds
    maxAttempts := backtestJobMaxAttempts }

def State.apply (submission : Submission) (s : State) : Change → State
  | .keep => s
  | .createRun status => { s with own := some ⟨status,none⟩ }
  | .createRunJob => { s with own := s.own.map fun row => { row with job := some submission.job } }
  | .setRunStatus status => { s with own := s.own.map fun row => { row with status } }
  | .createChild => { s with children := ⟨.queued,none⟩ :: s.children }
  | .createChildJob => { s with children := s.children.modifyHead fun row => { row with job := some submission.job } }
  | .failChild => { s with children := s.children.modifyHead fun row => { row with status := .failed } }

/-- Where the `try` around the model stream leads. -/
def handled (exception : Exception) : Phase := if exception.security then .failed else .agentStatus

/-- Where an exception leads. -/
def raised : Phase → Exception → Phase
  | .checkRunStart _, exception => if exception = .budgetExceeded then .blockedRun else .failed
  | .modelCalls, exception => if exception = .budgetExceeded then .policyBlocked else .failed
  | .finishStatus within, exception => if within then handled exception else .failed
  | .finishCalls within, exception => if within then handled exception else .failed
  | .streaming, exception => handled exception
  | .handling, exception => handled exception
  | .toolGate, exception => handled exception
  | .toolFailed _, exception => handled exception
  | .modelStage, exception => handled exception
  | .tool, exception => .toolFailed exception
  | .childConfig, exception => .toolFailed exception
  | .childRun, exception => .toolFailed exception
  | .childSpec, exception => .toolFailed exception
  | .childJob, exception => .toolFailed exception
  | .childStatus, exception => .toolFailed exception
  | .childFailedEvent, exception => .toolFailed exception
  | .childQueuedEvents, exception => .toolFailed exception
  | .runnerWork, _ => .runnerFailed
  | .runnerStatus, _ => .runnerFailed
  | .runnerEnd, _ => .runnerFailed
  | _, _ => .failed

/-- What a call that returns does to the runs, and what comes after it. -/
def returned : Phase → Bool → Option (Change × Phase)
  | .admission .agent, true => some (.keep,.ensureConfigured)
  | .admission mode, true => some (.keep,.checkRunStart mode)
  | .admission _, false => some (.keep,.blockedRun)
  | .checkRunStart .backtestPreview, _ => some (.keep,.previewRun)
  | .checkRunStart _, _ => some (.keep,.runnerRun)
  | .blockedRun, true => some (.createRun .blocked,.blockedCalls)
  | .blockedRun, false => some (.keep,.failed)
  | .blockedCalls, _ => some (.keep,.completing)
  | .previewRun, true => some (.createRun .queued,.previewSpec)
  | .previewRun, false => some (.keep,.failed)
  | .previewSpec, _ => some (.keep,.previewPine)
  | .previewPine, _ => some (.keep,.previewValidation)
  | .previewValidation, true => some (.keep,.previewJob)
  | .previewValidation, false => some (.keep,.failed)
  | .previewJob, true => some (.createRunJob,.previewQueuedEvent)
  | .previewJob, false => some (.keep,.previewStatus)
  | .previewStatus, true => some (.setRunStatus .failed,.previewFailedEvent)
  | .previewStatus, false => some (.keep,.previewFailedEvent)
  | .previewFailedEvent, _ => some (.keep,.completing)
  | .previewQueuedEvent, _ => some (.keep,.completing)
  | .ensureConfigured, _ => some (.keep,.agentRun)
  | .agentRun, true => some (.createRun .running,.modelCalls)
  | .agentRun, false => some (.keep,.failed)
  | .modelCalls, _ => some (.keep,.streaming)
  | .policyBlocked, _ => some (.keep,.finishStatus false)
  | .finishStatus within, true => some (.setRunStatus .blocked,.finishCalls within)
  | .finishStatus within, false => some (.keep,.finishCalls within)
  | .finishCalls _, _ => some (.keep,.completing)
  | .handling, true => some (.keep,.streaming)
  | .handling, false => some (.keep,.finishStatus true)
  | .toolGate, true => some (.keep,.tool)
  | .toolGate, false => some (.keep,.finishStatus true)
  | .tool, _ => some (.keep,.streaming)
  | .toolFailed exception, _ => some (.keep,handled exception)
  | .childConfig, _ => some (.keep,.childRun)
  | .childRun, true => some (.createChild,.childSpec)
  | .childRun, false => some (.keep,.toolFailed .other)
  | .childSpec, _ => some (.keep,.childJob)
  | .childJob, true => some (.createChildJob,.childQueuedEvents)
  | .childJob, false => some (.keep,.childStatus)
  | .childStatus, true => some (.failChild,.childFailedEvent)
  | .childStatus, false => some (.keep,.childFailedEvent)
  | .childFailedEvent, _ => some (.keep,.toolFailed .other)
  | .childQueuedEvents, _ => some (.keep,.tool)
  | .modelStage, _ => some (.keep,.runnerCalls)
  | .agentStatus, true => some (.setRunStatus .failed,.agentCalls)
  | .agentStatus, false => some (.keep,.agentCalls)
  | .agentCalls, _ => some (.keep,.completing)
  | .runnerRun, true => some (.createRun .running,.runnerCalls)
  | .runnerRun, false => some (.keep,.failed)
  | .runnerCalls, _ => some (.keep,.runnerWork)
  | .runnerWork, _ => some (.keep,.runnerStatus)
  | .runnerStatus, true => some (.setRunStatus .completed,.runnerEnd)
  | .runnerStatus, false => some (.keep,.runnerEnd)
  | .runnerEnd, _ => some (.keep,.completing)
  | .runnerFailed, true => some (.setRunStatus .failed,.runnerFailedEvent)
  | .runnerFailed, false => some (.keep,.runnerFailedEvent)
  | .runnerFailedEvent, _ => some (.keep,.completing)
  | .retryGet, true => some (.keep,.retryRun)
  | .retryGet, false => some (.keep,.failed)
  | .retryRun, true => some (.createRun .queued,.completing)
  | .retryRun, false => some (.keep,.failed)
  | .completing, _ => some (.keep,.answered)
  | .streaming, _ => none
  | .answered, _ => none
  | .failed, _ => none

def Phase.ended (phase : Phase) : Bool := phase == .answered || phase == .failed

/-- What a call that ends so does to the runs, and what comes after it. -/
def next : Phase → Label → Option (Change × Phase)
  | phase, .returns found => returned phase found
  | phase, .raises exception => if phase.ended then none else some (.keep,raised phase exception)
  | .admission _, .replays => some (.keep,.answered)
  | .retryGet, .replays => some (.keep,.answered)
  | .streaming, .receives none => some (.keep,.modelStage)
  | .streaming, .receives (some toolCall) => some (.keep,if toolCall then .toolGate else .handling)
  | .tool, .queues => some (.keep,.childConfig)
  | _, _ => none

def step (submission : Submission) (s : State) (label : Label) : Option State :=
  (next s.phase label).map fun move => { s.apply submission move.1 with phase := move.2 }
def State.rows (s : State) : List Row := s.own.toList ++ s.children
def State.Settled (s : State) : Prop := ∀ row ∈ s.rows, isTerminalRunStatus row.status = true
def State.Served (submission : Submission) (s : State) : Prop :=
  ∀ row ∈ s.rows, row.status = .queued → ∃ job, row.job = some job ∧ claimable submission.now .backtestPreview job = true
def LeavesNone (submission : Submission) (s : State) : Prop :=
  (s.phase = .failed → s.Settled) ∧ (s.phase = .answered → s.Served submission)
/-- How far a request is: its run is not there yet, it is queued or running, or a status has been
    written, or is not to be. -/
inductive Stage
  | before | pending | written
deriving DecidableEq

def Phase.stage : Phase → Stage
  | .admission _ => .before
  | .checkRunStart _ => .before
  | .blockedRun => .before
  | .previewRun => .before
  | .ensureConfigured => .before
  | .agentRun => .before
  | .runnerRun => .before
  | .retryGet => .before
  | .retryRun => .before
  | .previewSpec => .pending
  | .previewPine => .pending
  | .previewValidation => .pending
  | .previewJob => .pending
  | .previewStatus => .pending
  | .previewQueuedEvent => .pending
  | .modelCalls => .pending
  | .policyBlocked => .pending
  | .finishStatus _ => .pending
  | .streaming => .pending
  | .handling => .pending
  | .toolGate => .pending
  | .tool => .pending
  | .toolFailed _ => .pending
  | .childConfig => .pending
  | .childRun => .pending
  | .childSpec => .pending
  | .childJob => .pending
  | .childStatus => .pending
  | .childFailedEvent => .pending
  | .childQueuedEvents => .pending
  | .modelStage => .pending
  | .runnerCalls => .pending
  | .runnerWork => .pending
  | .runnerStatus => .pending
  | .blockedCalls => .written
  | .previewFailedEvent => .written
  | .finishCalls _ => .written
  | .agentStatus => .written
  | .agentCalls => .written
  | .runnerEnd => .written
  | .runnerFailed => .written
  | .runnerFailedEvent => .written
  | .completing => .written
  | .answered => .written
  | .failed => .written

/-- A failure that nobody catches comes before the run is there or after its status is written; an answer comes after
    the jobs. -/
def Harmless (submission : Submission) (s : State) (label : Label) : Prop :=
  (next s.phase label = some (.keep,.failed) → s.phase.stage = .before ∨ (s.phase.stage = .written ∧ s.Settled)) ∧
    (next s.phase label = some (.keep,.answered) → s.phase.stage = .before ∨ s.Served submission)
def State.Pending (s : State) : Prop := ∃ row, s.own = some row ∧ isTerminalRunStatus row.status = false
def Sound (submission : Submission) (s : State) : Prop :=
  (s.phase.stage = .before → s.rows = []) ∧ (s.phase.stage = .pending → s.Pending) ∧ LeavesNone submission s

variable {submission : Submission} {s t : State} {label : Label} {phase after : Phase} {change : Change}
theorem step_some : step submission s label = some t ↔
    ∃ change phase, next s.phase label = some (change,phase) ∧ t = { s.apply submission change with phase } := by
  simp [step,eq_comm]

/-- What a move can do: a run is created once, its status is written before or at the end of
    the second stage, and the last call changes no run. -/
def advances (phase : Phase) (move : Change × Phase) : Bool :=
  match move.2.ended, phase.stage, move.1 with
  | true, _, change => change == .keep
  | false, .before, .keep => move.2.stage == .before
  | false, .before, .createRun status => move.2.stage == .written || (move.2.stage == .pending && !isTerminalRunStatus status)
  | false, .before, _ => false
  | false, .pending, .setRunStatus _ => move.2.stage == .written
  | false, .pending, .createRun _ => false
  | false, .pending, _ => move.2.stage == .pending || move.2.stage == .written
  | false, .written, _ => move.2.stage == .written

theorem next_advances {move : Change × Phase} (moved : next phase label = some move) : advances phase move = true := by
  cases label with
  | returns found =>
    cases phase with
    | admission mode => cases mode <;> cases found <;> cases moved <;> rfl
    | checkRunStart mode => cases mode <;> cases found <;> cases moved <;> rfl
    | toolFailed exception => cases exception <;> cases found <;> cases moved <;> rfl
    | _ => cases found <;> cases moved <;> rfl
  | raises exception =>
    cases phase with
    | finishStatus within => cases within <;> cases exception <;> cases moved <;> rfl
    | finishCalls within => cases within <;> cases exception <;> cases moved <;> rfl
    | _ => cases exception <;> cases moved <;> rfl
  | replays => cases phase <;> cases moved <;> rfl
  | receives event =>
    rcases event with _ | _ | _
    · cases phase <;> cases moved
      rfl
    · cases phase <;> cases moved
      rfl
    · cases phase <;> cases moved
      rfl
  | queues =>
    cases phase <;> cases moved
    rfl

theorem settled_of_empty (empty : s.rows = []) : s.Settled := by
  simp [State.Settled,empty]
theorem served_of_empty (empty : s.rows = []) : s.Served submission := by
  simp [State.Served,empty]
theorem not_settled (pending : s.Pending) : ¬ s.Settled := by
  obtain ⟨row,own,unfinished⟩ := pending
  intro settled
  have finished := settled row (by simp [State.rows,own])
  rw [unfinished] at finished
  cases finished

theorem pending_apply (pending : s.Pending) (kept : ∀ status, change ≠ .createRun status ∧ change ≠ .setRunStatus status) :
    (s.apply submission change).Pending := by
  obtain ⟨row,own,unfinished⟩ := pending
  cases change with
  | createRun status => exact absurd rfl (kept status).1
  | setRunStatus status => exact absurd rfl (kept status).2
  | createRunJob => exact ⟨{ row with job := some submission.job },by simp [State.apply,own],unfinished⟩
  | keep => exact ⟨row,own,unfinished⟩
  | createChild => exact ⟨row,own,unfinished⟩
  | createChildJob => exact ⟨row,own,unfinished⟩
  | failChild => exact ⟨row,own,unfinished⟩

theorem ended_iff : phase.ended = true ↔ phase = .answered ∨ phase = .failed := by
  simp [Phase.ended]

theorem sound_step (sound : Sound submission s) (harmless : Harmless submission s label) (stepped : step submission s label = some t) :
    Sound submission t := by
  obtain ⟨change,phase,moved,rfl⟩ := step_some.mp stepped
  obtain ⟨empty,pending,-⟩ := sound
  have advanced := next_advances moved
  cases ended : phase.ended with
  | true =>
    have kept : change = .keep := by simpa [advances,ended] using advanced
    subst kept
    rcases ended_iff.mp ended with rfl | rfl
    · refine ⟨nofun,nofun,nofun,fun _ => ?_⟩
      rcases harmless.2 moved with before | served
      · exact served_of_empty (empty before)
      · exact served
    · refine ⟨nofun,nofun,fun _ => ?_,nofun⟩
      rcases harmless.1 moved with before | ⟨-,settled⟩
      · exact settled_of_empty (empty before)
      · exact settled
  | false =>
    have goes : LeavesNone submission { s.apply submission change with phase } := by
      constructor
      · rintro rfl
        cases ended
      · rintro rfl
        cases ended
    cases stage : s.phase.stage with
    | before =>
      cases change with
      | keep =>
        have later : phase.stage = .before := by simpa [advances,ended,stage] using advanced
        exact ⟨fun _ => empty stage,fun other => by simp [later] at other,goes⟩
      | createRun status =>
        have later : phase.stage = .written ∨ (phase.stage = .pending ∧ isTerminalRunStatus status = false) := by
          simpa [advances,ended,stage] using advanced
        rcases later with later | ⟨later,unfinished⟩
        · exact ⟨fun other => by simp [later] at other,fun other => by simp [later] at other,goes⟩
        · exact ⟨fun other => by simp [later] at other,fun _ => ⟨⟨status,none⟩,rfl,unfinished⟩,goes⟩
      | _ => simp [advances,ended,stage] at advanced
    | pending =>
      have later : phase.stage ≠ .before := by
        intro early
        cases change <;> simp [advances,ended,stage,early] at advanced
      refine ⟨fun early => absurd early later,fun still => ?_,goes⟩
      refine pending_apply (pending stage) ?_
      intro status
      constructor
      · rintro rfl
        simp [advances,ended,stage] at advanced
      · rintro rfl
        simp [advances,ended,stage,still] at advanced
    | written =>
      have later : phase.stage = .written := by
        cases change <;> simpa [advances,ended,stage] using advanced
      exact ⟨fun other => by simp [later] at other,fun other => by simp [later] at other,goes⟩

theorem harmless_of_leavesNone (sound : Sound submission s)
    (leaves : ∀ t, step submission s label = some t → LeavesNone submission t) : Harmless submission s label := by
  constructor
  · intro moved
    have settled : s.Settled := (leaves _ (step_some.mpr ⟨_,_,moved,rfl⟩)).1 rfl
    cases stage : s.phase.stage with
    | before => exact .inl rfl
    | pending => exact absurd settled (not_settled (sound.2.1 stage))
    | written => exact .inr ⟨rfl,settled⟩
  · intro moved
    exact .inr ((leaves _ (step_some.mpr ⟨_,_,moved,rfl⟩)).2 rfl)

theorem sound_initial (submission : Submission) (request : Request) : Sound submission (initial request) := by
  cases request with
  | createRunnerRun mode => exact ⟨fun _ => rfl,nofun,nofun,nofun⟩
  | retryRun => exact ⟨fun _ => rfl,nofun,nofun,nofun⟩
end Codebot.OrphanRuns
