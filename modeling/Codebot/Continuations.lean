import Codebot.WorkflowResponses

/-!
Continuations of completed workflow tasks, folded from the events `workflow.continuation.*` of a task.
`_pending_workflow_continuation` offers the continuation of the newest task, with one cache of the materialized runs,
and `continue_workflow_task` accepts the request for one.
-/
namespace Codebot.Continuations
open Series Texts Snapshots WorkflowTasks WorkflowInputs WorkflowResponses

inductive EventType
  | continuationRequired | continuationStarted | continuationCompleted | continuationFailed
  | chatWorkflowUpdated | toolCompleted | other (name : String)
deriving DecidableEq
/-- What is read of a payload: its task, its tool and the texts among its completed steps. -/
structure EventPayload where
  taskId : Option Nat
  toolId : Option String
  completedSteps : List String
deriving DecidableEq

structure Event where
  id : Nat
  runId : Nat
  conversationId : Nat
  ownerUserId : Nat
  workspaceId : Nat
  sequence : Nat
  type : EventType
  payload : EventPayload
  createdAt : Nat
deriving DecidableEq

/-- The rows that the functions read. The tasks are the values of a dict. -/
structure Journal where
  conversations : List Conversation
  runs : List AssistantRun
  tasks : List Task
  events : List Event
  taskIds : (tasks.map (·.id)).Nodup
/-- `get_conversation`. -/
def Journal.conversation (journal : Journal) (auth : AuthContext) (conversationId : Nat) : Option Conversation :=
  (journal.conversations.find? fun conversation => conversation.id == conversationId).filter fun conversation =>
    authorized auth conversation.ownerUserId conversation.workspaceId && !conversation.deleted
/-- `get_run`. -/
def Journal.run (journal : Journal) (auth : AuthContext) (runId : Nat) : Option AssistantRun :=
  (journal.runs.find? fun run => run.id == runId).filter fun run => authorized auth run.ownerUserId run.workspaceId
/-- `list_run_events`. -/
def Journal.runEvents (journal : Journal) (auth : AuthContext) (runId : Nat) : Option (List Event) :=
  (journal.run auth runId).map fun run => journal.events.filter fun event => event.runId == run.id
/-- `list_workflow_tasks`. -/
def Journal.workflowTasks (journal : Journal) (auth : AuthContext) (conversationId : Nat) : Option (List Task) :=
  (journal.conversation auth conversationId).map fun conversation =>
    ordered WorkflowTask.order (journal.tasks.filter fun task =>
      task.conversationId == conversation.id && taskAuthorized auth task)
/-- `WORKFLOW_CONTINUATION_EVENT_TYPES`. -/
def continuationEventTypes : List EventType :=
  [.continuationRequired,.continuationStarted,.continuationCompleted,.continuationFailed]
def Event.order (event : Event) : Nat ×ₗ Nat ×ₗ Nat ×ₗ Nat :=
  toLex (event.createdAt,toLex (event.runId,toLex (event.sequence,event.id)))
/-- A continuation event of the task that the caller may see. -/
def concerns (auth : AuthContext) (task : Task) (event : Event) : Bool :=
  event.conversationId == task.conversationId && authorized auth event.ownerUserId event.workspaceId &&
    continuationEventTypes.contains event.type && event.payload.taskId == some task.id
/-- `list_workflow_task_continuation_events`. -/
def Journal.continuationEvents (journal : Journal) (auth : AuthContext) (taskId : Nat) : Option (List Event) :=
  (getWorkflowTask journal.tasks auth taskId).map fun task => ordered Event.order (journal.events.filter (concerns auth task))
inductive ContinuationStatus
  | required | started | completed | failed
deriving DecidableEq
/-- The values of `state_by_task`. -/
structure ContinuationItem where
  status : ContinuationStatus
  runId : Nat
  createdAt : Nat
  payload : EventPayload
deriving DecidableEq
def EventType.continuationStatus : EventType → Option ContinuationStatus
  | .continuationRequired => some .required
  | .continuationStarted => some .started
  | .continuationCompleted => some .completed
  | .continuationFailed => some .failed
  | _ => none
/-- `_workflow_continuation_events_by_task`. Each event overrides every key of the state before it. -/
def continuationEventsByTask (events : List Event) : Finmap fun _ : Nat => ContinuationItem :=
  events.foldl (fun stateByTask event =>
    match event.payload.taskId,event.type.continuationStatus with
    | some taskId,some status => stateByTask.insert taskId ⟨status,event.runId,event.createdAt,event.payload⟩
    | _,_ => stateByTask) ∅
/-- The continuation of a task, as its events show it. -/
def Journal.continuationItem (journal : Journal) (auth : AuthContext) (taskId : Nat) : Option ContinuationItem :=
  (continuationEventsByTask ((journal.continuationEvents auth taskId).getD [])).lookup taskId

/-- What `workflow_task_continuation_state` returns. -/
structure Continuation where
  taskId : Nat
  workflowId : String
  taskTemplateId : String
  resumeIntent : Option String
  reason : String
  values : Values
deriving DecidableEq

def workflowTaskContinuationState (registry : Registry) (task : Task) : Option Continuation :=
  match (registry.lookup task.workflowId).bind fun definition => taskTemplate definition task.taskTemplateId with
  | none => none
  | some template =>
    if template.resumeOnComplete && ["completed","approved"].contains task.status then
      some ⟨task.id,task.workflowId,task.taskTemplateId,template.resumeIntent,"workflow_task_completed",existingTaskValues task⟩
    else none
def terminalRunStatuses : List String := ["completed","failed","blocked","cancelled"]
/-- The clock of a check, and the age at which a started continuation is stale. -/
structure Clock where
  now : Nat
  staleAfter : Nat
/-- `_workflow_continuation_started_is_stale`. -/
def continuationStartedIsStale (journal : Journal) (auth : AuthContext) (clock : Clock) (item : ContinuationItem) : Bool :=
  (journal.run auth item.runId).any (fun run => terminalRunStatuses.contains run.status) ||
    item.createdAt + clock.staleAfter ≤ clock.now

section
variable (unicode : Unicode)

/-- `workflow_task_strategy_spec_next_action` of the state of a task. -/
def strategySpecNextAction (task : Task) : Option Text :=
  if task.taskTemplateId = "review_strategy_spec_next_step" then
    match (existingTaskValues task).lookup "next_after_strategy_spec" with
    | some (.text value) => stringValue unicode value
    | _ => none
  else none

/-- The events that show the output of a task, where there is one to wait for. -/
def awaitedOutput (task : Task) : Option (Event → Bool) :=
  if task.taskTemplateId = "collect_strategy_inputs" then
    some fun event => event.type == .chatWorkflowUpdated && event.payload.completedSteps.contains "draft_strategy_spec"
  else if task.taskTemplateId ≠ "review_strategy_spec_next_step" then none
  else if strategySpecNextAction unicode task ≠ some (text "generate_pine") then none
  else
    some fun event => (event.type == .toolCompleted && event.payload.toolId == some "generate_pine") ||
      (event.type == .chatWorkflowUpdated && event.payload.completedSteps.contains "generate_pine")

def Journal.shows (journal : Journal) (auth : AuthContext) (runId : Nat) (output : Event → Bool) : Bool :=
  ((journal.runEvents auth runId).getD []).any output
abbrev Cache := Finmap fun _ : Nat => Bool

/-- `_workflow_continuation_materialized`, with the cache if there is one. -/
def continuationMaterialized (journal : Journal) (auth : AuthContext) (task : Task) (item : ContinuationItem)
    (cache : Option Cache) : Bool × Option Cache :=
  match awaitedOutput unicode task with
  | none => (true,cache)
  | some output =>
    match cache.bind (·.lookup item.runId) with
    | some cached => (cached,cache)
    | none =>
      let materialized := journal.shows auth item.runId output
      (materialized,cache.map (·.insert item.runId materialized))

/-- `_workflow_continuation_retryable`. -/
def continuationRetryable (journal : Journal) (auth : AuthContext) (clock : Clock) (task : Task) (item : ContinuationItem)
    (cache : Option Cache) : Bool × Option Cache :=
  match item.status with
  | .failed =>
    let (materialized,cache) := continuationMaterialized unicode journal auth task item cache
    (!materialized,cache)
  | .started =>
    let (materialized,cache) := continuationMaterialized unicode journal auth task item cache
    (!materialized && continuationStartedIsStale journal auth clock item,cache)
  | _ => (false,cache)

/-- The continuation was started before and is not to be tried again. -/
def alreadyStarted (journal : Journal) (auth : AuthContext) (clock : Clock) (task : Task) : Option ContinuationItem → Bool
  | none => false
  | some item =>
    match item.status with
    | .required => false
    | .started => !(continuationRetryable unicode journal auth clock task item none).1
    | .failed => (continuationMaterialized unicode journal auth task item none).1
    | .completed => (continuationMaterialized unicode journal auth task item none).1

variable (registry : Registry)

/-- The conflict of `continue_workflow_task`. -/
def continueWorkflowTask (journal : Journal) (auth : AuthContext) (clock : Clock) (task : Task) : Except String Continuation :=
  match workflowTaskContinuationState registry task with
  | none => .error "Workflow task is not resumable"
  | some continuation =>
    if alreadyStarted unicode journal auth clock task (journal.continuationItem auth task.id) then
      .error "Workflow continuation already started"
    else .ok continuation

def Accepts (journal : Journal) (auth : AuthContext) (clock : Clock) (task : Task) : Prop :=
  ∃ continuation, continueWorkflowTask unicode registry journal auth clock task = .ok continuation
/-- What is offered: the payload of a stored event, or the continuation again. -/
inductive Offer
  | stored (payload : EventPayload)
  | again (continuation : Continuation) (reason : String)
def Offer.taskId : Offer → Option Nat
  | .stored payload => payload.taskId
  | .again continuation _ => some continuation.taskId

/-- One turn of the loop of `_pending_workflow_continuation`. -/
def visit (journal : Journal) (auth : AuthContext) (clock : Clock) (cache : Option Cache) (task : Task) :
    Option Offer × Option Cache :=
  match workflowTaskContinuationState registry task with
  | none => (none,cache)
  | some continuation =>
    match journal.continuationItem auth task.id with
    | none => (none,cache)
    | some item =>
      match item.status with
      | .required => (some (.stored item.payload),cache)
      | .failed =>
        let (materialized,cache) := continuationMaterialized unicode journal auth task item cache
        (if materialized then none else some (.again continuation "workflow_continuation_failed"),cache)
      | .started =>
        let (retryable,cache) := continuationRetryable unicode journal auth clock task item cache
        (if retryable then some (.again continuation "workflow_continuation_stale") else none,cache)
      | .completed =>
        let (materialized,cache) := continuationMaterialized unicode journal auth task item cache
        (if materialized then none else some (.again continuation "workflow_continuation_incomplete"),cache)

/-- The loop of `_pending_workflow_continuation`, on the newest task first. -/
def firstOffer (journal : Journal) (auth : AuthContext) (clock : Clock) : Option Cache → List Task → Option Offer
  | _,[] => none
  | cache,task :: rest =>
    match visit unicode registry journal auth clock cache task with
    | (some offer,_) => some offer
    | (none,cache) => firstOffer journal auth clock cache rest
def pendingWorkflowContinuation (journal : Journal) (auth : AuthContext) (clock : Clock) (conversationId : Nat) : Option Offer :=
  match journal.workflowTasks auth conversationId with
  | none => none
  | some tasks => firstOffer unicode registry journal auth clock (some ∅) tasks.reverse

end

section
variable {unicode : Unicode} {registry : Registry} {journal : Journal} {auth : AuthContext} {clock : Clock} {task : Task}
  {item : ContinuationItem}

theorem accepts_iff : Accepts unicode registry journal auth clock task ↔
    (workflowTaskContinuationState registry task).isSome = true ∧
      alreadyStarted unicode journal auth clock task (journal.continuationItem auth task.id) = false := by
  unfold Accepts continueWorkflowTask
  cases workflowTaskContinuationState registry task with
  | none => simp
  | some continuation =>
    cases alreadyStarted unicode journal auth clock task (journal.continuationItem auth task.id) <;> simp

theorem stale_later {later : Nat} (isLater : clock.now ≤ later)
    (stale : continuationStartedIsStale journal auth clock item = true) :
    continuationStartedIsStale journal auth { clock with now := later } item = true := by
  simp only [continuationStartedIsStale,Bool.or_eq_true,decide_eq_true_eq] at stale ⊢
  rcases stale with ended | old
  · exact .inl ended
  · exact .inr (old.trans isLater)

theorem accepts_later {later : Nat} (isLater : clock.now ≤ later) (accepts : Accepts unicode registry journal auth clock task) :
    Accepts unicode registry journal auth { clock with now := later } task := by
  rw [accepts_iff] at *
  refine ⟨accepts.1,?_⟩
  cases found : journal.continuationItem auth task.id with
  | none => rfl
  | some item =>
    have before := accepts.2
    rw [found] at before
    cases status : item.status with
    | required => simp only [alreadyStarted,status]
    | completed => simpa only [alreadyStarted,status] using before
    | failed => simpa only [alreadyStarted,status] using before
    | started =>
      simp only [alreadyStarted,status,continuationRetryable,Bool.not_eq_false',Bool.and_eq_true] at before ⊢
      exact ⟨before.1,stale_later isLater before.2⟩

theorem continuationEventsByTask_append (events : List Event) (event : Event) :
    continuationEventsByTask (events ++ [event]) =
      match event.payload.taskId,event.type.continuationStatus with
      | some taskId,some status =>
        (continuationEventsByTask events).insert taskId ⟨status,event.runId,event.createdAt,event.payload⟩
      | _,_ => continuationEventsByTask events := by
  rw [continuationEventsByTask,List.foldl_append]
  rfl

theorem item_of_event {events : List Event} {taskId : Nat} (found : (continuationEventsByTask events).lookup taskId = some item) :
    ∃ event ∈ events, event.payload.taskId = some taskId ∧ event.type.continuationStatus = some item.status ∧
      item.runId = event.runId ∧ item.createdAt = event.createdAt ∧ item.payload = event.payload := by
  induction events using List.reverseRecOn with
  | nil => simp [continuationEventsByTask] at found
  | append_singleton events event ih =>
    have earlier : (continuationEventsByTask events).lookup taskId = some item →
        ∃ other ∈ events ++ [event], other.payload.taskId = some taskId ∧ other.type.continuationStatus = some item.status ∧
          item.runId = other.runId ∧ item.createdAt = other.createdAt ∧ item.payload = other.payload := by
      intro before
      obtain ⟨other,isOther,facts⟩ := ih before
      exact ⟨other,List.mem_append_left _ isOther,facts⟩
    rw [continuationEventsByTask_append] at found
    split at found
    · rename_i eventTask status isTask isStatus
      by_cases same : taskId = eventTask
      · subst same
        rw [Finmap.lookup_insert] at found
        cases found
        exact ⟨event,by simp,isTask,isStatus,rfl,rfl,rfl⟩
      · rw [Finmap.lookup_insert_of_ne _ same] at found
        exact earlier found
    · exact earlier found

theorem item_taskId {taskId : Nat} (found : journal.continuationItem auth taskId = some item) :
    item.payload.taskId = some taskId := by
  obtain ⟨event,_,names,_,_,_,payload⟩ := item_of_event found
  rw [payload,names]

end

end Codebot.Continuations
