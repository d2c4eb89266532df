import Codebot.Snapshots

/-!
Workflow tasks as the two repositories keep them: `upsert_workflow_task` and
`sync_workflow_tasks`. The in-memory repository replaces records in a dict, the SQL repository
changes the objects of a session and writes them at the commit. Payloads and responses are opaque
but for the four keys that `sync_workflow_tasks` reads.
-/
namespace Codebot.WorkflowTasks
open Series Snapshots

def workflowTaskResolvedStatuses : List String := ["completed","approved","rejected","cancelled"]
def workflowTaskStatuses : List String := workflowTaskResolvedStatuses ++ ["pending_user","blocked"]

/-- A store with nothing but conversations and their runs. -/
def bareStore (conversations : List Conversation) (runs : List AssistantRun)
    (conversationIds : (conversations.map (·.id)).Nodup) (runIds : (runs.map (·.id)).Nodup) : Store where
  conversations := conversations
  messages := []
  runs := runs
  events := []
  artifacts := []
  specs := []
  conversationIds := conversationIds
  messageIds := List.nodup_nil
  runIds := runIds
  eventIds := List.nodup_nil
  artifactIds := List.nodup_nil
  specIds := List.nodup_nil
  messageOwners _ listed := absurd listed (List.not_mem_nil)
  eventRuns _ listed := absurd listed (List.not_mem_nil)
  sequences := List.Pairwise.nil

def resolvedStatus (status : String) : Bool := workflowTaskResolvedStatuses.contains status

/-- `WorkflowTaskRecord`. -/
structure WorkflowTask (Payload Response : Type) where
  id : Nat
  conversationId : Nat
  runId : Option Nat
  ownerUserId : Nat
  workspaceId : Nat
  workflowId : String
  taskTemplateId : String
  stepId : String
  kind : String
  status : String
  payloadJson : Payload
  responseJson : Option Response
  createdAt : Nat
  updatedAt : Nat
  resolvedAt : Option Nat
deriving DecidableEq

/-- The keys of a task payload that `sync_workflow_tasks` reads. -/
inductive PayloadKey
  | taskTemplateId | status | stepId | kind
deriving DecidableEq
/-- The value of a key where the payload has the key and its value is a string. Payloads that
    Python compares as equal are one payload. -/
class TaskPayload (Payload : Type) where
  text : Payload → PayloadKey → Option String
/-- The columns that a task takes from its payload. -/
structure TaskFields where
  status : String
  stepId : String
  kind : String
deriving DecidableEq
def taskFields {Payload : Type} [TaskPayload Payload] (payload : Payload) : Option TaskFields :=
  match TaskPayload.text payload .status,TaskPayload.text payload .stepId,TaskPayload.text payload .kind with
  | some status,some stepId,some kind => some ⟨status,stepId,kind⟩
  | _,_,_ => none

variable {Payload Response : Type}
/-- The constraints of the table `workflow_tasks` on one row. Only PostgreSQL checks the lengths. -/
def columnsFit (checksLengths : Bool) (workflowId taskTemplateId : String) (fields : TaskFields) : Bool :=
  workflowTaskStatuses.contains fields.status &&
    (!checksLengths || (workflowId.length ≤ 120 && taskTemplateId.length ≤ 120 && fields.stepId.length ≤ 120 &&
      fields.kind.length ≤ 80))
/-- The columns of a task that `columnsFit` tests. -/
def WorkflowTask.fields (task : WorkflowTask Payload Response) : TaskFields := ⟨task.status,task.stepId,task.kind⟩
/-- The rows that the calls read. `newId` are the ids that `opaque_id` gives next. -/
structure Rows (Payload Response : Type) where
  store : Store
  tasks : List (WorkflowTask Payload Response)
  newId : Nat → Nat

/-- The rows of both repositories. A conversation has one task for a workflow and a template, which
    belongs to the owner of the conversation. -/
structure Database (Payload Response : Type) extends Rows Payload Response where
  checksLengths : Bool
  taskIds : (tasks.map (·.id)).Nodup
  templates : tasks.Pairwise fun a b =>
    ¬ (a.conversationId = b.conversationId ∧ a.workflowId = b.workflowId ∧ a.taskTemplateId = b.taskTemplateId)
  owners : ∀ task ∈ tasks, ∀ conversation ∈ store.conversations, task.conversationId = conversation.id →
    task.ownerUserId = conversation.ownerUserId ∧ task.workspaceId = conversation.workspaceId
  fits : ∀ task ∈ tasks, columnsFit checksLengths task.workflowId task.taskTemplateId task.fields = true
  newIds : Function.Injective newId
  fresh : ∀ n, ∀ task ∈ tasks, task.id ≠ newId n

/-- `WorkflowTaskSyncResult`. -/
structure SyncResult (Payload Response : Type) where
  records : List (WorkflowTask Payload Response)
  created : List (WorkflowTask Payload Response)
  updated : List (WorkflowTask Payload Response)
  resolved : List (WorkflowTask Payload Response)
  unchanged : List (WorkflowTask Payload Response)
/-- The commit violates a constraint of the table. -/
inductive DatabaseError
  | integrity
deriving DecidableEq
def WorkflowTask.order (task : WorkflowTask Payload Response) : Nat ×ₗ Nat := toLex (task.createdAt,task.id)
/-- `_is_authorized`. -/
def taskAuthorized (auth : AuthContext) (task : WorkflowTask Payload Response) : Bool :=
  authorized auth task.ownerUserId task.workspaceId
/-- `get_run` of the in-memory repository. -/
def getRun (store : Store) (auth : AuthContext) (runId : Nat) : Option AssistantRun :=
  (store.runs.find? fun run => run.id == runId).filter fun run => authorized auth run.ownerUserId run.workspaceId
def authorizedRun (store : Store) (auth : AuthContext) (runId : Nat) : Option AssistantRun :=
  store.runs.find? fun run => run.id == runId && authorized auth run.ownerUserId run.workspaceId
def workflowTaskPayloadMatches [DecidableEq Payload] [TaskPayload Payload] (task : WorkflowTask Payload Response)
    (runId : Option Nat) (payload : Payload) : Bool :=
  task.runId == runId && some task.stepId == TaskPayload.text payload .stepId &&
    some task.kind == TaskPayload.text payload .kind && some task.status == TaskPayload.text payload .status &&
      decide (task.payloadJson = payload)

/-- The arguments of `sync_workflow_tasks`. -/
structure SyncCall (Payload : Type) where
  auth : AuthContext
  conversationId : Nat
  runId : Option Nat
  workflowId : String
  taskPayloads : List Payload
  completedSteps : List String
  now : Nat

/-- The arguments of `upsert_workflow_task`. -/
structure UpsertCall (Payload : Type) where
  auth : AuthContext
  conversationId : Nat
  workflowId : String
  taskTemplateId : String
  stepId : String
  kind : String
  status : String
  payloadJson : Payload
  runId : Option Nat
  now : Nat

section
variable [DecidableEq Payload] [TaskPayload Payload]

/-- The record or row of a task that is not there yet. -/
def createdTask (call : SyncCall Payload) (conversation : Conversation) (id : Nat) (taskTemplateId : String)
    (fields : TaskFields) (payload : Payload) : WorkflowTask Payload Response where
  id
  conversationId := conversation.id
  runId := call.runId
  ownerUserId := call.auth.userId
  workspaceId := call.auth.workspaceId
  workflowId := call.workflowId
  taskTemplateId
  stepId := fields.stepId
  kind := fields.kind
  status := fields.status
  payloadJson := payload
  responseJson := none
  createdAt := call.now
  updatedAt := call.now
  resolvedAt := none

/-- The columns of a task that a payload changes. -/
def updatedTask (call : SyncCall Payload) (fields : TaskFields) (payload : Payload)
    (existing : WorkflowTask Payload Response) : WorkflowTask Payload Response :=
  { existing with
    runId := call.runId
    stepId := fields.stepId
    kind := fields.kind
    status := fields.status
    payloadJson := payload
    updatedAt := call.now
    resolvedAt := if resolvedStatus fields.status then existing.resolvedAt else none }

/-- An open task of a completed step that no payload requested. -/
def superseded (call : SyncCall Payload) (requested : List String) (task : WorkflowTask Payload Response) : Bool :=
  !requested.contains task.taskTemplateId && call.completedSteps.contains task.stepId && !resolvedStatus task.status
/-- The columns of a superseded task. -/
def completedTask (call : SyncCall Payload) (task : WorkflowTask Payload Response) : WorkflowTask Payload Response :=
  { task with status := "completed", updatedAt := call.now, resolvedAt := some call.now }

/-- The variables of the loop over the payloads; `rows` are the objects of the session, which the others name by their
    ids. -/
structure SyncInMemory (Payload Response : Type) where
  tasks : List (WorkflowTask Payload Response)
  byTemplate : List (WorkflowTask Payload Response)
  created : List (WorkflowTask Payload Response)
  updated : List (WorkflowTask Payload Response)
  unchanged : List (WorkflowTask Payload Response)
  requested : List String
  given : Nat

def under (tasks : List (WorkflowTask Payload Response)) (taskTemplateId : String) :
    Option (WorkflowTask Payload Response) := tasks.find? fun task => task.taskTemplateId == taskTemplateId

/-- One turn of the loop over the payloads. -/
def syncInMemoryStep (newId : Nat → Nat) (call : SyncCall Payload) (conversation : Conversation)
    (state : SyncInMemory Payload Response) (payload : Payload) : SyncInMemory Payload Response :=
  match TaskPayload.text payload .taskTemplateId with
  | none => state
  | some taskTemplateId =>
    let state := { state with requested := taskTemplateId :: state.requested }
    let existing := under state.byTemplate taskTemplateId
    match existing.filter (resolvedStatus ·.status) with
    | some existing => { state with unchanged := state.unchanged ++ [existing] }
    | none =>
      match taskFields payload with
      | none => state
      | some fields =>
        match existing with
        | none =>
          let task := createdTask call conversation (newId state.given) taskTemplateId fields payload
          { state with
            tasks := put (·.id) state.tasks task
            byTemplate := put (·.taskTemplateId) state.byTemplate task
            created := state.created ++ [task]
            given := state.given + 1 }
        | some existing =>
          if workflowTaskPayloadMatches existing call.runId payload then
            { state with unchanged := state.unchanged ++ [existing] }
          else
            let task := updatedTask call fields payload existing
            { state with
              tasks := put (·.id) state.tasks task
              byTemplate := put (·.taskTemplateId) state.byTemplate task
              updated := state.updated ++ [task] }

/-- The records of the workflow that the caller may see. -/
def existingRecords (tasks : List (WorkflowTask Payload Response)) (call : SyncCall Payload)
    (conversation : Conversation) : List (WorkflowTask Payload Response) :=
  tasks.filter fun task =>
    task.conversationId == conversation.id && task.workflowId == call.workflowId && taskAuthorized call.auth task

/-- `sync_workflow_tasks` of the in-memory repository. -/
def syncInMemory (database : Rows Payload Response) (call : SyncCall Payload) :
    Option (SyncResult Payload Response × List (WorkflowTask Payload Response)) :=
  match getConversation database.store call.auth call.conversationId with
  | none => none
  | some conversation =>
    if call.runId.all fun runId => (getRun database.store call.auth runId).any fun run =>
        run.conversationId == conversation.id then
      let start : SyncInMemory Payload Response :=
        ⟨database.tasks,existingRecords database.tasks call conversation,[],[],[],[],0⟩
      let looped := call.taskPayloads.foldl (syncInMemoryStep database.newId call conversation) start
      let resolved := (looped.byTemplate.filter (superseded call looped.requested)).map (completedTask call)
      let byTemplate := resolved.foldl (put (·.taskTemplateId)) looped.byTemplate
      some ({
          records := ordered WorkflowTask.order byTemplate
          created := looped.created
          updated := looped.updated
          resolved
          unchanged := looped.unchanged.filter fun task => !(resolved.map (·.id)).contains task.id },
        resolved.foldl (put (·.id)) looped.tasks)
    else none

/-- The task of the table that an upsert finds. -/
def upsertedTask (database : Rows Payload Response) (call : UpsertCall Payload) (conversation : Conversation) :
    Option (WorkflowTask Payload Response) :=
  database.tasks.find? fun task => task.conversationId == conversation.id && task.workflowId == call.workflowId &&
    task.taskTemplateId == call.taskTemplateId && taskAuthorized call.auth task

/-- The record that an upsert leaves. -/
def upserted (database : Rows Payload Response) (call : UpsertCall Payload) (conversation : Conversation) :
    WorkflowTask Payload Response where
  id := (upsertedTask database call conversation).elim (database.newId 0) (·.id)
  conversationId := conversation.id
  runId := call.runId
  ownerUserId := call.auth.userId
  workspaceId := call.auth.workspaceId
  workflowId := call.workflowId
  taskTemplateId := call.taskTemplateId
  stepId := call.stepId
  kind := call.kind
  status := call.status
  payloadJson := call.payloadJson
  responseJson := (upsertedTask database call conversation).bind (·.responseJson)
  createdAt := (upsertedTask database call conversation).elim call.now (·.createdAt)
  updatedAt := call.now
  resolvedAt := if resolvedStatus call.status then (upsertedTask database call conversation).bind (·.resolvedAt) else none

/-- `upsert_workflow_task` of the in-memory repository. -/
def upsertInMemory (database : Rows Payload Response) (call : UpsertCall Payload) :
    Option (WorkflowTask Payload Response × List (WorkflowTask Payload Response)) :=
  match getConversation database.store call.auth call.conversationId with
  | none => none
  | some conversation =>
    if call.runId.all fun runId => (getRun database.store call.auth runId).isSome then
      let task := upserted database call conversation
      some (task,put (·.id) database.tasks task)
    else none

/-- The variables of the loop over the payloads. `rows` are the objects of the session with their
    columns; `byTemplate`, `created`, `updated` and `unchanged` name objects by their ids. -/
structure SyncInSql (Payload Response : Type) where
  rows : List (WorkflowTask Payload Response)
  byTemplate : List (String × Nat)
  created : List Nat
  updated : List Nat
  unchanged : List Nat
  requested : List String
  given : Nat

def object (rows : List (WorkflowTask Payload Response)) (id : Nat) : Option (WorkflowTask Payload Response) :=
  rows.find? fun row => row.id == id

/-- One turn of the loop over the payloads. -/
def syncInSqlStep (newId : Nat → Nat) (call : SyncCall Payload) (conversation : Conversation)
    (state : SyncInSql Payload Response) (payload : Payload) : SyncInSql Payload Response :=
  match TaskPayload.text payload .taskTemplateId,taskFields payload with
  | some taskTemplateId,some fields =>
    let state := { state with requested := taskTemplateId :: state.requested }
    match (state.byTemplate.lookup taskTemplateId).bind (object state.rows) with
    | none =>
      let task := createdTask call conversation (newId state.given) taskTemplateId fields payload
      { state with
        rows := state.rows ++ [task]
        byTemplate := state.byTemplate ++ [(taskTemplateId,task.id)]
        created := state.created ++ [task.id]
        given := state.given + 1 }
    | some task =>
      if resolvedStatus task.status then { state with unchanged := state.unchanged ++ [task.id] }
      else if workflowTaskPayloadMatches task call.runId payload then
        { state with unchanged := state.unchanged ++ [task.id] }
      else
        { state with
          rows := put (·.id) state.rows (updatedTask call fields payload task)
          updated := state.updated ++ [task.id] }
  | _,_ => state

/-- The rows of the table after the commit. -/
def committed (tasks rows : List (WorkflowTask Payload Response)) : List (WorkflowTask Payload Response) :=
  (tasks.map fun task => (object rows task.id).getD task) ++
    rows.filter fun row => !(tasks.map (·.id)).contains row.id

/-- `sync_workflow_tasks` of the SQL repository. The commit tests the rows that it writes. -/
def syncInSql (database : Database Payload Response) (call : SyncCall Payload) :
    Except DatabaseError (Option (SyncResult Payload Response × List (WorkflowTask Payload Response))) :=
  match authorizedConversation database.store call.auth call.conversationId with
  | none => .ok none
  | some conversation =>
    if call.runId.all fun runId => (authorizedRun database.store call.auth runId).any fun run =>
        run.conversationId == conversation.id then
      let rows := ordered WorkflowTask.order (database.tasks.filter fun task =>
        task.conversationId == conversation.id && task.workflowId == call.workflowId && taskAuthorized call.auth task)
      let start : SyncInSql Payload Response :=
        ⟨rows,rows.map fun row => (row.taskTemplateId,row.id),[],[],[],[],0⟩
      let looped := call.taskPayloads.foldl (syncInSqlStep database.newId call conversation) start
      let resolved := ((looped.byTemplate.filterMap fun entry => object looped.rows entry.2).filter
        (superseded call looped.requested)).map (completedTask call)
      let rows := resolved.foldl (put (·.id)) looped.rows
      let written := looped.created ++ looped.updated ++ resolved.map (·.id)
      if (written.filterMap (object rows)).all fun row =>
          columnsFit database.checksLengths row.workflowId row.taskTemplateId row.fields then
        .ok (some ({
            records := ordered WorkflowTask.order rows
            created := looped.created.filterMap (object rows)
            updated := looped.updated.filterMap (object rows)
            resolved := (resolved.map (·.id)).filterMap (object rows)
            unchanged := (looped.unchanged.filter fun id => !(resolved.map (·.id)).contains id).filterMap (object rows) },
          committed database.tasks rows))
      else .error .integrity
    else .ok none

/-- `upsert_workflow_task` of the SQL repository. -/
def upsertInSql (database : Database Payload Response) (call : UpsertCall Payload) :
    Except DatabaseError (Option (WorkflowTask Payload Response × List (WorkflowTask Payload Response))) :=
  match authorizedConversation database.store call.auth call.conversationId with
  | none => .ok none
  | some conversation =>
    if call.runId.all fun runId => (authorizedRun database.store call.auth runId).any fun run =>
        run.conversationId == conversation.id then
      let task : WorkflowTask Payload Response :=
        match database.tasks.find? fun task => task.conversationId == conversation.id &&
            task.workflowId == call.workflowId && task.taskTemplateId == call.taskTemplateId &&
              taskAuthorized call.auth task with
        | none => {
          id := database.newId 0
          conversationId := conversation.id
          runId := call.runId
          ownerUserId := call.auth.userId
          workspaceId := call.auth.workspaceId
          workflowId := call.workflowId
          taskTemplateId := call.taskTemplateId
          stepId := call.stepId
          kind := call.kind
          status := call.status
          payloadJson := call.payloadJson
          responseJson := none
          createdAt := call.now
          updatedAt := call.now
          resolvedAt := none }
        | some task =>
          { task with
            runId := call.runId
            stepId := call.stepId
            kind := call.kind
            status := call.status
            payloadJson := call.payloadJson
            updatedAt := call.now
            resolvedAt := if resolvedStatus call.status then task.resolvedAt else none }
      if columnsFit database.checksLengths task.workflowId task.taskTemplateId task.fields then
        .ok (some (task,put (·.id) database.tasks task))
      else .error .integrity
    else .ok none

end

end Codebot.WorkflowTasks
