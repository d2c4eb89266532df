import Codebot.WorkflowInputs
import Codebot.Runs

/-!
Requests that answer workflow tasks, at the same time. They read a task, check the answer against what they read and
write the status and the response without another look; after a partial response the prompt is refreshed and the task
is upserted as it was (`resolved_kept_iff`).
-/
namespace Codebot.WorkflowResponses
open Runs List Series Texts Snapshots WorkflowTasks WorkflowInputs

def getWorkflowTask (tasks : List Task) (auth : AuthContext) (taskId : Nat) : Option Task :=
  (tasks.find? fun task => task.id == taskId).filter (taskAuthorized auth)
/-- The record that `resolve_workflow_task` leaves. -/
def resolvedTask (status : String) (response : Option Response) (now : Nat) (task : Task) : Task :=
  { task with
    status
    responseJson := response.or task.responseJson
    updatedAt := now
    resolvedAt := if resolvedStatus status then some now else none }
def resolveWorkflowTask (tasks : List Task) (auth : AuthContext) (taskId : Nat) (status : String)
    (response : Option Response) (now : Nat) : Option (Task × List Task) :=
  (getWorkflowTask tasks auth taskId).map fun task =>
    (resolvedTask status response now task,put (·.id) tasks (resolvedTask status response now task))
/-- The arguments of `submit_workflow_task_response` and of `submit_workflow_task_action`. -/
inductive Request
  | response (auth : AuthContext) (taskId : Nat) (values : Values) (actionId : Option String) (status : RequestedStatus)
  | action (auth : AuthContext) (taskId : Nat) (actionId : String) (payload : Option (Values × RequestedStatus))
deriving DecidableEq
def Request.auth : Request → AuthContext
  | .response auth .. => auth
  | .action auth .. => auth
def Request.taskId : Request → Nat
  | .response _ taskId .. => taskId
  | .action _ taskId .. => taskId
def Request.refreshes : Request → Bool
  | .response .. => true
  | .action .. => false

section
variable (unicode : Unicode) (registry : Registry)

/-- The response and the status that a request writes for the task that it read. -/
def Request.validated (task : Task) : Request → Except String (Response × String)
  | .response _ _ values actionId status => do
    let response ← validateWorkflowTaskResponse unicode registry task values actionId true
    return (response,workflowTaskResponseStatus unicode registry task response status)
  | .action _ _ actionId payload => do
    let (values,status) := payload.getD (∅,.approved)
    let response ← validateWorkflowTaskResponse unicode registry task values (some actionId) false
    return (response,status.text)

end

/-- Where a request stands. `read` has read the task and not written yet. `refreshing` waits for the
    new prompt of the record that it wrote. -/
inductive Phase
  | idle
  | read (request : Request) (task : Task)
  | refreshing (auth : AuthContext) (task : Task)
/-- The tables, whose ids are below `nextId`, and the requests. -/
structure World (requests : Nat) where
  store : Store
  tasks : List Task
  nextId : Nat
  phases : Fin requests → Phase
/-- A stored dict has one task under an id. -/
structure Stored where
  store : Store
  tasks : List Task
  taskIds : (tasks.map (·.id)).Nodup
def initial (requests : Nat) (stored : Stored) : World requests where
  store := stored.store
  tasks := stored.tasks
  nextId := (stored.tasks.map (·.id)).foldr max 0 + 1
  phases _ := .idle

variable {requests : Nat}
def World.rows (world : World requests) : Rows Payload Response where
  store := world.store
  tasks := world.tasks
  newId n := world.nextId + n
def World.setPhase (world : World requests) (r : Fin requests) (phase : Phase) : World requests :=
  { world with phases := Function.update world.phases r phase }
theorem setPhase_self (world : World requests) (r : Fin requests) (phase : Phase) :
    (world.setPhase r phase).phases r = phase := Function.update_self ..
theorem setPhase_other (world : World requests) {r other : Fin requests} (differs : other ≠ r) (phase : Phase) :
    (world.setPhase r phase).phases other = world.phases other := Function.update_of_ne differs ..
inductive Label (requests : Nat)
  | arrive (r : Fin requests) (request : Request)
  | write (r : Fin requests) (now : Nat)
  | refresh (r : Fin requests) (payload : Payload) (now : Nat)
  | sync (call : SyncCall Payload)

/-- The arguments of the upsert that ends a refresh. -/
def refreshCall (auth : AuthContext) (task : Task) (payload : Payload) (now : Nat) : UpsertCall Payload where
  auth
  conversationId := task.conversationId
  workflowId := task.workflowId
  taskTemplateId := task.taskTemplateId
  stepId := task.stepId
  kind := task.kind
  status := task.status
  payloadJson := payload
  runId := task.runId
  now

/-- The phase of a request after its write. -/
def afterWrite (request : Request) (updated : Task) : Phase :=
  if request.refreshes && !resolvedStatus updated.status && updated.taskTemplateId == "collect_strategy_inputs" then
    .refreshing request.auth updated
  else .idle

section
variable (unicode : Unicode) (registry : Registry)

/-- One call of the repository. The model that generates a prompt may give any payload. -/
def step (world : World requests) : Label requests → Option (World requests)
  | .arrive r request =>
    match world.phases r,getWorkflowTask world.tasks request.auth request.taskId with
    | .idle,some task =>
      match request.validated unicode registry task with
      | .ok _ => some (world.setPhase r (.read request task))
      | .error _ => some world
    | .idle,none => some world
    | _,_ => none
  | .write r now =>
    match world.phases r with
    | .read request task =>
      match request.validated unicode registry task with
      | .ok (response,status) =>
        match resolveWorkflowTask world.tasks request.auth request.taskId status (some response) now with
        | some (updated,tasks) => some ({ world with tasks }.setPhase r (afterWrite request updated))
        | none => some (world.setPhase r .idle)
      | .error _ => some (world.setPhase r .idle)
    | _ => none
  | .refresh r payload now =>
    match world.phases r with
    | .refreshing auth task =>
      if payload = task.payloadJson then some (world.setPhase r .idle)
      else
        match upsertInMemory world.rows (refreshCall auth task payload now) with
        | some (_,tasks) => some ({ world with tasks, nextId := world.nextId + 1 }.setPhase r .idle)
        | none => some (world.setPhase r .idle)
    | _ => none
  | .sync call =>
    match syncInMemory world.rows call with
    | some (_,tasks) => some { world with tasks, nextId := world.nextId + call.taskPayloads.length }
    | none => some world

/-- Every task that is resolved in the first state has its status and its response in the second. -/
def Stays (world next : World requests) : Prop :=
  ∀ task ∈ world.tasks, resolvedStatus task.status = true → ∃ after ∈ next.tasks,
    after.id = task.id ∧ after.status = task.status ∧ after.responseJson = task.responseJson
/-- The task that an upsert replaces. -/
def replaced (rows : Rows Payload Response) (call : UpsertCall Payload) : Option Task :=
  match getConversation rows.store call.auth call.conversationId with
  | none => none
  | some conversation =>
    if call.runId.all fun runId => (getRun rows.store call.auth runId).isSome then upsertedTask rows call conversation
    else none

/-- A write meets an open task, or it writes the status and the response that the task has; a
    refresh that changes the payload meets an open task. -/
def Spares (world : World requests) : Label requests → Prop
  | .write r _ => ∀ request task response status, world.phases r = .read request task →
    request.validated unicode registry task = .ok (response,status) →
    ∀ stored, getWorkflowTask world.tasks request.auth request.taskId = some stored → resolvedStatus stored.status = true →
      stored.status = status ∧ stored.responseJson = some response
  | .refresh r payload now => ∀ auth task, world.phases r = .refreshing auth task → payload ≠ task.payloadJson →
    ∀ stored, replaced world.rows (refreshCall auth task payload now) = some stored → resolvedStatus stored.status = false
  | _ => True

end

/-- What the loop over the payloads keeps: the tasks by template are stored, and a resolved task
    stays as it is. -/
structure Kept (tasks : List Task) (nextId : Nat) (state : SyncInMemory Payload Response) : Prop where
  ids : (state.tasks.map (·.id)).Nodup
  below : ∀ task ∈ state.tasks, task.id < nextId + state.given
  listed : ∀ task ∈ state.byTemplate, task ∈ state.tasks
  stays : ∀ task ∈ tasks, resolvedStatus task.status = true → task ∈ state.tasks

section
variable {tasks : List Task} {nextId : Nat} {call : SyncCall Payload} {conversation : Conversation}
  {state : SyncInMemory Payload Response}

theorem Kept.create (kept : Kept tasks nextId state) {task : Task} (isNew : task.id = nextId + state.given) :
    Kept tasks nextId { state with
      tasks := put (·.id) state.tasks task
      byTemplate := put (·.taskTemplateId) state.byTemplate task
      created := state.created ++ [task]
      given := state.given + 1 } := by
  have differs : ∀ other ∈ state.tasks, other.id ≠ task.id := by
    intro other isOther
    have below := kept.below other isOther
    omega
  refine ⟨nodup_put kept.ids task,?_,?_,?_⟩
  · intro other isOther
    rcases mem_put_iff.mp isOther with rfl | ⟨isOther,_⟩
    · simp [isNew,← Nat.add_assoc]
    · have below := kept.below other isOther
      simp only
      omega
  · intro other isOther
    rcases mem_put_iff.mp isOther with rfl | ⟨isOther,_⟩
    · exact mem_put_iff.mpr (.inl rfl)
    · exact mem_put_iff.mpr (.inr ⟨kept.listed other isOther,differs other (kept.listed other isOther)⟩)
  · intro other isOther isResolved
    have stored := kept.stays other isOther isResolved
    exact mem_put_iff.mpr (.inr ⟨stored,differs other stored⟩)

theorem Kept.replace (kept : Kept tasks nextId state) {existing task : Task} (listed : existing ∈ state.byTemplate)
    (isOpen : resolvedStatus existing.status = false) (id : task.id = existing.id)
    (template : task.taskTemplateId = existing.taskTemplateId) :
    Kept tasks nextId { state with
      tasks := put (·.id) state.tasks task
      byTemplate := put (·.taskTemplateId) state.byTemplate task
      updated := state.updated ++ [task] } := by
  have stored := kept.listed existing listed
  refine ⟨nodup_put kept.ids task,?_,?_,?_⟩
  · intro other isOther
    rcases mem_put_iff.mp isOther with rfl | ⟨isOther,_⟩
    · rw [id]
      exact kept.below existing stored
    · exact kept.below other isOther
  · intro other isOther
    rcases mem_put_iff.mp isOther with rfl | ⟨isOther,differs⟩
    · exact mem_put_iff.mpr (.inl rfl)
    · refine mem_put_iff.mpr (.inr ⟨kept.listed other isOther,?_⟩)
      intro same
      rw [inj_on_of_nodup_map kept.ids (kept.listed other isOther) stored (same.trans id)] at differs
      exact differs template.symm
  · intro other isOther isResolved
    have isStored := kept.stays other isOther isResolved
    refine mem_put_iff.mpr (.inr ⟨isStored,?_⟩)
    intro same
    rw [inj_on_of_nodup_map kept.ids isStored stored (same.trans id),isOpen] at isResolved
    cases isResolved

theorem kept_step (kept : Kept tasks nextId state) (payload : Payload) :
    Kept tasks nextId (syncInMemoryStep (fun n => nextId + n) call conversation state payload) ∧
      (syncInMemoryStep (fun n => nextId + n) call conversation state payload).given ≤ state.given + 1 := by
  have unchanged : ∀ {state' : SyncInMemory Payload Response}, state'.tasks = state.tasks →
      state'.byTemplate = state.byTemplate → state'.given = state.given →
        Kept tasks nextId state' ∧ state'.given ≤ state.given + 1 := by
    intro state' sameTasks sameTemplates sameGiven
    refine ⟨⟨?_,?_,?_,?_⟩,by omega⟩
    · rw [sameTasks]
      exact kept.ids
    · rw [sameTasks,sameGiven]
      exact kept.below
    · rw [sameTasks,sameTemplates]
      exact kept.listed
    · rw [sameTasks]
      exact kept.stays
  unfold syncInMemoryStep
  cases TaskPayload.text payload .taskTemplateId with
  | none => exact unchanged rfl rfl rfl
  | some taskTemplateId =>
    have requesting : Kept tasks nextId { state with requested := taskTemplateId :: state.requested } :=
      ⟨kept.ids,kept.below,kept.listed,kept.stays⟩
    cases existing : under state.byTemplate taskTemplateId with
    | none =>
      simp only [existing,Option.filter_none]
      cases taskFields payload with
      | none => exact unchanged rfl rfl rfl
      | some fields => exact ⟨requesting.create rfl,le_rfl⟩
    | some task =>
      simp only [existing]
      cases isResolved : resolvedStatus task.status with
      | true =>
        simp only [Option.filter_some,isResolved,if_true]
        exact unchanged rfl rfl rfl
      | false =>
        simp only [Option.filter_some,isResolved,Bool.false_eq_true,if_false]
        cases taskFields payload with
        | none => exact unchanged rfl rfl rfl
        | some fields =>
          by_cases matched : workflowTaskPayloadMatches task call.runId payload
          · simp only [matched,if_true]
            exact unchanged rfl rfl rfl
          · simp only [matched,Bool.false_eq_true,if_false]
            exact ⟨requesting.replace (mem_of_find?_eq_some existing) isResolved rfl rfl,Nat.le_succ _⟩

theorem kept_loop (kept : Kept tasks nextId state) (payloads : List Payload) :
    Kept tasks nextId (payloads.foldl (syncInMemoryStep (fun n => nextId + n) call conversation) state) ∧
      (payloads.foldl (syncInMemoryStep (fun n => nextId + n) call conversation) state).given ≤ state.given + payloads.length := by
  induction payloads generalizing state with
  | nil => exact ⟨kept,le_rfl⟩
  | cons payload rest ih =>
    obtain ⟨here,given⟩ := @kept_step _ _ call conversation _ kept payload
    obtain ⟨later,more⟩ := ih here
    refine ⟨later,?_⟩
    rw [length_cons]
    exact more.trans (by omega)

end

theorem sync_tasks {rows : Rows Payload Response} {nextId : Nat} (newId : rows.newId = fun n => nextId + n)
    (ids : (rows.tasks.map (·.id)).Nodup) (below : ∀ task ∈ rows.tasks, task.id < nextId) {call : SyncCall Payload}
    {result : SyncResult Payload Response} {tasks : List Task} (synced : syncInMemory rows call = some (result,tasks)) :
    (tasks.map (·.id)).Nodup ∧ (∀ task ∈ tasks, task.id < nextId + call.taskPayloads.length) ∧
      ∀ task ∈ rows.tasks, resolvedStatus task.status = true → task ∈ tasks := by
  unfold syncInMemory at synced
  cases found : getConversation rows.store call.auth call.conversationId with
  | none => simp [found] at synced
  | some conversation =>
    simp only [found,newId] at synced
    split at synced
    · have start : Kept rows.tasks nextId ⟨rows.tasks,existingRecords rows.tasks call conversation,[],[],[],[],0⟩ :=
        ⟨ids,below,fun task listed => mem_of_mem_filter listed,fun task stored _ => stored⟩
      obtain ⟨kept,given⟩ := @kept_loop _ _ call conversation _ start call.taskPayloads
      generalize call.taskPayloads.foldl (syncInMemoryStep (fun n => nextId + n) call conversation)
        ⟨rows.tasks,existingRecords rows.tasks call conversation,[],[],[],[],0⟩ = looped at kept given synced
      simp only [Option.some.injEq,Prod.mk.injEq] at synced
      obtain ⟨_,rfl⟩ := synced
      have completed : ∀ task ∈ (looped.byTemplate.filter (superseded call looped.requested)).map (completedTask call),
          ∃ row ∈ looped.tasks, resolvedStatus row.status = false ∧ task.id = row.id := by
        intro task isCompleted
        obtain ⟨row,isRow,rfl⟩ := mem_map.mp isCompleted
        obtain ⟨listed,chosen⟩ := mem_filter.mp isRow
        simp only [superseded,Bool.and_eq_true,Bool.not_eq_true'] at chosen
        exact ⟨row,kept.listed row listed,chosen.2,rfl⟩
      refine ⟨nodup_foldl_put kept.ids _,?_,?_⟩
      · intro task listed
        have bound : looped.given ≤ call.taskPayloads.length := by simpa using given
        rcases of_mem_foldl_put listed with isOld | isNew
        · have before := kept.below task isOld
          omega
        · obtain ⟨row,isRow,_,id⟩ := completed task isNew
          have before := kept.below row isRow
          omega
      · intro task stored isResolved
        have isTask := kept.stays task stored isResolved
        refine mem_foldl_put isTask ?_
        intro other isCompleted same
        obtain ⟨row,isRow,isOpen,id⟩ := completed other isCompleted
        rw [inj_on_of_nodup_map kept.ids isRow isTask (id.symm.trans same),isResolved] at isOpen
        cases isOpen
    · cases synced

theorem getWorkflowTask_some {tasks : List Task} {auth : AuthContext} {taskId : Nat} {task : Task}
    (found : getWorkflowTask tasks auth taskId = some task) : task ∈ tasks ∧ task.id = taskId := by
  obtain ⟨isIt,_⟩ := Option.filter_eq_some_iff.mp found
  exact ⟨mem_of_find?_eq_some isIt,by simpa using find?_some isIt⟩

theorem getWorkflowTask_put {tasks : List Task} {auth : AuthContext} {taskId : Nat} {stored updated : Task}
    (found : getWorkflowTask tasks auth taskId = some stored) (id : updated.id = stored.id)
    (isAuthorized : taskAuthorized auth updated = taskAuthorized auth stored) :
    getWorkflowTask (put (·.id) tasks updated) auth taskId = some updated := by
  have storedId := (getWorkflowTask_some found).2
  have allowed := (Option.filter_eq_some_iff.mp found).2
  have search : (put (·.id) tasks updated).find? (fun task => task.id == taskId) = some updated := by
    apply find_put_same
    intro other
    simp [id,storedId]
  rw [getWorkflowTask]
  exact Option.filter_eq_some_iff.mpr ⟨search,isAuthorized.trans allowed⟩

theorem upsert_tasks {rows : Rows Payload Response} {call : UpsertCall Payload} {updated : Task} {tasks : List Task}
    (ran : upsertInMemory rows call = some (updated,tasks)) :
    tasks = put (·.id) rows.tasks updated ∧ updated.status = call.status ∧
      (replaced rows call = none → updated.id = rows.newId 0) ∧
      ∀ stored, replaced rows call = some stored →
        stored ∈ rows.tasks ∧ updated.id = stored.id ∧ updated.responseJson = stored.responseJson := by
  unfold upsertInMemory at ran
  unfold replaced
  cases found : getConversation rows.store call.auth call.conversationId with
  | none =>
    rw [found] at ran
    cases ran
  | some conversation =>
    simp only [found] at ran ⊢
    by_cases known : (call.runId.all fun runId => (getRun rows.store call.auth runId).isSome) = true
    · rw [if_pos known] at ran ⊢
      cases ran
      refine ⟨rfl,rfl,?_,?_⟩
      · intro missed
        simp [upserted,missed]
      · intro stored isStored
        rw [upserted,isStored]
        exact ⟨mem_of_find?_eq_some isStored,rfl,rfl⟩
    · rw [if_neg known] at ran
      cases ran

theorem not_upserted {rows : Rows Payload Response} {call : UpsertCall Payload} (refused : upsertInMemory rows call = none) :
    replaced rows call = none := by
  unfold upsertInMemory at refused
  unfold replaced
  cases found : getConversation rows.store call.auth call.conversationId with
  | none => rfl
  | some conversation =>
    simp only [found] at refused ⊢
    by_cases known : (call.runId.all fun runId => (getRun rows.store call.auth runId).isSome) = true
    · rw [if_pos known] at refused
      cases refused
    · rw [if_neg known]

/-- The ids are apart and have been given, and a refresh waits with an open task. -/
structure Sound (world : World requests) : Prop where
  ids : (world.tasks.map (·.id)).Nodup
  below : ∀ task ∈ world.tasks, task.id < world.nextId
  isOpen : ∀ r auth task, world.phases r = .refreshing auth task → resolvedStatus task.status = false

theorem sound_initial (stored : Stored) : Sound (initial requests stored) := by
  have bounded : ∀ tasks : List Task, ∀ task ∈ tasks, task.id ≤ (tasks.map (·.id)).foldr max 0 := by
    intro tasks
    induction tasks with
    | nil => simp
    | cons first rest ih =>
      intro task listed
      rw [map_cons,foldr_cons]
      rcases mem_cons.mp listed with rfl | later
      · exact le_max_left _ _
      · exact (ih task later).trans (le_max_right _ _)
  refine ⟨stored.taskIds,?_,?_⟩
  · intro task listed
    exact Nat.lt_succ_of_le (bounded stored.tasks task listed)
  · intro r auth task refreshing
    cases refreshing

section
variable {world : World requests}

theorem Sound.setPhase (sound : Sound world) {r : Fin requests} {phase : Phase}
    (isOpen : ∀ auth task, phase = .refreshing auth task → resolvedStatus task.status = false) :
    Sound (world.setPhase r phase) := by
  refine ⟨sound.ids,sound.below,?_⟩
  intro other auth task refreshing
  by_cases same : other = r
  · subst same
    rw [setPhase_self] at refreshing
    exact isOpen auth task refreshing
  · rw [setPhase_other world same] at refreshing
    exact sound.isOpen other auth task refreshing

theorem Sound.put (sound : Sound world) {task : Task} {nextId : Nat} (grows : world.nextId ≤ nextId)
    (below : task.id < nextId) : Sound { world with tasks := put (·.id) world.tasks task, nextId } := by
  refine ⟨nodup_put sound.ids task,?_,sound.isOpen⟩
  intro other listed
  rcases mem_put_iff.mp listed with rfl | ⟨isOld,_⟩
  · exact below
  · exact (sound.below other isOld).trans_le grows

theorem afterWrite_open {request : Request} {updated : Task} {auth : AuthContext} {task : Task}
    (refreshing : afterWrite request updated = .refreshing auth task) : resolvedStatus task.status = false := by
  unfold afterWrite at refreshing
  split at refreshing
  · rename_i isOpen
    cases refreshing
    simp only [Bool.and_eq_true,Bool.not_eq_true'] at isOpen
    exact isOpen.1.2
  · cases refreshing

end

section
variable {unicode : Unicode} {registry : Registry} {world next : World requests}

theorem sound_step (sound : Sound world) {label : Label requests} (stepped : step unicode registry world label = some next) :
    Sound next := by
  have idle : ∀ auth task, Phase.idle = .refreshing auth task → resolvedStatus task.status = false := by
    intro auth task refreshing
    cases refreshing
  cases label with
  | arrive r request =>
    simp only [step] at stepped
    split at stepped
    · split at stepped
      · cases stepped
        apply sound.setPhase
        intro auth task refreshing
        cases refreshing
      · cases stepped
        exact sound
    · cases stepped
      exact sound
    · cases stepped
  | write r now =>
    simp only [step] at stepped
    split at stepped
    · rename_i request task isRead
      split at stepped
      · rename_i response status validated
        cases found : getWorkflowTask world.tasks request.auth request.taskId with
        | none =>
          simp only [resolveWorkflowTask,found,Option.map_none,Option.some.injEq] at stepped
          subst stepped
          exact sound.setPhase idle
        | some stored =>
          simp only [resolveWorkflowTask,found,Option.map_some,Option.some.injEq] at stepped
          subst stepped
          have below : (resolvedTask status (some response) now stored).id < world.nextId :=
            sound.below stored (getWorkflowTask_some found).1
          exact (sound.put le_rfl below).setPhase fun auth task => afterWrite_open
      · cases stepped
        exact sound.setPhase idle
    · cases stepped
  | refresh r payload now =>
    simp only [step] at stepped
    split at stepped
    · rename_i auth task isRefreshing
      split at stepped
      · cases stepped
        exact sound.setPhase idle
      · split at stepped
        · rename_i updated tasks upserted
          cases stepped
          obtain ⟨rfl,_,isNew,isOld⟩ := upsert_tasks upserted
          refine (sound.put (Nat.le_succ _) ?_).setPhase idle
          cases found : replaced world.rows (refreshCall auth task payload now) with
          | none =>
            rw [isNew found]
            exact Nat.lt_succ_self _
          | some stored =>
            obtain ⟨isStored,id,_⟩ := isOld stored found
            rw [id]
            exact Nat.lt_succ_of_lt (sound.below stored isStored)
        · cases stepped
          exact sound.setPhase idle
    · cases stepped
  | sync call =>
    simp only [step] at stepped
    split at stepped
    · rename_i result tasks synced
      cases stepped
      obtain ⟨ids,below,_⟩ := @sync_tasks world.rows world.nextId rfl sound.ids sound.below _ _ _ synced
      exact ⟨ids,below,sound.isOpen⟩
    · cases stepped
      exact sound

theorem stays_of_tasks (same : next.tasks = world.tasks) : Stays world next := by
  intro task listed _
  exact ⟨task,same ▸ listed,rfl,rfl,rfl⟩

theorem stays_put_iff (ids : (world.tasks.map (·.id)).Nodup) {stored updated : Task} (isStored : stored ∈ world.tasks)
    (id : updated.id = stored.id) (tasks : next.tasks = put (·.id) world.tasks updated) : Stays world next ↔
      (resolvedStatus stored.status = true → updated.status = stored.status ∧ updated.responseJson = stored.responseJson) := by
  constructor
  · intro stays isResolved
    obtain ⟨after,listed,sameId,status,response⟩ := stays stored isStored isResolved
    rw [tasks] at listed
    rcases mem_put_iff.mp listed with rfl | ⟨_,differs⟩
    · exact ⟨status,response⟩
    · exact absurd (sameId.trans id.symm) differs
  · intro alike task listed isResolved
    by_cases same : task.id = stored.id
    · have isIt := inj_on_of_nodup_map ids listed isStored same
      subst isIt
      obtain ⟨status,response⟩ := alike isResolved
      exact ⟨updated,tasks ▸ mem_put_iff.mpr (.inl rfl),id,status,response⟩
    · refine ⟨task,?_,rfl,rfl,rfl⟩
      rw [tasks]
      exact mem_put_iff.mpr (.inr ⟨listed,fun eq => same (eq.trans id)⟩)

theorem stays_put_new (sound : Sound world) {updated : Task} (id : updated.id = world.nextId)
    (tasks : next.tasks = put (·.id) world.tasks updated) : Stays world next := by
  intro task listed _
  refine ⟨task,?_,rfl,rfl,rfl⟩
  rw [tasks]
  have below := sound.below task listed
  exact mem_put_iff.mpr (.inr ⟨listed,by omega⟩)

theorem stays_write_iff (sound : Sound world) (r : Fin requests) (now : Nat) :
    (∀ next, step unicode registry world (.write r now) = some next → Stays world next) ↔
      Spares unicode registry world (.write r now) := by
  simp only [Spares,step]
  cases isRead : world.phases r with
  | idle => simp
  | refreshing auth task => simp
  | read request task =>
    cases validated : request.validated unicode registry task with
    | error message =>
      simp only [validated]
      refine iff_of_true ?_ ?_
      · rintro next ⟨⟩
        exact stays_of_tasks rfl
      · rintro _ _ _ _ ⟨rfl,rfl⟩ isValid
        rw [validated] at isValid
        cases isValid
    | ok written =>
      obtain ⟨response,status⟩ := written
      cases found : getWorkflowTask world.tasks request.auth request.taskId with
      | none =>
        simp only [validated,resolveWorkflowTask,found,Option.map_none]
        refine iff_of_true ?_ ?_
        · rintro next ⟨⟩
          exact stays_of_tasks rfl
        · rintro _ _ _ _ ⟨rfl,rfl⟩ _ stored isStored
          rw [found] at isStored
          cases isStored
      | some stored =>
        simp only [validated,resolveWorkflowTask,found,Option.map_some,Option.some.injEq,forall_eq']
        have isStored := (getWorkflowTask_some found).1
        have id : (resolvedTask status (some response) now stored).id = stored.id := rfl
        rw [stays_put_iff sound.ids isStored id rfl]
        constructor
        · rintro alike _ _ _ _ ⟨rfl,rfl⟩ isValid _ isIt isResolved
          rw [validated] at isValid
          cases isValid
          cases found.symm.trans isIt
          obtain ⟨sameStatus,sameResponse⟩ := alike isResolved
          exact ⟨sameStatus.symm,sameResponse.symm⟩
        · intro spares isResolved
          obtain ⟨sameStatus,sameResponse⟩ := spares request task response status rfl validated stored found isResolved
          exact ⟨sameStatus.symm,sameResponse.symm⟩

theorem stays_refresh_iff (sound : Sound world) (r : Fin requests) (payload : Payload) (now : Nat) :
    (∀ next, step unicode registry world (.refresh r payload now) = some next → Stays world next) ↔
      Spares unicode registry world (.refresh r payload now) := by
  simp only [Spares,step]
  cases isRefreshing : world.phases r with
  | idle => simp
  | read request task => simp
  | refreshing auth task =>
    by_cases unchanged : payload = task.payloadJson
    · simp only [unchanged,if_true]
      refine iff_of_true ?_ ?_
      · rintro next ⟨⟩
        exact stays_of_tasks rfl
      · rintro _ _ ⟨rfl,rfl⟩ changed
        exact absurd rfl changed
    · simp only [unchanged,if_false]
      cases ran : upsertInMemory world.rows (refreshCall auth task payload now) with
      | none =>
        have missed := not_upserted ran
        refine iff_of_true ?_ ?_
        · rintro next ⟨⟩
          exact stays_of_tasks rfl
        · rintro _ _ ⟨rfl,rfl⟩ _ stored isStored
          rw [missed] at isStored
          cases isStored
      | some written =>
        obtain ⟨updated,tasks⟩ := written
        obtain ⟨rfl,status,isNew,isOld⟩ := upsert_tasks ran
        simp only [Option.some.injEq,forall_eq']
        cases found : replaced world.rows (refreshCall auth task payload now) with
        | none =>
          refine iff_of_true (stays_put_new sound (isNew found) rfl) ?_
          rintro _ _ ⟨rfl,rfl⟩ _ stored isStored
          rw [found] at isStored
          cases isStored
        | some stored =>
          obtain ⟨isStored,id,response⟩ := isOld stored found
          have isOpen := sound.isOpen r auth task isRefreshing
          rw [stays_put_iff sound.ids isStored id rfl]
          constructor
          · rintro alike _ _ ⟨rfl,rfl⟩ _ _ isIt
            cases found.symm.trans isIt
            rw [← Bool.not_eq_true]
            intro isResolved
            rw [← (alike isResolved).1,status] at isResolved
            exact absurd isResolved (by simpa [refreshCall] using isOpen)
          · intro spares isResolved
            rw [spares auth task rfl unchanged stored found] at isResolved
            cases isResolved

theorem stays_iff (sound : Sound world) (label : Label requests) :
    (∀ next, step unicode registry world label = some next → Stays world next) ↔ Spares unicode registry world label := by
  cases label with
  | arrive r request =>
    refine iff_of_true ?_ trivial
    intro next stepped
    apply stays_of_tasks
    simp only [step] at stepped
    split at stepped
    · split at stepped
      · cases stepped
        rfl
      · cases stepped
        rfl
    · cases stepped
      rfl
    · cases stepped
  | write r now => exact stays_write_iff sound r now
  | refresh r payload now => exact stays_refresh_iff sound r payload now
  | sync call =>
    refine iff_of_true ?_ trivial
    intro next stepped
    simp only [step] at stepped
    split at stepped
    · rename_i result tasks synced
      cases stepped
      intro task listed isResolved
      obtain ⟨_,_,stays⟩ := @sync_tasks world.rows world.nextId rfl sound.ids sound.below _ _ _ synced
      exact ⟨task,stays task listed isResolved,rfl,rfl,rfl⟩
    · cases stepped
      exact stays_of_tasks rfl

end

theorem stays_trans {first second third : World requests} (before : Stays first second) (after : Stays second third) :
    Stays first third := by
  intro task listed isResolved
  obtain ⟨mid,isMid,id,status,response⟩ := before task listed isResolved
  obtain ⟨last,isLast,lastId,lastStatus,lastResponse⟩ := after mid isMid (by rw [status]; exact isResolved)
  exact ⟨last,isLast,lastId.trans id,lastStatus.trans status,lastResponse.trans response⟩

/-- Resolved tasks stay as they were resolved between any two states of exactly the runs whose
    writes spare them. -/
theorem resolved_kept_iff (unicode : Unicode) (registry : Registry) (stored : Stored) (labels : List (Label requests)) :
    (∀ before middle after mid last, labels = before ++ middle ++ after →
        run (step unicode registry) (initial requests stored) before = some mid →
        run (step unicode registry) mid middle = some last → Stays mid last) ↔
      Meets (step unicode registry) (Spares unicode registry) (initial requests stored) labels := by
  rw [relates_iff (fun _ => stays_of_tasks rfl) stays_trans]
  exact meets_iff (fun _ _ _ sound _ stepped => sound_step sound stepped) (fun _ label sound => stays_iff sound label)
    (sound_initial stored)

/-- A conversation with one run, which asks for the step after the strategy spec. -/
def reviewedSpec : Stored where
  store := bareStore [⟨1,1,1,none,2,2,false⟩] [⟨3,1,1,1,"completed",2,5,none,none,none,none⟩]
    (List.nodup_singleton _) (List.nodup_singleton _)
  tasks := [{
    id := 7
    conversationId := 1
    runId := some 3
    ownerUserId := 1
    workspaceId := 1
    workflowId := "strategy_bot_simulation"
    taskTemplateId := "review_strategy_spec_next_step"
    stepId := "generate_pine"
    kind := "choice_request"
    status := "pending_user"
    payloadJson := {
      taskTemplateId := some "review_strategy_spec_next_step"
      status := some "pending_user"
      stepId := some "generate_pine"
      kind := some "choice_request"
      inputRequestIds := ["next_after_strategy_spec"]
      actionIds := []
      inputRequests := []
      actions := []
      values := ∅
      rest := "" }
    responseJson := none
    createdAt := 4
    updatedAt := 4
    resolvedAt := none }]
  taskIds := List.nodup_singleton _

/-- The first request answers nothing, the second one everything. Both read before they write. -/
def untilAnswered (first second : Fin requests) : List (Label requests) :=
  [.arrive first (.response ⟨1,1⟩ 7 ∅ none .completed),
    .arrive second (.response ⟨1,1⟩ 7 (Finmap.singleton "next_after_strategy_spec" (.text (text "generate_pine"))) none
      .completed),
    .write second 5]

/-- The write of the first request opens the task that the second one has completed. -/
theorem completed_task_reopened : ¬ ∀ (requests : Nat) (unicode : Unicode) (registry : Registry) (stored : Stored)
    (before middle : List (Label requests)) (mid last : World requests),
    run (step unicode registry) (initial requests stored) before = some mid →
      run (step unicode registry) mid middle = some last → Stays mid last := by
  intro always
  have first : (run (step ascii workflowDefinitions) (initial 2 reviewedSpec) (untilAnswered 0 1)).map
      (fun world => world.tasks.map (·.status)) = some ["completed"] := by decide
  have second : (run (step ascii workflowDefinitions) (initial 2 reviewedSpec) (untilAnswered 0 1 ++ [Label.write 0 6])).map
      (fun world => world.tasks.map (·.status)) = some ["pending_user"] := by decide
  obtain ⟨mid,reached,completed⟩ := Option.map_eq_some_iff.mp first
  rw [run_append,reached,Option.bind_some] at second
  obtain ⟨last,ran,reopened⟩ := Option.map_eq_some_iff.mp second
  have stays := always 2 ascii workflowDefinitions reviewedSpec _ _ mid last reached ran
  obtain ⟨task,tasks,status⟩ : ∃ task, task ∈ mid.tasks ∧ task.status = "completed" := by
    have listed : "completed" ∈ mid.tasks.map (·.status) := by simp [completed]
    exact mem_map.mp listed
  obtain ⟨after,isAfter,_,kept,_⟩ := stays task tasks (by rw [status]; rfl)
  have isReopened : after.status ∈ last.tasks.map (·.status) := mem_map_of_mem isAfter
  rw [kept,status,reopened] at isReopened
  simp at isReopened

end Codebot.WorkflowResponses
