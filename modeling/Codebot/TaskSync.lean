import Codebot.WorkflowTasks

/-!
The loops over the payloads of `sync_workflow_tasks` in the two repositories. They keep the same
tasks (`Sync`), and what their results show is told by the payloads (`History`). A payload without
a status, a step or a kind is passed over by the SQL repository, but the in-memory repository takes
it for a request of its template.
-/
namespace Codebot.TaskSync
open Series List Snapshots WorkflowTasks

variable {Payload Response : Type}
/-- The payload names the template and has the three fields. -/
def Requests [TaskPayload Payload] (payload : Payload) (taskTemplateId : String) (fields : TaskFields) : Prop :=
  TaskPayload.text payload .taskTemplateId = some taskTemplateId ∧ taskFields payload = some fields
def Malformed [TaskPayload Payload] (payload : Payload) (taskTemplateId : String) : Prop :=
  TaskPayload.text payload .taskTemplateId = some taskTemplateId ∧ taskFields payload = none

section Conditions
variable [DecidableEq Payload] [TaskPayload Payload]
variable (database : Database Payload Response) (call : SyncCall Payload) (conversation : Conversation)

def stored (taskTemplateId : String) : Option (WorkflowTask Payload Response) :=
  under (existingRecords database.tasks call conversation) taskTemplateId
/-- The task of the template is resolved in the table or by one of the payloads. -/
def Resolved (before : List Payload) (taskTemplateId : String) : Prop :=
  (∃ task, stored database call conversation taskTemplateId = some task ∧ resolvedStatus task.status = true) ∨
    ∃ payload ∈ before, ∃ fields, Requests payload taskTemplateId fields ∧ resolvedStatus fields.status = true

end Conditions

section Turns
variable [DecidableEq Payload] [TaskPayload Payload]

/-- What a well formed payload does to the task of its template. -/
inductive Outcome (Payload Response : Type)
  | create
  | keep (existing : WorkflowTask Payload Response)
  | change (existing : WorkflowTask Payload Response)
def outcome (call : SyncCall Payload) (payload : Payload) : Option (WorkflowTask Payload Response) → Outcome Payload Response
  | none => .create
  | some existing =>
    if resolvedStatus existing.status || workflowTaskPayloadMatches existing call.runId payload then .keep existing
    else .change existing

variable {newId : Nat → Nat} {call : SyncCall Payload} {conversation : Conversation}
  {inMemory : SyncInMemory Payload Response} {sql : SyncInSql Payload Response} {payload : Payload}
  {taskTemplateId : String} {fields : TaskFields}

theorem inMemory_requests (requests : Requests payload taskTemplateId fields) :
    syncInMemoryStep newId call conversation inMemory payload =
      match outcome call payload (under inMemory.byTemplate taskTemplateId) with
      | .create => { inMemory with
          requested := taskTemplateId :: inMemory.requested
          tasks := put (·.id) inMemory.tasks (createdTask call conversation (newId inMemory.given) taskTemplateId fields payload)
          byTemplate := put (·.taskTemplateId) inMemory.byTemplate
            (createdTask call conversation (newId inMemory.given) taskTemplateId fields payload)
          created := inMemory.created ++ [createdTask call conversation (newId inMemory.given) taskTemplateId fields payload]
          given := inMemory.given + 1 }
      | .keep existing => { inMemory with
          requested := taskTemplateId :: inMemory.requested, unchanged := inMemory.unchanged ++ [existing] }
      | .change existing => { inMemory with
          requested := taskTemplateId :: inMemory.requested
          tasks := put (·.id) inMemory.tasks (updatedTask call fields payload existing)
          byTemplate := put (·.taskTemplateId) inMemory.byTemplate (updatedTask call fields payload existing)
          updated := inMemory.updated ++ [updatedTask call fields payload existing] } := by
  obtain ⟨names,has⟩ := requests
  unfold syncInMemoryStep
  rw [names]
  simp only [has]
  cases under inMemory.byTemplate taskTemplateId with
  | none => rfl
  | some existing =>
    rw [outcome]
    cases ended : resolvedStatus existing.status with
    | true => simp [Option.filter,ended]
    | false =>
      cases same : workflowTaskPayloadMatches existing call.runId payload with
      | true => simp [Option.filter,ended,same]
      | false => simp [Option.filter,ended,same]

theorem inMemory_malformed (malformed : Malformed payload taskTemplateId) :
    syncInMemoryStep newId call conversation inMemory payload = { inMemory with
      requested := taskTemplateId :: inMemory.requested
      unchanged := inMemory.unchanged ++
        ((under inMemory.byTemplate taskTemplateId).filter (resolvedStatus ·.status)).toList } := by
  obtain ⟨names,lacks⟩ := malformed
  unfold syncInMemoryStep
  rw [names]
  simp only [lacks]
  cases (under inMemory.byTemplate taskTemplateId).filter (resolvedStatus ·.status) with
  | none => simp
  | some existing => rfl

theorem inMemory_nameless (nameless : TaskPayload.text payload .taskTemplateId = none) :
    syncInMemoryStep newId call conversation inMemory payload = inMemory := by
  unfold syncInMemoryStep
  rw [nameless]

theorem sql_requests (requests : Requests payload taskTemplateId fields)
    (looked : (sql.byTemplate.lookup taskTemplateId).bind (object sql.rows) = under sql.rows taskTemplateId) :
    syncInSqlStep newId call conversation sql payload =
      match outcome call payload (under sql.rows taskTemplateId) with
      | .create => { sql with
          requested := taskTemplateId :: sql.requested
          rows := sql.rows ++ [createdTask call conversation (newId sql.given) taskTemplateId fields payload]
          byTemplate := sql.byTemplate ++ [(taskTemplateId,newId sql.given)]
          created := sql.created ++ [newId sql.given]
          given := sql.given + 1 }
      | .keep existing => { sql with
          requested := taskTemplateId :: sql.requested, unchanged := sql.unchanged ++ [existing.id] }
      | .change existing => { sql with
          requested := taskTemplateId :: sql.requested
          rows := put (·.id) sql.rows (updatedTask call fields payload existing)
          updated := sql.updated ++ [existing.id] } := by
  obtain ⟨names,has⟩ := requests
  unfold syncInSqlStep
  rw [names,has]
  simp only [looked]
  cases under sql.rows taskTemplateId with
  | none => rfl
  | some existing =>
    rw [outcome]
    cases ended : resolvedStatus existing.status with
    | true => simp [ended]
    | false =>
      cases same : workflowTaskPayloadMatches existing call.runId payload with
      | true => simp [ended,same]
      | false => simp [ended,same]

theorem sql_malformed (malformed : Malformed payload taskTemplateId) :
    syncInSqlStep newId call conversation sql payload = sql := by
  obtain ⟨names,lacks⟩ := malformed
  unfold syncInSqlStep
  rw [names,lacks]
theorem sql_nameless (nameless : TaskPayload.text payload .taskTemplateId = none) :
    syncInSqlStep newId call conversation sql payload = sql := by
  unfold syncInSqlStep
  rw [nameless]

theorem outcome_some (existing : WorkflowTask Payload Response) :
    (outcome call payload (some existing) = .keep existing ∧
      (resolvedStatus existing.status = true ∨ workflowTaskPayloadMatches existing call.runId payload = true)) ∨
    (outcome call payload (some existing) = .change existing ∧ resolvedStatus existing.status = false ∧
      workflowTaskPayloadMatches existing call.runId payload = false) := by
  rw [outcome]
  cases resolvedStatus existing.status with
  | true => simp
  | false => cases workflowTaskPayloadMatches existing call.runId payload <;> simp

omit [DecidableEq Payload] in
theorem payload_cases (payload : Payload) : TaskPayload.text payload .taskTemplateId = none ∨
    (∃ taskTemplateId, Malformed payload taskTemplateId) ∨ ∃ taskTemplateId fields, Requests payload taskTemplateId fields := by
  cases names : TaskPayload.text payload .taskTemplateId with
  | none => exact .inl rfl
  | some taskTemplateId =>
    cases has : taskFields payload with
    | none => exact .inr (.inl ⟨taskTemplateId,names,has⟩)
    | some fields => exact .inr (.inr ⟨taskTemplateId,fields,names,has⟩)

omit [DecidableEq Payload] in
theorem malformed_unrequested {taskTemplateId : String} (malformed : Malformed payload taskTemplateId) :
    ∀ other fields, ¬ Requests payload other fields := by
  rintro other fields ⟨_,has⟩
  rw [malformed.2] at has
  cases has

omit [DecidableEq Payload] in
theorem nameless_unrequested (nameless : TaskPayload.text payload .taskTemplateId = none) :
    ∀ other fields, ¬ Requests payload other fields := by
  rintro other fields ⟨names,_⟩
  rw [nameless] at names
  cases names

end Turns

section Rows
variable {rows others : List (WorkflowTask Payload Response)} {task row : WorkflowTask Payload Response} {taskTemplateId : String}

/-- The ids and the templates both tell the rows apart. -/
structure Keyed (rows : List (WorkflowTask Payload Response)) : Prop where
  ids : (rows.map (·.id)).Nodup
  templates : (rows.map (·.taskTemplateId)).Nodup
theorem object_iff (keyed : Keyed rows) {id : Nat} : object rows id = some row ↔ row ∈ rows ∧ row.id = id := by
  rw [object,find_iff id keyed.ids (by simp),beq_iff_eq]

theorem under_iff (keyed : Keyed rows) : under rows taskTemplateId = some row ↔ row ∈ rows ∧ row.taskTemplateId = taskTemplateId := by
  constructor
  · intro found
    exact ⟨mem_of_find?_eq_some found,by simpa using find?_some found⟩
  · rintro ⟨listed,rfl⟩
    cases found : under rows row.taskTemplateId with
    | none => exact absurd (find?_eq_none.mp found row listed) (by simp)
    | some other =>
      have same : other.taskTemplateId = row.taskTemplateId := by simpa using find?_some found
      rw [inj_on_of_nodup_map keyed.templates (mem_of_find?_eq_some found) listed same]

theorem under_none : under rows taskTemplateId = none ↔ ∀ row ∈ rows, row.taskTemplateId ≠ taskTemplateId := by
  simp [under]
theorem Keyed.perm (keyed : Keyed rows) (perm : rows.Perm others) : Keyed others :=
  ⟨(perm.map _).nodup_iff.mp keyed.ids,(perm.map _).nodup_iff.mp keyed.templates⟩
theorem under_perm (keyed : Keyed rows) (perm : rows.Perm others) : under others taskTemplateId = under rows taskTemplateId := by
  apply Option.ext
  intro row
  rw [under_iff keyed,under_iff (keyed.perm perm),perm.mem_iff]

theorem lookup_object (keyed : Keyed rows) :
    ((rows.map fun row => (row.taskTemplateId,row.id)).lookup taskTemplateId).bind (object rows) =
      under rows taskTemplateId := by
  have looked : ∀ listed : List (WorkflowTask Payload Response),
      (listed.map fun row => (row.taskTemplateId,row.id)).lookup taskTemplateId =
        (under listed taskTemplateId).map (·.id) := by
    intro listed
    induction listed with
    | nil => rfl
    | cons first rest ih =>
      rw [map_cons,lookup_cons,ih,under,under,find?_cons]
      by_cases same : taskTemplateId = first.taskTemplateId
      · simp [same]
      · have other : first.taskTemplateId ≠ taskTemplateId := fun eq => same eq.symm
        simp [beq_false_of_ne same,beq_false_of_ne other]
  rw [looked]
  cases found : under rows taskTemplateId with
  | none => rfl
  | some row => exact (object_iff keyed).mpr ⟨((under_iff keyed).mp found).1,rfl⟩

theorem Keyed.change (keyed : Keyed rows) (isRow : row ∈ rows) (id : row.id = task.id)
    (template : row.taskTemplateId = task.taskTemplateId) : Keyed (put (·.id) rows task) := by
  constructor
  · rw [times_put (mem_map.mpr ⟨row,isRow,id⟩)]
    exact keyed.ids
  · rw [put_two_keys keyed.ids keyed.templates isRow id template,times_put (mem_map.mpr ⟨row,isRow,template⟩)]
    exact keyed.templates
theorem Keyed.create (keyed : Keyed rows) (newId : ∀ row ∈ rows, row.id ≠ task.id)
    (newTemplate : ∀ row ∈ rows, row.taskTemplateId ≠ task.taskTemplateId) : Keyed (rows ++ [task]) := by
  constructor
  · simpa using List.Nodup.append keyed.ids (nodup_singleton task.id) (by simpa using newId)
  · simpa using List.Nodup.append keyed.templates (nodup_singleton task.taskTemplateId) (by simpa using newTemplate)
theorem current_id : ((object rows row.id).getD row).id = row.id := by
  cases found : object rows row.id with
  | none => rfl
  | some other => simpa using find?_some found

variable {tasks : List (WorkflowTask Payload Response)}

theorem committed_ids {id : Nat} :
    id ∈ (committed tasks rows).map (·.id) ↔ id ∈ tasks.map (·.id) ∨ id ∈ rows.map (·.id) := by
  simp only [committed,map_append,mem_append,map_map,mem_map,Function.comp_apply,current_id,
    mem_filter]
  constructor
  · rintro (⟨task,listed,same⟩ | ⟨row,⟨isRow,_⟩,same⟩)
    · exact .inl ⟨task,listed,same⟩
    · exact .inr ⟨row,isRow,same⟩
  · rintro (⟨task,listed,same⟩ | ⟨row,isRow,same⟩)
    · exact .inl ⟨task,listed,same⟩
    · by_cases old : ∃ task ∈ tasks, task.id = row.id
      · obtain ⟨task,listed,named⟩ := old
        exact .inl ⟨task,listed,named.trans same⟩
      · refine .inr ⟨row,⟨isRow,?_⟩,same⟩
        simpa using old

theorem committed_change (isRow : row ∈ rows) (id : row.id = task.id) :
    put (·.id) (committed tasks rows) task = committed tasks (put (·.id) rows task) := by
  have known : task.id ∈ rows.map (·.id) := mem_map.mpr ⟨row,isRow,id⟩
  rw [put_known (committed_ids.mpr (.inr known)),committed,committed,map_append,map_map]
  congr 1
  · apply map_congr_left
    intro old _
    rw [Function.comp_apply,current_id]
    by_cases same : old.id = task.id
    · rw [if_pos same,object,find_put_same (by simp [same])]
      rfl
    · rw [if_neg same,object,object,find_put_other]
      intro other named
      rw [beq_iff_eq] at named
      rw [named]
      exact same
  · rw [put_known known,filter_map]
    congr 1
    apply filter_congr
    intro old _
    rw [Function.comp_apply]
    by_cases same : old.id = task.id
    · rw [if_pos same,same]
    · rw [if_neg same]

theorem committed_create (newId : ∀ row ∈ rows, row.id ≠ task.id) (fresh : ∀ other ∈ tasks, other.id ≠ task.id) :
    put (·.id) (committed tasks rows) task = committed tasks (rows ++ [task]) := by
  have unknown : task.id ∉ (committed tasks rows).map (·.id) := by
    rw [committed_ids]
    simp only [mem_map,not_or,not_exists,not_and]
    exact ⟨fresh,newId⟩
  have added : ([task].filter fun row => !(tasks.map (·.id)).contains row.id) = [task] := by
    rw [filter_eq_self]
    simpa using fresh
  rw [put_fresh unknown,committed,committed,filter_append,added,← append_assoc]
  congr 2
  apply map_congr_left
  intro old listed
  have other : (task.id == old.id) = false := beq_false_of_ne fun same => fresh old listed same.symm
  rw [object,object,find?_append,find?_singleton,other]
  simp

end Rows

section Loops
variable [DecidableEq Payload] [TaskPayload Payload]

/-- The variables of the two loops after the same payloads. -/
structure Sync (database : Database Payload Response) (call : SyncCall Payload)
    (inMemory : SyncInMemory Payload Response) (sql : SyncInSql Payload Response) : Prop where
  keyed : Keyed sql.rows
  perm : sql.rows.Perm inMemory.byTemplate
  byTemplate : sql.byTemplate = sql.rows.map fun row => (row.taskTemplateId,row.id)
  tasks : inMemory.tasks = committed database.tasks sql.rows
  given : inMemory.given = sql.given
  known : ∀ row ∈ sql.rows, (∃ task ∈ database.tasks, task.id = row.id) ∨ ∃ n < sql.given, row.id = database.newId n
  workflow : ∀ row ∈ sql.rows, row.workflowId = call.workflowId
  created : inMemory.created.map (·.id) = sql.created
  updated : inMemory.updated.map (·.id) = sql.updated

variable {database : Database Payload Response} {call : SyncCall Payload} {conversation : Conversation}
  {inMemory : SyncInMemory Payload Response} {sql : SyncInSql Payload Response}

theorem sync_step (sync : Sync database call inMemory sql) (payload : Payload) :
    Sync database call (syncInMemoryStep database.newId call conversation inMemory payload)
      (syncInSqlStep database.newId call conversation sql payload) := by
  obtain ⟨keyed,perm,byTemplate,tasks,given,known,workflow,created,updated⟩ := sync
  rcases payload_cases payload with nameless | ⟨taskTemplateId,malformed⟩ | ⟨taskTemplateId,fields,requests⟩
  · rw [inMemory_nameless nameless,sql_nameless nameless]
    exact ⟨keyed,perm,byTemplate,tasks,given,known,workflow,created,updated⟩
  · rw [inMemory_malformed malformed,sql_malformed malformed]
    exact ⟨keyed,perm,byTemplate,tasks,given,known,workflow,created,updated⟩
  · rw [inMemory_requests requests,sql_requests requests (byTemplate ▸ lookup_object keyed),under_perm keyed perm]
    cases found : under sql.rows taskTemplateId with
    | none =>
      have noId : ∀ row ∈ sql.rows, row.id ≠ database.newId sql.given := by
        intro row isRow same
        rcases known row isRow with ⟨task,listed,named⟩ | ⟨n,before,named⟩
        · exact database.fresh _ task listed (named.trans same)
        · exact absurd (database.newIds (named.symm.trans same)) (by omega)
      have noTemplate := under_none.mp found
      have noKey : taskTemplateId ∉ inMemory.byTemplate.map (·.taskTemplateId) := by
        rw [← (perm.map _).mem_iff]
        simpa using noTemplate
      simp only [outcome]
      rw [given]
      have id : (createdTask call conversation (database.newId sql.given) taskTemplateId fields payload :
        WorkflowTask Payload Response).id = database.newId sql.given := rfl
      have template : (createdTask call conversation (database.newId sql.given) taskTemplateId fields payload :
        WorkflowTask Payload Response).taskTemplateId = taskTemplateId := rfl
      have ofWorkflow : (createdTask call conversation (database.newId sql.given) taskTemplateId fields payload :
        WorkflowTask Payload Response).workflowId = call.workflowId := rfl
      generalize createdTask call conversation (database.newId sql.given) taskTemplateId fields payload = task at *
      rw [← id] at noId
      rw [← template] at noTemplate noKey ⊢
      refine ⟨keyed.create noId noTemplate,?_,?_,?_,rfl,?_,?_,?_,updated⟩
      · change (sql.rows ++ [task]).Perm (put (·.taskTemplateId) inMemory.byTemplate task)
        rw [put_fresh noKey]
        exact perm.append_right _
      · rw [map_append,byTemplate,← id]
        rfl
      · rw [tasks]
        exact committed_create noId fun other listed => id ▸ database.fresh sql.given other listed
      · intro row isRow
        rcases mem_append.mp isRow with old | new
        · rcases known row old with stored | ⟨n,before,named⟩
          · exact .inl stored
          · exact .inr ⟨n,Nat.lt_succ_of_lt before,named⟩
        · rw [mem_singleton.mp new]
          exact .inr ⟨sql.given,Nat.lt_succ_self _,id⟩
      · intro row isRow
        rcases mem_append.mp isRow with old | new
        · exact workflow row old
        · rw [mem_singleton.mp new]
          exact ofWorkflow
      · rw [map_append,created,← id]
        rfl
    | some existing =>
      obtain ⟨isRow,named⟩ := (under_iff keyed).mp found
      rcases outcome_some existing with ⟨kept,_⟩ | ⟨changed,_⟩
      · rw [kept]
        exact ⟨keyed,perm,byTemplate,tasks,given,known,workflow,created,updated⟩
      · simp only [changed]
        have id : existing.id = (updatedTask call fields payload existing).id := rfl
        have template : existing.taskTemplateId = (updatedTask call fields payload existing).taskTemplateId := rfl
        have ofWorkflow : existing.workflowId = (updatedTask call fields payload existing).workflowId := rfl
        generalize updatedTask call fields payload existing = task at *
        have isKnown : task.id ∈ sql.rows.map (·.id) := mem_map.mpr ⟨existing,isRow,id⟩
        have rows : ∀ row ∈ put (·.id) sql.rows task, row ∈ sql.rows ∨ row = task := by
          intro row isNew
          rw [put_known isKnown] at isNew
          obtain ⟨old,isOld,replaced⟩ := mem_map.mp isNew
          split at replaced
          · exact .inr replaced.symm
          · exact .inl (replaced ▸ isOld)
        refine ⟨keyed.change isRow id template,?_,?_,?_,given,?_,?_,created,?_⟩
        · change (put (·.id) sql.rows task).Perm (put (·.taskTemplateId) inMemory.byTemplate task)
          rw [put_two_keys keyed.ids keyed.templates isRow id template]
          exact put_perm perm task
        · change sql.byTemplate = _
          rw [byTemplate,put_known isKnown,map_map]
          apply map_congr_left
          intro old isOld
          rw [Function.comp_apply]
          split
          · rename_i same
            rw [inj_on_of_nodup_map keyed.ids isOld isRow (same.trans id.symm),id,template]
          · rfl
        · rw [tasks]
          exact committed_change isRow id
        · intro row isNew
          rcases rows row isNew with old | rfl
          · exact known row old
          · rw [← id]
            exact known existing isRow
        · intro row isNew
          rcases rows row isNew with old | rfl
          · exact workflow row old
          · rw [← ofWorkflow]
            exact workflow existing isRow
        · rw [map_append,updated,id]
          rfl

def logged (inMemory : SyncInMemory Payload Response) : List (WorkflowTask Payload Response) :=
  inMemory.created ++ inMemory.updated ++ inMemory.unchanged

/-- The turn of a well formed payload: the task of its template is kept or written. -/
structure Turn (call : SyncCall Payload) (payload : Payload) (taskTemplateId : String) (fields : TaskFields)
    (inMemory inMemory' : SyncInMemory Payload Response) (sql sql' : SyncInSql Payload Response)
    (task : WorkflowTask Payload Response) : Prop where
  requestedInMemory : inMemory'.requested = taskTemplateId :: inMemory.requested
  requestedInSql : sql'.requested = taskTemplateId :: sql.requested
  elsewhere : ∀ other, other ≠ taskTemplateId → under sql'.rows other = under sql.rows other
  here : under sql'.rows taskTemplateId = some task
  logged : ∀ shown, shown ∈ logged inMemory' ↔ shown ∈ logged inMemory ∨ shown = task
  cases : (under sql.rows taskTemplateId = some task ∧
      (resolvedStatus task.status = true ∨ workflowTaskPayloadMatches task call.runId payload = true) ∧
      inMemory'.unchanged = inMemory.unchanged ++ [task] ∧ sql'.unchanged = sql.unchanged ++ [task.id] ∧
      inMemory'.created = inMemory.created ∧ inMemory'.updated = inMemory.updated) ∨
    ((∀ existing, under sql.rows taskTemplateId = some existing → existing.id = task.id ∧
        resolvedStatus existing.status = false ∧ workflowTaskPayloadMatches existing call.runId payload = false) ∧
      task.fields = fields ∧ workflowTaskPayloadMatches task call.runId payload = true ∧
      inMemory'.unchanged = inMemory.unchanged ∧ sql'.unchanged = sql.unchanged ∧
      ∀ shown, shown ∈ inMemory'.created ++ inMemory'.updated ↔ shown ∈ inMemory.created ++ inMemory.updated ∨ shown = task)

omit [DecidableEq Payload] in
theorem taskFields_some {payload : Payload} {fields : TaskFields} (has : taskFields payload = some fields) :
    TaskPayload.text payload .status = some fields.status ∧ TaskPayload.text payload .stepId = some fields.stepId ∧
      TaskPayload.text payload .kind = some fields.kind := by
  unfold taskFields at has
  split at has
  · rename_i status stepId kind isStatus isStep isKind
    cases has
    exact ⟨isStatus,isStep,isKind⟩
  · cases has

theorem turn (sync : Sync database call inMemory sql) {payload : Payload} {taskTemplateId : String} {fields : TaskFields}
    (requests : Requests payload taskTemplateId fields) :
    ∃ task, Turn call payload taskTemplateId fields inMemory
      (syncInMemoryStep database.newId call conversation inMemory payload) sql
      (syncInSqlStep database.newId call conversation sql payload) task := by
  have keyed : Keyed (syncInSqlStep database.newId call conversation sql payload).rows := (sync_step sync payload).keyed
  obtain ⟨status,stepId,kind⟩ := taskFields_some requests.2
  rw [sql_requests requests (sync.byTemplate ▸ lookup_object sync.keyed)] at keyed
  rw [inMemory_requests requests,sql_requests requests (sync.byTemplate ▸ lookup_object sync.keyed),
    under_perm sync.keyed sync.perm]
  cases found : under sql.rows taskTemplateId with
  | none =>
    simp only [outcome,found] at keyed ⊢
    rw [sync.given]
    refine ⟨createdTask call conversation (database.newId sql.given) taskTemplateId fields payload,
      rfl,rfl,?_,?_,?_,.inr ⟨?_,rfl,?_,rfl,rfl,?_⟩⟩
    · intro other apart
      rw [under,under,find?_append,find?_singleton]
      simp [createdTask,beq_false_of_ne (Ne.symm apart)]
    · exact (under_iff keyed).mpr ⟨mem_append_right _ (mem_singleton_self _),rfl⟩
    · intro shown
      simp only [logged,mem_append,mem_singleton]
      tauto
    · intro existing isIt
      rw [found] at isIt
      cases isIt
    · simp [workflowTaskPayloadMatches,createdTask,status,stepId,kind]
    · intro shown
      simp only [mem_append,mem_singleton]
      tauto
  | some existing =>
    obtain ⟨isRow,named⟩ := (under_iff sync.keyed).mp found
    rcases outcome_some existing with ⟨kept,because⟩ | ⟨changed,isOpen,differs⟩
    · rw [kept]
      refine ⟨existing,rfl,rfl,fun _ _ => rfl,found,?_,.inl ⟨found,because,rfl,rfl,rfl,rfl⟩⟩
      intro shown
      simp only [logged,mem_append,mem_singleton]
      tauto
    · have rows : put (·.id) sql.rows (updatedTask call fields payload existing) =
          put (·.taskTemplateId) sql.rows (updatedTask call fields payload existing) :=
        put_two_keys sync.keyed.ids sync.keyed.templates isRow rfl rfl
      rw [changed]
      refine ⟨updatedTask call fields payload existing,rfl,rfl,?_,?_,?_,.inr ⟨?_,rfl,?_,rfl,rfl,?_⟩⟩
      · intro other apart
        change under (put (·.id) sql.rows (updatedTask call fields payload existing)) other = _
        rw [rows,under,find_put_other]
        · rfl
        · intro row isOther same
          rw [beq_iff_eq] at isOther
          exact apart (isOther.symm.trans (same.trans named))
      · change under (put (·.id) sql.rows (updatedTask call fields payload existing)) taskTemplateId = _
        rw [rows,under,find_put_same]
        intro row
        rw [beq_iff_eq,← named]
        rfl
      · intro shown
        simp only [logged,mem_append,mem_singleton]
        tauto
      · intro other isIt
        rw [found] at isIt
        cases isIt
        exact ⟨rfl,isOpen,differs⟩
      · simp [workflowTaskPayloadMatches,updatedTask,status,stepId,kind]
      · intro shown
        simp only [mem_append,mem_singleton]
        tauto

/-- Everything that the results depend on, after the payloads. -/
structure History (database : Database Payload Response) (call : SyncCall Payload) (conversation : Conversation)
    (payloads : List Payload) (inMemory : SyncInMemory Payload Response) (sql : SyncInSql Payload Response) : Prop where
  sync : Sync database call inMemory sql
  requestedInSql : ∀ taskTemplateId, taskTemplateId ∈ sql.requested ↔
    ∃ payload ∈ payloads, ∃ fields, Requests payload taskTemplateId fields
  requestedInMemory : ∀ taskTemplateId, taskTemplateId ∈ inMemory.requested ↔
    ∃ payload ∈ payloads, TaskPayload.text payload .taskTemplateId = some taskTemplateId
  untouched : ∀ taskTemplateId, taskTemplateId ∉ sql.requested →
    under sql.rows taskTemplateId = stored database call conversation taskTemplateId
  resolved : ∀ taskTemplateId, Resolved database call conversation payloads taskTemplateId ↔
    ∃ row, under sql.rows taskTemplateId = some row ∧ resolvedStatus row.status = true
  touched : ∀ taskTemplateId ∈ sql.requested, ∃ row, under sql.rows taskTemplateId = some row ∧ row ∈ logged inMemory
  shown : ∀ task ∈ logged inMemory, task.taskTemplateId ∈ inMemory.requested ∧
    ∃ row, under sql.rows task.taskTemplateId = some row ∧ row.id = task.id ∧ row ∈ logged inMemory ∧
      (task.taskTemplateId ∈ sql.requested ∨ resolvedStatus row.status = true)
  written : ∀ task ∈ inMemory.created ++ inMemory.updated, task.taskTemplateId ∈ sql.requested
  kept : ∀ id ∈ sql.unchanged, ∃ taskTemplateId ∈ sql.requested, ∃ row, under sql.rows taskTemplateId = some row ∧ row.id = id
  unchanged : inMemory.unchanged.map (·.id) = sql.unchanged ∨ sql.unchanged.length < inMemory.unchanged.length

omit [DecidableEq Payload] in
theorem requests_unique {payload : Payload} {taskTemplateId other : String} {fields otherFields : TaskFields}
    (requests : Requests payload taskTemplateId fields) (also : Requests payload other otherFields) :
    other = taskTemplateId ∧ otherFields = fields :=
  ⟨Option.some.inj (also.1.symm.trans requests.1),Option.some.inj (also.2.symm.trans requests.2)⟩

variable {payloads : List Payload}
theorem matches_status {task : WorkflowTask Payload Response} {runId : Option Nat} {payload : Payload} {taskTemplateId : String}
    {fields : TaskFields} (requests : Requests payload taskTemplateId fields)
    (same : workflowTaskPayloadMatches task runId payload = true) : task.status = fields.status := by
  simp only [workflowTaskPayloadMatches,Bool.and_eq_true,beq_iff_eq] at same
  exact Option.some.inj (same.1.2.trans (taskFields_some requests.2).1)
theorem Turn.id {payload : Payload} {taskTemplateId : String} {fields : TaskFields}
    {inMemory' : SyncInMemory Payload Response} {sql' : SyncInSql Payload Response} {task row : WorkflowTask Payload Response}
    (turn : Turn call payload taskTemplateId fields inMemory inMemory' sql sql' task)
    (before : under sql.rows taskTemplateId = some row) : row.id = task.id := by
  rcases turn.cases with ⟨kept,_⟩ | ⟨written,_⟩
  · rw [Option.some.inj (before.symm.trans kept)]
  · exact (written row before).1

omit [DecidableEq Payload] in
theorem resolved_append {payload : Payload} {taskTemplateId other : String} {fields : TaskFields}
    (requests : Requests payload taskTemplateId fields) :
    Resolved database call conversation (payloads ++ [payload]) other ↔
      Resolved database call conversation payloads other ∨ (other = taskTemplateId ∧ resolvedStatus fields.status = true) := by
  unfold Resolved
  constructor
  · rintro (inTable | ⟨earlier,listed,its,requested,ended⟩)
    · exact .inl (.inl inTable)
    · rcases mem_append.mp listed with before | last
      · exact .inl (.inr ⟨earlier,before,its,requested,ended⟩)
      · rw [mem_singleton.mp last] at requested
        obtain ⟨same,sameFields⟩ := requests_unique requests requested
        exact .inr ⟨same,sameFields ▸ ended⟩
  · rintro ((inTable | ⟨earlier,listed,its,requested,ended⟩) | ⟨rfl,ended⟩)
    · exact .inl inTable
    · exact .inr ⟨earlier,mem_append_left _ listed,its,requested,ended⟩
    · exact .inr ⟨payload,mem_append_right _ (mem_singleton_self _),fields,requests,ended⟩

omit [DecidableEq Payload] in
theorem resolved_unrequested {payload : Payload} {other : String} (lacks : ∀ taskTemplateId fields, ¬ Requests payload taskTemplateId fields) :
    Resolved database call conversation (payloads ++ [payload]) other ↔ Resolved database call conversation payloads other := by
  unfold Resolved
  simp only [mem_append,mem_singleton,or_and_right,exists_or,exists_eq_left]
  constructor
  · rintro (inTable | earlier | ⟨fields,requested,_⟩)
    · exact .inl inTable
    · exact .inr earlier
    · exact absurd requested (lacks _ _)
  · rintro (inTable | earlier)
    · exact .inl inTable
    · exact .inr (.inl earlier)

section After
variable {payload : Payload} {taskTemplateId : String} {fields : TaskFields} {inMemory' : SyncInMemory Payload Response}
  {sql' : SyncInSql Payload Response} {task : WorkflowTask Payload Response}
  (turn : Turn call payload taskTemplateId fields inMemory inMemory' sql sql' task)
include turn

theorem Turn.still {other : String} {row : WorkflowTask Payload Response} (before : under sql.rows other = some row) :
    ∃ row', under sql'.rows other = some row' ∧ row'.id = row.id := by
  by_cases same : other = taskTemplateId
  · subst same
    exact ⟨task,turn.here,(turn.id before).symm⟩
  · exact ⟨row,(turn.elsewhere other same).trans before,rfl⟩

/-- The tasks that are resolved stay so, and one that the payload resolves comes to them. -/
theorem Turn.resolved (requests : Requests payload taskTemplateId fields) (other : String) :
    (∃ row, under sql'.rows other = some row ∧ resolvedStatus row.status = true) ↔
      (∃ row, under sql.rows other = some row ∧ resolvedStatus row.status = true) ∨
        (other = taskTemplateId ∧ resolvedStatus fields.status = true) := by
  by_cases same : other = taskTemplateId
  · subst same
    rw [turn.here]
    rcases turn.cases with ⟨kept,because,_⟩ | ⟨opened,isFields,_⟩
    · rw [kept]
      constructor
      · exact .inl
      · rintro (ended | ⟨_,ended⟩)
        · exact ended
        · rcases because with already | same
          · exact ⟨task,rfl,already⟩
          · exact ⟨task,rfl,matches_status requests same ▸ ended⟩
    · have status : task.status = fields.status := congrArg TaskFields.status isFields
      constructor
      · rintro ⟨row,isTask,ended⟩
        rw [← Option.some.inj isTask,status] at ended
        exact .inr ⟨rfl,ended⟩
      · rintro (⟨row,before,ended⟩ | ⟨_,ended⟩)
        · rw [(opened row before).2.1] at ended
          cases ended
        · exact ⟨task,rfl,status ▸ ended⟩
  · rw [turn.elsewhere other same]
    exact (or_iff_left fun both => same both.1).symm

theorem Turn.written {shown : WorkflowTask Payload Response} (isWritten : shown ∈ inMemory'.created ++ inMemory'.updated) :
    shown ∈ inMemory.created ++ inMemory.updated ∨ shown = task := by
  rcases turn.cases with ⟨_,_,_,_,created,updated⟩ | ⟨_,_,_,_,_,written⟩
  · rw [created,updated] at isWritten
    exact .inl isWritten
  · exact (written shown).mp isWritten
theorem Turn.kept {id : Nat} (isKept : id ∈ sql'.unchanged) : id ∈ sql.unchanged ∨ id = task.id := by
  rcases turn.cases with ⟨_,_,_,appended,_⟩ | ⟨_,_,_,_,same,_⟩
  · rw [appended] at isKept
    exact (mem_append.mp isKept).imp_right mem_singleton.mp
  · rw [same] at isKept
    exact .inl isKept

/-- A task that is shown has a template that was requested, and a row that is shown. -/
theorem shown_after (history : History database call conversation payloads inMemory sql) (template : task.taskTemplateId = taskTemplateId)
    {shown : WorkflowTask Payload Response} (isShown : shown ∈ logged inMemory') :
    shown.taskTemplateId ∈ inMemory'.requested ∧ ∃ row, under sql'.rows shown.taskTemplateId = some row ∧ row.id = shown.id ∧
      row ∈ logged inMemory' ∧ (shown.taskTemplateId ∈ sql'.requested ∨ resolvedStatus row.status = true) := by
  rw [turn.requestedInMemory,turn.requestedInSql,mem_cons,mem_cons]
  by_cases same : shown.taskTemplateId = taskTemplateId
  · rw [same]
    refine ⟨.inl rfl,task,turn.here,?_,(turn.logged task).mpr (.inr rfl),.inl (.inl rfl)⟩
    rcases (turn.logged shown).mp isShown with before | rfl
    · obtain ⟨_,row,found,id,_⟩ := history.shown shown before
      rw [same] at found
      rw [← id,turn.id found]
    · rfl
  · have before := ((turn.logged shown).mp isShown).resolve_right fun isTask => same (isTask ▸ template)
    obtain ⟨requested,row,found,id,isRow,because⟩ := history.shown shown before
    exact ⟨.inr requested,row,(turn.elsewhere _ same).trans found,id,(turn.logged row).mpr (.inl isRow),
      because.imp_left .inr⟩

end After

theorem history_requests (history : History database call conversation payloads inMemory sql) {payload : Payload}
    {taskTemplateId : String} {fields : TaskFields} (requests : Requests payload taskTemplateId fields) :
    History database call conversation (payloads ++ [payload])
      (syncInMemoryStep database.newId call conversation inMemory payload)
      (syncInSqlStep database.newId call conversation sql payload) := by
  have sync : Sync database call (syncInMemoryStep database.newId call conversation inMemory payload)
    (syncInSqlStep database.newId call conversation sql payload) := sync_step history.sync payload
  obtain ⟨task,turn⟩ : ∃ task, Turn call payload taskTemplateId fields inMemory
    (syncInMemoryStep database.newId call conversation inMemory payload) sql
    (syncInSqlStep database.newId call conversation sql payload) task := turn history.sync requests
  generalize syncInMemoryStep database.newId call conversation inMemory payload = inMemory' at *
  generalize syncInSqlStep database.newId call conversation sql payload = sql' at *
  have template : task.taskTemplateId = taskTemplateId := ((under_iff sync.keyed).mp turn.here).2
  refine ⟨sync,?_,?_,?_,?_,?_,fun shown => shown_after turn history template,?_,?_,?_⟩
  · intro other
    rw [turn.requestedInSql,mem_cons,history.requestedInSql]
    simp only [mem_append,mem_singleton,or_and_right,exists_or,exists_eq_left]
    constructor
    · rintro (rfl | earlier)
      · exact .inr ⟨fields,requests⟩
      · exact .inl earlier
    · rintro (earlier | ⟨_,also⟩)
      · exact .inr earlier
      · exact .inl (requests_unique requests also).1
  · intro other
    rw [turn.requestedInMemory,mem_cons,history.requestedInMemory]
    simp only [mem_append,mem_singleton,or_and_right,exists_or,exists_eq_left,requests.1,Option.some.injEq]
    rw [or_comm,eq_comm]
  · intro other unrequested
    rw [turn.requestedInSql,mem_cons,not_or] at unrequested
    rw [turn.elsewhere other unrequested.1]
    exact history.untouched other unrequested.2
  · intro other
    rw [resolved_append requests,history.resolved,turn.resolved requests]
  · intro other requested
    rw [turn.requestedInSql,mem_cons] at requested
    by_cases same : other = taskTemplateId
    · subst same
      exact ⟨task,turn.here,(turn.logged task).mpr (.inr rfl)⟩
    · obtain ⟨row,found,isShown⟩ := history.touched other (requested.resolve_left same)
      exact ⟨row,(turn.elsewhere other same).trans found,(turn.logged row).mpr (.inl isShown)⟩
  · intro shown isWritten
    rw [turn.requestedInSql,mem_cons]
    rcases turn.written isWritten with before | rfl
    · exact .inr (history.written shown before)
    · exact .inl template
  · intro id isKept
    rw [turn.requestedInSql]
    rcases turn.kept isKept with before | rfl
    · obtain ⟨other,requested,row,found,named⟩ := history.kept id before
      obtain ⟨row',found',same⟩ := turn.still found
      exact ⟨other,mem_cons_of_mem _ requested,row',found',same.trans named⟩
    · exact ⟨taskTemplateId,mem_cons_self,task,turn.here,rfl⟩
  · rcases turn.cases with ⟨_,_,inMemoryUnchanged,sqlUnchanged,_⟩ | ⟨_,_,_,inMemoryUnchanged,sqlUnchanged,_⟩
    · rw [inMemoryUnchanged,sqlUnchanged,map_append,length_append,length_append]
      exact history.unchanged.imp (fun same => by rw [same]; rfl) (fun less => Nat.add_lt_add_right less 1)
    · rw [inMemoryUnchanged,sqlUnchanged]
      exact history.unchanged

omit [DecidableEq Payload] in
theorem requested_unrequested {payload : Payload} {other : String} (lacks : ∀ taskTemplateId fields, ¬ Requests payload taskTemplateId fields) :
    (∃ earlier ∈ payloads ++ [payload], ∃ fields, Requests earlier other fields) ↔
      ∃ earlier ∈ payloads, ∃ fields, Requests earlier other fields := by
  simp only [mem_append,mem_singleton,or_and_right,exists_or,exists_eq_left]
  exact or_iff_left fun ⟨_,requested⟩ => lacks _ _ requested

/-- The resolved task that a malformed payload names. -/
def resolvedUnder (rows : List (WorkflowTask Payload Response)) (taskTemplateId : String) : List (WorkflowTask Payload Response) :=
  ((under rows taskTemplateId).filter (resolvedStatus ·.status)).toList

omit [DecidableEq Payload] [TaskPayload Payload] in
theorem mem_resolvedUnder {rows : List (WorkflowTask Payload Response)} {taskTemplateId : String} {row : WorkflowTask Payload Response} :
    row ∈ resolvedUnder rows taskTemplateId ↔ under rows taskTemplateId = some row ∧ resolvedStatus row.status = true := by
  rw [resolvedUnder,Option.mem_toList,Option.filter_eq_some_iff]

theorem history_malformed (history : History database call conversation payloads inMemory sql) {payload : Payload}
    {taskTemplateId : String} (malformed : Malformed payload taskTemplateId) :
    History database call conversation (payloads ++ [payload])
      (syncInMemoryStep database.newId call conversation inMemory payload)
      (syncInSqlStep database.newId call conversation sql payload) := by
  have lacks : ∀ other fields, ¬ Requests payload other fields := malformed_unrequested malformed
  have sync : Sync database call (syncInMemoryStep database.newId call conversation inMemory payload)
    (syncInSqlStep database.newId call conversation sql payload) := sync_step history.sync payload
  rw [inMemory_malformed malformed,sql_malformed malformed] at sync ⊢
  rw [under_perm history.sync.keyed history.sync.perm] at sync ⊢
  change Sync database call { inMemory with
    requested := taskTemplateId :: inMemory.requested
    unchanged := inMemory.unchanged ++ resolvedUnder sql.rows taskTemplateId } sql at sync
  change History database call conversation (payloads ++ [payload]) { inMemory with
    requested := taskTemplateId :: inMemory.requested
    unchanged := inMemory.unchanged ++ resolvedUnder sql.rows taskTemplateId } sql
  have members : ∀ shown, shown ∈ logged { inMemory with
      requested := taskTemplateId :: inMemory.requested
      unchanged := inMemory.unchanged ++ resolvedUnder sql.rows taskTemplateId } ↔
        shown ∈ logged inMemory ∨ shown ∈ resolvedUnder sql.rows taskTemplateId := by
    intro shown
    simp only [logged,mem_append]
    tauto
  refine ⟨sync,?_,?_,history.untouched,?_,?_,?_,history.written,history.kept,?_⟩
  · intro other
    rw [requested_unrequested lacks]
    exact history.requestedInSql other
  · intro other
    rw [mem_cons,history.requestedInMemory]
    simp only [mem_append,mem_singleton,or_and_right,exists_or,exists_eq_left,malformed.1,Option.some.injEq]
    rw [or_comm,eq_comm]
  · intro other
    rw [resolved_unrequested lacks]
    exact history.resolved other
  · intro other requested
    obtain ⟨row,found,isShown⟩ := history.touched other requested
    exact ⟨row,found,(members row).mpr (.inl isShown)⟩
  · intro shown isShown
    rcases (members shown).mp isShown with before | ended
    · obtain ⟨requested,row,found,id,isRow,because⟩ := history.shown shown before
      exact ⟨mem_cons_of_mem _ requested,row,found,id,(members row).mpr (.inl isRow),because⟩
    · obtain ⟨found,isResolved⟩ := mem_resolvedUnder.mp ended
      have named : shown.taskTemplateId = taskTemplateId := ((under_iff history.sync.keyed).mp found).2
      rw [named]
      exact ⟨mem_cons_self,shown,found,rfl,(members shown).mpr (.inr ended),.inr isResolved⟩
  · change (inMemory.unchanged ++ _).map _ = _ ∨ _ < (inMemory.unchanged ++ _).length
    cases ended : resolvedUnder sql.rows taskTemplateId with
    | nil =>
      rw [append_nil]
      exact history.unchanged
    | cons row rest =>
      right
      rw [length_append,length_cons]
      rcases history.unchanged with same | less
      · rw [← same,length_map]
        omega
      · omega

theorem history_nameless (history : History database call conversation payloads inMemory sql) {payload : Payload}
    (nameless : TaskPayload.text payload .taskTemplateId = none) :
    History database call conversation (payloads ++ [payload])
      (syncInMemoryStep database.newId call conversation inMemory payload)
      (syncInSqlStep database.newId call conversation sql payload) := by
  have lacks : ∀ other fields, ¬ Requests payload other fields := nameless_unrequested nameless
  rw [inMemory_nameless nameless,sql_nameless nameless]
  refine ⟨history.sync,?_,?_,history.untouched,?_,history.touched,history.shown,history.written,history.kept,history.unchanged⟩
  · intro other
    rw [requested_unrequested lacks]
    exact history.requestedInSql other
  · intro other
    rw [history.requestedInMemory]
    simp only [mem_append,mem_singleton,or_and_right,exists_or,exists_eq_left,nameless]
    simp
  · intro other
    rw [resolved_unrequested lacks]
    exact history.resolved other

theorem history_step (history : History database call conversation payloads inMemory sql) (payload : Payload) :
    History database call conversation (payloads ++ [payload])
      (syncInMemoryStep database.newId call conversation inMemory payload)
      (syncInSqlStep database.newId call conversation sql payload) := by
  rcases payload_cases payload with nameless | ⟨taskTemplateId,malformed⟩ | ⟨taskTemplateId,fields,requests⟩
  · exact history_nameless history nameless
  · exact history_malformed history malformed
  · exact history_requests history requests

variable (database call conversation) in
def startInMemory : SyncInMemory Payload Response :=
  ⟨database.tasks,existingRecords database.tasks call conversation,[],[],[],[],0⟩

variable (database call conversation) in
def startInSql : SyncInSql Payload Response :=
  ⟨ordered WorkflowTask.order (existingRecords database.tasks call conversation),
    (ordered WorkflowTask.order (existingRecords database.tasks call conversation)).map fun row =>
      (row.taskTemplateId,row.id),[],[],[],[],0⟩

variable (database call conversation) in
def afterInMemory (payloads : List Payload) : SyncInMemory Payload Response :=
  payloads.foldl (syncInMemoryStep database.newId call conversation) (startInMemory database call conversation)

variable (database call conversation) in
def afterInSql (payloads : List Payload) : SyncInSql Payload Response :=
  payloads.foldl (syncInSqlStep database.newId call conversation) (startInSql database call conversation)

omit [DecidableEq Payload] [TaskPayload Payload] in
theorem existingRecords_keyed : Keyed (existingRecords database.tasks call conversation) := by
  refine ⟨distinct_filter database.taskIds _,?_⟩
  have apart := database.templates.filter fun task => task.conversationId == conversation.id &&
    task.workflowId == call.workflowId && taskAuthorized call.auth task
  rw [List.Nodup,pairwise_map]
  refine apart.imp_of_mem ?_
  intro a b isA isB differ same
  have ofA := (mem_filter.mp isA).2
  have ofB := (mem_filter.mp isB).2
  simp only [Bool.and_eq_true,beq_iff_eq] at ofA ofB
  exact differ ⟨ofA.1.1.trans ofB.1.1.symm,ofA.1.2.trans ofB.1.2.symm,same⟩

omit [DecidableEq Payload] [TaskPayload Payload] in
theorem mem_existingRecords {task : WorkflowTask Payload Response} : task ∈ existingRecords database.tasks call conversation ↔
    task ∈ database.tasks ∧ task.conversationId = conversation.id ∧ task.workflowId = call.workflowId ∧
      taskAuthorized call.auth task = true := by
  simp only [existingRecords,mem_filter,Bool.and_eq_true,beq_iff_eq,and_assoc]

omit [DecidableEq Payload] [TaskPayload Payload] in
theorem committed_rows {rows : List (WorkflowTask Payload Response)} (keyed : Keyed rows)
    (among : ∀ row ∈ rows, row ∈ database.tasks) : committed database.tasks rows = database.tasks := by
  have none : (rows.filter fun row => !(database.tasks.map (·.id)).contains row.id) = [] := by
    apply filter_eq_nil_iff.mpr
    intro row isRow
    simpa using ⟨row,among row isRow,rfl⟩
  rw [committed,none,append_nil]
  refine (map_congr_left ?_).trans (map_id _)
  intro task listed
  cases found : object rows task.id with
  | none => rfl
  | some row =>
    obtain ⟨isRow,same⟩ := (object_iff keyed).mp found
    exact inj_on_of_nodup_map database.taskIds (among row isRow) listed same

omit [DecidableEq Payload] in
theorem history_start : History database call conversation [] (startInMemory database call conversation)
    (startInSql database call conversation) := by
  have perm : (ordered WorkflowTask.order (existingRecords database.tasks call conversation)).Perm
    (existingRecords database.tasks call conversation) := perm_insertionSort _ _
  have keyed := existingRecords_keyed.perm perm.symm
  have among : ∀ row ∈ ordered WorkflowTask.order (existingRecords database.tasks call conversation),
      row ∈ existingRecords database.tasks call conversation := fun row => perm.mem_iff.mp
  have none : ∀ other, under (ordered WorkflowTask.order (existingRecords database.tasks call conversation)) other =
      stored database call conversation other := fun other => (under_perm keyed perm).symm
  refine ⟨⟨keyed,perm,rfl,?_,rfl,?_,?_,rfl,rfl⟩,?_,?_,fun other _ => none other,?_,?_,?_,?_,?_,.inl rfl⟩
  · exact (committed_rows keyed fun row isRow => (mem_existingRecords.mp (among row isRow)).1).symm
  · intro row isRow
    exact .inl ⟨row,(mem_existingRecords.mp (among row isRow)).1,rfl⟩
  · intro row isRow
    exact (mem_existingRecords.mp (among row isRow)).2.2.1
  · simp [startInSql]
  · simp [startInMemory]
  · intro other
    change Resolved database call conversation [] other ↔ ∃ row, under (ordered _ _) other = some row ∧ _
    rw [none]
    simp [Resolved]
  · simp [startInSql]
  · simp [startInMemory,logged]
  · simp [startInMemory]
  · simp [startInSql]

variable (database call conversation) in
theorem history_after (payloads : List Payload) : History database call conversation payloads
    (afterInMemory database call conversation payloads) (afterInSql database call conversation payloads) := by
  induction payloads using List.reverseRecOn with
  | nil => exact history_start
  | append_singleton payloads payload ih =>
    rw [afterInMemory,afterInSql,foldl_append,foldl_append]
    exact history_step ih payload

end Loops

end Codebot.TaskSync
