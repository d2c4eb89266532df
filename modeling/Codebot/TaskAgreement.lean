import Codebot.TaskSync

/-!
Agreement of the two repositories on workflow tasks. `sync_workflow_tasks` gives the same tasks and the same table
exactly on regular payloads, `upsert_workflow_task` exactly if the run belongs to the conversation and the table takes
the row (`tasks_agree_iff`).
-/
namespace Codebot.TaskAgreement
open Series List Snapshots WorkflowTasks TaskSync

section Splits
variable {α : Type*} {P : List α → α → Prop}

def Splits (P : List α → α → Prop) (list : List α) : Prop :=
  ∀ before a after, list = before ++ a :: after → P before a
theorem splits_nil : Splits P [] := by
  intro before a after split
  simp at split

theorem splits_append {list : List α} {last : α} : Splits P (list ++ [last]) ↔ Splits P list ∧ P list last := by
  constructor
  · intro all
    refine ⟨?_,all list last [] rfl⟩
    rintro before a after rfl
    exact all before a (after ++ [last]) (by simp)
  · rintro ⟨all,here⟩ before a after split
    rcases eq_nil_or_concat after with rfl | ⟨rest,x,rfl⟩
    · obtain ⟨rfl,same⟩ := append_inj' split rfl
      cases same
      exact here
    · have parts : list ++ [last] = (before ++ a :: rest) ++ [x] := by simpa using split
      obtain ⟨rfl,_⟩ := append_inj' parts rfl
      exact all before a rest rfl

end Splits

variable {Payload Response : Type}

/-- The two results show the same tasks. -/
def SameResult (sql inMemory : SyncResult Payload Response) : Prop :=
  sql.records = inMemory.records ∧ sql.created = inMemory.created ∧ sql.updated = inMemory.updated ∧
    sql.resolved.Perm inMemory.resolved ∧ sql.unchanged = inMemory.unchanged
/-- Both calls return nothing, or the same tasks and leave equal tables. -/
def SyncAgrees (sql : Except DatabaseError (Option (SyncResult Payload Response × List (WorkflowTask Payload Response))))
    (inMemory : Option (SyncResult Payload Response × List (WorkflowTask Payload Response))) : Prop :=
  match sql,inMemory with
  | .ok none,none => True
  | .ok (some (result,tasks)),some (result',tasks') => SameResult result result' ∧ tasks = tasks'
  | _,_ => False

variable [DecidableEq Payload] [TaskPayload Payload]

section Conditions
variable (database : Database Payload Response) (call : SyncCall Payload) (conversation : Conversation)

def NoResolved (before : List Payload) (payload : Payload) : Prop :=
  ∀ taskTemplateId, Malformed payload taskTemplateId → ¬ Resolved database call conversation before taskTemplateId
/-- A payload is as the payloads of its template before it, or its task is resolved by then. -/
def NoChange (before : List Payload) (payload : Payload) : Prop :=
  ∀ taskTemplateId fields, Requests payload taskTemplateId fields → ∀ other ∈ before, ∀ otherFields,
    Requests other taskTemplateId otherFields → other = payload ∨ Resolved database call conversation before taskTemplateId
/-- The table takes the row that the first payload of a template writes. -/
def Fits (before : List Payload) (payload : Payload) : Prop :=
  ∀ taskTemplateId fields, Requests payload taskTemplateId fields →
    (∀ other ∈ before, ∀ otherFields, ¬ Requests other taskTemplateId otherFields) →
    (∀ task, stored database call conversation taskTemplateId = some task →
      resolvedStatus task.status = false ∧ workflowTaskPayloadMatches task call.runId payload = false) →
    columnsFit database.checksLengths call.workflowId taskTemplateId fields = true

/-- The payloads on which the repositories agree. A template that only malformed payloads name has
    no open task of a completed step. -/
structure Regular : Prop where
  malformed : Splits (NoResolved database call conversation) call.taskPayloads
  unrequested : ∀ payload ∈ call.taskPayloads, ∀ taskTemplateId, Malformed payload taskTemplateId →
    (∃ other ∈ call.taskPayloads, ∃ fields, Requests other taskTemplateId fields) ∨
      ∀ task, stored database call conversation taskTemplateId = some task → superseded call [] task = false
  repeated : Splits (NoChange database call conversation) call.taskPayloads
  fits : Splits (Fits database call conversation) call.taskPayloads

end Conditions

variable {database : Database Payload Response} {call : SyncCall Payload} {conversation : Conversation}
  {payloads : List Payload} {payload : Payload}

section
variable (database call conversation)

/-- The tasks that the in-memory result shows are as they are now. -/
def Current (payloads : List Payload) : Prop :=
  ∀ task ∈ logged (afterInMemory database call conversation payloads),
    under (afterInSql database call conversation payloads).rows task.taskTemplateId = some task
/-- The payload changes a task that another payload has requested. -/
def Rewrites (before : List Payload) (payload : Payload) : Prop :=
  ∃ taskTemplateId fields existing, Requests payload taskTemplateId fields ∧
    taskTemplateId ∈ (afterInSql database call conversation before).requested ∧
    under (afterInSql database call conversation before).rows taskTemplateId = some existing ∧
    resolvedStatus existing.status = false ∧ workflowTaskPayloadMatches existing call.runId payload = false

end

theorem afterInMemory_append : afterInMemory database call conversation (payloads ++ [payload]) =
    syncInMemoryStep database.newId call conversation (afterInMemory database call conversation payloads) payload := by
  rw [afterInMemory,foldl_append]
  rfl
theorem afterInSql_append : afterInSql database call conversation (payloads ++ [payload]) =
    syncInSqlStep database.newId call conversation (afterInSql database call conversation payloads) payload := by
  rw [afterInSql,foldl_append]
  rfl

variable (database conversation payloads) in
theorem turn_after {taskTemplateId : String} {fields : TaskFields} (requests : Requests payload taskTemplateId fields) :
    ∃ task, Turn call payload taskTemplateId fields (afterInMemory database call conversation payloads)
      (afterInMemory database call conversation (payloads ++ [payload])) (afterInSql database call conversation payloads)
      (afterInSql database call conversation (payloads ++ [payload])) task := by
  rw [afterInMemory_append,afterInSql_append]
  exact turn (history_after database call conversation payloads).sync requests

omit [DecidableEq Payload] in
theorem request_cases (payload : Payload) : (∃ taskTemplateId fields, Requests payload taskTemplateId fields) ∨
    ∀ taskTemplateId fields, ¬ Requests payload taskTemplateId fields := by
  by_cases requested : ∃ taskTemplateId fields, Requests payload taskTemplateId fields
  · exact .inl requested
  · exact .inr fun taskTemplateId fields requests => requested ⟨taskTemplateId,fields,requests⟩

theorem after_unrequested (lacks : ∀ taskTemplateId fields, ¬ Requests payload taskTemplateId fields) :
    afterInSql database call conversation (payloads ++ [payload]) = afterInSql database call conversation payloads ∧
      ∃ ended, (∀ task ∈ ended, under (afterInSql database call conversation payloads).rows task.taskTemplateId = some task) ∧
        (ended = [] ↔ ∀ taskTemplateId, Malformed payload taskTemplateId → ¬ Resolved database call conversation payloads taskTemplateId) ∧
        (afterInMemory database call conversation (payloads ++ [payload])).created =
          (afterInMemory database call conversation payloads).created ∧
        (afterInMemory database call conversation (payloads ++ [payload])).updated =
          (afterInMemory database call conversation payloads).updated ∧
        (afterInMemory database call conversation (payloads ++ [payload])).unchanged =
          (afterInMemory database call conversation payloads).unchanged ++ ended := by
  have history := history_after database call conversation payloads
  rw [afterInMemory_append,afterInSql_append]
  rcases payload_cases payload with nameless | ⟨taskTemplateId,malformed⟩ | ⟨taskTemplateId,fields,requests⟩
  · rw [inMemory_nameless nameless,sql_nameless nameless]
    refine ⟨rfl,[],by simp,?_,rfl,rfl,(append_nil _).symm⟩
    simp only [true_iff]
    rintro taskTemplateId ⟨names,_⟩
    rw [nameless] at names
    cases names
  · rw [inMemory_malformed malformed,sql_malformed malformed,under_perm history.sync.keyed history.sync.perm]
    refine ⟨rfl,resolvedUnder (afterInSql database call conversation payloads).rows taskTemplateId,?_,?_,rfl,rfl,rfl⟩
    · intro task isEnded
      obtain ⟨found,_⟩ := mem_resolvedUnder.mp isEnded
      rw [((under_iff history.sync.keyed).mp found).2]
      exact found
    · rw [eq_nil_iff_forall_not_mem]
      simp only [mem_resolvedUnder]
      constructor
      · intro nothing other also ended
        obtain ⟨row,found,isResolved⟩ := (history.resolved other).mp ended
        have same : other = taskTemplateId := Option.some.inj (also.1.symm.trans malformed.1)
        exact nothing row ⟨same ▸ found,isResolved⟩
      · rintro none row ⟨found,isResolved⟩
        exact none taskTemplateId malformed ((history.resolved taskTemplateId).mpr ⟨row,found,isResolved⟩)
  · exact absurd requests (lacks _ _)

theorem current_append : Current database call conversation (payloads ++ [payload]) ↔
    Current database call conversation payloads ∧ ¬ Rewrites database call conversation payloads payload := by
  have history := history_after database call conversation payloads
  rcases request_cases payload with ⟨taskTemplateId,fields,requests⟩ | lacks
  · obtain ⟨task,turn⟩ := turn_after database conversation payloads requests
    have after := history_after database call conversation (payloads ++ [payload])
    have template : task.taskTemplateId = taskTemplateId := ((under_iff after.sync.keyed).mp turn.here).2
    constructor
    · intro current
      -- The task that stood under the template was shown before, so it still stands there.
      have same : ∀ row, under (afterInSql database call conversation payloads).rows taskTemplateId = some row →
          row ∈ logged (afterInMemory database call conversation payloads) → row = task := by
        intro row found isShown
        have still := current row ((turn.logged row).mpr (.inl isShown))
        rw [((under_iff history.sync.keyed).mp found).2,turn.here] at still
        exact (Option.some.inj still).symm
      have kept : ∀ row, under (afterInSql database call conversation payloads).rows taskTemplateId = some row →
          row ∈ logged (afterInMemory database call conversation payloads) →
            resolvedStatus row.status = true ∨ workflowTaskPayloadMatches row call.runId payload = true := by
        intro row found isShown
        have isTask := same row found isShown
        rcases turn.cases with ⟨_,because,_⟩ | ⟨_,_,isAsked,_⟩
        · exact isTask ▸ because
        · exact .inr (isTask ▸ isAsked)
      constructor
      · intro shown isShown
        by_cases here : shown.taskTemplateId = taskTemplateId
        · have still := current shown ((turn.logged shown).mpr (.inl isShown))
          obtain ⟨_,row,found,_,isRow,_⟩ := history.shown shown isShown
          rw [here,turn.here] at still
          rw [here] at found ⊢
          rw [found,same row found isRow,still]
        · rw [← turn.elsewhere _ here]
          exact current shown ((turn.logged shown).mpr (.inl isShown))
      · rintro ⟨other,otherFields,existing,requested,asked,found,isOpen,differs⟩
        obtain ⟨rfl,rfl⟩ := requests_unique requests requested
        obtain ⟨row,isRow,isShown⟩ := history.touched _ asked
        rw [found] at isRow
        cases isRow
        rcases kept existing found isShown with ended | isAsked
        · rw [isOpen] at ended
          cases ended
        · rw [differs] at isAsked
          cases isAsked
    · rintro ⟨current,noRewrite⟩ shown isShown
      rcases (turn.logged shown).mp isShown with before | rfl
      · by_cases here : shown.taskTemplateId = taskTemplateId
        · have found := current shown before
          rw [here] at found ⊢
          rcases turn.cases with ⟨isTask,_⟩ | ⟨opened,_⟩
          · rw [turn.here,← found,isTask]
          · obtain ⟨_,row,isRow,_,_,because⟩ := history.shown shown before
            rw [here,found] at isRow
            cases isRow
            obtain ⟨_,isOpen,differs⟩ := opened shown found
            rcases because with asked | ended
            · exact absurd ⟨taskTemplateId,fields,shown,requests,here ▸ asked,found,isOpen,differs⟩ noRewrite
            · rw [isOpen] at ended
              cases ended
        · rw [turn.elsewhere _ here]
          exact current shown before
      · rw [template]
        exact turn.here
  · obtain ⟨rows,ended,now,_,created,updated,unchanged⟩ :=
      @after_unrequested _ Response _ _ database call conversation payloads payload lacks
    have none : ¬ Rewrites database call conversation payloads payload := by
      rintro ⟨taskTemplateId,fields,_,requests,_⟩
      exact lacks taskTemplateId fields requests
    simp only [Current,rows,logged,created,updated,unchanged,none,not_false_eq_true,and_true]
    constructor
    · intro current task isShown
      exact current task (by rw [← append_assoc]; exact mem_append_left _ isShown)
    · intro current task isShown
      rw [← append_assoc] at isShown
      rcases mem_append.mp isShown with before | isEnded
      · exact current task before
      · exact now task isEnded

theorem current_matches (current : Current database call conversation payloads) {taskTemplateId : String} {fields : TaskFields}
    (listed : payload ∈ payloads) (requests : Requests payload taskTemplateId fields) {row : WorkflowTask Payload Response}
    (found : under (afterInSql database call conversation payloads).rows taskTemplateId = some row)
    (isOpen : resolvedStatus row.status = false) : workflowTaskPayloadMatches row call.runId payload = true := by
  induction payloads using List.reverseRecOn with
  | nil => cases listed
  | append_singleton earlier last ih =>
    obtain ⟨before,noRewrite⟩ := current_append.mp current
    rcases request_cases last with ⟨other,otherFields,alsoRequests⟩ | lacks
    · obtain ⟨task,turn⟩ := turn_after database conversation earlier alsoRequests
      by_cases here : taskTemplateId = other
      · subst here
        rw [turn.here] at found
        cases found
        rcases mem_append.mp listed with isEarlier | isLast
        · rcases turn.cases with ⟨isRow,_⟩ | ⟨opened,_⟩
          · exact ih before isEarlier isRow
          · have history := history_after database call conversation earlier
            have asked := (history.requestedInSql taskTemplateId).mpr ⟨payload,isEarlier,fields,requests⟩
            obtain ⟨existing,isExisting,_⟩ := history.touched taskTemplateId asked
            obtain ⟨_,opens,differs⟩ := opened existing isExisting
            exact absurd ⟨taskTemplateId,otherFields,existing,alsoRequests,asked,isExisting,opens,differs⟩ noRewrite
        · rw [mem_singleton.mp isLast]
          rcases turn.cases with ⟨_,because,_⟩ | ⟨_,_,isAsked,_⟩
          · rcases because with ended | isAsked
            · rw [isOpen] at ended
              cases ended
            · exact isAsked
          · exact isAsked
      · rw [turn.elsewhere _ here] at found
        rcases mem_append.mp listed with isEarlier | isLast
        · exact ih before isEarlier found
        · rw [mem_singleton.mp isLast] at requests
          exact absurd (requests_unique alsoRequests requests).1 here
    · rw [(after_unrequested lacks).1] at found
      rcases mem_append.mp listed with isEarlier | isLast
      · exact ih before isEarlier found
      · rw [mem_singleton.mp isLast] at requests
        exact absurd requests (lacks _ _)

theorem matches_payload {task : WorkflowTask Payload Response} {runId : Option Nat}
    (same : workflowTaskPayloadMatches task runId payload = true) : task.payloadJson = payload := by
  simp only [workflowTaskPayloadMatches,Bool.and_eq_true,decide_eq_true_eq] at same
  exact same.2

theorem rewrites_iff (current : Current database call conversation payloads) :
    ¬ Rewrites database call conversation payloads payload ↔ NoChange database call conversation payloads payload := by
  have history := history_after database call conversation payloads
  constructor
  · intro noRewrite taskTemplateId fields requests other listed otherFields also
    have asked := (history.requestedInSql taskTemplateId).mpr ⟨other,listed,otherFields,also⟩
    obtain ⟨row,found,_⟩ := history.touched taskTemplateId asked
    cases ended : resolvedStatus row.status with
    | true => exact .inr ((history.resolved taskTemplateId).mpr ⟨row,found,ended⟩)
    | false =>
      left
      have isOther := current_matches current listed also found ended
      cases isPayload : workflowTaskPayloadMatches row call.runId payload with
      | true => exact (matches_payload isOther).symm.trans (matches_payload isPayload)
      | false => exact absurd ⟨taskTemplateId,fields,row,requests,asked,found,ended,isPayload⟩ noRewrite
  · rintro noChange ⟨taskTemplateId,fields,row,requests,asked,found,isOpen,differs⟩
    obtain ⟨other,listed,otherFields,also⟩ := (history.requestedInSql taskTemplateId).mp asked
    rcases noChange taskTemplateId fields requests other listed otherFields also with same | ended
    · have isOther := current_matches current listed also found isOpen
      rw [same,differs] at isOther
      cases isOther
    · obtain ⟨resolved,isRow,isResolved⟩ := (history.resolved taskTemplateId).mp ended
      rw [found] at isRow
      cases isRow
      rw [isOpen] at isResolved
      cases isResolved

theorem current_iff (payloads : List Payload) :
    Current database call conversation payloads ↔ Splits (NoChange database call conversation) payloads := by
  induction payloads using List.reverseRecOn with
  | nil =>
    refine iff_of_true ?_ splits_nil
    intro task isShown
    simp [logged,afterInMemory,startInMemory] at isShown
  | append_singleton payloads payload ih =>
    rw [current_append,splits_append,← ih]
    exact and_congr_right rewrites_iff

theorem aligned_iff (payloads : List Payload) :
    (afterInMemory database call conversation payloads).unchanged.map (·.id) =
      (afterInSql database call conversation payloads).unchanged ↔ Splits (NoResolved database call conversation) payloads := by
  induction payloads using List.reverseRecOn with
  | nil => exact iff_of_true rfl splits_nil
  | append_singleton payloads payload ih =>
    rw [splits_append,← ih]
    rcases request_cases payload with ⟨taskTemplateId,fields,requests⟩ | lacks
    · obtain ⟨task,turn⟩ := turn_after database conversation payloads requests
      have wellFormed : NoResolved database call conversation payloads payload :=
        fun other malformed => absurd requests (malformed_unrequested malformed _ _)
      rcases turn.cases with ⟨_,_,inMemory,sql,_⟩ | ⟨_,_,_,inMemory,sql,_⟩
      · rw [inMemory,sql,map_append]
        simp [wellFormed]
      · rw [inMemory,sql]
        simp [wellFormed]
    · obtain ⟨rows,ended,_,nothing,_,_,unchanged⟩ :=
        @after_unrequested _ Response _ _ database call conversation payloads payload lacks
      rw [rows,unchanged,map_append]
      have longer := (history_after database call conversation payloads).unchanged
      constructor
      · intro same
        have none : ended = [] := by
          have lengths := congrArg List.length same
          rw [length_append,length_map,length_map] at lengths
          apply eq_nil_of_length_eq_zero
          rcases longer with before | less
          · have equal := congrArg List.length before
            rw [length_map] at equal
            omega
          · omega
        rw [none,map_nil,append_nil] at same
        exact ⟨same,nothing.mp none⟩
      · rintro ⟨same,free⟩
        rw [nothing.mpr free,map_nil,append_nil]
        exact same

variable (database) in
def Taken (task : WorkflowTask Payload Response) : Prop :=
  columnsFit database.checksLengths task.workflowId task.taskTemplateId task.fields = true

theorem fits_iff (payloads : List Payload) (current : Current database call conversation payloads) :
    (∀ task ∈ (afterInMemory database call conversation payloads).created ++
      (afterInMemory database call conversation payloads).updated, Taken database task) ↔
        Splits (Fits database call conversation) payloads := by
  induction payloads using List.reverseRecOn with
  | nil =>
    refine iff_of_true ?_ splits_nil
    intro task isWritten
    simp [afterInMemory,startInMemory] at isWritten
  | append_singleton payloads payload ih =>
    have history := history_after database call conversation payloads
    have after := history_after database call conversation (payloads ++ [payload])
    obtain ⟨before,noRewrite⟩ := current_append.mp current
    rw [splits_append,← ih before]
    rcases request_cases payload with ⟨taskTemplateId,fields,requests⟩ | lacks
    · obtain ⟨task,turn⟩ := turn_after database conversation payloads requests
      obtain ⟨isRow,template⟩ := (under_iff after.sync.keyed).mp turn.here
      rcases turn.cases with ⟨kept,because,_,_,created,updated⟩ | ⟨opened,isFields,_,_,_,written⟩
      · rw [created,updated]
        have wellFormed : Fits database call conversation payloads payload := by
          intro other otherFields also first inTable
          obtain ⟨rfl,rfl⟩ := requests_unique requests also
          have unasked : other ∉ (afterInSql database call conversation payloads).requested := by
            rw [history.requestedInSql]
            rintro ⟨earlier,listed,earlierFields,asked⟩
            exact first earlier listed earlierFields asked
          rw [history.untouched other unasked] at kept
          obtain ⟨isOpen,differs⟩ := inTable task kept
          rw [isOpen,differs] at because
          simp at because
        exact (and_iff_left wellFormed).symm
      · have unasked : taskTemplateId ∉ (afterInSql database call conversation payloads).requested := by
          intro asked
          obtain ⟨row,found,_⟩ := history.touched taskTemplateId asked
          obtain ⟨_,isOpen,differs⟩ := opened row found
          exact noRewrite ⟨taskTemplateId,fields,row,requests,asked,found,isOpen,differs⟩
        have taken : Taken database task ↔ Fits database call conversation payloads payload := by
          rw [Taken,after.sync.workflow task isRow,template,isFields]
          constructor
          · intro fits other otherFields also _ _
            obtain ⟨rfl,rfl⟩ := requests_unique requests also
            exact fits
          · intro fits
            refine fits taskTemplateId fields requests ?_ ?_
            · intro other listed otherFields asked
              exact unasked ((history.requestedInSql _).mpr ⟨other,listed,otherFields,asked⟩)
            · intro existing inTable
              rw [← history.untouched taskTemplateId unasked] at inTable
              exact (opened existing inTable).2
        rw [← taken]
        simp only [written,or_imp,forall_and,forall_eq]
    · obtain ⟨_,_,_,_,created,updated,_⟩ :=
        @after_unrequested _ Response _ _ database call conversation payloads payload lacks
      rw [created,updated]
      have wellFormed : Fits database call conversation payloads payload :=
        fun taskTemplateId fields requests => absurd requests (lacks taskTemplateId fields)
      exact (and_iff_left wellFormed).symm

section Supersede
variable {rows others : List (WorkflowTask Payload Response)} {c : WorkflowTask Payload Response → Bool}
omit [DecidableEq Payload] [TaskPayload Payload]

/-- The row after the tasks with the property were completed. -/
def settled (call : SyncCall Payload) (c : WorkflowTask Payload Response → Bool) (task : WorkflowTask Payload Response) :
    WorkflowTask Payload Response := if c task then completedTask call task else task

theorem foldl_completed {Key : Type*} [LinearOrder Key] {key : WorkflowTask Payload Response → Key}
    (distinct : (rows.map key).Nodup) (perm : others.Perm rows) (keeps : ∀ task, key (completedTask call task) = key task) :
    ((others.filter c).map (completedTask call)).foldl (put key) rows = rows.map (settled call c) := by
  have othersDistinct : (others.map key).Nodup := (perm.map key).nodup_iff.mpr distinct
  have completedDistinct : (((others.filter c).map (completedTask call)).map key).Nodup := by
    have keys : ((others.filter c).map (completedTask call)).map key = (others.filter c).map key := by
      rw [map_map]
      exact map_congr_left fun task _ => keeps task
    rw [keys]
    exact othersDistinct.sublist (filter_sublist.map key)
  have members : ∀ task, task ∈ (others.filter c).map (completedTask call) ↔
      ∃ row ∈ rows, c row = true ∧ completedTask call row = task := by
    intro task
    simp only [mem_map,mem_filter,perm.mem_iff,and_assoc]
  rw [foldl_put ?_ completedDistinct]
  · apply map_congr_left
    intro row isRow
    rw [settled]
    split
    · rename_i chosen
      have found : ((others.filter c).map (completedTask call)).find? (fun task => decide (key task = key row)) =
          some (completedTask call row) := by
        rw [find_iff (key row) completedDistinct (by simp)]
        exact ⟨(members _).mpr ⟨row,isRow,chosen,rfl⟩,decide_eq_true (keeps row)⟩
      rw [found]
      rfl
    · rename_i left
      have missed : ((others.filter c).map (completedTask call)).find? (fun task => decide (key task = key row)) = none := by
        apply find?_eq_none.mpr
        intro task isCompleted same
        obtain ⟨other,isOther,chosen,rfl⟩ := (members task).mp isCompleted
        rw [decide_eq_true_eq,keeps] at same
        rw [inj_on_of_nodup_map distinct isOther isRow same] at chosen
        exact left chosen
      rw [missed]
      rfl
  · intro task isCompleted
    obtain ⟨row,isRow,_,rfl⟩ := (members task).mp isCompleted
    exact mem_map.mpr ⟨row,isRow,(keeps row).symm⟩

theorem mem_committed {tasks : List (WorkflowTask Payload Response)} (keyed : Keyed rows) {task : WorkflowTask Payload Response} :
    task ∈ committed tasks rows ↔ task ∈ rows ∨ (task ∈ tasks ∧ task.id ∉ rows.map (·.id)) := by
  rw [committed,mem_append,mem_map,mem_filter]
  constructor
  · rintro (⟨old,listed,rfl⟩ | ⟨isRow,_⟩)
    · cases found : object rows old.id with
      | none =>
        refine .inr ⟨listed,?_⟩
        intro known
        obtain ⟨row,isRow,same⟩ := mem_map.mp known
        have isIt := (object_iff keyed).mpr ⟨isRow,same⟩
        rw [Option.getD_none,found] at isIt
        cases isIt
      | some row => exact .inl ((object_iff keyed).mp found).1
    · exact .inl isRow
  · rintro (isRow | ⟨listed,unknown⟩)
    · by_cases old : ∃ other ∈ tasks, other.id = task.id
      · obtain ⟨other,listed,same⟩ := old
        refine .inl ⟨other,listed,?_⟩
        rw [(object_iff keyed).mpr ⟨isRow,same.symm⟩]
        rfl
      · exact .inr ⟨isRow,by simpa using old⟩
    · refine .inl ⟨task,listed,?_⟩
      cases found : object rows task.id with
      | none => rfl
      | some row =>
        obtain ⟨isRow,same⟩ := (object_iff keyed).mp found
        exact absurd (mem_map.mpr ⟨row,isRow,same⟩) unknown

theorem committed_foldl {tasks news : List (WorkflowTask Payload Response)} (known : ∀ task ∈ news, task.id ∈ rows.map (·.id)) :
    news.foldl (put (·.id)) (committed tasks rows) = committed tasks (news.foldl (put (·.id)) rows) := by
  induction news generalizing rows with
  | nil => rfl
  | cons task rest ih =>
    obtain ⟨here,later⟩ := forall_mem_cons.mp known
    obtain ⟨row,isRow,same⟩ := mem_map.mp here
    rw [foldl_cons,foldl_cons,committed_change isRow same,ih]
    intro other listed
    rw [times_put here]
    exact later other listed

theorem settled_keyed (keyed : Keyed rows) : Keyed (rows.map (settled call c)) := by
  have ids : (rows.map (settled call c)).map (·.id) = rows.map (·.id) := by
    rw [map_map]
    apply map_congr_left
    intro row _
    rw [Function.comp_apply,settled]
    split <;> rfl
  have templates : (rows.map (settled call c)).map (·.taskTemplateId) = rows.map (·.taskTemplateId) := by
    rw [map_map]
    apply map_congr_left
    intro row _
    rw [Function.comp_apply,settled]
    split <;> rfl
  exact ⟨ids ▸ keyed.ids,templates ▸ keyed.templates⟩

theorem settled_id (task : WorkflowTask Payload Response) : (settled call c task).id = task.id := by
  rw [settled]
  split <;> rfl

theorem committed_settled_iff {tasks : List (WorkflowTask Payload Response)} (keyed : Keyed rows)
    {d : WorkflowTask Payload Response → Bool} : committed tasks (rows.map (settled call c)) = committed tasks (rows.map (settled call d)) ↔
      ∀ row ∈ rows, settled call c row = settled call d row := by
  constructor
  · intro same row isRow
    have inTable : settled call c row ∈ committed tasks (rows.map (settled call d)) :=
      same ▸ (mem_committed (settled_keyed keyed)).mpr (.inl (mem_map_of_mem isRow))
    have isOther : settled call d row ∈ rows.map (settled call d) := mem_map_of_mem isRow
    have sameId : (settled call c row).id = (settled call d row).id := by rw [settled_id,settled_id]
    rcases (mem_committed (settled_keyed keyed)).mp inTable with isSettled | ⟨_,unknown⟩
    · exact inj_on_of_nodup_map (settled_keyed keyed).ids isSettled isOther sameId
    · exact absurd (sameId ▸ mem_map_of_mem isOther) unknown
  · intro same
    rw [map_congr_left same]

theorem superseded_open {requested : List String} {task : WorkflowTask Payload Response} (chosen : superseded call requested task = true) :
    resolvedStatus task.status = false := by
  simp only [superseded,Bool.and_eq_true,Bool.not_eq_true'] at chosen
  exact chosen.2
theorem superseded_eq (requested : List String) (task : WorkflowTask Payload Response) :
    superseded call requested task = (!requested.contains task.taskTemplateId && superseded call [] task) := by
  simp [superseded,Bool.and_assoc]

theorem settled_inj {requested others : List String} {task : WorkflowTask Payload Response} :
    settled call (superseded call requested) task = settled call (superseded call others) task ↔
      superseded call requested task = superseded call others task := by
  have apart : superseded call requested task ≠ superseded call others task → resolvedStatus task.status = false := by
    intro differ
    cases chosen : superseded call requested task with
    | true => exact superseded_open chosen
    | false =>
      rw [chosen] at differ
      exact superseded_open (by simpa using differ.symm)
  have completed : completedTask call task = task → resolvedStatus task.status = true := by
    intro same
    rw [← same]
    rfl
  constructor
  · intro same
    by_contra differ
    have isOpen := apart differ
    have isCompleted : resolvedStatus task.status = true := by
      apply completed
      unfold settled at same
      cases chosen : superseded call requested task with
      | true =>
        have left : superseded call others task = false := by simpa [chosen] using Ne.symm differ
        simpa [chosen,left] using same
      | false =>
        have other : superseded call others task = true := by simpa [chosen] using Ne.symm differ
        simpa [chosen,other] using same.symm
    rw [isOpen] at isCompleted
    cases isCompleted
  · intro same
    rw [settled,settled,same]

end Supersede

section Finals
variable (database call conversation)

def supersededInSql (payloads : List Payload) (task : WorkflowTask Payload Response) : Bool :=
  superseded call (afterInSql database call conversation payloads).requested task
def supersededInMemory (payloads : List Payload) (task : WorkflowTask Payload Response) : Bool :=
  superseded call (afterInMemory database call conversation payloads).requested task

end Finals

theorem superseded_iff (payloads : List Payload) :
    (∀ row ∈ (afterInSql database call conversation payloads).rows,
      supersededInSql database call conversation payloads row = supersededInMemory database call conversation payloads row) ↔
      ∀ payload ∈ payloads, ∀ taskTemplateId, Malformed payload taskTemplateId →
        (∃ other ∈ payloads, ∃ fields, Requests other taskTemplateId fields) ∨
          ∀ task, stored database call conversation taskTemplateId = some task → superseded call [] task = false := by
  have history := history_after database call conversation payloads
  constructor
  · intro same payload listed taskTemplateId malformed
    by_cases asked : taskTemplateId ∈ (afterInSql database call conversation payloads).requested
    · exact .inl ((history.requestedInSql taskTemplateId).mp asked)
    · refine .inr ?_
      intro task inTable
      rw [← history.untouched taskTemplateId asked] at inTable
      obtain ⟨isRow,template⟩ := (under_iff history.sync.keyed).mp inTable
      have named : taskTemplateId ∈ (afterInMemory database call conversation payloads).requested :=
        (history.requestedInMemory taskTemplateId).mpr ⟨payload,listed,malformed.1⟩
      have left : supersededInMemory database call conversation payloads task = false := by
        rw [supersededInMemory,superseded_eq,template,contains_iff_mem.mpr named]
        rfl
      by_contra chosen
      have completed : supersededInSql database call conversation payloads task = true := by
        rw [supersededInSql,superseded_eq,template,Bool.and_eq_true]
        exact ⟨by simpa using asked,by simpa using chosen⟩
      have equal := same task isRow
      rw [completed,left] at equal
      cases equal
  · intro regular row isRow
    rw [supersededInSql,supersededInMemory,superseded_eq,
      superseded_eq (afterInMemory database call conversation payloads).requested]
    by_cases asked : row.taskTemplateId ∈ (afterInSql database call conversation payloads).requested
    · obtain ⟨payload,listed,fields,requests⟩ := (history.requestedInSql _).mp asked
      have named := (history.requestedInMemory _).mpr ⟨payload,listed,requests.1⟩
      rw [contains_iff_mem.mpr asked,contains_iff_mem.mpr named]
    · by_cases named : row.taskTemplateId ∈ (afterInMemory database call conversation payloads).requested
      · obtain ⟨payload,listed,names⟩ := (history.requestedInMemory _).mp named
        have malformed : Malformed payload row.taskTemplateId := by
          refine ⟨names,?_⟩
          cases has : taskFields payload with
          | none => rfl
          | some fields => exact absurd ((history.requestedInSql _).mpr ⟨payload,listed,fields,names,has⟩) asked
        rcases regular payload listed _ malformed with also | closed
        · exact absurd ((history.requestedInSql _).mpr also) asked
        · have found := (under_iff history.sync.keyed).mpr ⟨isRow,rfl⟩
          rw [history.untouched _ asked] at found
          rw [closed row found,Bool.and_false,Bool.and_false]
      · rw [show (afterInSql database call conversation payloads).requested.contains row.taskTemplateId = false by simpa using asked,
          show (afterInMemory database call conversation payloads).requested.contains row.taskTemplateId = false by simpa using named]

omit [DecidableEq Payload] [TaskPayload Payload] in
theorem shown_iff {rows shown : List (WorkflowTask Payload Response)} (there : ∀ task ∈ shown, (object rows task.id).isSome) :
    (shown.map (·.id)).filterMap (object rows) = shown ↔ ∀ task ∈ shown, object rows task.id = some task := by
  induction shown with
  | nil => simp
  | cons task rest ih =>
    obtain ⟨here,later⟩ := forall_mem_cons.mp there
    obtain ⟨row,found⟩ := Option.isSome_iff_exists.mp here
    rw [map_cons,filterMap_cons,found,forall_mem_cons,List.cons.injEq,ih later,found]
    simp

section Final
variable (database call conversation payloads)

def finalRows : List (WorkflowTask Payload Response) :=
  (afterInSql database call conversation payloads).rows.map
    (settled call (supersededInSql database call conversation payloads))

end Final

theorem object_final {taskTemplateId : String} {row : WorkflowTask Payload Response}
    (asked : taskTemplateId ∈ (afterInSql database call conversation payloads).requested)
    (found : under (afterInSql database call conversation payloads).rows taskTemplateId = some row) :
    object (finalRows database call conversation payloads) row.id = some row := by
  have keyed := (history_after database call conversation payloads).sync.keyed
  obtain ⟨isRow,template⟩ := (under_iff keyed).mp found
  have left : supersededInSql database call conversation payloads row = false := by
    rw [supersededInSql,superseded_eq,template,contains_iff_mem.mpr asked]
    rfl
  refine (object_iff (settled_keyed keyed)).mpr ⟨mem_map.mpr ⟨row,isRow,?_⟩,rfl⟩
  rw [settled,if_neg (by rw [left]; simp)]

theorem shown_current {shown : List (WorkflowTask Payload Response)}
    (asked : ∀ task ∈ shown, task ∈ logged (afterInMemory database call conversation payloads) ∧
      task.taskTemplateId ∈ (afterInSql database call conversation payloads).requested) :
    (shown.map (·.id)).filterMap (object (finalRows database call conversation payloads)) = shown ↔
      ∀ task ∈ shown, under (afterInSql database call conversation payloads).rows task.taskTemplateId = some task := by
  have found : ∀ task ∈ shown, object (finalRows database call conversation payloads) task.id =
      under (afterInSql database call conversation payloads).rows task.taskTemplateId := by
    intro task isShown
    obtain ⟨isLogged,isAsked⟩ := asked task isShown
    obtain ⟨_,row,isRow,id,_⟩ := (history_after database call conversation payloads).shown task isLogged
    rw [isRow,← id]
    exact object_final isAsked isRow
  rw [shown_iff]
  · exact forall₂_congr fun task isShown => by rw [found task isShown]
  · intro task isShown
    obtain ⟨_,row,isRow,_⟩ := (history_after database call conversation payloads).shown task (asked task isShown).1
    rw [found task isShown,isRow]
    rfl

omit [DecidableEq Payload] [TaskPayload Payload] in
theorem logged_iff {task : WorkflowTask Payload Response} {inMemory : SyncInMemory Payload Response} :
    task ∈ logged inMemory ↔ task ∈ inMemory.created ∨ task ∈ inMemory.updated ∨ task ∈ inMemory.unchanged := by
  rw [logged,mem_append,mem_append,or_assoc]

section Final
variable (database call conversation payloads)

/-- The rows that the SQL repository completes. -/
def resolvedRows : List (WorkflowTask Payload Response) :=
  ((afterInSql database call conversation payloads).rows.filter
    (supersededInSql database call conversation payloads)).map (completedTask call)

end Final

theorem resolvedRows_shown : ((resolvedRows database call conversation payloads).map (·.id)).filterMap
    (object (finalRows database call conversation payloads)) = resolvedRows database call conversation payloads := by
  have keyed := (history_after database call conversation payloads).sync.keyed
  have found : ∀ task ∈ resolvedRows database call conversation payloads,
      object (finalRows database call conversation payloads) task.id = some task := by
    intro task isResolved
    obtain ⟨row,isRow,rfl⟩ := mem_map.mp isResolved
    obtain ⟨listed,chosen⟩ := mem_filter.mp isRow
    refine (object_iff (settled_keyed keyed)).mpr ⟨mem_map.mpr ⟨row,listed,?_⟩,rfl⟩
    rw [settled,if_pos chosen]
  exact (shown_iff fun task isResolved => by rw [found task isResolved]; rfl).mpr found

omit [DecidableEq Payload] [TaskPayload Payload] in
theorem requested_unresolved {c : WorkflowTask Payload Response → Bool} {rows : List (WorkflowTask Payload Response)}
    (keyed : Keyed rows) {row : WorkflowTask Payload Response} (isRow : row ∈ rows) (left : c row = false) :
    (((rows.filter c).map (completedTask call)).map (·.id)).contains row.id = false := by
  by_contra resolved
  rw [Bool.not_eq_false,contains_iff_mem] at resolved
  obtain ⟨task,isTask,same⟩ := mem_map.mp resolved
  obtain ⟨other,isOther,rfl⟩ := mem_map.mp isTask
  obtain ⟨listed,chosen⟩ := mem_filter.mp isOther
  rw [inj_on_of_nodup_map keyed.ids listed isRow same,left] at chosen
  cases chosen

theorem unchanged_sql : ((afterInSql database call conversation payloads).unchanged.filter fun id =>
    !((resolvedRows database call conversation payloads).map (·.id)).contains id) =
      (afterInSql database call conversation payloads).unchanged := by
  have history := history_after database call conversation payloads
  apply filter_eq_self.mpr
  intro id isKept
  obtain ⟨taskTemplateId,asked,row,found,rfl⟩ := history.kept id isKept
  obtain ⟨isRow,template⟩ := (under_iff history.sync.keyed).mp found
  rw [resolvedRows,requested_unresolved history.sync.keyed isRow]
  · rfl
  · rw [supersededInSql,superseded_eq,template,contains_iff_mem.mpr asked]
    rfl

theorem unchanged_inMemory : ((afterInMemory database call conversation payloads).unchanged.filter fun task =>
    !((((afterInMemory database call conversation payloads).byTemplate.filter
      (supersededInMemory database call conversation payloads)).map (completedTask call)).map (·.id)).contains task.id) =
      (afterInMemory database call conversation payloads).unchanged := by
  have history := history_after database call conversation payloads
  apply filter_eq_self.mpr
  intro task isUnchanged
  obtain ⟨named,row,found,id,_⟩ := history.shown task (logged_iff.mpr (.inr (.inr isUnchanged)))
  obtain ⟨isRow,template⟩ := (under_iff history.sync.keyed).mp found
  rw [← id,requested_unresolved (history.sync.keyed.perm history.sync.perm) (history.sync.perm.mem_iff.mp isRow)]
  · rfl
  · rw [supersededInMemory,superseded_eq,template,contains_iff_mem.mpr named]
    rfl

theorem byTemplate_rows : ((afterInSql database call conversation payloads).byTemplate.filterMap fun entry =>
    object (afterInSql database call conversation payloads).rows entry.2) =
      (afterInSql database call conversation payloads).rows := by
  have sync := (history_after database call conversation payloads).sync
  rw [sync.byTemplate,filterMap_map]
  refine (filterMap_congr (g := some) ?_).trans (filterMap_some)
  intro row isRow
  exact (object_iff sync.keyed).mpr ⟨isRow,rfl⟩

section Parts
variable (database call conversation payloads)

/-- The result of the SQL repository, and the table after it. -/
def resultInSql : SyncResult Payload Response where
  records := ordered WorkflowTask.order (finalRows database call conversation payloads)
  created := (afterInSql database call conversation payloads).created.filterMap (object (finalRows database call conversation payloads))
  updated := (afterInSql database call conversation payloads).updated.filterMap (object (finalRows database call conversation payloads))
  resolved := resolvedRows database call conversation payloads
  unchanged := (afterInSql database call conversation payloads).unchanged.filterMap
    (object (finalRows database call conversation payloads))

def tableInSql : List (WorkflowTask Payload Response) :=
  committed database.tasks (finalRows database call conversation payloads)

/-- The result of the in-memory repository, and the table after it. -/
def resultInMemory : SyncResult Payload Response where
  records := ordered WorkflowTask.order ((afterInMemory database call conversation payloads).byTemplate.map
    (settled call (supersededInMemory database call conversation payloads)))
  created := (afterInMemory database call conversation payloads).created
  updated := (afterInMemory database call conversation payloads).updated
  resolved := ((afterInMemory database call conversation payloads).byTemplate.filter
    (supersededInMemory database call conversation payloads)).map (completedTask call)
  unchanged := (afterInMemory database call conversation payloads).unchanged

def tableInMemory : List (WorkflowTask Payload Response) :=
  committed database.tasks ((afterInSql database call conversation payloads).rows.map
    (settled call (supersededInMemory database call conversation payloads)))

end Parts

theorem lists_iff : ((resultInSql database call conversation payloads).created = (resultInMemory database call conversation payloads).created ∧
    (resultInSql database call conversation payloads).updated = (resultInMemory database call conversation payloads).updated ∧
    (resultInSql database call conversation payloads).unchanged = (resultInMemory database call conversation payloads).unchanged) ↔
      (afterInMemory database call conversation payloads).unchanged.map (·.id) =
        (afterInSql database call conversation payloads).unchanged ∧ Current database call conversation payloads := by
  have history := history_after database call conversation payloads
  have created : (resultInSql database call conversation payloads).created = (resultInMemory database call conversation payloads).created ↔
      ∀ task ∈ (afterInMemory database call conversation payloads).created,
        under (afterInSql database call conversation payloads).rows task.taskTemplateId = some task := by
    rw [resultInSql,resultInMemory,← history.sync.created]
    apply shown_current
    intro task isCreated
    exact ⟨logged_iff.mpr (.inl isCreated),history.written task (mem_append_left _ isCreated)⟩
  have updated : (resultInSql database call conversation payloads).updated = (resultInMemory database call conversation payloads).updated ↔
      ∀ task ∈ (afterInMemory database call conversation payloads).updated,
        under (afterInSql database call conversation payloads).rows task.taskTemplateId = some task := by
    rw [resultInSql,resultInMemory,← history.sync.updated]
    apply shown_current
    intro task isUpdated
    exact ⟨logged_iff.mpr (.inr (.inl isUpdated)),history.written task (mem_append_right _ isUpdated)⟩
  have unchanged : (resultInSql database call conversation payloads).unchanged = (resultInMemory database call conversation payloads).unchanged ↔
      (afterInMemory database call conversation payloads).unchanged.map (·.id) =
        (afterInSql database call conversation payloads).unchanged ∧
        ∀ task ∈ (afterInMemory database call conversation payloads).unchanged,
          under (afterInSql database call conversation payloads).rows task.taskTemplateId = some task := by
    rw [resultInSql,resultInMemory]
    rcases history.unchanged with aligned | longer
    · rw [← aligned,shown_current]
      · simp
      · intro task isUnchanged
        refine ⟨logged_iff.mpr (.inr (.inr isUnchanged)),?_⟩
        obtain ⟨taskTemplateId,asked,row,found,same⟩ :=
          history.kept task.id (aligned ▸ mem_map_of_mem isUnchanged)
        obtain ⟨_,own,isOwn,id,_⟩ := history.shown task (logged_iff.mpr (.inr (.inr isUnchanged)))
        obtain ⟨isRow,template⟩ := (under_iff history.sync.keyed).mp found
        obtain ⟨isOwnRow,ownTemplate⟩ := (under_iff history.sync.keyed).mp isOwn
        rw [← ownTemplate,inj_on_of_nodup_map history.sync.keyed.ids isOwnRow isRow (id.trans same.symm),template]
        exact asked
    · constructor
      · intro same
        have lengths := congrArg List.length same
        have atMost := length_filterMap_le (object (finalRows database call conversation payloads))
          (afterInSql database call conversation payloads).unchanged
        change (List.filterMap _ _).length = (afterInMemory database call conversation payloads).unchanged.length at lengths
        omega
      · rintro ⟨aligned,_⟩
        have lengths := congrArg List.length aligned
        rw [length_map] at lengths
        omega
  rw [created,updated,unchanged]
  simp only [Current,logged_iff,or_imp,forall_and]
  tauto

theorem completed_same (same : ∀ row ∈ (afterInSql database call conversation payloads).rows,
    supersededInSql database call conversation payloads row = supersededInMemory database call conversation payloads row) :
    (resultInSql database call conversation payloads).records = (resultInMemory database call conversation payloads).records ∧
      (resultInSql database call conversation payloads).resolved.Perm (resultInMemory database call conversation payloads).resolved := by
  have history := history_after database call conversation payloads
  constructor
  · rw [resultInSql,resultInMemory]
    have perm : (finalRows database call conversation payloads).Perm ((afterInMemory database call conversation payloads).byTemplate.map
        (settled call (supersededInMemory database call conversation payloads))) := by
      have settledSame : (afterInSql database call conversation payloads).rows.map
          (settled call (supersededInSql database call conversation payloads)) = (afterInSql database call conversation payloads).rows.map
            (settled call (supersededInMemory database call conversation payloads)) :=
        map_congr_left fun row isRow => settled_inj.mpr (same row isRow)
      rw [finalRows,settledSame]
      exact history.sync.perm.map _
    exact ordered_perm (distinct_keys (fun key => (ofLex key).2) (fun _ => rfl) (settled_keyed history.sync.keyed).ids) perm
  · rw [resultInSql,resultInMemory,resolvedRows]
    rw [filter_congr same]
    exact (history.sync.perm.filter _).map _

theorem same_iff : (SameResult (resultInSql database call conversation payloads) (resultInMemory database call conversation payloads) ∧
    tableInSql database call conversation payloads = tableInMemory database call conversation payloads) ↔
      Splits (NoResolved database call conversation) payloads ∧ Splits (NoChange database call conversation) payloads ∧
        ∀ row ∈ (afterInSql database call conversation payloads).rows,
          supersededInSql database call conversation payloads row = supersededInMemory database call conversation payloads row := by
  have keyed := (history_after database call conversation payloads).sync.keyed
  rw [← aligned_iff,← current_iff]
  have tables : tableInSql database call conversation payloads = tableInMemory database call conversation payloads ↔
      ∀ row ∈ (afterInSql database call conversation payloads).rows,
        supersededInSql database call conversation payloads row = supersededInMemory database call conversation payloads row := by
    rw [tableInSql,tableInMemory,finalRows,committed_settled_iff keyed]
    exact forall₂_congr fun row _ => settled_inj
  rw [tables,SameResult]
  constructor
  · rintro ⟨⟨_,created,updated,_,unchanged⟩,same⟩
    obtain ⟨aligned,current⟩ := lists_iff.mp ⟨created,updated,unchanged⟩
    exact ⟨aligned,current,same⟩
  · rintro ⟨aligned,current,same⟩
    obtain ⟨created,updated,unchanged⟩ := lists_iff.mpr ⟨aligned,current⟩
    obtain ⟨records,resolved⟩ := completed_same same
    exact ⟨⟨records,created,updated,resolved,unchanged⟩,same⟩

/-- The rows that the commit tests. -/
def written (database : Database Payload Response) (call : SyncCall Payload) (conversation : Conversation)
    (payloads : List Payload) : List (WorkflowTask Payload Response) :=
  ((afterInSql database call conversation payloads).created ++ (afterInSql database call conversation payloads).updated ++
    (resolvedRows database call conversation payloads).map (·.id)).filterMap (object (finalRows database call conversation payloads))

theorem written_iff (current : Current database call conversation payloads) :
    (∀ task ∈ written database call conversation payloads, Taken database task) ↔ Splits (Fits database call conversation) payloads := by
  have history := history_after database call conversation payloads
  have shown : written database call conversation payloads = (afterInMemory database call conversation payloads).created ++
      (afterInMemory database call conversation payloads).updated ++ resolvedRows database call conversation payloads := by
    rw [written,← history.sync.created,← history.sync.updated,filterMap_append,filterMap_append,resolvedRows_shown,
      shown_current ?_ |>.mpr fun task isCreated => current task (logged_iff.mpr (.inl isCreated)),
      shown_current ?_ |>.mpr fun task isUpdated => current task (logged_iff.mpr (.inr (.inl isUpdated)))]
    · intro task isUpdated
      exact ⟨logged_iff.mpr (.inr (.inl isUpdated)),history.written task (mem_append_right _ isUpdated)⟩
    · intro task isCreated
      exact ⟨logged_iff.mpr (.inl isCreated),history.written task (mem_append_left _ isCreated)⟩
  have completed : ∀ task ∈ resolvedRows database call conversation payloads, Taken database task := by
    intro task isResolved
    obtain ⟨row,isRow,rfl⟩ := mem_map.mp isResolved
    obtain ⟨listed,chosen⟩ := mem_filter.mp isRow
    have unasked : row.taskTemplateId ∉ (afterInSql database call conversation payloads).requested := by
      intro asked
      rw [supersededInSql,superseded_eq,contains_iff_mem.mpr asked] at chosen
      cases chosen
    have found := (under_iff history.sync.keyed).mpr ⟨listed,rfl⟩
    rw [history.untouched _ unasked] at found
    have inTable := (mem_existingRecords.mp ((under_iff existingRecords_keyed).mp found).1).1
    have fits := database.fits row inTable
    rw [columnsFit,Bool.and_eq_true] at fits
    rw [Taken,columnsFit,Bool.and_eq_true]
    refine ⟨?_,fits.2⟩
    change workflowTaskStatuses.contains "completed" = true
    decide
  rw [← fits_iff payloads current,shown]
  constructor
  · intro all task isWritten
    exact all task (mem_append_left _ isWritten)
  · intro all task isWritten
    exact (mem_append.mp isWritten).elim (all task) (completed task)

omit [DecidableEq Payload] [TaskPayload Payload] in
theorem authorizedRun_eq (store : Store) (auth : AuthContext) (runId : Nat) :
    authorizedRun store auth runId = getRun store auth runId := by
  apply Option.ext
  intro run
  rw [authorizedRun,getRun,Option.filter_eq_some_iff,find_iff runId store.runIds (by simp +contextual),
    find_iff runId store.runIds (by simp)]
  simp only [Bool.and_eq_true,and_assoc]

/-- The run of the call, where one is given, is a run of the conversation. -/
def runBelongs (store : Store) (auth : AuthContext) (conversation : Conversation) (runId : Option Nat) : Bool :=
  runId.all fun runId => (getRun store auth runId).any fun run => run.conversationId == conversation.id

theorem syncInSql_eq (found : getConversation database.store call.auth call.conversationId = some conversation)
    (belongs : runBelongs database.store call.auth conversation call.runId = true) :
    syncInSql database call = if (written database call conversation call.taskPayloads).all fun row =>
        columnsFit database.checksLengths row.workflowId row.taskTemplateId row.fields then
      .ok (some (resultInSql database call conversation call.taskPayloads,tableInSql database call conversation call.taskPayloads))
      else .error .integrity := by
  have sync := (history_after database call conversation call.taskPayloads).sync
  unfold syncInSql
  rw [authorizedConversation_eq,found]
  simp only [authorizedRun_eq]
  rw [runBelongs] at belongs
  simp only [belongs,if_true]
  change (let looped := afterInSql database call conversation call.taskPayloads
    let resolved := ((looped.byTemplate.filterMap fun entry => object looped.rows entry.2).filter
      (superseded call looped.requested)).map (completedTask call)
    let rows := resolved.foldl (put (·.id)) looped.rows
    let written := looped.created ++ looped.updated ++ resolved.map (·.id)
    if (written.filterMap (object rows)).all fun row =>
        columnsFit database.checksLengths row.workflowId row.taskTemplateId row.fields then
      Except.ok (some (({
          records := ordered WorkflowTask.order rows
          created := looped.created.filterMap (object rows)
          updated := looped.updated.filterMap (object rows)
          resolved := (resolved.map (·.id)).filterMap (object rows)
          unchanged := (looped.unchanged.filter fun id => !(resolved.map (·.id)).contains id).filterMap (object rows) } :
            SyncResult Payload Response),
        committed database.tasks rows))
    else .error DatabaseError.integrity) = _
  have rows : (resolvedRows database call conversation call.taskPayloads).foldl (put (·.id))
      (afterInSql database call conversation call.taskPayloads).rows = finalRows database call conversation call.taskPayloads :=
    foldl_completed sync.keyed.ids (List.Perm.refl _) fun _ => rfl
  have completed : ((afterInSql database call conversation call.taskPayloads).rows.filter
      (superseded call (afterInSql database call conversation call.taskPayloads).requested)).map (completedTask call) =
        resolvedRows database call conversation call.taskPayloads := rfl
  simp only [byTemplate_rows,completed,rows,resolvedRows_shown,unchanged_sql]
  rfl

theorem syncInMemory_eq (found : getConversation database.store call.auth call.conversationId = some conversation)
    (belongs : runBelongs database.store call.auth conversation call.runId = true) :
    syncInMemory database.toRows call =
      some (resultInMemory database call conversation call.taskPayloads,tableInMemory database call conversation call.taskPayloads) := by
  have sync := (history_after database call conversation call.taskPayloads).sync
  have keyed := sync.keyed.perm sync.perm
  unfold syncInMemory
  rw [found]
  rw [runBelongs] at belongs
  simp only [belongs,if_true]
  change (let looped := afterInMemory database call conversation call.taskPayloads
    let resolved := (looped.byTemplate.filter (superseded call looped.requested)).map (completedTask call)
    some (({
        records := ordered WorkflowTask.order (resolved.foldl (put (·.taskTemplateId)) looped.byTemplate)
        created := looped.created
        updated := looped.updated
        resolved
        unchanged := looped.unchanged.filter fun task => !(resolved.map (·.id)).contains task.id } : SyncResult Payload Response),
      resolved.foldl (put (·.id)) looped.tasks)) = _
  have chosen : superseded call (afterInMemory database call conversation call.taskPayloads).requested =
    supersededInMemory database call conversation call.taskPayloads := rfl
  have byTemplate : (((afterInMemory database call conversation call.taskPayloads).byTemplate.filter
      (supersededInMemory database call conversation call.taskPayloads)).map (completedTask call)).foldl (put (·.taskTemplateId))
        (afterInMemory database call conversation call.taskPayloads).byTemplate =
          (afterInMemory database call conversation call.taskPayloads).byTemplate.map
            (settled call (supersededInMemory database call conversation call.taskPayloads)) :=
    foldl_completed keyed.templates (List.Perm.refl _) fun _ => rfl
  have table : (((afterInMemory database call conversation call.taskPayloads).byTemplate.filter
      (supersededInMemory database call conversation call.taskPayloads)).map (completedTask call)).foldl (put (·.id))
        (afterInMemory database call conversation call.taskPayloads).tasks =
          tableInMemory database call conversation call.taskPayloads := by
    rw [sync.tasks,committed_foldl,foldl_completed sync.keyed.ids sync.perm.symm fun _ => rfl,tableInMemory]
    intro task isCompleted
    obtain ⟨row,isRow,rfl⟩ := mem_map.mp isCompleted
    exact mem_map.mpr ⟨row,sync.perm.mem_iff.mpr (mem_of_mem_filter isRow),rfl⟩
  simp only [chosen,byTemplate,table,unchanged_inMemory]
  rfl

theorem sync_agrees_iff : SyncAgrees (syncInSql database call) (syncInMemory database.toRows call) ↔
    ∀ conversation, getConversation database.store call.auth call.conversationId = some conversation →
      runBelongs database.store call.auth conversation call.runId = true → Regular database call conversation := by
  cases found : getConversation database.store call.auth call.conversationId with
  | none =>
    have sql : syncInSql database call = .ok none := by
      unfold syncInSql
      rw [authorizedConversation_eq,found]
    have inMemory : syncInMemory database.toRows call = none := by
      unfold syncInMemory
      rw [found]
    rw [sql,inMemory]
    simp [SyncAgrees]
  | some conversation =>
    simp only [Option.some.injEq,forall_eq']
    cases belongs : runBelongs database.store call.auth conversation call.runId with
    | false =>
      have refused := belongs
      rw [runBelongs] at refused
      have sql : syncInSql database call = .ok none := by
        unfold syncInSql
        rw [authorizedConversation_eq,found]
        simp [authorizedRun_eq,refused]
      have inMemory : syncInMemory database.toRows call = none := by
        unfold syncInMemory
        rw [found]
        simp [refused]
      rw [sql,inMemory]
      simp [SyncAgrees]
    | true =>
      rw [syncInSql_eq found belongs,syncInMemory_eq found belongs]
      have tested : ((written database call conversation call.taskPayloads).all fun row =>
          columnsFit database.checksLengths row.workflowId row.taskTemplateId row.fields) = true ↔
            ∀ task ∈ written database call conversation call.taskPayloads, Taken database task := all_eq_true
      have same := @same_iff _ Response _ _ database call conversation call.taskPayloads
      constructor
      · intro agrees _
        split at agrees
        · rename_i passed
          obtain ⟨malformed,repeated,chosen⟩ := same.mp agrees
          exact ⟨malformed,(superseded_iff call.taskPayloads).mp chosen,repeated,
            (written_iff ((current_iff call.taskPayloads).mpr repeated)).mp (tested.mp passed)⟩
        · exact agrees.elim
      · intro regular
        obtain ⟨malformed,unrequested,repeated,fits⟩ := regular rfl
        rw [if_pos (tested.mpr ((written_iff ((current_iff call.taskPayloads).mpr repeated)).mpr fits))]
        exact same.mpr ⟨malformed,repeated,(superseded_iff call.taskPayloads).mpr unrequested⟩

section Upserts
variable {call : UpsertCall Payload}
omit [DecidableEq Payload] [TaskPayload Payload]

theorem upsertInMemory_eq (found : getConversation database.store call.auth call.conversationId = some conversation) :
    upsertInMemory database.toRows call = if call.runId.all fun runId => (getRun database.store call.auth runId).isSome then
      some (upserted database.toRows call conversation,put (·.id) database.tasks (upserted database.toRows call conversation)) else
        none := by
  unfold upsertInMemory
  rw [found]

theorem upsertInSql_eq (found : getConversation database.store call.auth call.conversationId = some conversation) :
    upsertInSql database call = if runBelongs database.store call.auth conversation call.runId then
      if columnsFit database.checksLengths call.workflowId call.taskTemplateId ⟨call.status,call.stepId,call.kind⟩ then
        .ok (some (upserted database.toRows call conversation,put (·.id) database.tasks (upserted database.toRows call conversation)))
      else .error .integrity
    else .ok none := by
  unfold upsertInSql
  rw [authorizedConversation_eq,found]
  simp only [authorizedRun_eq]
  cases isTask : upsertedTask database.toRows call conversation with
  | none =>
    have missed := isTask
    rw [upsertedTask] at missed
    simp only [missed]
    have row : upserted database.toRows call conversation = {
        id := database.newId 0, conversationId := conversation.id, runId := call.runId, ownerUserId := call.auth.userId,
        workspaceId := call.auth.workspaceId, workflowId := call.workflowId, taskTemplateId := call.taskTemplateId,
        stepId := call.stepId, kind := call.kind, status := call.status, payloadJson := call.payloadJson,
        responseJson := none, createdAt := call.now, updatedAt := call.now, resolvedAt := none } := by
      rw [upserted,isTask]
      simp
    rw [row]
    rfl
  | some task =>
    have isIt := isTask
    rw [upsertedTask] at isIt
    have columns := find?_some isIt
    simp only [taskAuthorized,authorized,Bool.and_eq_true,beq_iff_eq] at columns
    obtain ⟨⟨⟨ofConversation,workflow⟩,template⟩,owner,workspace⟩ := columns
    simp only [isIt]
    have row : upserted database.toRows call conversation = { task with
        runId := call.runId, stepId := call.stepId, kind := call.kind, status := call.status,
        payloadJson := call.payloadJson, updatedAt := call.now,
        resolvedAt := if resolvedStatus call.status then task.resolvedAt else none } := by
      rw [upserted,isTask]
      simp [ofConversation,workflow,template,owner,workspace]
    rw [row]
    simp only [workflow,template]
    rfl

theorem upsert_agrees_iff : upsertInSql database call = .ok (upsertInMemory database.toRows call) ↔
    ∀ conversation, getConversation database.store call.auth call.conversationId = some conversation →
      (∀ runId, call.runId = some runId → (getRun database.store call.auth runId).isSome = true) →
        runBelongs database.store call.auth conversation call.runId = true ∧
          columnsFit database.checksLengths call.workflowId call.taskTemplateId ⟨call.status,call.stepId,call.kind⟩ = true := by
  cases found : getConversation database.store call.auth call.conversationId with
  | none =>
    have sql : upsertInSql database call = .ok none := by
      unfold upsertInSql
      rw [authorizedConversation_eq,found]
    have inMemory : upsertInMemory database.toRows call = none := by
      unfold upsertInMemory
      rw [found]
    rw [sql,inMemory]
    simp
  | some conversation =>
    simp only [Option.some.injEq,forall_eq']
    rw [upsertInSql_eq found,upsertInMemory_eq found]
    have known : (call.runId.all fun runId => (getRun database.store call.auth runId).isSome) = true ↔
        ∀ runId, call.runId = some runId → (getRun database.store call.auth runId).isSome = true := by
      cases call.runId <;> simp
    have isKnown : runBelongs database.store call.auth conversation call.runId = true →
        (call.runId.all fun runId => (getRun database.store call.auth runId).isSome) = true := by
      intro belongs
      rw [known]
      intro runId given
      rw [runBelongs,given] at belongs
      obtain ⟨run,isRun,_⟩ := Option.any_eq_true _ _ |>.mp belongs
      exact Option.isSome_iff_exists.mpr ⟨run,isRun⟩
    rw [← known]
    cases belongs : runBelongs database.store call.auth conversation call.runId with
    | false => simp
    | true =>
      rw [if_pos (isKnown belongs)]
      cases columnsFit database.checksLengths call.workflowId call.taskTemplateId ⟨call.status,call.stepId,call.kind⟩ with
      | false => simp [isKnown belongs]
      | true => simp

end Upserts

/-- The two repositories synchronise the workflow tasks alike exactly on regular payloads, and upsert a task alike
    exactly if its run belongs to the conversation and the table takes the row. -/
theorem tasks_agree_iff (database : Database Payload Response) (sync : SyncCall Payload) (upsert : UpsertCall Payload) :
    (SyncAgrees (syncInSql database sync) (syncInMemory database.toRows sync) ↔
      ∀ conversation, getConversation database.store sync.auth sync.conversationId = some conversation →
        runBelongs database.store sync.auth conversation sync.runId = true → Regular database sync conversation) ∧
    (upsertInSql database upsert = .ok (upsertInMemory database.toRows upsert) ↔
      ∀ conversation, getConversation database.store upsert.auth upsert.conversationId = some conversation →
        (∀ runId, upsert.runId = some runId → (getRun database.store upsert.auth runId).isSome = true) →
          runBelongs database.store upsert.auth conversation upsert.runId = true ∧
            columnsFit database.checksLengths upsert.workflowId upsert.taskTemplateId
              ⟨upsert.status,upsert.stepId,upsert.kind⟩ = true) :=
  ⟨sync_agrees_iff,upsert_agrees_iff⟩

/-- A payload with a title beside its four keys. -/
structure TitledPayload where
  taskTemplateId : String
  status : String
  stepId : String
  kind : String
  title : String
deriving DecidableEq

instance : TaskPayload TitledPayload where
  text payload
    | .taskTemplateId => some payload.taskTemplateId
    | .status => some payload.status
    | .stepId => some payload.stepId
    | .kind => some payload.kind
def twoConversations : Store :=
  bareStore [⟨1,1,1,none,1,1,false⟩,⟨2,1,1,none,1,1,false⟩] [⟨3,2,1,1,"completed",2,5,none,none,none,none⟩]
    (by decide) (by decide)

def withoutTasks : Database TitledPayload String where
  store := twoConversations
  tasks := []
  newId n := n + 10
  checksLengths := true
  taskIds := by decide
  templates := by simp
  owners := by simp
  fits := by simp
  newIds := add_left_injective 10
  fresh := by simp

/-- One template is requested with two titles. -/
def retitled : SyncCall TitledPayload where
  auth := ⟨1,1⟩
  conversationId := 1
  runId := none
  workflowId := "strategy_generation"
  taskPayloads := [⟨"review","pending_user","draft","approval","first"⟩,⟨"review","pending_user","draft","approval","second"⟩]
  completedSteps := []
  now := 7

/-- A task of the first conversation names the run of the second one. -/
def strayUpsert : UpsertCall TitledPayload where
  auth := ⟨1,1⟩
  conversationId := 1
  workflowId := "strategy_generation"
  taskTemplateId := "review"
  stepId := "draft"
  kind := "approval"
  status := "pending_user"
  payloadJson := ⟨"review","pending_user","draft","approval","first"⟩
  runId := some 3
  now := 7

/-- The repositories list the created task with different titles, and only one stores a task with a stray run. -/
theorem retitled_differs :
    (syncInMemory withoutTasks.toRows retitled).map (fun result => result.1.created.map (·.payloadJson.title)) = some ["first"] ∧
    (syncInSql withoutTasks retitled).toOption.map (Option.map fun result => result.1.created.map (·.payloadJson.title)) =
      some (some ["second"]) ∧
    ¬ SyncAgrees (syncInSql withoutTasks retitled) (syncInMemory withoutTasks.toRows retitled) ∧
    (upsertInMemory withoutTasks.toRows strayUpsert).isSome = true ∧ upsertInSql withoutTasks strayUpsert = .ok none := by
  have inMemory : (syncInMemory withoutTasks.toRows retitled).map (fun result => result.1.created.map (·.payloadJson.title)) =
      some ["first"] := by decide
  have inSql : (syncInSql withoutTasks retitled).toOption.map
      (Option.map fun result => result.1.created.map (·.payloadJson.title)) = some (some ["second"]) := by decide
  refine ⟨inMemory,inSql,?_,by decide,by decide⟩
  intro agrees
  unfold SyncAgrees at agrees
  split at agrees
  · rename_i _ missing
    rw [missing] at inMemory
    simp at inMemory
  · rename_i stored kept
    rw [kept] at inMemory
    rw [stored] at inSql
    simp only [Except.toOption,Option.map_some,Option.some.injEq] at inSql inMemory
    rw [agrees.1.2.1,inMemory] at inSql
    simp at inSql
  · exact agrees

end Codebot.TaskAgreement
