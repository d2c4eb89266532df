import Codebot.Continuations

/-!
Requests that continue one workflow task, beside the responses that complete it. The endpoint reads the task, folds
its continuation events and checks the result; the stream that it returns later creates a run and appends
`workflow.continuation.started` (`starts_in_turn`).
-/
namespace Codebot.ContinuationStarts
open Runs List Series Texts Snapshots WorkflowTasks WorkflowInputs WorkflowResponses Continuations

/-- The event that `append_run_event` appends, if the caller may see the run. -/
def newEvent (journal : Journal) (auth : AuthContext) (now runId : Nat) (type : EventType) (payload : EventPayload) :
    Option Event :=
  (journal.run auth runId).map fun run => {
    id := journal.events.length + 1
    runId := run.id
    conversationId := run.conversationId
    ownerUserId := run.ownerUserId
    workspaceId := run.workspaceId
    sequence := (journal.events.filter fun event => event.runId == run.id).length + 1
    type
    payload
    createdAt := now }

/-- `resolve_workflow_task` replaces the record of the task. -/
def Journal.replace (journal : Journal) (task : Task) : Journal :=
  { journal with tasks := put (·.id) journal.tasks task, taskIds := nodup_put journal.taskIds task }
/-- `create_run` with the status `running`. -/
def createRun (journal : Journal) (auth : AuthContext) (now conversationId : Nat) : Option (Nat × Journal) :=
  (journal.conversation auth conversationId).map fun conversation =>
    let runId := (journal.runs.map (·.id)).foldr max 0 + 1
    (runId,{ journal with
      runs := journal.runs ++ [⟨runId,conversation.id,auth.userId,auth.workspaceId,"running",now,now,none,none,none,none⟩] })

/-- Where a request stands: a response before its two steps, a continuation at each of its own. -/
inductive Phase
  | idle
  | responding (request : Request) (task : Task)
  | requiring (updated : Task)
  | opened (task : Task)
  | folded (task : Task) (item : Option ContinuationItem)
  | checked (task : Task)
  | created (runId : Nat)
  | streaming (runId : Nat)

/-- The rows, the clock and the requests. `ended` are the runs whose continuation has failed, gone
    stale or ended without its output at some time. -/
structure World (requests : Nat) where
  journal : Journal
  now : Nat
  phases : Fin requests → Phase
  ended : List Nat

variable {requests : Nat}
def World.setPhase (world : World requests) (r : Fin requests) (phase : Phase) : World requests :=
  { world with phases := Function.update world.phases r phase }

/-- Beside the steps of the requests, runs change their status and append other events. -/
inductive Label (requests : Nat)
  | respond (r : Fin requests) (request : Request)
  | write (r : Fin requests)
  | require (r : Fin requests)
  | openTask (r : Fin requests)
  | fold (r : Fin requests)
  | check (r : Fin requests)
  | create (r : Fin requests)
  | start (r : Fin requests)
  | close (r : Fin requests) (completed : Bool)
  | finish (r : Fin requests)
  | log (runId : Nat) (type : EventType) (payload : EventPayload)
  | setRunStatus (runId : Nat) (status : String)
  | tick (now : Nat)

/-- What a response does after its write. -/
def afterResponse (registry : Registry) (request : Request) (task updated : Task) : Phase :=
  if request.refreshes && resolvedStatus updated.status && !resolvedStatus task.status &&
      (workflowTaskContinuationState registry updated).isSome then .requiring updated
  else .idle

section
variable (unicode : Unicode) (registry : Registry) (staleAfter : Nat) (auth : AuthContext) (taskId : Nat)

/-- The event that a step appends. -/
def appended (world : World requests) : Label requests → Option Event
  | .require r =>
    match world.phases r with
    | .requiring updated => updated.runId.bind fun runId =>
      newEvent world.journal auth world.now runId .continuationRequired ⟨some updated.id,none,[]⟩
    | _ => none
  | .start r =>
    match world.phases r with
    | .created runId => newEvent world.journal auth world.now runId .continuationStarted ⟨some taskId,none,[]⟩
    | _ => none
  | .close r completed =>
    match world.phases r with
    | .streaming runId => newEvent world.journal auth world.now runId
      (if completed then .continuationCompleted else .continuationFailed) ⟨some taskId,none,[]⟩
    | _ => none
  | .log runId type payload => newEvent world.journal auth world.now runId type payload
  | _ => none

def World.append (world : World requests) (event : Option Event) : World requests :=
  { world with journal := { world.journal with events := world.journal.events ++ event.toList } }
def World.clock (world : World requests) : Clock := ⟨world.now,staleAfter⟩

/-- One call of a request, or a step beside them. -/
def advance (world : World requests) (label : Label requests) : Option (World requests) :=
  match label with
  | .respond r request =>
    match world.phases r,getWorkflowTask world.journal.tasks auth taskId with
    | .idle,some task =>
      if request.auth = auth ∧ request.taskId = taskId then
        match request.validated unicode registry task with
        | .ok _ => some (world.setPhase r (.responding request task))
        | .error _ => some world
      else none
    | .idle,none => some world
    | _,_ => none
  | .write r =>
    match world.phases r with
    | .responding request task =>
      match request.validated unicode registry task,getWorkflowTask world.journal.tasks auth taskId with
      | .ok (response,status),some stored =>
        let updated := resolvedTask status (some response) world.now stored
        some ({ world with journal := Journal.replace world.journal updated }.setPhase r
          (afterResponse registry request task updated))
      | _,_ => some (world.setPhase r .idle)
    | _ => none
  | .require r =>
    match world.phases r with
    | .requiring _ => some ((world.append (appended auth taskId world label)).setPhase r .idle)
    | _ => none
  | .openTask r =>
    match world.phases r,getWorkflowTask world.journal.tasks auth taskId with
    | .idle,some task =>
      if (workflowTaskContinuationState registry task).isSome then some (world.setPhase r (.opened task)) else some world
    | .idle,none => some world
    | _,_ => none
  | .fold r =>
    match world.phases r with
    | .opened task => some (world.setPhase r (.folded task (world.journal.continuationItem auth taskId)))
    | _ => none
  | .check r =>
    match world.phases r with
    | .folded task item =>
      some (world.setPhase r
        (if alreadyStarted unicode world.journal auth (world.clock staleAfter) task item then .idle else .checked task))
    | _ => none
  | .create r =>
    match world.phases r with
    | .checked task =>
      match createRun world.journal auth world.now task.conversationId with
      | some (runId,journal) => some ({ world with journal }.setPhase r (.created runId))
      | none => some (world.setPhase r .idle)
    | _ => none
  | .start r =>
    match world.phases r with
    | .created runId => some ((world.append (appended auth taskId world label)).setPhase r (.streaming runId))
    | _ => none
  | .close r _ =>
    match world.phases r with
    | .streaming _ => some (world.append (appended auth taskId world label))
    | _ => none
  | .finish r =>
    match world.phases r with
    | .streaming _ => some (world.setPhase r .idle)
    | _ => none
  | .log _ type _ =>
    if continuationEventTypes.contains type then none else some (world.append (appended auth taskId world label))
  | .setRunStatus runId status =>
    some { world with journal := { world.journal with
      runs := world.journal.runs.map fun run => if run.id = runId then { run with status } else run } }
  | .tick now => if world.now ≤ now then some { world with now } else none

def listed (world : World requests) : List Event := (world.journal.continuationEvents auth taskId).getD []
def startedRuns (world : World requests) : List Nat :=
  ((listed auth taskId world).filter fun event => event.type == .continuationStarted).map (·.runId)

/-- An event shows that the continuation of its run has failed, is stale, or has ended without the
    output of the task. -/
def ends (world : World requests) (event : Event) : Bool :=
  match event.type with
  | .continuationFailed => true
  | .continuationStarted => continuationStartedIsStale world.journal auth (world.clock staleAfter)
    ⟨.started,event.runId,event.createdAt,event.payload⟩
  | .continuationCompleted => (getWorkflowTask world.journal.tasks auth taskId).any fun task =>
    !(continuationMaterialized unicode world.journal auth task ⟨.completed,event.runId,event.createdAt,event.payload⟩ none).1
  | _ => false

/-- The continuation of the run is over, now or since an earlier step. -/
def isOver (world : World requests) (runId : Nat) : Bool :=
  world.ended.contains runId ||
    (listed auth taskId world).any fun event => event.runId == runId && ends unicode staleAfter auth taskId world event
/-- One step. Runs that are over before it are over from then on. -/
def step (world : World requests) (label : Label requests) : Option (World requests) :=
  (advance unicode registry staleAfter auth taskId world label).map fun next =>
    { next with ended := world.ended ++ (startedRuns auth taskId world).filter (isOver unicode staleAfter auth taskId world) }
/-- A continuation starts when every continuation that has started is over. -/
def Lone (world : World requests) : Label requests → Bool
  | .start r =>
    match world.phases r with
    | .created _ => (startedRuns auth taskId world).all (isOver unicode staleAfter auth taskId world)
    | _ => true
  | _ => true
/-- The appended event stands after the continuation events of the task. -/
def latest (world : World requests) (label : Label requests) : Bool :=
  (appended auth taskId world label).all fun event =>
    (listed auth taskId world).all fun other => decide (other.order ≤ event.order)

/-- A continuation that starts would still not be refused, and `required` is appended, and a run closes its
    continuation, when the others are over. -/
def Serial (world : World requests) : Label requests → Bool
  | .start r =>
    match world.phases r with
    | .created _ => latest auth taskId world (.start r) && (getWorkflowTask world.journal.tasks auth taskId).all fun task =>
      !alreadyStarted unicode world.journal auth (world.clock staleAfter) task (world.journal.continuationItem auth taskId)
    | _ => true
  | .require r => latest auth taskId world (.require r) &&
    (startedRuns auth taskId world).all (isOver unicode staleAfter auth taskId world)
  | .close r completed =>
    match world.phases r with
    | .streaming runId => latest auth taskId world (.close r completed) &&
      (startedRuns auth taskId world).all fun other => other == runId || isOver unicode staleAfter auth taskId world other
    | _ => true
  | _ => true

/-- Rows in which no continuation of the task was required or started yet. -/
structure Unstarted where
  journal : Journal
  unstarted : (journal.continuationEvents auth taskId).getD [] = []
def initial (requests : Nat) (rows : Unstarted auth taskId) (now : Nat) : World requests where
  journal := rows.journal
  now
  phases _ := .idle
  ended := []
/-- Every started continuation is over, or the state of the task is that of its run. -/
def Sound (world : World requests) : Prop :=
  ∀ runId ∈ startedRuns auth taskId world, isOver unicode staleAfter auth taskId world runId = true ∨
    ∃ item, world.journal.continuationItem auth taskId = some item ∧ item.status ≠ .required ∧ item.runId = runId

end

section
variable {unicode : Unicode} {registry : Registry} {staleAfter : Nat} {auth : AuthContext} {taskId : Nat}
  {world next : World requests} {label : Label requests}

theorem sound_initial (rows : Unstarted auth taskId) (now : Nat) :
    Sound unicode staleAfter auth taskId (initial auth taskId requests rows now) := by
  intro runId isStarted
  have none : listed auth taskId (initial auth taskId requests rows now) = [] := rows.unstarted
  simp [startedRuns,none] at isStarted
def owned (journal : Journal) (auth : AuthContext) (taskId : Nat) : Option (Nat × Nat) :=
  (getWorkflowTask journal.tasks auth taskId).map fun task => (task.id,task.conversationId)

theorem owned_replace {journal : Journal} {stored updated : Task}
    (found : getWorkflowTask journal.tasks auth taskId = some stored) (id : updated.id = stored.id)
    (conversation : updated.conversationId = stored.conversationId)
    (isAuthorized : taskAuthorized auth updated = taskAuthorized auth stored) :
    owned (Journal.replace journal updated) auth taskId = owned journal auth taskId := by
  have isIt : getWorkflowTask (Journal.replace journal updated).tasks auth taskId = some updated :=
    getWorkflowTask_put found id isAuthorized
  rw [owned,owned,isIt,found,Option.map_some,Option.map_some,id,conversation]

theorem advance_extends (stepped : advance unicode registry staleAfter auth taskId world label = some next) :
    next.journal.events = world.journal.events ++ (appended auth taskId world label).toList ∧
      owned next.journal auth taskId = owned world.journal auth taskId := by
  cases label with
  | respond r request =>
    simp only [advance] at stepped
    split at stepped
    · split at stepped
      · split at stepped
        · cases stepped
          simp [appended,World.setPhase]
        · cases stepped
          simp [appended]
      · cases stepped
    · cases stepped
      simp [appended]
    · cases stepped
  | write r =>
    simp only [advance] at stepped
    split at stepped
    · split at stepped
      · rename_i stored validated found
        cases stepped
        refine ⟨by simp [appended,World.setPhase,Journal.replace],?_⟩
        exact owned_replace found rfl rfl rfl
      · cases stepped
        simp [appended,World.setPhase]
    · cases stepped
  | require r =>
    simp only [advance] at stepped
    split at stepped
    · cases stepped
      exact ⟨rfl,rfl⟩
    · cases stepped
  | openTask r =>
    simp only [advance] at stepped
    split at stepped
    · split at stepped
      · cases stepped
        simp [appended,World.setPhase]
      · cases stepped
        simp [appended]
    · cases stepped
      simp [appended]
    · cases stepped
  | fold r =>
    simp only [advance] at stepped
    split at stepped
    · cases stepped
      simp [appended,World.setPhase]
    · cases stepped
  | check r =>
    simp only [advance] at stepped
    split at stepped
    · cases stepped
      simp [appended,World.setPhase]
    · cases stepped
  | create r =>
    simp only [advance] at stepped
    split at stepped
    · split at stepped
      · rename_i runId journal ran
        cases stepped
        obtain ⟨conversation,_,isNew⟩ := Option.map_eq_some_iff.mp ran
        cases isNew
        exact ⟨by simp [appended,World.setPhase],rfl⟩
      · cases stepped
        simp [appended,World.setPhase]
    · cases stepped
  | start r =>
    simp only [advance] at stepped
    split at stepped
    · cases stepped
      exact ⟨rfl,rfl⟩
    · cases stepped
  | close r completed =>
    simp only [advance] at stepped
    split at stepped
    · cases stepped
      exact ⟨rfl,rfl⟩
    · cases stepped
  | finish r =>
    simp only [advance] at stepped
    split at stepped
    · cases stepped
      simp [appended,World.setPhase]
    · cases stepped
  | log runId type payload =>
    simp only [advance] at stepped
    split at stepped
    · cases stepped
    · cases stepped
      exact ⟨rfl,rfl⟩
  | setRunStatus runId status =>
    cases stepped
    exact ⟨by simp [appended],rfl⟩
  | tick now =>
    simp only [advance] at stepped
    split at stepped
    · cases stepped
      simp [appended]
    · cases stepped

def concerned (auth : AuthContext) (taskId : Nat) (world : World requests) (event : Event) : Bool :=
  (getWorkflowTask world.journal.tasks auth taskId).any fun task => concerns auth task event

theorem listed_next (stepped : advance unicode registry staleAfter auth taskId world label = some next)
    (isLatest : ∀ event, appended auth taskId world label = some event → concerned auth taskId world event = true →
      ∀ other ∈ listed auth taskId world, other.order ≤ event.order) :
    listed auth taskId next =
      listed auth taskId world ++ ((appended auth taskId world label).filter (concerned auth taskId world)).toList := by
  obtain ⟨events,isOwned⟩ := advance_extends stepped
  unfold listed Journal.continuationEvents at *
  cases found : getWorkflowTask world.journal.tasks auth taskId with
  | none =>
    have alsoNone : getWorkflowTask next.journal.tasks auth taskId = none := by
      simpa [owned,found] using isOwned
    have nothing : (appended auth taskId world label).filter (concerned auth taskId world) = none := by
      apply Option.filter_eq_none_iff.mpr
      intro event _
      simp [concerned,found]
    rw [alsoNone,nothing]
    rfl
  | some task =>
    obtain ⟨after,isAfter,same⟩ : ∃ after, getWorkflowTask next.journal.tasks auth taskId = some after ∧
        (after.id,after.conversationId) = (task.id,task.conversationId) := by
      rw [owned,owned,found] at isOwned
      exact Option.map_eq_some_iff.mp isOwned
    obtain ⟨id,conversation⟩ := Prod.mk.inj same
    have sameEvents : concerns auth after = concerns auth task := by
      funext event
      rw [concerns,concerns,id,conversation]
    rw [found] at isLatest
    simp only [isAfter,Option.map_some,Option.getD_some,sameEvents,events,filter_append] at isLatest ⊢
    cases isNew : appended auth taskId world label with
    | none => simp
    | some event =>
      cases isConcerned : concerns auth task event with
      | false => simp [concerned,found,isConcerned]
      | true =>
        have last := isLatest event isNew (by simp [concerned,found,isConcerned])
        simp only [Option.toList_some,filter_cons,isConcerned,if_true,filter_nil,concerned,found,Option.any_some,
          Option.filter_some]
        exact ordered_append fun other member => last other (mem_ordered.mpr member)

theorem over_next (stepped : step unicode registry staleAfter auth taskId world label = some next) {runId : Nat}
    (isStarted : runId ∈ startedRuns auth taskId world) (isOver' : isOver unicode staleAfter auth taskId world runId = true) :
    isOver unicode staleAfter auth taskId next runId = true := by
  obtain ⟨after,_,rfl⟩ := Option.map_eq_some_iff.mp stepped
  rw [isOver,Bool.or_eq_true,contains_iff_mem]
  exact .inl (mem_append_right _ (mem_filter.mpr ⟨isStarted,isOver'⟩))

theorem sound_unchanged (sound : Sound unicode staleAfter auth taskId world)
    (stepped : step unicode registry staleAfter auth taskId world label = some next)
    (same : listed auth taskId next = listed auth taskId world) : Sound unicode staleAfter auth taskId next := by
  intro runId isStarted
  rw [startedRuns,same] at isStarted
  rcases sound runId isStarted with isIt | ⟨item,found,facts⟩
  · exact .inl (over_next stepped isStarted isIt)
  · refine .inr ⟨item,?_,facts⟩
    rw [Journal.continuationItem] at found ⊢
    rw [listed] at same
    rw [same]
    exact found

theorem sound_event (stepped : step unicode registry staleAfter auth taskId world label = some next) {event : Event}
    {status : ContinuationStatus} (type : event.type.continuationStatus = some status)
    (names : event.payload.taskId = some taskId) (extended : listed auth taskId next = listed auth taskId world ++ [event])
    (cleared : ∀ runId ∈ startedRuns auth taskId world, isOver unicode staleAfter auth taskId world runId = true ∨
      status ≠ .required ∧ runId = event.runId) : Sound unicode staleAfter auth taskId next := by
  have item : next.journal.continuationItem auth taskId = some ⟨status,event.runId,event.createdAt,event.payload⟩ := by
    rw [listed] at extended
    rw [Journal.continuationItem,extended,continuationEventsByTask_append]
    simp only [names,type]
    exact Finmap.lookup_insert _
  intro runId isStarted
  rw [startedRuns,extended,filter_append,map_append,mem_append] at isStarted
  rcases isStarted with earlier | isNew
  · rcases cleared runId earlier with isIt | ⟨notRequired,rfl⟩
    · exact .inl (over_next stepped earlier isIt)
    · exact .inr ⟨_,item,notRequired,rfl⟩
  · obtain ⟨other,chosen,rfl⟩ := mem_map.mp isNew
    obtain ⟨isEvent,started⟩ := mem_filter.mp chosen
    cases mem_singleton.mp isEvent
    refine .inr ⟨_,item,?_,rfl⟩
    rw [eq_of_beq started] at type
    cases type
    exact fun same => by cases same

theorem over_of_accepted {task : Task} {item : ContinuationItem} (found : getWorkflowTask world.journal.tasks auth taskId = some task)
    (isItem : world.journal.continuationItem auth taskId = some item) (notRequired : item.status ≠ .required)
    (accepted : alreadyStarted unicode world.journal auth (world.clock staleAfter) task (some item) = false) :
    isOver unicode staleAfter auth taskId world item.runId = true := by
  obtain ⟨event,isListed,_,status,runId,createdAt,payload⟩ := item_of_event isItem
  have ended : ends unicode staleAfter auth taskId world event = true → isOver unicode staleAfter auth taskId world item.runId = true := by
    intro isEnd
    rw [isOver,Bool.or_eq_true]
    exact .inr (any_eq_true.mpr ⟨event,isListed,by simp [isEnd,runId]⟩)
  apply ended
  cases isStatus : item.status with
  | required => exact absurd isStatus notRequired
  | failed =>
    have type : event.type = .continuationFailed := by
      rw [isStatus] at status
      revert status
      cases event.type <;> simp [EventType.continuationStatus]
    rw [ends,type]
  | started =>
    have type : event.type = .continuationStarted := by
      rw [isStatus] at status
      revert status
      cases event.type <;> simp [EventType.continuationStatus]
    have same : item = ⟨.started,event.runId,event.createdAt,event.payload⟩ := by
      rw [← isStatus,← runId,← createdAt,← payload]
    simp only [alreadyStarted,continuationRetryable,isStatus,Bool.not_eq_false',Bool.and_eq_true] at accepted
    rw [ends,type]
    exact same ▸ accepted.2
  | completed =>
    have type : event.type = .continuationCompleted := by
      rw [isStatus] at status
      revert status
      cases event.type <;> simp [EventType.continuationStatus]
    have same : item = ⟨.completed,event.runId,event.createdAt,event.payload⟩ := by
      rw [← isStatus,← runId,← createdAt,← payload]
    simp only [alreadyStarted,isStatus] at accepted
    rw [ends,type]
    simp only [found,Option.any_some,Bool.not_eq_true']
    exact same ▸ accepted

theorem lone_of_serial (sound : Sound unicode staleAfter auth taskId world) {r : Fin requests} {runId : Nat}
    (isCreated : world.phases r = .created runId) (serial : Serial unicode staleAfter auth taskId world (.start r) = true) :
    (startedRuns auth taskId world).all (isOver unicode staleAfter auth taskId world) = true := by
  simp only [Serial,isCreated,Bool.and_eq_true] at serial
  rw [all_eq_true]
  intro other isStarted
  rcases sound other isStarted with isIt | ⟨item,isItem,notRequired,rfl⟩
  · exact isIt
  · cases found : getWorkflowTask world.journal.tasks auth taskId with
    | none => simp [startedRuns,listed,Journal.continuationEvents,found] at isStarted
    | some task =>
      have accepted := serial.2
      rw [found,isItem] at accepted
      exact over_of_accepted found isItem notRequired (by simpa using accepted)

theorem latest_of {label : Label requests} (isLatest : latest auth taskId world label = true) :
    ∀ event, appended auth taskId world label = some event → concerned auth taskId world event = true →
      ∀ other ∈ listed auth taskId world, other.order ≤ event.order := by
  intro event isNew _ other isListed
  rw [latest,isNew,Option.all_some,all_eq_true] at isLatest
  exact of_decide_eq_true (isLatest other isListed)
theorem newEvent_facts {journal : Journal} {now runId : Nat} {type : EventType} {payload : EventPayload} {event : Event}
    (isNew : newEvent journal auth now runId type payload = some event) :
    event.type = type ∧ event.payload = payload ∧ event.runId = runId := by
  obtain ⟨run,isRun,rfl⟩ := Option.map_eq_some_iff.mp isNew
  have found := (Option.filter_eq_some_iff.mp isRun).1
  exact ⟨rfl,rfl,by simpa using find?_some found⟩
theorem concerned_facts {event : Event} (isConcerned : concerned auth taskId world event = true) :
    continuationEventTypes.contains event.type = true ∧ event.payload.taskId = some taskId := by
  obtain ⟨task,found,concern⟩ := Option.any_eq_true _ _ |>.mp isConcerned
  simp only [concerns,Bool.and_eq_true,beq_iff_eq] at concern
  exact ⟨concern.1.2,by rw [concern.2,(getWorkflowTask_some found).2]⟩

theorem sound_of_cleared (sound : Sound unicode staleAfter auth taskId world)
    (stepped : step unicode registry staleAfter auth taskId world label = some next)
    (isLatest : ∀ event, appended auth taskId world label = some event → concerned auth taskId world event = true →
      ∀ other ∈ listed auth taskId world, other.order ≤ event.order)
    (cleared : ∀ event status, appended auth taskId world label = some event → concerned auth taskId world event = true →
      event.type.continuationStatus = some status → ∀ runId ∈ startedRuns auth taskId world,
        isOver unicode staleAfter auth taskId world runId = true ∨ status ≠ .required ∧ runId = event.runId) :
    Sound unicode staleAfter auth taskId next := by
  obtain ⟨after,advanced,isNext⟩ := Option.map_eq_some_iff.mp stepped
  have extended := listed_next advanced isLatest
  have sameListed : listed auth taskId next = listed auth taskId after := by
    rw [← isNext]
    rfl
  rw [← sameListed] at extended
  cases chosen : (appended auth taskId world label).filter (concerned auth taskId world) with
  | none =>
    rw [chosen] at extended
    exact sound_unchanged sound stepped (by simpa using extended)
  | some event =>
    rw [chosen] at extended
    obtain ⟨isNew,isConcerned⟩ := Option.filter_eq_some_iff.mp chosen
    obtain ⟨isType,names⟩ := concerned_facts isConcerned
    obtain ⟨status,type⟩ : ∃ status, event.type.continuationStatus = some status := by
      revert isType
      cases event.type <;> simp [continuationEventTypes,EventType.continuationStatus]
    exact sound_event stepped type names extended (cleared event status isNew isConcerned type)

theorem sound_step (sound : Sound unicode staleAfter auth taskId world)
    (serial : Serial unicode staleAfter auth taskId world label = true)
    (stepped : step unicode registry staleAfter auth taskId world label = some next) :
    Sound unicode staleAfter auth taskId next := by
  have silent : appended auth taskId world label = none → Sound unicode staleAfter auth taskId next := by
    intro nothing
    apply sound_of_cleared sound stepped
    · intro event isNew
      rw [nothing] at isNew
      cases isNew
    · intro event status isNew
      rw [nothing] at isNew
      cases isNew
  cases label with
  | require r =>
    simp only [Serial,Bool.and_eq_true,all_eq_true] at serial
    exact sound_of_cleared sound stepped (latest_of serial.1) fun _ _ _ _ _ runId isStarted => .inl (serial.2 runId isStarted)
  | start r =>
    cases isCreated : world.phases r with
    | created runId =>
      have alone := all_eq_true.mp (lone_of_serial sound isCreated serial)
      simp only [Serial,isCreated,Bool.and_eq_true] at serial
      exact sound_of_cleared sound stepped (latest_of serial.1) fun _ _ _ _ _ other isStarted => .inl (alone other isStarted)
    | _ => exact silent (by simp [appended,isCreated])
  | close r completed =>
    cases isStreaming : world.phases r with
    | streaming runId =>
      simp only [Serial,isStreaming,Bool.and_eq_true,all_eq_true,Bool.or_eq_true,beq_iff_eq] at serial
      apply sound_of_cleared sound stepped (latest_of serial.1)
      intro event status isNew _ type other isStarted
      simp only [appended,isStreaming] at isNew
      obtain ⟨isType,_,isRun⟩ := newEvent_facts isNew
      rcases serial.2 other isStarted with same | isIt
      · refine .inr ⟨?_,same.trans isRun.symm⟩
        rintro rfl
        rw [isType] at type
        cases completed <;> simp [EventType.continuationStatus] at type
      · exact .inl isIt
    | _ => exact silent (by simp [appended,isStreaming])
  | log runId type payload =>
    obtain ⟨after,advanced,_⟩ := Option.map_eq_some_iff.mp stepped
    simp only [advance] at advanced
    split at advanced
    · cases advanced
    · rename_i notListed
      have unconcerned : ∀ event, appended auth taskId world (.log runId type payload) = some event →
          concerned auth taskId world event = true → False := by
        intro event isNew isConcerned
        rw [← (newEvent_facts isNew).1] at notListed
        exact notListed (concerned_facts isConcerned).1
      apply sound_of_cleared sound stepped
      · intro event isNew isConcerned
        exact (unconcerned event isNew isConcerned).elim
      · intro event status isNew isConcerned
        exact (unconcerned event isNew isConcerned).elim
  | respond r request => exact silent rfl
  | write r => exact silent rfl
  | openTask r => exact silent rfl
  | fold r => exact silent rfl
  | check r => exact silent rfl
  | create r => exact silent rfl
  | finish r => exact silent rfl
  | setRunStatus runId status => exact silent rfl
  | tick now => exact silent rfl

end

/-- In every run of serial steps each continuation of the task starts after every earlier one has
    failed, gone stale or ended without the output. -/
theorem starts_in_turn (unicode : Unicode) (registry : Registry) (staleAfter : Nat) (auth : AuthContext) (taskId now : Nat)
    (rows : Unstarted auth taskId) (labels : List (Label requests))
    (serial : Meets (step unicode registry staleAfter auth taskId) (fun world label =>
      Serial unicode staleAfter auth taskId world label = true) (initial auth taskId requests rows now) labels) :
    Meets (step unicode registry staleAfter auth taskId) (fun world label =>
      Lone unicode staleAfter auth taskId world label = true) (initial auth taskId requests rows now) labels := by
  refine @meets_mono _ _ _ _ (Sound unicode staleAfter auth taskId) _ (fun _ _ _ => sound_step) ?_ _ (sound_initial rows now) _
    serial
  intro world label sound serial
  cases label with
  | start r =>
    simp only [Lone]
    cases isCreated : world.phases r with
    | created runId => exact lone_of_serial sound isCreated serial
    | _ => rfl
  | _ => rfl

def awaitingReview : Unstarted ⟨1,1⟩ 7 where
  journal := ⟨reviewedSpec.store.conversations,reviewedSpec.store.runs,reviewedSpec.tasks,[],reviewedSpec.taskIds⟩
  unstarted := rfl
/-- A response completes the task, and `required` is appended. -/
def completing (r : Fin requests) : List (Label requests) :=
  [.respond r (.response ⟨1,1⟩ 7 (Finmap.singleton "next_after_strategy_spec" (.text (text "generate_pine"))) none .completed),
    .write r,.require r]
/-- The continuation fails, and a second one starts. -/
def failingOnce (first second : Fin requests) : List (Label requests) :=
  [.openTask first,.fold first,.check first,.create first,.start first,.close first false,
    .openTask second,.fold second,.check second,.create second,.start second]
theorem starts_in_turn_sample : Meets (step ascii workflowDefinitions 120 ⟨1,1⟩ 7) (fun world label =>
    Lone ascii 120 ⟨1,1⟩ 7 world label = true) (initial ⟨1,1⟩ 7 2 awaitingReview 10) (completing 0 ++ failingOnce 0 1) :=
  starts_in_turn ascii workflowDefinitions 120 ⟨1,1⟩ 7 10 awaitingReview (completing 0 ++ failingOnce 0 1) (by decide)
/-- Two requests pass the check before either of them has started. -/
def overlapping (first second : Fin requests) : List (Label requests) :=
  [.openTask first,.openTask second,.fold first,.fold second,.check first,.check second,.create first,.create second,
    .start first,.start second]

/-- The second continuation starts while the first one goes on. -/
theorem started_twice : ¬ ∀ (requests : Nat) (unicode : Unicode) (registry : Registry) (staleAfter : Nat) (auth : AuthContext)
    (taskId now : Nat) (rows : Unstarted auth taskId) (labels : List (Label requests)),
    Meets (step unicode registry staleAfter auth taskId) (fun world label =>
      Lone unicode staleAfter auth taskId world label = true) (initial auth taskId requests rows now) labels := by
  intro always
  have meets := always 2 ascii workflowDefinitions 120 ⟨1,1⟩ 7 10 awaitingReview (completing 0 ++ overlapping 0 1)
  revert meets
  decide

end Codebot.ContinuationStarts
