import Codebot.WorkflowResponses

/-!
Partial responses to one workflow task at the same time. Each reads the task, merges its answers into the values that
it read, and writes the merged values over what is stored then. The run carries, for every input, the answer of the
last response that was accepted (`answers_kept_iff`).
-/
namespace Codebot.WorkflowAnswers
open Runs Series Texts Snapshots WorkflowInputs WorkflowResponses
variable {requests : Nat}

/-- The repository calls of partial responses to one task. -/
inductive Label (requests : Nat)
  | arrive (r : Fin requests) (values : Values) (actionId : Option String) (status : RequestedStatus)
  | write (r : Fin requests) (now : Nat)
/-- The tables, and the last accepted answer for every input. -/
structure Answering (requests : Nat) where
  world : World requests
  answered : Values
def start (requests : Nat) (stored : Stored) : Answering requests := ⟨initial requests stored,∅⟩

section
variable (auth : AuthContext) (taskId : Nat)

/-- The call as one of `step`. -/
def Label.call : Label requests → WorkflowResponses.Label requests
  | .arrive r values actionId status => .arrive r (.response auth taskId values actionId status)
  | .write r now => .write r now
def storedValues (world : World requests) : Values :=
  (getWorkflowTask world.tasks auth taskId).elim ∅ fun task => task.responseJson.elim ∅ (·.values)

variable (unicode : Unicode) (registry : Registry)

/-- The task that an accepted response has read, and its answers. -/
def accepted (world : World requests) : Label requests → Option (Task × Values)
  | .arrive .. => none
  | .write r _ =>
    match world.phases r,getWorkflowTask world.tasks auth taskId with
    | .read (.response _ _ values actionId _) task,some _ =>
      match answeredValues unicode registry task values actionId true with
      | .ok answers => some (task,answers)
      | .error _ => none
    | _,_ => none

def step (state : Answering requests) (label : Label requests) : Option (Answering requests) :=
  (WorkflowResponses.step unicode registry state.world (label.call auth taskId)).map fun world =>
    ⟨world,((accepted auth taskId unicode registry state.world label).elim ∅ (·.2)) ∪ state.answered⟩
def Lossless (state : Answering requests) : Prop :=
  ∀ input answer, state.answered.lookup input = some answer → (storedValues auth taskId state.world).lookup input = some answer
/-- A response that is accepted has read the stored value of each input that was answered before
    and that it does not answer. -/
def Current (state : Answering requests) (label : Label requests) : Prop :=
  ∀ task answers, accepted auth taskId unicode registry state.world label = some (task,answers) →
    ∀ input ∈ state.answered, input ∉ answers →
      (existingTaskValues task).lookup input = (storedValues auth taskId state.world).lookup input
def Responding (world : World requests) : Prop :=
  ∀ r request task, world.phases r = .read request task →
    ∃ values actionId status, request = .response auth taskId values actionId status

end

section
variable {auth : AuthContext} {taskId : Nat} {unicode : Unicode} {registry : Registry}

theorem validated_error {task : Task} {values : Values} {actionId : Option String} {message : String}
    (refused : answeredValues unicode registry task values actionId true = .error message) (status : RequestedStatus) :
    (Request.response auth taskId values actionId status).validated unicode registry task = .error message := by
  simp only [Request.validated,validateWorkflowTaskResponse,refused]
  rfl
theorem validated_ok {task : Task} {values answers : Values} {actionId : Option String}
    (isOk : answeredValues unicode registry task values actionId true = .ok answers) (status : RequestedStatus) :
    ∃ response newStatus, (Request.response auth taskId values actionId status).validated unicode registry task =
      .ok (response,newStatus) ∧ response.values = answers ∪ existingTaskValues task := by
  simp only [Request.validated,validateWorkflowTaskResponse,isOk]
  exact ⟨_,_,rfl,rfl⟩

theorem storedValues_put {world : World requests} {stored : Task} (found : getWorkflowTask world.tasks auth taskId = some stored)
    (status : String) (response : Response) (now : Nat) (r : Fin requests) (phase : Phase) :
    storedValues auth taskId ({ world with
      tasks := put (·.id) world.tasks (resolvedTask status (some response) now stored) }.setPhase r phase) =
        response.values := by
  have isIt : getWorkflowTask (put (·.id) world.tasks (resolvedTask status (some response) now stored)) auth taskId =
      some (resolvedTask status (some response) now stored) := getWorkflowTask_put found rfl rfl
  change (getWorkflowTask (put (·.id) world.tasks (resolvedTask status (some response) now stored)) auth taskId).elim ∅
    (fun task => task.responseJson.elim ∅ (·.values)) = response.values
  rw [isIt]
  rfl

variable {state next : Answering requests} {label : Label requests}
theorem responding_start (stored : Stored) : Responding auth taskId (initial requests stored) := by
  intro r request task isRead
  cases isRead

theorem Responding.setPhase {world : World requests} (responding : Responding auth taskId world) {r : Fin requests}
    {phase : Phase} (own : ∀ request task, phase = .read request task →
      ∃ values actionId status, request = .response auth taskId values actionId status) :
    Responding auth taskId (world.setPhase r phase) := by
  intro other request task isRead
  by_cases same : other = r
  · subst same
    rw [setPhase_self] at isRead
    exact own request task isRead
  · rw [setPhase_other world same] at isRead
    exact responding other request task isRead

theorem responding_step (responding : Responding auth taskId state.world)
    (stepped : step auth taskId unicode registry state label = some next) : Responding auth taskId next.world := by
  obtain ⟨world,called,rfl⟩ := Option.map_eq_some_iff.mp stepped
  cases label with
  | arrive r values actionId status =>
    simp only [Label.call,WorkflowResponses.step] at called
    split at called
    · split at called
      · cases called
        refine responding.setPhase ?_
        rintro _ _ ⟨rfl,rfl⟩
        exact ⟨values,actionId,status,rfl⟩
      · cases called
        exact responding
    · cases called
      exact responding
    · cases called
  | write r now =>
    have done : ∀ (request : Request) (updated : Task) (other : Request) (task : Task),
        afterWrite request updated ≠ .read other task := by
      intro request updated other task
      unfold afterWrite
      split
      · exact fun same => by cases same
      · exact fun same => by cases same
    have idle : ∀ request task, Phase.idle = .read request task →
        ∃ values actionId status, request = .response auth taskId values actionId status := by
      intro request task isRead
      cases isRead
    simp only [Label.call,WorkflowResponses.step] at called
    split at called
    · split at called
      · split at called
        · rename_i updated tasks resolved
          cases called
          have others : Responding auth taskId { state.world with tasks } := responding
          refine others.setPhase ?_
          intro request task isRead
          exact absurd isRead (done _ _ request task)
        · cases called
          exact responding.setPhase idle
      · cases called
        exact responding.setPhase idle
    · cases called

theorem lossless_same {world : World requests} (lossless : Lossless auth taskId state) (tasks : world.tasks = state.world.tasks) :
    Lossless auth taskId ⟨world,∅ ∪ state.answered⟩ := by
  intro input answer isAnswered
  rw [Finmap.empty_union] at isAnswered
  rw [storedValues,tasks]
  exact lossless input answer isAnswered

theorem merged_iff {answers answered existing stored : Values}
    (lossless : ∀ input answer, answered.lookup input = some answer → stored.lookup input = some answer) :
    (∀ input answer, (answers ∪ answered).lookup input = some answer → (answers ∪ existing).lookup input = some answer) ↔
      ∀ input ∈ answered, input ∉ answers → existing.lookup input = stored.lookup input := by
  constructor
  · intro merged input isAnswered isNew
    obtain ⟨answer,found⟩ := Finmap.mem_iff.mp isAnswered
    have kept := merged input answer (by rw [Finmap.lookup_union_right isNew,found])
    rw [Finmap.lookup_union_right isNew] at kept
    rw [kept,lossless input answer found]
  · intro current input answer found
    by_cases isNew : input ∈ answers
    · rw [Finmap.lookup_union_left isNew] at found ⊢
      exact found
    · rw [Finmap.lookup_union_right isNew] at found ⊢
      rw [current input (Finmap.mem_of_lookup_eq_some found) isNew]
      exact lossless input answer found

theorem lossless_iff (responding : Responding auth taskId state.world) (lossless : Lossless auth taskId state)
    (label : Label requests) :
    (∀ next, step auth taskId unicode registry state label = some next → Lossless auth taskId next) ↔
      Current auth taskId unicode registry state label := by
  cases label with
  | arrive r values actionId status =>
    refine iff_of_true ?_ ?_
    · intro next stepped
      obtain ⟨world,called,rfl⟩ := Option.map_eq_some_iff.mp stepped
      apply lossless_same lossless
      simp only [Label.call,WorkflowResponses.step] at called
      split at called
      · split at called
        · cases called
          rfl
        · cases called
          rfl
      · cases called
        rfl
      · cases called
    · intro task answers isAccepted
      cases isAccepted
  | write r now =>
    cases isRead : state.world.phases r with
    | idle => simp [step,Current,Label.call,WorkflowResponses.step,accepted,isRead]
    | refreshing auth task => simp [step,Current,Label.call,WorkflowResponses.step,accepted,isRead]
    | read request task =>
      obtain ⟨values,actionId,status,rfl⟩ := responding r request task isRead
      cases answered : answeredValues unicode registry task values actionId true with
      | error message =>
        have refused := @validated_error auth taskId unicode registry _ _ _ _ answered status
        have notAccepted : accepted auth taskId unicode registry state.world (.write r now) = none := by
          cases found : getWorkflowTask state.world.tasks auth taskId with
          | none => simp only [accepted,isRead,found]
          | some stored => simp only [accepted,isRead,found,answered]
        refine iff_of_true ?_ ?_
        · intro next stepped
          simp only [step,Label.call,WorkflowResponses.step,isRead,refused,notAccepted,Option.map_some,Option.some.injEq,
            Option.elim_none] at stepped
          subst stepped
          exact lossless_same lossless rfl
        · intro task answers isAccepted
          rw [notAccepted] at isAccepted
          cases isAccepted
      | ok answers =>
        obtain ⟨response,newStatus,validated,merged⟩ := @validated_ok auth taskId unicode registry _ _ _ _ answered status
        cases found : getWorkflowTask state.world.tasks auth taskId with
        | none =>
          have notAccepted : accepted auth taskId unicode registry state.world (.write r now) = none := by
            simp only [accepted,isRead,found]
          refine iff_of_true ?_ ?_
          · intro next stepped
            simp only [step,Label.call,WorkflowResponses.step,isRead,validated,resolveWorkflowTask,Request.auth,
              Request.taskId,found,notAccepted,Option.map_none,Option.map_some,Option.some.injEq,Option.elim_none] at stepped
            subst stepped
            exact lossless_same lossless rfl
          · intro task answers isAccepted
            rw [notAccepted] at isAccepted
            cases isAccepted
        | some stored =>
          have isAccepted : accepted auth taskId unicode registry state.world (.write r now) = some (task,answers) := by
            simp only [accepted,isRead,found,answered]
          simp only [step,Label.call,WorkflowResponses.step,isRead,validated,resolveWorkflowTask,Request.auth,
            Request.taskId,found,isAccepted,Option.map_some,Option.some.injEq,Option.elim_some,forall_eq',Current,
            Prod.mk.injEq,and_imp]
          rw [Lossless,storedValues_put found,merged]
          rw [merged_iff lossless]
          constructor
          · rintro current _ _ rfl rfl
            exact current
          · intro current
            exact current task answers rfl rfl

end

/-- No answer is lost in any state of exactly the runs whose writes have read what is stored. -/
theorem answers_kept_iff (unicode : Unicode) (registry : Registry) (stored : Stored) (auth : AuthContext) (taskId : Nat)
    (labels : List (Label requests)) :
    (∀ before after state, labels = before ++ after →
        run (step auth taskId unicode registry) (start requests stored) before = some state → Lossless auth taskId state) ↔
      Meets (step auth taskId unicode registry) (Current auth taskId unicode registry) (start requests stored) labels := by
  refine holds_iff (fun _ _ _ => responding_step) (fun _ label responding lossless => lossless_iff responding lossless label)
    (responding_start stored) ?_
  intro input answer isAnswered
  rw [start,Finmap.lookup_empty] at isAnswered
  cases isAnswered

/-- A conversation that asks for the strategy inputs. -/
def strategyInputs : Stored where
  store := reviewedSpec.store
  tasks := [{
    id := 7
    conversationId := 1
    runId := some 3
    ownerUserId := 1
    workspaceId := 1
    workflowId := "strategy_bot_simulation"
    taskTemplateId := "collect_strategy_inputs"
    stepId := "collect_strategy_inputs"
    kind := "input_request"
    status := "pending_user"
    payloadJson := {
      taskTemplateId := some "collect_strategy_inputs"
      status := some "pending_user"
      stepId := some "collect_strategy_inputs"
      kind := some "input_request"
      inputRequestIds := ["market","symbol"]
      actionIds := []
      inputRequests := []
      actions := []
      values := ∅
      rest := "" }
    responseJson := none
    createdAt := 4
    updatedAt := 4
    resolvedAt := none }]
  taskIds := List.nodup_singleton _

/-- Two responses read the task, then each writes its own answer. -/
def answeredApart (first second : Fin requests) : List (Label requests) :=
  [.arrive first (Finmap.singleton "market" (.text (text "crypto"))) none .completed,
    .arrive second (Finmap.singleton "symbol" (.text (text "BTCUSDT"))) none .completed,.write first 5,.write second 6]

/-- The second write takes the answer of the first one away. -/
theorem first_answer_lost : ¬ ∀ (requests : Nat) (unicode : Unicode) (registry : Registry) (stored : Stored) (auth : AuthContext)
    (taskId : Nat) (labels : List (Label requests)) (state : Answering requests),
    run (step auth taskId unicode registry) (start requests stored) labels = some state → Lossless auth taskId state := by
  intro always
  have ends : (run (step ⟨1,1⟩ 7 ascii workflowDefinitions) (start 2 strategyInputs) (answeredApart 0 1)).map
      (fun state => (state.answered.lookup "market",(storedValues ⟨1,1⟩ 7 state.world).lookup "market")) =
        some (some (.text (text "crypto")),none) := by decide
  obtain ⟨state,ran,values⟩ := Option.map_eq_some_iff.mp ends
  obtain ⟨isAnswered,isLost⟩ := Prod.mk.inj values
  have kept := always 2 ascii workflowDefinitions strategyInputs ⟨1,1⟩ 7 _ state ran _ _ isAnswered
  rw [isLost] at kept
  cases kept

end Codebot.WorkflowAnswers
