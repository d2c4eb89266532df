import Codebot.AgentLoops
import Mathlib.Data.List.Range

/-!
What any run of the bounded agent loop keeps to. It records `llm.started`, `agent_loop.llm_completed` and
`llm.completed` once for every iteration, in this order, and `agent_loop.completed` once after them. It stays within
its iterations and its calls of tools, no tool runs that a gate rejects, and none runs after a call that was blocked
or failed (`loop_bounded`).
-/
namespace Codebot.AgentBudgets
open Texts Effects AgentLoops List

variable {Arguments Output Seconds : Type}
/-- What an event says of the calls of the model, and of the end of the loop. -/
inductive Mark
  | llmStarted (attempt : Option Nat)
  | loopLlmCompleted (iteration : Option Nat)
  | llmCompleted (attempt : Option Nat)
  | loopCompleted
def mark (event : ToolEvent) : Option Mark :=
  match event.eventType with
  | .llmStarted => some (.llmStarted event.attempt)
  | .agentLoopLlmCompleted => some (.loopLlmCompleted event.iteration)
  | .llmCompleted => some (.llmCompleted event.attempt)
  | .agentLoopCompleted => some .loopCompleted
  | _ => none
def paired (attempt : Nat) : List Mark := [.llmStarted (some attempt),.loopLlmCompleted (some attempt),.llmCompleted (some attempt)]
def closedMarks (iterations : Nat) : List Mark := (List.range' 1 iterations).flatMap paired
def openMarks (iterations : Nat) : List Mark := closedMarks iterations ++ [.llmStarted (some (iterations + 1))]
theorem closedMarks_succ (iterations : Nat) :
    closedMarks (iterations + 1) =
      openMarks iterations ++ [.loopLlmCompleted (some (iterations + 1)),.llmCompleted (some (iterations + 1))] := by
  rw [closedMarks,range'_1_concat,flatMap_append,openMarks,closedMarks,append_assoc,Nat.add_comm 1]
  rfl

section Runs
variable [EmptyCollection Arguments] (runner : AgentLoopRunner Arguments Output Seconds)

/-- A tool may run if neither the policy, the schema nor the harness rejects it. -/
structure Permitted (execution : Execution Arguments Output) : Prop where
  policy : (runner.evaluateAgentLoopToolPolicy execution.toolName (riskTier runner execution.toolName)).allowed = true
  schema : validationError runner execution.toolName execution.arguments = none
  harness : ∃ contract, runner.harness.contract execution.toolName = some contract ∧ runner.harness.blockReason contract = none

/-- What holds all through a run that begins after some events: the marks of what it has recorded, its
    bounds, and what let its tools run. -/
structure Sound (earlier : List ToolEvent) (marked : List Mark) (count : Nat) (state : LoopState Arguments Output) : Prop where
  events : ∃ more, state.events = earlier ++ more ∧ more.filterMap mark = marked
  iterations : state.iterations = count
  iterated : count ≤ runner.budget.maxIterations.toNat
  calls : state.toolCalls ≤ runner.budget.maxToolCalls.toNat
  few : state.executed.length ≤ state.toolCalls
  permitted : ∀ execution ∈ state.executed, Permitted runner execution
  unbroken : ∀ execution ∈ state.executed, ∀ result ∈ execution.after, result.status = .completed

/-- What holds as long as no call is blocked or fails. -/
structure Going (earlier : List ToolEvent) (marked : List Mark) (count : Nat) (state : LoopState Arguments Output) : Prop
    extends Sound runner earlier marked count state where
  completed : ∀ result ∈ state.toolResults, result.status = .completed

/-- What holds of the result of a run, and of the state it leaves. -/
structure Finished (earlier : List ToolEvent) (result : AgentLoopResult Output) (state : LoopState Arguments Output) : Prop where
  events : state.events = earlier ++ result.events
  paired : result.events.filterMap mark = closedMarks result.iterations ++ [.loopCompleted]
  iterations : result.iterations ≤ runner.budget.maxIterations.toNat
  calls : result.toolCalls ≤ runner.budget.maxToolCalls.toNat
  few : state.executed.length ≤ result.toolCalls
  permitted : ∀ execution ∈ state.executed, Permitted runner execution
  unbroken : ∀ execution ∈ state.executed, ∀ result ∈ execution.after, result.status = .completed

end Runs

variable {runner : AgentLoopRunner Arguments Output Seconds} {earlier : List ToolEvent} {marked : List Mark} {count : Nat}
  {state next : LoopState Arguments Output} {results : List (AgentToolResult Output)}
def Kept (holds : LoopState Arguments Output → Prop) : Prop :=
  ∀ state more, more.filterMap mark = [] → holds state → holds { state with events := state.events ++ more }
theorem event_validates (harness : ToolHarness) (earlier : Nat) (eventType : EventType) (fields : EventFields)
    (attempt : fields.attempt.all (1 ≤ ·)) (toolId : fields.toolId = none) (riskTier : fields.riskTier = none) :
    (harness.event earlier eventType fields).validates = true := by
  simp [ToolHarness.event,ToolEvent.validates,harness.named,attempt,toolId,riskTier]
theorem recordEvent_returns (harness : ToolHarness) (eventType : EventType) (fields : EventFields)
    (attempt : fields.attempt.all (1 ≤ ·)) (toolId : fields.toolId = none) (riskTier : fields.riskTier = none) :
    Returns (recordEvent harness eventType fields) state ⟨⟩
      { state with events := state.events ++ [harness.event state.events.length eventType fields] } := by
  refine returns_get.bind ?_
  rw [if_pos (event_validates harness state.events.length eventType fields attempt toolId riskTier)]
  exact returns_set

theorem recordEvent_kept (harness : ToolHarness) {eventType : EventType} (fields : EventFields) {holds : LoopState Arguments Output → Prop}
    (kept : Kept holds) (unmarked : ∀ count, mark (harness.event count eventType fields) = none) (before : holds state) :
    Ensures (recordEvent harness eventType fields) state fun _ next => holds next := by
  refine returns_get.bind_ensures ?_
  dsimp only
  split
  · refine returns_set.ensures (kept state _ ?_ before)
    rw [filterMap_cons,unmarked]
    rfl
  · exact ensures_throw before

theorem Sound.record (sound : Sound runner earlier marked count state) (more : List ToolEvent) :
    Sound runner earlier (marked ++ more.filterMap mark) count { state with events := state.events ++ more } := by
  obtain ⟨since,split,isMarked⟩ := sound.events
  exact { sound with events := ⟨since ++ more,by rw [split,append_assoc],by rw [filterMap_append,isMarked]⟩ }
theorem Sound.marks (sound : Sound runner earlier marked count state) {event : ToolEvent} {here : Mark} (isMark : mark event = some here) :
    Sound runner earlier (marked ++ [here]) count { state with events := state.events ++ [event] } := by
  have recorded := sound.record [event]
  rwa [filterMap_cons,isMark] at recorded
theorem Sound.kept : Kept (Sound runner earlier marked count) := by
  intro state more unmarked sound
  have recorded := sound.record more
  rwa [unmarked,append_nil] at recorded
theorem Going.kept : Kept (Going runner earlier marked count) :=
  fun state more unmarked going => { going with toSound := going.toSound.kept state more unmarked }

section Calls
variable {holds : LoopState Arguments Output → Prop}

theorem record_kept (harness : ToolHarness) {eventType : EventType} (contract : ToolContract) (status : Status)
    (failureClass : Option FailureClass) (error : Option EventError) (kept : Kept holds)
    (unmarked : ∀ count fields, mark (harness.event count eventType fields) = none) (before : holds state) :
    Ensures (record harness eventType contract status failureClass error) state fun _ next => holds next :=
  recordEvent_kept harness _ kept (fun count => unmarked count _) before
theorem recordBlockedTool_kept (harness : ToolHarness) (toolId reason tier : Text) (failureClass : FailureClass) (kept : Kept holds)
    (before : holds state) : Ensures (recordBlockedTool harness toolId reason tier failureClass) state fun _ next => holds next := by
  rw [recordBlockedTool]
  refine (record_kept harness _ _ _ _ kept (fun _ _ => rfl) before).bind (fun _ _ after => after) ?_
  intro _ next between
  exact record_kept harness _ _ _ _ kept (fun _ _ => rfl) between
theorem recordToolChecked_kept (toolId tier : Text) (gate : Gate) (decision : Decision) (reasonCode : Option Text)
    (iteration toolCallCount : Nat) (kept : Kept holds) (before : holds state) :
    Ensures (recordToolChecked runner toolId tier gate decision reasonCode iteration toolCallCount) state fun _ next => holds next :=
  recordEvent_kept _ _ kept (fun _ => rfl) before

theorem recordBoundedScoutEvent_kept {eventType : EventType} (fields : EventFields) (attempt : fields.attempt.all (1 ≤ ·))
    (toolId : fields.toolId = none) (riskTier : fields.riskTier = none) (kept : Kept holds)
    (unmarked : ∀ count fields, mark (runner.harness.event count eventType fields) = none) (before : holds state) :
    Ensures (recordBoundedScoutEvent runner eventType fields) state fun ended next => ended = .ok ⟨⟩ ∧ holds next := by
  have returns : Returns (recordBoundedScoutEvent runner eventType fields) state ⟨⟩ _ :=
    recordEvent_returns _ _ _ (by exact attempt) (by exact toolId) (by exact riskTier)
  refine returns.ensures ⟨rfl,kept state _ ?_ before⟩
  rw [filterMap_cons,unmarked]
  rfl

theorem recordBudgetBlock_kept (reason : Text) (kept : Kept holds) (before : holds state) :
    Ensures (recordBudgetBlock runner reason) state fun ended next => ended = .ok ⟨⟩ ∧ holds next :=
  recordBoundedScoutEvent_kept _ rfl rfl rfl kept (fun _ _ => rfl) before

end Calls

/-- What holds in a call of a tool, with the results that there were before it. -/
structure Calling (runner : AgentLoopRunner Arguments Output Seconds) (earlier : List ToolEvent) (marked : List Mark) (count : Nat)
    (results : List (AgentToolResult Output)) (state : LoopState Arguments Output) : Prop extends Sound runner earlier marked count state where
  same : state.toolResults = results
/-- What holds until the tool runs. -/
structure Ready (runner : AgentLoopRunner Arguments Output Seconds) (earlier : List ToolEvent) (marked : List Mark) (count : Nat)
    (results : List (AgentToolResult Output)) (state : LoopState Arguments Output) : Prop extends
    Calling runner earlier marked count results state where
  room : state.executed.length < state.toolCalls
  completed : ∀ result ∈ results, result.status = .completed
theorem Calling.kept : Kept (Calling runner earlier marked count results) :=
  fun state more unmarked calling => { calling with toSound := calling.toSound.kept state more unmarked }
theorem Ready.kept : Kept (Ready runner earlier marked count results) :=
  fun state more unmarked ready => { ready with toCalling := ready.toCalling.kept state more unmarked }

theorem execute_calling (toolName : Text) (arguments : Arguments) (ready : Ready runner earlier marked count results state)
    (permitted : Permitted runner ⟨toolName,arguments,state.toolResults⟩) :
    Ensures (execute runner toolName arguments) state fun _ next => Calling runner earlier marked count results next := by
  refine returns_get.bind_ensures (returns_set.bind_ensures (ensures_pure ?_))
  refine { ready.toCalling with
    few := ?_
    permitted := forall_mem_append.mpr ⟨ready.permitted,by simpa using permitted⟩
    unbroken := forall_mem_append.mpr ⟨ready.unbroken,?_⟩ }
  · rw [length_append,length_singleton]
    exact ready.room
  · intro execution isThis
    rw [mem_singleton.mp isThis,ready.same]
    exact ready.completed

theorem call_calling (toolName : Text) (arguments : Arguments) (ready : Ready runner earlier marked count results state)
    (policy : (runner.evaluateAgentLoopToolPolicy toolName (riskTier runner toolName)).allowed = true)
    (schema : validationError runner toolName arguments = none) :
    Ensures (call runner toolName arguments) state fun _ next => Calling runner earlier marked count results next := by
  rw [call]
  cases known : runner.harness.contract toolName with
  | none => exact ensures_throw ready.toCalling
  | some contract =>
    dsimp only
    refine (record_kept _ _ _ _ _ Ready.kept (fun _ _ => rfl) ready).bind (fun _ _ after => after.toCalling) ?_
    intro _ begun ready
    cases reason : runner.harness.blockReason contract with
    | some reason =>
      refine (record_kept _ _ _ _ _ Ready.kept (fun _ _ => rfl) ready).bind (fun _ _ after => after.toCalling) ?_
      exact fun _ _ after => ensures_throw after.toCalling
    | none =>
      refine (execute_calling toolName arguments ready ⟨policy,schema,contract,known,reason⟩).bind (fun _ _ after => after) ?_
      rintro (raised | output) ran calling
      · refine (record_kept _ _ _ _ _ Calling.kept (fun _ _ => rfl) calling).bind (fun _ _ after => after) ?_
        exact fun _ _ after => ensures_throw after
      · refine (record_kept _ _ _ _ _ Calling.kept (fun _ _ => rfl) calling).bind (fun _ _ after => after) ?_
        exact fun _ _ after => ensures_pure after

theorem callTool_calling (toolName : Text) (arguments : Arguments) (ready : Ready runner earlier marked count results state)
    (policy : (runner.evaluateAgentLoopToolPolicy toolName (riskTier runner toolName)).allowed = true)
    (schema : validationError runner toolName arguments = none) :
    Ensures (callTool runner toolName arguments) state fun _ next => Calling runner earlier marked count results next := by
  have called : Ensures (do return (.ok (← call runner toolName arguments) : Except Raised Output)) state
      fun _ next => Calling runner earlier marked count results next :=
    (call_calling toolName arguments ready policy schema).bind (fun _ _ after => after) fun _ _ after => ensures_pure after
  refine Ensures.bind (?_ : Ensures _ _ fun _ next => Calling runner earlier marked count results next) (fun _ _ after => after) ?_
  · exact called.caught (fun _ _ after => after) fun _ _ after => ensures_pure after
  rintro (raised | output) ran calling
  · exact ensures_pure calling
  · dsimp only
    cases runner.compactToolOutput output with
    | error raised => exact ensures_throw calling
    | ok compacted => exact ensures_pure calling

theorem executeToolEvent_calling [EmptyCollection Arguments] (event : LLMClientEvent Arguments) (iteration toolCallCount : Nat)
    (ready : Ready runner earlier marked count results state) :
    Ensures (executeToolEvent runner event iteration toolCallCount) state
      fun _ next => Calling runner earlier marked count results next := by
  rw [executeToolEvent]
  refine (recordToolChecked_kept _ _ _ _ _ _ _ Ready.kept ready).bind (fun _ _ after => after.toCalling) ?_
  intro _ checked ready
  split
  · rename_i policy
    cases schema : validationError runner event.called.1 event.called.2 with
    | none => exact callTool_calling event.called.1 event.called.2 ready policy schema
    | some error =>
      refine (recordToolChecked_kept _ _ _ _ _ _ _ Ready.kept ready).bind (fun _ _ after => after.toCalling) ?_
      intro _ refused ready
      refine (recordBlockedTool_kept _ _ _ _ _ Ready.kept ready).bind (fun _ _ after => after.toCalling) ?_
      exact fun _ _ after => ensures_pure after.toCalling
  · refine (recordBlockedTool_kept _ _ _ _ _ Ready.kept ready).bind (fun _ _ after => after.toCalling) ?_
    exact fun _ _ after => ensures_pure after.toCalling

theorem recordLlmCompleted_closes (status : Status) (failureClass : Option FailureClass) (error : Option EventError)
    (sound : Sound runner earlier (openMarks count) (count + 1) state) :
    Ensures (recordLlmCompleted runner (count + 1) status failureClass error) state fun ended next =>
      ended = .ok ⟨⟩ ∧ Sound runner earlier (closedMarks (count + 1)) (count + 1) next ∧ next.toolResults = state.toolResults := by
  refine returns_get.bind_ensures ?_
  refine (recordEvent_returns runner.harness _ _ rfl rfl rfl).bind_ensures ?_
  refine (recordEvent_returns runner.harness _ _ (by simp) rfl rfl).ensures ?_
  refine ⟨rfl,?_,rfl⟩
  rw [closedMarks_succ,append_cons]
  exact (sound.marks rfl).marks rfl

theorem finish_finished (status : AgentLoopStatus) (blockedReason budgetExhausted : Option Text)
    (sound : Sound runner earlier (closedMarks count) count state) :
    Ensures (finish runner earlier.length status blockedReason budgetExhausted) state fun ended next =>
      ∃ result, ended = .ok result ∧ Finished runner earlier result next := by
  refine returns_get.bind_ensures ?_
  refine (recordEvent_returns runner.harness _ _ rfl rfl rfl).bind_ensures ?_
  refine (recordEvent_returns runner.harness _ _ rfl rfl rfl).bind_ensures ?_
  refine returns_get.bind_ensures (ensures_pure ⟨_,rfl,?_⟩)
  obtain ⟨since,split,isMarked⟩ := sound.events
  have whole : ∀ first second, (state.events ++ [first] ++ [second]).drop earlier.length = since ++ [first,second] := by
    intro first second
    rw [split,append_assoc,append_assoc,drop_left]
    rfl
  refine ⟨?_,?_,?_,sound.calls,sound.few,sound.permitted,sound.unbroken⟩
  · dsimp only
    rw [whole,split,append_assoc,append_assoc]
    rfl
  · dsimp only
    rw [whole,filterMap_append,isMarked,sound.iterations]
    rfl
  · rw [sound.iterations]
    exact sound.iterated

theorem closes_finished {Result : Type} (wrap : AgentLoopResult Output → Result) (status : Status) (failureClass : Option FailureClass)
    (error : Option EventError) (ending : AgentLoopStatus) (blockedReason budgetExhausted : Option Text)
    (sound : Sound runner earlier (openMarks count) (count + 1) state) :
    Ensures (do
      recordLlmCompleted runner (count + 1) status failureClass error
      return wrap (← finish runner earlier.length ending blockedReason budgetExhausted)) state fun ended next =>
      ∃ result, ended = .ok (wrap result) ∧ Finished runner earlier result next := by
  refine (recordLlmCompleted_closes status failureClass error sound).bind (fun _ _ after => nomatch after.1) ?_
  rintro _ closed ⟨_,sound,_⟩
  refine (finish_finished ending blockedReason budgetExhausted sound).bind (fun _ _ ⟨_,raised,_⟩ => nomatch raised) ?_
  rintro _ last ⟨_,⟨⟩,finished⟩
  exact ensures_pure ⟨_,rfl,finished⟩

/-- What a part of an iteration comes to: the run goes on, is over, or raises. -/
def Step (runner : AgentLoopRunner Arguments Output Seconds) (earlier : List ToolEvent) (count : Nat)
    (ended : Except Raised (Option (AgentLoopResult Output))) (next : LoopState Arguments Output) : Prop :=
  match ended with
  | .ok none => Going runner earlier (openMarks count) (count + 1) next
  | .ok (some result) => Finished runner earlier result next
  | .error _ => Sound runner earlier (openMarks count) (count + 1) next
theorem step_over (ended : Except Raised (Option (AgentLoopResult Output))) (next : LoopState Arguments Output)
    (finishes : ∃ result, ended = .ok (some result) ∧ Finished runner earlier result next) : Step runner earlier count ended next := by
  obtain ⟨result,rfl,finished⟩ := finishes
  exact finished

theorem takeResult_step (result : AgentToolResult Output) (sound : Sound runner earlier (openMarks count) (count + 1) state)
    (completed : ∀ result ∈ state.toolResults, result.status = .completed) :
    Ensures (takeResult runner earlier.length (count + 1) result) state (Step runner earlier count) := by
  refine returns_get.bind_ensures (returns_set.bind_ensures ?_)
  have taken : Sound runner earlier (openMarks count) (count + 1) { state with toolResults := state.toolResults ++ [result] } :=
    { sound with }
  cases status : result.status with
  | blocked => exact (closes_finished some _ _ _ _ _ _ taken).mono step_over
  | failed => exact (closes_finished some _ _ _ _ _ _ taken).mono step_over
  | completed =>
    have going : Going runner earlier (openMarks count) (count + 1) { state with toolResults := state.toolResults ++ [result] } :=
      { taken with completed := forall_mem_append.mpr ⟨completed,by simpa using status⟩ }
    dsimp only
    cases result.output with
    | none => exact ensures_pure going
    | some output =>
      dsimp only
      cases runner.dumps output with
      | error raised => exact ensures_throw taken
      | ok written => exact returns_get.bind_ensures (returns_set.bind_ensures (ensures_pure { going with }))

section Streams
variable [LE Seconds] [DecidableLE Seconds] [Zero Seconds]

theorem budgetExhausted_ensures (state : LoopState Arguments Output) :
    Ensures (budgetExhausted runner) state fun ended next =>
      ∃ reason readings, ended = .ok reason ∧ next = { state with readings } := by
  refine returns_get.bind_ensures (returns_set.bind_ensures ?_)
  have readings : ∃ readings : Nat, (if ((0 : Seconds) ≤ runner.budget.maxRuntimeSeconds : Bool) then
      { state with readings := state.readings + 1 } else state) = { state with readings } := by
    split
    · exact ⟨_,rfl⟩
    · exact ⟨state.readings,rfl⟩
  obtain ⟨readings,isState⟩ := readings
  rw [isState]
  split
  · exact ensures_pure ⟨_,readings,rfl,rfl⟩
  · split
    · exact ensures_pure ⟨_,readings,rfl,rfl⟩
    · exact ensures_pure ⟨_,readings,rfl,rfl⟩

variable [EmptyCollection Arguments]

theorem readEvent_step (event : LLMClientEvent Arguments) (going : Going runner earlier (openMarks count) (count + 1) state) :
    Ensures (readEvent runner earlier.length (count + 1) event) state (Step runner earlier count) := by
  refine returns_get.bind_ensures ?_
  cases event.type with
  | other => exact ensures_pure going
  | messageDelta => exact returns_set.bind_ensures (ensures_pure { going with })
  | usage =>
    refine returns_set.bind_ensures ?_
    refine (budgetExhausted_ensures _).bind (fun _ _ ⟨_,_,raised,_⟩ => nomatch raised) ?_
    rintro reason _ ⟨_,readings,⟨⟩,rfl⟩
    cases reason with
    | none => exact ensures_pure { going with }
    | some reason =>
      have sound : Sound runner earlier (openMarks count) (count + 1) { state with
          inputTokens := state.inputTokens + event.inputTokens
          outputTokens := state.outputTokens + event.outputTokens
          readings } := { going.toSound with }
      refine (recordBudgetBlock_kept reason Sound.kept sound).bind (fun _ _ after => nomatch after.1) ?_
      exact fun _ _ after => (closes_finished some _ _ _ _ _ _ after.2).mono step_over
  | toolCall =>
    dsimp only
    split
    · refine (recordBudgetBlock_kept _ Sound.kept going.toSound).bind (fun _ _ after => nomatch after.1) ?_
      exact fun _ _ after => (closes_finished some _ _ _ _ _ _ after.2).mono step_over
    · rename_i within
      refine returns_set.bind_ensures ?_
      have calls : state.toolCalls + 1 ≤ runner.budget.maxToolCalls.toNat := by omega
      have ready : Ready runner earlier (openMarks count) (count + 1) state.toolResults { state with toolCalls := state.toolCalls + 1 } :=
        { going.toSound with
          calls
          few := Nat.le_succ_of_le going.few
          same := rfl
          room := Nat.lt_succ_of_le going.few
          completed := going.completed }
      refine (executeToolEvent_calling event _ _ ready).bind (fun _ _ after => after.toSound) ?_
      intro result next after
      exact takeResult_step result after.toSound (after.same ▸ going.completed)

/-- What the events of a stream come to: the run is over, or the iteration is still open. -/
def Read (runner : AgentLoopRunner Arguments Output Seconds) (earlier : List ToolEvent) (count : Nat) (ended : Except Raised (Turn Output))
    (next : LoopState Arguments Output) : Prop :=
  match ended with
  | .ok (.returned result) => Finished runner earlier result next
  | .ok (.ended _) => Going runner earlier (openMarks count) (count + 1) next
  | .error _ => Sound runner earlier (openMarks count) (count + 1) next

theorem readEvents_read (failure : Option Raised) (sawToolCall : Bool) (events : List (LLMClientEvent Arguments))
    (going : Going runner earlier (openMarks count) (count + 1) state) :
    Ensures (readEvents runner earlier.length (count + 1) failure sawToolCall events) state (Read runner earlier count) := by
  induction events generalizing sawToolCall state with
  | nil =>
    cases failure with
    | some raised => exact ensures_throw going.toSound
    | none => exact ensures_pure going
  | cons event rest ih =>
    rw [readEvents]
    refine (readEvent_step event going).bind (fun _ _ after => after) ?_
    rintro (_ | result) next after
    · exact ih _ after
    · exact ensures_pure after

theorem attempts_finished (left : Nat) (within : count + left ≤ runner.budget.maxIterations.toNat)
    (going : Going runner earlier (closedMarks count) count state) :
    Ensures (attempts runner earlier.length left (count + 1)) state fun ended next =>
      ∃ result, ended = .ok result ∧ Finished runner earlier result next := by
  induction left generalizing count state with
  | zero =>
    rw [attempts]
    refine (recordBudgetBlock_kept _ Sound.kept going.toSound).bind (fun _ _ after => nomatch after.1) ?_
    exact fun _ _ after => finish_finished _ _ _ after.2
  | succ left ih =>
    rw [attempts]
    refine returns_get.bind_ensures (returns_set.bind_ensures ?_)
    refine (recordEvent_returns runner.harness _ _ (by simp) rfl rfl).bind_ensures ?_
    have started : Sound runner earlier (closedMarks count) (count + 1) { state with iterations := count + 1 } :=
      { going.toSound with
        iterations := rfl
        iterated := by omega }
    have opened : Going runner earlier (openMarks count) (count + 1) { state with
        iterations := count + 1
        events := state.events ++ [runner.harness.event state.events.length .llmStarted
          { workflow := some (text "bounded_agent_loop")
            stage := some (text "bounded_scout")
            model := some runner.llmClient.model
            attempt := some (count + 1)
            status := some .started }] } :=
      { started.marks rfl with completed := going.completed }
    refine Ensures.bind (?_ : Ensures _ _ fun ended next => ∃ turn, ended = .ok turn ∧ Read runner earlier count (.ok turn) next)
      (fun _ _ ⟨_,raised,_⟩ => nomatch raised) ?_
    · refine (readEvents_read _ _ _ opened).caught (fun turn _ after => ⟨turn,rfl,after⟩) ?_
      intro raised next after
      refine (closes_finished Turn.returned _ _ _ _ _ _ after).mono ?_
      rintro _ last ⟨result,rfl,finished⟩
      exact ⟨_,rfl,finished⟩
    · rintro turn next ⟨_,⟨⟩,after⟩
      cases turn with
      | returned result => exact ensures_pure ⟨result,rfl,after⟩
      | ended sawToolCall =>
        have going : Going runner earlier (openMarks count) (count + 1) next := after
        refine (recordLlmCompleted_closes _ _ _ going.toSound).bind (fun _ _ after => nomatch after.1) ?_
        rintro _ closed ⟨_,sound,same⟩
        split
        · refine (budgetExhausted_ensures closed).bind (fun _ _ ⟨_,_,raised,_⟩ => nomatch raised) ?_
          rintro reason _ ⟨_,readings,⟨⟩,rfl⟩
          cases reason with
          | none =>
            refine ih (by omega) { sound with completed := ?_ }
            exact same ▸ going.completed
          | some reason =>
            have sound : Sound runner earlier (closedMarks (count + 1)) (count + 1) { closed with readings } := { sound with }
            refine (recordBudgetBlock_kept _ Sound.kept sound).bind (fun _ _ after => nomatch after.1) ?_
            exact fun _ _ after => finish_finished _ _ _ after.2
        · exact finish_finished _ _ _ sound

/-- Every run returns. Its calls of the model are started and completed in turn, once an iteration, and it ends once; at
    most `max_tool_calls` tools have run, each permitted and after completed calls only. -/
theorem loop_bounded (runner : AgentLoopRunner Arguments Output Seconds) (earlier : List ToolEvent) (messages : List Message) :
    ∃ result state, Returns (run runner) { events := earlier,conversation := messages } result state ∧ Finished runner earlier result state := by
  apply Ensures.returns
  have begun : Going runner earlier [] 0 ({ events := earlier,conversation := messages } : LoopState Arguments Output) := {
    events := ⟨[],(append_nil earlier).symm,rfl⟩
    iterations := rfl
    iterated := Nat.zero_le _
    calls := Nat.zero_le _
    few := Nat.zero_le _
    permitted := nofun
    unbroken := nofun
    completed := nofun }
  refine returns_get.bind_ensures ?_
  refine (recordBoundedScoutEvent_kept _ rfl rfl rfl Going.kept (fun _ _ => rfl) begun).bind (fun _ _ after => nomatch after.1) ?_
  rintro _ first ⟨_,begun⟩
  refine (recordBoundedScoutEvent_kept _ rfl rfl rfl Going.kept (fun _ _ => rfl) begun).bind (fun _ _ after => nomatch after.1) ?_
  rintro _ second ⟨_,begun⟩
  refine (budgetExhausted_ensures second).bind (fun _ _ ⟨_,_,raised,_⟩ => nomatch raised) ?_
  rintro reason _ ⟨_,readings,⟨⟩,rfl⟩
  have going : Going runner earlier (closedMarks 0) 0 { second with readings } := { begun with }
  cases reason with
  | none => exact attempts_finished _ (Nat.zero_add _).le going
  | some reason =>
    refine (recordBudgetBlock_kept reason Sound.kept going.toSound).bind (fun _ _ after => nomatch after.1) ?_
    exact fun _ _ after => finish_finished _ _ _ after.2

end Streams

end Codebot.AgentBudgets
