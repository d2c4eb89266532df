import Codebot.Effects
import Codebot.JsonDumps

/-!
The bounded agent loop: it streams from a model at most `max_iterations` times, runs the tools that the model calls,
and records what it does in the events of a tool harness, which validates every event and refuses one whose risk
tier is the empty text.

The model, the verdicts, the tools and the clock are functions that may answer in any way. A stream is a list of
events and perhaps a failure after them.
-/
namespace Codebot.AgentLoops
open Texts JsonDumps Effects

/-- The classes of exceptions that the loop tells apart. -/
inductive ExceptionClass
  | toolBlocked
  | typeError
  | other
structure Raised where
  isA : ExceptionClass
  typeName : Text
  message : Text
/-- `t or other`. -/
def orElse (t other : Text) : Text := if t.isEmpty then other else t
/-- `str(exc) or type(exc).__name__`. -/
def Raised.summary (raised : Raised) : Text := orElse raised.message raised.typeName

inductive EventType
  | agentStarted
  | agentCompleted
  | llmStarted
  | llmCompleted
  | toolStarted
  | toolCompleted
  | toolFailed
  | toolBlocked
  | guardrailBlocked
  | agentLoopStarted
  | agentLoopLlmCompleted
  | agentLoopToolChecked
  | agentLoopCompleted

inductive Status
  | started
  | pass
  | fail
  | blocked
inductive FailureClass
  | schemaInvalid
  | policyViolation
  | toolError
  | providerError
  | unknown
inductive PolicyMode
  | observe
  | enforce
inductive Gate
  | policy
  | schema
inductive Decision
  | allowed
  | blocked
/-- The `error` of an event. -/
structure EventError where
  type : Text
  message : Text
/-- The `usage` of an event. -/
structure Usage where
  inputTokens : Int
  outputTokens : Int

/-- The fields that an event may have. -/
structure EventFields where
  workflow : Option Text := none
  stage : Option Text := none
  agentRole : Option Text := none
  model : Option Text := none
  attempt : Option Nat := none
  iteration : Option Nat := none
  toolCallCount : Option Nat := none
  usage : Option Usage := none
  gate : Option Gate := none
  decision : Option Decision := none
  reasonCode : Option Text := none
  budgetExhausted : Option (Bool ⊕ Text) := none
  status : Option Status := none
  failureClass : Option FailureClass := none
  toolId : Option Text := none
  riskTier : Option Text := none
  inputRefs : Option (List Text) := none
  outputRefs : Option (List Text) := none
  label : Option Text := none
  inputSummary : Option Text := none
  outputSummary : Option Text := none
  error : Option EventError := none

structure ToolEvent extends EventFields where
  sequence : Nat
  runId : Text
  eventType : EventType
  policyMode : PolicyMode
/-- The bounds of `tool-event.schema.json` on these fields. -/
def ToolEvent.validates (event : ToolEvent) : Bool :=
  1 ≤ event.sequence && !event.runId.isEmpty && event.attempt.all (1 ≤ ·) && event.toolId.all (!·.isEmpty) &&
    event.riskTier.all (!·.isEmpty)
structure ToolContract where
  id : Text
  riskTier : Text

/-- `ToolHarness`, with the risk tiers of its contracts by their identifiers, and what is raised for an
    event that its schema refuses. -/
structure ToolHarness where
  runId : Text
  named : runId.isEmpty = false
  policyMode : PolicyMode
  riskTiers : Text → Option Text
  refusal : ToolEvent → Raised

/-- `contracts.get`. -/
def ToolHarness.contract (harness : ToolHarness) (toolId : Text) : Option ToolContract :=
  (harness.riskTiers toolId).map fun riskTier => ⟨toolId,riskTier⟩
def blockedRiskTiers : List Text := [text "broker_write",text "destructive"]

/-- `_block_reason` of a call with no policy text. -/
def ToolHarness.blockReason (harness : ToolHarness) (contract : ToolContract) : Option Text :=
  match harness.policyMode with
  | .observe => none
  | .enforce =>
    if blockedRiskTiers.contains contract.riskTier then
      some (contract.id ++ text " is blocked by risk tier " ++ contract.riskTier ++ text ".")
    else none

inductive LLMEventType
  | messageDelta
  | toolCall
  | usage
  | other
structure LLMClientEvent (Arguments : Type) where
  type : LLMEventType
  text : Option Text := none
  toolName : Option Text := none
  arguments : Option Arguments := none
  inputTokens : Int := 0
  outputTokens : Int := 0
/-- What a stream yields, and what it raises after that. -/
structure LLMStream (Arguments : Type) where
  events : List (LLMClientEvent Arguments)
  failure : Option Raised
structure Message where
  role : Text
  content : Text
/-- A client, whose stream may be another at every attempt, with the routing context and without. -/
structure LLMClient (Arguments : Type) where
  model : Text
  stream : Nat → List Message → Bool → LLMStream Arguments

def streamClient {Arguments : Type} (client : LLMClient Arguments) (attempt : Nat) (messages : List Message) : LLMStream Arguments :=
  let stream := client.stream attempt messages true
  match stream.failure with
  | some ⟨.typeError,_,message⟩ =>
    if contains (text "routing_context") message then
      let legacy := client.stream attempt messages false
      ⟨stream.events ++ legacy.events,legacy.failure⟩
    else stream
  | _ => stream

structure AgentLoopBudget (Seconds : Type) where
  maxIterations : Int
  maxToolCalls : Int
  maxTokens : Int
  maxRuntimeSeconds : Seconds
inductive Severity
  | blocker
  | warning
deriving DecidableEq
structure PolicyFinding where
  severity : Severity
  code : Text
  message : Text
structure PolicyDecision where
  allowed : Bool
  findings : List PolicyFinding
def PolicyDecision.blockedFinding (decision : PolicyDecision) : Option PolicyFinding :=
  decision.findings.find? fun finding => finding.severity = .blocker

/-- `AgentLoopRunner`, with what it calls: the policy, the schemas, the tools, `compact_tool_output`, `json.dumps`, the
    clock, and the text of a time. -/
structure AgentLoopRunner (Arguments Output Seconds : Type) where
  llmClient : LLMClient Arguments
  harness : ToolHarness
  budget : AgentLoopBudget Seconds
  evaluateAgentLoopToolPolicy : Text → Text → PolicyDecision
  validateToolArguments : Text → Arguments → Option Text
  executeTool : Nat → Text → Arguments → Except Raised Output
  compactToolOutput : Output → Except Raised Output
  dumps : Output → Except Raised Text
  elapsed : Nat → Seconds
  str : Seconds → Text

inductive ToolCallStatus
  | completed
  | blocked
  | failed
structure AgentToolResult (Output : Type) where
  toolName : Text
  status : ToolCallStatus
  output : Option Output := none
  error : Option Text := none
/-- A tool that ran, and the results that there were before. -/
structure Execution (Arguments Output : Type) where
  toolName : Text
  arguments : Arguments
  after : List (AgentToolResult Output)
/-- `partly` is `partial`. -/
inductive AgentLoopStatus
  | completed
  | partly
  | blocked

structure AgentLoopResult (Output : Type) where
  status : AgentLoopStatus
  responseText : Text
  toolResults : List (AgentToolResult Output)
  events : List ToolEvent
  iterations : Nat
  toolCalls : Nat
  inputTokens : Int
  outputTokens : Int
  blockedReason : Option Text
  budgetExhausted : Option Text

/-- The events of the harness, the variables of `run`, how often the clock was read, and the tools that
    ran. -/
structure LoopState (Arguments Output : Type) where
  events : List ToolEvent
  conversation : List Message
  responseChunks : List Text := []
  toolResults : List (AgentToolResult Output) := []
  inputTokens : Int := 0
  outputTokens : Int := 0
  toolCalls : Nat := 0
  iterations : Nat := 0
  readings : Nat := 0
  executed : List (Execution Arguments Output) := []

abbrev Act (Arguments Output Result : Type) := Effect (LoopState Arguments Output) Raised Result

variable {Arguments Output Seconds : Type}

section Recording
variable (harness : ToolHarness)

/-- The event that is recorded after so many others. -/
def ToolHarness.event (harness : ToolHarness) (count : Nat) (eventType : EventType) (fields : EventFields) : ToolEvent :=
  { fields with
    sequence := count + 1
    runId := harness.runId
    eventType
    policyMode := harness.policyMode }
def recordEvent (eventType : EventType) (fields : EventFields) : Act Arguments Output Unit := do
  let state ← get
  let event := harness.event state.events.length eventType fields
  if event.validates then set { state with events := state.events ++ [event] } else throw (harness.refusal event)

def record (eventType : EventType) (contract : ToolContract) (status : Status) (failureClass : Option FailureClass)
    (error : Option EventError) : Act Arguments Output Unit :=
  recordEvent harness eventType
    { toolId := some contract.id
      riskTier := some contract.riskTier
      inputRefs := some []
      outputRefs := some []
      status := some status
      failureClass
      error }

def toolBlockedError (reason : Text) : EventError := ⟨text "ToolBlockedError",reason⟩
def recordBlockedTool (toolId reason riskTier : Text) (failureClass : FailureClass) : Act Arguments Output Unit := do
  let contract := (harness.contract toolId).getD ⟨toolId,orElse riskTier (text "unknown")⟩
  record harness .toolStarted contract .started none none
  record harness .toolBlocked contract .blocked (some failureClass) (some (toolBlockedError reason))

end Recording

section Loop
variable (runner : AgentLoopRunner Arguments Output Seconds)

def recordBoundedScoutEvent (eventType : EventType) (fields : EventFields) : Act Arguments Output Unit :=
  recordEvent runner.harness eventType
    { fields with
      workflow := some (text "bounded_agent_loop")
      stage := some (text "bounded_scout")
      agentRole := some (text "bounded_scout_runner")
      model := some runner.llmClient.model }
def recordBudgetBlock (reason : Text) : Act Arguments Output Unit :=
  recordBoundedScoutEvent runner .guardrailBlocked
    { status := some .blocked
      failureClass := some .unknown
      label := some (text "agent_loop_budget")
      inputSummary := some reason }

def recordLlmCompleted (attempt : Nat) (status : Status) (failureClass : Option FailureClass) (error : Option EventError) :
    Act Arguments Output Unit := do
  let state ← get
  let failureClass :=
    match failureClass, status with
    | none, .blocked => some .policyViolation
    | failureClass, _ => failureClass
  let fields : EventFields :=
    { status := some status
      failureClass
      error
      usage := some ⟨state.inputTokens,state.outputTokens⟩ }
  recordBoundedScoutEvent runner .agentLoopLlmCompleted { fields with iteration := some attempt }
  recordBoundedScoutEvent runner .llmCompleted { fields with attempt := some attempt }

def recordToolChecked (toolId riskTier : Text) (gate : Gate) (decision : Decision) (reasonCode : Option Text)
    (iteration toolCallCount : Nat) : Act Arguments Output Unit :=
  recordBoundedScoutEvent runner .agentLoopToolChecked
    { toolId := some toolId
      riskTier := some riskTier
      gate := some gate
      decision := some decision
      reasonCode
      iteration := some iteration
      toolCallCount := some toolCallCount
      budgetExhausted := some (.inl false)
      status := some (match decision with | .allowed => .pass | .blocked => .blocked) }

/-- `execute_tool`, which runs the tool. -/
def execute (toolName : Text) (arguments : Arguments) : Act Arguments Output (Except Raised Output) := do
  let state ← get
  let execution : Execution Arguments Output := ⟨toolName,arguments,state.toolResults⟩
  set { state with executed := state.executed ++ [execution] }
  return runner.executeTool state.executed.length toolName arguments

/-- `call` of the harness. -/
def call (toolId : Text) (arguments : Arguments) : Act Arguments Output Output :=
  match runner.harness.contract toolId with
  | none => throw ⟨.other,text "ValueError",text "Unknown tool id: " ++ toolId⟩
  | some contract => do
    record runner.harness .toolStarted contract .started none none
    match runner.harness.blockReason contract with
    | some reason => do
      record runner.harness .toolBlocked contract .blocked (some .policyViolation) (some (toolBlockedError reason))
      throw ⟨.toolBlocked,text "ToolBlockedError",reason⟩
    | none => do
      match ← execute runner toolId arguments with
      | .error raised => do
        record runner.harness .toolFailed contract .fail (some .toolError) (some ⟨raised.typeName,raised.message⟩)
        throw raised
      | .ok output => do
        record runner.harness .toolCompleted contract .pass none none
        return output

/-- What a call that raises comes to. -/
def failedResult (toolName : Text) (raised : Raised) : AgentToolResult Output :=
  match raised.isA with
  | .toolBlocked => { toolName, status := .blocked, error := some raised.message }
  | _ => { toolName, status := .failed, error := some raised.summary }

/-- The end of `_execute_tool_event`, where the gates let the call through. -/
def callTool (toolName : Text) (arguments : Arguments) : Act Arguments Output (AgentToolResult Output) := do
  let called : Except Raised Output ← tryCatch (do return .ok (← call runner toolName arguments)) fun raised => pure (.error raised)
  match called with
  | .error raised => return failedResult toolName raised
  | .ok output =>
    match runner.compactToolOutput output with
    | .error raised => throw raised
    | .ok compacted => return { toolName, status := .completed, output := some compacted }

def validationError (toolName : Text) (arguments : Arguments) : Option Text :=
  (runner.validateToolArguments toolName arguments).filter (!·.isEmpty)

variable [EmptyCollection Arguments]
/-- `event.tool_name or "unknown"` and `event.arguments or {}`. -/
def LLMClientEvent.called (event : LLMClientEvent Arguments) : Text × Arguments :=
  (orElse (event.toolName.getD []) (Texts.text "unknown"),event.arguments.getD ∅)
def riskTier (toolName : Text) : Text := ((runner.harness.contract toolName).map (·.riskTier)).getD (text "unknown")

def executeToolEvent (event : LLMClientEvent Arguments) (iteration toolCallCount : Nat) :
    Act Arguments Output (AgentToolResult Output) := do
  let toolName := event.called.1
  let arguments := event.called.2
  let tier := riskTier runner toolName
  let policyDecision := runner.evaluateAgentLoopToolPolicy toolName tier
  recordToolChecked runner toolName tier .policy (if policyDecision.allowed then .allowed else .blocked)
    (policyDecision.blockedFinding.map (·.code)) iteration toolCallCount
  if policyDecision.allowed then
    match validationError runner toolName arguments with
    | some error => do
      recordToolChecked runner toolName tier .schema .blocked (some (text "schema_invalid")) iteration toolCallCount
      recordBlockedTool runner.harness toolName error tier .schemaInvalid
      return { toolName, status := .blocked, error := some error }
    | none => callTool runner toolName arguments
  else do
    let reason := (policyDecision.blockedFinding.map (·.message)).getD (text "Tool is blocked.")
    recordBlockedTool runner.harness toolName reason tier .policyViolation
    return { toolName, status := .blocked, error := some reason }

/-- What a loop over the events of a stream comes to. -/
inductive Turn (Output : Type)
  | returned (result : AgentLoopResult Output)
  | ended (sawToolCall : Bool)

def budgetExhausted [LE Seconds] [DecidableLE Seconds] [Zero Seconds] : Act Arguments Output (Option Text) := do
  let state ← get
  let limited : Bool := (0 : Seconds) ≤ runner.budget.maxRuntimeSeconds
  set (if limited then { state with readings := state.readings + 1 } else state)
  if limited && runner.budget.maxRuntimeSeconds ≤ runner.elapsed state.readings then
    return some (text "max_runtime_seconds budget exhausted (" ++ runner.str runner.budget.maxRuntimeSeconds ++ text ")")
  else if 0 ≤ runner.budget.maxTokens && runner.budget.maxTokens ≤ state.inputTokens + state.outputTokens then
    return some (text "max_tokens budget exhausted (" ++ dumpInteger runner.budget.maxTokens ++ text ")")
  else return none

/-- `finish`, with how many events there were before the run. -/
def finish (start : Nat) (status : AgentLoopStatus) (blockedReason budgetExhausted : Option Text) :
    Act Arguments Output (AgentLoopResult Output) := do
  let state ← get
  let fields : EventFields :=
    { status := some (match status with | .completed => .pass | _ => .blocked)
      failureClass := match status with | .completed => none | _ => some .unknown
      outputSummary := (blockedReason.filter (!·.isEmpty)).or budgetExhausted }
  recordBoundedScoutEvent runner .agentLoopCompleted
    { fields with
      iteration := some state.iterations
      toolCallCount := some state.toolCalls
      budgetExhausted := budgetExhausted.map .inr }
  recordBoundedScoutEvent runner .agentCompleted fields
  let state ← get
  return {
    status
    responseText := state.responseChunks.flatten
    toolResults := state.toolResults
    events := state.events.drop start
    iterations := state.iterations
    toolCalls := state.toolCalls
    inputTokens := state.inputTokens
    outputTokens := state.outputTokens
    blockedReason
    budgetExhausted }

def toolMessage (toolName output : Text) : Message := ⟨text "assistant",text "Tool " ++ toolName ++ text " returned: " ++ output⟩

/-- The end of a turn in a blocked or failed call, if it is one, and what the model is told of another. -/
def takeResult (start attempt : Nat) (result : AgentToolResult Output) : Act Arguments Output (Option (AgentLoopResult Output)) := do
  let state ← get
  set { state with toolResults := state.toolResults ++ [result] }
  match result.status with
  | .blocked => do
    recordLlmCompleted runner attempt .blocked none none
    return some (← finish runner start .blocked result.error none)
  | .failed => do
    recordLlmCompleted runner attempt .fail none none
    return some (← finish runner start .partly result.error none)
  | .completed =>
    match result.output with
    | none => return none
    | some output =>
      match runner.dumps output with
      | .error raised => throw raised
      | .ok written => do
        let state ← get
        set { state with conversation := state.conversation ++ [toolMessage result.toolName written] }
        return none

/-- One event of a stream: what the run returns, if it ends here. -/
def readEvent [LE Seconds] [DecidableLE Seconds] [Zero Seconds] (start attempt : Nat) (event : LLMClientEvent Arguments) :
    Act Arguments Output (Option (AgentLoopResult Output)) := do
  let state ← get
  match event.type with
  | .usage => do
    set { state with
      inputTokens := state.inputTokens + event.inputTokens
      outputTokens := state.outputTokens + event.outputTokens }
    match ← budgetExhausted runner with
    | none => return none
    | some reason => do
      recordBudgetBlock runner reason
      recordLlmCompleted runner attempt .blocked none none
      return some (← finish runner start .partly none (some reason))
  | .messageDelta => do
    set { state with responseChunks := state.responseChunks ++ (event.text.filter fun written : Text => !written.isEmpty).toList }
    return none
  | .other => return none
  | .toolCall =>
    if runner.budget.maxToolCalls ≤ state.toolCalls then do
      let reason := text "max_tool_calls budget exhausted (" ++ dumpInteger runner.budget.maxToolCalls ++ text ")"
      recordBudgetBlock runner reason
      recordLlmCompleted runner attempt .blocked none none
      return some (← finish runner start .blocked (some reason) (some reason))
    else do
      set { state with toolCalls := state.toolCalls + 1 }
      takeResult runner start attempt (← executeToolEvent runner event attempt (state.toolCalls + 1))

/-- The loop over the events of a stream. -/
def readEvents [LE Seconds] [DecidableLE Seconds] [Zero Seconds] (start attempt : Nat) (failure : Option Raised) (sawToolCall : Bool) :
    List (LLMClientEvent Arguments) → Act Arguments Output (Turn Output)
  | [] =>
    match failure with
    | some raised => throw raised
    | none => return .ended sawToolCall
  | event :: rest => do
    match ← readEvent runner start attempt event with
    | some result => return .returned result
    | none => readEvents start attempt failure (sawToolCall || event.type matches .toolCall) rest

/-- The rest of the loop over the attempts, from one of them. -/
def attempts [LE Seconds] [DecidableLE Seconds] [Zero Seconds] (start : Nat) : Nat → Nat → Act Arguments Output (AgentLoopResult Output)
  | 0, _ => do
    let reason := text "max_iterations budget exhausted (" ++ dumpInteger runner.budget.maxIterations ++ text ")"
    recordBudgetBlock runner reason
    finish runner start .partly none (some reason)
  | left + 1, attempt => do
    let state ← get
    set { state with iterations := attempt }
    recordEvent runner.harness .llmStarted
      { workflow := some (text "bounded_agent_loop")
        stage := some (text "bounded_scout")
        model := some runner.llmClient.model
        attempt := some attempt
        status := some .started }
    let stream := streamClient runner.llmClient attempt state.conversation
    let turn ← tryCatch (readEvents runner start attempt stream.failure false stream.events) fun raised => do
      recordLlmCompleted runner attempt .fail (some .providerError) (some ⟨raised.typeName,raised.summary⟩)
      return .returned (← finish runner start .partly (some raised.summary) none)
    match turn with
    | .returned result => return result
    | .ended sawToolCall => do
      recordLlmCompleted runner attempt .pass none none
      if sawToolCall then
        match ← budgetExhausted runner with
        | some reason => do
          recordBudgetBlock runner reason
          finish runner start .partly none (some reason)
        | none => attempts start left (attempt + 1)
      else finish runner start .completed none none

/-- `run`, with the clock at its start. -/
def run [LE Seconds] [DecidableLE Seconds] [Zero Seconds] : Act Arguments Output (AgentLoopResult Output) := do
  let state ← get
  let start := state.events.length
  recordBoundedScoutEvent runner .agentLoopStarted
    { iteration := some 0
      toolCallCount := some 0
      status := some .started }
  recordBoundedScoutEvent runner .agentStarted { status := some .started }
  match ← budgetExhausted runner with
  | some reason => do
    recordBudgetBlock runner reason
    finish runner start .partly none (some reason)
  | none => attempts runner start runner.budget.maxIterations.toNat 1

end Loop
end Codebot.AgentLoops
