import Codebot.Brackets
import Codebot.JsonTexts
import Codebot.Timeframes

/-!
The AG-UI stream of a chat. The route turns the events of the backend into messages, reasoning and tool calls, which
it starts and ends under ids of its own. They are well bracketed exactly if the stream does not time out and no tool
call that has ended is ended again or given arguments (`wellBracketed_iff`).

A random id is the number of those before it. Which custom events and activities are written, and their texts, is
left open.
-/
namespace Codebot.AgUiStreams
open Texts JsonTexts Timeframes Brackets List Function

structure PythonSseEvent where
  event : Text
  data : Json
/-- What the events are turned into with no effect on the ids. -/
structure Wording where
  template : Json → Text
  runFailureMessage : PythonSseEvent → Text
  activityLabel : PythonSseEvent → Option Text
  metadata : PythonSseEvent → List Text

/-! ### Values of JavaScript -/

/-- Whether `typeof value` is that of an object. -/
def isObject : Json → Bool
  | .array _ | .object _ => true
  | _ => false
def field (record : Json) (key : String) : Option Json :=
  match record with
  | .object entries => entries.lookup (text key)
  | _ => none
/-- `left ?? right` of a value that may be missing. -/
def orElse (left right : Option Json) : Option Json :=
  match left with
  | none | some .null => right
  | some value => some value
/-- `stringValue`, and `sourceText`. -/
def stringValue : Option Json → Option Text
  | some (.text value) => if trim value = [] then none else some (trim value)
  | _ => none
def eventPayload (event : PythonSseEvent) : Json :=
  match field event.data "payload" with
  | some payload => if isObject payload then payload else .object []
  | none => .object []

/-! ### Tool events -/

inductive ToolPhase
  | started
  | completed
  | failed
deriving DecidableEq

def workflowToolEvents : List (String × ToolPhase × String) :=
  [("artifact.regenerate.completed",.completed,"confirm_regenerate_artifact"),
    ("artifact.regenerate.failed",.failed,"confirm_regenerate_artifact"),
    ("artifact.regenerate.requested",.started,"confirm_regenerate_artifact"),
    ("backtest.preview.completed",.completed,"confirm_backtest_preview"),
    ("backtest.preview.approval_required",.started,"confirm_backtest_preview"),
    ("backtest.preview.approved",.completed,"confirm_backtest_preview"),
    ("backtest.preview.failed",.failed,"confirm_backtest_preview"),
    ("backtest.preview.queued",.started,"confirm_backtest_preview"),
    ("backtest.preview.rejected",.completed,"confirm_backtest_preview"),
    ("backtest.preview.requested",.started,"confirm_backtest_preview"),
    ("market_context.apply.completed",.completed,"confirm_apply_market_context"),
    ("market_context.apply.failed",.failed,"confirm_apply_market_context"),
    ("market_context.apply.requested",.started,"confirm_apply_market_context"),
    ("validation.repair.completed",.completed,"confirm_validation_repair"),
    ("validation.repair.failed",.failed,"confirm_validation_repair"),
    ("validation.repair.requested",.started,"confirm_validation_repair")]

def workflowToolEventConfig (event : Text) : Option (ToolPhase × Text) :=
  (workflowToolEvents.find? fun entry => text entry.1 = event).map fun entry => (entry.2.1,text entry.2.2)

def toolEventPhase (event : PythonSseEvent) : Option ToolPhase :=
  let metadataPhase := stringValue (field (eventPayload event) "lifecycle_phase")
  if metadataPhase = some (text "completed") then some .completed
  else if metadataPhase = some (text "failed") then some .failed
  else if metadataPhase = some (text "started") then some .started
  else if event.event = text "tool.started" then some .started
  else if event.event = text "tool.completed" then some .completed
  else (workflowToolEventConfig event.event).map (·.1)

/-- The characters of `safeToolName`. -/
def toolCharacter (c : Nat) : Bool := asciiLetter c || asciiDigit c || c ∈ [95,46,45]
def safeToolName (value : Option Json) : Option Text :=
  (stringValue value).bind fun toolName =>
    if toolName.length ≤ 80 ∧ toolName.all toolCharacter then some toolName else none
def safeToolPayloadFields : List String :=
  ["artifact_id","artifactId","decision","display_name","interval","label","market","message","platform","provider","status",
    "symbol","timeframe","title"]
def plain : Json → Bool
  | .array _ | .object _ => false
  | _ => true
def pickUserSafeFields (record : Json) (allowed : List String) : Option (List (Text × Json)) :=
  let result := allowed.filterMap fun key => ((field record key).filter plain).map fun value => (text key,value)
  if result.isEmpty then none else some result
def sanitizeToolArgs (value : Option Json) : Option (List (Text × Json)) :=
  (value.filter isObject).bind fun record => pickUserSafeFields record safeToolPayloadFields
def sanitizeToolResult (value : Json) : Option (List (Text × Json)) :=
  if isObject value then pickUserSafeFields value safeToolPayloadFields
  else
    match value with
    | .text t => some [(text "summary",.text (t.take 240))]
    | _ => some []
/-- What a tool event says: the key of its call, and the arguments and the result to show. -/
structure ToolUse where
  key : Text
  toolName : Text
  phase : ToolPhase
  args : Option (List (Text × Json))
  payload : Json

def toolKey (wording : Wording) (event : PythonSseEvent) (toolName : Text) : Text :=
  match field (eventPayload event) "tool_call_id" with
  | some (.text id) => id
  | _ =>
    let runId : Text :=
      match orElse (field event.data "run_id") none with
      | some (.text id) => id
      | some value => wording.template value
      | none => text "run"
    runId ++ text ":" ++ toolName

def toolArgs (event : PythonSseEvent) (phase : ToolPhase) : Option (List (Text × Json)) :=
  let payload := eventPayload event
  let input := field payload "input"
  let args := field payload "args"
  let parameters := field payload "parameters"
  let shouldUsePayloadAsArgs :=
    phase = .started ∧ event.event ≠ text "tool.started" ∧ input.isNone ∧ args.isNone ∧ parameters.isNone
  sanitizeToolArgs (orElse input (orElse args (orElse parameters (if shouldUsePayloadAsArgs then some payload else none))))

def toolUse (wording : Wording) (event : PythonSseEvent) : Option ToolUse := do
  let phase ← toolEventPhase event
  let payload := eventPayload event
  let toolName ← ((workflowToolEventConfig event.event).map (·.2)).or
    ((safeToolName (field payload "tool_id")).or (safeToolName (field payload "tool_name")))
  return ⟨toolKey wording event toolName,toolName,phase,toolArgs event phase,payload⟩

/-- `payload.output ?? …` -/
def toolResult (use : ToolUse) : Json :=
  match orElse (field use.payload "output") none with
  | some output => output
  | none =>
    if use.phase = .failed then
      .object [(text "message",(orElse (field use.payload "message") none).getD (.text (text "Action failed"))),
        (text "status",.text (text "failed"))]
    else use.payload

/-- Whether there is a `backtestReportCustomValue`. -/
def hasBacktestReport (use : ToolUse) : Bool :=
  use.toolName = text "get_backtest_summary" &&
    ((field use.payload "output").bind fun output => field output "summary").any isObject

/-- Whether there is an `inlineTableCustomValue`. -/
def hasInlineTable (use : ToolUse) : Bool :=
  use.toolName = text "query_backtest_trades" &&
    (field use.payload "output").any fun output =>
      (match field output "status" with
        | none => true
        | some (.text status) => status = text "ok"
        | some _ => false) &&
      match field output "trades" with
      | some (.array trades) => trades.any isObject
      | _ => false

/-! ### Texts -/

def reasoningSummaryFromPythonEvent (event : PythonSseEvent) : Option Text :=
  if event.event = text "model.reasoning.delta" then
    match field (eventPayload event) "safe" with
    | some (.bool true) => stringValue (field (eventPayload event) "text")
    | _ => none
  else none
def firstText (record : Json) (keys : List String) : Option Text :=
  keys.findSome? fun key =>
    match field record key with
    | some (.text value) => some value
    | _ => none
def isTrue : Option Json → Bool
  | some (.bool value) => value
  | _ => false
def isText (expected : String) : Option Json → Bool
  | some (.text value) => value = text expected
  | _ => false

def textFromPythonEvent (wording : Wording) (event : PythonSseEvent) : Text :=
  if event.event = text "message.delta" then
    match field event.data "payload" with
    | some (.text delta) => delta
    | _ => (firstText (eventPayload event) ["delta","content","text"]).getD []
  else if event.event = text "run.failed" then
    let payload := eventPayload event
    if isTrue (field payload "assistant_message_persisted") then []
    else if isText "workflow" (field payload "dimension") || isText "pine_validation_failed" (field payload "code") then
      wording.runFailureMessage event
    else text "\n\n" ++ wording.runFailureMessage event
  else []

/-! ### The writers -/

inductive AgUiEvent
  | runStarted
  | stateSnapshot
  | textMessageStart (messageId : Nat)
  | textMessageContent (messageId : Nat) (delta : Text)
  | textMessageEnd (messageId : Nat)
  | reasoningStart (messageId : Nat)
  | reasoningMessageStart (messageId : Nat)
  | reasoningMessageContent (messageId : Nat) (delta : Text)
  | reasoningMessageEnd (messageId : Nat)
  | reasoningEnd (messageId : Nat)
  | toolCallStart (toolCallId parentMessageId : Nat) (toolCallName : Text)
  | toolCallArgs (toolCallId : Nat) (delta : List (Text × Json))
  | toolCallEnd (toolCallId : Nat)
  | toolCallResult (toolCallId messageId : Nat) (toolName : Text) (result : Option (List (Text × Json)))
  | activityDelta (label : Text)
  | custom (name : Text)
  | runFinished (interrupted : Bool)
  | runError (message : Text)

/-- `CopilotStreamState`, the ids that are drawn and the events that are written. -/
structure State where
  textId : Option Nat
  textOpen : Bool
  reasoningId : Option Nat
  reasoningOpen : Bool
  toolCallIds : Text → Option Nat
  uuids : Nat
  written : List AgUiEvent

def initial : State := ⟨none,false,none,false,fun _ => none,0,[]⟩
def State.writeAll (s : State) (events : List AgUiEvent) : State := { s with written := s.written ++ events }
/-- The id of the assistant's message, and the state with the message started. -/
def ensureAssistantTextMessageStarted (s : State) : Nat × State :=
  let textId := s.textId.getD s.uuids
  let s := { s with textId := some textId, uuids := if s.textId.isNone then s.uuids + 1 else s.uuids }
  if s.textOpen then (textId,s) else (textId,{ s.writeAll [.textMessageStart textId] with textOpen := true })
/-- `writeAssistantTextAsAgUi`, and the end of `writePythonEventAsAgUi`. -/
def writeAssistantTextAsAgUi (s : State) (delta : Text) : State :=
  let (textId,s) := ensureAssistantTextMessageStarted s
  s.writeAll [.textMessageContent textId delta]
def ToolUse.finishes (use : ToolUse) : Bool := use.phase = .completed || use.phase = .failed

/-- The events of a tool call that has started. -/
def toolCallEvents (toolCallId resultId : Nat) (use : ToolUse) : List AgUiEvent :=
  use.args.toList.map (.toolCallArgs toolCallId) ++
    if use.finishes then
      [.toolCallEnd toolCallId] ++ (if hasBacktestReport use then [.custom (text "strategy.backtestReport")] else []) ++
        (if hasInlineTable use then [.custom (text "strategy.inlineTable")] else []) ++
        [.toolCallResult toolCallId resultId use.toolName (sanitizeToolResult (toolResult use))]
    else []

/-- The id of the call of the key, and the state with the call started. -/
def ensureToolCallStarted (s : State) (use : ToolUse) : Nat × State :=
  match s.toolCallIds use.key with
  | some toolCallId => (toolCallId,s)
  | none =>
    let (textId,s) := ensureAssistantTextMessageStarted s
    let toolCallId := s.uuids
    let s := { s with toolCallIds := Function.update s.toolCallIds use.key (some toolCallId), uuids := s.uuids + 1 }
    (toolCallId,s.writeAll [.toolCallStart toolCallId textId use.toolName])

def writePythonToolEventAsAgUi (wording : Wording) (s : State) (event : PythonSseEvent) : State :=
  match toolUse wording event with
  | none => s
  | some use =>
    let (toolCallId,s) := ensureToolCallStarted s use
    { s.writeAll (toolCallEvents toolCallId s.uuids use) with uuids := if use.finishes then s.uuids + 1 else s.uuids }
/-- The id of the reasoning, and the state with the reasoning started. -/
def ensureReasoningStarted (s : State) : Nat × State :=
  let reasoningId := s.reasoningId.getD s.uuids
  let s := { s with reasoningId := some reasoningId, uuids := if s.reasoningId.isNone then s.uuids + 1 else s.uuids }
  if s.reasoningOpen then (reasoningId,s)
  else (reasoningId,{ s.writeAll [.reasoningStart reasoningId,.reasoningMessageStart reasoningId] with reasoningOpen := true })
def writeReasoning (s : State) (summary : Text) : State :=
  let (reasoningId,s) := ensureReasoningStarted s
  s.writeAll [.reasoningMessageContent reasoningId (text "- " ++ summary ++ text "\n")]

def writePythonEventAsAgUi (wording : Wording) (s : State) (event : PythonSseEvent) : State :=
  let reasoning := reasoningSummaryFromPythonEvent event
  let s := s.writeAll ((wording.activityLabel event).toList.map .activityDelta)
  let s := writePythonToolEventAsAgUi wording s event
  let s := s.writeAll ((wording.metadata event).map .custom)
  let s := if event.event ≠ text "message.delta" ∧ reasoning.isNone then s.writeAll [.custom (text "strategy.runEvent")] else s
  match reasoning with
  | some summary => writeReasoning s summary
  | none =>
    let delta := textFromPythonEvent wording event
    if delta = [] then s else writeAssistantTextAsAgUi s delta

def closeOpenAgUiMessages (s : State) : State :=
  let s :=
    match s.textOpen, s.textId with
    | true, some textId => { s.writeAll [.textMessageEnd textId] with textOpen := false }
    | _, _ => s
  if s.reasoningOpen then
    let events := s.reasoningId.toList.flatMap fun id => [.reasoningMessageEnd id,.reasoningEnd id]
    { s.writeAll events with reasoningOpen := false }
  else s

/-- How the reading of the backend's events ends. -/
inductive Exit
  | done
  | error (message : Text)
  | timeout (message : Text)
/-- The end of `POST`, with the text of the timeout. -/
def finish (s : State) : Exit → State
  | .done => (closeOpenAgUiMessages s).writeAll [.runFinished false]
  | .error message => (closeOpenAgUiMessages s).writeAll [.runError message]
  | .timeout message =>
    (closeOpenAgUiMessages (writeAssistantTextAsAgUi (closeOpenAgUiMessages s) message)).writeAll [.runFinished true]
/-- The stream of `POST`. -/
def post (wording : Wording) (events : List PythonSseEvent) (exit : Exit) : List AgUiEvent :=
  let s := (ensureAssistantTextMessageStarted (initial.writeAll [.runStarted,.stateSnapshot])).2
  (finish (events.foldl (writePythonEventAsAgUi wording) s) exit).written

/-! ### The law of the stream -/

inductive Bracket
  | textMessage
  | reasoning
  | reasoningMessage
  | toolCall
deriving DecidableEq

/-- What an event is to the bracket of an id. -/
def mark (bracket : Bracket) (id : Nat) : AgUiEvent → Option Mark
  | .textMessageStart messageId => if bracket = .textMessage ∧ messageId = id then some .opening else none
  | .textMessageContent messageId _ => if bracket = .textMessage ∧ messageId = id then some .inner else none
  | .textMessageEnd messageId => if bracket = .textMessage ∧ messageId = id then some .closing else none
  | .reasoningStart messageId => if bracket = .reasoning ∧ messageId = id then some .opening else none
  | .reasoningMessageStart messageId => if bracket = .reasoningMessage ∧ messageId = id then some .opening else none
  | .reasoningMessageContent messageId _ =>
    if (bracket = .reasoning ∨ bracket = .reasoningMessage) ∧ messageId = id then some .inner else none
  | .reasoningMessageEnd messageId => if bracket = .reasoningMessage ∧ messageId = id then some .closing else none
  | .reasoningEnd messageId => if bracket = .reasoning ∧ messageId = id then some .closing else none
  | .toolCallStart toolCallId _ _ => if bracket = .toolCall ∧ toolCallId = id then some .opening else none
  | .toolCallArgs toolCallId _ => if bracket = .toolCall ∧ toolCallId = id then some .inner else none
  | .toolCallEnd toolCallId => if bracket = .toolCall ∧ toolCallId = id then some .closing else none
  | _ => none

/-- `RUN_FINISHED` or `RUN_ERROR`. -/
def terminal : AgUiEvent → Bool
  | .runFinished _ | .runError _ => true
  | _ => false
structure WellBracketed (written : List AgUiEvent) : Prop where
  bracketed : ∀ bracket id, Bracketed (marks (mark bracket id) written)
  settled : ∀ bracket id, bracket ≠ .toolCall → Settled (marks (mark bracket id) written)
  terminated : ∃ before last, written = before ++ [last] ∧ terminal last ∧ ∀ event ∈ before, terminal event = false
def ToolUse.marks (use : ToolUse) : List Mark :=
  (if use.args.isSome then [.inner] else []) ++ if use.finishes then [.closing] else []
def EndedOnce (uses : List ToolUse) : Prop :=
  uses.Pairwise fun earlier later => earlier.key = later.key → earlier.finishes → ¬ later.finishes ∧ later.args.isNone
def Neutral (event : AgUiEvent) : Prop := terminal event = false ∧ ∀ bracket id, mark bracket id event = none

variable {events : List AgUiEvent}
theorem marks_neutral (neutral : ∀ event ∈ events, Neutral event) (bracket : Bracket) (id : Nat) :
    marks (mark bracket id) events = [] :=
  marks_eq_nil fun event member => (neutral event member).2 bracket id

theorem toolCallEvents_marks (toolCallId resultId : Nat) (use : ToolUse) (bracket : Bracket) (id : Nat) :
    marks (mark bracket id) (toolCallEvents toolCallId resultId use) =
      if bracket = .toolCall ∧ toolCallId = id then use.marks else [] := by
  have args : marks (mark bracket id) (use.args.toList.map (AgUiEvent.toolCallArgs toolCallId)) =
      if bracket = .toolCall ∧ toolCallId = id then (if use.args.isSome then [.inner] else []) else [] := by
    cases use.args with
    | none => simp
    | some args => by_cases here : bracket = .toolCall ∧ toolCallId = id <;> simp [marks,mark,here]
  unfold toolCallEvents ToolUse.marks
  rw [marks_append,args]
  by_cases finishes : use.finishes
  · by_cases here : bracket = .toolCall ∧ toolCallId = id <;> by_cases report : hasBacktestReport use <;>
      by_cases table : hasInlineTable use <;> simp [marks,mark,here,finishes,report,table]
  · by_cases here : bracket = .toolCall ∧ toolCallId = id <;> simp [here,finishes]

/-! ### The invariant -/

/-- Only the bracket of the current id is in the stream, and it is not closed. -/
def Tracked (current : Option Nat) (bracket : Bracket) (written : List AgUiEvent) : Prop :=
  ∀ id, if current = some id then Underway (marks (mark bracket id) written) else marks (mark bracket id) written = []
def callMarks (uses : List ToolUse) (key : Text) : List Mark := (uses.filter (·.key = key)).flatMap ToolUse.marks
structure ToolCalls (uses : List ToolUse) (s : State) : Prop where
  started : ∀ key, s.toolCallIds key = none ↔ ∀ use ∈ uses, use.key ≠ key
  calls : ∀ key id, s.toolCallIds key = some id → marks (mark .toolCall id) s.written = .opening :: callMarks uses key
  unused : ∀ id, (∀ key, s.toolCallIds key ≠ some id) → marks (mark .toolCall id) s.written = []
  apart : ∀ key other id, s.toolCallIds key = some id → s.toolCallIds other = some id → key = other
  below : ∀ key id, s.toolCallIds key = some id → id < s.uuids

structure Sound (uses : List ToolUse) (s : State) : Prop where
  textOpen : s.textOpen = true
  textId : s.textId.isSome
  text : Tracked s.textId .textMessage s.written
  reasoningOpen : s.reasoningOpen = s.reasoningId.isSome
  reasoning : Tracked s.reasoningId .reasoning s.written
  reasoningMessage : Tracked s.reasoningId .reasoningMessage s.written
  toolCalls : ToolCalls uses s
  running : ∀ event ∈ s.written, terminal event = false

@[simp] theorem marks_writeAll (bracket : Bracket) (id : Nat) (s : State) (events : List AgUiEvent) :
    marks (mark bracket id) (s.writeAll events).written = marks (mark bracket id) s.written ++ marks (mark bracket id) events :=
  marks_append _ _ _

variable {bracket : Bracket}
variable {current : Option Nat} {written : List AgUiEvent}
theorem Tracked.apart (tracked : Tracked current bracket written) (none : ∀ id, marks (mark bracket id) events = []) :
    Tracked current bracket (written ++ events) := by
  intro id
  rw [marks_append,none id,append_nil]
  exact tracked id

theorem Tracked.inner {current : Nat}
    (tracked : Tracked (some current) bracket written) (inner : ∀ seen ∈ marks (mark bracket current) events, seen = .inner)
    (none : ∀ id, id ≠ current → marks (mark bracket id) events = []) : Tracked (some current) bracket (written ++ events) := by
  intro id
  have here := tracked id
  rw [marks_append]
  split_ifs at here ⊢ with same
  · cases same
    exact here.append inner
  · rw [here,none id fun eq => same (congrArg some eq.symm)]
    rfl

variable {uses : List ToolUse}
variable {s t : State}

theorem ToolCalls.write (tools : ToolCalls uses s) (ids : t.toolCallIds = s.toolCallIds) (uuids : s.uuids ≤ t.uuids)
    (same : ∀ id, marks (mark .toolCall id) t.written = marks (mark .toolCall id) s.written) : ToolCalls uses t where
  started key := by
    rw [ids]
    exact tools.started key
  calls key id call := by
    rw [ids] at call
    rw [same]
    exact tools.calls key id call
  unused id unused := by
    rw [ids] at unused
    rw [same]
    exact tools.unused id unused
  apart key other id first second := by
    rw [ids] at first second
    exact tools.apart key other id first second
  below key id call := by
    rw [ids] at call
    exact Nat.lt_of_lt_of_le (tools.below key id call) uuids

theorem Sound.neutral {s : State} (sound : Sound uses s) {events : List AgUiEvent}
    (neutral : ∀ event ∈ events, Neutral event) : Sound uses (s.writeAll events) where
  textOpen := sound.textOpen
  textId := sound.textId
  text := sound.text.apart fun id => marks_neutral neutral _ id
  reasoningOpen := sound.reasoningOpen
  reasoning := sound.reasoning.apart fun id => marks_neutral neutral _ id
  reasoningMessage := sound.reasoningMessage.apart fun id => marks_neutral neutral _ id
  toolCalls := sound.toolCalls.write rfl (Nat.le_refl _) fun id => by
    rw [marks_writeAll,marks_neutral neutral,append_nil]
  running event member := by
    rcases mem_append.mp member with earlier | new
    · exact sound.running event earlier
    · exact (neutral event new).1

theorem ensure_started (sound : Sound uses s) :
    ∃ id, s.textId = some id ∧ ensureAssistantTextMessageStarted s = (id,s) := by
  obtain ⟨id,known⟩ := Option.isSome_iff_exists.mp sound.textId
  refine ⟨id,known,?_⟩
  obtain ⟨textId,textOpen,reasoningId,reasoningOpen,toolCallIds,uuids,written⟩ := s
  cases known
  cases sound.textOpen
  rfl

theorem sound_text (sound : Sound uses s) (delta : Text) : Sound uses (writeAssistantTextAsAgUi s delta) := by
  obtain ⟨id,known,ensured⟩ := ensure_started sound
  have other : ∀ bracket, bracket ≠ .textMessage → ∀ n, marks (mark bracket n) [AgUiEvent.textMessageContent id delta] = [] := by
    intro bracket apart n
    simp [marks,mark,apart]
  have written : writeAssistantTextAsAgUi s delta = s.writeAll [.textMessageContent id delta] := by
    rw [writeAssistantTextAsAgUi,ensured]
  rw [written]
  exact
    { textOpen := sound.textOpen
      textId := sound.textId
      text := by
        have text := sound.text
        show Tracked s.textId _ _
        rw [known] at text ⊢
        refine text.inner ?_ fun n apart => ?_
        · simp [marks,mark]
        · simp [marks,mark,apart.symm]
      reasoningOpen := sound.reasoningOpen
      reasoning := sound.reasoning.apart (other .reasoning (by decide))
      reasoningMessage := sound.reasoningMessage.apart (other .reasoningMessage (by decide))
      toolCalls := sound.toolCalls.write rfl (Nat.le_refl _) fun n => by
        rw [marks_writeAll,other .toolCall (by decide),append_nil]
      running := by
        intro event member
        rcases mem_append.mp member with earlier | new
        · exact sound.running event earlier
        · rw [mem_singleton.mp new]
          rfl }

theorem Tracked.opening (tracked : Tracked none bracket written)
    {current : Nat} (opens : Underway (marks (mark bracket current) events)) (none : ∀ id, id ≠ current → marks (mark bracket id) events = []) :
    Tracked (some current) bracket (written ++ events) := by
  intro id
  have before : marks (mark bracket id) written = [] := tracked id
  rw [marks_append,before,nil_append]
  split_ifs with same
  · cases same
    exact opens
  · exact none id fun eq => same (congrArg some eq.symm)

theorem running_append (earlier : ∀ event ∈ written, terminal event = false)
    (new : ∀ event ∈ events, terminal event = false) : ∀ event ∈ written ++ events, terminal event = false := by
  intro event member
  rcases mem_append.mp member with before | after
  · exact earlier event before
  · exact new event after

theorem reasoning_started (sound : Sound uses s) :
    ∃ id t, ensureReasoningStarted s = (id,t) ∧ t.reasoningId = some id ∧ Sound uses t := by
  have started := sound.reasoningOpen
  cases known : s.reasoningId with
  | some id =>
    rw [known] at started
    have same : ensureReasoningStarted s = (id,s) := by
      obtain ⟨textId,textOpen,reasoningId,reasoningOpen,toolCallIds,uuids,written⟩ := s
      cases known
      cases started
      rfl
    exact ⟨id,s,same,known,sound⟩
  | none =>
    rw [known] at started
    have reasoning := sound.reasoning
    have message := sound.reasoningMessage
    rw [known] at reasoning message
    have other : ∀ bracket, bracket ≠ .reasoning → bracket ≠ .reasoningMessage → ∀ n,
        marks (mark bracket n) [AgUiEvent.reasoningStart s.uuids,.reasoningMessageStart s.uuids] = [] := by
      intro bracket first second n
      simp [marks,mark,first,second]
    have opens : ensureReasoningStarted s =
        (s.uuids,{ s.writeAll [.reasoningStart s.uuids,.reasoningMessageStart s.uuids] with
          reasoningId := some s.uuids
          reasoningOpen := true
          uuids := s.uuids + 1 }) := by
      obtain ⟨textId,textOpen,reasoningId,reasoningOpen,toolCallIds,uuids,written⟩ := s
      cases known
      cases started
      rfl
    refine ⟨s.uuids,_,opens,rfl,?_⟩
    exact
      { textOpen := sound.textOpen
        textId := sound.textId
        text := sound.text.apart (other .textMessage (by decide) (by decide))
        reasoningOpen := rfl
        reasoning := by
          refine reasoning.opening ?_ fun n apart => ?_
          · simpa [marks,mark] using underway_opening
          · simp [marks,mark,apart.symm]
        reasoningMessage := by
          refine message.opening ?_ fun n apart => ?_
          · simpa [marks,mark] using underway_opening
          · simp [marks,mark,apart.symm]
        toolCalls := sound.toolCalls.write rfl (Nat.le_succ _) fun n => by
          show marks _ (s.written ++ _) = _
          rw [marks_append,other .toolCall (by decide) (by decide),append_nil]
        running := running_append sound.running (by simp [terminal]) }

theorem sound_reasoning (sound : Sound uses s) (summary : Text) : Sound uses (writeReasoning s summary) := by
  obtain ⟨id,t,ensured,known,started⟩ := reasoning_started sound
  have other : ∀ bracket, bracket ≠ .reasoning → bracket ≠ .reasoningMessage → ∀ n,
      marks (mark bracket n) [AgUiEvent.reasoningMessageContent id (text "- " ++ summary ++ text "\n")] = [] := by
    intro bracket first second n
    simp [marks,mark,first,second]
  have written : writeReasoning s summary =
      t.writeAll [.reasoningMessageContent id (text "- " ++ summary ++ text "\n")] := by
    rw [writeReasoning,ensured]
  have reasoning := started.reasoning
  have message := started.reasoningMessage
  rw [known] at reasoning message
  rw [written]
  exact
    { textOpen := started.textOpen
      textId := started.textId
      text := started.text.apart (other .textMessage (by decide) (by decide))
      reasoningOpen := started.reasoningOpen
      reasoning := by
        show Tracked t.reasoningId _ _
        rw [known]
        refine reasoning.inner ?_ fun n apart => ?_
        · simp [marks,mark]
        · simp [marks,mark,apart.symm]
      reasoningMessage := by
        show Tracked t.reasoningId _ _
        rw [known]
        refine message.inner ?_ fun n apart => ?_
        · simp [marks,mark]
        · simp [marks,mark,apart.symm]
      toolCalls := started.toolCalls.write rfl (Nat.le_refl _) fun n => by
        rw [marks_writeAll,other .toolCall (by decide) (by decide),append_nil]
      running := running_append started.running (by simp [terminal]) }

/-! ### Tool calls -/

/-- The state after a tool event, apart from its calls. -/
structure ToolWrite (s t : State) : Prop where
  textOpen : t.textOpen = s.textOpen
  textId : t.textId = s.textId
  reasoningOpen : t.reasoningOpen = s.reasoningOpen
  reasoningId : t.reasoningId = s.reasoningId
  written : ∃ events, t.written = s.written ++ events ∧ (∀ event ∈ events, terminal event = false) ∧
    ∀ bracket id, bracket ≠ .toolCall → marks (mark bracket id) events = []

theorem Sound.toolWrite {later : List ToolUse} (sound : Sound uses s) (write : ToolWrite s t)
    (tools : ToolCalls later t) : Sound later t := by
  obtain ⟨events,written,running,other⟩ := write.written
  exact
    { textOpen := write.textOpen.trans sound.textOpen
      textId := by
        rw [write.textId]
        exact sound.textId
      text := by
        rw [write.textId,written]
        exact sound.text.apart fun id => other .textMessage id (by decide)
      reasoningOpen := by
        rw [write.reasoningOpen,write.reasoningId]
        exact sound.reasoningOpen
      reasoning := by
        rw [write.reasoningId,written]
        exact sound.reasoning.apart fun id => other .reasoning id (by decide)
      reasoningMessage := by
        rw [write.reasoningId,written]
        exact sound.reasoningMessage.apart fun id => other .reasoningMessage id (by decide)
      toolCalls := tools
      running := by
        rw [written]
        exact running_append sound.running running }

theorem started_of_none (sound : Sound uses s) {use : ToolUse} (new : s.toolCallIds use.key = none) :
    ∃ textId, ensureToolCallStarted s use =
      (s.uuids,{ s with
        toolCallIds := Function.update s.toolCallIds use.key (some s.uuids)
        uuids := s.uuids + 1
        written := s.written ++ [.toolCallStart s.uuids textId use.toolName] }) := by
  obtain ⟨id,-,ensured⟩ := ensure_started sound
  refine ⟨id,?_⟩
  rw [ensureToolCallStarted]
  simp only [new,ensured]
  rfl

theorem callMarks_append (uses : List ToolUse) (use : ToolUse) (key : Text) :
    callMarks (uses ++ [use]) key = callMarks uses key ++ if use.key = key then use.marks else [] := by
  unfold callMarks
  rw [filter_append,flatMap_append]
  by_cases here : use.key = key <;> simp [here]
theorem callMarks_eq_nil {key : Text} (none : ∀ use ∈ uses, use.key ≠ key) : callMarks uses key = [] := by
  have nothing : uses.filter (·.key = key) = [] := by
    rw [filter_eq_nil_iff]
    intro use member
    simpa using none use member
  rw [callMarks,nothing]
  rfl

/-- A tool event of a call adds its marks to those of the call. -/
theorem ToolCalls.extend {use : ToolUse} {s t : State} {id : Nat} (tools : ToolCalls uses s)
    (ids : t.toolCallIds = Function.update s.toolCallIds use.key (some id))
    (own : ∀ key, s.toolCallIds key = some id → key = use.key) (former : ∀ n, s.toolCallIds use.key = some n → n = id)
    (below : id < t.uuids) (uuids : s.uuids ≤ t.uuids)
    (here : marks (mark .toolCall id) t.written = .opening :: (callMarks uses use.key ++ use.marks))
    (others : ∀ n, n ≠ id → marks (mark .toolCall n) t.written = marks (mark .toolCall n) s.written) :
    ToolCalls (uses ++ [use]) t := by
  have call_cases : ∀ key n, t.toolCallIds key = some n →
      key = use.key ∧ n = id ∨ key ≠ use.key ∧ s.toolCallIds key = some n ∧ n ≠ id := by
    intro key n call
    rw [ids] at call
    by_cases same : key = use.key
    · subst same
      rw [update_self] at call
      exact .inl ⟨rfl,(Option.some.inj call).symm⟩
    · rw [update_of_ne same] at call
      refine .inr ⟨same,call,?_⟩
      rintro rfl
      exact same (own key call)
  constructor
  · intro key
    rw [ids]
    by_cases same : key = use.key
    · subst same
      rw [update_self]
      refine ⟨nofun,fun none => ?_⟩
      exact absurd rfl (none use (by simp))
    · rw [update_of_ne same,tools.started key]
      constructor
      · intro none other member
        rcases mem_append.mp member with earlier | last
        · exact none other earlier
        · rw [mem_singleton.mp last]
          exact Ne.symm same
      · intro none other member
        exact none other (mem_append_left _ member)
  · intro key n call
    rw [callMarks_append]
    rcases call_cases key n call with ⟨rfl,rfl⟩ | ⟨apart,before,other⟩
    · rw [if_pos rfl]
      exact here
    · rw [if_neg (Ne.symm apart),append_nil,others n other]
      exact tools.calls key n before
  · intro n unused
    have other : n ≠ id := by
      rintro rfl
      exact unused use.key (by rw [ids,update_self])
    rw [others n other]
    refine tools.unused n fun key call => unused key ?_
    have apart : key ≠ use.key := by
      rintro rfl
      exact other (former n call)
    rw [ids,update_of_ne apart]
    exact call
  · intro key other n first second
    rcases call_cases key n first with ⟨rfl,rfl⟩ | ⟨-,before,apart⟩
    · rcases call_cases other _ second with ⟨rfl,-⟩ | ⟨-,-,apart⟩
      · rfl
      · exact absurd rfl apart
    · rcases call_cases other n second with ⟨rfl,same⟩ | ⟨-,also,-⟩
      · exact absurd same apart
      · exact tools.apart key other n before also
  · intro key n call
    rcases call_cases key n call with ⟨rfl,rfl⟩ | ⟨-,before,-⟩
    · exact below
    · exact Nat.lt_of_lt_of_le (tools.below key n before) uuids

theorem toolCallEvents_running (toolCallId resultId : Nat) (use : ToolUse) :
    ∀ event ∈ toolCallEvents toolCallId resultId use, terminal event = false := by
  intro event member
  unfold toolCallEvents at member
  rcases mem_append.mp member with args | ends
  · obtain ⟨args,-,rfl⟩ := mem_map.mp args
    rfl
  · split at ends
    · simp only [mem_append,mem_singleton] at ends
      rcases ends with ((rfl | report) | table) | rfl
      · rfl
      · split at report
        · rw [mem_singleton.mp report]
          rfl
        · cases report
      · split at table
        · rw [mem_singleton.mp table]
          rfl
        · cases table
      · rfl
    · cases ends

theorem toolCallEvents_apart (toolCallId resultId : Nat) (use : ToolUse) (apart : bracket ≠ .toolCall)
    (id : Nat) : marks (mark bracket id) (toolCallEvents toolCallId resultId use) = [] := by
  rw [toolCallEvents_marks,if_neg fun here => apart here.1]

theorem sound_tool (wording : Wording) (sound : Sound uses s) (event : PythonSseEvent) :
    Sound (uses ++ (toolUse wording event).toList) (writePythonToolEventAsAgUi wording s event) := by
  unfold writePythonToolEventAsAgUi
  cases said : toolUse wording event with
  | none => simpa using sound
  | some use =>
    have tools := sound.toolCalls
    have grows : ∀ n, n ≤ if use.finishes then n + 1 else n := by
      intro n
      split <;> omega
    cases known : s.toolCallIds use.key with
    | some id =>
      have ensured : ensureToolCallStarted s use = (id,s) := by
        rw [ensureToolCallStarted,known]
      simp only [ensured,Option.toList_some]
      refine sound.toolWrite ⟨rfl,rfl,rfl,rfl,_,rfl,toolCallEvents_running id s.uuids use,?_⟩ ?_
      · exact fun bracket n apart => toolCallEvents_apart id s.uuids use apart n
      · refine @ToolCalls.extend _ _ _ _ id tools ?_ ?_ ?_ ?_ (grows s.uuids) ?_ ?_
        · exact (Function.update_eq_self_iff.mpr known.symm).symm
        · exact fun key call => tools.apart key use.key id call known
        · exact fun n call => Option.some.inj (call.symm.trans known)
        · exact Nat.lt_of_lt_of_le (tools.below use.key id known) (grows s.uuids)
        · show marks _ (s.written ++ _) = _
          rw [marks_append,tools.calls use.key id known,toolCallEvents_marks,if_pos ⟨rfl,rfl⟩,cons_append]
        · intro n other
          show marks _ (s.written ++ _) = _
          rw [marks_append,toolCallEvents_marks,if_neg fun here => other here.2.symm,append_nil]
    | none =>
      obtain ⟨textId,ensured⟩ := started_of_none sound known
      simp only [ensured,Option.toList_some]
      have fresh : ∀ key, s.toolCallIds key ≠ some s.uuids := fun key call => Nat.lt_irrefl _ (tools.below key _ call)
      have opens : ∀ bracket n, marks (mark bracket n) [AgUiEvent.toolCallStart s.uuids textId use.toolName] =
          if bracket = .toolCall ∧ s.uuids = n then [.opening] else [] := by
        intro bracket n
        by_cases here : bracket = .toolCall ∧ s.uuids = n <;> simp [marks,mark,here]
      refine sound.toolWrite ⟨rfl,rfl,rfl,rfl,_,append_assoc _ _ _,?_,?_⟩ ?_
      · exact running_append (by simp [terminal]) (toolCallEvents_running s.uuids _ use)
      · intro bracket n apart
        rw [marks_append,opens,if_neg fun here => apart here.1,toolCallEvents_apart _ _ use apart,append_nil]
      · refine @ToolCalls.extend _ _ _ _ s.uuids tools rfl ?_ ?_ ?_ ?_ ?_ ?_
        · exact fun key call => absurd call (fresh key)
        · exact fun n call => absurd (call.symm.trans known) (Option.some_ne_none n)
        · exact Nat.lt_of_lt_of_le (Nat.lt_succ_self _) (grows (s.uuids + 1))
        · exact Nat.le_trans (Nat.le_succ _) (grows (s.uuids + 1))
        · show marks _ (s.written ++ _ ++ _) = _
          rw [marks_append,marks_append,tools.unused s.uuids fresh,opens,if_pos ⟨rfl,rfl⟩,toolCallEvents_marks,
            if_pos ⟨rfl,rfl⟩,callMarks_eq_nil ((tools.started use.key).mp known)]
          rfl
        · intro n other
          show marks _ (s.written ++ _ ++ _) = _
          rw [marks_append,marks_append,opens,if_neg fun here => other here.2.symm,toolCallEvents_marks,
            if_neg fun here => other here.2.symm,append_nil,append_nil]

theorem neutral_activity (label : Text) : Neutral (.activityDelta label) := ⟨rfl,fun _ _ => rfl⟩
theorem neutral_custom (name : Text) : Neutral (.custom name) := ⟨rfl,fun _ _ => rfl⟩
theorem Sound.shown (sound : Sound uses s) (name : Text) (condition : Prop)
    [Decidable condition] : Sound uses (if condition then s.writeAll [.custom name] else s) := by
  split
  · refine sound.neutral fun written member => ?_
    rw [mem_singleton.mp member]
    exact neutral_custom name
  · exact sound

theorem sound_event (wording : Wording) (sound : Sound uses s) (event : PythonSseEvent) :
    Sound (uses ++ (toolUse wording event).toList) (writePythonEventAsAgUi wording s event) := by
  unfold writePythonEventAsAgUi
  have activity : Sound uses (s.writeAll ((wording.activityLabel event).toList.map .activityDelta)) := by
    refine sound.neutral fun written member => ?_
    obtain ⟨label,-,rfl⟩ := mem_map.mp member
    exact neutral_activity label
  have tool := sound_tool wording activity event
  have metadata := @Sound.neutral _ _ tool ((wording.metadata event).map .custom) fun written member => by
    obtain ⟨name,-,rfl⟩ := mem_map.mp member
    exact neutral_custom name
  cases reasoningSummaryFromPythonEvent event with
  | some summary => exact sound_reasoning (metadata.shown _ _) summary
  | none =>
    dsimp only
    split
    · exact metadata.shown _ _
    · exact sound_text (metadata.shown _ _) _

theorem sound_events (wording : Wording) (sound : Sound uses s) (events : List PythonSseEvent) :
    Sound (uses ++ events.filterMap (toolUse wording)) (events.foldl (writePythonEventAsAgUi wording) s) := by
  induction events generalizing uses s with
  | nil => simpa using sound
  | cons event events ih =>
    have next := ih (sound_event wording sound event)
    rw [append_assoc] at next
    cases said : toolUse wording event <;> simpa [filterMap_cons,said] using next

theorem sound_start : Sound [] (ensureAssistantTextMessageStarted (initial.writeAll [.runStarted,.stateSnapshot])).2 where
  textOpen := rfl
  textId := rfl
  text id := by
    have seen : marks (mark .textMessage id) [AgUiEvent.runStarted,.stateSnapshot,.textMessageStart 0] =
        if some 0 = some id then [.opening] else [] := by
      by_cases here : 0 = id
      · subst here
        rfl
      · simp [marks,mark,here]
    split_ifs with here
    · exact (seen.trans (if_pos here)) ▸ underway_opening
    · exact seen.trans (if_neg here)
  reasoningOpen := rfl
  reasoning _ := rfl
  reasoningMessage _ := rfl
  toolCalls :=
    { started := fun _ => ⟨fun _ => nofun,fun _ => rfl⟩
      calls := nofun
      unused := fun _ _ => rfl
      apart := nofun
      below := nofun }
  running := by
    show ∀ event ∈ [AgUiEvent.runStarted,.stateSnapshot,.textMessageStart 0], terminal event = false
    simp [terminal]

/-! ### The end of the stream -/

/-- The state in which the backend's events leave the stream. -/
def afterEvents (wording : Wording) (events : List PythonSseEvent) : State :=
  events.foldl (writePythonEventAsAgUi wording)
    (ensureAssistantTextMessageStarted (initial.writeAll [.runStarted,.stateSnapshot])).2
theorem sound_afterEvents (wording : Wording) (events : List PythonSseEvent) :
    Sound (events.filterMap (toolUse wording)) (afterEvents wording events) :=
  sound_events wording sound_start events
theorem marks_pair (earlier later : ToolUse) :
    (∀ first ∈ earlier.marks, ∀ second ∈ later.marks, first ≠ .closing) ↔
      (earlier.finishes → ¬ later.finishes ∧ later.args.isNone) := by
  unfold ToolUse.marks
  cases earlier.args <;> cases later.args <;> by_cases first : earlier.finishes <;> by_cases second : later.finishes <;>
    simp [first,second]

theorem bracketed_call (uses : List ToolUse) (key : Text) :
    Bracketed (.opening :: callMarks uses key) ↔
      uses.Pairwise fun earlier later =>
        earlier.key = key → later.key = key → earlier.finishes → ¬ later.finishes ∧ later.args.isNone := by
  have inner : .opening ∉ callMarks uses key := by
    intro member
    obtain ⟨use,-,mark⟩ := mem_flatMap.mp member
    unfold ToolUse.marks at mark
    cases use.args <;> cases use.finishes <;> simp at mark
  have alone : ∀ use : ToolUse, use.marks.Pairwise fun earlier _ => earlier ≠ .closing := by
    intro use
    unfold ToolUse.marks
    cases use.args <;> cases use.finishes <;> simp
  rw [bracketed_cons,callMarks,pairwise_flatMap,pairwise_filter]
  simp only [marks_pair,decide_eq_true_eq]
  constructor
  · exact fun bracketed => bracketed.2.2
  · exact fun pairs => ⟨inner,fun use _ => alone use,pairs⟩

theorem toolCalls_iff (tools : ToolCalls uses s) :
    (∀ id, Bracketed (marks (mark .toolCall id) s.written)) ↔ EndedOnce uses := by
  constructor
  · intro all
    rw [EndedOnce,pairwise_iff_forall_sublist]
    intro earlier later sub same
    cases known : s.toolCallIds earlier.key with
    | none => exact absurd rfl ((tools.started earlier.key).mp known earlier (sub.subset mem_cons_self))
    | some id =>
      have bracketed := all id
      rw [tools.calls earlier.key id known,bracketed_call,pairwise_iff_forall_sublist] at bracketed
      exact bracketed sub rfl same.symm
  · intro once id
    by_cases used : ∃ key, s.toolCallIds key = some id
    · obtain ⟨key,call⟩ := used
      rw [tools.calls key id call,bracketed_call]
      exact once.imp fun pair first second => pair (first.trans second.symm)
    · rw [tools.unused id fun key call => used ⟨key,call⟩]
      exact bracketed_nil

/-- The ends that `closeOpenAgUiMessages` writes. -/
def ends (textId : Nat) (reasoningId : Option Nat) : List AgUiEvent :=
  .textMessageEnd textId :: reasoningId.toList.flatMap fun id => [.reasoningMessageEnd id,.reasoningEnd id]

theorem close_eq (sound : Sound uses s) :
    ∃ textId, s.textId = some textId ∧ closeOpenAgUiMessages s =
      { s with textOpen := false, reasoningOpen := false, written := s.written ++ ends textId s.reasoningId } := by
  obtain ⟨textId,known⟩ := Option.isSome_iff_exists.mp sound.textId
  refine ⟨textId,known,?_⟩
  have textOpen := sound.textOpen
  have reasoningOpen := sound.reasoningOpen
  obtain ⟨text,isOpen,reasoningId,reasoning,toolCallIds,uuids,written⟩ := s
  cases known
  cases textOpen
  cases reasoningId with
  | none =>
    cases reasoningOpen
    rfl
  | some id =>
    cases reasoningOpen
    simp [closeOpenAgUiMessages,State.writeAll,ends]

theorem ends_text (textId : Nat) (reasoningId : Option Nat) (id : Nat) :
    marks (mark .textMessage id) (ends textId reasoningId) = if some textId = some id then [.closing] else [] := by
  by_cases here : textId = id <;> cases reasoningId <;> simp [ends,marks,mark,here]
theorem ends_reasoning (textId : Nat) (reasoningId : Option Nat)
    (isReasoning : bracket = .reasoning ∨ bracket = .reasoningMessage) (id : Nat) :
    marks (mark bracket id) (ends textId reasoningId) = if reasoningId = some id then [.closing] else [] := by
  cases reasoningId with
  | none => rcases isReasoning with rfl | rfl <;> simp [ends,marks,mark]
  | some reasoningId =>
    by_cases here : reasoningId = id <;> rcases isReasoning with rfl | rfl <;> simp [ends,marks,mark,here]
theorem ends_toolCall (textId : Nat) (reasoningId : Option Nat) (id : Nat) :
    marks (mark .toolCall id) (ends textId reasoningId) = [] := by
  cases reasoningId <;> simp [ends,marks,mark]
theorem ends_running (textId : Nat) (reasoningId : Option Nat) : ∀ event ∈ ends textId reasoningId, terminal event = false := by
  cases reasoningId <;> simp [ends,terminal]

theorem Tracked.closed (tracked : Tracked current bracket written) {id : Nat} {closing : List Mark}
    (closes : closing = if current = some id then [.closing] else []) :
    Bracketed (marks (mark bracket id) written ++ closing) ∧ Settled (marks (mark bracket id) written ++ closing) := by
  have here := tracked id
  subst closes
  split_ifs at here ⊢
  · exact ⟨here.closed,fun _ => mem_append_right _ (mem_singleton.mpr rfl)⟩
  · rw [here]
    exact ⟨bracketed_nil,nofun⟩

theorem mark_terminal {event : AgUiEvent} (last : terminal event) (bracket : Bracket) (id : Nat) :
    marks (mark bracket id) [event] = [] := by
  cases event <;> first | rfl | cases last

theorem closed_iff {s : State} (sound : Sound uses s) {last : AgUiEvent} (isLast : terminal last) :
    WellBracketed (closeOpenAgUiMessages s |>.writeAll [last]).written ↔ EndedOnce uses := by
  obtain ⟨textId,known,closed⟩ := close_eq sound
  have written : (closeOpenAgUiMessages s |>.writeAll [last]).written = s.written ++ ends textId s.reasoningId ++ [last] := by
    rw [closed]
    rfl
  rw [written,← toolCalls_iff sound.toolCalls]
  have all : ∀ bracket id, marks (mark bracket id) (s.written ++ ends textId s.reasoningId ++ [last]) =
      marks (mark bracket id) s.written ++ marks (mark bracket id) (ends textId s.reasoningId) := by
    intro bracket id
    rw [marks_append,marks_append,mark_terminal isLast,append_nil]
  have text := sound.text
  rw [known] at text
  have messages : ∀ bracket id, bracket ≠ .toolCall →
      Bracketed (marks (mark bracket id) s.written ++ marks (mark bracket id) (ends textId s.reasoningId)) ∧
        Settled (marks (mark bracket id) s.written ++ marks (mark bracket id) (ends textId s.reasoningId)) := by
    intro bracket id apart
    cases bracket with
    | textMessage => exact text.closed (ends_text textId s.reasoningId id)
    | reasoning => exact sound.reasoning.closed (ends_reasoning textId s.reasoningId (.inl rfl) id)
    | reasoningMessage => exact sound.reasoningMessage.closed (ends_reasoning textId s.reasoningId (.inr rfl) id)
    | toolCall => exact absurd rfl apart
  constructor
  · intro well id
    have bracketed := well.bracketed .toolCall id
    rwa [all,ends_toolCall,append_nil] at bracketed
  · intro once
    refine ⟨?_,?_,?_⟩
    · intro bracket id
      rw [all]
      by_cases tool : bracket = .toolCall
      · subst tool
        rw [ends_toolCall,append_nil]
        exact once id
      · exact (messages bracket id tool).1
    · intro bracket id apart
      rw [all]
      exact (messages bracket id apart).2
    · exact ⟨_,last,rfl,isLast,running_append sound.running (ends_running textId s.reasoningId)⟩

theorem not_wellBracketed_timeout (sound : Sound uses s) (message : Text) :
    ¬ WellBracketed (finish s (.timeout message)).written := by
  obtain ⟨textId,known,closed⟩ := close_eq sound
  have text := sound.text
  rw [known] at text
  intro well
  have bracketed := well.bracketed .textMessage textId
  have again : ∃ events, (finish s (.timeout message)).written = s.written ++ (ends textId s.reasoningId ++
      AgUiEvent.textMessageStart textId :: events) := by
    rw [finish,closed]
    obtain ⟨text,isOpen,reasoningId,reasoning,toolCallIds,uuids,written⟩ := s
    cases known
    exact ⟨_,by simp [writeAssistantTextAsAgUi,ensureAssistantTextMessageStarted,closeOpenAgUiMessages,State.writeAll]; rfl⟩
  obtain ⟨events,written⟩ := again
  rw [written,marks_append] at bracketed
  have here := text textId
  rw [if_pos rfl] at here
  obtain ⟨rest,opened,-⟩ := here
  refine not_bracketed_reopened ?_ ?_ bracketed
  · rw [opened]
    exact mem_cons_self
  · rw [marks_append,marks_cons]
    simp [mark]

/-! ### Results -/

theorem wellBracketed_iff (wording : Wording) (events : List PythonSseEvent) (exit : Exit) :
    WellBracketed (post wording events exit) ↔
      (∀ message, exit ≠ .timeout message) ∧ EndedOnce (events.filterMap (toolUse wording)) := by
  have sound := sound_afterEvents wording events
  have same : post wording events exit = (finish (afterEvents wording events) exit).written := rfl
  rw [same]
  cases exit with
  | done =>
    have closed := @closed_iff _ _ sound (.runFinished false) rfl
    exact closed.trans ⟨fun once => ⟨nofun,once⟩,fun both => both.2⟩
  | error message =>
    have closed := @closed_iff _ _ sound (.runError message) rfl
    exact closed.trans ⟨fun once => ⟨nofun,once⟩,fun both => both.2⟩
  | timeout message =>
    constructor
    · exact fun well => absurd well (not_wellBracketed_timeout sound message)
    · exact fun both => absurd rfl (both.1 message)

def plainWording : Wording where
  template _ := []
  runFailureMessage _ := []
  activityLabel _ := none
  metadata _ := []
/-- An event of a tool as the backend sends it, without an id of the call. -/
def toolEvent (event toolId : String) : PythonSseEvent where
  event := text event
  data := .object [(text "run_id",.text (text "run_1")),(text "payload",.object [(text "tool_id",.text (text toolId))])]

/-- A tool that is called twice in a run. -/
theorem endedTwice : ¬ ∀ wording events exit, WellBracketed (post wording events exit) := by
  intro all
  have well := all plainWording
    [toolEvent "tool.started" "knowledge_check",toolEvent "tool.completed" "knowledge_check",
      toolEvent "tool.started" "knowledge_check",toolEvent "tool.completed" "knowledge_check"] .done
  exact absurd (well.bracketed .toolCall 1).closedOnce (by decide +kernel)
end Codebot.AgUiStreams
