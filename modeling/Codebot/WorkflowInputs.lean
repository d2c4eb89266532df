import Codebot.Texts
import Codebot.WorkflowTasks
import Mathlib.Data.Finmap
import Mathlib.Data.Finset.Max

/-!
Answers to workflow tasks: `validate_workflow_task_response` and
`workflow_task_response_status` over the workflow registry. A dict of values is a finite map.
-/
namespace Codebot.WorkflowInputs
open Texts WorkflowTasks

/-- A JSON value. An item of a list is its text or nothing, `other` are numbers and objects. -/
inductive InputValue
  | null | boolean (value : Bool) | text (value : Text) | list (items : List (Option Text)) | other (code : Nat)
deriving DecidableEq
abbrev Values := Finmap fun _ : String => InputValue
structure InputOption where
  id : Text
  value : Text
  label : Text
  disabled : Bool
deriving DecidableEq
inductive InputKind
  | boolean | multiSelect | singleSelect | selectOrText | text | textarea | unsupported
deriving DecidableEq

structure InputTemplate where
  id : String
  kind : InputKind
  required : Bool
  allowCustom : Bool
  options : List InputOption
  optionSetId : Option String

structure TaskTemplate where
  id : String
  inputRequestIds : List String
  actionIds : List String
  resumeOnComplete : Bool
  resumeIntent : Option String
/-- What the modelled functions read of a workflow. -/
structure Definition where
  inputRequestTemplates : List InputTemplate
  taskTemplates : List TaskTemplate
  actions : List String
  optionSets : List (String × List InputOption)
/-- `WORKFLOW_DEFINITIONS`. -/
abbrev Registry := List (String × Definition)
def option (id value label : String) : InputOption := ⟨text id,text value,text label,false⟩

/-- `WORKFLOW_DEFINITIONS`, with the keys that the functions read. -/
def workflowDefinitions : Registry := [("strategy_bot_simulation",{
  inputRequestTemplates := [
    { id := "market", kind := .selectOrText, required := true, allowCustom := true,
      options := [],
      optionSetId := some "market_defaults" },
    { id := "symbol", kind := .text, required := true, allowCustom := true,
      options := [option "btcusdt" "BTCUSDT" "BTCUSDT",
        option "ethusdt" "ETHUSDT" "ETHUSDT",
        option "aapl" "AAPL" "AAPL"],
      optionSetId := none },
    { id := "timeframe", kind := .selectOrText, required := true, allowCustom := true,
      options := [],
      optionSetId := some "timeframe_defaults" },
    { id := "style", kind := .selectOrText, required := true, allowCustom := true,
      options := [],
      optionSetId := some "strategy_style_defaults" },
    { id := "entry_exit_idea", kind := .textarea, required := false, allowCustom := true,
      options := [option "ma_cross" "moving average crossover" "MA crossover",
        option "rsi_reversal" "RSI overbought/oversold reversal" "RSI reversal",
        option "breakout_volume" "breakout with volume confirmation" "Breakout + volume"],
      optionSetId := none },
    { id := "risk_preference", kind := .selectOrText, required := true, allowCustom := true,
      options := [],
      optionSetId := some "risk_preference_defaults" },
    { id := "broker_connection_id", kind := .text, required := true, allowCustom := true,
      options := [],
      optionSetId := none },
    { id := "account_id", kind := .text, required := true, allowCustom := true,
      options := [],
      optionSetId := none },
    { id := "risk_policy_id", kind := .text, required := true, allowCustom := true,
      options := [],
      optionSetId := none },
    { id := "strategy_id", kind := .text, required := true, allowCustom := true,
      options := [],
      optionSetId := none },
    { id := "data_subscriptions", kind := .textarea, required := true, allowCustom := true,
      options := [],
      optionSetId := none },
    { id := "draft_only_choice", kind := .singleSelect, required := false, allowCustom := false,
      options := [],
      optionSetId := some "draft_only_choices" },
    { id := "next_after_strategy_spec", kind := .selectOrText, required := true, allowCustom := true,
      options := [],
      optionSetId := some "strategy_spec_next_actions" }]
  taskTemplates := [
    { id := "collect_strategy_inputs",
      inputRequestIds := ["market","symbol","timeframe","style","entry_exit_idea","risk_preference"],
      actionIds := [], resumeOnComplete := true,
      resumeIntent := some "strategy_building" },
    { id := "draft_only_backtest_choice", inputRequestIds := ["draft_only_choice"],
      actionIds := [], resumeOnComplete := false,
      resumeIntent := none },
    { id := "review_strategy_spec_next_step", inputRequestIds := ["next_after_strategy_spec"],
      actionIds := [], resumeOnComplete := true,
      resumeIntent := some "strategy_building" },
    { id := "complete_paper_setup",
      inputRequestIds := ["broker_connection_id","account_id","risk_policy_id","strategy_id","data_subscriptions"],
      actionIds := ["confirm_paper_start"], resumeOnComplete := false,
      resumeIntent := none },
    { id := "confirm_paper_start", inputRequestIds := [],
      actionIds := ["confirm_paper_start"], resumeOnComplete := false,
      resumeIntent := none }]
  actions := ["confirm_paper_start"]
  optionSets := [
    ("market_defaults",[option "crypto" "crypto" "Crypto",
      option "stock" "stock" "Stock",
      option "forex" "forex" "Forex"]),
    ("timeframe_defaults",[option "15m" "15m" "15m",
      option "1h" "1h" "1h",
      option "4h" "4h" "4h",
      option "1d" "1d" "1d"]),
    ("strategy_style_defaults",[option "trend" "trend" "Trend",
      option "mean_reversion" "mean_reversion" "Mean reversion",
      option "breakout" "breakout" "Breakout",
      option "scalping" "scalping" "Scalping",
      option "dca" "dca" "DCA"]),
    ("risk_preference_defaults",[option "conservative" "conservative" "Conservative",
      option "balanced" "balanced" "Balanced",
      option "aggressive" "aggressive" "Aggressive"]),
    ("draft_only_choices",[option "run_preview" "run_preview" "Run preview",
      option "draft_only" "draft_only" "Draft only"]),
    ("strategy_spec_next_actions",[option "generate_pine" "generate_pine" "Generate Pine Script",
      option "revise_strategy_spec" "revise_strategy_spec" "Revise strategy spec",
      option "skip_pine" "skip_pine" "Skip Pine"])]
})]

def taskTemplate (definition : Definition) (taskTemplateId : String) : Option TaskTemplate :=
  definition.taskTemplates.find? fun template => template.id == taskTemplateId
def inputRequestTemplate (definition : Definition) (requestId : String) : Option InputTemplate :=
  definition.inputRequestTemplates.find? fun template => template.id == requestId
structure PayloadRequest where
  id : String
  options : List InputOption
deriving DecidableEq
structure PayloadAction where
  id : String
  enabled : Bool
deriving DecidableEq

/-- The payload of a task. `rest` is the JSON text of the keys that no modelled function reads. -/
structure Payload where
  taskTemplateId : Option String
  status : Option String
  stepId : Option String
  kind : Option String
  inputRequestIds : List String
  actionIds : List String
  inputRequests : List PayloadRequest
  actions : List PayloadAction
  values : Values
  rest : String
deriving DecidableEq

instance : TaskPayload Payload where
  text payload
    | .taskTemplateId => payload.taskTemplateId
    | .status => payload.status
    | .stepId => payload.stepId
    | .kind => payload.kind
/-- What `validate_workflow_task_response` returns. -/
structure Response where
  workflowId : String
  taskTemplateId : String
  actionId : Option String
  values : Values
deriving DecidableEq
abbrev Task := WorkflowTask Payload Response
/-- `_existing_task_values`. The values of the response override those of the payload. -/
def existingTaskValues (task : Task) : Values :=
  (task.responseJson.elim ∅ (·.values)) ∪ task.payloadJson.values

section
variable (unicode : Unicode)

/-- `_string_value` of a string. -/
def stringValue (value : Text) : Option Text :=
  let normalized := strip unicode value
  if normalized = [] then none else some normalized
def isEmptyValue : InputValue → Bool
  | .null => true
  | .text value => value = []
  | .list items => items = []
  | .boolean _ => false
  | .other _ => false
def maxWorkflowPromptOptions : Nat := 3

def sanitizePromptOptions (options : List InputOption) : List InputOption :=
  options.foldl (fun taken item =>
    if maxWorkflowPromptOptions ≤ taken.length then taken
    else
      match stringValue unicode item.id,stringValue unicode item.value,stringValue unicode item.label with
      | some id,some value,some label =>
        if taken.any (fun other => other.id == id || other.value == value) then taken
        else if item.disabled then taken
        else taken ++ [⟨id,value,label,false⟩]
      | _,_,_ => taken) []

/-- `_input_request_for_validation`. A template that allows custom values has the flag already. -/
def inputRequestForValidation (definition : Definition) (payload : Payload) (requestId : String) : Option InputTemplate :=
  (inputRequestTemplate definition requestId).map fun template =>
    match payload.inputRequests.find? fun request => request.id == requestId with
    | none => template
    | some request =>
      match sanitizePromptOptions unicode request.options with
      | [] => template
      | options => { template with options := options }

def matchingOptionValue (definition : Definition) (template : InputTemplate) (value : Text) : Option Text :=
  let isIt (option : InputOption) : Bool := option.id == value || option.value == value
  match template.options.find? fun option => !option.disabled && isIt option with
  | some option => some option.value
  | none =>
    match template.optionSetId with
    | none => none
    | some optionSetId => (((definition.optionSets.lookup optionSetId).getD []).find? isIt).map (·.value)

def sanitizeOptionValue (definition : Definition) (template : InputTemplate) (value : Option Text) :
    Except String Text :=
  match (value.bind (stringValue unicode)).bind (matchingOptionValue definition template) with
  | some value => .ok value
  | none => .error (template.id ++ " has an invalid option")

def sanitizeInputValue (definition : Definition) (template : InputTemplate) (value : InputValue) :
    Except String InputValue :=
  let normalized : Option Text :=
    match value with
    | .text value => stringValue unicode value
    | _ => none
  match template.kind with
  | .boolean =>
    match value with
    | .boolean value => .ok (.boolean value)
    | _ => .error (template.id ++ " must be boolean")
  | .multiSelect =>
    match value with
    | .list items => do
      let values ← items.mapM (sanitizeOptionValue unicode definition template)
      return .list (values.map some)
    | _ => .error (template.id ++ " must be a list")
  | .singleSelect | .selectOrText =>
    match normalized with
    | none => .ok .null
    | some normalized =>
      match matchingOptionValue definition template normalized with
      | some value => .ok (.text value)
      | none =>
        if template.kind = .selectOrText ∧ template.allowCustom then .ok (.text normalized)
        else .error (template.id ++ " has an invalid option")
  | .text | .textarea => .ok (normalized.elim .null .text)
  | .unsupported => .error (template.id ++ " has an unsupported kind")

/-- One turn of the loop of `_validate_values`. -/
def validateValue (definition : Definition) (values : Values) (payload : Payload) (requireRequired : Bool)
    (sanitized : Values) (requestId : String) : Except String Values :=
  match inputRequestForValidation unicode definition payload requestId with
  | none => .ok sanitized
  | some template =>
    match values.lookup requestId with
    | none => if requireRequired && template.required then .error (requestId ++ " is required") else .ok sanitized
    | some value => do
      let value ← sanitizeInputValue unicode definition template value
      if isEmptyValue value then
        if template.required then .error (requestId ++ " is required") else .ok sanitized
      else .ok (sanitized.insert requestId value)

def validateValues (definition : Definition) (allowedInputIds : List String) (values : Values) (payload : Payload)
    (requireRequired : Bool) : Except String Values :=
  match (values.keys.filter (· ∉ allowedInputIds)).min with
  | (unknown : String) => .error ("Unknown input request: " ++ unknown)
  | ⊤ => allowedInputIds.foldlM (validateValue unicode definition values payload requireRequired) ∅
/-- The inputs of a task that its definition knows. -/
def allowedInputs (definition : Definition) (template : TaskTemplate) (payload : Payload) : List String :=
  (if payload.inputRequestIds = [] then template.inputRequestIds else payload.inputRequestIds).filter fun requestId =>
    (inputRequestTemplate definition requestId).isSome

/-- The checks of an action. -/
def checkAction (definition : Definition) (template : TaskTemplate) (task : Task) (actionId : String) : Except String Unit :=
  let allowedActions := (if task.payloadJson.actionIds = [] then template.actionIds else task.payloadJson.actionIds).filter
    fun candidate => definition.actions.contains candidate
  if resolvedStatus task.status || task.status == "blocked" then
    .error "Task action is not available in the current status"
  else
    match task.payloadJson.actions.find? fun action => action.id == actionId with
    | none => .error "Action is not available for this task"
    | some action =>
      if !allowedActions.contains actionId then .error "Action is not available for this task"
      else if !action.enabled then .error "Action is disabled for this task"
      else .ok ()

/-- The sanitized values of `validate_workflow_task_response` before a partial response is merged. -/
def answeredValues (registry : Registry) (task : Task) (values : Values) (actionId : Option String) (partially : Bool) :
    Except String Values :=
  match registry.lookup task.workflowId with
  | none => .error "Unknown workflow"
  | some definition =>
    match taskTemplate definition task.taskTemplateId with
    | none => .error "Unknown task template"
    | some template => do
      if let some actionId := actionId then checkAction definition template task actionId
      validateValues unicode definition (allowedInputs definition template task.payloadJson) values task.payloadJson (!partially)

def validateWorkflowTaskResponse (registry : Registry) (task : Task) (values : Values) (actionId : Option String)
    (partially : Bool) : Except String Response := do
  let sanitized ← answeredValues unicode registry task values actionId partially
  return ⟨task.workflowId,task.taskTemplateId,actionId,if partially then sanitized ∪ existingTaskValues task else sanitized⟩

def workflowTaskRequiredValuesComplete (registry : Registry) (task : Task) (values : Values) : Bool :=
  match registry.lookup task.workflowId with
  | none => false
  | some definition =>
    match taskTemplate definition task.taskTemplateId with
    | none => false
    | some template => (allowedInputs definition template task.payloadJson).all fun requestId =>
      match inputRequestForValidation unicode definition task.payloadJson requestId with
      | none => true
      | some request => !request.required ||
        match values.lookup requestId with
        | none => false
        | some value =>
          match sanitizeInputValue unicode definition request value with
          | .error _ => false
          | .ok value => !isEmptyValue value

/-- The statuses that a request may name. -/
inductive RequestedStatus
  | completed | approved | rejected | cancelled | blocked
deriving DecidableEq
def RequestedStatus.text : RequestedStatus → String
  | .completed => "completed"
  | .approved => "approved"
  | .rejected => "rejected"
  | .cancelled => "cancelled"
  | .blocked => "blocked"
def workflowTaskResponseStatus (registry : Registry) (task : Task) (response : Response) (requestedStatus : RequestedStatus) :
    String :=
  if requestedStatus = .rejected ∨ requestedStatus = .cancelled ∨ requestedStatus = .blocked then requestedStatus.text
  else if workflowTaskRequiredValuesComplete unicode registry task response.values then requestedStatus.text
  else "pending_user"

end

end Codebot.WorkflowInputs
