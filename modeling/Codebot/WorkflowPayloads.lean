import Codebot.WorkflowRefreshes
import Codebot.JsonReadings

/-!
The tasks of a workflow payload as the server reads them (`normalizeWorkflowTasks`), and the
contract that both the server and the web client are generated from.
-/
namespace Codebot.WorkflowPayloads
open Texts JsonTexts WorkflowInputs WorkflowRefreshes

def wideSpace (c : Nat) : Bool :=
  c == 0xA0 || c == 0x1680 || (0x2000 ≤ c && c ≤ 0x200A) || c == 0x2028 || c == 0x2029 || c == 0x202F || c == 0x205F || c == 0x3000
/-- The white space of `str.strip()`: also the separators of ASCII and the next line. -/
def pythonSpace (c : Nat) : Bool := c == 32 || (9 ≤ c && c ≤ 13) || (28 ≤ c && c ≤ 31) || c == 0x85 || wideSpace c
/-- The white space of `String.prototype.trim()`: also the byte order mark. -/
def javascriptSpace (c : Nat) : Bool := c == 32 || (9 ≤ c && c ≤ 13) || c == 0xFEFF || wideSpace c
def python : Unicode := { ascii with space := pythonSpace }
def javascript : Unicode := { ascii with space := javascriptSpace }

/-- The texts of an input, as far as they are written. -/
structure Prompt where
  question : Option Text
  placeholder : Option Text
  helperText : Option Text
  recommendedOptionId : Option Text
  customOptionLabel : Option Text
deriving DecidableEq

structure RequestTemplate extends InputTemplate, Prompt
structure TaskForm extends TaskTemplate where
  stepId : String
  kind : String
  title : Text
  blocking : Bool
  defaultStatus : Text

structure WorkflowAction where
  id : String
  kind : String
  label : Text
  enabled : Bool
  disabledReason : Option Text
  targetRef : Option Text
deriving DecidableEq

def workflowTaskKinds : List String :=
  ["input_request","choice_request","artifact_review","repair_decision","confirmation_gate","background_status"]
def workflowTaskStatuses : List Text := ["completed","approved","rejected","cancelled","pending_user","blocked"].map text
def confirmKind : String := "confirm_start_bot_proposal"

section
variable (unicode : Unicode)

def textOf : Json → Option Text
  | .text t => stringValue unicode t
  | _ => none
def textList : Json → List Text
  | .array items => items.filterMap (textOf unicode)
  | _ => []
def field (entries : List (Text × Json)) (key : String) : Json := (entries.lookup (text key)).getD .null
def isTrue : Json → Bool
  | .bool value => value
  | _ => false
structure PromptOption where
  id : Text
  value : Text
  label : Text
  description : Option Text
  tone : Option Text
deriving DecidableEq
def tones : List Text := ["neutral","success","warning","danger"].map text

/-- An option of a prompt, with its id, its value and its label. -/
def promptOption : Json → Option PromptOption
  | .object entries =>
    match textOf unicode (field entries "id"),textOf unicode (field entries "value"),textOf unicode (field entries "label") with
    | some id,some value,some label =>
      if isTrue (field entries "disabled") then none
      else some ⟨id,value,label,textOf unicode (field entries "description"),(textOf unicode (field entries "tone")).filter tones.contains⟩
    | _,_,_ => none
  | _ => none

/-- The first options, with no id and no value twice. -/
def promptOptions : Json → List PromptOption
  | .array items => items.foldl (fun taken item =>
      if maxWorkflowPromptOptions ≤ taken.length then taken
      else
        match promptOption unicode item with
        | some option => if taken.any fun other => other.id == option.id || other.value == option.value then taken else taken ++ [option]
        | none => taken) []
  | _ => []

/-- The last object of a list with the id. -/
def lastNamed (value : Json) (id : Text) : Option (List (Text × Json)) :=
  match value with
  | .array items => items.reverse.findSome? fun item =>
    match item with
    | .object entries => if textOf unicode (field entries "id") = some id then some entries else none
    | _ => none
  | _ => none

end

/-- An input as it is asked; the other fields are those of the template. -/
structure InputRequest where
  template : InputTemplate
  prompt : Prompt
  options : List PromptOption

/-- A task; the other fields are those of its template. The values are a function of the keys. -/
structure WorkflowTask where
  id : Text
  taskTemplateId : Text
  stepId : String
  kind : String
  title : Text
  blocking : Bool
  status : Text
  inputRequestIds : List Text
  actionIds : List Text
  inputRequests : List InputRequest
  actions : List WorkflowAction
  values : Text → Option InputValue
  reason : Option Text

/-- What gates the start of a simulation. -/
structure Gate where
  startAllowed : Bool
  botProposalId : Option Text
def optionJson (option : InputOption) : Json :=
  .object [(text "id",.text option.id),(text "value",.text option.value),(text "label",.text option.label),
    (text "disabled",.bool option.disabled)]
/-- The `options` of a template, where it has the key. -/
def templateOptions (template : InputTemplate) : Json :=
  if template.options.isEmpty then .null else .array (template.options.map optionJson)
def optionSet (definition : Definition) (template : InputTemplate) : Json :=
  .array (((template.optionSetId.bind fun optionSetId => definition.optionSets.lookup optionSetId).getD []).map optionJson)

/-- The texts of a template are trimmed, both sides read its options alike, some of them if it has any, and a label for
custom values is there only for them. -/
structure Tidy (definition : Definition) (template : RequestTemplate) : Prop where
  texts : ∀ own ∈ [template.question,template.placeholder,template.helperText,template.recommendedOptionId,template.customOptionLabel],
    ∀ t ∈ own, stringValue python t = some t
  read : ∀ options ∈ [templateOptions template.toInputTemplate,optionSet definition template.toInputTemplate],
    promptOptions javascript options = promptOptions python options
  options : template.options ≠ [] → promptOptions python (templateOptions template.toInputTemplate) ≠ []
  custom : template.allowCustom = false → template.customOptionLabel = none

/-- A workflow of the registry that the server and the client are generated from. -/
structure Contract where
  definition : Definition
  requests : List RequestTemplate
  tasks : List TaskForm
  actions : List WorkflowAction
  distinctRequests : (requests.map fun request => text request.id).Nodup
  distinctTasks : (tasks.map fun task => text task.id).Nodup
  distinctActions : (actions.map fun action => text action.id).Nodup
  tidy : ∀ request ∈ requests, Tidy definition request

/-- A JSON value as one of an answer. -/
def inputValue : Json → InputValue
  | .null => .null
  | .bool value => .boolean value
  | .integer n => .other n.natAbs
  | .float _ => .other 0
  | .text t => .text t
  | .array items => .list (items.map fun item =>
    match item with
    | .text t => some t
    | _ => none)
  | .object _ => .other 0

/-- The ids that are asked for, of those that a template has; all of these if none is. -/
def selectedIds (requested : List Text) (ids : List String) (known : Text → Bool) : List Text :=
  let allowed := (ids.map text).filter known
  if requested.isEmpty then allowed else requested.filter allowed.contains
/-- The template and the id of a task that names its template or, without a name, has the id of one. -/
def identified (taskTemplate : Text → Option TaskForm) (named recordId : Option Text) : Option (TaskForm × Text) :=
  let (taskTemplateId,recordId) := if named.isNone && recordId.any fun id => (taskTemplate id).isSome then (recordId,none)
    else (named,recordId)
  taskTemplateId.bind fun taskTemplateId => ((taskTemplate taskTemplateId).filter fun template =>
    workflowTaskKinds.contains template.kind).map fun template => (template,recordId.getD taskTemplateId)
def valueAt (values : Json) (key : Text) : Option Json :=
  match values with
  | .object entries => entries.lookup key
  | _ => none
def statusOf (unicode : Unicode) (task : TaskForm) (value : Json) : Text :=
  ((textOf unicode value).filter workflowTaskStatuses.contains).getD task.defaultStatus

namespace Server
variable (contract : Contract)

def taskTemplate (id : Text) : Option TaskForm := contract.tasks.find? fun task => text task.id == id
def inputRequestTemplate (id : Text) : Option RequestTemplate := contract.requests.find? fun request => text request.id == id
def action (id : Text) : Option WorkflowAction := contract.actions.find? fun action => text action.id == id
def stringValue : Json → Option Text := textOf python
def sanitizePromptOptions : Json → List PromptOption := promptOptions python
def effectiveInputOptions (template : RequestTemplate) (override : Option (List (Text × Json))) : List PromptOption :=
  let sources := (override.map fun override => field override "options").toList ++ templateOptions template.toInputTemplate ::
    (template.optionSetId.map fun _ => optionSet contract.definition template.toInputTemplate).toList
  ((sources.map sanitizePromptOptions).find? fun options => !options.isEmpty).getD []
/-- The text of an override, or the one of the template. -/
def overridden (override : Option (List (Text × Json))) (key : String) (own : Option Text) : Option Text :=
  ((override.bind fun override => stringValue (field override key)).or (own.bind fun t => stringValue (.text t))).or own

def inputRequestPayload (template : RequestTemplate) (override : Option (List (Text × Json))) : InputRequest :=
  let options := effectiveInputOptions contract template override
  let recommended := (override.bind fun override => stringValue (field override "recommended_option_id")).or
    (template.recommendedOptionId.bind fun t => stringValue (.text t))
  { template := template.toInputTemplate
    prompt := {
      question := overridden override "question" template.question
      placeholder := overridden override "placeholder" template.placeholder
      helperText := overridden override "helper_text" template.helperText
      recommendedOptionId := (recommended.filter fun id => options.any fun option => option.id == id).or (options.head?.map (·.id))
      customOptionLabel :=
        if template.allowCustom then overridden override "custom_option_label" template.customOptionLabel else template.customOptionLabel }
    options :=
      if options.isEmpty then template.options.map fun option => ⟨option.id,option.value,option.label,none,none⟩ else options }

/-- What `_sanitized_known_values` keeps of a value. -/
def keptValue (template : RequestTemplate) (value : Json) : Option InputValue :=
  match sanitizeInputValue python contract.definition template.toInputTemplate (inputValue value) with
  | .ok value => if isEmptyValue value then none else some value
  | .error _ => none
/-- `_sanitized_known_values`, of one input. -/
def sanitizedKnownValue (values : Json) (id : Text) : Option InputValue :=
  (inputRequestTemplate contract id).bind fun template => (valueAt values id).bind (keptValue contract template)
def gatedActionPayload (gate : Gate) (action : WorkflowAction) : WorkflowAction :=
  if action.kind == confirmKind then
    { action with
      enabled := gate.startAllowed
      targetRef := gate.botProposalId
      disabledReason := if gate.startAllowed then none else action.disabledReason }
  else action

/-- Whether Python takes a value for true; `zero` tells the floats that are zero. -/
def truthy (zero : Text → Bool) : Json → Bool
  | .null => false
  | .bool value => value
  | .integer n => n != 0
  | .float source => !zero source
  | .text t => !t.isEmpty
  | .array items => !items.isEmpty
  | .object entries => !entries.isEmpty

/-- The template and the id of a task. -/
def identity (zero : Text → Bool) (entries : List (Text × Json)) : Option (TaskForm × Text) :=
  identified (taskTemplate contract)
    (stringValue (if truthy zero (field entries "task_template_id") then field entries "task_template_id" else field entries "template_id"))
    (stringValue (field entries "id"))

/-- `build_workflow_task_payload`, with the actions gated. -/
def buildWorkflowTaskPayload (gate : Gate) (template : TaskForm) (id : Text) (entries : List (Text × Json)) : WorkflowTask :=
  let selectedInputs := selectedIds (textList python (field entries "input_request_ids")) template.inputRequestIds fun id =>
    (inputRequestTemplate contract id).isSome
  let selectedActions := selectedIds (textList python (field entries "action_ids")) template.actionIds fun id => (action contract id).isSome
  { id := id
    taskTemplateId := text template.id
    stepId := template.stepId
    kind := template.kind
    title := template.title
    blocking := template.blocking
    status := statusOf python template (field entries "status")
    inputRequestIds := selectedInputs
    actionIds := selectedActions
    inputRequests := selectedInputs.filterMap fun id => (inputRequestTemplate contract id).map fun template =>
      inputRequestPayload contract template (lastNamed python (field entries "input_requests") id)
    actions := selectedActions.filterMap fun id => (action contract id).map (gatedActionPayload gate)
    values := fun key => if selectedInputs.contains key then sanitizedKnownValue contract (field entries "values") key else none
    reason := stringValue (field entries "reason") }

def normalizeWorkflowTasks (zero : Text → Bool) (gate : Gate) : Json → List WorkflowTask
  | .array items => items.filterMap fun item =>
    match item with
    | .object entries => (identity contract zero entries).map fun (template,id) => buildWorkflowTaskPayload contract gate template id entries
    | _ => none
  | _ => []

end Server

def prompt (question : String) (placeholder recommendedOptionId customOptionLabel : Option String) : Prompt where
  question := some (text question)
  placeholder := placeholder.map text
  helperText := none
  recommendedOptionId := recommendedOptionId.map text
  customOptionLabel := customOptionLabel.map text

/-- The texts of the inputs, in the order of the inputs. -/
def prompts : List Prompt := [
  prompt "Which market should this strategy trade?" (some "Choose or enter market") (some "crypto") (some "Use another market"),
  prompt "Which symbol should the strategy watch?" (some "BTCUSDT") (some "btcusdt") (some "Enter another symbol"),
  prompt "Which timeframe should the strategy use?" (some "1h") (some "1h") (some "Use another timeframe"),
  prompt "What style should the strategy follow?" none (some "trend") (some "Describe another style"),
  prompt "Do you already have an entry or exit idea?" (some "Optional entry or exit logic") (some "ma_cross") (some "Write a different idea"),
  prompt "What risk preference should guide the design?" none (some "balanced") (some "Describe another risk preference"),
  prompt "Which paper broker connection should this simulation use?" none none (some "Enter broker connection id"),
  prompt "Which paper account should receive the simulation?" none none (some "Enter account id"),
  prompt "Which risk policy should gate the paper bot?" none none (some "Enter risk policy id"),
  prompt "Which reviewed strategy should the bot proposal use?" none none (some "Enter strategy id"),
  prompt "Which symbols/timeframes/data subscriptions are required?" (some "BTCUSDT 1h") none (some "Enter subscriptions"),
  prompt "How should we handle the backtest preview for this draft?" none (some "run_preview") none,
  prompt "Strategy spec is ready. What should we do next?" none (some "generate_pine") (some "Tell the model what to do differently")]

def requestTemplates : List RequestTemplate :=
  List.zipWith (fun template prompt => { template,prompt with }) simulation.inputRequestTemplates prompts
def taskForm (stepId kind title defaultStatus : String) (template : TaskTemplate) : TaskForm where
  toTaskTemplate := template
  stepId := stepId
  kind := kind
  title := text title
  blocking := true
  defaultStatus := text defaultStatus
/-- The tasks, in the order of their templates. -/
def taskForms : List TaskForm := List.zipWith (fun template form => form template) simulation.taskTemplates [
  taskForm "collect_strategy_inputs" "input_request" "Strategy inputs" "pending_user",
  taskForm "backtest_preview" "choice_request" "Backtest preview choice" "pending_user",
  taskForm "generate_pine" "choice_request" "Review strategy spec next step" "pending_user",
  taskForm "complete_setup_confirm_start" "input_request" "Paper setup fields" "pending_user",
  taskForm "complete_setup_confirm_start" "confirmation_gate" "Confirm paper simulation" "blocked"]
def confirmPaperStart : WorkflowAction where
  id := "confirm_paper_start"
  kind := confirmKind
  label := text "Start paper simulation"
  enabled := false
  disabledReason := some (text "Setup fields are incomplete.")
  targetRef := none

/-- What tells a template tidy, computed. -/
def tidies (definition : Definition) (template : RequestTemplate) : Bool :=
  ([template.question,template.placeholder,template.helperText,template.recommendedOptionId,template.customOptionLabel].all fun own =>
    own.all fun t => stringValue python t == some t) &&
  ([templateOptions template.toInputTemplate,optionSet definition template.toInputTemplate].all fun options =>
    promptOptions javascript options == promptOptions python options) &&
  (template.options.isEmpty || !(promptOptions python (templateOptions template.toInputTemplate)).isEmpty) &&
  (template.allowCustom || template.customOptionLabel.isNone)

theorem tidy_of_tidies {definition : Definition} {template : RequestTemplate} (isTidy : tidies definition template) :
    Tidy definition template := by
  unfold tidies at isTidy
  simp only [Bool.and_eq_true,Bool.or_eq_true,List.all_eq_true,Option.all_eq_true,beq_iff_eq] at isTidy
  obtain ⟨⟨⟨texts,read⟩,options⟩,custom⟩ := isTidy
  refine ⟨texts,read,fun written => ?_,fun closed => ?_⟩
  · have given := options.resolve_left fun empty => written (List.isEmpty_iff.mp empty)
    exact fun none => by simp [none] at given
  · exact Option.isNone_iff_eq_none.mp (custom.resolve_left (by simp [closed]))

theorem requestTemplates_tidy : ∀ request ∈ requestTemplates, Tidy simulation request := by
  have all : (requestTemplates.all (tidies simulation)) = true := by
    unfold requestTemplates prompts prompt
    simp only [Option.map]
    repeat rw [text_ofList]
    decide +kernel
  exact fun request member => tidy_of_tidies (List.all_eq_true.mp all request member)
theorem requestTemplates_distinct : (requestTemplates.map fun request => text request.id).Nodup := by decide
theorem taskForms_distinct : (taskForms.map fun task => text task.id).Nodup := by decide

/-- The workflow of `contracts/workflow-registry.json`. -/
def workflowContract : Contract where
  definition := simulation
  requests := requestTemplates
  tasks := taskForms
  actions := [confirmPaperStart]
  distinctRequests := requestTemplates_distinct
  distinctTasks := taskForms_distinct
  distinctActions := List.nodup_singleton _
  tidy := requestTemplates_tidy

end Codebot.WorkflowPayloads
