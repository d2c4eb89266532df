import Codebot.WorkflowPayloads

/-!
The tasks of a workflow payload as the web client reads them, and when they are the tasks that the server reads. The
client takes a title, labels and values from the payload that the server does not, and reads `template_id` where
`task_template_id` is there without a text.
-/
namespace Codebot.WorkflowUi
open Texts JsonTexts JsonReadings WorkflowInputs WorkflowRefreshes WorkflowPayloads List

variable (contract : Contract)
def taskTemplate (id : Text) : Option TaskForm := contract.tasks.reverse.find? fun task => text task.id == id
def inputRequestTemplate (id : Text) : Option RequestTemplate := contract.requests.reverse.find? fun request => text request.id == id
def action (id : Text) : Option WorkflowAction := contract.actions.reverse.find? fun action => text action.id == id
def sourceText : Json → Option Text := textOf javascript
def normalizeWorkflowPromptOptions : Json → List PromptOption := promptOptions javascript
/-- `value ?? other`. -/
def nullish : Json → Json → Json
  | .null, other => other
  | value, _ => value
def optionSetOptions (template : InputTemplate) : Json := optionSet contract.definition template
def overridden (override : Option (List (Text × Json))) (key : String) (own : Option Text) : Option Text :=
  (override.bind fun override => sourceText (field override key)).or own

def normalizeWorkflowInputRequest (template : RequestTemplate) (override : Option (List (Text × Json))) : InputRequest :=
  let options := normalizeWorkflowPromptOptions (nullish (override.elim .null fun override => field override "options")
    (nullish (templateOptions template.toInputTemplate) (optionSetOptions contract template.toInputTemplate)))
  let recommended := overridden override "recommended_option_id" template.recommendedOptionId
  { template := template.toInputTemplate
    prompt := {
      question := overridden override "question" template.question
      placeholder := overridden override "placeholder" template.placeholder
      helperText := overridden override "helper_text" template.helperText
      recommendedOptionId := (recommended.filter fun id => options.any fun option => option.id == id).or (options.head?.map (·.id))
      customOptionLabel :=
        if template.allowCustom then overridden override "custom_option_label" template.customOptionLabel else none }
    options := options }

def boolean : Json → Option Bool
  | .bool value => some value
  | _ => none

/-- An action of a task, with what the payload has of it. -/
def taskAction (gate : Gate) (action : WorkflowAction) (override : Option (List (Text × Json))) : WorkflowAction :=
  let isConfirmStart := action.kind == confirmKind
  { action with
    label := (override.bind fun override => sourceText (field override "label")).getD action.label
    enabled := if isConfirmStart then gate.startAllowed
      else (override.bind fun override => boolean (field override "enabled")).getD action.enabled
    disabledReason := if isConfirmStart && gate.startAllowed then none
      else (override.bind fun override => sourceText (field override "disabled_reason")).or action.disabledReason
    targetRef := if isConfirmStart then gate.botProposalId
      else (override.bind fun override => sourceText (field override "target_ref")).or action.targetRef }

def normalizeTaskValue : Json → Option InputValue
  | .text t => (sourceText (.text t)).map .text
  | .bool value => some (.boolean value)
  | .array items => if (items.filterMap sourceText).isEmpty then none else some (.list ((items.filterMap sourceText).map some))
  | _ => none
/-- The template and the id of a task. -/
def identity (entries : List (Text × Json)) : Option (TaskForm × Text) :=
  identified (taskTemplate contract)
    ((sourceText (field entries "task_template_id")).or (sourceText (field entries "template_id")))
    (sourceText (field entries "id"))

def task (gate : Gate) (template : TaskForm) (id : Text) (entries : List (Text × Json)) : WorkflowTask :=
  let inputRequestIds := selectedIds (textList javascript (field entries "input_request_ids")) template.inputRequestIds fun id =>
    (inputRequestTemplate contract id).isSome
  let actionIds := selectedIds (textList javascript (field entries "action_ids")) template.actionIds fun id => (action contract id).isSome
  { id := id
    taskTemplateId := text template.id
    stepId := template.stepId
    kind := template.kind
    title := (sourceText (field entries "title")).getD template.title
    blocking := template.blocking
    status := statusOf javascript template (field entries "status")
    inputRequestIds := inputRequestIds
    actionIds := actionIds
    inputRequests := inputRequestIds.filterMap fun id => (inputRequestTemplate contract id).map fun template =>
      normalizeWorkflowInputRequest contract template (lastNamed javascript (field entries "input_requests") id)
    actions := actionIds.filterMap fun id => (action contract id).map fun action =>
      taskAction gate action (lastNamed javascript (field entries "actions") id)
    values := fun key => if inputRequestIds.contains key then (valueAt (field entries "values") key).bind normalizeTaskValue else none
    reason := sourceText (field entries "reason") }

def normalizeWorkflowTasks (gate : Gate) : Json → List WorkflowTask
  | .array items => items.filterMap fun item =>
    match item with
    | .object entries => (identity contract entries).map fun (template,id) => task contract gate template id entries
    | _ => none
  | _ => []

def Neat (value : Json) : Prop := Throughout (fun value => textOf javascript value = textOf python value) value
theorem neat_text {value : Json} (neat : Neat value) : textOf javascript value = textOf python value := by
  cases value with
  | text t => exact neat
  | null | bool | integer | float | array | object => rfl

variable {items : List Json}
theorem neat_items (neat : Neat (.array items)) : ∀ item ∈ items, Neat item := throughoutItems_iff.mp neat.2

variable {entries : List (Text × Json)}
theorem neat_field (neat : Neat (.object entries)) (key : String) : Neat (field entries key) := by
  unfold field
  cases found : entries.lookup (text key) with
  | none => exact rfl
  | some value => exact throughoutEntries_iff.mp neat.2 _ (lookup_entry found)
theorem neat_textField (neat : Neat (.object entries)) (key : String) :
    sourceText (field entries key) = Server.stringValue (field entries key) := neat_text (neat_field neat key)
theorem neat_textList {value : Json} (neat : Neat value) : textList javascript value = textList python value := by
  cases value with
  | array items => exact filterMap_congr fun item member => neat_text (neat_items neat item member)
  | null | bool | integer | float | text | object => rfl
theorem neat_promptOption {value : Json} (neat : Neat value) : promptOption javascript value = promptOption python value := by
  cases value with
  | object entries =>
    have same : ∀ key, textOf javascript (field entries key) = textOf python (field entries key) := fun key => neat_text (neat_field neat key)
    simp only [promptOption,same]
  | null | bool | integer | float | text | array => rfl
theorem neat_promptOptions {value : Json} (neat : Neat value) : promptOptions javascript value = promptOptions python value := by
  cases value with
  | array items =>
    refine foldl_ext _ _ [] ?_
    intro taken item member
    rw [neat_promptOption (neat_items neat item member)]
  | null | bool | integer | float | text | object => rfl

theorem neat_lastNamed {value : Json} (neat : Neat value) (id : Text) : lastNamed javascript value id = lastNamed python value id := by
  cases value with
  | array items =>
    have each : ∀ items : List Json, (∀ item ∈ items, Neat item) → (items.findSome? fun item =>
        match item with
        | .object entries => if textOf javascript (field entries "id") = some id then some entries else none
        | _ => none) = items.findSome? fun item =>
        match item with
        | .object entries => if textOf python (field entries "id") = some id then some entries else none
        | _ => none := by
      intro items all
      induction items with
      | nil => rfl
      | cons item items ih =>
        have isItem := all item mem_cons_self
        rw [findSome?_cons,findSome?_cons,ih fun other member => all other (mem_cons_of_mem item member)]
        cases item with
        | object entries => simp only [neat_text (neat_field isItem "id")]
        | null | bool | integer | float | text | array => rfl
    exact each items.reverse fun item member => neat_items neat item (mem_reverse.mp member)
  | null | bool | integer | float | text | object => rfl

variable {id : Text}

theorem lastNamed_neat {unicode : Unicode} {value : Json} (neat : Neat value)
    (named : lastNamed unicode value id = some entries) : Neat (.object entries) := by
  cases value with
  | array items =>
    obtain ⟨item,member,isIt⟩ := exists_of_findSome?_eq_some named
    cases item with
    | object own =>
      dsimp only at isIt
      split_ifs at isIt
      cases isIt
      exact neat_items neat _ (mem_reverse.mp member)
    | null | bool | integer | float | text | array => cases isIt
  | null | bool | integer | float | text | object => cases named

theorem find_reverse {α : Type} {key : α → Text} {items : List α} (distinct : (items.map key).Nodup) (id : Text) :
    (items.reverse.find? fun item => key item == id) = items.find? fun item => key item == id := by
  induction items with
  | nil => rfl
  | cons item items ih =>
    obtain ⟨new,others⟩ := nodup_cons.mp distinct
    rw [reverse_cons,find?_append,ih others,find?_cons]
    cases isIt : key item == id with
    | true =>
      have none : (items.find? fun item => key item == id) = none := by
        refine find?_eq_none.mpr fun other member same => new ?_
        rw [beq_iff_eq.mp isIt,← beq_iff_eq.mp same]
        exact mem_map_of_mem member
      rw [none]
      simp [isIt]
    | false => simp [isIt]

variable {contract : Contract}
theorem taskTemplate_eq (id : Text) : taskTemplate contract id = Server.taskTemplate contract id :=
  find_reverse contract.distinctTasks id
theorem inputRequestTemplate_eq (id : Text) : inputRequestTemplate contract id = Server.inputRequestTemplate contract id :=
  find_reverse contract.distinctRequests id
theorem action_eq (id : Text) : action contract id = Server.action contract id := find_reverse contract.distinctActions id

def shown (contract : Contract) (id : Text) : Option TaskForm :=
  (Server.taskTemplate contract id).filter fun template => workflowTaskKinds.contains template.kind
theorem identified_named (named : Text) (recordId : Option Text) : identified (Server.taskTemplate contract) (some named) recordId =
    (shown contract named).map fun template => (template,recordId.getD named) := rfl

theorem identified_record (recordId : Option Text) : identified (Server.taskTemplate contract) none recordId =
    recordId.bind fun id => (shown contract id).map fun template => (template,id) := by
  cases recordId with
  | none => rfl
  | some id =>
    rw [Option.bind_some,identified]
    cases found : Server.taskTemplate contract id with
    | none => simp [shown,found]
    | some template => simp [shown,found]

theorem shown_id {template : TaskForm} (isShown : shown contract id = some template) : text template.id = id := by
  obtain ⟨found,_⟩ := Option.filter_eq_some_iff.mp isShown
  have same := find?_some found
  exact beq_iff_eq.mp same

variable {recordId : Option Text}

theorem identified_id {named : Option Text} {template : TaskForm}
    (isIt : identified (Server.taskTemplate contract) named recordId = some (template,id)) :
    shown contract (text template.id) = some template := by
  have each : ∀ {name other : Text}, (shown contract name).map (fun template => (template,other)) = some (template,id) →
      shown contract (text template.id) = some template := by
    intro name other isShown
    obtain ⟨found,isFound,same⟩ := Option.map_eq_some_iff.mp isShown
    cases same
    rw [shown_id isFound,isFound]
  cases named with
  | some named => exact each isIt
  | none =>
    rw [identified_record] at isIt
    obtain ⟨record,_,isShown⟩ := Option.bind_eq_some_iff.mp isIt
    exact each isShown

/-- Where the key of the template is there without a text, the name that only the client reads is the id of the task,
or neither of them is of a template. -/
def NamedAlike (contract : Contract) (zero : Text → Bool) (entries : List (Text × Json)) : Prop :=
  Server.truthy zero (field entries "task_template_id") → Server.stringValue (field entries "task_template_id") = none →
    ∀ name, Server.stringValue (field entries "template_id") = some name →
      Server.stringValue (field entries "id") = some name ∨
        (shown contract name = none ∧ ∀ id, Server.stringValue (field entries "id") = some id → shown contract id = none)

variable {zero : Text → Bool}
theorem falsy_text {value : Json} (falsy : Server.truthy zero value = false) : Server.stringValue value = none := by
  cases value with
  | text t =>
    have empty : t = [] := by simpa [Server.truthy] using falsy
    rw [empty]
    rfl
  | null | bool | integer | float | array | object => rfl

variable {name : Text}

theorem identified_shadowed_iff :
    identified (Server.taskTemplate contract) (some name) recordId = identified (Server.taskTemplate contract) none recordId ↔
      recordId = some name ∨ (shown contract name = none ∧ ∀ id, recordId = some id → shown contract id = none) := by
  rw [identified_named,identified_record]
  constructor
  · intro same
    cases recordId with
    | none =>
      refine .inr ⟨?_,nofun⟩
      rw [Option.bind_none] at same
      exact Option.map_eq_none_iff.mp same
    | some id =>
      rw [Option.bind_some,Option.getD_some] at same
      cases isShown : shown contract name with
      | none =>
        rw [isShown,Option.map_none] at same
        refine .inr ⟨rfl,?_⟩
        rintro _ ⟨⟩
        exact Option.map_eq_none_iff.mp same.symm
      | some template =>
        rw [isShown,Option.map_some] at same
        obtain ⟨other,isOther,both⟩ := Option.map_eq_some_iff.mp same.symm
        cases both
        rw [← shown_id isShown,← shown_id isOther]
        exact .inl rfl
  · rintro (rfl | ⟨unknown,record⟩)
    · rfl
    · rw [unknown]
      cases recordId with
      | none => rfl
      | some id =>
        rw [Option.bind_some,record id rfl]
        rfl

theorem identity_iff (zero : Text → Bool) (neat : Neat (.object entries)) :
    identity contract entries = Server.identity contract zero entries ↔ NamedAlike contract zero entries := by
  have templates : taskTemplate contract = Server.taskTemplate contract := funext taskTemplate_eq
  rw [identity,Server.identity,templates,neat_textField neat,neat_textField neat,neat_textField neat]
  unfold NamedAlike
  cases isTruthy : Server.truthy zero (field entries "task_template_id") with
  | false =>
    rw [falsy_text isTruthy,Option.none_or,if_neg Bool.false_ne_true]
    exact iff_of_true rfl fun truthy => absurd truthy Bool.false_ne_true
  | true =>
    rw [if_pos rfl]
    cases isName : Server.stringValue (field entries "task_template_id") with
    | some name => exact iff_of_true rfl fun _ absent => by cases absent
    | none =>
      rw [Option.none_or]
      cases isOther : Server.stringValue (field entries "template_id") with
      | none => exact iff_of_true rfl fun _ _ => nofun
      | some name =>
        rw [identified_shadowed_iff]
        constructor
        · rintro alike _ _ _ ⟨rfl⟩
          exact alike
        · intro alike
          exact alike rfl rfl name rfl

def ownOptions (contract : Contract) (template : RequestTemplate) : List PromptOption :=
  Server.effectiveInputOptions contract template none
/-- Options of an override that none can be read of stand in for no options of the input. -/
def OptionsAlike (contract : Contract) (template : RequestTemplate) (override : Option (List (Text × Json))) : Prop :=
  ∀ entries, override = some entries → field entries "options" ≠ .null → promptOptions python (field entries "options") = [] →
    ownOptions contract template = []

variable {template : RequestTemplate}
theorem template_tidy (found : Server.inputRequestTemplate contract id = some template) :
    Tidy contract.definition template := contract.tidy template (mem_of_find?_eq_some found)
theorem templateOptions_none {template : InputTemplate} (bare : template.options = []) : templateOptions template = .null := by
  rw [templateOptions,bare]
  rfl
theorem templateOptions_some {template : InputTemplate} (written : template.options ≠ []) (other : Json) :
    nullish (templateOptions template) other = templateOptions template := by
  rw [templateOptions,if_neg fun empty => written (isEmpty_iff.mp empty)]
  rfl

theorem ownOptions_eq (tidy : Tidy contract.definition template) :
    promptOptions javascript (nullish (templateOptions template.toInputTemplate)
      (optionSetOptions contract template.toInputTemplate)) = ownOptions contract template := by
  unfold ownOptions Server.effectiveInputOptions
  dsimp only
  by_cases bare : template.options = []
  · have emptySet : ∀ options : List PromptOption, ([options].find? fun options => !options.isEmpty).getD [] = options := by
      intro options
      cases options with
      | nil => rfl
      | cons option options => rfl
    have ownSet := tidy.read (optionSet contract.definition template.toInputTemplate) (by simp)
    rw [templateOptions_none bare]
    change promptOptions javascript (optionSet contract.definition template.toInputTemplate) = _
    rw [ownSet]
    cases isSet : template.optionSetId with
    | none =>
      rw [optionSet,isSet]
      rfl
    | some optionSetId => exact (emptySet _).symm
  · have own := tidy.read (templateOptions template.toInputTemplate) (by simp)
    have written : (!(promptOptions python (templateOptions template.toInputTemplate)).isEmpty) = true := by
      rw [Bool.not_eq_true']
      exact isEmpty_eq_false_iff.mpr (tidy.options bare)
    rw [templateOptions_some bare,own,Option.map_none,Option.toList_none,nil_append,map_cons,find?_cons]
    simp only [Server.sanitizePromptOptions,written,Option.getD_some]

theorem effectiveInputOptions_some (contract : Contract) (template : RequestTemplate) (entries : List (Text × Json)) :
    Server.effectiveInputOptions contract template (some entries) =
      if promptOptions python (field entries "options") = [] then ownOptions contract template
      else promptOptions python (field entries "options") := by
  unfold ownOptions Server.effectiveInputOptions
  dsimp only
  rw [Option.map_some,Option.toList_some,singleton_append,map_cons,find?_cons]
  cases isEmpty : promptOptions python (field entries "options") with
  | nil =>
    rw [if_pos rfl,Server.sanitizePromptOptions,isEmpty]
    rfl
  | cons option options =>
    rw [if_neg (cons_ne_nil _ _),Server.sanitizePromptOptions,isEmpty]
    rfl

/-- The options that the client reads. -/
def clientOptions (contract : Contract) (template : RequestTemplate) (override : Option (List (Text × Json))) : List PromptOption :=
  normalizeWorkflowPromptOptions (nullish (override.elim .null fun override => field override "options")
    (nullish (templateOptions template.toInputTemplate) (optionSetOptions contract template.toInputTemplate)))

variable {override : Option (List (Text × Json))}

theorem options_iff (tidy : Tidy contract.definition template)
    (neat : ∀ entries, override = some entries → Neat (.object entries)) :
    clientOptions contract template override = Server.effectiveInputOptions contract template override ↔
      OptionsAlike contract template override := by
  unfold clientOptions normalizeWorkflowPromptOptions
  cases override with
  | none => exact iff_of_true (ownOptions_eq tidy) nofun
  | some entries =>
    rw [Option.elim_some,effectiveInputOptions_some]
    have isNeat := neat_promptOptions (neat_field (neat entries rfl) "options")
    cases isNull : field entries "options" with
    | null =>
      refine iff_of_true ?_ ?_
      · rw [nullish,ownOptions_eq tidy]
        exact (if_pos rfl).symm
      · rintro _ ⟨rfl⟩ given
        exact absurd isNull given
    | bool | integer | float | text | array | object =>
      all_goals
        rw [isNull] at isNeat
        rw [nullish,isNeat]
        · unfold OptionsAlike
          constructor
          · rintro same _ ⟨rfl⟩ _ empty
            rw [isNull] at empty
            rw [empty,if_pos rfl] at same
            exact same.symm
          · intro alike
            split_ifs with empty
            · rw [empty,alike entries rfl (by rw [isNull]; nofun) (by rw [isNull]; exact empty)]
            · rfl
        · nofun

theorem effectiveInputOptions_empty (tidy : Tidy contract.definition template) (empty : Server.effectiveInputOptions contract template override = []) :
    template.options = [] := by
  by_contra written
  have own := tidy.options written
  have isOwn : ownOptions contract template ≠ [] := by
    rw [← ownOptions_eq tidy,templateOptions_some written,tidy.read _ (by simp)]
    exact own
  cases override with
  | none => exact isOwn empty
  | some entries =>
    rw [effectiveInputOptions_some] at empty
    split_ifs at empty with none
    · exact isOwn empty
    · exact none empty

theorem read_eq (neat : ∀ entries, override = some entries → Neat (.object entries)) (key : String) :
    (override.bind fun override => sourceText (field override key)) = override.bind fun override => Server.stringValue (field override key) := by
  cases override with
  | none => rfl
  | some entries => exact neat_textField (neat entries rfl) key

variable {own : Option Text}
theorem own_trimmed (trimmed : ∀ t ∈ own, stringValue python t = some t) :
    (own.bind fun t => Server.stringValue (.text t)) = own := by
  cases own with
  | none => rfl
  | some t => exact trimmed t rfl
theorem overridden_eq (neat : ∀ entries, override = some entries → Neat (.object entries))
    (key : String) (trimmed : ∀ t ∈ own, stringValue python t = some t) :
    overridden override key own = Server.overridden override key own := by
  rw [overridden,Server.overridden,read_eq neat,own_trimmed trimmed,Option.or_assoc,Option.or_self]

theorem inputRequest_options (tidy : Tidy contract.definition template) (override : Option (List (Text × Json))) :
    (Server.inputRequestPayload contract template override).options = Server.effectiveInputOptions contract template override := by
  unfold Server.inputRequestPayload
  dsimp only
  split_ifs with empty
  · have none := isEmpty_iff.mp empty
    rw [none,effectiveInputOptions_empty tidy none]
    rfl
  · rfl

theorem inputRequest_prompt (tidy : Tidy contract.definition template) (neat : ∀ entries, override = some entries → Neat (.object entries))
    (same : clientOptions contract template override = Server.effectiveInputOptions contract template override) :
    (normalizeWorkflowInputRequest contract template override).prompt = (Server.inputRequestPayload contract template override).prompt := by
  have question := overridden_eq neat "question" (tidy.texts template.question (by simp))
  have placeholder := overridden_eq neat "placeholder" (tidy.texts template.placeholder (by simp))
  have helperText := overridden_eq neat "helper_text" (tidy.texts template.helperText (by simp))
  have label := overridden_eq neat "custom_option_label" (tidy.texts template.customOptionLabel (by simp))
  have recommended : overridden override "recommended_option_id" template.recommendedOptionId =
      (override.bind fun override => Server.stringValue (field override "recommended_option_id")).or
        (template.recommendedOptionId.bind fun t => Server.stringValue (.text t)) := by
    rw [overridden,read_eq neat,own_trimmed (tidy.texts template.recommendedOptionId (by simp))]
  have custom : (if template.allowCustom then overridden override "custom_option_label" template.customOptionLabel else none) =
      if template.allowCustom then Server.overridden override "custom_option_label" template.customOptionLabel
      else template.customOptionLabel := by
    rw [label]
    split_ifs with allowed
    · rfl
    · exact (tidy.custom (eq_false_of_ne_true allowed)).symm
  unfold clientOptions at same
  unfold normalizeWorkflowInputRequest Server.inputRequestPayload
  dsimp only
  rw [same,question,placeholder,helperText,recommended,custom]

theorem inputRequest_iff (tidy : Tidy contract.definition template)
    (neat : ∀ entries, override = some entries → Neat (.object entries)) :
    normalizeWorkflowInputRequest contract template override = Server.inputRequestPayload contract template override ↔
      OptionsAlike contract template override := by
  rw [← options_iff tidy neat,← inputRequest_options tidy override]
  constructor
  · exact congrArg InputRequest.options
  · intro same
    have prompt := inputRequest_prompt tidy neat (same.trans (inputRequest_options tidy override))
    exact (InputRequest.mk.injEq _ _ _ _ _ _).mpr ⟨rfl,prompt,same⟩

theorem getD_own_iff {α : Type} {given : Option α} {own : α} : given.getD own = own ↔ ∀ value, given = some value → value = own := by
  cases given with
  | none => exact iff_of_true rfl nofun
  | some value =>
    constructor
    · rintro same _ ⟨rfl⟩
      exact same
    · exact fun each => each value rfl

theorem or_own_iff {α : Type} {given own : Option α} : given.or own = own ↔ ∀ value, given = some value → own = some value := by
  cases given with
  | none => exact iff_of_true (Option.none_or ..) nofun
  | some value =>
    constructor
    · rintro same _ ⟨rfl⟩
      exact same.symm
    · exact fun each => (each value rfl).symm

theorem boolean_some {value : Json} {isIt : Bool} : boolean value = some isIt ↔ value = .bool isIt := by
  cases value with
  | bool other => exact ⟨fun same => congrArg Json.bool (Option.some.inj same),fun same => congrArg some (Json.bool.inj same)⟩
  | null | integer | float | text | array | object => exact iff_of_false nofun nofun
/-- What a payload has of an action is what the action has of its own; whether a start is enabled is gated on both sides. -/
structure ActionAlike (gate : Gate) (action : WorkflowAction) (entries : List (Text × Json)) : Prop where
  label : ∀ t, Server.stringValue (field entries "label") = some t → t = action.label
  disabledReason : (action.kind = confirmKind ∧ gate.startAllowed) ∨
    ∀ t, Server.stringValue (field entries "disabled_reason") = some t → action.disabledReason = some t
  enabled : action.kind ≠ confirmKind → ∀ value, field entries "enabled" = .bool value → value = action.enabled
  targetRef : action.kind ≠ confirmKind → ∀ t, Server.stringValue (field entries "target_ref") = some t → action.targetRef = some t

theorem taskAction_none (gate : Gate) (action : WorkflowAction) : taskAction gate action none = Server.gatedActionPayload gate action := by
  unfold taskAction Server.gatedActionPayload
  cases isConfirm : action.kind == confirmKind with
  | false => rfl
  | true =>
    rw [if_pos rfl]
    cases gate.startAllowed with
    | false => rfl
    | true => rfl

variable {gate : Gate}

theorem taskAction_iff {action : WorkflowAction} (neat : Neat (.object entries)) :
    taskAction gate action (some entries) = Server.gatedActionPayload gate action ↔ ActionAlike gate action entries := by
  unfold taskAction Server.gatedActionPayload
  simp only [Option.bind_some,neat_textField neat]
  by_cases isConfirm : action.kind = confirmKind
  · have isTrue : (action.kind == confirmKind) = true := beq_iff_eq.mpr isConfirm
    rw [isTrue,if_pos rfl,WorkflowAction.mk.injEq]
    cases allowed : gate.startAllowed with
    | true =>
      constructor
      · rintro ⟨_,_,label,_⟩
        exact ⟨getD_own_iff.mp label,.inl ⟨isConfirm,allowed⟩,fun other => absurd isConfirm other,fun other => absurd isConfirm other⟩
      · intro alike
        exact ⟨rfl,rfl,getD_own_iff.mpr alike.label,rfl,rfl,rfl⟩
    | false =>
      constructor
      · rintro ⟨_,_,label,_,reason,_⟩
        exact ⟨getD_own_iff.mp label,.inr (or_own_iff.mp reason),fun other => absurd isConfirm other,fun other => absurd isConfirm other⟩
      · intro alike
        have reason := alike.disabledReason.resolve_left fun gated => absurd gated.2 (by rw [allowed]; exact Bool.false_ne_true)
        exact ⟨rfl,rfl,getD_own_iff.mpr alike.label,rfl,or_own_iff.mpr reason,rfl⟩
  · have isFalse : (action.kind == confirmKind) = false := beq_eq_false_iff_ne.mpr isConfirm
    rw [isFalse,if_neg Bool.false_ne_true]
    refine (iff_of_eq (WorkflowAction.mk.injEq ..)).trans ?_
    constructor
    · rintro ⟨_,_,label,enabled,reason,target⟩
      exact ⟨getD_own_iff.mp label,.inr (or_own_iff.mp reason),fun _ value isValue => getD_own_iff.mp enabled value (boolean_some.mpr isValue),
        fun _ => or_own_iff.mp target⟩
    · intro alike
      have reason := alike.disabledReason.resolve_left fun gated => isConfirm gated.1
      exact ⟨rfl,rfl,getD_own_iff.mpr alike.label,getD_own_iff.mpr fun value isValue => alike.enabled isConfirm value (boolean_some.mp isValue),
        or_own_iff.mpr reason,or_own_iff.mpr (alike.targetRef isConfirm)⟩

def Itself (definition : Definition) (template : InputTemplate) (name : Text) : Prop :=
  ∃ option, firstNamed definition template name = some option ∧ option.value = name
/-- A text is an answer to the input, and names an option by its value. -/
def TextAlike (definition : Definition) (template : InputTemplate) (name : Text) : Prop :=
  match template.kind with
  | .text | .textarea => True
  | .singleSelect => Itself definition template name
  | .selectOrText => Itself definition template name ∨ (firstNamed definition template name = none ∧ template.allowCustom)
  | .boolean | .multiSelect | .unsupported => False
/-- An answer is of the kind that the input asks for, and names its options by their values. -/
def ValueAlike (definition : Definition) (template : InputTemplate) : Json → Prop
  | .bool _ => template.kind = .boolean
  | .text t => ∀ name, stringValue python t = some name → TextAlike definition template name
  | .array items => (∀ item ∈ items, Server.stringValue item = none) ∨
    (template.kind = .multiSelect ∧ ∀ item ∈ items, ∃ name, Server.stringValue item = some name ∧ Itself definition template name)
  | .null | .integer _ | .float _ | .object _ => True
theorem keptValue_ok {value : Json} {accepted : InputValue}
    (isAccepted : sanitizeInputValue python contract.definition template.toInputTemplate (inputValue value) = .ok accepted) :
    Server.keptValue contract template value = if isEmptyValue accepted then none else some accepted := by
  rw [Server.keptValue,isAccepted]
theorem keptValue_error {value : Json} {message : String}
    (refused : sanitizeInputValue python contract.definition template.toInputTemplate (inputValue value) = .error message) :
    Server.keptValue contract template value = none := by
  rw [Server.keptValue,refused]

theorem boolean_iff (value : Bool) :
    normalizeTaskValue (.bool value) = Server.keptValue contract template (.bool value) ↔ template.kind = .boolean := by
  have none : template.kind ≠ .boolean → Server.keptValue contract template (.bool value) = none := by
    intro other
    cases isKind : template.kind with
    | boolean => exact absurd isKind other
    | multiSelect | unsupported => simp [Server.keptValue,sanitizeInputValue,inputValue,isKind]
    | singleSelect | selectOrText | text | textarea => simp [Server.keptValue,sanitizeInputValue,inputValue,isKind,isEmptyValue]
  constructor
  · intro same
    by_contra other
    rw [none other] at same
    cases same
  · intro isKind
    have accepted : sanitizeInputValue python contract.definition template.toInputTemplate (inputValue (.bool value)) =
        .ok (.boolean value) := by simp only [sanitizeInputValue,inputValue,isKind]
    rw [keptValue_ok accepted]
    rfl

variable {t : Text}
theorem named_some (isName : stringValue python t = some name) : isEmptyValue (.text name) = false := by
  unfold stringValue at isName
  dsimp only at isName
  split_ifs at isName with empty
  cases isName
  simp [isEmptyValue,empty]
theorem blank_alike (blank : stringValue python t = none) : Server.keptValue contract template (.text t) = none := by
  cases isKind : template.kind with
  | boolean | multiSelect | unsupported => simp [Server.keptValue,sanitizeInputValue,inputValue,isKind]
  | singleSelect | selectOrText | text | textarea => simp [Server.keptValue,sanitizeInputValue,inputValue,isKind,blank,isEmptyValue]

/-- What an option stands for is kept as the name exactly if the name is its value. -/
theorem itself_iff (select : template.kind = .singleSelect ∨ template.kind = .selectOrText)
    (isName : stringValue python t = some name) : some (.text name) = Server.keptValue contract template (.text t) ↔
      Itself contract.definition template.toInputTemplate name ∨
        (firstNamed contract.definition template.toInputTemplate name = none ∧ template.kind = .selectOrText ∧ template.allowCustom) := by
  have isSelected : sanitizeInputValue python contract.definition template.toInputTemplate (inputValue (.text t)) =
      selected contract.definition template.toInputTemplate name := by
    rw [sanitize_selection select]
    simp only [inputValue,isName,Option.elim_some]
  unfold Itself
  cases isFirst : firstNamed contract.definition template.toInputTemplate name with
  | some option =>
    have accepted : sanitizeInputValue python contract.definition template.toInputTemplate (inputValue (.text t)) =
        .ok (.text option.value) := by simp only [isSelected,selected,isFirst]
    rw [keptValue_ok accepted]
    constructor
    · intro same
      split_ifs at same
      cases same
      exact .inl ⟨option,rfl,rfl⟩
    · rintro (⟨_,⟨rfl⟩,rfl⟩ | ⟨absent,_⟩)
      · rw [named_some isName]
        rfl
      · cases absent
  | none =>
    by_cases custom : template.kind = .selectOrText ∧ template.allowCustom
    · have accepted : sanitizeInputValue python contract.definition template.toInputTemplate (inputValue (.text t)) =
          .ok (.text name) := by simp only [isSelected,selected,isFirst,if_pos custom]
      rw [keptValue_ok accepted,named_some isName]
      exact iff_of_true rfl (.inr ⟨rfl,custom⟩)
    · have refused : sanitizeInputValue python contract.definition template.toInputTemplate (inputValue (.text t)) =
          .error (template.id ++ " has an invalid option") := by simp only [isSelected,selected,isFirst,if_neg custom]
      rw [keptValue_error refused]
      refine iff_of_false nofun ?_
      rintro (⟨_,absent,_⟩ | ⟨_,given⟩)
      · cases absent
      · exact custom given

theorem named_iff (isName : stringValue python t = some name) :
    some (.text name) = Server.keptValue contract template (.text t) ↔ TextAlike contract.definition template.toInputTemplate name := by
  cases isKind : template.kind with
  | boolean | multiSelect | unsupported =>
    have refused : Server.keptValue contract template (.text t) = none := by simp [Server.keptValue,sanitizeInputValue,inputValue,isKind]
    rw [refused,TextAlike,isKind]
    exact iff_of_false (Option.some_ne_none _) not_false
  | text | textarea =>
    have accepted : sanitizeInputValue python contract.definition template.toInputTemplate (inputValue (.text t)) =
        .ok (.text name) := by simp only [sanitizeInputValue,inputValue,isKind,isName,Option.elim_some]
    rw [keptValue_ok accepted,named_some isName,TextAlike,isKind]
    exact iff_of_true rfl trivial
  | singleSelect =>
    rw [itself_iff (.inl isKind) isName,TextAlike,isKind]
    simp
  | selectOrText =>
    rw [itself_iff (.inr isKind) isName,TextAlike,isKind]
    simp

theorem text_iff (neat : Neat (.text t)) :
    normalizeTaskValue (.text t) = Server.keptValue contract template (.text t) ↔
      ValueAlike contract.definition template.toInputTemplate (.text t) := by
  rw [normalizeTaskValue,sourceText,neat_text neat,textOf,ValueAlike]
  cases isName : stringValue python t with
  | none => exact iff_of_true (blank_alike isName).symm nofun
  | some name =>
    rw [Option.map_some,named_iff isName]
    constructor
    · rintro alike _ ⟨rfl⟩
      exact alike
    · exact fun alike => alike name rfl

def itemText : Json → Option Text
  | .text t => some t
  | _ => none
theorem inputValue_array (items : List Json) : inputValue (.array items) = .list (items.map itemText) := by
  refine congrArg InputValue.list (map_congr_left fun item _ => ?_)
  cases item with
  | null | bool | integer | float | text | array | object => rfl

variable {definition : Definition} {item : Json}

theorem sanitizeItem_ok {template : InputTemplate} {value : Text} :
    sanitizeOptionValue python definition template (itemText item) = .ok value ↔
      ∃ name option, Server.stringValue item = some name ∧ firstNamed definition template name = some option ∧ option.value = value := by
  cases item with
  | text t => exact sanitizeOptionValue_ok
  | null | bool | integer | float | array | object =>
    refine iff_of_false nofun ?_
    rintro ⟨_,_,absent,_⟩
    cases absent

theorem itemsThemselves_iff {template : InputTemplate} :
    List.Forall₂ (fun item value => sanitizeOptionValue python definition template (itemText item) = .ok value) items
        (items.filterMap Server.stringValue) ↔
      ∀ item ∈ items, ∃ name, Server.stringValue item = some name ∧ Itself definition template name := by
  induction items with
  | nil => simp
  | cons item items ih =>
    rw [forall_mem_cons,← ih]
    constructor
    · intro each
      obtain ⟨value,rest,accepted,others,same⟩ := forall₂_cons_left_iff.mp each
      obtain ⟨name,option,isName,isFirst,isValue⟩ := sanitizeItem_ok.mp accepted
      rw [filterMap_cons_some isName] at same
      obtain ⟨rfl,rfl⟩ := List.cons.inj same
      exact ⟨⟨name,isName,option,isFirst,isValue⟩,others⟩
    · rintro ⟨⟨name,isName,option,isFirst,isValue⟩,others⟩
      rw [filterMap_cons_some isName]
      exact .cons (sanitizeItem_ok.mpr ⟨name,option,isName,isFirst,isValue⟩) others

theorem keptValue_list (isList : template.kind = .multiSelect) {kept : InputValue} :
    Server.keptValue contract template (.array items) = some kept ↔ ∃ values, values ≠ [] ∧ kept = .list (values.map some) ∧
      List.Forall₂ (fun item value => sanitizeOptionValue python contract.definition template.toInputTemplate (itemText item) = .ok value)
        items values := by
  have isSanitized : sanitizeInputValue python contract.definition template.toInputTemplate (inputValue (.array items)) =
      ((items.map itemText).mapM (sanitizeOptionValue python contract.definition template.toInputTemplate)).bind fun values =>
        .ok (.list (values.map some)) := by
    rw [inputValue_array]
    simp only [sanitizeInputValue,isList]
    rfl
  simp only [← forall₂_map_left_iff (f := itemText)
    (R := fun item value => sanitizeOptionValue python contract.definition template.toInputTemplate item = .ok value),← mapM_ok]
  cases isMapped : (items.map itemText).mapM (sanitizeOptionValue python contract.definition template.toInputTemplate) with
  | error message =>
    rw [isMapped] at isSanitized
    rw [keptValue_error isSanitized]
    simp
  | ok values =>
    rw [isMapped] at isSanitized
    rw [keptValue_ok isSanitized]
    cases values with
    | nil => simp [isEmptyValue]
    | cons value values =>
      constructor
      · rintro ⟨⟩
        exact ⟨_,cons_ne_nil value values,rfl,rfl⟩
      · rintro ⟨_,_,rfl,⟨⟩⟩
        rfl

theorem keptValue_unlisted (other : template.kind ≠ .multiSelect) (items : List Json) :
    Server.keptValue contract template (.array items) = none := by
  cases isKind : template.kind with
  | multiSelect => exact absurd isKind other
  | boolean | unsupported => simp [Server.keptValue,sanitizeInputValue,inputValue,isKind]
  | singleSelect | selectOrText | text | textarea => simp [Server.keptValue,sanitizeInputValue,inputValue,isKind,isEmptyValue]

theorem normalizeTaskValue_array (neat : Neat (.array items)) {kept : InputValue} :
    normalizeTaskValue (.array items) = some kept ↔
      items.filterMap Server.stringValue ≠ [] ∧ kept = .list ((items.filterMap Server.stringValue).map some) := by
  have same : items.filterMap sourceText = items.filterMap Server.stringValue := neat_textList neat
  rw [normalizeTaskValue,same]
  split_ifs with empty
  · simp [isEmpty_iff.mp empty]
  · simp [isEmpty_iff.not.mp empty,eq_comm]

theorem array_iff (neat : Neat (.array items)) :
    normalizeTaskValue (.array items) = Server.keptValue contract template (.array items) ↔
      ValueAlike contract.definition template.toInputTemplate (.array items) := by
  have isClient := @normalizeTaskValue_array items neat
  by_cases isList : template.kind = .multiSelect
  · constructor
    · intro same
      by_cases unread : items.filterMap Server.stringValue = []
      · exact .inl (filterMap_eq_nil_iff.mp unread)
      · have kept := isClient.mpr ⟨unread,rfl⟩
        rw [same] at kept
        obtain ⟨values,_,isValues,each⟩ := (keptValue_list isList).mp kept
        have read : items.filterMap Server.stringValue = values :=
          map_injective_iff.mpr (Option.some_injective _) (InputValue.list.inj isValues)
        rw [← read] at each
        exact .inr ⟨isList,itemsThemselves_iff.mp each⟩
    · rintro (unread | ⟨_,themselves⟩)
      · have unread := filterMap_eq_nil_iff.mpr unread
        refine Option.ext fun kept => isClient.trans (Iff.trans ?_ (keptValue_list isList).symm)
        refine iff_of_false (fun read => read.1 unread) ?_
        rintro ⟨values,some,_,each⟩
        cases each with
        | nil => exact some rfl
        | cons accepted _ =>
          obtain ⟨name,_,isName,_⟩ := sanitizeItem_ok.mp accepted
          rw [filterMap_cons_some isName] at unread
          cases unread
      · have each := itemsThemselves_iff.mpr themselves
        refine Option.ext fun kept => isClient.trans (Iff.trans ?_ (keptValue_list isList).symm)
        constructor
        · rintro ⟨read,isKept⟩
          exact ⟨_,read,isKept,each⟩
        · rintro ⟨values,some,isKept,others⟩
          have same : values = items.filterMap Server.stringValue :=
            Except.ok.inj ((mapM_ok.mpr others).symm.trans (mapM_ok.mpr each))
          rw [← same]
          exact ⟨some,isKept⟩
  · rw [keptValue_unlisted isList,Option.eq_none_iff_forall_ne_some]
    constructor
    · intro none
      refine .inl (filterMap_eq_nil_iff.mp ?_)
      by_contra read
      exact none _ (isClient.mpr ⟨read,rfl⟩)
    · rintro (unread | ⟨multi,_⟩) kept isKept
      · exact (isClient.mp isKept).1 (filterMap_eq_nil_iff.mpr unread)
      · exact isList multi

theorem value_iff {value : Json} (neat : Neat value) :
    normalizeTaskValue value = Server.keptValue contract template value ↔ ValueAlike contract.definition template.toInputTemplate value := by
  cases value with
  | bool value => exact boolean_iff value
  | text t => exact text_iff neat
  | array items => exact array_iff neat
  | null | integer | float | object =>
    refine iff_of_true ?_ trivial
    cases isKind : template.kind with
    | boolean | multiSelect | unsupported => simp [normalizeTaskValue,Server.keptValue,sanitizeInputValue,inputValue,isKind]
    | singleSelect | selectOrText | text | textarea =>
      simp [normalizeTaskValue,Server.keptValue,sanitizeInputValue,inputValue,isKind,isEmptyValue]

/-- The inputs that are asked for. -/
def askedInputs (contract : Contract) (template : TaskForm) (entries : List (Text × Json)) : List Text :=
  selectedIds (textList python (field entries "input_request_ids")) template.inputRequestIds fun id =>
    (Server.inputRequestTemplate contract id).isSome
/-- The actions that are offered. -/
def offeredActions (contract : Contract) (template : TaskForm) (entries : List (Text × Json)) : List Text :=
  selectedIds (textList python (field entries "action_ids")) template.actionIds fun id => (Server.action contract id).isSome

/-- What only the client takes from a payload is what the server has of its own. -/
structure ReadAlike (contract : Contract) (gate : Gate) (template : TaskForm) (entries : List (Text × Json)) : Prop where
  title : ∀ t, Server.stringValue (field entries "title") = some t → t = template.title
  options : ∀ id ∈ askedInputs contract template entries, ∀ request, Server.inputRequestTemplate contract id = some request →
    OptionsAlike contract request (lastNamed python (field entries "input_requests") id)
  actions : ∀ id ∈ offeredActions contract template entries, ∀ action own, Server.action contract id = some action →
    lastNamed python (field entries "actions") id = some own → ActionAlike gate action own
  values : ∀ id ∈ askedInputs contract template entries, ∀ request value, Server.inputRequestTemplate contract id = some request →
    valueAt (field entries "values") id = some value → ValueAlike contract.definition request.toInputTemplate value

theorem filterMap_eq_iff {α β : Type} {items : List α} {f g : α → Option β} (alike : ∀ item ∈ items, (f item).isSome = (g item).isSome) :
    items.filterMap f = items.filterMap g ↔ ∀ item ∈ items, f item = g item := by
  refine ⟨fun same => ?_,filterMap_congr⟩
  induction items with
  | nil => exact nofun
  | cons item items ih =>
    have rest := ih fun other member => alike other (mem_cons_of_mem item member)
    have here := alike item mem_cons_self
    cases isLeft : f item with
    | none =>
      rw [isLeft,Option.isSome_none] at here
      have isRight := Option.isSome_eq_false_iff.mp here.symm
      rw [Option.isNone_iff_eq_none] at isRight
      rw [filterMap_cons_none isLeft,filterMap_cons_none isRight] at same
      exact forall_mem_cons.mpr ⟨isLeft.trans isRight.symm,rest same⟩
    | some left =>
      rw [isLeft,Option.isSome_some] at here
      obtain ⟨right,isRight⟩ := Option.isSome_iff_exists.mp here.symm
      rw [filterMap_cons_some isLeft,filterMap_cons_some isRight] at same
      obtain ⟨both,others⟩ := List.cons.inj same
      exact forall_mem_cons.mpr ⟨by rw [isLeft,isRight,both],rest others⟩

theorem selectedIds_known {requested : List Text} {ids : List String} {known : Text → Bool}
    (member : id ∈ selectedIds requested ids known) : known id := by
  unfold selectedIds at member
  dsimp only at member
  split_ifs at member
  · exact (mem_filter.mp member).2
  · exact (mem_filter.mp (contains_iff_mem.mp (mem_filter.mp member).2)).2

variable {ids : List Text}
theorem table_iff {α β : Type} {table : Text → Option α} (known : ∀ id ∈ ids, (table id).isSome) {f g : Text → α → β} :
    (ids.filterMap fun id => (table id).map (f id)) = ids.filterMap (fun id => (table id).map (g id)) ↔
      ∀ id ∈ ids, ∀ entry, table id = some entry → f id entry = g id entry := by
  rw [filterMap_eq_iff fun id _ => by rw [Option.isSome_map,Option.isSome_map]]
  refine forall₂_congr fun id member => ?_
  obtain ⟨entry,isEntry⟩ := Option.isSome_iff_exists.mp (known id member)
  simp [isEntry]
theorem neat_valueAt {values : Json} (neat : Neat values) {key : Text} {value : Json} (isValue : valueAt values key = some value) :
    Neat value := by
  cases values with
  | object entries => exact throughoutEntries_iff.mp neat.2 _ (lookup_entry isValue)
  | null | bool | integer | float | text | array => cases isValue

theorem values_iff {left right : Text → Option InputValue} :
    ((fun key => if ids.contains key then left key else none) = fun key => if ids.contains key then right key else none) ↔
      ∀ id ∈ ids, left id = right id := by
  rw [funext_iff]
  refine forall_congr' fun key => ?_
  by_cases member : key ∈ ids
  · rw [if_pos (contains_iff_mem.mpr member),if_pos (contains_iff_mem.mpr member)]
    simp [member]
  · simp [member]

theorem taskValues_iff (contract : Contract) (template : TaskForm) (neat : Neat (.object entries)) :
    (∀ id ∈ askedInputs contract template entries, (valueAt (field entries "values") id).bind normalizeTaskValue =
        Server.sanitizedKnownValue contract (field entries "values") id) ↔
      ∀ id ∈ askedInputs contract template entries, ∀ request value, Server.inputRequestTemplate contract id = some request →
        valueAt (field entries "values") id = some value → ValueAlike contract.definition request.toInputTemplate value := by
  refine forall₂_congr fun id member => ?_
  obtain ⟨request,isRequest⟩ := Option.isSome_iff_exists.mp (selectedIds_known member)
  rw [Server.sanitizedKnownValue,isRequest,Option.bind_some]
  cases isValue : valueAt (field entries "values") id with
  | none => simp
  | some value =>
    rw [Option.bind_some,Option.bind_some,value_iff (neat_valueAt (neat_field neat "values") isValue)]
    constructor
    · rintro alike _ _ ⟨rfl⟩ ⟨rfl⟩
      exact alike
    · exact fun alike => alike request value rfl rfl

theorem taskInputs_iff (contract : Contract) (template : TaskForm) (neat : Neat (.object entries)) :
    ((askedInputs contract template entries).filterMap fun id => (Server.inputRequestTemplate contract id).map fun request =>
        normalizeWorkflowInputRequest contract request (lastNamed javascript (field entries "input_requests") id)) =
      ((askedInputs contract template entries).filterMap fun id => (Server.inputRequestTemplate contract id).map fun request =>
        Server.inputRequestPayload contract request (lastNamed python (field entries "input_requests") id)) ↔
      ∀ id ∈ askedInputs contract template entries, ∀ request, Server.inputRequestTemplate contract id = some request →
        OptionsAlike contract request (lastNamed python (field entries "input_requests") id) := by
  have known : ∀ id ∈ askedInputs contract template entries, (Server.inputRequestTemplate contract id).isSome :=
    fun id member => selectedIds_known member
  rw [table_iff known]
  refine forall₂_congr fun id _ => forall₂_congr fun request isRequest => ?_
  have isNeat := neat_field neat "input_requests"
  rw [neat_lastNamed isNeat]
  exact inputRequest_iff (template_tidy isRequest) fun own named => lastNamed_neat isNeat named

theorem taskActions_iff (contract : Contract) (gate : Gate) (template : TaskForm) (neat : Neat (.object entries)) :
    ((offeredActions contract template entries).filterMap fun id => (Server.action contract id).map fun action =>
        taskAction gate action (lastNamed javascript (field entries "actions") id)) =
      ((offeredActions contract template entries).filterMap fun id => (Server.action contract id).map (Server.gatedActionPayload gate)) ↔
      ∀ id ∈ offeredActions contract template entries, ∀ action own, Server.action contract id = some action →
        lastNamed python (field entries "actions") id = some own → ActionAlike gate action own := by
  have known : ∀ id ∈ offeredActions contract template entries, (Server.action contract id).isSome :=
    fun id member => selectedIds_known member
  rw [table_iff known]
  refine forall₂_congr fun id _ => forall_congr' fun action => ?_
  have isNeat := neat_field neat "actions"
  rw [neat_lastNamed isNeat]
  cases named : lastNamed python (field entries "actions") id with
  | none => exact iff_of_true (fun _ => taskAction_none gate action) nofun
  | some own =>
    rw [taskAction_iff (lastNamed_neat isNeat named)]
    constructor
    · rintro alike _ isAction ⟨rfl⟩
      exact alike isAction
    · exact fun alike isAction => alike own isAction rfl

theorem task_iff (gate : Gate) (template : TaskForm) (id : Text) (neat : Neat (.object entries)) :
    task contract gate template id entries = Server.buildWorkflowTaskPayload contract gate template id entries ↔
      ReadAlike contract gate template entries := by
  have requests : inputRequestTemplate contract = Server.inputRequestTemplate contract := funext inputRequestTemplate_eq
  have actions : action contract = Server.action contract := funext action_eq
  have inputIds := neat_textList (neat_field neat "input_request_ids")
  have actionIds := neat_textList (neat_field neat "action_ids")
  have status : statusOf javascript template (field entries "status") = statusOf python template (field entries "status") := by
    rw [statusOf,statusOf,neat_text (neat_field neat "status")]
  unfold task Server.buildWorkflowTaskPayload
  dsimp only
  rw [WorkflowTask.mk.injEq,requests,actions,inputIds,actionIds,status,neat_textField neat,neat_textField neat]
  have title := @getD_own_iff Text (Server.stringValue (field entries "title")) template.title
  have inputs := taskInputs_iff contract template neat
  have offered := taskActions_iff contract gate template neat
  have values := values_iff.trans (taskValues_iff contract template neat)
  constructor
  · rintro ⟨_,_,_,_,isTitle,_,_,_,_,areInputs,areActions,areValues,_⟩
    exact ⟨title.mp isTitle,inputs.mp areInputs,offered.mp areActions,values.mp areValues⟩
  · intro alike
    exact ⟨rfl,rfl,rfl,rfl,title.mpr alike.title,rfl,rfl,rfl,rfl,inputs.mpr alike.options,offered.mpr alike.actions,
      values.mpr alike.values,rfl⟩

def records : Json → List Json
  | .array items => items
  | _ => []
def Named (contract : Contract) (zero : Text → Bool) : Json → Prop
  | .object entries => NamedAlike contract zero entries
  | _ => True
/-- An item that has for the client only what the server reads, or has of its own. -/
def Plain (contract : Contract) (zero : Text → Bool) (gate : Gate) : Json → Prop
  | .object entries => NamedAlike contract zero entries ∧
    ∀ template id, Server.identity contract zero entries = some (template,id) → ReadAlike contract gate template entries
  | _ => True
/-- The task of an item on the client. -/
def clientTask (contract : Contract) (gate : Gate) : Json → Option WorkflowTask
  | .object entries => (identity contract entries).map fun (template,id) => task contract gate template id entries
  | _ => none
/-- The task of an item on the server. -/
def serverTask (contract : Contract) (zero : Text → Bool) (gate : Gate) : Json → Option WorkflowTask
  | .object entries => (Server.identity contract zero entries).map fun (template,id) =>
    Server.buildWorkflowTaskPayload contract gate template id entries
  | _ => none

theorem client_records (gate : Gate) (payload : Json) :
    normalizeWorkflowTasks contract gate payload = (records payload).filterMap (clientTask contract gate) := by
  cases payload with
  | array items =>
    refine filterMap_congr fun item _ => ?_
    cases item with
    | null | bool | integer | float | text | array | object => rfl
  | null | bool | integer | float | text | object => rfl

theorem server_records (zero : Text → Bool) (gate : Gate) (payload : Json) :
    Server.normalizeWorkflowTasks contract zero gate payload = (records payload).filterMap (serverTask contract zero gate) := by
  cases payload with
  | array items =>
    refine filterMap_congr fun item _ => ?_
    cases item with
    | null | bool | integer | float | text | array | object => rfl
  | null | bool | integer | float | text | object => rfl

theorem identity_of_task
    (same : clientTask contract gate (.object entries) = serverTask contract zero gate (.object entries)) :
    identity contract entries = Server.identity contract zero entries := by
  have templates : taskTemplate contract = Server.taskTemplate contract := funext taskTemplate_eq
  rw [clientTask,serverTask] at same
  cases isClient : identity contract entries with
  | none =>
    rw [isClient,Option.map_none] at same
    exact (Option.map_eq_none_iff.mp same.symm).symm
  | some client =>
    rw [isClient,Option.map_some] at same
    obtain ⟨server,isServer,both⟩ := Option.map_eq_some_iff.mp same.symm
    rw [isServer]
    rw [identity,templates] at isClient
    have ids : server.2 = client.2 := congrArg WorkflowTask.id both
    have names : text server.1.id = text client.1.id := congrArg WorkflowTask.taskTemplateId both
    have ofClient := identified_id isClient
    rw [← names,identified_id isServer] at ofClient
    exact congrArg some (Prod.ext (Option.some.inj ofClient).symm ids.symm)

theorem item_iff (neat : Neat item) :
    clientTask contract gate item = serverTask contract zero gate item ↔ Plain contract zero gate item := by
  cases item with
  | object entries =>
    rw [Plain,← identity_iff zero neat]
    constructor
    · intro same
      have names := identity_of_task same
      refine ⟨names,fun template id isIt => (task_iff gate template id neat).mp ?_⟩
      rw [clientTask,serverTask,names,isIt] at same
      exact Option.some.inj same
    · rintro ⟨names,alike⟩
      rw [clientTask,serverTask,names]
      cases isIt : Server.identity contract zero entries with
      | none => rfl
      | some both => exact congrArg some ((task_iff gate both.1 both.2 neat).mpr (alike both.1 both.2 isIt))
  | null | bool | integer | float | text | array => exact iff_of_true rfl trivial

theorem named_shown (neat : Neat item) (named : Named contract zero item) :
    (clientTask contract gate item).isSome = (serverTask contract zero gate item).isSome := by
  cases item with
  | object entries =>
    rw [clientTask,serverTask,(identity_iff zero neat).mpr named,Option.isSome_map,Option.isSome_map]
  | null | bool | integer | float | text | array => rfl

/-- A choice whose options are cleared, with an answer that no option has. -/
def clearedChoice : Json := .array [.object [
  (text "task_template_id",.text (text "draft_only_backtest_choice")),
  (text "title",.text (text "What now?")),
  (text "input_requests",.array [.object [(text "id",.text (text "draft_only_choice")),(text "options",.array [])]]),
  (text "values",.object [(text "draft_only_choice",.text (text "launch"))])]]
/-- The title, the options and the answer of the choice. -/
def shownChoice (task : WorkflowTask) : Text × List (List Text) × Option InputValue :=
  (task.title,task.inputRequests.map fun request => request.options.map (·.id),task.values (text "draft_only_choice"))

end Codebot.WorkflowUi
