import Codebot.WorkflowInputs
import Codebot.Runs

/-!
Answers to a workflow task that were accepted, and refreshes of its prompt. A refresh sanitizes the values with the
options of the registry, which need not have an answer that was accepted from the options of an earlier refresh.
-/
namespace Codebot.WorkflowRefreshes
open Runs Texts WorkflowInputs List

section
variable (unicode : Unicode)

/-- The options that an answer may name, in the order in which they are asked. -/
def choices (definition : Definition) (template : InputTemplate) : List InputOption :=
  (template.options.filter fun option => !option.disabled) ++
    (template.optionSetId.bind fun optionSetId => definition.optionSets.lookup optionSetId).getD []
def firstNamed (definition : Definition) (template : InputTemplate) (name : Text) : Option InputOption :=
  (choices definition template).find? fun option => option.id == name || option.value == name
def InputKind.selects : InputKind → Bool
  | .multiSelect | .singleSelect | .selectOrText => true
  | .boolean | .text | .textarea | .unsupported => false
/-- The value of the option that a name stands for is, trimmed, a name of an option with the same value. -/
def Settled (definition : Definition) (template : InputTemplate) : Prop :=
  ∀ name option, stringValue unicode name = some name → firstNamed definition template name = some option →
    ∃ again other, stringValue unicode option.value = some again ∧ firstNamed definition template again = some other ∧
      other.value = option.value

variable {unicode} {definition : Definition} {template : InputTemplate}

theorem matching_eq (name : Text) :
    matchingOptionValue definition template name = (firstNamed definition template name).map (·.value) := by
  unfold matchingOptionValue firstNamed choices
  simp only [find?_append,find?_filter,Bool.decide_and,Bool.decide_eq_true]
  cases template.options.find? fun option => !option.disabled && (option.id == name || option.value == name) with
  | some option => rfl
  | none =>
    cases template.optionSetId with
    | none => rfl
    | some optionSetId => rfl

theorem stringValue_again {value name : Text} (trimmed : stringValue unicode value = some name) : stringValue unicode name = some name := by
  unfold stringValue at trimmed ⊢
  by_cases empty : strip unicode value = []
  · rw [if_pos empty] at trimmed
    cases trimmed
  · rw [if_neg empty] at trimmed
    cases trimmed
    rw [strip_strip,if_neg empty]

theorem sanitizeOptionValue_ok {name value : Text} : sanitizeOptionValue unicode definition template (some name) = .ok value ↔
    ∃ trimmed option, stringValue unicode name = some trimmed ∧ firstNamed definition template trimmed = some option ∧
      option.value = value := by
  unfold sanitizeOptionValue
  rw [Option.bind_some]
  cases isName : stringValue unicode name with
  | none => simp
  | some trimmed =>
    rw [Option.bind_some,matching_eq]
    cases isFirst : firstNamed definition template trimmed with
    | none => simp [isFirst]
    | some option => simp [isFirst]

theorem settled_value (settled : Settled unicode definition template) {name trimmed : Text} {option : InputOption}
    (isName : stringValue unicode name = some trimmed) (isFirst : firstNamed definition template trimmed = some option) :
    sanitizeOptionValue unicode definition template (some option.value) = .ok option.value := by
  obtain ⟨again,other,isAgain,isOther,same⟩ := settled trimmed option (stringValue_again isName) isFirst
  exact sanitizeOptionValue_ok.mpr ⟨again,other,isAgain,isOther,same⟩
theorem bind_ok {α β ε : Type} {x : Except ε α} {next : α → Except ε β} {result : β} :
    x.bind next = .ok result ↔ ∃ value, x = .ok value ∧ next value = .ok result := by
  cases x with
  | error message => simp [Except.bind]
  | ok value => simp [Except.bind]

theorem mapM_ok {α β ε : Type} {f : α → Except ε β} {items : List α} {values : List β} :
    items.mapM f = .ok values ↔ List.Forall₂ (fun item value => f item = .ok value) items values := by
  induction items generalizing values with
  | nil => simp [pure,Except.pure,eq_comm]
  | cons item items ih =>
    simp only [mapM_cons,bind,pure,Except.pure,bind_ok,ih,Except.ok.injEq,forall₂_cons_left_iff]
    constructor
    · rintro ⟨value,isValue,rest,isRest,rfl⟩
      exact ⟨value,rest,isValue,isRest,rfl⟩
    · rintro ⟨value,rest,isValue,isRest,rfl⟩
      exact ⟨value,isValue,rest,isRest,rfl⟩

theorem mapM_stable {α β ε : Type} {f : α → Except ε β} {g : β → α} (stable : ∀ a b, f a = .ok b → f (g b) = .ok b) {items : List α}
    {values : List β} (mapped : items.mapM f = .ok values) : (values.map g).mapM f = .ok values := by
  have each := mapM_ok.mp mapped
  refine mapM_ok.mpr (forall₂_map_left_iff.mpr ?_)
  clear mapped
  induction each with
  | nil => exact .nil
  | cons isValue _ ih => exact .cons (stable _ _ isValue) ih

theorem sanitizeOptionValue_stable (settled : Settled unicode definition template) (name : Option Text) (value : Text)
    (accepted : sanitizeOptionValue unicode definition template name = .ok value) :
    sanitizeOptionValue unicode definition template (some value) = .ok value := by
  cases name with
  | none => cases accepted
  | some name =>
    obtain ⟨trimmed,option,isName,isFirst,rfl⟩ := sanitizeOptionValue_ok.mp accepted
    exact settled_value settled isName isFirst

/-- What is accepted is accepted again as it is. -/
def Stable (unicode : Unicode) (definition : Definition) (template : InputTemplate) : Prop :=
  ∀ value accepted, sanitizeInputValue unicode definition template value = .ok accepted →
    sanitizeInputValue unicode definition template accepted = .ok accepted
/-- What a selection makes of a trimmed text. -/
def selected (definition : Definition) (template : InputTemplate) (name : Text) : Except String InputValue :=
  match firstNamed definition template name with
  | some option => .ok (.text option.value)
  | none =>
    if template.kind = .selectOrText ∧ template.allowCustom then .ok (.text name)
    else .error (template.id ++ " has an invalid option")

theorem sanitize_selection (select : template.kind = .singleSelect ∨ template.kind = .selectOrText) (value : InputValue) :
    sanitizeInputValue unicode definition template value =
      match value with
      | .text t => (stringValue unicode t).elim (.ok .null) (selected definition template)
      | _ => .ok .null := by
  have each : ∀ t, sanitizeInputValue unicode definition template (.text t) =
      (stringValue unicode t).elim (.ok .null) (selected definition template) := by
    intro t
    rcases select with isKind | isKind
    all_goals
      simp only [sanitizeInputValue,isKind,matching_eq]
      cases stringValue unicode t with
      | none => rfl
      | some name =>
        simp only [Option.elim_some,selected,isKind]
        cases firstNamed definition template name with
        | none => rfl
        | some option => rfl
  cases value with
  | text t => exact each t
  | null | boolean | list | other =>
    rcases select with isKind | isKind
    all_goals
      simp only [sanitizeInputValue,isKind]

theorem settled_of_selection (select : template.kind = .singleSelect ∨ template.kind = .selectOrText)
    (stable : Stable unicode definition template) : Settled unicode definition template := by
  intro name option isName isFirst
  have accepted : sanitizeInputValue unicode definition template (.text name) = .ok (.text option.value) := by
    rw [sanitize_selection select]
    simp only [isName,Option.elim_some,selected,isFirst]
  have again := stable _ _ accepted
  rw [sanitize_selection select] at again
  cases isAgain : stringValue unicode option.value with
  | none =>
    simp only [isAgain,Option.elim_none] at again
    cases again
  | some trimmed =>
    simp only [isAgain,Option.elim_some,selected] at again
    cases isOther : firstNamed definition template trimmed with
    | some other =>
      rw [isOther] at again
      exact ⟨trimmed,other,rfl,isOther,InputValue.text.inj (Except.ok.inj again)⟩
    | none =>
      -- The option itself has the name.
      rw [isOther] at again
      dsimp only at again
      split_ifs at again
      cases again
      have absent := find?_eq_none.mp isOther option (mem_of_find?_eq_some isFirst)
      simp at absent

theorem settled_of_list (isList : template.kind = .multiSelect) (stable : Stable unicode definition template) :
    Settled unicode definition template := by
  intro name option isName isFirst
  have one : ∀ t value, sanitizeOptionValue unicode definition template (some t) = .ok value →
      sanitizeInputValue unicode definition template (.list [some t]) = .ok (.list [some value]) := by
    intro t value accepted
    simp only [sanitizeInputValue,isList,mapM_cons,accepted]
    rfl
  have accepted := one name option.value (sanitizeOptionValue_ok.mpr ⟨name,option,isName,isFirst,rfl⟩)
  have again := stable _ _ accepted
  cases isAgain : sanitizeOptionValue unicode definition template (some option.value) with
  | error message =>
    simp only [sanitizeInputValue,isList,mapM_cons,isAgain] at again
    cases again
  | ok value =>
    rw [one _ _ isAgain] at again
    have same : value = option.value := Option.some.inj (List.cons.inj (InputValue.list.inj (Except.ok.inj again))).1
    obtain ⟨trimmed,other,isTrimmed,isOther,isValue⟩ := sanitizeOptionValue_ok.mp isAgain
    exact ⟨trimmed,other,isTrimmed,isOther,isValue.trans same⟩

theorem stable_selection (select : template.kind = .singleSelect ∨ template.kind = .selectOrText)
    (settled : Settled unicode definition template) : Stable unicode definition template := by
  intro value accepted isAccepted
  rw [sanitize_selection select] at isAccepted ⊢
  have blank : ∀ {result : InputValue}, (.ok .null : Except String InputValue) = .ok result → result = .null :=
    fun same => (Except.ok.inj same).symm
  cases value with
  | null | boolean | list | other => rw [blank isAccepted]
  | text t =>
    cases isName : stringValue unicode t with
    | none =>
      simp only [isName,Option.elim_none] at isAccepted
      rw [blank isAccepted]
    | some name =>
      simp only [isName,Option.elim_some,selected] at isAccepted
      cases isFirst : firstNamed definition template name with
      | some option =>
        rw [isFirst] at isAccepted
        cases isAccepted
        obtain ⟨again,other,isAgain,isOther,same⟩ := settled name option (stringValue_again isName) isFirst
        simp only [isAgain,Option.elim_some,selected,isOther,same]
      | none =>
        rw [isFirst] at isAccepted
        dsimp only at isAccepted
        split_ifs at isAccepted with custom
        cases isAccepted
        simp only [stringValue_again isName,Option.elim_some,selected,isFirst,if_pos custom]

theorem stable_list (isList : template.kind = .multiSelect) (settled : Settled unicode definition template) :
    Stable unicode definition template := by
  intro value accepted isAccepted
  simp only [sanitizeInputValue,isList] at isAccepted ⊢
  cases value with
  | list items =>
    dsimp only at isAccepted
    cases isMapped : items.mapM (sanitizeOptionValue unicode definition template) with
    | error message =>
      rw [isMapped] at isAccepted
      cases isAccepted
    | ok values =>
      rw [isMapped] at isAccepted
      cases isAccepted
      have again := mapM_stable (sanitizeOptionValue_stable settled) isMapped
      simp only [again]
      rfl
  | null | boolean | text | other => cases isAccepted

theorem stable_iff : Stable unicode definition template ↔
    (InputKind.selects template.kind → Settled unicode definition template) := by
  cases isKind : template.kind with
  | singleSelect => exact ⟨fun stable _ => settled_of_selection (.inl isKind) stable,fun settled => stable_selection (.inl isKind) (settled rfl)⟩
  | selectOrText => exact ⟨fun stable _ => settled_of_selection (.inr isKind) stable,fun settled => stable_selection (.inr isKind) (settled rfl)⟩
  | multiSelect => exact ⟨fun stable _ => settled_of_list isKind stable,fun settled => stable_list isKind (settled rfl)⟩
  | boolean =>
    refine ⟨fun _ selects => absurd selects Bool.false_ne_true,fun _ value accepted isAccepted => ?_⟩
    simp only [sanitizeInputValue,isKind] at isAccepted ⊢
    cases value with
    | boolean b =>
      cases isAccepted
      rfl
    | null | text | list | other => cases isAccepted
  | text | textarea =>
    refine ⟨fun _ selects => absurd selects Bool.false_ne_true,fun _ value accepted isAccepted => ?_⟩
    simp only [sanitizeInputValue,isKind] at isAccepted ⊢
    cases value with
    | text t =>
      dsimp only at isAccepted
      cases isName : stringValue unicode t with
      | none =>
        rw [isName] at isAccepted
        cases isAccepted
        rfl
      | some name =>
        rw [isName] at isAccepted
        cases isAccepted
        dsimp only [Option.elim_some]
        rw [stringValue_again isName]
        rfl
    | null | boolean | list | other =>
      cases isAccepted
      rfl
  | unsupported =>
    refine ⟨fun _ selects => absurd selects Bool.false_ne_true,fun _ value accepted isAccepted => ?_⟩
    simp only [sanitizeInputValue,isKind] at isAccepted
    cases isAccepted

end

section
variable (unicode : Unicode)

/-- What the payload of a task has beside its inputs and their values, in a payload that is built again: the
step, the kind, the status, the actions and the texts. -/
abbrev Outline := TaskTemplate → Payload → Payload
/-- `_input_request_overrides`: the last request of an id. -/
def overriding (requests : List PayloadRequest) (requestId : String) : Option PayloadRequest :=
  requests.reverse.find? fun request => request.id == requestId
def effectiveInputOptions (definition : Definition) (template : InputTemplate) (override : Option PayloadRequest) : List InputOption :=
  let sources := (override.map (·.options)).toList ++ template.options ::
    (template.optionSetId.map fun optionSetId => (definition.optionSets.lookup optionSetId).getD []).toList
  ((sources.map (sanitizePromptOptions unicode)).find? fun options => !options.isEmpty).getD []
def inputRequestPayload (definition : Definition) (requestId : String) (override : Option PayloadRequest) : PayloadRequest :=
  match inputRequestTemplate definition requestId with
  | none => ⟨requestId,[]⟩
  | some template =>
    match effectiveInputOptions unicode definition template override with
    | [] => ⟨requestId,template.options⟩
    | options => ⟨requestId,options⟩
/-- The value that `_sanitized_known_values` keeps of an input. -/
def knownValue (definition : Definition) (values : Values) (requestId : String) : Option InputValue :=
  (inputRequestTemplate definition requestId).bind fun template => (values.lookup requestId).bind fun value =>
    match sanitizeInputValue unicode definition template value with
    | .ok value => if isEmptyValue value then none else some value
    | .error _ => none
def sanitizedKnownValues (definition : Definition) (inputRequestIds : List String) (values : Values) : Values :=
  inputRequestIds.foldl (fun sanitized requestId =>
    (knownValue unicode definition values requestId).elim sanitized fun value => sanitized.insert requestId value) ∅

/-- `build_workflow_task_payload`, of a payload that is built again. -/
def buildWorkflowTaskPayload (outline : Outline) (definition : Definition) (template : TaskTemplate) (payload : Payload)
    (inputRequestIds : List String) (values : Values) (inputRequests : List PayloadRequest) : Payload :=
  let allowed := template.inputRequestIds.filter fun requestId => (inputRequestTemplate definition requestId).isSome
  let selected := (if inputRequestIds.isEmpty then allowed else inputRequestIds).filter fun requestId => allowed.contains requestId
  { outline template payload with
    inputRequestIds := selected
    inputRequests := selected.map fun requestId =>
      inputRequestPayload unicode definition requestId (overriding inputRequests requestId)
    values := sanitizedKnownValues unicode definition selected values }

/-- The payload that `merge_workflow_task_input_request_overrides` builds; there is none where it gives the payload back. -/
def rebuilt (outline : Outline) (registry : Registry) (workflowId : String) (payload : Payload) (inputRequests : List PayloadRequest)
    (values : Values) : Option Payload :=
  payload.taskTemplateId.bind fun taskTemplateId =>
    if payload.inputRequestIds.isEmpty then none
    else (registry.lookup workflowId).bind fun definition => (taskTemplate definition taskTemplateId).map fun template =>
      let existing := payload.inputRequests.filter fun request => !(inputRequests.map (·.id)).contains request.id
      buildWorkflowTaskPayload unicode outline definition template payload payload.inputRequestIds (values ∪ payload.values)
        (existing ++ inputRequests)

def mergeWorkflowTaskInputRequestOverrides (outline : Outline) (registry : Registry) (workflowId : String) (payload : Payload)
    (inputRequests : List PayloadRequest) (values : Values) : Payload :=
  (rebuilt unicode outline registry workflowId payload inputRequests values).getD payload
/-- A response, partial or not, or a refresh with new questions and options. -/
inductive Label
  | respond (values : Values) (actionId : Option String) (partially : Bool) (status : RequestedStatus)
  | refresh (inputRequests : List PayloadRequest)
/-- The task, the last accepted answer to every input, and whether the payload was built again after it. -/
structure State where
  task : Task
  accepted : Values
  isRebuilt : Bool
def start (task : Task) : State := ⟨task,∅,false⟩

/-- A response that is refused changes nothing. -/
def step (outline : Outline) (registry : Registry) (state : State) : Label → Option State
  | .respond values actionId partially status =>
    match answeredValues unicode registry state.task values actionId partially,
      validateWorkflowTaskResponse unicode registry state.task values actionId partially with
    | .ok answers, .ok response => some {
        task := { state.task with
          responseJson := some response
          status := if partially then workflowTaskResponseStatus unicode registry state.task response status else status.text }
        accepted := answers ∪ state.accepted
        isRebuilt := false }
    | _, _ => some state
  | .refresh inputRequests =>
    let values := existingTaskValues state.task
    some { state with
      task := { state.task with
        payloadJson := mergeWorkflowTaskInputRequestOverrides unicode outline registry state.task.workflowId state.task.payloadJson
          inputRequests values }
      isRebuilt := state.isRebuilt ||
        (rebuilt unicode outline registry state.task.workflowId state.task.payloadJson inputRequests values).isSome }

end

/-- Every input of the task has the answer that was accepted last, also in a payload that was built again. -/
def Survives (state : State) : Prop :=
  ∀ requestId ∈ state.task.payloadJson.inputRequestIds, ∀ answer, state.accepted.lookup requestId = some answer →
    (existingTaskValues state.task).lookup requestId = some answer ∧
      (state.isRebuilt → state.task.payloadJson.values.lookup requestId = some answer)

/-- A whole response answers every accepted input anew, unless the payload has it, and a refresh accepts the accepted
    answers as they are. -/
def Spares (unicode : Unicode) (registry : Registry) (state : State) : Label → Prop
  | .respond values actionId partially _ => partially = false →
    ∀ answers, answeredValues unicode registry state.task values actionId partially = .ok answers →
      ∀ requestId ∈ state.task.payloadJson.inputRequestIds, requestId ∉ answers → ∀ answer,
        state.accepted.lookup requestId = some answer → state.task.payloadJson.values.lookup requestId = some answer
  | .refresh _ => ∀ definition ∈ registry.lookup state.task.workflowId, ∀ taskTemplateId ∈ state.task.payloadJson.taskTemplateId,
    ∀ task ∈ taskTemplate definition taskTemplateId, ∀ requestId ∈ state.task.payloadJson.inputRequestIds,
      requestId ∈ task.inputRequestIds → ∀ template ∈ inputRequestTemplate definition requestId, ∀ answer,
        state.accepted.lookup requestId = some answer → sanitizeInputValue unicode definition template answer = .ok answer

section
variable {unicode : Unicode} {outline : Outline} {registry : Registry} {state next : State}

theorem sanitizedKnownValues_lookup (definition : Definition) (inputRequestIds : List String) (values : Values) (requestId : String) :
    (sanitizedKnownValues unicode definition inputRequestIds values).lookup requestId =
      if requestId ∈ inputRequestIds then knownValue unicode definition values requestId else none := by
  have each : ∀ sanitized : Values, (inputRequestIds.foldl (fun sanitized requestId =>
      (knownValue unicode definition values requestId).elim sanitized fun value => sanitized.insert requestId value) sanitized).lookup
        requestId = if requestId ∈ inputRequestIds then (knownValue unicode definition values requestId).or (sanitized.lookup requestId)
          else sanitized.lookup requestId := by
    induction inputRequestIds with
    | nil =>
      intro sanitized
      rw [if_neg not_mem_nil]
      rfl
    | cons other rest ih =>
      intro sanitized
      rw [foldl_cons,ih]
      by_cases same : requestId = other
      · subst same
        rw [if_pos mem_cons_self]
        cases known : knownValue unicode definition values requestId with
        | none =>
          simp only [Option.elim_none,Option.none_or]
          exact ite_self _
        | some value =>
          simp only [Option.elim_some,Option.some_or,Finmap.lookup_insert]
          exact ite_self _
      · have untouched : ((knownValue unicode definition values other).elim sanitized fun value => sanitized.insert other value).lookup requestId =
            sanitized.lookup requestId := by
          cases knownValue unicode definition values other with
          | none => rfl
          | some value => exact Finmap.lookup_insert_of_ne sanitized same
        rw [untouched]
        simp only [mem_cons,same,false_or]
  rw [sanitizedKnownValues,each,Finmap.lookup_empty,Option.or_none]

variable {values : Values}

theorem knownValue_some {definition : Definition} {requestId : String} {template : InputTemplate}
    (isTemplate : inputRequestTemplate definition requestId = some template) {answer : InputValue} (found : values.lookup requestId = some answer)
    (written : isEmptyValue answer = false) : knownValue unicode definition values requestId = some answer ↔
      sanitizeInputValue unicode definition template answer = .ok answer := by
  unfold knownValue
  rw [isTemplate,Option.bind_some,found,Option.bind_some]
  cases sanitizeInputValue unicode definition template answer with
  | error message => exact iff_of_false nofun nofun
  | ok value =>
    constructor
    · intro same
      dsimp only at same
      split_ifs at same
      rw [Option.some.inj same]
    · intro same
      rw [Except.ok.inj same]
      dsimp only
      rw [written,if_neg Bool.false_ne_true]

def Written (state : State) : Prop := ∀ requestId answer, state.accepted.lookup requestId = some answer → isEmptyValue answer = false

theorem validateValue_written {definition : Definition} {payload : Payload} {requireRequired : Bool}
    {sanitized result : Values} {requestId : String}
    (validated : validateValue unicode definition values payload requireRequired sanitized requestId = .ok result)
    (written : ∀ requestId answer, sanitized.lookup requestId = some answer → isEmptyValue answer = false) :
    ∀ requestId answer, result.lookup requestId = some answer → isEmptyValue answer = false := by
  have same : Except.ok sanitized = (.ok result : Except String Values) →
      ∀ requestId answer, result.lookup requestId = some answer → isEmptyValue answer = false := by
    intro isResult
    rwa [← Except.ok.inj isResult]
  unfold validateValue at validated
  cases isTemplate : inputRequestForValidation unicode definition payload requestId with
  | none =>
    rw [isTemplate] at validated
    exact same validated
  | some template =>
    rw [isTemplate] at validated
    cases isValue : values.lookup requestId with
    | none =>
      simp only [isValue] at validated
      split_ifs at validated
      exact same validated
    | some value =>
      simp only [isValue] at validated
      cases isAccepted : sanitizeInputValue unicode definition template value with
      | error message =>
        rw [isAccepted] at validated
        cases validated
      | ok accepted =>
        simp only [isAccepted,bind,Except.bind] at validated
        split_ifs at validated with empty required
        · exact same validated
        · cases validated
          intro other answer found
          by_cases isIt : other = requestId
          · subst isIt
            rw [Finmap.lookup_insert] at found
            cases found
            exact Bool.eq_false_iff.mpr empty
          · rw [Finmap.lookup_insert_of_ne _ isIt] at found
            exact written other answer found

variable {actionId : Option String} {partially : Bool}

theorem answeredValues_written {task : Task} {answers : Values}
    (answered : answeredValues unicode registry task values actionId partially = .ok answers) :
    ∀ requestId answer, answers.lookup requestId = some answer → isEmptyValue answer = false := by
  have all : ∀ {definition : Definition} {ids : List String} {payload : Payload} {requireRequired : Bool} {sanitized result : Values},
      ids.foldlM (validateValue unicode definition values payload requireRequired) sanitized = .ok result →
      (∀ requestId answer, sanitized.lookup requestId = some answer → isEmptyValue answer = false) →
      ∀ requestId answer, result.lookup requestId = some answer → isEmptyValue answer = false := by
    intro definition ids payload requireRequired
    induction ids with
    | nil =>
      intro sanitized result folded written
      cases folded
      exact written
    | cons id ids ih =>
      intro sanitized result folded written
      rw [foldlM_cons] at folded
      cases isNext : validateValue unicode definition values payload requireRequired sanitized id with
      | error message =>
        rw [isNext] at folded
        cases folded
      | ok next =>
        rw [isNext] at folded
        exact ih folded (validateValue_written isNext written)
  have nothing : ∀ requestId answer, (∅ : Values).lookup requestId = some answer → isEmptyValue answer = false := by
    intro requestId answer found
    rw [Finmap.lookup_empty] at found
    cases found
  unfold answeredValues at answered
  cases isDefinition : registry.lookup task.workflowId with
  | none =>
    rw [isDefinition] at answered
    cases answered
  | some definition =>
    simp only [isDefinition] at answered
    cases isTemplate : taskTemplate definition task.taskTemplateId with
    | none =>
      rw [isTemplate] at answered
      cases answered
    | some template =>
      simp only [isTemplate] at answered
      have validated : ∀ {ids : List String} {requireRequired : Bool},
          validateValues unicode definition ids values task.payloadJson requireRequired = .ok answers →
          ∀ requestId answer, answers.lookup requestId = some answer → isEmptyValue answer = false := by
        intro ids requireRequired isValid
        unfold validateValues at isValid
        split at isValid
        · cases isValid
        · exact all isValid nothing
      cases actionId with
      | none => exact validated answered
      | some actionId =>
        cases checked : checkAction definition template task actionId with
        | error message =>
          simp only [checked,bind,Except.bind] at answered
          cases answered
        | ok _ =>
          simp only [checked,bind,Except.bind] at answered
          exact validated answered

theorem validated_response {task : Task} :
    validateWorkflowTaskResponse unicode registry task values actionId partially =
      (answeredValues unicode registry task values actionId partially).map fun answers =>
        ⟨task.workflowId,task.taskTemplateId,actionId,if partially then answers ∪ existingTaskValues task else answers⟩ := by
  unfold validateWorkflowTaskResponse
  cases answeredValues unicode registry task values actionId partially with
  | error message => rfl
  | ok answers => rfl

theorem step_respond {status : RequestedStatus}
    (stepped : step unicode outline registry state (.respond values actionId partially status) = some next) :
    (∃ answers, answeredValues unicode registry state.task values actionId partially = .ok answers ∧
      next.task.payloadJson = state.task.payloadJson ∧ next.accepted = answers ∪ state.accepted ∧ next.isRebuilt = false ∧
      existingTaskValues next.task =
        (if partially then answers ∪ existingTaskValues state.task else answers) ∪ state.task.payloadJson.values) ∨
    (∀ answers, answeredValues unicode registry state.task values actionId partially ≠ .ok answers) ∧ next = state := by
  dsimp only [step] at stepped
  rw [validated_response] at stepped
  cases answered : answeredValues unicode registry state.task values actionId partially with
  | error message =>
    rw [answered] at stepped
    cases stepped
    exact .inr ⟨nofun,rfl⟩
  | ok answers =>
    rw [answered] at stepped
    cases stepped
    exact .inl ⟨answers,rfl,rfl,rfl,rfl,rfl⟩

theorem written_step (label : Label) (written : Written state) (stepped : step unicode outline registry state label = some next) :
    Written next := by
  cases label with
  | respond values actionId partially status =>
    rcases step_respond stepped with ⟨answers,answered,_,isAccepted,_⟩ | ⟨_,rfl⟩
    · intro requestId answer found
      rw [isAccepted] at found
      by_cases isNew : requestId ∈ answers
      · rw [Finmap.lookup_union_left isNew] at found
        exact answeredValues_written answered requestId answer found
      · rw [Finmap.lookup_union_right isNew] at found
        exact written requestId answer found
    · exact written
  | refresh inputRequests =>
    cases stepped
    exact written

theorem survives_respond_iff (survives : Survives state) (values : Values) (actionId : Option String) (partially : Bool)
    (status : RequestedStatus) :
    (∀ next, step unicode outline registry state (.respond values actionId partially status) = some next → Survives next) ↔
      Spares unicode registry state (.respond values actionId partially status) := by
  constructor
  · intro all whole answers answered requestId member isOld answer found
    subst whole
    obtain ⟨next,stepped⟩ : ∃ next, step unicode outline registry state (.respond values actionId false status) = some next := by
      dsimp only [step]
      rw [validated_response,answered]
      exact ⟨_,rfl⟩
    rcases step_respond stepped with ⟨given,isGiven,payload,isAccepted,_,existing⟩ | ⟨refused,_⟩
    · cases answered.symm.trans isGiven
      have kept := (all next stepped requestId (payload ▸ member) answer
        (by rw [isAccepted,Finmap.lookup_union_right isOld,found])).1
      rw [existing,if_neg Bool.false_ne_true,Finmap.lookup_union_right isOld] at kept
      exact kept
    · exact absurd answered (refused answers)
  · intro spares next stepped
    rcases step_respond stepped with ⟨answers,answered,payload,isAccepted,notRebuilt,existing⟩ | ⟨_,rfl⟩
    · intro requestId member answer found
      rw [payload] at member
      refine ⟨?_,fun isRebuilt => absurd (notRebuilt.symm.trans isRebuilt) Bool.false_ne_true⟩
      rw [isAccepted] at found
      rw [existing]
      by_cases isNew : requestId ∈ answers
      · rw [Finmap.lookup_union_left isNew] at found
        cases partially with
        | false => rw [if_neg Bool.false_ne_true,Finmap.lookup_union_left isNew,found]
        | true => rw [if_pos rfl,Finmap.lookup_union_left (Finmap.mem_union.mpr (.inl isNew)),Finmap.lookup_union_left isNew,found]
      · rw [Finmap.lookup_union_right isNew] at found
        cases partially with
        | false =>
          rw [if_neg Bool.false_ne_true,Finmap.lookup_union_right isNew]
          exact spares rfl answers answered requestId member isNew answer found
        | true =>
          have kept := (survives requestId member answer found).1
          rw [if_pos rfl,Finmap.lookup_union_left (Finmap.mem_union.mpr (.inr (Finmap.mem_of_lookup_eq_some kept))),
            Finmap.lookup_union_right isNew,kept]
    · exact survives

theorem rebuilt_some {workflowId : String} {payload built : Payload} {inputRequests : List PayloadRequest}
    (isBuilt : rebuilt unicode outline registry workflowId payload inputRequests values = some built) :
    ∃ definition ∈ registry.lookup workflowId, ∃ taskTemplateId ∈ payload.taskTemplateId, ∃ task ∈ taskTemplate definition taskTemplateId,
      (∀ requestId, requestId ∈ built.inputRequestIds ↔ requestId ∈ payload.inputRequestIds ∧ requestId ∈ task.inputRequestIds ∧
        (inputRequestTemplate definition requestId).isSome) ∧
      ∀ requestId ∈ built.inputRequestIds, built.values.lookup requestId =
        knownValue unicode definition (values ∪ payload.values) requestId := by
  obtain ⟨taskTemplateId,isId,isBuilt⟩ := Option.bind_eq_some_iff.mp isBuilt
  split_ifs at isBuilt with empty
  obtain ⟨definition,isDefinition,isBuilt⟩ := Option.bind_eq_some_iff.mp isBuilt
  obtain ⟨task,isTask,rfl⟩ := Option.map_eq_some_iff.mp isBuilt
  refine ⟨definition,isDefinition,taskTemplateId,isId,task,isTask,?_,?_⟩
  · intro requestId
    simp only [buildWorkflowTaskPayload,if_neg empty,mem_filter,contains_iff_mem]
  · intro requestId member
    dsimp only [buildWorkflowTaskPayload] at member ⊢
    rw [sanitizedKnownValues_lookup,if_pos member]

theorem rebuilt_isSome {workflowId : String} {payload : Payload} (inputRequests : List PayloadRequest) (values : Values)
    {definition : Definition} (isDefinition : registry.lookup workflowId = some definition) {taskTemplateId : String}
    (isId : payload.taskTemplateId = some taskTemplateId) {task : TaskTemplate} (isTask : taskTemplate definition taskTemplateId = some task)
    (some : payload.inputRequestIds ≠ []) : (rebuilt unicode outline registry workflowId payload inputRequests values).isSome := by
  have notEmpty : ¬payload.inputRequestIds.isEmpty = true := fun empty => some (isEmpty_iff.mp empty)
  rw [rebuilt,isId,Option.bind_some,if_neg notEmpty,isDefinition,Option.bind_some,isTask]
  rfl

theorem survives_refresh_iff (written : Written state) (survives : Survives state) (inputRequests : List PayloadRequest) :
    (∀ next, step unicode outline registry state (.refresh inputRequests) = some next → Survives next) ↔
      Spares unicode registry state (.refresh inputRequests) := by
  dsimp only [step]
  simp only [Option.some.injEq,forall_eq']
  cases isBuilt : rebuilt unicode outline registry state.task.workflowId state.task.payloadJson inputRequests (existingTaskValues state.task) with
  | none =>
    rw [mergeWorkflowTaskInputRequestOverrides,isBuilt,Option.getD_none,Option.isSome_none,Bool.or_false]
    refine iff_of_true survives ?_
    intro definition isDefinition taskTemplateId isId task isTask requestId member
    have built := @rebuilt_isSome unicode outline _ _ _ inputRequests (existingTaskValues state.task) _ isDefinition _ isId _ isTask
      (ne_nil_of_mem member)
    rw [isBuilt] at built
    cases built
  | some payload =>
    obtain ⟨definition,isDefinition,taskTemplateId,isId,task,isTask,inputs,values⟩ := rebuilt_some isBuilt
    rw [mergeWorkflowTaskInputRequestOverrides,isBuilt,Option.getD_some,Option.isSome_some,Bool.or_true]
    -- The values that are sanitized have the accepted answers.
    have given : ∀ requestId ∈ state.task.payloadJson.inputRequestIds, ∀ answer, state.accepted.lookup requestId = some answer →
        (existingTaskValues state.task ∪ state.task.payloadJson.values).lookup requestId = some answer := by
      intro requestId member answer found
      have existing := (survives requestId member answer found).1
      rw [Finmap.lookup_union_left (Finmap.mem_of_lookup_eq_some existing),existing]
    constructor
    · intro kept otherDefinition isOther otherId isOtherId otherTask isOtherTask requestId member inTask template isTemplate answer found
      cases isDefinition.symm.trans isOther
      cases isId.symm.trans isOtherId
      cases isTask.symm.trans isOtherTask
      have isSelected : requestId ∈ payload.inputRequestIds := (inputs requestId).mpr ⟨member,inTask,isTemplate ▸ rfl⟩
      have known := (kept requestId isSelected answer found).2 rfl
      dsimp only at known
      rw [values requestId isSelected] at known
      exact (knownValue_some isTemplate (given requestId member answer found) (written requestId answer found)).mp known
    · intro spares requestId isSelected answer found
      obtain ⟨member,inTask,known⟩ := (inputs requestId).mp isSelected
      obtain ⟨template,isTemplate⟩ := Option.isSome_iff_exists.mp known
      have accepted := spares definition isDefinition taskTemplateId isId task isTask requestId member inTask template isTemplate answer found
      have isBuiltValue : payload.values.lookup requestId = some answer := by
        rw [values requestId isSelected]
        exact (knownValue_some isTemplate (given requestId member answer found) (written requestId answer found)).mpr accepted
      refine ⟨?_,fun _ => isBuiltValue⟩
      have existing := (survives requestId member answer found).1
      unfold existingTaskValues at existing ⊢
      dsimp only
      by_cases inResponse : requestId ∈ state.task.responseJson.elim ∅ (·.values)
      · rw [Finmap.lookup_union_left inResponse] at existing ⊢
        exact existing
      · rw [Finmap.lookup_union_right inResponse]
        exact isBuiltValue

theorem survives_iff (written : Written state) (survives : Survives state) (label : Label) :
    (∀ next, step unicode outline registry state label = some next → Survives next) ↔ Spares unicode registry state label := by
  cases label with
  | respond values actionId partially status => exact survives_respond_iff survives values actionId partially status
  | refresh inputRequests => exact survives_refresh_iff written survives inputRequests
theorem written_start (task : Task) : Written (start task) := by
  intro requestId answer found
  rw [start,Finmap.lookup_empty] at found
  cases found
theorem survives_start (task : Task) : Survives (start task) := by
  intro requestId _ answer found
  rw [start,Finmap.lookup_empty] at found
  cases found

end

/-- An accepted answer is accepted again as it is exactly if the options of its input are settled, and in every state of
    a run exactly if every refresh accepts it and every whole response answers again what the payload does not have. -/
theorem answersSurvive_iff (unicode : Unicode) (outline : Outline) (registry : Registry) :
    (∀ definition template, Stable unicode definition template ↔
      (InputKind.selects template.kind → Settled unicode definition template)) ∧
    ∀ task labels, (∀ before after state, labels = before ++ after → run (step unicode outline registry) (start task) before = some state →
        Survives state) ↔ Meets (step unicode outline registry) (Spares unicode registry) (start task) labels :=
  ⟨fun _ _ => stable_iff,fun task _ => holds_iff (fun _ label _ => written_step label) (fun _ label written survives => survives_iff written survives label)
    (written_start task) (survives_start task)⟩

/-- The market, with options of a refresh: what `a` stands for is the id of the option before. -/
def crossedMarket : InputTemplate where
  id := "market"
  kind := .selectOrText
  required := true
  allowCustom := true
  options := [option "b" "c" "C",option "a" "b" "B"]
  optionSetId := some "market_defaults"

def simulation : Definition := (workflowDefinitions.lookup "strategy_bot_simulation").getD ⟨[],[],[],[]⟩

/-- The task of a draft that is not run, with an option that the registry does not have. -/
def draftChoice : Task where
  id := 7
  conversationId := 1
  runId := some 3
  ownerUserId := 1
  workspaceId := 1
  workflowId := "strategy_bot_simulation"
  taskTemplateId := "draft_only_backtest_choice"
  stepId := "backtest_preview"
  kind := "choice_request"
  status := "pending_user"
  payloadJson := {
    taskTemplateId := some "draft_only_backtest_choice"
    status := some "pending_user"
    stepId := some "backtest_preview"
    kind := some "choice_request"
    inputRequestIds := ["draft_only_choice"]
    actionIds := []
    inputRequests := [⟨"draft_only_choice",[option "later" "later" "Later"]⟩]
    actions := []
    values := ∅
    rest := "" }
  responseJson := none
  createdAt := 4
  updatedAt := 4
  resolvedAt := none

/-- The answer is accepted, then the prompt is refreshed with the same options. -/
def answeredThenRefreshed : List Label :=
  [.respond (Finmap.singleton "draft_only_choice" (.text (text "later"))) none true .completed,
    .refresh [⟨"draft_only_choice",[option "later" "later" "Later"]⟩]]
theorem crossed_unstable : ¬Stable ascii simulation crossedMarket := by
  intro stable
  have first : sanitizeInputValue ascii simulation crossedMarket (.text (text "a")) = .ok (.text (text "b")) := by decide
  have again : sanitizeInputValue ascii simulation crossedMarket (.text (text "b")) = .ok (.text (text "c")) := by decide
  have same := stable _ _ first
  rw [again] at same
  cases same

theorem refresh_drops : ¬∀ (outline : Outline) (task : Task) (labels : List Label) (state : State),
      run (step ascii outline workflowDefinitions) (start task) labels = some state → Survives state := by
  intro always
  have ends : (run (step ascii (fun _ payload => payload) workflowDefinitions) (start draftChoice) answeredThenRefreshed).map
      (fun state => (state.task.payloadJson.inputRequestIds,state.accepted.lookup "draft_only_choice",state.isRebuilt,
        state.task.payloadJson.values.lookup "draft_only_choice")) =
        some (["draft_only_choice"],some (.text (text "later")),true,none) := by decide
  obtain ⟨state,ran,parts⟩ := Option.map_eq_some_iff.mp ends
  obtain ⟨inputs,isAccepted,isRebuilt,dropped⟩ : _ = _ ∧ _ = _ ∧ _ = _ ∧ _ = _ := by simpa only [Prod.mk.injEq] using parts
  have kept := (always _ draftChoice _ state ran "draft_only_choice" (inputs ▸ mem_cons_self) _ isAccepted).2 isRebuilt
  rw [dropped] at kept
  cases kept

/-- Accepted answers are neither accepted again as they are nor do they survive every refresh. -/
theorem accepted_answers_lost : ¬(∀ definition template, Stable ascii definition template) ∧
    ¬∀ (outline : Outline) (task : Task) (labels : List Label) (state : State),
      run (step ascii outline workflowDefinitions) (start task) labels = some state → Survives state :=
  ⟨fun stable => crossed_unstable (stable simulation crossedMarket),refresh_drops⟩

end Codebot.WorkflowRefreshes
