import Codebot.ToolCalls

/-!
The tool calls of a run are gated, bounded and recorded truthfully (`truthful_iff`). The invariant tells for each call
its events so far (`Progress`): a step adds the next event of one call (`Writes`) or none of any call (`Silent`).
-/
namespace Codebot.TruthfulCalls
open Runs Texts ToolCalls List

/-- How far a call has come. -/
inductive Progress
  | absent | proposed | rejected | started | executed
  | finished (raised : Bool)
deriving DecidableEq
def statusOf (raised : Bool) : Status := if raised then .failed else .completed

/-- The events of a call that has come so far. -/
def Progress.word (id : Nat) : Progress → List Event
  | .absent => []
  | .proposed => [.proposed id]
  | .rejected => [.proposed id,.rejected id]
  | .started => [.proposed id,.validated id,.started id]
  | .executed => [.proposed id,.validated id,.started id,.executed id false]
  | .finished raised => [.proposed id,.validated id,.started id,.executed id raised,.completed id (statusOf raised)]

def Progress.closed : Progress → Bool
  | .absent => true
  | .rejected => true
  | .finished _ => true
  | _ => false
theorem trace_append (id : Nat) (first second : List Event) : trace id (first ++ second) = trace id first ++ trace id second :=
  filter_append ..

variable {event : Event} {id : Nat}
theorem trace_cons_about (isAbout : event.about id = true) (rest : List Event) :
    trace id (event :: rest) = event :: trace id rest := filter_cons_of_pos isAbout

variable {events : List Event}
theorem trace_eq_nil (none : ∀ event ∈ events, event.about id = false) : trace id events = [] := by
  simpa [trace,filter_eq_nil_iff] using none

variable {log : List Event}
theorem mem_of_mem_trace (member : event ∈ trace id log) : event ∈ log :=
  (mem_filter.mp member).1
theorem mem_trace (member : event ∈ log) (isAbout : event.about id = true) :
    event ∈ trace id log := mem_filter.mpr ⟨member,isAbout⟩
theorem completions_append (id : Nat) (first second : List Event) :
    completions id (first ++ second) = completions id first ++ completions id second := filterMap_append

theorem completions_trace (id : Nat) (log : List Event) : completions id (trace id log) = completions id log := by
  induction log with
  | nil => rfl
  | cons event log ih =>
    by_cases isAbout : event.about id = true
    · rw [trace_cons_about isAbout]
      simp only [completions,filterMap_cons] at ih ⊢
      rw [ih]
    · have skipped : trace id (event :: log) = trace id log := filter_cons_of_neg isAbout
      rw [skipped,ih]
      cases event with
      | completed other status => simp [completions,show other ≠ id by simpa [Event.about] using isAbout]
      | _ => rfl

variable {after before : List Event}
theorem word_started {progress : Progress} (split : progress.word id = before ++ .started id :: after) :
    progress = .started ∧ after = [] ∨ progress = .executed ∧ after = [.executed id false] ∨
      ∃ raised, progress = .finished raised ∧ after = [.executed id raised,.completed id (statusOf raised)] := by
  cases progress <;> simp [Progress.word,cons_eq_append_iff] at split ⊢ <;> grind

variable {raised : Bool}
theorem word_executed {progress : Progress}
    (split : progress.word id = before ++ .executed id raised :: after) : .validated id ∈ before := by
  cases progress <;> simp [Progress.word,cons_eq_append_iff] at split ⊢ <;> grind

def At (s : State) (id : Nat) (progress : Progress) : Prop := trace id s.log = progress.word id
def Closed (s : State) (id : Nat) : Prop :=
  ∃ progress, progress.closed = true ∧ At s id progress ∧
    ∀ raised, progress = .finished raised → s.records id = some (statusOf raised)
def Outside (s : State) (task : Task) : Prop := ∀ call ∈ task.chainOf, At s call.id (.finished false)

/-- What a phase says of the state. -/
def Here (s : State) : Phase → Prop
  | .idle => True
  | .gate task => At s task.call.id .proposed ∧ Outside s task
  | .tool task => At s task.call.id .started ∧ s.budget.allowTool = true ∧ Outside s task
  | .follow task _ point => At s task.call.id (if point.early then .executed else .finished false) ∧
      (point.uncounted = true ∨ s.records task.call.id = some .completed) ∧ Outside s task
  | .plan call => At s call.id (.finished false)
  | .report call step raised => At s call.id (.finished false) ∧
      if s.budget.blocked then raised = false ∧ At s step.id .rejected else raised = false → At s step.id (.finished false)
  | .close task => At s task.call.id (.finished false) ∧ Outside s task
  | .ended => True

/-- The invariant of the states that sound steps lead to. -/
structure Inv (s : State) : Prop where
  fresh : ∀ id, s.proposals ≤ id → trace id s.log = []
  closed : ∀ id, s.phase.current ≠ some id → Closed s id
  here : Here s s.phase
  counted : s.phase ≠ .ended → executions s.log = s.budget.executedToolCalls + raises s.log + s.phase.uncounted
  bounded : executions s.log ≤ s.budget.maxToolCalls
  quiet : s.budget.blocked = false → ∀ id, .rejected id ∉ s.log
  blocked : s.budget.blocked = true → (s.phase = .ended ∨ ∃ call step raised, s.phase = .report call step raised) ∧
    ∃ before id, s.log = before ++ [.rejected id] ∧ ∀ other, .rejected other ∉ before
  reported : ∀ id, .stepCompleted id ∈ s.log → ∃ raised, .executed id raised ∈ s.log

theorem Inv.progress {s : State} (inv : Inv s) (id : Nat) : ∃ progress, At s id progress ∧
    (progress = .proposed ∨ progress.closed = false ∧ s.phase.pending = some id ∨
      progress.closed = true ∧ ∀ raised, progress = .finished raised → s.records id = some (statusOf raised)) := by
  by_cases current : s.phase.current = some id
  · have here := inv.here
    cases isPhase : s.phase with
    | gate task =>
      rw [isPhase] at current here
      cases current
      exact ⟨.proposed,here.1,.inl rfl⟩
    | tool task =>
      rw [isPhase] at current here
      exact ⟨.started,by cases current; exact here.1,.inr (.inl ⟨rfl,current⟩)⟩
    | follow task output point =>
      rw [isPhase] at current here
      cases early : point.early with
      | false => simp [Phase.current,early] at current
      | true =>
        simp only [Phase.current,early,↓reduceIte,Option.some.injEq] at current
        simp only [Here,early,↓reduceIte] at here
        subst current
        exact ⟨.executed,here.1,.inr (.inl ⟨rfl,by simp [Phase.pending,early]⟩)⟩
    | idle | plan call | report call step raised | close task | ended =>
      rw [isPhase] at current
      cases current
  · obtain ⟨progress,isClosed,here,record⟩ := inv.closed id current
    exact ⟨progress,here,.inr (.inr ⟨isClosed,record⟩)⟩

theorem At.split {s : State} {progress : Progress}
    (here : At s id progress) (split : s.log = before ++ event :: after) (isAbout : event.about id = true) :
    progress.word id = trace id before ++ event :: trace id after := by
  rw [← here,split,trace_append,trace_cons_about isAbout]

theorem Inv.truthful {s : State} (inv : Inv s) : Truthful s := by
  refine ⟨?_,inv.bounded,?_,?_,inv.reported⟩
  · intro before id raised after split
    obtain ⟨progress,here,-⟩ := inv.progress id
    exact mem_of_mem_trace (word_executed (here.split split (by simp [Event.about])))
  · intro before id after split
    obtain ⟨progress,here,kind⟩ := inv.progress id
    have word := here.split split (by simp [Event.about])
    have same := completions_trace id after
    have raisedIff : .executed id true ∈ after ↔ .executed id true ∈ trace id after :=
      ⟨fun member => mem_trace member (by simp [Event.about]),mem_of_mem_trace⟩
    rw [raisedIff,← same]
    rcases word_started word with ⟨rfl,rest⟩ | ⟨rfl,rest⟩ | ⟨raised,rfl,rest⟩
    · have isPending : s.phase.pending = some id := by simpa [Progress.closed] using kind
      exact .inl ⟨isPending,by rw [rest]; rfl⟩
    · have isPending : s.phase.pending = some id := by simpa [Progress.closed] using kind
      exact .inl ⟨isPending,by rw [rest]; rfl⟩
    · have record : s.records id = some (statusOf raised) := by simpa [Progress.closed] using kind
      refine .inr ⟨statusOf raised,?_,record,?_⟩
      · simp [rest,completions]
      · cases raised <;> simp [rest,statusOf]
  · intro before id after split event member
    cases blocked : s.budget.blocked with
    | false => exact absurd (by simp [split]) (inv.quiet blocked id)
    | true =>
      obtain ⟨-,early,last,same,quiet⟩ := inv.blocked blocked
      rw [same] at split
      have empty : after = [] := by
        rcases eq_nil_or_concat' after with empty | ⟨rest,final,isConcat⟩
        · exact empty
        · rw [isConcat,← cons_append,← append_assoc] at split
          have inside := append_inj_left' split rfl
          exact absurd (by simp [inside]) (quiet id)
      rw [empty] at member
      cases member

/-- The second state has more events, about one call, and its records differ in that call alone. -/
structure Writes (s t : State) (id : Nat) (events : List Event) : Prop where
  log : t.log = s.log ++ events
  about : ∀ event ∈ events, ∀ other, other ≠ id → event.about other = false
  records : ∀ other, other ≠ id → t.records other = s.records other

variable {other : Nat} {t : State}
theorem Writes.trace_other {s : State} (writes : Writes s t id events)
    (differs : other ≠ id) : trace other t.log = trace other s.log := by
  rw [writes.log,trace_append,trace_eq_nil fun event member => writes.about event member other differs,append_nil]
theorem Writes.at_other {s : State} {progress : Progress}
    (writes : Writes s t id events) (differs : other ≠ id) (here : At s other progress) : At t other progress :=
  (writes.trace_other differs).trans here
theorem Writes.closed_other {s : State} (writes : Writes s t id events)
    (differs : other ≠ id) (closed : Closed s other) : Closed t other := by
  obtain ⟨progress,isClosed,here,record⟩ := closed
  refine ⟨progress,isClosed,writes.at_other differs here,?_⟩
  intro raised finished
  rw [writes.records other differs]
  exact record raised finished

variable {first second : Progress}
theorem word_injective (same : first.word id = second.word id) : first = second := by
  cases first <;> cases second <;> simp_all [Progress.word]
theorem At.unique {s : State} (one : At s id first) (two : At s id second) :
    first = second := word_injective (one.symm.trans two)
theorem At.ne {s : State} (one : At s id first) (two : At s other second) (differs : first ≠ second) : id ≠ other := by
  rintro rfl
  exact differs (one.unique two)

variable {task : Task}
theorem Outside.writes {s : State} {progress : Progress}
    (outside : Outside s task) (writes : Writes s t id events) (here : At s id progress)
    (unfinished : progress ≠ .finished false) : Outside t task := by
  intro call among
  have finished := outside call among
  exact writes.at_other (finished.ne here (Ne.symm unfinished)) finished

theorem fresh_writes {s : State} {progress : Progress}
    (fresh : ∀ id, s.proposals ≤ id → trace id s.log = []) (writes : Writes s t id events) (here : At s id progress)
    (present : progress ≠ .absent) (same : t.proposals = s.proposals) :
    ∀ other, t.proposals ≤ other → trace other t.log = [] := by
  intro other later
  rw [same] at later
  have absent : At s other .absent := fresh other later
  rw [writes.trace_other (absent.ne here (Ne.symm present))]
  exact absent

theorem closed_writes {s : State} (inv : Inv s) (writes : Writes s t id events)
    (only : s.phase.current = none ∨ s.phase.current = some id) (own : t.phase.current ≠ some id → Closed t id) :
    ∀ other, t.phase.current ≠ some other → Closed t other := by
  intro other away
  by_cases same : other = id
  · subst same
    exact own away
  · refine writes.closed_other same (inv.closed other ?_)
    rcases only with none | here
    · simp [none]
    · simpa [here] using Ne.symm same

@[simp] theorem executions_append (first second : List Event) :
    executions (first ++ second) = executions first + executions second :=
  countP_append
@[simp] theorem raises_append (first second : List Event) : raises (first ++ second) = raises first + raises second :=
  countP_append

theorem reported_append (reported : ∀ id, .stepCompleted id ∈ log → ∃ raised, .executed id raised ∈ log)
    (new : ∀ id, .stepCompleted id ∈ events → ∃ raised, .executed id raised ∈ log) :
    ∀ id, .stepCompleted id ∈ log ++ events → ∃ raised, .executed id raised ∈ log ++ events := by
  intro id member
  have known : ∃ raised, .executed id raised ∈ log := (mem_append.mp member).elim (reported id) (new id)
  obtain ⟨raised,among⟩ := known
  exact ⟨raised,mem_append_left _ among⟩

theorem Inv.unblocked {s : State} (inv : Inv s) (going : s.phase ≠ .ended)
    (working : ∀ call step raised, s.phase ≠ .report call step raised) : s.budget.blocked = false := by
  cases blocked : s.budget.blocked with
  | false => rfl
  | true =>
    obtain ⟨isEnd | ⟨call,step,raised,isReport⟩,-⟩ := inv.blocked blocked
    · exact absurd isEnd going
    · exact absurd isReport (working call step raised)

/-- The second state has more events, none of them of a call, and nothing but the counters of its budget, its
    records and its phase may differ. -/
structure Silent (s t : State) (events : List Event) : Prop where
  log : t.log = s.log ++ events
  mute : ∀ event ∈ events, ∀ id, event.about id = false
  proposals : t.proposals = s.proposals
  maxToolCalls : t.budget.maxToolCalls = s.budget.maxToolCalls
  blocked : t.budget.blocked = s.budget.blocked

theorem Silent.trace {s : State} (silent : Silent s t events) (id : Nat) : trace id t.log = trace id s.log := by
  rw [silent.log,trace_append,trace_eq_nil fun event member => silent.mute event member id,append_nil]
theorem Silent.at {s : State} (silent : Silent s t events) {progress : Progress}
    (here : At s id progress) : At t id progress := (silent.trace id).trans here
theorem Silent.executions {s : State} (silent : Silent s t events) : executions events = 0 := by
  rw [ToolCalls.executions,countP_eq_zero]
  intro event member isExecuted
  cases event with
  | executed id raised => simpa [Event.about] using silent.mute _ member id
  | _ => cases isExecuted
theorem Silent.raises {s : State} (silent : Silent s t events) : raises events = 0 := by
  rw [ToolCalls.raises,countP_eq_zero]
  intro event member isRaised
  cases event with
  | executed id raised => simpa [Event.about] using silent.mute _ member id
  | _ => cases isRaised

section
variable {s : State} (inv : Inv s)
variable {events : List Event} {t : State}

include inv

theorem inv_writes {id : Nat} (writes : Writes s t id events)
    (unblocked : s.budget.blocked = false) (sameBlock : t.budget.blocked = s.budget.blocked)
    (sameLimit : t.budget.maxToolCalls = s.budget.maxToolCalls)
    (only : s.phase.current = none ∨ s.phase.current = some id)
    (fresh : ∀ other, t.proposals ≤ other → trace other t.log = []) (own : t.phase.current ≠ some id → Closed t id)
    (here : Here t t.phase) (counts : t.phase ≠ .ended → executions s.log + executions events =
      t.budget.executedToolCalls + (raises s.log + raises events) + t.phase.uncounted)
    (fits : executions s.log + executions events ≤ s.budget.maxToolCalls)
    (quiet : ∀ other, .rejected other ∉ events) (unreported : ∀ other, .stepCompleted other ∉ events) : Inv t := by
  constructor
  · exact fresh
  · exact closed_writes inv writes only own
  · exact here
  · intro going
    rw [writes.log,executions_append,raises_append]
    exact counts going
  · rw [writes.log,executions_append,sameLimit]
    exact fits
  · intro _ other member
    rw [writes.log] at member
    rcases mem_append.mp member with before | new
    · exact inv.quiet unblocked other before
    · exact quiet other new
  · intro blocked
    rw [sameBlock,unblocked] at blocked
    cases blocked
  · rw [writes.log]
    exact reported_append inv.reported fun other member => absurd member (unreported other)

theorem inv_propose (toolId : String) (arguments : Dict) (chain : Bool) (chainOf : Option Call)
    (free : s.phase.current = none) (going : s.phase ≠ .ended) (counts : s.phase.uncounted = 0)
    (unblocked : s.budget.blocked = false) (outside : ∀ call ∈ chainOf, At s call.id (.finished false)) :
    Inv (propose s toolId arguments chain chainOf) := by
  have absent : At s s.proposals .absent := inv.fresh s.proposals (Nat.le_refl _)
  have writes : Writes s (propose s toolId arguments chain chainOf) s.proposals [.proposed s.proposals] :=
    ⟨rfl,by simp [Event.about]; omega,fun _ _ => rfl⟩
  have counted := inv.counted going
  rw [counts] at counted
  refine inv_writes inv writes unblocked rfl rfl (.inl free) ?_ (fun away => absurd rfl away) ⟨?_,?_⟩ ?_ ?_ (by simp)
    (by simp)
  · intro other later
    have next : s.proposals + 1 ≤ other := later
    rw [writes.trace_other (by omega)]
    exact inv.fresh other (by omega)
  · show trace s.proposals (s.log ++ [Event.proposed s.proposals]) = _
    rw [trace_append,absent]
    simp [Progress.word,trace,Event.about]
  · intro call among
    exact writes.at_other ((outside call among).ne absent (by decide)) (outside call among)
  · intro _
    simpa [propose,executions,raises,isExecuted,isRaised,Phase.uncounted] using counted
  · simpa [executions,isExecuted] using inv.bounded

variable {task : Task}

theorem inv_reject (here : s.phase = .gate task) : Inv (reject s task) := by
  have unblocked := inv.unblocked (by simp [here]) (by simp [here])
  obtain ⟨proposed,outside⟩ : At s task.call.id .proposed ∧ Outside s task := by simpa [Here,here] using inv.here
  have writes : Writes s (reject s task) task.call.id [.rejected task.call.id] :=
    ⟨rfl,by simp [Event.about]; omega,fun _ _ => rfl⟩
  have rejected : At (reject s task) task.call.id .rejected := by
    show trace task.call.id (s.log ++ [Event.rejected task.call.id]) = _
    rw [trace_append,proposed]
    simp [Progress.word,trace,Event.about]
  constructor
  · exact fresh_writes inv.fresh writes proposed (by decide) rfl
  · exact closed_writes inv writes (.inr (by simp [here,Phase.current])) fun _ =>
      ⟨.rejected,rfl,rejected,by simp⟩
  · cases isOutside : task.chainOf with
    | none => simp [reject,isOutside,Here]
    | some call =>
      have finished := outside.writes writes proposed (by decide) call isOutside
      simpa [reject,isOutside,Here] using ⟨finished,rejected⟩
  · intro going
    have counted := inv.counted (by simp [here])
    cases isOutside : task.chainOf with
    | none => simp [reject,isOutside] at going
    | some call => simpa [reject,isOutside,executions,raises,isExecuted,isRaised,Phase.uncounted,here] using counted
  · simpa [reject,executions,isExecuted] using inv.bounded
  · intro unblocked
    cases unblocked
  · intro _
    refine ⟨?_,s.log,task.call.id,rfl,inv.quiet unblocked⟩
    cases isOutside : task.chainOf with
    | none => simp [reject,isOutside]
    | some call => simp [reject,isOutside]
  · exact reported_append inv.reported (by simp)

theorem inv_start (here : s.phase = .gate task) (allows : s.budget.allowTool = true) : Inv (start s task) := by
  have unblocked := inv.unblocked (by simp [here]) (by simp [here])
  obtain ⟨proposed,outside⟩ : At s task.call.id .proposed ∧ Outside s task := by simpa [Here,here] using inv.here
  have writes : Writes s (start s task) task.call.id [.validated task.call.id,.started task.call.id] :=
    ⟨rfl,by simp [Event.about]; omega,fun other differs => by simp [start,differs]⟩
  have counted := inv.counted (by simp [here])
  refine inv_writes inv writes unblocked rfl rfl (.inr (by simp [here,Phase.current]))
    (fresh_writes inv.fresh writes proposed (by decide) rfl) (fun away => absurd rfl away) ?_ ?_ ?_ (by simp) (by simp)
  · refine ⟨?_,allows,outside.writes writes proposed (by decide)⟩
    show trace task.call.id (s.log ++ [Event.validated task.call.id,Event.started task.call.id]) = _
    rw [trace_append,proposed]
    simp [Progress.word,trace,Event.about]
  · intro _
    simpa [start,executions,raises,isExecuted,isRaised,Phase.uncounted,here] using counted
  · simpa [executions,isExecuted] using inv.bounded

theorem inv_raised (here : s.phase = .tool task) (fits : executions s.log < s.budget.maxToolCalls) :
    Inv (executeTool s task .raised) := by
  have unblocked := inv.unblocked (by simp [here]) (by simp [here])
  obtain ⟨started,-,outside⟩ : At s task.call.id .started ∧ s.budget.allowTool = true ∧ Outside s task := by
    simpa [Here,here] using inv.here
  have writes : Writes s (executeTool s task .raised) task.call.id
      [.executed task.call.id true,.completed task.call.id .failed] :=
    ⟨by simp [executeTool,fail],by simp [Event.about]; omega,fun other differs => by simp [executeTool,fail,differs]⟩
  have finished : At (executeTool s task .raised) task.call.id (.finished true) := by
    rw [At,writes.log,trace_append,started]
    simp [Progress.word,trace,Event.about,statusOf]
  have counted := inv.counted (by simp [here])
  refine inv_writes inv writes unblocked rfl rfl (.inr (by simp [here,Phase.current]))
    (fresh_writes inv.fresh writes started (by decide) rfl) (fun _ => ⟨.finished true,rfl,finished,?_⟩) ?_ ?_ fits
    (by simp) (by simp)
  · intro raised same
    cases same
    simp [executeTool,fail,statusOf]
  · cases isOutside : task.chainOf with
    | none => simp [executeTool,fail,isOutside,Here]
    | some call =>
      have outer := outside.writes writes started (by decide) call isOutside
      simpa [executeTool,fail,isOutside,Here,unblocked] using outer
  · intro going
    cases isOutside : task.chainOf with
    | none => simp [executeTool,fail,isOutside] at going
    | some call =>
      simp [executeTool,fail,isOutside,executions,raises,countP_cons,isExecuted,isRaised,Phase.uncounted,
        here] at counted ⊢
      omega

theorem inv_returned (here : s.phase = .tool task) (fits : executions s.log < s.budget.maxToolCalls)
    (output : Dict) : Inv (executeTool s task (.returned output)) := by
  have unblocked := inv.unblocked (by simp [here]) (by simp [here])
  obtain ⟨started,-,outside⟩ : At s task.call.id .started ∧ s.budget.allowTool = true ∧ Outside s task := by
    simpa [Here,here] using inv.here
  have writes : Writes s (executeTool s task (.returned output)) task.call.id [.executed task.call.id false] :=
    ⟨rfl,by simp [Event.about]; omega,fun _ _ => rfl⟩
  have counted := inv.counted (by simp [here])
  refine inv_writes inv writes unblocked rfl rfl (.inr (by simp [here,Phase.current]))
    (fresh_writes inv.fresh writes started (by decide) rfl) (fun away => absurd rfl away) ?_ ?_ fits (by simp) (by simp)
  · refine ⟨?_,.inl rfl,outside.writes writes started (by decide)⟩
    rw [At,writes.log,trace_append,started]
    simp [Progress.word,trace,Event.about,FollowUp.early]
  · intro _
    simp [executeTool,executions,raises,isExecuted,isRaised,Phase.uncounted,FollowUp.uncounted,here] at counted ⊢
    omega

theorem inv_silent (silent : Silent s t events) (unblocked : s.budget.blocked = false)
    (going : s.phase ≠ .ended) (current : t.phase.current = s.phase.current)
    (records : ∀ id, t.phase.current ≠ some id → t.records id = s.records id) (here : Here t t.phase)
    (counts : t.budget.executedToolCalls + t.phase.uncounted = s.budget.executedToolCalls + s.phase.uncounted)
    (reports : ∀ id, .stepCompleted id ∈ events → ∃ raised, .executed id raised ∈ s.log) : Inv t := by
  have counted := inv.counted going
  constructor
  · intro id later
    rw [silent.proposals] at later
    rw [silent.trace]
    exact inv.fresh id later
  · intro id away
    obtain ⟨progress,isClosed,isAt,record⟩ := inv.closed id (current ▸ away)
    refine ⟨progress,isClosed,silent.at isAt,?_⟩
    rw [records id away]
    exact record
  · exact here
  · intro _
    rw [silent.log,executions_append,raises_append,silent.executions,silent.raises]
    omega
  · rw [silent.log,executions_append,silent.executions,silent.maxToolCalls]
    exact inv.bounded
  · intro _ id member
    rw [silent.log] at member
    rcases mem_append.mp member with before | new
    · exact inv.quiet unblocked id before
    · have isAbout := silent.mute _ new id
      simp [Event.about] at isAbout
  · intro blocked
    rw [silent.blocked,unblocked] at blocked
    cases blocked
  · rw [silent.log]
    exact reported_append inv.reported reports

variable {output : Dict} {point : FollowUp}

omit inv in
theorem next_early {toolId : String} {next : FollowUp} (other : point ≠ .completedEvent)
    (following : point.next toolId output = some next) : next.early = point.early := by
  cases point with
  | completedEvent => exact absurd rfl other
  | approvalRequired =>
    cases following
    split <;> rfl
  | suggestions => cases following
  | _ =>
    cases following
    rfl

omit inv in
theorem uncounted_of_late (late : point.early = false) : point.uncounted = false := by
  cases point <;> first | rfl | cases late

omit inv in
theorem here_afterFollowUps (finished : At s task.call.id (.finished false)) (outside : Outside s task) :
    Here s (afterFollowUps task) := by
  rw [afterFollowUps]
  split
  · exact finished
  · exact ⟨finished,outside⟩

theorem inv_follow_silent (settings : Settings)
    (here : s.phase = .follow task output point) (other : point ≠ .completedEvent) :
    Inv (follow settings s task output point) := by
  obtain ⟨come,record,outside⟩ : At s task.call.id (if point.early then .executed else .finished false) ∧
      (point.uncounted = true ∨ s.records task.call.id = some .completed) ∧ Outside s task := by
    simpa [Here,here] using inv.here
  have silent : Silent s (follow settings s task output point)
      (if point = .approvalRequired then [.approvalRequired task.call.id] else []) := by
    constructor
    · cases point <;> simp_all [follow,perform]
    · split <;> simp [Event.about]
    all_goals cases point <;> rfl
  have kept : Outside (follow settings s task output point) task := fun call among => silent.at (outside call among)
  have records : ∀ id, id ≠ task.call.id → (follow settings s task output point).records id = s.records id := by
    intro id differs
    cases point <;> simp [follow,perform,differs]
  have completed : point ≠ .outputSummary →
      (follow settings s task output point).records task.call.id = some .completed := by
    intro beyond
    cases point <;> simp_all [follow,perform,FollowUp.uncounted]
  have phase : (follow settings s task output point).phase =
    (point.next task.call.toolId output).elim (afterFollowUps task) fun next => .follow task output next := rfl
  have unblocked := inv.unblocked (by simp [here]) (by simp [here])
  cases following : point.next task.call.toolId output with
  | none =>
    rw [following] at phase
    have last : point = .suggestions := by cases point <;> simp_all [FollowUp.next]
    subst last
    refine inv_silent inv silent unblocked (by simp [here]) ?_ (fun _ _ => rfl) ?_ ?_ ?_
    · rw [phase,here]
      simp [afterFollowUps]
      split <;> rfl
    · rw [phase]
      exact here_afterFollowUps (silent.at come) kept
    · rw [phase,here]
      simp [afterFollowUps,follow,perform]
      split <;> rfl
    · simp
  | some next =>
    rw [following] at phase
    have early := next_early other following
    refine inv_silent inv silent unblocked (by simp [here]) ?_ ?_ ?_ ?_ ?_
    · rw [phase,here]
      simp [Phase.current,early]
    · intro id away
      rw [phase] at away
      by_cases same : id = task.call.id
      · subst same
        cases point <;> simp_all [follow,perform,Phase.current,FollowUp.early]
      · exact records id same
    · rw [phase]
      refine ⟨by rw [early]; exact silent.at come,?_,kept⟩
      by_cases first : point = .outputSummary
      · subst first
        cases following
        exact .inl rfl
      · exact .inr (completed first)
    · rw [phase,here]
      cases point with
      | completedEvent => exact absurd rfl other
      | approvalRequired =>
        show s.budget.executedToolCalls + (if next.uncounted then 1 else 0) = s.budget.executedToolCalls
        simp [uncounted_of_late early]
      | suggestions => cases following
      | _ =>
        cases following
        rfl
    · split <;> simp

theorem inv_completedEvent (settings : Settings)
    (here : s.phase = .follow task output .completedEvent) : Inv (follow settings s task output .completedEvent) := by
  have unblocked := inv.unblocked (by simp [here]) (by simp [here])
  obtain ⟨executed,record,outside⟩ : At s task.call.id .executed ∧ s.records task.call.id = some .completed ∧
      Outside s task := by
    simpa [Here,here,FollowUp.early,FollowUp.uncounted] using inv.here
  have counted := inv.counted (by simp [here])
  have writes : Writes s (follow settings s task output .completedEvent) task.call.id [.completed task.call.id .completed] :=
    ⟨rfl,by simp [Event.about]; omega,fun _ _ => rfl⟩
  obtain ⟨next,isPhase,late⟩ : ∃ next,
      (follow settings s task output .completedEvent).phase = .follow task output next ∧ next.early = false := by
    refine ⟨_,rfl,?_⟩
    split
    · rfl
    · split <;> rfl
  have finished : At (follow settings s task output .completedEvent) task.call.id (.finished false) := by
    rw [At,writes.log,trace_append,executed]
    simp [Progress.word,trace,Event.about,statusOf]
  refine inv_writes inv writes unblocked rfl rfl (.inr (by simp [here,Phase.current,FollowUp.early]))
    (fresh_writes inv.fresh writes executed (by decide) rfl) (fun _ => ⟨.finished false,rfl,finished,?_⟩) ?_ ?_ ?_
    (by simp) (by simp)
  · intro raised same
    cases same
    exact record
  · rw [isPhase]
    refine ⟨?_,.inr record,outside.writes writes executed (by decide)⟩
    rw [late]
    exact finished
  · intro _
    have none : (Phase.follow task output next).uncounted = 0 := by simp [Phase.uncounted,uncounted_of_late late]
    rw [isPhase,none]
    simpa [here,Phase.uncounted,FollowUp.uncounted,executions,raises,isExecuted,isRaised,follow,perform] using counted
  · simpa [executions,isExecuted] using inv.bounded

variable {written : Bool}

omit inv in
theorem planStep_cases (settings : Settings) (call : Call) (announced : ¬ Unannounced settings s written) :
    planStep settings s call written = { s with phase := .close ⟨call,none⟩ } ∨
      ∃ toolId arguments, planStep settings s call written = propose s toolId arguments false (some call) ∨
        planStep settings s call written = propose (announceChain s) toolId arguments false (some call) := by
  rw [planStep]
  cases planned : plannedStep settings s.budget with
  | none => exact .inl rfl
  | some step =>
    by_cases begun : s.budget.autoChainStarted
    · exact .inr ⟨step.1,step.2,.inl (if_pos begun)⟩
    · have isWritten : written = true := by simpa [Unannounced,planned,begun] using announced
      exact .inr ⟨step.1,step.2,.inr ((if_neg begun).trans (if_pos isWritten))⟩

variable {call : Call}

theorem inv_plan (settings : Settings) (here : s.phase = .plan call)
    (announced : ¬ Unannounced settings s written) : Inv (planStep settings s call written) := by
  have unblocked := inv.unblocked (by simp [here]) (by simp [here])
  have finished : At s call.id (.finished false) := by simpa [Here,here] using inv.here
  rcases planStep_cases settings call announced with same | ⟨toolId,arguments,same | same⟩
  · rw [same]
    have silent : Silent s { s with phase := .close ⟨call,none⟩ } [] := ⟨by simp,by simp,rfl,rfl,rfl⟩
    exact inv_silent inv silent unblocked (by simp [here]) (by simp [here,Phase.current]) (fun _ _ => rfl)
      ⟨silent.at finished,by simp [Outside]⟩ (by simp [here,Phase.uncounted]) (by simp)
  · rw [same]
    exact inv_propose inv toolId arguments false (some call) (by simp [here,Phase.current]) (by simp [here])
      (by simp [here,Phase.uncounted]) unblocked (by simpa using finished)
  · rw [same]
    have silent : Silent s (announceChain s) [.chainStarted] := ⟨rfl,by simp [Event.about],rfl,rfl,rfl⟩
    have isPlan : (announceChain s).phase = .plan call := here
    have kept : Inv (announceChain s) := inv_silent inv silent unblocked (by simp [here]) rfl (fun _ _ => rfl)
      (by rw [isPlan]; exact silent.at finished) rfl (by simp)
    exact inv_propose kept toolId arguments false (some call) (by simp [isPlan,Phase.current]) (by simp [isPlan])
      (by simp [isPlan,Phase.uncounted]) unblocked (by simpa using silent.at finished)

theorem inv_report {step : Call} {raised : Bool} (here : s.phase = .report call step raised)
    (unblocked : s.budget.blocked = false) : Inv (reportStep s call step raised true) := by
  obtain ⟨finished,reported⟩ : At s call.id (.finished false) ∧ (raised = false → At s step.id (.finished false)) := by
    simpa [Here,here,unblocked] using inv.here
  cases raised with
  | true =>
    have silent : Silent s (reportStep s call step true true) [.chainFailed step.id] :=
      ⟨rfl,by simp [Event.about],rfl,rfl,rfl⟩
    exact inv_silent inv silent unblocked (by simp [here]) (by rw [here]; rfl) (fun _ _ => rfl)
      ⟨silent.at finished,by simp [Outside]⟩ (by rw [here]; rfl) (by simp)
  | false =>
    have executed : ∀ id, id = step.id → ∃ raised, .executed id raised ∈ s.log := by
      rintro _ rfl
      exact ⟨false,mem_of_mem_trace (by rw [reported rfl]; simp [Progress.word])⟩
    rw [reportStep]
    split
    · have silent : Silent s
          { countStep s with
            log := s.log ++ [.stepCompleted step.id,.waiting step.id]
            phase := .close ⟨call,none⟩ }
          [.stepCompleted step.id,.waiting step.id] := ⟨rfl,by simp [Event.about],rfl,rfl,rfl⟩
      exact inv_silent inv silent unblocked (by simp [here]) (by rw [here]; rfl) (fun _ _ => rfl)
        ⟨silent.at finished,by simp [Outside]⟩ (by rw [here]; rfl) (by simpa using executed)
    · have silent : Silent s { countStep s with log := s.log ++ [.stepCompleted step.id], phase := .plan call }
          [.stepCompleted step.id] := ⟨rfl,by simp [Event.about],rfl,rfl,rfl⟩
      exact inv_silent inv silent unblocked (by simp [here]) (by rw [here]; rfl) (fun _ _ => rfl)
        (silent.at finished) (by rw [here]; rfl) (by simpa using executed)

theorem inv_close (here : s.phase = .close task) : Inv (closeCall s task) := by
  have unblocked := inv.unblocked (by simp [here]) (by simp [here])
  obtain ⟨finished,outside⟩ : At s task.call.id (.finished false) ∧ Outside s task := by simpa [Here,here] using inv.here
  have silent : Silent s (closeCall s task) [] := ⟨by simp [closeCall],by simp,rfl,rfl,rfl⟩
  cases isOutside : task.chainOf with
  | none =>
    have phase : (closeCall s task).phase = .idle := by simp [closeCall,isOutside,unblocked]
    exact inv_silent inv silent unblocked (by simp [here]) (by simp [here,phase,Phase.current]) (fun _ _ => rfl)
      (by rw [phase]; trivial) (by rw [phase,here]; rfl) (by simp)
  | some call =>
    have phase : (closeCall s task).phase = .report call task.call false := by simp [closeCall,isOutside]
    refine inv_silent inv silent unblocked (by simp [here]) (by simp [here,phase,Phase.current]) (fun _ _ => rfl)
      ?_ (by rw [phase,here]; rfl) (by simp)
    rw [phase]
    refine ⟨silent.at (outside call isOutside),?_⟩
    rw [if_neg (by simp [closeCall,unblocked])]
    exact fun _ => silent.at finished

theorem inv_stop (here : s.phase = .idle) : Inv { s with phase := .ended } := by
  have unblocked := inv.unblocked (by simp [here]) (by simp [here])
  exact ⟨inv.fresh,fun id _ => inv.closed id (by simp [here,Phase.current]),trivial,fun going => absurd rfl going,
    inv.bounded,inv.quiet,fun blocked => absurd (unblocked.symm.trans blocked) (by decide),inv.reported⟩

end

theorem gateTool_none {budget : RunBudget} {before after : Option Code}
    (allows : (gateTool budget before after).isSome = false) : budget.allowTool = true := by
  cases allowed : budget.allowTool with
  | true => rfl
  | false => cases before <;> simp [gateTool,allowed] at allows

theorem fits_of_counted {s : State} (inv : Inv s) (here : s.phase = .tool task) (counts : ¬ Uncounted s) :
    executions s.log < s.budget.maxToolCalls := by
  have counted := inv.counted (by simp [here])
  obtain ⟨-,allows,-⟩ : At s task.call.id .started ∧ s.budget.allowTool = true ∧ Outside s task := by
    simpa [Here,here] using inv.here
  have allowed : s.budget.executedToolCalls < s.budget.maxToolCalls := by simpa [RunBudget.allowTool] using allows
  have none : s.phase.uncounted = 0 := by rw [here]; rfl
  simp only [Uncounted,not_and_or] at counts
  omega

variable {label : Label} {settings : Settings}

theorem inv_step {s : State} (inv : Inv s) (sound : Sound settings s label)
    (stepped : step settings s label = some t) : Inv t := by
  cases isPhase : s.phase with
  | idle =>
    cases label <;> simp only [step,isPhase,reduceCtorEq,Option.some.injEq] at stepped
    · subst stepped
      exact inv_propose inv _ _ _ none (by rw [isPhase]; rfl) (by simp [isPhase]) (by rw [isPhase]; rfl)
        (inv.unblocked (by simp [isPhase]) (by simp [isPhase])) (by simp)
    · subst stepped
      exact inv_stop inv isPhase
  | gate task =>
    cases label <;> simp only [step,isPhase,reduceCtorEq,Option.some.injEq] at stepped
    rename_i before after
    cases verdict : (gateTool s.budget before after).isSome with
    | true =>
      rw [if_pos verdict] at stepped
      subst stepped
      exact inv_reject inv isPhase
    | false =>
      rw [if_neg (by simp [verdict])] at stepped
      subst stepped
      exact inv_start inv isPhase (gateTool_none verdict)
  | tool task =>
    cases label <;> simp only [step,isPhase,reduceCtorEq,Option.some.injEq] at stepped
    rename_i outcome
    subst stepped
    cases outcome with
    | unread => simp [Sound,isPhase] at sound
    | raised =>
      have counts : ¬ Uncounted s := by simpa [Sound,isPhase] using sound
      exact inv_raised inv isPhase (fits_of_counted inv isPhase counts)
    | returned output =>
      have counts : ¬ Uncounted s := by simpa [Sound,isPhase] using sound
      exact inv_returned inv isPhase (fits_of_counted inv isPhase counts) output
  | follow task output point =>
    cases label <;> simp only [step,isPhase,reduceCtorEq,Option.some.injEq] at stepped
    rename_i works
    have isWorks : works = true := by simpa [Sound,isPhase] using sound
    rw [if_pos isWorks] at stepped
    subst stepped
    by_cases last : point = .completedEvent
    · subst last
      exact inv_completedEvent inv settings isPhase
    · exact inv_follow_silent inv settings isPhase last
  | plan call =>
    cases label <;> simp only [step,isPhase,reduceCtorEq,Option.some.injEq] at stepped
    rename_i written
    subst stepped
    exact inv_plan inv settings isPhase (by simpa [Sound,isPhase] using sound)
  | report call step raised =>
    cases label <;> simp only [ToolCalls.step,isPhase,reduceCtorEq,Option.some.injEq] at stepped
    rename_i written
    obtain ⟨rfl,unblocked⟩ : written = true ∧ s.budget.blocked = false := by simpa [Sound,isPhase] using sound
    subst stepped
    exact inv_report inv isPhase unblocked
  | close task =>
    cases label <;> simp only [step,isPhase,reduceCtorEq,Option.some.injEq] at stepped
    rename_i works
    have isWorks : works = true := by simpa [Sound,isPhase] using sound
    rw [if_pos isWorks] at stepped
    subst stepped
    exact inv_close inv isPhase
  | ended => cases label <;> simp [step,isPhase] at stepped

theorem inv_initial (maxToolCalls : Nat) (autoChainAllowed : Bool) : Inv (initial maxToolCalls autoChainAllowed) :=
  ⟨fun _ _ => rfl,fun _ _ => ⟨.absent,rfl,rfl,by simp⟩,trivial,fun _ => rfl,Nat.zero_le _,by simp [initial],
    by simp [initial],by simp [initial]⟩

theorem fail_breaks {s : State} {progress : Progress} (here : At s task.call.id progress)
    (begun : progress = .started ∨ progress = .executed ∨ progress = .finished false) : ¬ Truthful (fail s task) := by
  intro truthful
  have isStarted : .started task.call.id ∈ s.log :=
    mem_of_mem_trace (by rw [here]; rcases begun with rfl | rfl | rfl <;> simp [Progress.word])
  obtain ⟨before,after,split⟩ := append_of_mem isStarted
  have word := here.split split (by simp [Event.about])
  have failed : (fail s task).log = before ++ Event.started task.call.id :: (after ++ [Event.completed task.call.id .failed]) := by
    simp [fail,split]
  have done : (fail s task).phase.pending = none := by
    cases isOutside : task.chainOf <;> simp [fail,isOutside,Phase.pending]
  obtain ⟨status,one,-,isRaised⟩ : ∃ status,
      completions task.call.id (after ++ [Event.completed task.call.id .failed]) = [status] ∧
      (fail s task).records task.call.id = some status ∧
        (status = .failed ↔ Event.executed task.call.id true ∈ after ++ [Event.completed task.call.id .failed]) := by
    simpa [done] using truthful.paired before task.call.id _ failed
  rw [completions_append,← completions_trace] at one
  have raised : Event.executed task.call.id true ∈ after ++ [Event.completed task.call.id .failed] →
      .executed task.call.id true ∈ trace task.call.id after := by
    intro member
    exact mem_trace (by simpa using member) (by simp [Event.about])
  rcases word_started word with ⟨rfl,rest⟩ | ⟨rfl,rest⟩ | ⟨flag,rfl,rest⟩
  · rw [rest] at one raised
    have same : status = .failed := by simpa [completions,eq_comm] using one
    simpa using raised (isRaised.mp same)
  · rw [rest] at one raised
    have same : status = .failed := by simpa [completions,eq_comm] using one
    simpa using raised (isRaised.mp same)
  · rw [rest] at one
    simp [completions] at one

theorem uncounted_breaks {s : State} (inv : Inv s) (here : s.phase = .tool task) {outcome : Outcome}
    (uncounted : ¬ ¬ Uncounted s) (isExecuted : executions (executeTool s task outcome).log = executions s.log + 1) :
    ¬ Truthful (executeTool s task outcome) := by
  intro truthful
  have counted := inv.counted (by simp [here])
  have none : s.phase.uncounted = 0 := by rw [here]; rfl
  have bounded := truthful.bounded
  have same : (executeTool s task outcome).budget.maxToolCalls = s.budget.maxToolCalls := by cases outcome <;> rfl
  obtain ⟨-,full⟩ := Classical.not_not.mp uncounted
  omega

theorem report_breaks {s : State} (inv : Inv s) {call step : Call} {written : Bool}
    (here : s.phase = .report call step raised) (unsound : ¬ (written = true ∧ s.budget.blocked = false)) :
    ¬ Truthful (reportStep s call step raised written) := by
  obtain ⟨finished,reported⟩ : At s call.id (.finished false) ∧
      if s.budget.blocked then raised = false ∧ At s step.id .rejected
      else raised = false → At s step.id (.finished false) := by
    simpa [Here,here] using inv.here
  cases written with
  | false =>
    cases raised with
    | true => exact fail_breaks finished (.inr (.inr rfl))
    | false => exact fail_breaks (show At (countStep s) call.id (.finished false) from finished) (.inr (.inr rfl))
  | true =>
    have blocked : s.budget.blocked = true := by simpa using unsound
    rw [if_pos blocked] at reported
    obtain ⟨rfl,rejected⟩ := reported
    intro truthful
    have member : .stepCompleted step.id ∈ (reportStep s call step false true).log := by
      simp only [reportStep]
      split <;> simp
    obtain ⟨raised,executed⟩ := truthful.reported step.id member
    have before : .executed step.id raised ∈ s.log := by
      simp only [reportStep] at executed
      split at executed <;> simpa [countStep] using executed
    have among := mem_trace before (show (Event.executed step.id raised).about step.id = true by simp [Event.about])
    rw [rejected] at among
    simp [Progress.word] at among

theorem unsound_breaks {s : State} (inv : Inv s) (unsound : ¬ Sound settings s label) :
    ∃ t, step settings s label = some t ∧ ¬ Truthful t := by
  cases isPhase : s.phase with
  | idle => cases label <;> simp [Sound,isPhase] at unsound
  | gate task => cases label <;> simp [Sound,isPhase] at unsound
  | ended => cases label <;> simp [Sound,isPhase] at unsound
  | tool task =>
    obtain ⟨started,-,-⟩ : At s task.call.id .started ∧ s.budget.allowTool = true ∧ Outside s task := by
      simpa [Here,isPhase] using inv.here
    cases label <;> simp only [Sound,isPhase,not_true_eq_false] at unsound
    rename_i outcome
    cases outcome with
    | unread => exact ⟨fail s task,by simp [step,isPhase,executeTool],fail_breaks started (.inl rfl)⟩
    | raised => 
      refine ⟨executeTool s task .raised,by simp [step,isPhase],uncounted_breaks inv isPhase unsound ?_⟩
      simp [executeTool,fail,executions,countP_cons,isExecuted]
    | returned output =>
      refine ⟨executeTool s task (.returned output),by simp [step,isPhase],uncounted_breaks inv isPhase unsound ?_⟩
      simp [executeTool,executions,isExecuted]
  | follow task output point =>
    obtain ⟨come,-,-⟩ : At s task.call.id (if point.early then .executed else .finished false) ∧
        (point.uncounted = true ∨ s.records task.call.id = some .completed) ∧ Outside s task := by
      simpa [Here,isPhase] using inv.here
    cases label <;> simp [Sound,isPhase] at unsound
    subst unsound
    refine ⟨fail s task,by simp [step,isPhase],fail_breaks come ?_⟩
    split
    · exact .inr (.inl rfl)
    · exact .inr (.inr rfl)
  | plan call =>
    have finished : At s call.id (.finished false) := by simpa [Here,isPhase] using inv.here
    cases label <;> simp only [Sound,isPhase,not_true_eq_false] at unsound
    rename_i written
    obtain ⟨planned,begun,rfl⟩ := Classical.not_not.mp unsound
    have same : At (beginChain s) call.id (.finished false) := finished
    refine ⟨fail (beginChain s) ⟨call,none⟩,?_,fail_breaks same (.inr (.inr rfl))⟩
    obtain ⟨next,isNext⟩ := Option.isSome_iff_exists.mp planned
    simp [ToolCalls.step,isPhase,planStep,isNext,begun]
  | report call step raised =>
    cases label <;> simp only [Sound,isPhase,not_true_eq_false] at unsound
    rename_i written
    exact ⟨reportStep s call step raised written,by simp [ToolCalls.step,isPhase],report_breaks inv isPhase unsound⟩
  | close task =>
    obtain ⟨finished,-⟩ : At s task.call.id (.finished false) ∧ Outside s task := by simpa [Here,isPhase] using inv.here
    cases label <;> simp [Sound,isPhase] at unsound
    subst unsound
    exact ⟨fail s task,by simp [step,isPhase],fail_breaks finished (.inr (.inr rfl))⟩

/-- Every state of a run is truthful exactly if no follow-up fails, the auto chain does not go on from a rejected step,
    and no tool is executed when those that raised fill what the budget leaves. -/
theorem truthful_iff (settings : Settings) (maxToolCalls : Nat) (autoChainAllowed : Bool) (labels : List Label) :
    (∀ before after s, labels = before ++ after →
        run (step settings) (initial maxToolCalls autoChainAllowed) before = some s → Truthful s) ↔
      Meets (step settings) (Sound settings) (initial maxToolCalls autoChainAllowed) labels := by
  refine secures_iff (fun _ inv => inv.truthful) (fun _ _ _ inv sound stepped => inv_step inv sound stepped) ?_
    (inv_initial maxToolCalls autoChainAllowed)
  intro s label inv secures
  by_contra unsound
  obtain ⟨t,stepped,broken⟩ := unsound_breaks inv unsound
  exact broken (secures t stepped)

/-- The suggestions fail after the completion of a tool. -/
theorem completed_twice : ¬ ∀ (settings : Settings) (maxToolCalls : Nat) (autoChainAllowed : Bool) (labels : List Label)
    (s : State), run (step settings) (initial maxToolCalls autoChainAllowed) labels = some s → Truthful s := by
  intro all
  let settings : Settings := ⟨ascii,[],true,4⟩
  let labels : List Label := [Label.call "generate_pine" [] false,.gate none none,.tool (.returned []),.follow true,
    .follow true,.follow true,.follow true,.follow true,.follow true,.follow true,.follow true,.follow false]
  let last := (run (step settings) (initial 12 false) labels).get (by decide)
  have one : Truthful last := all settings 12 false labels last (by rw [Option.some_get])
  have split : last.log = [Event.proposed 0,Event.validated 0] ++
      Event.started 0 :: [Event.executed 0 false,Event.completed 0 .completed,Event.completed 0 .failed] := by decide
  rcases one.paired _ _ _ split with ⟨pending,-⟩ | ⟨status,same,-⟩
  · exact absurd pending (by decide)
  · simp [completions] at same

end Codebot.TruthfulCalls
