import Codebot.JobTable
import Codebot.Runs

/-!
The end of a chat run: `stream_chat` from the creation of its run to where it stops, beside requests that cancel the
run. A call may raise, and at a frame the client may close the generator; calls and frames in a row that write nothing
of the end are one label (`ends_once`).
-/
namespace Codebot.ChatRuns
open JobTable
open Runs (run Meets)

/-- The ways out of `stream_chat` that write a status, in the order of the source. -/
inductive Exit
  | safety | domain | prompt | guardMessage | evidence | scout | tool | model
deriving DecidableEq
def Exit.withinTry : Exit → Bool
  | .safety => false
  | .domain => false
  | _ => true
def Exit.compacts : Exit → Bool
  | .evidence => true
  | .scout => true
  | .tool => true
  | .model => true
  | _ => false
def Exit.continues : Exit → Bool
  | .tool => true
  | .model => true
  | _ => false

/-- What comes next on a way out. -/
inductive Part
  | frames
  | message
  | wording
  | status (blocked : Bool)
  | closing (blocked : Bool)
  | event (blocked : Bool)
  | last (blocked : Bool)
  | compaction
deriving DecidableEq

/-- Where the generator is: before the `try`, in it, on a way out, in the handler of an exception
    or of `GeneratorExit`. -/
inductive Phase
  | prelude
  | opening
  | leaving (exit : Exit) (part : Part)
  | failStatus
  | failMessage
  | failFrames
  | failEvent
  | failLast
  | cancelStatus
  | cancelEvent
  | stopped
deriving DecidableEq

inductive Label
  /-- The calls return and the frames are taken. -/
  | proceeds
  | takes (exit : Exit)
  /-- The budget or the scout is blocked. -/
  | blocks
  /-- The model has neither said anything nor called a tool. -/
  | skips
  | raises
  /-- The client disconnects at a frame. -/
  | closes
  /-- A request to `cancel_run` reads the run, writes its status, appends its event. -/
  | cancelRead
  | cancelWrite
  | cancelAppend
deriving DecidableEq

/-- The columns of the run and its terminal events. `terminalStatus` is the variable of `stream_chat`; `checked`
    requests have read a run that had not ended, `written` ones are to append their event. -/
structure State where
  phase : Phase
  status : Status
  changed : Bool
  events : List Status
  messages : Nat
  terminalStatus : Option Status
  resumed : Bool
  checked : Nat
  written : Nat
deriving DecidableEq

/-- The run has just been created; `resumed` where a workflow task is resumed. -/
def initial (resumed : Bool) : State where
  phase := .prelude
  status := .running
  changed := false
  events := []
  messages := 0
  terminalStatus := none
  resumed
  checked := 0
  written := 0

/-- `set_run_status`. -/
def State.write (s : State) (status : Status) : State :=
  { s with status, changed := s.changed || (isTerminalRunStatus s.status && s.status != status) }
def ending (blocked : Bool) : Status := if blocked then .blocked else .completed
def failing (s : State) (exit : Exit) : State :=
  { s with phase := if exit.withinTry then .failStatus else .stopped }
/-- Where `GeneratorExit` leads. -/
def interrupted (s : State) (exit : Exit) : State :=
  { s with phase := if exit.withinTry && s.terminalStatus.isNone then .cancelStatus else .stopped }

/-- The steps of a way out. -/
def leave (s : State) (exit : Exit) : Part → Label → Option State
  | .frames, .proceeds => some { s with phase := .leaving exit (if exit = .prompt then .status false else .message) }
  | .frames, .blocks => if exit.continues then some { s with phase := .leaving exit (.status true) } else none
  | .frames, .skips => if exit = .model then some { s with phase := .leaving exit (.status false) } else none
  | .frames, .raises => if exit.withinTry then some (failing s exit) else none
  | .frames, .closes => some (interrupted s exit)
  | .message, .proceeds => some { s with phase := .leaving exit .wording, messages := s.messages + 1 }
  | .wording, .proceeds => some { s with phase := .leaving exit (.status (exit = .safety)) }
  | .wording, .blocks => if exit = .scout then some { s with phase := .leaving exit (.status true) } else none
  | .wording, .raises => if exit = .model then some (failing s exit) else none
  | .wording, .closes => some (interrupted s exit)
  | .status blocked, .proceeds =>
    some { s.write (ending blocked) with
      phase := .leaving exit (.closing blocked)
      terminalStatus := if exit.withinTry && exit != .scout then some (ending blocked) else s.terminalStatus }
  | .closing blocked, .proceeds => some { s with phase := .leaving exit (.event blocked) }
  | .closing _, .closes => if exit.continues && s.resumed then some (interrupted s exit) else none
  | .event blocked, .proceeds =>
    some { s with phase := .leaving exit (.last blocked), events := s.events ++ [ending blocked] }
  | .last blocked, .proceeds =>
    some { s with phase := if exit.compacts && !blocked then .leaving exit .compaction else .stopped }
  | .last _, .closes => some (interrupted s exit)
  | .compaction, .proceeds => some { s with phase := .stopped }
  | .compaction, .raises => some (failing s exit)
  | _, _ => none

/-- A step of `cancel_run`. -/
def cancelRun (s : State) : Label → Option State
  | .cancelRead => some (if isTerminalRunStatus s.status then s else { s with checked := s.checked + 1 })
  | .cancelWrite =>
    if 0 < s.checked then some { s.write .cancelled with checked := s.checked - 1, written := s.written + 1 } else none
  | .cancelAppend =>
    if 0 < s.written then some { s with events := s.events ++ [.cancelled], written := s.written - 1 } else none
  | _ => none

/-- A step of `stream_chat`. -/
def stream (s : State) (label : Label) : Option State :=
  match s.phase, label with
  | .prelude, .proceeds => some { s with phase := .opening }
  | .prelude, .takes .safety => if s.resumed then none else some { s with phase := .leaving .safety .frames }
  | .prelude, .takes .domain => some { s with phase := .leaving .domain .frames }
  | .prelude, .raises => some { s with phase := .stopped }
  | .prelude, .closes => some { s with phase := .stopped }
  | .opening, .takes exit => if exit.withinTry then some { s with phase := .leaving exit .frames } else none
  | .opening, .raises => some { s with phase := .failStatus }
  | .opening, .closes => some { s with phase := .cancelStatus }
  | .leaving exit part, label => leave s exit part label
  | .failStatus, .proceeds => some { s.write .failed with phase := .failMessage, terminalStatus := some .failed }
  | .failMessage, .proceeds => some { s with phase := .failFrames, messages := s.messages + 1 }
  | .failFrames, .proceeds => some { s with phase := .failEvent }
  | .failFrames, .closes => some { s with phase := .stopped }
  | .failEvent, .proceeds => some { s with phase := .failLast, events := s.events ++ [.failed] }
  | .failLast, .proceeds => some { s with phase := .stopped }
  | .failLast, .closes => some { s with phase := .stopped }
  | .cancelStatus, .proceeds => some { s.write .cancelled with phase := .cancelEvent }
  | .cancelEvent, .proceeds => some { s with phase := .stopped, events := s.events ++ [.cancelled] }
  | _, _ => none

def step (s : State) (label : Label) : Option State := (cancelRun s label).or (stream s label)
def State.due (s : State) : List Status := s.events ++ List.replicate s.written .cancelled
/-- A terminal status that was not overwritten, one terminal event, which has it, and one message at most. -/
structure EndedOnce (s : State) : Prop where
  terminal : isTerminalRunStatus s.status = true
  unchanged : s.changed = false
  event : s.due = [s.status]
  messages : s.messages ≤ 1

/-- The run can still end once: a status is written to a run that has not ended, nothing raises after the message, and
    nobody disconnects where no status is written any more. -/
def Harmless (s : State) (label : Label) : Prop :=
  match s.phase, label with
  | _, .cancelWrite => isTerminalRunStatus s.status = false
  | .prelude, .raises => isTerminalRunStatus s.status = true
  | .prelude, .closes => isTerminalRunStatus s.status = true
  | .leaving _ .wording, .raises => False
  | .leaving _ .compaction, .raises => False
  | .leaving exit .frames, .closes => exit.withinTry = true ∨ isTerminalRunStatus s.status = true
  | .leaving exit .wording, .closes => exit.withinTry = true ∨ isTerminalRunStatus s.status = true
  | .leaving _ (.closing _), .closes => False
  | .leaving exit (.last _), .closes => exit ≠ .scout
  | .leaving _ (.status _), .proceeds => isTerminalRunStatus s.status = false
  | .failStatus, .proceeds => isTerminalRunStatus s.status = false
  | .failFrames, .closes => False
  | .cancelStatus, .proceeds => isTerminalRunStatus s.status = false
  | _, _ => True

instance (s : State) (label : Label) : Decidable (Harmless s label) := by
  unfold Harmless
  split <;> infer_instance
/-- The generator has written no status: the run has not ended, or it was cancelled. -/
structure State.Open (s : State) : Prop where
  unset : s.terminalStatus = none
  unchanged : s.changed = false
  due : (isTerminalRunStatus s.status = false ∧ s.due = []) ∨ (s.status = .cancelled ∧ s.due = [.cancelled])
/-- The generator has written a status, and no terminal event. -/
structure State.Written (s : State) (status : Status) : Prop where
  status : s.status = status
  terminal : isTerminalRunStatus s.status = true
  unchanged : s.changed = false
  due : s.due = []

/-- What is known on a way out. -/
def Leaves (s : State) (exit : Exit) : Part → Prop
  | .frames => s.Open ∧ s.messages = 0
  | .message => s.Open ∧ s.messages = 0
  | .wording => s.Open ∧ s.messages ≤ 1
  | .status _ => s.Open ∧ s.messages ≤ 1
  | .closing blocked => s.Written (ending blocked) ∧ s.messages ≤ 1 ∧ (exit.withinTry = true → exit ≠ .scout → s.terminalStatus ≠ none)
  | .event blocked => s.Written (ending blocked) ∧ s.messages ≤ 1 ∧ (exit.withinTry = true → exit ≠ .scout → s.terminalStatus ≠ none)
  | .last _ => EndedOnce s ∧ (exit.withinTry = true → exit ≠ .scout → s.terminalStatus ≠ none)
  | .compaction => EndedOnce s

/-- What is known where the generator is. -/
def Known (s : State) : Phase → Prop
  | .prelude => s.Open ∧ s.messages = 0
  | .opening => s.Open ∧ s.messages = 0
  | .leaving exit part => Leaves s exit part
  | .failStatus => s.Open ∧ s.messages = 0
  | .failMessage => s.Written .failed ∧ s.messages = 0
  | .failFrames => s.Written .failed ∧ s.messages ≤ 1
  | .failEvent => s.Written .failed ∧ s.messages ≤ 1
  | .failLast => EndedOnce s
  | .cancelStatus => s.Open ∧ s.messages ≤ 1
  | .cancelEvent => s.Written .cancelled ∧ s.messages ≤ 1
  | .stopped => EndedOnce s

def Sound (s : State) : Prop := Known s s.phase

variable {s t : State} {label : Label} {exit : Exit} {part : Part}
theorem written_of_open (opened : s.Open) (unfinished : isTerminalRunStatus s.status = false) {status : Status}
    (terminal : isTerminalRunStatus status = true) : (s.write status).Written status := by
  obtain ⟨-,unchanged,⟨-,due⟩ | ⟨cancelled,-⟩⟩ := opened
  · exact ⟨rfl,terminal,by simp [State.write,unchanged,unfinished],due⟩
  · rw [cancelled] at unfinished
    cases unfinished
theorem ended_of_written {status : Status} (written : s.Written status) (messages : s.messages ≤ 1) (phase : Phase) :
    EndedOnce { s with phase, events := s.events ++ [status] } := by
  obtain ⟨same,terminal,unchanged,due⟩ := written
  obtain ⟨events,pending⟩ := List.append_eq_nil_iff.mp due
  refine ⟨terminal,unchanged,?_,messages⟩
  simp only [State.due,events,pending,List.nil_append,List.append_nil,same]
theorem ended_of_open (opened : s.Open) (terminal : isTerminalRunStatus s.status = true) (messages : s.messages ≤ 1) :
    EndedOnce s := by
  obtain ⟨-,unchanged,⟨unfinished,-⟩ | ⟨cancelled,due⟩⟩ := opened
  · rw [terminal] at unfinished
    cases unfinished
  · exact ⟨terminal,unchanged,cancelled ▸ due,messages⟩
theorem ending_terminal (blocked : Bool) : isTerminalRunStatus (ending blocked) = true := by
  cases blocked <;> rfl

theorem known_congr (status : t.status = s.status) (changed : t.changed = s.changed) (due : t.due = s.due)
    (messages : t.messages = s.messages) (variable_ : t.terminalStatus = s.terminalStatus) {phase : Phase}
    (known : Known s phase) : Known t phase := by
  have opened : s.Open → t.Open := by
    rintro ⟨unset,unchanged,either⟩
    exact ⟨variable_ ▸ unset,changed ▸ unchanged,by rw [status,due]; exact either⟩
  have written : ∀ {st}, s.Written st → t.Written st := by
    rintro st ⟨same,terminal,unchanged,nothing⟩
    exact ⟨status ▸ same,status ▸ terminal,changed ▸ unchanged,due ▸ nothing⟩
  have ended : EndedOnce s → EndedOnce t := by
    rintro ⟨terminal,unchanged,event,few⟩
    exact ⟨status ▸ terminal,changed ▸ unchanged,by rw [status,due]; exact event,messages ▸ few⟩
  cases phase with
  | leaving exit part =>
    cases part with
    | closing blocked => exact ⟨written known.1,messages ▸ known.2.1,variable_ ▸ known.2.2⟩
    | event blocked => exact ⟨written known.1,messages ▸ known.2.1,variable_ ▸ known.2.2⟩
    | last blocked => exact ⟨ended known.1,variable_ ▸ known.2⟩
    | compaction => exact ended known
    | _ => exact ⟨opened known.1,messages ▸ known.2⟩
  | failMessage => exact ⟨written known.1,messages ▸ known.2⟩
  | failFrames => exact ⟨written known.1,messages ▸ known.2⟩
  | failEvent => exact ⟨written known.1,messages ▸ known.2⟩
  | cancelEvent => exact ⟨written known.1,messages ▸ known.2⟩
  | failLast => exact ended known
  | stopped => exact ended known
  | _ => exact ⟨opened known.1,messages ▸ known.2⟩

theorem open_cancelled (opened : s.Open) (unfinished : isTerminalRunStatus s.status = false) (checked : Nat) :
    State.Open { s.write .cancelled with checked, written := s.written + 1 } := by
  obtain ⟨unset,unchanged,⟨-,due⟩ | ⟨cancelled,-⟩⟩ := opened
  · obtain ⟨events,pending⟩ := List.append_eq_nil_iff.mp due
    have nobody : s.written = 0 := by simpa using pending
    refine ⟨unset,by simp [State.write,unchanged,unfinished],.inr ⟨rfl,?_⟩⟩
    simp [State.due,State.write,events,nobody]
  · rw [cancelled] at unfinished
    cases unfinished

theorem known_cancelled {phase : Phase} (known : Known s phase) (unfinished : isTerminalRunStatus s.status = false)
    (checked : Nat) : Known { s.write .cancelled with checked, written := s.written + 1 } phase := by
  have apart : isTerminalRunStatus s.status = true → False := by
    intro terminal
    rw [terminal] at unfinished
    cases unfinished
  have opened := fun opened : s.Open => open_cancelled opened unfinished checked
  cases phase with
  | leaving exit part =>
    cases part with
    | closing blocked => exact (apart known.1.terminal).elim
    | event blocked => exact (apart known.1.terminal).elim
    | last blocked => exact (apart known.1.terminal).elim
    | compaction => exact (apart known.terminal).elim
    | _ => exact ⟨opened known.1,known.2⟩
  | failMessage => exact (apart known.1.terminal).elim
  | failFrames => exact (apart known.1.terminal).elim
  | failEvent => exact (apart known.1.terminal).elim
  | cancelEvent => exact (apart known.1.terminal).elim
  | failLast => exact (apart known.terminal).elim
  | stopped => exact (apart known.terminal).elim
  | _ => exact ⟨opened known.1,known.2⟩

theorem sound_cancelRun (sound : Sound s) (harmless : Harmless s label) (stepped : cancelRun s label = some t) : Sound t := by
  cases label with
  | cancelRead =>
    cases stepped
    split
    · exact sound
    · show Known _ s.phase
      exact known_congr (s := s) (t := { s with checked := s.checked + 1 }) rfl rfl rfl rfl rfl sound
  | cancelWrite =>
    obtain ⟨-,same⟩ := Option.ite_none_right_eq_some.mp stepped
    cases same
    have unfinished : isTerminalRunStatus s.status = false := by
      unfold Harmless at harmless
      split at harmless <;> first | exact harmless | simp_all
    exact known_cancelled sound unfinished _
  | cancelAppend =>
    obtain ⟨some_,same⟩ := Option.ite_none_right_eq_some.mp stepped
    cases same
    show Known _ s.phase
    refine known_congr (s := s) (t := { s with events := s.events ++ [.cancelled], written := s.written - 1 })
      rfl rfl ?_ rfl rfl sound
    obtain ⟨before,one⟩ := Nat.exists_eq_add_of_lt some_
    have split : s.written = before + 1 := by omega
    simp [State.due,split]
    rfl
  | _ => cases stepped

theorem known_at (phase : Phase) (known : Known s phase) : Sound { s with phase } :=
  known_congr (s := s) (t := { s with phase }) rfl rfl rfl rfl rfl known

theorem sound_interrupted (opened : s.Open) (few : s.messages ≤ 1)
    (caught : exit.withinTry = true ∨ isTerminalRunStatus s.status = true) : Sound (interrupted s exit) := by
  unfold interrupted
  by_cases within : exit.withinTry = true
  · rw [if_pos (by simp [within,opened.unset])]
    exact known_at .cancelStatus ⟨opened,few⟩
  · rw [if_neg (by simp [within])]
    exact known_at .stopped (ended_of_open opened (caught.resolve_left within) few)

theorem sound_leave (known : Leaves s exit part) (place : s.phase = .leaving exit part) (harmless : Harmless s label)
    (stepped : leave s exit part label = some t) : Sound t := by
  unfold Harmless at harmless
  rw [place] at harmless
  cases part with
  | frames =>
    obtain ⟨opened,silent⟩ := known
    cases label with
    | proceeds =>
      cases stepped
      by_cases prompted : exit = .prompt
      · rw [if_pos prompted]
        exact known_at (.leaving exit (.status false)) ⟨opened,by omega⟩
      · rw [if_neg prompted]
        exact known_at (.leaving exit .message) ⟨opened,silent⟩
    | blocks =>
      obtain ⟨-,same⟩ := Option.ite_none_right_eq_some.mp stepped
      cases same
      exact known_at (.leaving exit (.status true)) ⟨opened,by omega⟩
    | skips =>
      obtain ⟨-,same⟩ := Option.ite_none_right_eq_some.mp stepped
      cases same
      exact known_at (.leaving exit (.status false)) ⟨opened,by omega⟩
    | raises =>
      obtain ⟨within,same⟩ := Option.ite_none_right_eq_some.mp stepped
      cases same
      rw [failing,if_pos within]
      exact known_at .failStatus ⟨opened,silent⟩
    | closes =>
      cases stepped
      exact sound_interrupted opened (by omega) harmless
    | _ => cases stepped
  | message =>
    obtain ⟨opened,silent⟩ := known
    cases label with
    | proceeds =>
      cases stepped
      exact ⟨⟨opened.unset,opened.unchanged,opened.due⟩,by simp [silent]⟩
    | _ => cases stepped
  | wording =>
    obtain ⟨opened,few⟩ := known
    cases label with
    | proceeds =>
      cases stepped
      exact known_at (.leaving exit (.status _)) ⟨opened,few⟩
    | blocks =>
      obtain ⟨-,same⟩ := Option.ite_none_right_eq_some.mp stepped
      cases same
      exact known_at (.leaving exit (.status true)) ⟨opened,few⟩
    | raises => exact harmless.elim
    | closes =>
      cases stepped
      exact sound_interrupted opened few harmless
    | _ => cases stepped
  | status blocked =>
    obtain ⟨opened,few⟩ := known
    cases label with
    | proceeds =>
      cases stepped
      obtain ⟨same,terminal,unchanged,due⟩ := written_of_open opened harmless (ending_terminal blocked)
      refine ⟨⟨same,terminal,unchanged,due⟩,few,?_⟩
      intro within notScout
      simp [within,notScout]
    | _ => cases stepped
  | closing blocked =>
    cases label with
    | proceeds =>
      cases stepped
      exact known_at (.leaving exit (.event blocked)) known
    | closes => exact harmless.elim
    | _ => cases stepped
  | event blocked =>
    obtain ⟨written,few,later⟩ := known
    cases label with
    | proceeds =>
      cases stepped
      exact ⟨ended_of_written written few _,later⟩
    | _ => cases stepped
  | last blocked =>
    obtain ⟨ended,later⟩ := known
    cases label with
    | proceeds =>
      cases stepped
      by_cases more : (exit.compacts && !blocked) = true
      · rw [if_pos more]
        exact known_at (.leaving exit .compaction) ended
      · rw [if_neg more]
        exact known_at .stopped ended
    | closes =>
      cases stepped
      unfold interrupted
      rw [if_neg]
      · exact known_at .stopped ended
      · intro both
        obtain ⟨within,unset⟩ := Bool.and_eq_true_iff.mp both
        exact later within harmless (Option.isNone_iff_eq_none.mp unset)
    | _ => cases stepped
  | compaction =>
    cases label with
    | proceeds =>
      cases stepped
      exact known_at .stopped known
    | raises => exact harmless.elim
    | _ => cases stepped

theorem sound_stream (sound : Sound s) (harmless : Harmless s label) (stepped : stream s label = some t) : Sound t := by
  unfold Sound at sound
  unfold stream at stepped
  cases place : s.phase with
  | leaving exit part =>
    rw [place] at sound stepped
    exact sound_leave sound place harmless (by simpa using stepped)
  | prelude =>
    rw [place] at sound stepped
    unfold Harmless at harmless
    rw [place] at harmless
    have few : s.messages ≤ 1 := by
      rw [sound.2]
      omega
    have ended := fun terminal => ended_of_open sound.1 terminal few
    cases label with
    | proceeds =>
      cases stepped
      exact known_at .opening sound
    | takes exit =>
      cases exit with
      | safety =>
        obtain ⟨-,same⟩ := Option.ite_none_left_eq_some.mp stepped
        cases same
        exact known_at (.leaving .safety .frames) sound
      | domain =>
        cases stepped
        exact known_at (.leaving .domain .frames) sound
      | _ => cases stepped
    | raises =>
      cases stepped
      exact known_at .stopped (ended harmless)
    | closes =>
      cases stepped
      exact known_at .stopped (ended harmless)
    | _ => cases stepped
  | opening =>
    rw [place] at sound stepped
    cases label with
    | takes exit =>
      obtain ⟨-,same⟩ := Option.ite_none_right_eq_some.mp stepped
      cases same
      exact known_at (.leaving exit .frames) sound
    | raises =>
      cases stepped
      exact known_at .failStatus sound
    | closes =>
      cases stepped
      have few : s.messages ≤ 1 := by
        rw [sound.2]
        omega
      exact known_at .cancelStatus ⟨sound.1,few⟩
    | _ => cases stepped
  | failStatus =>
    rw [place] at sound stepped
    unfold Harmless at harmless
    rw [place] at harmless
    cases label with
    | proceeds =>
      cases stepped
      obtain ⟨same,terminal,unchanged,due⟩ := written_of_open sound.1 harmless (rfl : isTerminalRunStatus .failed = true)
      exact ⟨⟨same,terminal,unchanged,due⟩,sound.2⟩
    | _ => cases stepped
  | failMessage =>
    rw [place] at sound stepped
    cases label with
    | proceeds =>
      cases stepped
      obtain ⟨⟨same,terminal,unchanged,due⟩,silent⟩ := sound
      exact ⟨⟨same,terminal,unchanged,due⟩,by simp [silent]⟩
    | _ => cases stepped
  | failFrames =>
    rw [place] at sound stepped
    unfold Harmless at harmless
    rw [place] at harmless
    cases label with
    | proceeds =>
      cases stepped
      exact known_at .failEvent sound
    | closes => exact harmless.elim
    | _ => cases stepped
  | failEvent =>
    rw [place] at sound stepped
    cases label with
    | proceeds =>
      cases stepped
      exact ended_of_written sound.1 sound.2 .failLast
    | _ => cases stepped
  | failLast =>
    rw [place] at sound stepped
    cases label with
    | proceeds =>
      cases stepped
      exact known_at .stopped sound
    | closes =>
      cases stepped
      exact known_at .stopped sound
    | _ => cases stepped
  | cancelStatus =>
    rw [place] at sound stepped
    unfold Harmless at harmless
    rw [place] at harmless
    cases label with
    | proceeds =>
      cases stepped
      obtain ⟨same,terminal,unchanged,due⟩ := written_of_open sound.1 harmless (rfl : isTerminalRunStatus .cancelled = true)
      exact ⟨⟨same,terminal,unchanged,due⟩,sound.2⟩
    | _ => cases stepped
  | cancelEvent =>
    rw [place] at sound stepped
    cases label with
    | proceeds =>
      cases stepped
      exact ended_of_written sound.1 sound.2 .stopped
    | _ => cases stepped
  | stopped =>
    rw [place] at stepped
    cases label <;> cases stepped

theorem sound_step (sound : Sound s) (harmless : Harmless s label) (stepped : step s label = some t) : Sound t := by
  unfold step at stepped
  rcases Option.or_eq_some_iff.mp stepped with cancelled | ⟨-,streamed⟩
  · exact sound_cancelRun sound harmless cancelled
  · exact sound_stream sound harmless streamed
theorem sound_initial (resumed : Bool) : Sound (initial resumed) :=
  ⟨⟨rfl,rfl,.inl ⟨rfl,rfl⟩⟩,rfl⟩
/-- Where no step does harm, a run that the generator has left has ended once. -/
theorem ends_once {resumed : Bool} {labels : List Label} (harmless : Meets step Harmless (initial resumed) labels)
    (ran : run step (initial resumed) labels = some t) (stopped : t.phase = .stopped) : EndedOnce t := by
  have sound := Runs.run_keeps (fun _ _ _ => sound_step) (sound_initial resumed) harmless ran
  unfold Sound at sound
  rw [stopped] at sound
  exact sound
def sampleLabels : List Label :=
  [.proceeds,.takes .model,.proceeds,.proceeds,.proceeds,.proceeds,.proceeds,.proceeds,.proceeds,.proceeds,.cancelRead]
theorem ends_once_sample : ∃ t, run step (initial true) sampleLabels = some t ∧ EndedOnce t := by
  have harmless : Meets step Harmless (initial true) sampleLabels := by decide
  exact ⟨_,rfl,ends_once harmless rfl rfl⟩
/-- An exception while the context is built, before the `try`. -/
theorem run_left_running : ¬ ∀ resumed labels t, run step (initial resumed) labels = some t → t.phase = .stopped → EndedOnce t := by
  intro all
  have ended := all false [.raises] _ rfl rfl
  exact absurd ended.terminal (by decide)

end Codebot.ChatRuns
