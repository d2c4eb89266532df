import Codebot.JsonTexts
import Codebot.Timeframes

/-!
What the web client shows of a backtest that a chat run announced, from the events of both runs:
the continuation of the chat, which follows the events forwards, and the live status, which looks
for the last event that concerns a backtest.
-/
namespace Codebot.BacktestStatuses
open Texts JsonTexts List
open Timeframes (trim)

/-- The types of events that the two readers tell apart. -/
inductive RunEventType
  | waitingForBacktest
  | stepCompleted
  | summaryCompleted
  | runCompleted
  | runFailed
  | runCancelled
  | dataPlanning
  | dataCacheReusing
  | dataFetching
  | dataExporting
  | executionStarted
  | indexingStarted
  | reportCompleted
  | previewHeartbeat
  | previewApprovalRequired
  | previewQueued
  | previewFailed
  | previewRejected
  | other (name : Text)
deriving DecidableEq

/-- An event; a payload that is no record is empty. -/
structure RunEvent where
  runId : Text
  conversationId : Text
  type : RunEventType
  payload : List (Text × Json)
  createdAt : Text
/-- `payloadString` and `stringPayload`: a text that is not blank. -/
def stringPayload (event : RunEvent) (key : Text) : Option Text :=
  match event.payload.lookup key with
  | some (.text t) => if trim t = [] then none else some t
  | _ => none

inductive AutoChainContinuationStatus
  | queued
  | running
  | summaryPending
  | summaryReady
  | summaryTimeout
  | failed
  | cancelled
deriving DecidableEq

structure AutoChainContinuation where
  childRunId : Text
  conversationId : Text
  sourceRunId : Text
  status : AutoChainContinuationStatus
deriving DecidableEq
def announced (event : RunEvent) : Option Text :=
  if event.type = .waitingForBacktest ∨ event.type = .stepCompleted then stringPayload event (text "child_run_id") else none
def autoChainContinuationFromRunEvent (event : RunEvent) : Option AutoChainContinuation :=
  (announced event).map fun childRunId => ⟨childRunId,event.conversationId,event.runId,.queued⟩
/-- `chat.auto_chain.summary.completed` of one of the two runs, or with the child in its payload. -/
def summarizes (sourceRunId childRunId : Text) (event : RunEvent) : Bool :=
  event.type = .summaryCompleted &&
    (event.runId = sourceRunId || event.runId = childRunId || stringPayload event (text "backtest_run_id") = some childRunId)

/-- The status that an event of the child gives. -/
def statusOfType : RunEventType → Option AutoChainContinuationStatus
  | .runCompleted => some .summaryPending
  | .runFailed => some .failed
  | .runCancelled => some .cancelled
  | .dataPlanning | .dataCacheReusing | .dataFetching | .dataExporting | .executionStarted | .indexingStarted | .reportCompleted =>
    some .running
  | _ => none

def updateAutoChainContinuationFromRunEvent (current : Option AutoChainContinuation) (event : RunEvent) : Option AutoChainContinuation :=
  match current with
  | none => autoChainContinuationFromRunEvent event
  | some current =>
    match autoChainContinuationFromRunEvent event with
    | some detected => some detected
    | none =>
      if summarizes current.sourceRunId current.childRunId event then some { current with status := .summaryReady }
      else if event.runId ≠ current.childRunId then some current
      else
        match statusOfType event.type with
        | some status => some { current with status }
        | none => some current

def autoChainContinuationFromRunEvents (events : List RunEvent) : Option AutoChainContinuation :=
  events.foldl updateAutoChainContinuationFromRunEvent none
inductive LiveStatus
  | queued
  | running
  | completed
  | failed
deriving DecidableEq

inductive Stage
  | planning
  | cache
  | fetching
  | exporting
  | executing
  | indexing
  | reporting
  | completed
  | failed
deriving DecidableEq

structure BacktestLiveStatus where
  runId : Text
  status : LiveStatus
  stage : Stage
  progressPct : Int
  elapsedMs : Option Json
  etaMs : Option Json
  message : Text
  updatedAt : Text
  isStale : Bool
  fetchWindowsCompleted : Option Json
  fetchWindowsTotal : Option Json

/-- `Math.round`, `Date.parse` where it is a number, and `userFacingPreviewText`. -/
structure Display where
  round : Json → Int
  parse : Text → Option Int
  userFacingPreviewText : Text → Text
def numberPayload (event : RunEvent) (key : Text) : Option Json :=
  match event.payload.lookup key with
  | some (.integer n) => some (.integer n)
  | some (.float source) => some (.float source)
  | _ => none
def clampPercent (display : Display) (value : Json) : Int := max 0 (min 100 (display.round value))

def stageOf (stage : Option Text) : Stage :=
  if stage = some (text "cache") then .cache
  else if stage = some (text "fetching") then .fetching
  else if stage = some (text "exporting") then .exporting
  else if stage = some (text "executing") then .executing
  else if stage = some (text "indexing") then .indexing
  else if stage = some (text "reporting") then .reporting
  else if stage = some (text "completed") then .completed
  else if stage = some (text "failed") then .failed
  else .planning

def liveStatusOf (status : Option Text) : LiveStatus :=
  if status = some (text "queued") then .queued
  else if status = some (text "completed") then .completed
  else if status = some (text "failed") then .failed
  else .running
def backtestLiveStatusEventTypes : List RunEventType :=
  [.previewHeartbeat,.previewApprovalRequired,.previewQueued,.previewFailed,.previewRejected,.waitingForBacktest]
def isHeartbeat (event : RunEvent) : Bool :=
  event.type = .previewHeartbeat || stringPayload event (text "card_kind") = some (text "backtest_live_status")
def isBacktestLiveStatusEvent (event : RunEvent) : Bool :=
  event.type ∈ backtestLiveStatusEventTypes || stringPayload event (text "card_kind") = some (text "backtest_live_status") ||
    stringPayload event (text "preferred_artifact_kind") = some (text "backtest_report")
/-- The last item of a kind, and the items after it. -/
def lastWith {Item : Type} (kind : Item → Bool) : List Item → Option (Item × List Item)
  | [] => none
  | item :: rest =>
    match lastWith kind rest with
    | some found => some found
    | none => if kind item then some (item,rest) else none

/-- The status that a heartbeat gives. -/
def heartbeatStatus (display : Display) (nowMs : Int) (event : RunEvent) : BacktestLiveStatus :=
  let status := stringPayload event (text "status")
  let updatedAt := (stringPayload event (text "updated_at")).getD event.createdAt
  { runId := event.runId
    status := liveStatusOf status
    stage := stageOf (stringPayload event (text "stage"))
    progressPct := clampPercent display ((numberPayload event (text "progress_pct")).getD (.integer 0))
    elapsedMs := numberPayload event (text "elapsed_ms")
    etaMs := numberPayload event (text "eta_ms")
    message := display.userFacingPreviewText ((stringPayload event (text "message")).getD (text "Backtest preview is running."))
    updatedAt
    isStale :=
      match display.parse updatedAt with
      | some updatedMs => status ≠ some (text "completed") ∧ status ≠ some (text "failed") ∧ 45000 < nowMs - updatedMs
      | none => false
    fetchWindowsCompleted := numberPayload event (text "fetch_windows_completed")
    fetchWindowsTotal := numberPayload event (text "fetch_windows_total") }

/-- A status without measures. -/
def plainStatus (runId : Text) (status : LiveStatus) (stage : Stage) (progressPct : Int) (message updatedAt : Text) : BacktestLiveStatus :=
  ⟨runId,status,stage,progressPct,none,none,message,updatedAt,false,none,none⟩

/-- `backtestChildTerminalStatus`, over the events after the announcement. -/
def backtestChildTerminalStatus (later : List RunEvent) (childRunId : Text) : Option BacktestLiveStatus :=
  later.reverse.findSome? fun event =>
    if event.runId ≠ childRunId then none
    else if event.type = .runCompleted then
      some (plainStatus childRunId .completed .completed 100 (text "Backtest preview artifacts are ready.") event.createdAt)
    else if event.type = .runFailed then
      some (plainStatus childRunId .failed .failed 0 ((stringPayload event (text "message")).getD (text "Backtest preview failed."))
        event.createdAt)
    else none

/-- The status of an event that queues a backtest or asks for its approval. -/
def queuedStatus (event : RunEvent) (childRunId : Option Text) : BacktestLiveStatus :=
  plainStatus (childRunId.getD event.runId) .queued .planning (if event.type = .previewApprovalRequired then 0 else 2)
    (if event.type = .previewApprovalRequired then text "Backtest plan is waiting for approval." else text "Backtest preview is queued.")
    event.createdAt

def backtestLiveStatusFromRunEvents (display : Display) (nowMs : Int) (events : List RunEvent) : Option BacktestLiveStatus :=
  match lastWith isBacktestLiveStatusEvent events with
  | none => none
  | some (latest,later) =>
    if isHeartbeat latest then some (heartbeatStatus display nowMs latest)
    else if latest.type = .previewRejected then none
    else if latest.type = .previewFailed then
      some (plainStatus latest.runId .failed .failed 0
        (display.userFacingPreviewText ((stringPayload latest (text "message")).getD (text "Backtest preview failed."))) latest.createdAt)
    else
      match stringPayload latest (text "child_run_id") with
      | some childRunId => some ((backtestChildTerminalStatus later childRunId).getD (queuedStatus latest childRunId))
      | none => some (queuedStatus latest none)

/-- Neither reader reports the child run as queued or running. -/
structure ShownFinished (display : Display) (nowMs : Int) (events : List RunEvent) (childRunId : Text) : Prop where
  continuation : ∀ shown ∈ autoChainContinuationFromRunEvents events, shown.childRunId = childRunId →
    shown.status ≠ .queued ∧ shown.status ≠ .running
  live : ∀ shown ∈ backtestLiveStatusFromRunEvents display nowMs events, shown.runId = childRunId →
    shown.status ≠ .queued ∧ shown.status ≠ .running
/-- The event ends the child run, or sums it up for the chat. -/
def Settles (sourceRunId childRunId : Text) (event : RunEvent) : Prop :=
  summarizes sourceRunId childRunId event ∨
    event.runId = childRunId ∧ (event.type = .runCompleted ∨ event.type = .runFailed ∨ event.type = .runCancelled)
def Works (childRunId : Text) (event : RunEvent) : Prop := event.runId = childRunId ∧ statusOfType event.type = some .running
/-- The child is settled, and does not work any more after that. -/
def SettledLast (sourceRunId childRunId : Text) (events : List RunEvent) : Prop :=
  ∃ before settling after, events = before ++ settling :: after ∧ Settles sourceRunId childRunId settling ∧
    ∀ event ∈ after, ¬Works childRunId event
def Queues (event : RunEvent) : Prop := isHeartbeat event = false ∧ event.type ≠ .previewRejected ∧ event.type ≠ .previewFailed

/-- The last event of a backtest is a heartbeat of the child only if the heartbeat has its end, and it
queues the child only if the child completes or fails later. -/
structure LiveEnded (childRunId : Text) (latest : RunEvent) (later : List RunEvent) : Prop where
  heartbeat : isHeartbeat latest → latest.runId = childRunId →
    stringPayload latest (text "status") = some (text "completed") ∨ stringPayload latest (text "status") = some (text "failed")
  queued : Queues latest → (stringPayload latest (text "child_run_id")).getD latest.runId = childRunId →
    stringPayload latest (text "child_run_id") = some childRunId ∧
      ∃ event ∈ later, event.runId = childRunId ∧ (event.type = .runCompleted ∨ event.type = .runFailed)

section
variable {Item : Type} {kind : Item → Bool}
variable {items : List Item}

theorem lastWith_none : lastWith kind items = none ↔ ∀ item ∈ items, kind item = false := by
  induction items with
  | nil => exact ⟨fun _ _ member => absurd member not_mem_nil,fun _ => rfl⟩
  | cons item rest ih =>
    rw [lastWith,forall_mem_cons,← ih]
    cases lastWith kind rest with
    | some found => exact ⟨nofun,fun both => nomatch both.2⟩
    | none =>
      cases kind item with
      | false => exact ⟨fun _ => ⟨rfl,rfl⟩,fun _ => rfl⟩
      | true => exact ⟨nofun,fun both => nomatch both.1⟩

theorem lastWith_some {rest : List Item} {item : Item} (found : lastWith kind items = some (item,rest)) :
    ∃ before, items = before ++ item :: rest ∧ kind item ∧ ∀ other ∈ rest, kind other = false := by
  induction items with
  | nil => cases found
  | cons first items ih =>
    rw [lastWith] at found
    cases later : lastWith kind items with
    | some other =>
      rw [later] at found
      cases found
      obtain ⟨before,rfl,isKind,none⟩ := ih later
      exact ⟨first :: before,rfl,isKind,none⟩
    | none =>
      rw [later] at found
      cases isKind : kind first with
      | false =>
        rw [isKind] at found
        cases found
      | true =>
        rw [isKind] at found
        cases found
        exact ⟨[],rfl,isKind,lastWith_none.mp later⟩

end

/-- The status that an event gives a continuation. -/
def mark (sourceRunId childRunId : Text) (event : RunEvent) : Option AutoChainContinuationStatus :=
  if summarizes sourceRunId childRunId event then some .summaryReady
  else if event.runId = childRunId then statusOfType event.type
  else none
def Unfinished (status : AutoChainContinuationStatus) : Prop := status = .queued ∨ status = .running

variable {childRunId : Text} {event : RunEvent}
theorem update_announced (current : Option AutoChainContinuation) (isChild : announced event = some childRunId) :
    updateAutoChainContinuationFromRunEvent current event = some ⟨childRunId,event.conversationId,event.runId,.queued⟩ := by
  have detected : autoChainContinuationFromRunEvent event = some ⟨childRunId,event.conversationId,event.runId,.queued⟩ := by
    rw [autoChainContinuationFromRunEvent,isChild,Option.map_some]
  cases current with
  | none => exact detected
  | some current => rw [updateAutoChainContinuationFromRunEvent,detected]

theorem update_mark (current : AutoChainContinuation) (none : announced event = none) :
    updateAutoChainContinuationFromRunEvent (some current) event =
      some { current with status := (mark current.sourceRunId current.childRunId event).getD current.status } := by
  have nothing : autoChainContinuationFromRunEvent event = .none := by rw [autoChainContinuationFromRunEvent,none,Option.map_none]
  rw [updateAutoChainContinuationFromRunEvent,nothing,mark]
  cases summarizes current.sourceRunId current.childRunId event with
  | true => rfl
  | false =>
    simp only [Bool.false_eq_true,if_false]
    by_cases same : event.runId = current.childRunId
    · rw [if_neg (not_not_intro same),if_pos same]
      cases statusOfType event.type <;> rfl
    · rw [if_pos same,if_neg same]
      rfl

variable {later : List RunEvent}

theorem updates_mark (current : AutoChainContinuation) (none : ∀ event ∈ later, announced event = none) :
    later.foldl updateAutoChainContinuationFromRunEvent (some current) = some { current with
      status := later.foldl (fun status event => (mark current.sourceRunId current.childRunId event).getD status) current.status } := by
  induction later generalizing current with
  | nil => rfl
  | cons event later ih =>
    rw [foldl_cons,update_mark current (none event mem_cons_self),
      ih _ fun other member => none other (mem_cons_of_mem event member)]
    rfl

variable {sourceRunId : Text}
theorem statusOfType_summary (isSummary : summarizes sourceRunId childRunId event) :
    statusOfType event.type = none := by
  have type : event.type = .summaryCompleted := by
    simp only [summarizes,Bool.and_eq_true,decide_eq_true_eq] at isSummary
    exact isSummary.1
  rw [type]
  rfl

theorem mark_cases (sourceRunId childRunId : Text) (event : RunEvent) :
    (mark sourceRunId childRunId event = none ∧ ¬Settles sourceRunId childRunId event ∧ ¬Works childRunId event) ∨
    (∃ status, mark sourceRunId childRunId event = some status ∧ ¬Unfinished status ∧ Settles sourceRunId childRunId event ∧
      ¬Works childRunId event) ∨
    (mark sourceRunId childRunId event = some .running ∧ ¬Settles sourceRunId childRunId event ∧ Works childRunId event) := by
  unfold mark Settles Works Unfinished
  cases isSummary : summarizes sourceRunId childRunId event with
  | true =>
    rw [statusOfType_summary isSummary]
    exact .inr (.inl ⟨.summaryReady,rfl,by decide,.inl rfl,fun both => nomatch both.2⟩)
  | false =>
    by_cases same : event.runId = childRunId
    · simp only [Bool.false_eq_true,if_false,false_or,same,true_and]
      cases event.type <;> simp [statusOfType]
    · exact .inl ⟨if_neg same,by simp [same],fun both => same both.1⟩

theorem settledLast_cons :
    SettledLast sourceRunId childRunId (event :: later) ↔ SettledLast sourceRunId childRunId later ∨
      Settles sourceRunId childRunId event ∧ ∀ other ∈ later, ¬Works childRunId other := by
  constructor
  · rintro ⟨before,settling,after,split,settles,idle⟩
    cases before with
    | nil =>
      cases split
      exact .inr ⟨settles,idle⟩
    | cons first before =>
      cases split
      exact .inl ⟨before,settling,after,rfl,settles,idle⟩
  · rintro (⟨before,settling,after,rfl,settles,idle⟩ | ⟨settles,idle⟩)
    · exact ⟨event :: before,settling,after,rfl,settles,idle⟩
    · exact ⟨[],event,later,rfl,settles,idle⟩

theorem statuses_finished {sourceRunId childRunId : Text} (later : List RunEvent) (start : AutoChainContinuationStatus) :
    ¬Unfinished (later.foldl (fun status event => (mark sourceRunId childRunId event).getD status) start) ↔
      SettledLast sourceRunId childRunId later ∨ ¬Unfinished start ∧ ∀ event ∈ later, ¬Works childRunId event := by
  induction later generalizing start with
  | nil =>
    constructor
    · exact fun finished => .inr ⟨finished,fun _ member => absurd member not_mem_nil⟩
    · rintro (⟨before,settling,after,split,_⟩ | ⟨finished,_⟩)
      · cases before <;> cases split
      · exact finished
  | cons event later ih =>
    rw [foldl_cons,ih,settledLast_cons,forall_mem_cons,or_assoc]
    refine or_congr_right ?_
    rcases mark_cases sourceRunId childRunId event with ⟨marks,unsettled,idle⟩ | ⟨status,marks,finished,settles,idle⟩ | ⟨marks,unsettled,works⟩
    · rw [marks,Option.getD_none]
      simp only [unsettled,idle,false_and,false_or,not_false_eq_true,true_and]
    · rw [marks,Option.getD_some]
      simp only [finished,settles,idle,not_false_eq_true,true_and]
      exact (or_iff_left_of_imp And.right).symm
    · rw [marks,Option.getD_some]
      simp only [unsettled,works,Unfinished,or_true,not_true_eq_false,false_and,and_false,or_self]

variable {events : List RunEvent}

theorem continuation_eq {announcement : RunEvent}
    (last : lastWith (fun event => (announced event).isSome) events = some (announcement,later)) (isChild : announced announcement = some childRunId) :
    ∃ conversationId, autoChainContinuationFromRunEvents events = some ⟨childRunId,conversationId,announcement.runId,
      later.foldl (fun status event => (mark announcement.runId childRunId event).getD status) .queued⟩ := by
  obtain ⟨before,rfl,_,none⟩ := lastWith_some last
  have quiet : ∀ event ∈ later, announced event = .none := fun event member => Option.not_isSome_iff_eq_none.mp (Bool.eq_false_iff.mp (none event member))
  refine ⟨announcement.conversationId,?_⟩
  rw [autoChainContinuationFromRunEvents,foldl_append,foldl_cons,update_announced _ isChild,updates_mark _ quiet]

theorem terminal_cases (later : List RunEvent) (childRunId : Text) :
    (∃ shown, backtestChildTerminalStatus later childRunId = some shown ∧ (shown.status = .completed ∨ shown.status = .failed) ∧
      ∃ event ∈ later, event.runId = childRunId ∧ (event.type = .runCompleted ∨ event.type = .runFailed)) ∨
    (backtestChildTerminalStatus later childRunId = none ∧
      ¬∃ event ∈ later, event.runId = childRunId ∧ (event.type = .runCompleted ∨ event.type = .runFailed)) := by
  cases terminal : backtestChildTerminalStatus later childRunId with
  | some shown =>
    obtain ⟨event,member,gives⟩ := exists_of_findSome?_eq_some terminal
    have isLater := mem_reverse.mp member
    split_ifs at gives with other completed failed
    · cases gives
      exact .inl ⟨_,rfl,.inl rfl,event,isLater,not_not.mp other,.inl completed⟩
    · cases gives
      exact .inl ⟨_,rfl,.inr rfl,event,isLater,not_not.mp other,.inr failed⟩
  | none =>
    refine .inr ⟨rfl,?_⟩
    rintro ⟨event,isLater,same,ends⟩
    have gives := findSome?_eq_none_iff.mp terminal event (mem_reverse.mpr isLater)
    rw [if_neg (not_not_intro same)] at gives
    rcases ends with completed | failed
    · rw [if_pos completed] at gives
      cases gives
    · split_ifs at gives

theorem liveStatusOf_finished (status : Option Text) :
    (liveStatusOf status ≠ .queued ∧ liveStatusOf status ≠ .running) ↔ status = some (text "completed") ∨ status = some (text "failed") := by
  unfold liveStatusOf
  split_ifs with queued completed failed
  · rw [queued]
    exact iff_of_false (fun both => both.1 rfl) (by decide)
  · exact iff_of_true ⟨by decide,by decide⟩ (.inl completed)
  · exact iff_of_true ⟨by decide,by decide⟩ (.inr failed)
  · exact iff_of_false (fun both => both.2 rfl) (not_or_intro completed failed)

variable {latest : RunEvent}

theorem queued_finished {shown : BacktestLiveStatus}
    (isShown : shown = match stringPayload latest (text "child_run_id") with
      | some named => (backtestChildTerminalStatus later named).getD (queuedStatus latest named)
      | none => queuedStatus latest none) :
    (shown.runId = childRunId → shown.status ≠ .queued ∧ shown.status ≠ .running) ↔
      ((stringPayload latest (text "child_run_id")).getD latest.runId = childRunId →
        stringPayload latest (text "child_run_id") = some childRunId ∧
          ∃ event ∈ later, event.runId = childRunId ∧ (event.type = .runCompleted ∨ event.type = .runFailed)) := by
  have unfinished : ∀ runId, (queuedStatus latest runId).status = .queued := fun _ => rfl
  cases named : stringPayload latest (text "child_run_id") with
  | none =>
    rw [named] at isShown
    rw [isShown]
    constructor
    · exact fun finished same => absurd (unfinished none) (finished same).1
    · exact fun ended same => nomatch (ended same).1
  | some child =>
    rw [named] at isShown
    rw [isShown]
    rcases terminal_cases later child with ⟨terminal,isTerminal,finished,ends⟩ | ⟨noTerminal,endless⟩
    · have isFinished : terminal.status ≠ .queued ∧ terminal.status ≠ .running := by
        rcases finished with completed | failed
        · rw [completed]
          exact ⟨by decide,by decide⟩
        · rw [failed]
          exact ⟨by decide,by decide⟩
      simp only [isTerminal,Option.getD_some]
      exact iff_of_true (fun _ => isFinished) fun same => same ▸ ⟨rfl,ends⟩
    · simp only [noTerminal,Option.getD_none,Option.getD_some]
      constructor
      · exact fun finished same => absurd (unfinished (some child)) (finished same).1
      · rintro ended (same : child = childRunId)
        exact absurd (same ▸ (ended same).2) endless

theorem live_finished (display : Display) (nowMs : Int)
    (last : lastWith isBacktestLiveStatusEvent events = some (latest,later)) :
    (∀ shown ∈ backtestLiveStatusFromRunEvents display nowMs events, shown.runId = childRunId → shown.status ≠ .queued ∧ shown.status ≠ .running) ↔
      LiveEnded childRunId latest later := by
  by_cases heartbeat : isHeartbeat latest
  · have shows : backtestLiveStatusFromRunEvents display nowMs events = some (heartbeatStatus display nowMs latest) := by
      simp only [backtestLiveStatusFromRunEvents,last,if_pos heartbeat]
    have finished := liveStatusOf_finished (stringPayload latest (text "status"))
    rw [shows]
    constructor
    · intro all
      refine ⟨fun _ same => finished.mp (all _ rfl same),?_⟩
      exact fun queues => nomatch heartbeat.symm.trans queues.1
    · rintro ended shown isShown same
      cases isShown
      exact finished.mpr (ended.heartbeat heartbeat same)
  · have ended_iff : LiveEnded childRunId latest later ↔ (Queues latest →
        (stringPayload latest (text "child_run_id")).getD latest.runId = childRunId →
          stringPayload latest (text "child_run_id") = some childRunId ∧
            ∃ event ∈ later, event.runId = childRunId ∧ (event.type = .runCompleted ∨ event.type = .runFailed)) :=
      ⟨fun ended => ended.queued,fun queued => ⟨fun isTrue => absurd isTrue heartbeat,queued⟩⟩
    rw [ended_iff]
    by_cases rejected : latest.type = .previewRejected
    · have shows : backtestLiveStatusFromRunEvents display nowMs events = none := by
        simp only [backtestLiveStatusFromRunEvents,last,if_neg heartbeat,if_pos rejected]
      rw [shows]
      refine iff_of_true ?_ fun queues => absurd rejected queues.2.1
      exact fun shown isShown => absurd isShown (Option.not_mem_none shown)
    · by_cases failed : latest.type = .previewFailed
      · have shows : ∃ shown, backtestLiveStatusFromRunEvents display nowMs events = some shown ∧ shown.status = .failed := by
          simp only [backtestLiveStatusFromRunEvents,last,if_neg heartbeat,if_neg rejected,if_pos failed]
          exact ⟨_,rfl,rfl⟩
        obtain ⟨shown,isShown,isFailed⟩ := shows
        rw [isShown]
        refine iff_of_true ?_ fun queues => absurd failed queues.2.2
        rintro _ ⟨⟩ _
        rw [isFailed]
        exact ⟨by decide,by decide⟩
      · have queues : Queues latest := ⟨Bool.eq_false_iff.mpr heartbeat,rejected,failed⟩
        have shows : ∃ shown, backtestLiveStatusFromRunEvents display nowMs events = some shown ∧
            shown = match stringPayload latest (text "child_run_id") with
              | some named => (backtestChildTerminalStatus later named).getD (queuedStatus latest named)
              | none => queuedStatus latest none := by
          refine ⟨_,?_,rfl⟩
          simp only [backtestLiveStatusFromRunEvents,last,if_neg heartbeat,if_neg rejected,if_neg failed]
          cases stringPayload latest (text "child_run_id") <;> rfl
        obtain ⟨shown,isShown,isMatch⟩ := shows
        rw [isShown,forall_prop_of_true queues,← queued_finished isMatch]
        constructor
        · exact fun all => all shown rfl
        · rintro finished _ ⟨⟩
          exact finished

/-- The child that was announced last ends afterwards and does not work any more, and the last event of a backtest is no
    heartbeat without its end and queues the child only before it ends. -/
theorem shownFinished_iff (display : Display) (nowMs : Int) {events later : List RunEvent} {announcement : RunEvent} {childRunId : Text}
    (last : lastWith (fun event => (announced event).isSome) events = some (announcement,later)) (isChild : announced announcement = some childRunId) :
    ShownFinished display nowMs events childRunId ↔ SettledLast announcement.runId childRunId later ∧
      ∀ latest since, lastWith isBacktestLiveStatusEvent events = some (latest,since) → LiveEnded childRunId latest since := by
  obtain ⟨conversationId,continuation⟩ := continuation_eq last isChild
  have forwards : SettledLast announcement.runId childRunId later ↔
      ∀ shown ∈ autoChainContinuationFromRunEvents events, shown.childRunId = childRunId → shown.status ≠ .queued ∧ shown.status ≠ .running := by
    have finished := @statuses_finished announcement.runId childRunId later .queued
    have start : ¬(¬Unfinished .queued ∧ ∀ event ∈ later, ¬Works childRunId event) := fun both => both.1 (.inl rfl)
    rw [or_iff_left start] at finished
    rw [← finished,continuation]
    constructor
    · intro settled shown isShown _
      cases isShown
      exact not_or.mp settled
    · intro all
      exact not_or.mpr (all _ rfl rfl)
  have backwards : (∀ latest since, lastWith isBacktestLiveStatusEvent events = some (latest,since) → LiveEnded childRunId latest since) ↔
      ∀ shown ∈ backtestLiveStatusFromRunEvents display nowMs events, shown.runId = childRunId → shown.status ≠ .queued ∧ shown.status ≠ .running := by
    cases found : lastWith isBacktestLiveStatusEvent events with
    | none =>
      rw [backtestLiveStatusFromRunEvents,found]
      refine iff_of_true (fun _ _ same => ?_) fun shown isShown => absurd isShown (Option.not_mem_none shown)
      cases same
    | some pair =>
      rw [live_finished display nowMs found]
      constructor
      · exact fun all => all _ _ rfl
      · rintro ended latest since same
        cases same
        exact ended
  rw [forwards,backwards]
  exact ⟨fun both => ⟨both.continuation,both.live⟩,fun both => ⟨both.1,both.2⟩⟩

def sampleDisplay : Display := ⟨fun _ => 0,fun _ => none,id⟩
def waiting : RunEvent := ⟨text "run_source",text "conv_1",.waitingForBacktest,[(text "child_run_id",.text (text "run_child"))],text "t1"⟩
def ended (type : RunEventType) : RunEvent := ⟨text "run_child",text "conv_1",type,[],text "t2"⟩
/-- The continuation is cancelled, and the live status still queues the child. -/
theorem cancelled_queued : ¬ShownFinished sampleDisplay 0 [waiting,ended .runCancelled] (text "run_child") := by
  intro finished
  have shows : backtestLiveStatusFromRunEvents sampleDisplay 0 [waiting,ended .runCancelled] =
      some (queuedStatus waiting (some (text "run_child"))) := rfl
  exact (finished.live _ shows rfl).1 rfl

/-- A backtest that completes is shown as completed. -/
theorem completed_shown : ShownFinished sampleDisplay 0 [waiting,ended .runCompleted] (text "run_child") := by
  refine (@shownFinished_iff sampleDisplay 0 [waiting,ended .runCompleted] [ended .runCompleted] waiting _ rfl rfl).mpr ⟨?_,?_⟩
  · exact ⟨[],ended .runCompleted,[],rfl,.inr ⟨rfl,.inl rfl⟩,nofun⟩
  · intro latest since last
    cases last
    exact ⟨fun heartbeat => (by decide : isHeartbeat waiting ≠ true).elim heartbeat,
      fun _ _ => ⟨rfl,ended .runCompleted,mem_singleton_self _,rfl,.inl rfl⟩⟩

end Codebot.BacktestStatuses
