import Codebot.ChatDesk

/-!
The summary of a backtest in its conversation. The handler looks for the event of a completed summary, adds the
message if there is none, and adds the event after it. A worker that dies between the two leaves its job to a worker
that finds no event (`one_summary_iff`).
-/
namespace Codebot.SummaryJobs
open Runs JobTable ChatWorker ChatDesk List

/-- The payload of a summary job. -/
structure Payload where
  backtestRunId : Option Nat
  conversationId : Option Nat
  sourceRunId : Option Nat
deriving DecidableEq
/-- The payloads of the jobs and the conversations of the runs, which do not change. -/
structure Records where
  payload : Nat → Payload
  conversationOf : Nat → Option Nat
/-- The summary of a run, as an assistant message in a conversation. -/
structure Message where
  conversationId : Nat
  backtestRunId : Nat
deriving DecidableEq
/-- An event `summary_completed` of a run, with the run of its payload. -/
structure Event where
  runId : Nat
  backtestRunId : Nat
deriving DecidableEq

/-- The next statement of `_process_backtest_summary_job`. -/
inductive Stage
  | resolving (job : RunJobRow)
  | summarizing (job : RunJobRow) (message : Message)
  | checking (job : RunJobRow) (message : Message)
  | messaging (job : RunJobRow) (message : Message)
  | publishing (job : RunJobRow) (message : Message)
  | mirroring (job : RunJobRow) (message : Message)
  | returning
deriving DecidableEq

def handler : Handler Stage where
  jobType := .chatBacktestSummary
  start := .resolving
  returns stage := stage == .returning
structure State (workers requests chats : Nat) where
  desk : Desk Stage workers requests chats
  messages : List Message
  events : List Event
/-- `backtest_run_id = string_value(payload.get("backtest_run_id")) or run_id`. -/
def Records.backtestRunId (records : Records) (job : RunJobRow) : Nat := (records.payload job.id).backtestRunId.getD job.runId
def hasCompletedSummaryEvent (events : List Event) (runId : Nat) : Bool :=
  events.any fun event => event.runId == runId && event.backtestRunId == runId

/-- What a statement of the handler other than `create_message` does; without a conversation it raises. -/
def handle (records : Records) (events : List Event) : Stage → Option (Stage × List Event)
  | .resolving job =>
    let backtestRunId := records.backtestRunId job
    ((records.payload job.id).conversationId.or (records.conversationOf backtestRunId)).map fun conversationId =>
      (.summarizing job ⟨conversationId,backtestRunId⟩,events)
  | .summarizing job message => some (.checking job message,events)
  | .checking job message =>
    if hasCompletedSummaryEvent events message.backtestRunId then some (.publishing job message,events)
    else some (.messaging job message,events)
  | .messaging _ _ => none
  | .publishing job message => some (.mirroring job message,events ++ [⟨message.backtestRunId,message.backtestRunId⟩])
  | .mirroring job message =>
    match (records.payload job.id).sourceRunId with
    | some sourceRunId =>
      if sourceRunId ≠ message.backtestRunId then some (.returning,events ++ [⟨sourceRunId,message.backtestRunId⟩])
      else some (.returning,events)
    | none => some (.returning,events)
  | .returning => none

inductive Label (workers requests chats : Nat)
  | fleet (label : FleetLabel workers requests chats)
  | handle (c : Fin chats)
  | post (c : Fin chats)
deriving DecidableEq

variable {workers requests chats : Nat}
def State.move (s : State workers requests chats) (c : Fin chats) (stage : Stage) : State workers requests chats :=
  { s with desk := s.desk.enter s.desk.fleet c (some stage) }

def step (settings : Settings) (records : Records) (s : State workers requests chats) :
    Label workers requests chats → Option (State workers requests chats)
  | .fleet label => (deskStep settings handler s.desk label).map fun desk => { s with desk }
  | .handle c =>
    (s.desk.stage c).bind fun stage => (handle records s.events stage).map fun next =>
      { (s.move c next.1) with events := next.2 }
  | .post c =>
    match s.desk.stage c with
    | some (.messaging job message) => some { (s.move c (.publishing job message)) with messages := s.messages ++ [message] }
    | _ => none

def initial (workers requests chats : Nat) : State workers requests chats := ⟨initialDesk workers requests chats,[],[]⟩
def Posting (s : State workers requests chats) (c : Fin chats) (message : Message) : Prop :=
  ∃ job, s.desk.stage c = some (.messaging job message)
def AtMostOne (s : State workers requests chats) : Prop := ∀ message, s.messages.count message ≤ 1
/-- At most one summary is there, also after any workers that are about to add one have added it. -/
def Secure (settings : Settings) (records : Records) (s : State workers requests chats) : Prop :=
  ∀ (posts : List (Fin chats)) t, run (step settings records) s (posts.map .post) = some t → AtMostOne t
/-- A look that finds no event of a completed summary is right: no message is there, and no other
    worker is about to add it. -/
def LooksRight (s : State workers requests chats) : Label workers requests chats → Prop
  | .handle c => ∀ job message, s.desk.stage c = some (.checking job message) →
      hasCompletedSummaryEvent s.events message.backtestRunId = false →
      message ∉ s.messages ∧ ∀ other, ¬ Posting s other message
  | _ => True
/-- Each summary is there, or on its way, at most once. -/
structure Sound (s : State workers requests chats) : Prop where
  once : s.messages.Nodup
  fresh : ∀ c message, Posting s c message → message ∉ s.messages
  alone : ∀ c other message, Posting s c message → Posting s other message → c = other

variable {settings : Settings} {records : Records} {s t : State workers requests chats}
variable {c : Fin chats} {message : Message} {other : Fin chats} {stage : Stage}
theorem move_posting (posting : Posting (s.move c stage) other message) :
    (other = c ∧ ∃ job, stage = .messaging job message) ∨ (other ≠ c ∧ Posting s other message) := by
  obtain ⟨job,reached⟩ := posting
  rcases enter_stage reached with ⟨same,isStage⟩ | ⟨differs,before⟩
  · exact .inl ⟨same,job,Option.some.inj isStage⟩
  · exact .inr ⟨differs,job,before⟩
theorem sound_fewer (sound : Sound s) (messages : t.messages = s.messages)
    (fewer : ∀ c message, Posting t c message → Posting s c message) : Sound t := by
  refine ⟨messages ▸ sound.once,?_,?_⟩
  · intro c message posting
    rw [messages]
    exact sound.fresh c message (fewer c message posting)
  · exact fun c other message posting also => sound.alone c other message (fewer c message posting) (fewer other message also)

theorem handle_messaging {events after : List Event} {job : RunJobRow}
    (handled : handle records events stage = some (.messaging job message,after)) :
    stage = .checking job message ∧ hasCompletedSummaryEvent events message.backtestRunId = false := by
  unfold handle at handled
  split at handled
  · simp at handled
  · cases handled
  · split at handled
    · cases handled
    · rename_i absent
      cases handled
      exact ⟨rfl,Bool.not_eq_true _ ▸ absent⟩
  · cases handled
  · cases handled
  · split at handled
    · split at handled
      · cases handled
      · cases handled
    · cases handled
  · cases handled

theorem sound_post (sound : Sound s) (stepped : step settings records s (.post c) = some t) : Sound t := by
  simp only [step] at stepped
  split at stepped
  · rename_i job message posting
    cases stepped
    have isPosting : Posting s c message := ⟨job,posting⟩
    refine ⟨?_,?_,?_⟩
    · exact List.Nodup.append sound.once (nodup_singleton _)
        (disjoint_singleton.mpr (sound.fresh c message isPosting))
    · intro other later isLater listed
      rcases move_posting (s := s) isLater with ⟨_,_,ended⟩ | ⟨differs,before⟩
      · cases ended
      · rcases mem_append.mp listed with old | new
        · exact sound.fresh other later before old
        · exact differs (sound.alone other c message (mem_singleton.mp new ▸ before) isPosting)
    · intro one other later first second
      rcases move_posting (s := s) first with ⟨_,_,ended⟩ | ⟨_,before⟩
      · cases ended
      · rcases move_posting (s := s) second with ⟨_,_,ended⟩ | ⟨_,also⟩
        · cases ended
        · exact sound.alone one other later before also
  · cases stepped

theorem sound_step (s : State workers requests chats) (label : Label workers requests chats) (t : State workers requests chats)
    (sound : Sound s) (looks : LooksRight s label) (stepped : step settings records s label = some t) : Sound t := by
  cases label with
  | fleet label =>
    obtain ⟨desk,moved,rfl⟩ := Option.map_eq_some_iff.mp stepped
    refine sound_fewer sound rfl ?_
    rintro c message ⟨job,posting⟩
    rcases deskStep_stage moved posting with before | ⟨_,_,_,_,_,begins⟩
    · exact ⟨job,before⟩
    · cases begins
  | handle c =>
    obtain ⟨stage,here,handled⟩ := Option.bind_eq_some_iff.mp stepped
    obtain ⟨⟨after,events⟩,went,rfl⟩ := Option.map_eq_some_iff.mp handled
    -- either the worker has looked and is to add the message, or nobody new is
    by_cases posts : ∃ job message, after = .messaging job message
    · obtain ⟨job,message,rfl⟩ := posts
      obtain ⟨rfl,absent⟩ := handle_messaging went
      obtain ⟨missing,nobody⟩ := looks job message here absent
      refine ⟨sound.once,?_,?_⟩
      · intro other later posting
        rcases move_posting (s := s) posting with ⟨_,_,same⟩ | ⟨_,before⟩
        · cases same
          exact missing
        · exact sound.fresh other later before
      · intro one other later first second
        rcases move_posting (s := s) first with ⟨rfl,_,same⟩ | ⟨_,before⟩
        · rcases move_posting (s := s) second with ⟨rfl,_,_⟩ | ⟨_,also⟩
          · rfl
          · cases same
            exact absurd also (nobody other)
        · rcases move_posting (s := s) second with ⟨_,_,same⟩ | ⟨_,also⟩
          · cases same
            exact absurd before (nobody one)
          · exact sound.alone one other later before also
    · refine sound_fewer (t := { (s.move c after) with events }) sound rfl ?_
      intro other message posting
      rcases move_posting (s := s) posting with ⟨_,job,same⟩ | ⟨_,before⟩
      · exact absurd ⟨job,message,same⟩ posts
      · exact before
  | post c => exact sound_post sound stepped

theorem sound_secure (s : State workers requests chats) (sound : Sound s) : Secure settings records s := by
  intro posts t ran
  have : Sound t := by
    induction posts generalizing s with
    | nil =>
      cases ran
      exact sound
    | cons c rest ih =>
      obtain ⟨next,stepped,continued⟩ := run_cons_some.mp ran
      exact ih next (sound_post sound stepped) continued
  intro message
  exact nodup_iff_count_le_one.mp this.once message

theorem post_step {c : Fin chats} {job : RunJobRow} {message : Message}
    (posting : s.desk.stage c = some (.messaging job message)) : step settings records s (.post c) =
      some { (s.move c (.publishing job message)) with messages := s.messages ++ [message] } := by
  simp only [step,posting]
theorem move_other (differs : other ≠ c) : (s.move c stage).desk.stage other = s.desk.stage other :=
  Function.update_of_ne differs ..
theorem move_self : (s.move c stage).desk.stage c = some stage :=
  Function.update_self ..

theorem looks_of_secure (secure : ∀ t, step settings records s (.handle c) = some t → Secure settings records t) :
    LooksRight s (.handle c) := by
  intro job message looking absent
  have looked : step settings records s (.handle c) = some (s.move c (.messaging job message)) := by
    simp [step,looking,handle,absent]
    rfl
  have after := secure _ looked
  have isMessaging : (s.move c (.messaging job message)).desk.stage c = some (.messaging job message) := move_self
  have posted := @post_step _ _ _ settings records _ c job message isMessaging
  constructor
  · intro listed
    have one := after [c] _ (run_cons_some.mpr ⟨_,posted,run_nil _⟩) message
    have already : 0 < s.messages.count message := count_pos_iff.mpr listed
    change (s.messages ++ [message]).count message ≤ 1 at one
    rw [count_append,count_singleton_self] at one
    omega
  · rintro other ⟨job',posting⟩
    have differs : other ≠ c := by
      rintro rfl
      rw [looking] at posting
      cases posting
    have still : ({ ((s.move c (.messaging job message)).move c (.publishing job message)) with
        messages := s.messages ++ [message] } : State workers requests chats).desk.stage other =
          some (.messaging job' message) :=
      (move_other (s := s.move c _) differs).trans ((move_other differs).trans posting)
    have one := after [c,other] _ (run_cons_some.mpr ⟨_,posted,run_cons_some.mpr ⟨_,post_step still,run_nil _⟩⟩) message
    change (s.messages ++ [message] ++ [message]).count message ≤ 1 at one
    rw [count_append,count_append,count_singleton_self] at one
    omega

/-- At most one summary of each run is added to a conversation exactly if each look that finds no event of a completed
    summary is right. -/
theorem one_summary_iff (settings : Settings) (records : Records) (labels : List (Label workers requests chats)) :
    (∀ before after t, labels = before ++ after → run (step settings records) (initial workers requests chats) before = some t →
        Secure settings records t) ↔
      Meets (step settings records) LooksRight (initial workers requests chats) labels := by
  have start : Sound (initial workers requests chats) :=
    ⟨nodup_nil,fun _ _ ⟨_,posting⟩ => (nomatch posting),fun _ _ _ ⟨_,posting⟩ => (nomatch posting)⟩
  refine secures_iff sound_secure sound_step ?_ start
  intro s label _ secure
  cases label with
  | handle c => exact looks_of_secure secure
  | _ => trivial

def sampleRecords : Records := ⟨fun _ => ⟨some 0,some 0,none⟩,fun _ => some 0⟩
def sampleSettings : Settings := ⟨60,60,2,1⟩
def claims (c : Fin 2) : List (Label 0 0 2) :=
  [.fleet (.claim c),.fleet (.take c []),.fleet (.claim c),.fleet (.take c [])]
/-- A worker dies between the message and the event, and its job is claimed again. -/
def deadWorker (c d : Fin 2) : List (Label 0 0 2) :=
  [.fleet (.backtest (.createRun 0)),
    .fleet (.backtest (.createRunJob ⟨0,0,0,.chatBacktestSummary,.missing,none,2⟩))] ++ claims c ++
    [.handle c,.handle c,.handle c,.post c,.fleet (.work c .crashed),.fleet (.backtest (.tick 61))] ++ claims d ++
    [.handle d,.handle d,.handle d,.post d]

theorem summary_twice : ¬ ∀ (labels : List (Label 0 0 2)) (t : State 0 0 2),
    run (step sampleSettings sampleRecords) (initial 0 0 2) labels = some t → AtMostOne t := by
  intro all
  have ends : (run (step sampleSettings sampleRecords) (initial 0 0 2) (deadWorker 0 1)).isSome := by decide +kernel
  have twice : ∀ t ∈ run (step sampleSettings sampleRecords) (initial 0 0 2) (deadWorker 0 1), ¬t.messages.count ⟨0,0⟩ ≤ 1 := by
    decide +kernel
  obtain ⟨t,reached⟩ := Option.isSome_iff_exists.mp ends
  exact twice t reached (all (deadWorker 0 1) t reached ⟨0,0⟩)

end Codebot.SummaryJobs
