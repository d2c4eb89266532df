import Codebot.ConversationContexts
import Mathlib.Data.List.Infix
import Mathlib.Data.List.TakeWhile
import Mathlib.Data.List.Perm.Subperm

/-!
The turns of a conversation and what the model reads of them. A run builds its context, writes messages, and has the
conversation compacted in the end if 20 messages or more are not covered by the memory; the builder sends at most 12
messages of the newest 80 (`windows_iff`).
-/
namespace Codebot.RecentWindows
open Texts ConversationMemories ConversationContexts List

/-- The settings of a compaction, and the context window. -/
structure ChatSettings extends Settings where
  configured : Option Int

/-- A run: the messages before it builds, its own, those it writes, and the summary that the model answers. -/
structure Run where
  arriving : List Message
  currentMessageId : Option Nat
  currentUserMessage : Text
  systemPrompt : Text
  produced : List Message
  summary : Text
  answered : summary ≠ []

/-- A conversation: runs whose messages have ids of their own. -/
structure Conversation where
  runs : List Run
  distinct : (ids (runs.flatMap fun run => run.arriving ++ run.produced)).Nodup
/-- The stored messages of a conversation, and its memory. -/
structure Chat where
  messages : List Message
  memory : Option Memory

section Running
variable (settings : ChatSettings)

/-- `_context_messages` of the stored messages. -/
def Chat.context (chat : Chat) : List Message := contextMessages settings.unicode chat.messages
/-- `_messages_for_compaction`. -/
def Chat.uncovered (chat : Chat) : List Message := messagesForCompaction (chat.context settings) (coveredOf chat.memory)

/-- `_maybe_compact_conversation`, where the model answers. -/
def compact (summary : Text) (chat : Chat) : Chat :=
  let messages := chat.uncovered settings
  if shouldCompact settings.toSettings messages && !messages.isEmpty then
    let source : Source := ⟨previousSummary settings.unicode chat.memory,coveredOf chat.memory,messages⟩
    let tokens := estimateTokens (settings.summaryPrompt (transcript source))
    { chat with memory := some (upsertConversationMemory chat.memory summary source.last tokens) }
  else chat

def Run.turn (run : Run) (chat : Chat) : Chat := { chat with messages := chat.messages ++ run.arriving }
def Run.after (run : Run) (chat : Chat) : Chat :=
  compact settings run.summary { run.turn chat with messages := (run.turn chat).messages ++ run.produced }
def turns (chat : Chat) : List Run → List (Chat × Run)
  | [] => []
  | run :: rest => (run.turn chat,run) :: turns (run.after settings chat) rest
def start : Chat := ⟨[],none⟩
def history (chat : Chat) (run : Run) : List Message :=
  contextHistory settings.unicode run.currentMessageId (newest contextHistoryLimit chat.messages)
def room (chat : Chat) (run : Run) : Nat :=
  free settings.unicode settings.configured chat.memory run.currentUserMessage run.systemPrompt
def Fits (chat : Chat) (run : Run) : Prop := storedTokens (newest recentMessageTarget (history settings chat run)) ≤ room settings chat run
instance (chat : Chat) (run : Run) : Decidable (Fits settings chat run) :=
  inferInstanceAs (Decidable (storedTokens (newest recentMessageTarget (history settings chat run)) ≤ room settings chat run))
def Covered (context : List Message) (covered : Option Nat) (message : Message) : Prop :=
  ∃ before last after, context = before ++ last :: after ∧ covered = some last.id ∧ message ∈ before ++ [last]
def Chat.earlier (chat : Chat) (run : Run) : List Message :=
  contextHistory settings.unicode run.currentMessageId chat.messages
/-- Of the history, the builder sends the last messages. -/
structure Sends (chat : Chat) (run : Run) (recent : List Message) : Prop where
  last : recent <:+ history settings chat run
  messages : (build settings.unicode settings.configured chat.memory chat.messages run.currentMessageId run.currentUserMessage
      run.systemPrompt).messages = systemMessage run.systemPrompt :: memoryMessages settings.unicode chat.memory ++
    recent.map sent ++ [userMessage run.currentUserMessage]
/-- Each earlier message is covered or sent. -/
def NoGap (chat : Chat) (run : Run) : Prop :=
  Fits settings chat run → ∃ recent, Sends settings chat run recent ∧
    ∀ message ∈ chat.earlier settings run, Covered (chat.context settings) (coveredOf chat.memory) message ∨ message ∈ recent
def unsummarized (chat : Chat) (run : Run) : List Message :=
  (chat.uncovered settings).filter fun message => run.currentMessageId ≠ some message.id
/-- Where the last messages fit the budget, no more are left uncovered than are sent, and none that is not in
    the history. -/
def Near (chat : Chat) (run : Run) : Prop :=
  Fits settings chat run → (unsummarized settings chat run).length ≤ recentMessageTarget ∧
    ∀ message ∈ unsummarized settings chat run, message ∈ history settings chat run

end Running

theorem ids_nodup {messages : List Message} (distinct : (ids messages).Nodup) : messages.Nodup := List.Nodup.of_map _ distinct

theorem messagesForCompaction_after {before after : List Message} {last : Message} (distinct : (ids (before ++ last :: after)).Nodup) :
    messagesForCompaction (before ++ last :: after) (some last.id) = after := by
  have found : (before ++ last :: after).any (·.id = last.id) = true := by simp
  have others : ∀ message ∈ before, decide (message.id ≠ last.id) = true := by
    intro message member
    rw [ids,map_append,map_cons] at distinct
    have apart := (nodup_append.mp distinct).2.2 message.id (mem_map_of_mem member) last.id mem_cons_self
    exact decide_eq_true apart
  rw [messagesForCompaction,if_pos found,dropWhile_append_of_pos others,dropWhile_cons_of_neg (by simp),tail_cons]

theorem messagesForCompaction_suffix (context : List Message) (covered : Option Nat) :
    messagesForCompaction context covered <:+ context := by
  cases covered with
  | none => exact suffix_rfl
  | some id =>
    rw [messagesForCompaction]
    split
    · exact (tail_suffix _).trans (dropWhile_suffix _)
    · exact suffix_rfl

theorem covered_iff {context : List Message} {covered : Option Nat} {message : Message} (distinct : (ids context).Nodup)
    (member : message ∈ context) : Covered context covered message ↔ message ∉ messagesForCompaction context covered := by
  constructor
  · rintro ⟨before,last,after,rfl,rfl,early⟩
    rw [messagesForCompaction_after distinct]
    intro late
    have apart := ids_nodup distinct
    rw [append_cons] at apart
    exact (nodup_append.mp apart).2.2 message early message late rfl
  · intro early
    cases covered with
    | none => exact absurd member early
    | some id =>
      by_cases known : id ∈ ids context
      · obtain ⟨last,isLast,rfl⟩ := mem_map.mp known
        obtain ⟨before,after,rfl⟩ := append_of_mem isLast
        rw [messagesForCompaction_after distinct] at early
        refine ⟨before,last,after,rfl,rfl,?_⟩
        rw [append_cons] at member
        exact (mem_append.mp member).resolve_right early
      · have missing : ¬ context.any (·.id = id) = true := by
          intro found
          obtain ⟨last,isLast,same⟩ := any_eq_true.mp found
          exact known (mem_map.mpr ⟨last,isLast,of_decide_eq_true same⟩)
        rw [messagesForCompaction,if_neg missing] at early
        exact absurd member early

theorem contextHistory_eq (unicode : Unicode) (currentMessageId : Option Nat) (messages : List Message) :
    contextHistory unicode currentMessageId messages =
      (contextMessages unicode messages).filter fun message => currentMessageId ≠ some message.id := by
  rw [contextHistory,contextMessages,contextMessages,filterMap_filter,filter_filterMap]
  congr 1
  funext message
  by_cases blank : message.role = .other ∨ strip unicode message.content = []
  · simp [blank]
  · by_cases current : currentMessageId = some message.id <;> simp [blank,current,Option.filter_some]

theorem newest_suffix {Item : Type} (limit : Nat) (items : List Item) : newest limit items <:+ items := drop_suffix _ _
theorem newest_length {Item : Type} (limit : Nat) (items : List Item) : (newest limit items).length = min limit items.length := by
  rw [newest,length_drop]
  omega

theorem subset_newest_iff {Item : Type} {whole part items : List Item} (distinct : whole.Nodup) (isPart : part <:+ whole)
    (isLast : items <:+ whole) (limit : Nat) :
    (∀ item ∈ part, item ∈ newest limit items) ↔ part.length ≤ limit ∧ ∀ item ∈ part, item ∈ items := by
  have partDistinct := distinct.sublist isPart.sublist
  constructor
  · intro within
    have length := (partDistinct.subperm within).length_le
    rw [newest_length] at length
    exact ⟨by omega,fun item member => (newest_suffix limit items).subset (within item member)⟩
  · rintro ⟨few,within⟩
    have length := (partDistinct.subperm within).length_le
    have inside := suffix_of_suffix_length_le isPart isLast length
    have last : part <:+ newest limit items := by
      refine suffix_of_suffix_length_le inside (newest_suffix limit items) ?_
      rw [newest_length]
      omega
    exact fun item member => last.subset member

section Turn
variable {settings : ChatSettings} {chat : Chat} {run : Run}

theorem mem_earlier {message : Message} : message ∈ chat.earlier settings run ↔
    message ∈ chat.context settings ∧ run.currentMessageId ≠ some message.id := by
  rw [Chat.earlier,contextHistory_eq,mem_filter,decide_eq_true_iff]
  rfl
theorem mem_unsummarized {message : Message} : message ∈ unsummarized settings chat run ↔
    message ∈ chat.uncovered settings ∧ run.currentMessageId ≠ some message.id := by
  rw [unsummarized,mem_filter,decide_eq_true_iff]
theorem unsummarized_suffix : unsummarized settings chat run <:+ chat.earlier settings run := by
  rw [Chat.earlier,contextHistory_eq]
  exact (messagesForCompaction_suffix _ _).filter _
theorem history_suffix : history settings chat run <:+ chat.earlier settings run :=
  ((newest_suffix _ _).filter _).filterMap _

theorem sends_iff {recent : List Message} :
    Sends settings chat run recent ↔ recent = recentMessages (history settings chat run) (room settings chat run) := by
  have built := build_messages settings.unicode settings.configured chat.memory chat.messages run.currentMessageId
    run.currentUserMessage run.systemPrompt
  have last := (recentMessages_longest (history settings chat run) (room settings chat run)).last.trans (newest_suffix _ _)
  constructor
  · intro sends
    have same := sends.messages.symm.trans built
    rw [append_cancel_right_eq,append_cancel_left_eq] at same
    have length := congrArg List.length same
    rw [length_map,length_map] at length
    exact (suffix_of_suffix_length_le sends.last last length.le).eq_of_length length
  · rintro rfl
    exact ⟨last,built⟩

theorem recentMessages_fit (fits : Fits settings chat run) :
    recentMessages (history settings chat run) (room settings chat run) = newest recentMessageTarget (history settings chat run) := by
  have taken := recentMessages_longest (history settings chat run) (room settings chat run)
  exact taken.last.eq_of_length_le (taken.longest _ suffix_rfl fits).length_le

theorem noGap_iff (distinct : (ids chat.messages).Nodup) : NoGap settings chat run ↔ Near settings chat run := by
  have known : (ids (chat.context settings)).Nodup := distinct.sublist (ids_context_sublist _ _)
  have apart : (chat.earlier settings run).Nodup := by
    rw [Chat.earlier,contextHistory_eq]
    exact (ids_nodup known).filter _
  rw [NoGap,Near]
  refine imp_congr_right fun fits => ?_
  simp only [sends_iff,exists_eq_left]
  rw [recentMessages_fit fits,← subset_newest_iff apart unsummarized_suffix history_suffix]
  constructor
  · intro all message uncovered
    have member := unsummarized_suffix.subset uncovered
    refine (all message member).resolve_left fun covered => ?_
    exact (covered_iff known (mem_earlier.mp member).1).mp covered (mem_unsummarized.mp uncovered).1
  · intro within message member
    obtain ⟨inContext,other⟩ := mem_earlier.mp member
    by_cases uncovered : message ∈ chat.uncovered settings
    · exact .inr (within message (mem_unsummarized.mpr ⟨uncovered,other⟩))
    · exact .inl ((covered_iff known inContext).mpr uncovered)

end Turn

theorem compact_messages (settings : ChatSettings) (summary : Text) (chat : Chat) :
    (compact settings summary chat).messages = chat.messages := by
  rw [compact]
  split <;> rfl
theorem after_messages (settings : ChatSettings) (run : Run) (chat : Chat) :
    (run.after settings chat).messages = chat.messages ++ (run.arriving ++ run.produced) := by
  rw [Run.after,compact_messages,← append_assoc]
  rfl

theorem turn_first {settings : ChatSettings} {chat : Chat} {runs : List Run} {turn : Chat × Run} (member : turn ∈ turns settings chat runs) :
    turn.1.messages <+: chat.messages ++ runs.flatMap fun run => run.arriving ++ run.produced := by
  induction runs generalizing chat with
  | nil => cases member
  | cons run rest ih =>
    rw [flatMap_cons]
    rcases mem_cons.mp member with rfl | later
    · refine ⟨run.produced ++ rest.flatMap fun run => run.arriving ++ run.produced,?_⟩
      simp [Run.turn]
    · have front := ih later
      rwa [after_messages,append_assoc] at front

theorem distinct_turn {settings : ChatSettings} {conversation : Conversation} {turn : Chat × Run}
    (member : turn ∈ turns settings start conversation.runs) : (ids turn.1.messages).Nodup :=
  conversation.distinct.sublist ((turn_first member).sublist.map _)
/-- At every turn each earlier message is covered or sent exactly if as many are not covered as are sent at most, all of
    them in the history. -/
theorem windows_iff (settings : ChatSettings) (conversation : Conversation) :
    (∀ turn ∈ turns settings start conversation.runs, NoGap settings turn.1 turn.2) ↔
      ∀ turn ∈ turns settings start conversation.runs, Near settings turn.1 turn.2 :=
  forall₂_congr fun _ member => noGap_iff (distinct_turn member)
def defaults : ChatSettings where
  unicode := ascii
  thresholdMessages := 20
  thresholdTokens := 12000
  summaryPrompt t := t
  configured := none
theorem brief_answered : text "brief" ≠ [] := by decide

/-- A run with a short question and a short answer. -/
def exchange (n : Nat) : Run where
  arriving := [⟨2 * n,.user,text "why"⟩]
  currentMessageId := some (2 * n)
  currentUserMessage := text "why"
  systemPrompt := text "help"
  produced := [⟨2 * n + 1,.assistant,text "so"⟩]
  summary := text "brief"
  answered := brief_answered

theorem exchanges_distinct : (ids (((List.range 8).map exchange).flatMap fun run => run.arriving ++ run.produced)).Nodup := by decide
def exchanges : Conversation := ⟨(List.range 8).map exchange,exchanges_distinct⟩
def eighth : Chat := (exchange 7).turn ⟨((List.range 7).map exchange).flatMap fun run => run.arriving ++ run.produced,none⟩

/-- Fourteen messages are not covered, and twelve are sent. -/
theorem eighth_forgets : ¬ ∀ (settings : ChatSettings) (conversation : Conversation),
    ∀ turn ∈ turns settings start conversation.runs, NoGap settings turn.1 turn.2 := by
  intro all
  have reached : (turns defaults start exchanges.runs)[7]? = some (eighth,exchange 7) := rfl
  have member := mem_of_getElem? reached
  have near := (noGap_iff (distinct_turn member)).mp (all defaults exchanges _ member)
  have many : (unsummarized defaults eighth (exchange 7)).length = 14 := by decide
  have few := (near (by decide)).1
  rw [many] at few
  exact absurd few (by decide)

end Codebot.RecentWindows
