import Codebot.ConversationMemories
import Codebot.GreedyPrefixes

/-!
The messages that a model reads of a conversation: the system prompt, the summary in the memory, the recent messages
and the current one. Of the last 12 of the history the recent messages are taken from the newest back, as long as they
fit what the others leave of the budget (`recentMessages_longest`).
-/
namespace Codebot.ConversationContexts
open Texts ConversationMemories GreedyPrefixes List

def contextHistoryLimit : Nat := 80
def recentMessageTarget : Nat := 12
def minOutputReserveTokens : Nat := 2000
/-- `_positive_int_env`, of the number that the variable is read as. -/
def positiveIntEnv (configured : Option Int) (default : Nat) : Nat :=
  match configured with
  | some value => if 0 < value then value.toNat else default
  | none => default
/-- `_input_budget_tokens`, of the number that the context window is configured as. -/
def inputBudgetTokens (configured : Option Int) : Nat :=
  let contextWindow := positiveIntEnv configured 32000
  let reserve := max minOutputReserveTokens (contextWindow / 4)
  max 1024 (contextWindow - reserve)
/-- A message for a model. -/
structure ModelMessage where
  role : Text
  content : Text
def systemMessage (content : Text) : ModelMessage := ⟨text "system",content⟩
def userMessage (content : Text) : ModelMessage := ⟨text "user",content⟩
def sent (message : Message) : ModelMessage := ⟨roleText message.role,message.content⟩
/-- `items[-limit:]` for a limit that is positive. -/
def newest {Item : Type} (limit : Nat) (items : List Item) : List Item := items.drop (items.length - limit)
/-- `_context_messages` without the current message. -/
def contextHistory (unicode : Unicode) (currentMessageId : Option Nat) (messages : List Message) : List Message :=
  contextMessages unicode (messages.filter fun message => currentMessageId ≠ some message.id)

/-- The loop of `_fit_recent_messages`, over the messages from the newest on. -/
def selectFitting (remaining : Nat) (selected : List ModelMessage) (used : Nat) : List Message → List ModelMessage
  | [] => selected
  | message :: rest =>
    let cost := estimateTokens message.content
    if !selected.isEmpty && remaining < used + cost then selected
    else if selected.isEmpty && remaining < cost then selected
    else selectFitting remaining (selected ++ [sent message]) (used + cost) rest

def fitRecentMessages (history : List Message) (currentUserMessage : Text) (baseTokens budgetTokens : Nat) : List ModelMessage :=
  let reserve := estimateTokens currentUserMessage
  let remaining := budgetTokens - baseTokens - reserve
  (selectFitting remaining [] 0 (newest recentMessageTarget history).reverse).reverse
def memoryPrompt (unicode : Unicode) (summary : Text) : Text :=
  text "Conversation memory summary for continuity. Treat this as internal context, not as a user-visible message.\n\n" ++
    strip unicode summary
structure ConversationContext where
  messages : List ModelMessage
  summaryUsed : Bool
  historyMessageCount : Nat
  estimatedInputTokens : Nat
  truncated : Bool
  priorContextText : Text
def tokens (messages : List ModelMessage) : Nat := total (fun message => estimateTokens message.content) messages
/-- The message with the summary in the memory, unless it is blank. -/
def memoryMessages (unicode : Unicode) (memory : Option Memory) : List ModelMessage :=
  match memory with
  | none => []
  | some memory => if (strip unicode memory.summary).isEmpty then [] else [systemMessage (memoryPrompt unicode memory.summary)]
/-- What the system prompt, the memory and the current message leave of the input budget. -/
def free (unicode : Unicode) (configured : Option Int) (memory : Option Memory) (currentUserMessage systemPrompt : Text) : Nat :=
  inputBudgetTokens configured - tokens (systemMessage systemPrompt :: memoryMessages unicode memory) - estimateTokens currentUserMessage

/-- `build`, with the memory and the stored messages. -/
def build (unicode : Unicode) (configured : Option Int) (memory : Option Memory) (stored : List Message)
    (currentMessageId : Option Nat) (currentUserMessage systemPrompt : Text) : ConversationContext :=
  let history := contextHistory unicode currentMessageId (newest contextHistoryLimit stored)
  let base := systemMessage systemPrompt :: memoryMessages unicode memory
  let recent := fitRecentMessages history currentUserMessage (tokens base) (inputBudgetTokens configured)
  let messages := base ++ recent ++ [userMessage currentUserMessage]
  { messages
    summaryUsed := (previousSummary unicode memory).isSome
    historyMessageCount := history.length
    estimatedInputTokens := tokens messages
    truncated := recent.length < history.length
    priorContextText := join (text "\n")
      ((previousSummary unicode memory).toList.map (text "memory: " ++ ·) ++
        recent.map fun message => message.role ++ text ": " ++ message.content) }

def storedTokens (messages : List Message) : Nat := total (fun message => estimateTokens message.content) messages
theorem tokens_sent (messages : List Message) : tokens (messages.map sent) = storedTokens messages := by
  rw [tokens,storedTokens,total,total,map_map]
  rfl
def recentMessages (history : List Message) (free : Nat) : List Message :=
  (fitting (fun message => estimateTokens message.content) free 0 (newest recentMessageTarget history).reverse).reverse

theorem selectFitting_eq (remaining : Nat) (selected : List ModelMessage) (used : Nat) (start : selected = [] → used = 0)
    (messages : List Message) :
    selectFitting remaining selected used messages =
      selected ++ (fitting (fun message => estimateTokens message.content) remaining used messages).map sent := by
  induction messages generalizing selected used with
  | nil => exact (append_nil selected).symm
  | cons message rest ih =>
    rw [selectFitting,fitting]
    cases selected with
    | nil =>
      obtain rfl := start rfl
      by_cases large : remaining < estimateTokens message.content
      · simp [large]
      · have next := ih ([] ++ [sent message]) (0 + estimateTokens message.content) (by simp)
        simpa [large] using next
    | cons first others =>
      by_cases large : remaining < used + estimateTokens message.content
      · simp [large]
      · have next := ih (first :: others ++ [sent message]) (used + estimateTokens message.content) (by simp)
        simpa [large] using next

theorem fitRecentMessages_eq (history : List Message) (currentUserMessage : Text) (baseTokens budgetTokens : Nat) :
    fitRecentMessages history currentUserMessage baseTokens budgetTokens =
      (recentMessages history (budgetTokens - baseTokens - estimateTokens currentUserMessage)).map sent := by
  rw [fitRecentMessages,selectFitting_eq _ _ _ (fun _ => rfl),nil_append,recentMessages,map_reverse]
/-- The longest part of the last messages of a history up to the newest that is no larger than what is free. -/
structure LongestFitting (history : List Message) (free : Nat) (recent : List Message) : Prop where
  last : recent <:+ newest recentMessageTarget history
  fits : storedTokens recent ≤ free
  longest : ∀ other, other <:+ newest recentMessageTarget history → storedTokens other ≤ free → other <:+ recent

/-- The recent messages are the longest part of the last ones up to the newest that fits. -/
theorem recentMessages_longest (history : List Message) (free : Nat) : LongestFitting history free (recentMessages history free) := by
  have front : fitting (fun message : Message => estimateTokens message.content) free 0 (newest recentMessageTarget history).reverse <+:
      (newest recentMessageTarget history).reverse := fitting_prefix
  refine ⟨?_,?_,?_⟩
  · rw [← reverse_reverse (newest recentMessageTarget history)]
    exact reverse_suffix.mpr front
  · rw [storedTokens,recentMessages,total_reverse]
    have taken := @fitting_fits _ (fun message : Message => estimateTokens message.content) free 0
      (newest recentMessageTarget history).reverse (Nat.zero_le free)
    rwa [Nat.zero_add] at taken
  · intro other isLast fits
    rw [← reverse_reverse other]
    refine reverse_suffix.mpr (fitting_longest (List.reverse_prefix.mpr isLast) ?_)
    rw [total_reverse,Nat.zero_add]
    exact fits

theorem build_messages (unicode : Unicode) (configured : Option Int) (memory : Option Memory) (stored : List Message)
    (currentMessageId : Option Nat) (currentUserMessage systemPrompt : Text) :
    (build unicode configured memory stored currentMessageId currentUserMessage systemPrompt).messages =
      systemMessage systemPrompt :: memoryMessages unicode memory ++
        (recentMessages (contextHistory unicode currentMessageId (newest contextHistoryLimit stored))
          (free unicode configured memory currentUserMessage systemPrompt)).map sent ++ [userMessage currentUserMessage] := by
  rw [build,fitRecentMessages_eq]
  rfl

theorem LongestFitting.unique {history : List Message} {free : Nat} {recent other : List Message}
    (longest : LongestFitting history free recent) (also : LongestFitting history free other) : recent = other :=
  (also.longest recent longest.last longest.fits).eq_of_length_le
    ((longest.longest other also.last also.fits).length_le)

end Codebot.ConversationContexts
