import Codebot.ConversationContexts

/-!
The size of what a model reads of a conversation. The builder fits the recent messages to the input budget; then the
orchestrator writes what it knows of the latest backtest, the strategy, the tasks and the market into the system
prompt, whatever the builder has left (`within_iff`).
-/
namespace Codebot.InputBudgets
open Texts ConversationMemories ConversationContexts GreedyPrefixes List

def insertSystemContext (messages : List ModelMessage) (content : Text) : List ModelMessage :=
  match messages with
  | [] => [systemMessage content]
  | first :: rest =>
    if first.role == text "system" then { first with content := first.content ++ text "\n\n" ++ content } :: rest
    else first :: systemMessage content :: rest
/-- The blocks that `stream_chat` finds to add to the prompt. -/
structure Found where
  backtestLiveContext : Option Text := none
  durableArtifactContext : Text := []
  workflowTaskContext : Option Text := none
  marketContext : Option Text := none
def tagged (tag content : Text) : Text :=
  text "<" ++ tag ++ text ">\n" ++ content ++ text "\n</" ++ tag ++ text ">"
/-- A context with a block in the system prompt, the text that its size is estimated of and the text that is
    remembered of it. -/
def add (context : ConversationContext) (block estimated prior : Text) : ConversationContext :=
  { context with
    messages := insertSystemContext context.messages block
    estimatedInputTokens := context.estimatedInputTokens + estimateTokens estimated
    priorContextText := context.priorContextText ++ text "\n" ++ prior }
def addBacktest (context : ConversationContext) : Option Text → ConversationContext
  | none => context
  | some live => add context live live live
def addArtifact (context : ConversationContext) (durable : Text) : ConversationContext :=
  if durable.isEmpty then context else add context (tagged (text "current_strategy_artifact") durable) durable durable
def addTasks (context : ConversationContext) : Option Text → ConversationContext
  | none => context
  | some values =>
    if values.isEmpty then context
    else
      let block := tagged (text "workflow_task_values") values
      add context block block values
def addMarket (context : ConversationContext) : Option Text → ConversationContext
  | none => context
  | some market => add context (tagged (text "market_data") market) market market
/-- The context that `stream_chat` hands to the provider. -/
def chatContext (context : ConversationContext) (found : Found) : ConversationContext :=
  addMarket (addTasks (addArtifact (addBacktest context found.backtestLiveContext) found.durableArtifactContext)
    found.workflowTaskContext) found.marketContext
/-- The blocks that are added, in order. -/
def blocks (found : Found) : List Text :=
  found.backtestLiveContext.toList ++
    (if found.durableArtifactContext.isEmpty then [] else [tagged (text "current_strategy_artifact") found.durableArtifactContext]) ++
    ((found.workflowTaskContext.filter fun values : Text => !values.isEmpty).toList.map (tagged (text "workflow_task_values"))) ++
    found.marketContext.toList.map (tagged (text "market_data"))
def withBlocks (systemPrompt : Text) (added : List Text) : Text :=
  systemPrompt ++ added.flatMap fun block => text "\n\n" ++ block
theorem insert_system (systemPrompt : Text) (added : List Text) (rest : List ModelMessage) (block : Text) :
    insertSystemContext (systemMessage (withBlocks systemPrompt added) :: rest) block =
      systemMessage (withBlocks systemPrompt (added ++ [block])) :: rest := by
  simp [insertSystemContext,systemMessage,withBlocks]
def Holds (systemPrompt : Text) (rest : List ModelMessage) (added : List Text) (context : ConversationContext) : Prop :=
  context.messages = systemMessage (withBlocks systemPrompt added) :: rest

section Blocks
variable {systemPrompt : Text} {rest : List ModelMessage} {added : List Text} {context : ConversationContext}

theorem Holds.add (holds : Holds systemPrompt rest added context) (block estimated prior : Text) :
    Holds systemPrompt rest (added ++ [block]) (add context block estimated prior) := by
  have inserted := insert_system systemPrompt added rest block
  rw [← holds] at inserted
  exact inserted
theorem Holds.none (holds : Holds systemPrompt rest added context) : Holds systemPrompt rest (added ++ []) context := by
  rwa [append_nil]
theorem addBacktest_holds (holds : Holds systemPrompt rest added context) (live : Option Text) :
    Holds systemPrompt rest (added ++ live.toList) (addBacktest context live) := by
  cases live with
  | none => exact holds.none
  | some live => exact holds.add live live live
theorem addArtifact_holds (holds : Holds systemPrompt rest added context) (durable : Text) :
    Holds systemPrompt rest (added ++ if durable.isEmpty then [] else [tagged (text "current_strategy_artifact") durable])
      (addArtifact context durable) := by
  rw [addArtifact]
  split
  · exact holds.none
  · exact holds.add _ _ _

theorem addTasks_holds (holds : Holds systemPrompt rest added context) (values : Option Text) :
    Holds systemPrompt rest
      (added ++ (values.filter fun values : Text => !values.isEmpty).toList.map (tagged (text "workflow_task_values")))
      (addTasks context values) := by
  cases values with
  | none => exact holds.none
  | some values =>
    rw [addTasks]
    split
    · rename_i empty
      rw [Option.filter_some_neg (by simpa using empty)]
      exact holds.none
    · rename_i written
      rw [Option.filter_some_pos (by simpa using written)]
      exact holds.add _ _ _

theorem addMarket_holds (holds : Holds systemPrompt rest added context) (market : Option Text) :
    Holds systemPrompt rest (added ++ market.toList.map (tagged (text "market_data"))) (addMarket context market) := by
  cases market with
  | none => exact holds.none
  | some market => exact holds.add _ _ _
theorem chatContext_holds (holds : Holds systemPrompt rest [] context) (found : Found) :
    Holds systemPrompt rest (blocks found) (chatContext context found) :=
  addMarket_holds (addTasks_holds (addArtifact_holds (addBacktest_holds holds _) _) _) _

end Blocks

section Budget
variable {unicode : Unicode} {configured : Option Int} {memory : Option Memory} {stored : List Message}
  {currentMessageId : Option Nat} {currentUserMessage systemPrompt : Text}

/-- The system prompt, the memory and the current message alone fit the input budget. -/
def FitsAlone (unicode : Unicode) (configured : Option Int) (memory : Option Memory) (currentUserMessage systemPrompt : Text) : Prop :=
  tokens (systemMessage systemPrompt :: memoryMessages unicode memory ++ [userMessage currentUserMessage]) ≤ inputBudgetTokens configured

/-- The recent messages are the longest part of the last ones that fits, and what is handed to the provider is
    within the input budget. -/
structure Within (unicode : Unicode) (configured : Option Int) (memory : Option Memory) (stored : List Message)
    (currentMessageId : Option Nat) (currentUserMessage systemPrompt : Text) (found : Found) : Prop where
  longest : ∃ recent,
    LongestFitting (contextHistory unicode currentMessageId (newest contextHistoryLimit stored))
      (free unicode configured memory currentUserMessage systemPrompt) recent ∧
    fitRecentMessages (contextHistory unicode currentMessageId (newest contextHistoryLimit stored)) currentUserMessage
      (tokens (systemMessage systemPrompt :: memoryMessages unicode memory)) (inputBudgetTokens configured) = recent.map sent
  size : tokens (chatContext (build unicode configured memory stored currentMessageId currentUserMessage systemPrompt) found).messages ≤
    inputBudgetTokens configured

/-- The longest part of the last messages that fits without the blocks still fits once they are in the system
    prompt. -/
def StillFits (unicode : Unicode) (configured : Option Int) (memory : Option Memory) (stored : List Message)
    (currentMessageId : Option Nat) (currentUserMessage systemPrompt : Text) (found : Found) : Prop :=
  ∃ recent,
    LongestFitting (contextHistory unicode currentMessageId (newest contextHistoryLimit stored))
      (free unicode configured memory currentUserMessage systemPrompt) recent ∧
    estimateTokens (withBlocks systemPrompt (blocks found)) + tokens (memoryMessages unicode memory) + storedTokens recent +
      estimateTokens currentUserMessage ≤ inputBudgetTokens configured

theorem tokens_append (messages others : List ModelMessage) : tokens (messages ++ others) = tokens messages + tokens others :=
  total_append others
theorem tokens_system (content : Text) (messages : List ModelMessage) :
    tokens (systemMessage content :: messages) = estimateTokens content + tokens messages :=
  total_cons _
theorem tokens_user (content : Text) : tokens [userMessage content] = estimateTokens content :=
  total_cons _

theorem chatContext_tokens {recent : List Message} (found : Found)
    (isRecent : fitRecentMessages (contextHistory unicode currentMessageId (newest contextHistoryLimit stored)) currentUserMessage
      (tokens (systemMessage systemPrompt :: memoryMessages unicode memory)) (inputBudgetTokens configured) = recent.map sent) :
    tokens (chatContext (build unicode configured memory stored currentMessageId currentUserMessage systemPrompt) found).messages =
      estimateTokens (withBlocks systemPrompt (blocks found)) + tokens (memoryMessages unicode memory) + storedTokens recent +
        estimateTokens currentUserMessage := by
  have begins : Holds systemPrompt (memoryMessages unicode memory ++ recent.map sent ++ [userMessage currentUserMessage]) []
      (build unicode configured memory stored currentMessageId currentUserMessage systemPrompt) := by
    rw [Holds,build,isRecent,withBlocks,flatMap_nil,append_nil]
    rfl
  rw [chatContext_holds begins found,tokens_system,tokens_append,tokens_append,tokens_sent,tokens_user]
  omega

theorem within_stillFits (found : Found) :
    Within unicode configured memory stored currentMessageId currentUserMessage systemPrompt found ↔
      StillFits unicode configured memory stored currentMessageId currentUserMessage systemPrompt found := by
  have longest := recentMessages_longest (contextHistory unicode currentMessageId (newest contextHistoryLimit stored))
    (free unicode configured memory currentUserMessage systemPrompt)
  have isRecent := fitRecentMessages_eq (contextHistory unicode currentMessageId (newest contextHistoryLimit stored)) currentUserMessage
    (tokens (systemMessage systemPrompt :: memoryMessages unicode memory)) (inputBudgetTokens configured)
  constructor
  · intro within
    have size := within.size
    rw [chatContext_tokens found isRecent] at size
    exact ⟨_,longest,size⟩
  · rintro ⟨other,also,fits⟩
    obtain rfl := longest.unique also
    refine ⟨⟨_,longest,isRecent⟩,?_⟩
    rw [chatContext_tokens found isRecent]
    exact fits

theorem stillFits_alone {found : Found} (nothing : blocks found = [])
    (alone : FitsAlone unicode configured memory currentUserMessage systemPrompt) :
    StillFits unicode configured memory stored currentMessageId currentUserMessage systemPrompt found := by
  obtain ⟨recent,longest⟩ : ∃ recent, LongestFitting (contextHistory unicode currentMessageId (newest contextHistoryLimit stored))
      (free unicode configured memory currentUserMessage systemPrompt) recent := ⟨_,recentMessages_longest _ _⟩
  refine ⟨recent,longest,?_⟩
  have fits := longest.fits
  rw [FitsAlone,tokens_append,tokens_user] at alone
  rw [free] at fits
  rw [tokens_system] at alone fits
  rw [nothing,withBlocks,flatMap_nil,append_nil]
  omega

/-- Where the fixed messages alone fit, the recent messages are the longest that fit and the whole is within the budget
    exactly if these still fit with the blocks in the prompt. -/
theorem within_iff (unicode : Unicode) (configured : Option Int) (memory : Option Memory) (stored : List Message)
    (currentMessageId : Option Nat) (currentUserMessage systemPrompt : Text) (found : Found) :
    ((FitsAlone unicode configured memory currentUserMessage systemPrompt →
        Within unicode configured memory stored currentMessageId currentUserMessage systemPrompt found) ↔
      (FitsAlone unicode configured memory currentUserMessage systemPrompt →
        StillFits unicode configured memory stored currentMessageId currentUserMessage systemPrompt found)) ∧
      (blocks found = [] → FitsAlone unicode configured memory currentUserMessage systemPrompt →
        StillFits unicode configured memory stored currentMessageId currentUserMessage systemPrompt found) :=
  ⟨imp_congr_right fun _ => within_stillFits found,fun nothing alone => stillFits_alone nothing alone⟩

end Budget

theorem length_tagged (tag content : Text) : content.length ≤ (tagged tag content).length := by
  simp only [tagged,length_append]
  omega
theorem length_withBlocks {added : List Text} {block : Text} (isAdded : block ∈ added) (systemPrompt : Text) :
    block.length ≤ (withBlocks systemPrompt added).length := by
  obtain ⟨before,after,rfl⟩ := append_of_mem isAdded
  simp only [withBlocks,flatMap_append,flatMap_cons,length_append]
  omega
theorem mem_blocks {values : Text} (written : values ≠ []) :
    tagged (text "workflow_task_values") values ∈ blocks { workflowTaskContext := some values } := by
  simp [blocks,Option.filter_some_pos,written]
def longValue : Text := text "Durable workflow task values:\n- risk_rules: " ++ List.replicate 100000 120

/-- A new conversation of two short texts fits by itself, and not with the long value. -/
theorem longValue_over :
    ¬(FitsAlone ascii none none (text "Continue.") (text "You are a copilot.") →
      Within ascii none none [] none (text "Continue.") (text "You are a copilot.") { workflowTaskContext := some longValue }) := by
  intro always
  have alone : FitsAlone ascii none none (text "Continue.") (text "You are a copilot.") := by
    unfold FitsAlone
    decide
  obtain ⟨recent,_,fits⟩ := (within_stillFits _).mp (always alone)
  have length : 100000 ≤ longValue.length := by
    rw [longValue,length_append,length_replicate]
    exact Nat.le_add_left _ _
  have written : longValue ≠ [] := by
    intro empty
    rw [empty] at length
    cases length
  have inTag := length_tagged (text "workflow_task_values") longValue
  have inPrompt := length_withBlocks (mem_blocks written) (text "You are a copilot.")
  have budget : inputBudgetTokens none = 24000 := by decide
  rw [budget,estimateTokens] at fits
  omega

end Codebot.InputBudgets
