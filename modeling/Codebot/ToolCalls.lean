import Codebot.JsonTexts
import Codebot.Runs

/-!
The tool calls of one run: `_execute_tool_call` for the calls of the provider, and within a call that succeeded the
calls of `_run_backtest_auto_chain`. One `try` covers all that comes after the start of a call, so that a follow-up
that fails is handled as a failure of the tool, also after its completion.

`execute_tool`, the gate but for its budget, and the effects of the follow-ups elsewhere are the environment.
-/
namespace Codebot.ToolCalls
open Texts JsonTexts

abbrev Dict := List (Text × Json)
def item (dict : Dict) (key : String) : Option Json := (dict.find? fun entry => entry.1 == text key).map Prod.snd
/-- A call that was proposed, by the provider or by the chain. -/
structure Call where
  id : Nat
  toolId : String
  arguments : Dict
  autoChainAllowed : Bool
/-- What the chain reads of an entry of `completed_tool_results`. -/
structure ToolResult where
  toolId : String
  strategySpec : Option Dict
  pineCode : Option Text

/-- `RunBudget`, without its tokens. -/
structure RunBudget where
  maxToolCalls : Nat
  executedToolCalls : Nat
  blocked : Bool
  completedToolIds : List String
  completedToolResults : List ToolResult
  autoChainStarted : Bool
  autoChainStepsCompleted : Nat
  autoChainAllowed : Bool

def RunBudget.allowTool (budget : RunBudget) : Bool := decide (budget.executedToolCalls < budget.maxToolCalls)
/-- The prompt of the run, the planner's switch and bound, and the spaces that `strip` removes. -/
structure Settings where
  unicode : Unicode
  userMessage : Text
  autoChainEnabled : Bool
  autoChainMaxSteps : Nat
/-- `_dict_value`, for a dictionary that is not empty. -/
def dictValue : Option Json → Option Dict
  | some (.object entries) => if entries.isEmpty then none else some entries
  | _ => none
def stringValue (unicode : Unicode) : Option Json → Option Text
  | some (.text value) => if (strip unicode value).isEmpty then none else some value
  | _ => none
def toolSuccessResult (unicode : Unicode) (toolId : String) (arguments output : Dict) : ToolResult :=
  if toolId = "generate_pine" ∨ toolId = "create_backtest_plan" then
    ⟨toolId,dictValue (item arguments "strategy_spec"),stringValue unicode (item output "pine_code")⟩
  else ⟨toolId,none,none⟩
/-- `BACKTEST_AUTO_CHAIN_ALLOWLIST`. -/
def autoChainAllowlist : List String :=
  ["generate_pine","create_backtest_plan","run_backtest_preview","get_backtest_summary"]
def shouldStart (settings : Settings) (budget : RunBudget) : Bool :=
  settings.autoChainEnabled && !budget.completedToolIds.contains "run_backtest_preview" && budget.autoChainAllowed
def latestToolResult (results : List ToolResult) (toolId : String) : Option ToolResult :=
  results.reverse.find? fun result => result.toolId == toolId

/-- `next_step`, the tool and its arguments. -/
def nextStep (settings : Settings) (budget : RunBudget) : Option (String × Dict) :=
  if max 1 settings.autoChainMaxSteps ≤ budget.autoChainStepsCompleted || !shouldStart settings budget then none
  else if budget.completedToolIds.getLast?.any fun last => !autoChainAllowlist.contains last then none
  else if budget.completedToolIds.contains "generate_pine" && !budget.completedToolIds.contains "create_backtest_plan" then
    match latestToolResult budget.completedToolResults "generate_pine" with
    | some ⟨_,some strategySpec,some pineCode⟩ =>
      some ("create_backtest_plan",[(text "prompt",.text settings.userMessage),(text "strategy_spec",.object strategySpec),
        (text "pine_code",.text pineCode)])
    | _ => none
  else none

/-- The codes of the findings of a gate. -/
inductive Code
  | authDenied | toolNotAllowed | schemaInvalid | budgetExceeded | securityControl | policyViolation
deriving DecidableEq
/-- `_gate_tool`, with the findings of what it checks before the budget and after it. -/
def gateTool (budget : RunBudget) (before after : Option Code) : Option Code :=
  before.or (if budget.allowTool then after else some .budgetExceeded)
/-- The statuses of a record of `tool_calls`. -/
inductive Status
  | running | completed | failed
deriving DecidableEq

/-- The events of the run, and the executions of its tools. -/
inductive Event
  | proposed (id : Nat)
  | rejected (id : Nat)
  | validated (id : Nat)
  | started (id : Nat)
  | executed (id : Nat) (raised : Bool)
  | completed (id : Nat) (status : Status)
  | approvalRequired (id : Nat)
  | chainStarted
  | stepCompleted (id : Nat)
  | waiting (id : Nat)
  | chainFailed (id : Nat)
deriving DecidableEq

/-- A call with the call in whose chain it is. -/
structure Task where
  call : Call
  chainOf : Option Call
/-- What follows a tool that returned, in the order of the source. -/
inductive FollowUp
  | outputSummary | completeToolCall | successResult | runEvents | usageLedger | executedAudit | completedEvent
  | approvalRequired | workflow | suggestions
deriving DecidableEq

inductive Phase
  | idle
  | gate (task : Task)
  | tool (task : Task)
  | follow (task : Task) (output : Dict) (point : FollowUp)
  | plan (call : Call)
  | report (call step : Call) (raised : Bool)
  | close (task : Task)
  | ended

structure State where
  budget : RunBudget
  proposals : Nat
  records : Nat → Option Status
  log : List Event
  phase : Phase
/-- What `execute_tool` does, if the events before it could be read. -/
inductive Outcome
  | unread
  | raised
  | returned (output : Dict)

inductive Label
  | call (toolId : String) (arguments : Dict) (chain : Bool)
  | gate (before after : Option Code)
  | tool (outcome : Outcome)
  | follow (works : Bool)
  | plan (written : Bool)
  | report (written : Bool)
  | close (works : Bool)
  | stop

def initial (maxToolCalls : Nat) (autoChainAllowed : Bool) : State where
  budget := ⟨maxToolCalls,0,false,[],[],false,0,autoChainAllowed⟩
  proposals := 0
  records _ := none
  log := []
  phase := .idle
def propose (s : State) (toolId : String) (arguments : Dict) (chain : Bool) (chainOf : Option Call) : State :=
  { s with
    proposals := s.proposals + 1
    log := s.log ++ [.proposed s.proposals]
    phase := .gate ⟨⟨s.proposals,toolId,arguments,chain⟩,chainOf⟩ }
/-- A call that its gate rejects blocks the run and returns. -/
def reject (s : State) (task : Task) : State :=
  { s with
    budget := { s.budget with blocked := true }
    log := s.log ++ [.rejected task.call.id]
    phase := task.chainOf.elim .ended fun call => .report call task.call false }
def start (s : State) (task : Task) : State :=
  { s with
    records := Function.update s.records task.call.id (some .running)
    log := s.log ++ [.validated task.call.id,.started task.call.id]
    phase := .tool task }
/-- The handler of a failure, which raises it again: in the chain to its loop, else out of the run. -/
def fail (s : State) (task : Task) : State :=
  { s with
    records := Function.update s.records task.call.id (some .failed)
    log := s.log ++ [.completed task.call.id .failed]
    phase := task.chainOf.elim .ended fun call => .report call task.call true }
def executeTool (s : State) (task : Task) : Outcome → State
  | .unread => fail s task
  | .raised => fail { s with log := s.log ++ [.executed task.call.id true] } task
  | .returned output => { s with log := s.log ++ [.executed task.call.id false], phase := .follow task output .outputSummary }
def requiresApproval (toolId : String) (output : Dict) : Bool :=
  toolId == "create_backtest_plan" && match item output "requires_user_approval" with
    | some (.bool true) => true
    | _ => false
def workflowRelevantTool (toolId : String) : Bool :=
  ["generate_pine","create_backtest_plan","run_backtest_preview","draft_bot"].contains toolId

/-- The follow-up after a follow-up. -/
def FollowUp.next (toolId : String) (output : Dict) : FollowUp → Option FollowUp
  | .outputSummary => some .completeToolCall
  | .completeToolCall => some .successResult
  | .successResult => some .runEvents
  | .runEvents => some .usageLedger
  | .usageLedger => some .executedAudit
  | .executedAudit => some .completedEvent
  | .completedEvent =>
    some (if requiresApproval toolId output then .approvalRequired
      else if workflowRelevantTool toolId then .workflow else .suggestions)
  | .approvalRequired => some (if workflowRelevantTool toolId then .workflow else .suggestions)
  | .workflow => some .suggestions
  | .suggestions => none

/-- What a follow-up that works does. -/
def perform (settings : Settings) (s : State) (call : Call) (output : Dict) : FollowUp → State
  | .completeToolCall =>
    { s with
      records := Function.update s.records call.id (some .completed)
      budget :=
        { s.budget with
          executedToolCalls := s.budget.executedToolCalls + 1
          completedToolIds := s.budget.completedToolIds ++ [call.toolId] } }
  | .successResult =>
    { s with
      budget :=
        { s.budget with
          completedToolResults := s.budget.completedToolResults ++
            [toolSuccessResult settings.unicode call.toolId call.arguments output] } }
  | .completedEvent => { s with log := s.log ++ [.completed call.id .completed] }
  | .approvalRequired => { s with log := s.log ++ [.approvalRequired call.id] }
  | _ => s

def afterFollowUps (task : Task) : Phase :=
  if task.chainOf.isNone && task.call.autoChainAllowed then .plan task.call else .close task
def follow (settings : Settings) (s : State) (task : Task) (output : Dict) (point : FollowUp) : State :=
  { perform settings s task.call output point with
    phase := (point.next task.call.toolId output).elim (afterFollowUps task) fun next => .follow task output next }
/-- The step of the next turn of the loop of `_run_backtest_auto_chain`, if it has one. -/
def plannedStep (settings : Settings) (budget : RunBudget) : Option (String × Dict) :=
  if budget.allowTool then nextStep settings budget else none
def beginChain (s : State) : State := { s with budget := { s.budget with autoChainStarted := true } }
def announceChain (s : State) : State := { beginChain s with log := s.log ++ [.chainStarted] }

/-- A turn of the loop up to the call of its step. The first turn writes that the chain starts. -/
def planStep (settings : Settings) (s : State) (call : Call) (written : Bool) : State :=
  match plannedStep settings s.budget with
  | none => { s with phase := .close ⟨call,none⟩ }
  | some (toolId,arguments) =>
    if s.budget.autoChainStarted then propose s toolId arguments false (some call)
    else if written then propose (announceChain s) toolId arguments false (some call)
    else fail (beginChain s) ⟨call,none⟩

def countStep (s : State) : State :=
  { s with budget := { s.budget with autoChainStepsCompleted := s.budget.autoChainStepsCompleted + 1 } }

/-- The rest of the turn, after the call of the step raised or returned. A step that returned is counted and
    reported as completed. -/
def reportStep (s : State) (call step : Call) (raised written : Bool) : State :=
  match raised,written with
  | true,true => { s with log := s.log ++ [.chainFailed step.id], phase := .close ⟨call,none⟩ }
  | true,false => fail s ⟨call,none⟩
  | false,false => fail (countStep s) ⟨call,none⟩
  | false,true =>
    if step.toolId = "run_backtest_preview" then
      { countStep s with log := s.log ++ [.stepCompleted step.id,.waiting step.id], phase := .close ⟨call,none⟩ }
    else { countStep s with log := s.log ++ [.stepCompleted step.id], phase := .plan call }

/-- The end of a call that returns: to the loop of the chain, or to the events of the provider unless the run is
    blocked. -/
def closeCall (s : State) (task : Task) : State :=
  { s with
    phase := match task.chainOf with
      | some call => .report call task.call false
      | none => if s.budget.blocked then .ended else .idle }

def step (settings : Settings) (s : State) : Label → Option State
  | .call toolId arguments chain =>
    match s.phase with
    | .idle => some (propose s toolId arguments chain none)
    | _ => none
  | .gate before after =>
    match s.phase with
    | .gate task => some (if (gateTool s.budget before after).isSome then reject s task else start s task)
    | _ => none
  | .tool outcome =>
    match s.phase with
    | .tool task => some (executeTool s task outcome)
    | _ => none
  | .follow works =>
    match s.phase with
    | .follow task output point => some (if works then follow settings s task output point else fail s task)
    | _ => none
  | .plan written =>
    match s.phase with
    | .plan call => some (planStep settings s call written)
    | _ => none
  | .report written =>
    match s.phase with
    | .report call step raised => some (reportStep s call step raised written)
    | _ => none
  | .close works =>
    match s.phase with
    | .close task => some (if works then closeCall s task else fail s task)
    | _ => none
  | .stop =>
    match s.phase with
    | .idle => some { s with phase := .ended }
    | _ => none

/-- The events of one call, but for the reports of the chain. -/
def Event.about (id : Nat) : Event → Bool
  | .proposed other => other == id
  | .rejected other => other == id
  | .validated other => other == id
  | .started other => other == id
  | .executed other _ => other == id
  | .completed other _ => other == id
  | _ => false

def trace (id : Nat) (log : List Event) : List Event := log.filter (Event.about id)
/-- The statuses of the completions of a call. -/
def completions (id : Nat) (log : List Event) : List Status :=
  log.filterMap fun event =>
    match event with
    | .completed other status => if other = id then some status else none
    | _ => none
def isExecuted : Event → Bool
  | .executed _ _ => true
  | _ => false
def isRaised : Event → Bool
  | .executed _ raised => raised
  | _ => false
def executions (log : List Event) : Nat := log.countP isExecuted
def raises (log : List Event) : Nat := log.countP isRaised
def Acts : Event → Prop
  | .proposed _ => True
  | .rejected _ => True
  | .validated _ => True
  | .executed _ _ => True
  | _ => False
def FollowUp.early : FollowUp → Bool
  | .approvalRequired => false
  | .workflow => false
  | .suggestions => false
  | _ => true
def Phase.pending : Phase → Option Nat
  | .tool task => some task.call.id
  | .follow task _ point => if point.early then some task.call.id else none
  | _ => none

/-- A state of a run that is gated, bounded and recorded truthfully. -/
structure Truthful (s : State) : Prop where
  gated : ∀ before id raised after, s.log = before ++ .executed id raised :: after → .validated id ∈ before
  bounded : executions s.log ≤ s.budget.maxToolCalls
  paired : ∀ before id after, s.log = before ++ .started id :: after →
    s.phase.pending = some id ∧ completions id after = [] ∨
      ∃ status, completions id after = [status] ∧ s.records id = some status ∧
        (status = .failed ↔ .executed id true ∈ after)
  halted : ∀ before id after, s.log = before ++ .rejected id :: after → ∀ event ∈ after, ¬ Acts event
  reported : ∀ id, .stepCompleted id ∈ s.log → ∃ raised, .executed id raised ∈ s.log

def Uncounted (s : State) : Prop := 0 < raises s.log ∧ s.budget.maxToolCalls ≤ s.budget.executedToolCalls + raises s.log
def Unannounced (settings : Settings) (s : State) (written : Bool) : Prop :=
  (plannedStep settings s.budget).isSome = true ∧ s.budget.autoChainStarted = false ∧ written = false

/-- No follow-up fails, the chain ends with a rejected step, and no tool is executed beyond the budget. -/
def Sound (settings : Settings) (s : State) (label : Label) : Prop :=
  match s.phase,label with
  | .tool _,.tool .unread => False
  | .tool _,.tool _ => ¬ Uncounted s
  | .follow _ _ _,.follow works => works = true
  | .plan _,.plan written => ¬ Unannounced settings s written
  | .report _ _ _,.report written => written = true ∧ s.budget.blocked = false
  | .close _,.close works => works = true
  | _,_ => True

def Phase.current : Phase → Option Nat
  | .gate task => some task.call.id
  | .tool task => some task.call.id
  | .follow task _ point => if point.early then some task.call.id else none
  | _ => none
def FollowUp.uncounted : FollowUp → Bool
  | .outputSummary => true
  | .completeToolCall => true
  | _ => false
def Phase.uncounted : Phase → Nat
  | .follow _ _ point => if point.uncounted then 1 else 0
  | _ => 0

end Codebot.ToolCalls
