import Codebot.Runs
import Codebot.Tables
import Codebot.BacktestConfigs

/-!
The approval of a backtest preview in one conversation. A plan is written and presented under a fresh approval id; a
decision request and a tool call read its status off the newest events and go on with repository writes of their own,
one at a time, so that they interleave (`step`).
-/
namespace Codebot.BacktestApprovals
open Texts BacktestConfigs
open Tables (Keyed find)

/-- A strategy spec: its script type, and its other fields as one text. -/
structure StrategySpec where
  scriptType : Text
  fields : Text
deriving DecidableEq

/-- The types of the events that carry an approval id, and all other types. -/
inductive EventType
  | approvalRequired
  | approved
  | rejected
  | queued
  | failed
  | backtestQueued
  | waitingForBacktest
  | artifactCreated
  | other
deriving DecidableEq

/-- An event with the fields of its payload that are read again. The child is the
    run and the job that a queued preview names. -/
structure RunEvent where
  type : EventType
  approvalId : Option Nat
  child : Option (Nat × Nat)
deriving DecidableEq

/-- The content of a plan file, with the run whose file it is. -/
structure Plan where
  approvalId : Nat
  run : Nat
  strategySpec : StrategySpec
  pineCode : Text
  backtestConfig : ConfigFields
deriving DecidableEq

instance : Keyed Plan := ⟨Plan.approvalId⟩
inductive ArtifactKind
  | pineFile
  | validationReport
  | backtestPlan
  | other
deriving DecidableEq
structure Artifact where
  id : Nat
  run : Nat
  kind : ArtifactKind
deriving DecidableEq

/-- A backtest job with the approval id of its `chat_tool` metadata. -/
structure Job where
  id : Nat
  run : Nat
  approvalId : Nat
  strategySpec : StrategySpec
  pineCode : Text
  backtestConfig : BacktestConfig
deriving DecidableEq

/-- The record of a plan that a decision request has found. -/
structure PlanRecord where
  artifactId : Nat
  plan : Plan
deriving DecidableEq

/-- What a request or a call still has to write. -/
inductive Pending
  | recording (plan : Plan)
  | requiring (plan : Plan) (again : Bool)
  | rejecting (approvalId : Nat)
  | approving (found : PlanRecord)
  | queueing (found : PlanRecord)
  | noting (found : PlanRecord) (run job : Nat)
  | announcing (found : PlanRecord) (run job : Nat)
  | waiting (approvalId run : Nat)
  | previewing (approvalId : Nat) (strategySpec : StrategySpec) (pineCode : Text) (backtestConfig : BacktestConfig)
  | previewed (approvalId : Nat)
deriving DecidableEq

/-- A conversation: the events of all its runs, its artifact records, the plans in
    the order they were written and its backtest jobs, all oldest first. -/
structure Conversation where
  events : List RunEvent
  artifacts : List Artifact
  plans : List Plan
  jobs : List Job
  pending : List Pending
  next : Nat
deriving DecidableEq

def initial : Conversation where
  events := []
  artifacts := []
  plans := []
  jobs := []
  pending := []
  next := 0
/-- The newest events that a snapshot with `event_limit=500` returns. -/
def eventWindow : Nat := 2000
def artifactPage : Nat := 100
def newest {α : Type} (limit : Nat) (entries : List α) : List α := entries.drop (entries.length - limit)
inductive Status
  | pending
  | rejected
  | queued
  | approved
deriving DecidableEq

/-- What one event makes of the status of an approval. -/
def observe (approvalId : Nat) (status : Status) (event : RunEvent) : Status :=
  if event.approvalId = some approvalId then
    match event.type with
    | .rejected => .rejected
    | .queued => .queued
    | .approved => if status = .queued then .queued else .approved
    | _ => status
  else status

/-- `_backtest_preview_approval_status`. -/
def approvalStatus (events : List RunEvent) (approvalId : Nat) : Status :=
  events.foldl (observe approvalId) .pending
/-- `_queued_backtest_preview_for_approval`: what the newest queued event names. -/
def queuedPreview (events : List RunEvent) (approvalId : Nat) : Option (Nat × Nat) :=
  (events.reverse.find? fun event => event.type = .queued && event.approvalId = some approvalId).bind RunEvent.child
def planFile (s : Conversation) (run : Nat) : Option Plan := s.plans.reverse.find? fun plan => plan.run = run

/-- `_find_backtest_plan_for_approval`: the newest plan, on the page of the newest artifacts, whose file has the
    approval id. -/
def findPlan (s : Conversation) (approvalId : Nat) : Option PlanRecord :=
  (newest artifactPage s.artifacts).reverse.findSome? fun artifact =>
    if artifact.kind = .backtestPlan then
      match planFile s artifact.run with
      | some plan => if plan.approvalId = approvalId then some ⟨artifact.id,plan⟩ else none
      | none => none
    else none

inductive Decision
  | approved
  | rejected
deriving DecidableEq

/-- What a decision request does once it has read the conversation. -/
inductive Answer
  | notFound
  | queued (child : Option (Nat × Nat))
  | alreadyRejected
  | alreadyApproved
  | reject (found : PlanRecord)
  | approve (found : PlanRecord)
deriving DecidableEq

def statusIn (s : Conversation) (approvalId : Nat) : Status := approvalStatus (newest eventWindow s.events) approvalId

/-- The reading half of `decide_backtest_preview_approval`. -/
def answer (s : Conversation) (approvalId : Nat) (decision : Decision) : Answer :=
  match findPlan s approvalId with
  | none => .notFound
  | some found =>
    match statusIn s approvalId, decision with
    | .queued, _ => .queued (queuedPreview (newest eventWindow s.events) approvalId)
    | .rejected, .approved => .alreadyRejected
    | .approved, .rejected => .alreadyApproved
    | _, .rejected => .reject found
    | _, .approved => .approve found

/-- `_ensure_backtest_preview_approved`. -/
def ensureApproved (s : Conversation) (approvalId : Nat) : Bool :=
  statusIn s approvalId = .approved || statusIn s approvalId = .queued
/-- The runtime of the tools, with the static validation of a script. -/
structure Tools extends Runtime where
  validPine : Text → StrategySpec → Bool
/-- The arguments of a tool call; the config is the dictionary that the call builds
    from its prompt, its spec and the overrides. -/
structure Arguments where
  strategySpec : StrategySpec
  pineCode : Text
  backtestConfig : ConfigFields
deriving DecidableEq

variable (tools : Tools)
/-- `_required_pineforge_pine`. -/
def requiredPine (pineCode : Text) (strategySpec : StrategySpec) : Option Text :=
  if strip tools.toUnicode pineCode = [] then none
  else if strategySpec.scriptType = text "strategy" then some (strip tools.toUnicode pineCode)
  else none
def plain (type : EventType) : RunEvent := ⟨type,none,none⟩
def concerning (type : EventType) (approvalId : Nat) : RunEvent := ⟨type,some approvalId,none⟩
def logged (s : Conversation) (events : List RunEvent) : Conversation := { s with events := s.events ++ events }
def persist (s : Conversation) (run : Nat) (kind : ArtifactKind) : Conversation :=
  logged { s with artifacts := s.artifacts ++ [⟨s.next,run,kind⟩], next := s.next + 1 } [plain .artifactCreated]
/-- `_persist_pineforge_validation_artifacts`. -/
def persistValidation (s : Conversation) (run : Nat) : Conversation :=
  persist (persist s run .pineFile) run .validationReport
def begin (s : Conversation) (work : Pending) : Conversation := { s with pending := s.pending ++ [work] }
def writePlan (s : Conversation) (plan : Plan) : Conversation :=
  { s with plans := s.plans ++ [plan], next := plan.approvalId + 1 }

/-- `_create_backtest_plan_tool` up to the plan file. -/
def createPlan (s : Conversation) (run : Nat) (arguments : Arguments) (enabled : Bool) : Option Conversation := do
  let config ← normalizeBacktestConfig tools.toRuntime enabled arguments.backtestConfig
  let pine ← requiredPine tools arguments.pineCode arguments.strategySpec
  let validated := persistValidation s run
  if tools.validPine pine arguments.strategySpec then
    let plan : Plan := ⟨validated.next,run,arguments.strategySpec,pine,userFacingBacktestConfig config⟩
    some (begin (writePlan validated plan) (.recording plan))
  else some validated

/-- `_run_backtest_preview_tool` up to the queueing. -/
def runPreview (s : Conversation) (run approvalId : Nat) (arguments : Arguments) (enabled : Bool) :
    Option Conversation :=
  if ensureApproved s approvalId then do
    let config ← normalizeBacktestConfig tools.toRuntime enabled arguments.backtestConfig
    let pine ← requiredPine tools arguments.pineCode arguments.strategySpec
    let validated := persistValidation s run
    if tools.validPine pine arguments.strategySpec then
      some (begin validated (.previewing approvalId arguments.strategySpec pine config))
    else some validated
  else none

/-- A decision request begins: it reads, and answers at once or goes on to write. -/
def request (s : Conversation) (approvalId : Nat) (decision : Decision) : Conversation :=
  match answer s approvalId decision with
  | .reject found => begin s (.rejecting found.plan.approvalId)
  | .approve found => begin s (.approving found)
  | _ => s
/-- The job that `_queue_backtest_preview` creates, unless it raises before. -/
def newJob (s : Conversation) (approvalId : Nat) (strategySpec : StrategySpec) (pineCode : Text)
    (backtestConfig : ConfigFields) (enabled : Bool) : Option Job := do
  let config ← normalizeBacktestConfig tools.toRuntime enabled backtestConfig
  let pine ← requiredPine tools pineCode strategySpec
  some ⟨s.next + 1,s.next,approvalId,strategySpec,pine,config⟩

/-- The job of a queueing request or call. The request normalises the config of its
    plan before it queues, the call has done so before. -/
def jobOf (s : Conversation) (enabled : Bool) : Pending → Option Job
  | .queueing found => do
    let config ← normalizeBacktestConfig tools.toRuntime enabled found.plan.backtestConfig
    newJob tools s found.plan.approvalId found.plan.strategySpec found.plan.pineCode config.fields enabled
  | .previewing approvalId strategySpec pineCode config =>
    newJob tools s approvalId strategySpec pineCode config.fields enabled
  | _ => none

def queue (s : Conversation) (job : Job) : Conversation := { s with jobs := s.jobs ++ [job], next := s.next + 2 }
def goOn (s : Conversation) (index : Nat) : Option Pending → Conversation
  | some work => { s with pending := s.pending.set index work }
  | none => { s with pending := s.pending.eraseIdx index }

/-- The next write of a request or a call. -/
def advance (s : Conversation) (index : Nat) (enabled : Bool) (work : Pending) : Option Conversation :=
  match work with
  | .recording plan => some (goOn (persist s plan.run .backtestPlan) index (some (.requiring plan false)))
  | .requiring plan again =>
    some (goOn (logged s [concerning .approvalRequired plan.approvalId]) index
      (if again then none else some (.requiring plan true)))
  | .rejecting approvalId => some (goOn (logged s [concerning .rejected approvalId]) index none)
  | .approving found =>
    some (goOn (logged s [concerning .approved found.plan.approvalId]) index (some (.queueing found)))
  | .queueing found => do
    let job ← jobOf tools s enabled (.queueing found)
    some (goOn (queue s job) index (some (.noting found job.run job.id)))
  | .noting found run job =>
    some (goOn (logged s [concerning .backtestQueued found.plan.approvalId,concerning .backtestQueued found.plan.approvalId])
      index (some (.announcing found run job)))
  | .announcing found run job =>
    some (goOn (logged s [⟨.queued,some found.plan.approvalId,some (run,job)⟩]) index
      (some (.waiting found.plan.approvalId run)))
  | .waiting approvalId _ => some (goOn (logged s [concerning .waitingForBacktest approvalId]) index none)
  | .previewing approvalId strategySpec pineCode config => do
    let job ← jobOf tools s enabled (.previewing approvalId strategySpec pineCode config)
    some (goOn (queue s job) index (some (.previewed approvalId)))
  | .previewed approvalId =>
    some (goOn (logged s [concerning .backtestQueued approvalId,concerning .backtestQueued approvalId]) index none)

/-- An exception ends a request or a call. An approving request that raises while it
    queues logs the failure first. -/
def raise (s : Conversation) (index : Nat) : Pending → Conversation
  | .queueing found => goOn (logged s [concerning .failed found.plan.approvalId]) index none
  | .noting found _ _ => goOn (logged s [concerning .failed found.plan.approvalId]) index none
  | _ => goOn s index none

inductive Label
  | event
  | artifact (run : Nat)
  | createPlan (run : Nat) (arguments : Arguments) (enabled : Bool)
  | decide (approvalId : Nat) (decision : Decision)
  | runPreview (run approvalId : Nat) (arguments : Arguments) (enabled : Bool)
  | advance (index : Nat) (enabled : Bool)
  | raise (index : Nat)
deriving DecidableEq

/-- One step of the conversation: any event or artifact of its runs, the beginning of
    a request or a call, or the next write of one that has begun. -/
def step (s : Conversation) : Label → Option Conversation
  | .event => some (logged s [plain .other])
  | .artifact run => some (persist s run .other)
  | .createPlan run arguments enabled => createPlan tools s run arguments enabled
  | .decide approvalId decision => some (request s approvalId decision)
  | .runPreview run approvalId arguments enabled => runPreview tools s run approvalId arguments enabled
  | .advance index enabled => s.pending[index]?.bind fun work => advance tools s index enabled work
  | .raise index => s.pending[index]?.map fun work => raise s index work

end Codebot.BacktestApprovals
