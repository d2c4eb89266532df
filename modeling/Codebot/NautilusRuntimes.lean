import Codebot.Runs
import Mathlib.Data.Fintype.Basic

/-!
One Nautilus runtime: its row, the repository calls that read and write it, the API requests that make them, and the
paper worker. The in-memory repository does a call under its lock. The SQL repository reads the row and commits the
columns that it changed, so that another request's call may come between; the calls of the worker, except its
heartbeat, lock the row from the read to the commit.
-/
namespace Codebot.NautilusRuntimes

/-- `RUNTIME_STATES`. -/
inductive RuntimeState
  | requested | provisioning | warmingUp | running | degraded | stopping | stopped | failed
deriving DecidableEq
inductive DesiredState
  | requested | running | stopping | stopped
deriving DecidableEq
inductive Mode
  | paper | live
deriving DecidableEq
/-- `RUNTIME_EVENTS`. -/
inductive EventType
  | heartbeat | strategyLoaded | signal | orderIntent | orderSubmitted | fill | positionSnapshot | pnlSnapshot
  | warmupStarted | warmupCompleted | warmupFailed | riskBlock | runtimeError | stopRequested
deriving DecidableEq
/-- `metrics.warmup_status` of a heartbeat. -/
inductive WarmupStatus
  | pending | warmingUp | other
deriving DecidableEq

structure NautilusRuntime where
  mode : Mode
  state : RuntimeState
  strategyIds : List Nat
  heartbeatCount : Nat
  killSwitchActive : Bool
  desiredState : DesiredState
  workerId : Option Nat
  leaseUntil : Option Nat
  generation : Nat
deriving DecidableEq

/-- `TERMINAL_RUNTIME_STATES`. -/
def terminal (state : RuntimeState) : Bool := state == .stopped || state == .failed
/-- `state in {"stopping", "stopped", "failed"}`. -/
def winding (state : RuntimeState) : Bool := state == .stopping || terminal state

def runtimeStateAfterEvent (current : RuntimeState) (killSwitchActive : Bool) : EventType → RuntimeState
  | .heartbeat =>
    if killSwitchActive then if terminal current || current == .stopping then current else .stopping
    else if current = .requested then .running else current
  | .stopRequested => if terminal current then current else .stopping
  | .runtimeError => if terminal current || current == .stopping then current else .degraded
  | .riskBlock => if terminal current || current == .stopping then current else .degraded
  | _ => current

/-- `nautilus_runtime_state_from_heartbeat_payload`. -/
def stateFromHeartbeatPayload : Option WarmupStatus → RuntimeState
  | some .pending => .warmingUp
  | some .warmingUp => .warmingUp
  | _ => .running
/-- The row that `upsert_nautilus_runtime` creates. -/
def NautilusRuntime.new (mode : Mode) (strategyId : Nat) : NautilusRuntime :=
  { mode, state := .requested, strategyIds := [strategyId], heartbeatCount := 0, killSwitchActive := false,
    desiredState := if mode = .paper then .running else .requested, workerId := none, leaseUntil := none, generation := 0 }

/-- The calls of the API requests that write an existing row. -/
inductive Write
  /-- `set_nautilus_runtime_state`. -/
  | setState (state : RuntimeState)
  /-- `set_nautilus_runtime_desired_state`. -/
  | setDesiredState (desiredState : DesiredState)
  /-- `record_nautilus_runtime_heartbeat`. -/
  | heartbeat (warmup : Option WarmupStatus)
  /-- `activate_nautilus_runtime_kill_switch`. -/
  | killSwitch
  /-- `upsert_nautilus_runtime`. -/
  | upsert (mode : Mode) (strategyId : Nat)
deriving DecidableEq

/-- The row as a call leaves it, computed from the row that it read. -/
def Write.target (runtime : NautilusRuntime) : Write → NautilusRuntime
  | .setState state => { runtime with state }
  | .setDesiredState desiredState => { runtime with desiredState }
  | .heartbeat warmup =>
    { runtime with
      state :=
        if runtime.killSwitchActive then if winding runtime.state then runtime.state else .stopping
        else stateFromHeartbeatPayload warmup
      heartbeatCount := runtime.heartbeatCount + 1 }
  | .killSwitch => { runtime with state := .stopping, desiredState := .stopping, killSwitchActive := true }
  | .upsert _ strategyId =>
    { runtime with
      strategyIds := if strategyId ∈ runtime.strategyIds then runtime.strategyIds else runtime.strategyIds ++ [strategyId] }

def pick {Value : Type} [DecidableEq Value] (loaded target row : Value) : Value := if target = loaded then row else target

/-- The commit of a session that loaded one row and changed it to another. -/
def merge (loaded target row : NautilusRuntime) : NautilusRuntime :=
  { mode := pick loaded.mode target.mode row.mode
    state := pick loaded.state target.state row.state
    strategyIds := pick loaded.strategyIds target.strategyIds row.strategyIds
    heartbeatCount := pick loaded.heartbeatCount target.heartbeatCount row.heartbeatCount
    killSwitchActive := pick loaded.killSwitchActive target.killSwitchActive row.killSwitchActive
    desiredState := pick loaded.desiredState target.desiredState row.desiredState
    workerId := pick loaded.workerId target.workerId row.workerId
    leaseUntil := pick loaded.leaseUntil target.leaseUntil row.leaseUntil
    generation := pick loaded.generation target.generation row.generation }

/-- The in-memory repository or the SQL repository. -/
inductive Repository
  | memory | sql
deriving DecidableEq
def leaseFree (now workerId : Nat) (runtime : NautilusRuntime) : Bool :=
  !runtime.leaseUntil.any (now ≤ ·) || runtime.workerId == some workerId
/-- The columns that `claim_nautilus_runtime_lease` writes. -/
def claimed (leaseSeconds now workerId : Nat) (runtime : NautilusRuntime) : NautilusRuntime :=
  { runtime with
    workerId := some workerId
    leaseUntil := some (now + leaseSeconds)
    generation := if runtime.workerId = some workerId then runtime.generation else runtime.generation + 1
    state := if runtime.state = .requested then .provisioning else runtime.state }

/-- `claim_nautilus_runtime_lease`. The SQL statement skips a locked row and
    requires a paper runtime that is to run; the in-memory call tests the lease only. -/
def claimNautilusRuntimeLease (repository : Repository) (leaseSeconds now workerId : Nat) (locked : Bool)
    (runtime : NautilusRuntime) : Option NautilusRuntime :=
  match repository with
  | .memory => if leaseFree now workerId runtime then some (claimed leaseSeconds now workerId runtime) else none
  | .sql =>
    if !locked && runtime.mode == .paper && runtime.desiredState == .running && !terminal runtime.state &&
        leaseFree now workerId runtime then
      some (claimed leaseSeconds now workerId runtime)
    else none

theorem claimed_of_claim {repository : Repository} {leaseSeconds now workerId : Nat} {locked : Bool}
    {runtime lease : NautilusRuntime}
    (isClaim : claimNautilusRuntimeLease repository leaseSeconds now workerId locked runtime = some lease) :
    lease = claimed leaseSeconds now workerId runtime := by
  unfold claimNautilusRuntimeLease at isClaim
  cases repository with
  | memory =>
    dsimp only at isClaim
    split at isClaim <;> cases isClaim
    rfl
  | sql =>
    dsimp only at isClaim
    split at isClaim <;> cases isClaim
    rfl

def leased (repository : Repository) (workerId : Nat) (locked : Bool) (runtime : NautilusRuntime) : Bool :=
  runtime.workerId == some workerId && (repository == .memory || !locked)
def renewNautilusRuntimeLease (repository : Repository) (leaseSeconds now workerId : Nat) (locked : Bool)
    (runtime : NautilusRuntime) : NautilusRuntime :=
  if leased repository workerId locked runtime then { runtime with leaseUntil := some (now + leaseSeconds) } else runtime
/-- `release_nautilus_runtime_lease` with the state `stopped`, as the worker calls it. -/
def releaseNautilusRuntimeLease (repository : Repository) (workerId : Nat) (locked : Bool) (runtime : NautilusRuntime) :
    NautilusRuntime :=
  if leased repository workerId locked runtime then
    { runtime with workerId := none, leaseUntil := none, state := .stopped }
  else runtime

inductive Request
  /-- `POST /v1/nautilus/runtimes`. -/
  | start (mode : Mode) (strategyId : Nat)
  /-- The heartbeat endpoint, an event of that type, or the heartbeat of a worker. -/
  | heartbeat (warmup : Option WarmupStatus)
  /-- An event of another type. -/
  | event (type : EventType)
  | stop
  | killSwitch
deriving DecidableEq

/-- What a request does next. -/
inductive Phase
  | idle
  /-- The event is appended: before `get_nautilus_runtime`. -/
  | appended (type : EventType)
  /-- Before a call, and the call that follows it. -/
  | calling (write : Write) (after : Option Write)
  /-- A SQL call read the row: before its commit. -/
  | loaded (write : Write) (runtime : NautilusRuntime) (after : Option Write)
  /-- A SQL upsert read that there is no row: before its commit. -/
  | inserting (mode : Mode) (strategyId : Nat)
deriving DecidableEq

/-- The first phase of a request. -/
def Request.phase : Request → Phase
  | .start mode strategyId => .calling (.upsert mode strategyId) none
  | .heartbeat warmup => .calling (.heartbeat warmup) none
  | .event .heartbeat => .calling (.heartbeat none) none
  | .event type => .appended type
  | .stop => .calling (.setState .stopping) (some (.setDesiredState .stopping))
  | .killSwitch => .calling .killSwitch none

def Phase.after : Option Write → Phase
  | none => .idle
  | some write => .calling write none

/-- One read or one commit of a request. A call that finds no row answers 404. -/
def proceed (repository : Repository) (row : Option NautilusRuntime) : Phase → Option (Phase × Option NautilusRuntime)
  | .idle => none
  | .appended type =>
    match row with
    | none => some (.idle,row)
    | some runtime =>
      if runtimeStateAfterEvent runtime.state runtime.killSwitchActive type = runtime.state then some (.idle,row)
      else some (.calling (.setState (runtimeStateAfterEvent runtime.state runtime.killSwitchActive type)) none,row)
  | .calling write after =>
    match row, repository with
    | some runtime, .memory => some (.after after,some (write.target runtime))
    | some runtime, .sql => some (.loaded write runtime after,row)
    | none, .memory =>
      match write with
      | .upsert mode strategyId => some (.idle,some (.new mode strategyId))
      | _ => some (.idle,row)
    | none, .sql =>
      match write with
      | .upsert mode strategyId => some (.inserting mode strategyId,row)
      | _ => some (.idle,row)
  | .loaded write runtime after => some (.after after,row.map (merge runtime (write.target runtime)))
  | .inserting mode strategyId =>
    match row with
    | none => some (.idle,some (.new mode strategyId))
    | some _ => some (.idle,row)

structure System (requests : Nat) where
  now : Nat
  row : Option NautilusRuntime
  request : Fin requests → Phase

inductive Label (requests : Nat)
  | tick (amount : Nat)
  | request (c : Fin requests) (request : Request)
  | proceed (c : Fin requests)
  | claim (workerId : Nat) (locked : Bool)
  | renew (workerId : Nat) (locked : Bool)
  | release (workerId : Nat) (locked : Bool)
  /-- `append_nautilus_runtime_events_for_worker`, also the cursor: no column of the row. -/
  | append (workerId : Nat) (locked : Bool)
deriving DecidableEq

variable {requests : Nat}
def initial (requests : Nat) : System requests := ⟨0,none,fun _ => .idle⟩
def System.put (system : System requests) (c : Fin requests) (next : Phase × Option NautilusRuntime) : System requests :=
  { system with row := next.2, request := Function.update system.request c next.1 }
/-- The lease that a claim gets, if it succeeds. -/
def claim (repository : Repository) (leaseSeconds : Nat) (system : System requests) (workerId : Nat) (locked : Bool) :
    Option NautilusRuntime :=
  system.row.bind (claimNautilusRuntimeLease repository leaseSeconds system.now workerId locked)

def step (repository : Repository) (leaseSeconds : Nat) (system : System requests) :
    Label requests → Option (System requests)
  | .tick amount => some { system with now := system.now + amount }
  | .request c request =>
    if system.request c = .idle then some (system.put c (request.phase,system.row)) else none
  | .proceed c => (proceed repository system.row (system.request c)).map (system.put c)
  | .claim workerId locked =>
    match claim repository leaseSeconds system workerId locked with
    | none => some system
    | some runtime => some { system with row := some runtime }
  | .renew workerId locked =>
    some { system with row := system.row.map (renewNautilusRuntimeLease repository leaseSeconds system.now workerId locked) }
  | .release workerId locked =>
    some { system with row := system.row.map (releaseNautilusRuntimeLease repository workerId locked) }
  | .append _ _ => some system

end Codebot.NautilusRuntimes
