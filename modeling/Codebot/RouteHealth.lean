import Codebot.Runs
import Codebot.Texts

/-!
The health of one model route: the row of `harness_route_health` that `_upsert_attempt` writes, and the
`RouteHealthState` of each run, which starts from the row by maxima. Success resets the count of consecutive failures;
the counts of timeouts and of slow attempts of the row are never reset, and two of either start a cooldown with every
attempt recorded. Times are in milliseconds.
-/
namespace Codebot.RouteHealth
open Runs Texts

/-- `ROUTE_HEALTH_SLOW_STAGES`. -/
def slowStages : List Text := [text "pine_code_generation",text "balanced_review",text "repair"]
/-- `ROUTE_HEALTH_SLOW_THRESHOLD_MS`. -/
def slowThresholdMs : Nat := 48000
def routeHealthCooldownSeconds : Nat := 600
/-- `ROUTE_HEALTH_MAX_RECENT_LATENCIES`. -/
def maxRecentLatencies : Nat := 20
def defaultMaxConsecutiveFailures : Nat := 2
/-- `FAILURE_CLASSES`. -/
inductive FailureClass
  | missingCredential | providerRateLimited | providerTimeout | providerNotFound | malformedResponse | schemaInvalid
  | policyViolation | staticValidationFailed | reviewFailed | reviewValidationDisagreement | artifactMissing
  | freeCapacityUnavailable | toolError | providerError | configurationError | unknown
deriving DecidableEq
/-- The statuses of an attempt. -/
inductive Status
  | started | pass | fail | skipped
deriving DecidableEq
/-- What is read from an attempt. -/
structure Attempt where
  status : Status
  failureClass : Option FailureClass
  latencyMs : Nat
  timeoutOverrun : Bool
deriving DecidableEq

/-- The row of the route. -/
structure Row where
  successCount : Nat
  failureCount : Nat
  timeoutCount : Nat
  slowCount : Nat
  cooldownCount : Nat
  consecutiveFailureCount : Nat
  consecutiveFailureMax : Nat
  lastLatencyMs : Option Nat
  maxLatencyMs : Nat
  recentLatencyMs : List Nat
  lastFailureClass : Option FailureClass
  cooldownUntil : Option Nat
deriving DecidableEq

structure StageRoutePolicy where
  cooldownSeconds : Nat
  maxConsecutiveFailures : Nat
  preferHealthyRoutes : Bool

structure RouteHealthState where
  successCount : Nat
  failureCount : Nat
  consecutiveFailureCount : Nat
  timeoutCount : Nat
  notFoundCount : Nat
  cooldownCount : Nat
  cooldownUntil : Option Nat
  lastFailureClass : Option FailureClass
  lastLatencyMs : Option Nat
  maxConsecutiveFailures : Nat
deriving DecidableEq

def RouteHealthState.fresh : RouteHealthState := ⟨0,0,0,0,0,0,none,none,none,0⟩
/-- The stage of the route and the policy of the stage. -/
structure Settings where
  stage : Text
  policy : StageRoutePolicy
def isSlowAttempt (stage : Text) (latencyMs : Nat) : Bool :=
  slowStages.contains stage && decide (slowThresholdMs ≤ latencyMs)
def Attempt.timedOut (attempt : Attempt) : Bool :=
  attempt.timeoutOverrun || attempt.failureClass == some .providerTimeout
/-- The failures that `_upsert_attempt` counts. -/
def Attempt.providerFailure (attempt : Attempt) : Bool :=
  [some .providerError,some .providerTimeout,some .providerNotFound].contains attempt.failureClass
def Row.empty : Row := ⟨0,0,0,0,0,0,0,none,0,[],none,none⟩
def cooldownFrom (clock seconds : Nat) : Nat := clock + seconds * 1000

def upsertAttempt (stage : Text) (clock : Nat) (found : Option Row) (attempt : Attempt) : Row :=
  let row := found.getD Row.empty
  let recent := if 0 < attempt.latencyMs then row.recentLatencyMs ++ [attempt.latencyMs] else row.recentLatencyMs
  let consecutive :=
    if attempt.status = .pass then 0
    else if attempt.providerFailure then row.consecutiveFailureCount + 1
    else row.consecutiveFailureCount
  let timeoutCount := row.timeoutCount + if attempt.timedOut then 1 else 0
  let slowCount := row.slowCount + if isSlowAttempt stage attempt.latencyMs then 1 else 0
  let shouldCooldown := decide (2 ≤ timeoutCount ∨ 2 ≤ slowCount ∨ 2 ≤ consecutive)
  { successCount := row.successCount + if attempt.status = .pass then 1 else 0
    failureCount := row.failureCount + if attempt.status = .fail then 1 else 0
    timeoutCount := timeoutCount
    slowCount := slowCount
    cooldownCount := row.cooldownCount + if shouldCooldown && row.cooldownUntil.isNone then 1 else 0
    consecutiveFailureCount := consecutive
    consecutiveFailureMax := max row.consecutiveFailureMax consecutive
    lastLatencyMs := if attempt.latencyMs = 0 then none else some attempt.latencyMs
    maxLatencyMs := max row.maxLatencyMs attempt.latencyMs
    recentLatencyMs := recent.drop (recent.length - maxRecentLatencies)
    lastFailureClass := attempt.failureClass
    cooldownUntil := if shouldCooldown then some (cooldownFrom clock routeHealthCooldownSeconds) else row.cooldownUntil }

/-- `record_route_attempt`, which leaves out an attempt that only started. -/
def recordRouteAttempt (stage : Text) (clock : Nat) (row : Option Row) (attempt : Attempt) : Option Row :=
  if attempt.status = .started then row else some (upsertAttempt stage clock row attempt)
/-- `record_timeout_mirror_events` for the last attempt that started. -/
def recordTimeoutMirrorEvents (stage : Text) (clock : Nat) (row : Option Row) (event : Attempt) : Option Row :=
  if event.status = .started then
    some (upsertAttempt stage clock row
      { event with status := .fail, failureClass := some .providerTimeout, timeoutOverrun := true })
  else row
def firstOf : Option Nat → Option Nat → Option Nat
  | some (n + 1), _ => some (n + 1)
  | _, other => other
def laterOf : Option Nat → Option Nat → Option Nat
  | known, none => known
  | none, some loaded => some loaded
  | some known, some loaded => if known < loaded then some loaded else some known

/-- `_load_persistent_route_health` for the route. -/
def loadPersistentRouteHealth (row : Option Row) (state : RouteHealthState) : RouteHealthState :=
  match row with
  | none => state
  | some row =>
    { state with
      successCount := max state.successCount row.successCount
      failureCount := max state.failureCount row.failureCount
      consecutiveFailureCount := max state.consecutiveFailureCount row.consecutiveFailureCount
      maxConsecutiveFailures := max state.maxConsecutiveFailures row.consecutiveFailureMax
      timeoutCount := max state.timeoutCount row.timeoutCount
      cooldownCount := max state.cooldownCount row.cooldownCount
      lastFailureClass := state.lastFailureClass.or row.lastFailureClass
      lastLatencyMs := firstOf state.lastLatencyMs row.lastLatencyMs
      cooldownUntil := laterOf state.cooldownUntil row.cooldownUntil }

def recordRouteSuccess (state : RouteHealthState) (latencyMs : Nat) : RouteHealthState :=
  { state with
    successCount := state.successCount + 1
    consecutiveFailureCount := 0
    lastFailureClass := none
    lastLatencyMs := some latencyMs }
/-- The failures that count as consecutive in `_record_route_failure`. -/
def consecutiveClasses : List FailureClass := [.providerError,.providerTimeout,.providerNotFound,.staticValidationFailed]

def recordRouteFailure (policy : StageRoutePolicy) (clock : Nat) (failureClass : FailureClass)
    (state : RouteHealthState) : RouteHealthState :=
  let providerFailure := consecutiveClasses.contains failureClass
  let consecutive := state.consecutiveFailureCount + if providerFailure then 1 else 0
  let cooldown := decide (failureClass = .providerTimeout ∨ failureClass = .providerNotFound) ||
    (providerFailure && decide (policy.maxConsecutiveFailures ≤ consecutive))
  { state with
    failureCount := state.failureCount + 1
    lastFailureClass := some failureClass
    consecutiveFailureCount := consecutive
    maxConsecutiveFailures :=
      if providerFailure then max state.maxConsecutiveFailures consecutive else state.maxConsecutiveFailures
    timeoutCount := state.timeoutCount + if failureClass = .providerTimeout then 1 else 0
    notFoundCount := state.notFoundCount + if failureClass = .providerNotFound then 1 else 0
    cooldownCount := state.cooldownCount + if cooldown then 1 else 0
    cooldownUntil := if cooldown then some (cooldownFrom clock policy.cooldownSeconds) else state.cooldownUntil }

/-- What the provider call keeps of an attempt in the state of its run. -/
def settleAttempt (policy : StageRoutePolicy) (clock : Nat) (attempt : Attempt) (state : RouteHealthState) :
    RouteHealthState :=
  match attempt.status,attempt.failureClass with
  | .pass,_ => recordRouteSuccess state attempt.latencyMs
  | .fail,some failureClass => recordRouteFailure policy clock failureClass state
  | _,_ => state
/-- The route statuses. -/
inductive RouteStatus
  | cooldown | unstable | degraded | healthy
deriving DecidableEq
def coolsDown (clock : Nat) (cooldownUntil : Option Nat) : Bool := cooldownUntil.any fun ends => decide (clock < ends)
def RouteHealthState.status (state : RouteHealthState) (clock : Nat) : RouteStatus :=
  if coolsDown clock state.cooldownUntil then .cooldown
  else if 0 < state.timeoutCount ∨ 0 < state.notFoundCount ∨
      defaultMaxConsecutiveFailures ≤ state.maxConsecutiveFailures then .unstable
  else if 0 < state.failureCount then .degraded
  else .healthy

/-- The attempt that stands for a route left out. -/
structure CooldownAttempt where
  failureClass : FailureClass
  routeStatus : RouteStatus
  cooldownUntil : Option Nat
  cooldownSeconds : Nat
  consecutiveFailureCount : Nat
deriving DecidableEq

def routeCooldownSkip (policy : StageRoutePolicy) (clock : Nat) (state : RouteHealthState) : Option CooldownAttempt :=
  if policy.preferHealthyRoutes && coolsDown clock state.cooldownUntil then
    some ⟨state.lastFailureClass.getD .providerError,state.status clock,state.cooldownUntil,policy.cooldownSeconds,
      state.consecutiveFailureCount⟩
  else none
/-- The time, the row, and the state of the route in each run. -/
structure State where
  clock : Nat
  row : Option Row
  states : Nat → RouteHealthState
inductive Label
  | attempt (run : Nat) (attempt : Attempt) (recorded : Bool)
  | mirror (event : Attempt)
  | load (run : Nat) (anew reached : Bool)
  | wait (ms : Nat)
def initial : State := ⟨0,none,fun _ => .fresh⟩

variable (settings : Settings)

/-- What happens: an attempt with its record, the record of a case that timed out, a run that loads the row, and time
    passing. -/
def move (s : State) : Label → State
  | .attempt run attempt recorded =>
    { s with
      row := if recorded then recordRouteAttempt settings.stage s.clock s.row attempt else s.row
      states := Function.update s.states run (settleAttempt settings.policy s.clock attempt (s.states run)) }
  | .mirror event => { s with row := recordTimeoutMirrorEvents settings.stage s.clock s.row event }
  | .load run anew reached =>
    let state := if anew then .fresh else s.states run
    { s with states := Function.update s.states run (if reached then loadPersistentRouteHealth s.row state else state) }
  | .wait ms => { s with clock := s.clock + ms }

def step (s : State) (label : Label) : Option State := some (move settings s label)
def Healthy (attempt : Attempt) : Prop :=
  attempt.status = .started ∨
    attempt.status = .pass ∧ isSlowAttempt settings.stage attempt.latencyMs = false ∧ attempt.timedOut = false
def rowCooldown (s : State) : Option Nat := s.row.bind Row.cooldownUntil
def NoLater (old new : Option Nat) : Prop := ∀ ends ∈ new, ∃ before ∈ old, ends ≤ before
/-- A healthy attempt leaves every cooldown. -/
def KeepsCooldowns (s : State) : Label → State → Prop
  | .attempt _ attempt _, next => Healthy settings attempt →
    NoLater (rowCooldown s) (rowCooldown next) ∧
      ∀ run, NoLater (s.states run).cooldownUntil (next.states run).cooldownUntil
  | _, _ => True
def Expired (clock : Nat) (cooldownUntil : Option Nat) : Prop := ∀ ends ∈ cooldownUntil, ends ≤ clock
def Quiet : Label → Prop
  | .attempt _ attempt _ => Healthy settings attempt
  | .mirror _ => False
  | .load _ _ _ => True
  | .wait _ => True
/-- An attempt that passed in time is recorded in a row of two timeouts or two slow attempts, with no cooldown
    that lasts as long as a new one. -/
def Reopens (s : State) : Label → Prop
  | .attempt _ attempt recorded => recorded = true ∧ attempt.status = .pass ∧ Healthy settings attempt ∧
    ∃ row ∈ s.row, (2 ≤ row.timeoutCount ∨ 2 ≤ row.slowCount) ∧
      ¬ ∃ ends ∈ row.cooldownUntil, cooldownFrom s.clock routeHealthCooldownSeconds ≤ ends
  | _ => False
theorem NoLater.refl (cooldown : Option Nat) : NoLater cooldown cooldown := fun ends among => ⟨ends,among,Nat.le_refl ends⟩
theorem Expired.noLater {clock : Nat} {old new : Option Nat} (expired : Expired clock old) (noLater : NoLater old new) :
    Expired clock new := by
  intro ends among
  obtain ⟨before,known,upTo⟩ := noLater ends among
  exact Nat.le_trans upTo (expired before known)
theorem Expired.mono {clock later : Nat} {cooldown : Option Nat} (expired : Expired clock cooldown) (le : clock ≤ later) :
    Expired later cooldown := fun ends among => Nat.le_trans (expired ends among) le

theorem Expired.laterOf {clock : Nat} {known loaded : Option Nat} (first : Expired clock known)
    (second : Expired clock loaded) : Expired clock (laterOf known loaded) := by
  cases loaded with
  | none => exact first
  | some loaded =>
    cases known with
    | none => exact second
    | some known =>
      rw [RouteHealth.laterOf]
      split
      · exact second
      · exact first

theorem coolsDown_of_expired {clock : Nat} {cooldown : Option Nat} (expired : Expired clock cooldown) :
    coolsDown clock cooldown = false := by
  cases cooldown with
  | none => rfl
  | some ends => simpa [coolsDown] using expired ends rfl
theorem routeCooldownSkip_of_expired (policy : StageRoutePolicy) {clock : Nat} {state : RouteHealthState}
    (expired : Expired clock state.cooldownUntil) : routeCooldownSkip policy clock state = none := by
  simp [routeCooldownSkip,coolsDown_of_expired expired]

theorem upsertAttempt_cooldown {stage : Text} {attempt : Attempt} (clock : Nat) (found : Option Row)
    (passed : attempt.status = .pass) (fast : isSlowAttempt stage attempt.latencyMs = false)
    (inTime : attempt.timedOut = false) :
    (upsertAttempt stage clock found attempt).cooldownUntil =
      if 2 ≤ (found.getD Row.empty).timeoutCount ∨ 2 ≤ (found.getD Row.empty).slowCount then
        some (cooldownFrom clock routeHealthCooldownSeconds)
      else (found.getD Row.empty).cooldownUntil := by
  simp [upsertAttempt,passed,fast,inTime]

theorem noLater_upsertAttempt_iff {stage : Text} {attempt : Attempt} (clock : Nat) (found : Option Row)
    (passed : attempt.status = .pass) (fast : isSlowAttempt stage attempt.latencyMs = false)
    (inTime : attempt.timedOut = false) :
    NoLater (found.bind Row.cooldownUntil) (upsertAttempt stage clock found attempt).cooldownUntil ↔
      ¬ ∃ row ∈ found, (2 ≤ row.timeoutCount ∨ 2 ≤ row.slowCount) ∧
        ¬ ∃ ends ∈ row.cooldownUntil, cooldownFrom clock routeHealthCooldownSeconds ≤ ends := by
  rw [upsertAttempt_cooldown clock found passed fast inTime]
  cases found with
  | none => simp [NoLater,Row.empty]
  | some row =>
    by_cases counted : 2 ≤ row.timeoutCount ∨ 2 ≤ row.slowCount
    · simp [NoLater,counted]
    · simpa [counted] using NoLater.refl row.cooldownUntil

theorem settleAttempt_cooldown {attempt : Attempt} (policy : StageRoutePolicy) (clock : Nat) (state : RouteHealthState)
    (healthy : Healthy settings attempt) :
    (settleAttempt policy clock attempt state).cooldownUntil = state.cooldownUntil := by
  rcases healthy with began | ⟨passed,-,-⟩
  · simp [settleAttempt,began]
  · simp [settleAttempt,passed,recordRouteSuccess]

variable {settings}
theorem move_attempt_states {s : State} {run : Nat} {attempt : Attempt} {recorded : Bool} (healthy : Healthy settings attempt)
    (other : Nat) : ((move settings s (.attempt run attempt recorded)).states other).cooldownUntil =
      (s.states other).cooldownUntil := by
  by_cases same : other = run
  · subst same
    simp [move,settleAttempt_cooldown settings settings.policy s.clock (s.states other) healthy]
  · simp [move,same]

theorem keepsCooldowns_iff (s : State) (label : Label) :
    KeepsCooldowns settings s label (move settings s label) ↔ ¬ Reopens settings s label := by
  cases label with
  | mirror event => simp [KeepsCooldowns,Reopens]
  | load run anew reached => simp [KeepsCooldowns,Reopens]
  | wait ms => simp [KeepsCooldowns,Reopens]
  | attempt run attempt recorded =>
    by_cases healthy : Healthy settings attempt
    · have states : ∀ other, NoLater (s.states other).cooldownUntil
          ((move settings s (.attempt run attempt recorded)).states other).cooldownUntil := fun other =>
        move_attempt_states healthy other ▸ NoLater.refl _
      have row : NoLater (rowCooldown s) (rowCooldown (move settings s (.attempt run attempt recorded))) ↔
          ¬ Reopens settings s (.attempt run attempt recorded) := by
        cases recorded with
        | false => exact iff_of_true (NoLater.refl _) (by simp [Reopens])
        | true =>
          rcases healthy with began | ⟨passed,fast,inTime⟩
          · refine iff_of_true ?_ (by simp [Reopens,began])
            simpa [rowCooldown,move,recordRouteAttempt,began] using NoLater.refl _
          · have open_iff := noLater_upsertAttempt_iff s.clock s.row passed fast inTime
            simpa [rowCooldown,move,recordRouteAttempt,Reopens,passed,Healthy,fast,inTime] using open_iff
      rw [← row]
      exact ⟨fun keeps => (keeps healthy).1,fun noLater _ => ⟨noLater,states⟩⟩
    · exact iff_of_true (fun here => absurd here healthy) fun reopens => healthy reopens.2.2.1

def Recovered (run : Nat) (s : State) : Prop :=
  Expired s.clock (rowCooldown s) ∧ Expired s.clock (s.states run).cooldownUntil

variable (settings) in
/-- A healthy attempt starts and extends no cooldown, and a route whose cooldown is over is not left out again while its
    attempts are healthy. -/
def Recovers (s : State) (labels : List Label) : Prop :=
  (∀ before label after mid next, labels = before ++ label :: after → run (step settings) s before = some mid →
    step settings mid label = some next → KeepsCooldowns settings mid label next) ∧
  ∀ before middle after mid last route, labels = before ++ middle ++ after → run (step settings) s before = some mid →
    run (step settings) mid middle = some last → Recovered route mid → (∀ label ∈ middle, Quiet settings label) →
    routeCooldownSkip settings.policy last.clock (last.states route) = none

theorem recovered_load {s : State} {run other : Nat} {anew reached : Bool} (recovered : Recovered run s) :
    Recovered run (move settings s (.load other anew reached)) := by
  refine ⟨recovered.1,?_⟩
  by_cases same : run = other
  · subst same
    have began : Expired s.clock (if anew then RouteHealthState.fresh else s.states run).cooldownUntil := by
      cases anew with
      | true => simp [Expired,RouteHealthState.fresh]
      | false => exact recovered.2
    cases reached with
    | false => simpa [move] using began
    | true =>
      cases found : s.row with
      | none => simpa [move,found,loadPersistentRouteHealth] using began
      | some row =>
        have over_row : Expired s.clock row.cooldownUntil := by simpa [rowCooldown,found] using recovered.1
        simpa [move,found,loadPersistentRouteHealth] using began.laterOf over_row
  · simpa [move,same] using recovered.2

theorem recovered_step {s next : State} {run : Nat} {label : Label} (recovered : Recovered run s)
    (ok : Quiet settings label ∧ ¬ Reopens settings s label) (stepped : step settings s label = some next) :
    Recovered run next := by
  cases stepped
  have keeps := (keepsCooldowns_iff s label).mpr ok.2
  cases label with
  | attempt other attempt recorded =>
    obtain ⟨row,states⟩ := keeps ok.1
    exact ⟨recovered.1.noLater row,recovered.2.noLater (states run)⟩
  | mirror event => exact ok.1.elim
  | load other anew reached => exact recovered_load recovered
  | wait ms => exact ⟨recovered.1.mono (Nat.le_add_right _ _),recovered.2.mono (Nat.le_add_right _ _)⟩

/-- A run keeps its route usable exactly if no attempt that passed in time is recorded in a row that already has
    two timeouts or two slow attempts. -/
theorem recovers_iff (settings : Settings) (s : State) (labels : List Label) :
    Recovers settings s labels ↔ Meets (step settings) (fun s label => ¬ Reopens settings s label) s labels := by
  have same : ∀ s label, (∀ next, step settings s label = some next → KeepsCooldowns settings s label next) ↔
      ¬ Reopens settings s label := by
    intro s label
    rw [← keepsCooldowns_iff]
    simp [step]
  rw [Recovers,each_iff same]
  refine and_iff_left_of_imp ?_
  rintro meets before middle after mid last route rfl reached ran recovered quiet
  rw [List.append_assoc] at meets
  have closed := (meets_append ((meets_append meets).2 mid reached)).1
  have both := meets_and (meets_of_mem fun label among _ => quiet label among) closed
  have kept : Recovered route last :=
    run_keeps (fun _ _ _ here ok stepped => recovered_step here ok stepped) recovered both ran
  exact routeCooldownSkip_of_expired settings.policy kept.2

/-- Two timeouts, and passes in time long after the cooldown. -/
theorem cooled_again : ¬ ∀ (settings : Settings) (labels : List Label), Recovers settings initial labels := by
  intro all
  let settings : Settings := ⟨text "repair",⟨600,2,true⟩⟩
  let timeout : Attempt := ⟨.fail,some .providerTimeout,60000,true⟩
  let pass : Attempt := ⟨.pass,none,900,false⟩
  let before : List Label := [.attempt 0 timeout true,.attempt 0 timeout true,.wait 86400000]
  let middle : List Label := [.load 1 true true,.attempt 1 pass true,.load 2 true true]
  let mid := before.foldl (move settings) initial
  let last := middle.foldl (move settings) mid
  have recovered : Recovered 2 mid := by
    unfold Recovered Expired
    decide
  have quiet : ∀ label ∈ middle, Quiet settings label := by
    have healthy : Healthy settings pass := .inr (by decide)
    simp [middle,Quiet,healthy]
  have skipped : routeCooldownSkip settings.policy last.clock (last.states 2) ≠ none := by decide
  exact skipped ((all settings (before ++ middle ++ [])).2 before middle [] mid last 2 rfl rfl rfl recovered quiet)

end Codebot.RouteHealth
