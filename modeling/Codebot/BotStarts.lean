import Codebot.Texts
import Codebot.NautilusRuntimes

/-!
The requests that start a paper runtime: `confirm_start_bot_proposal` and `start_nautilus_runtime`. Each finds or
creates the runtime row of its idempotency key, and answers with the row as it read it, also where it was stopped or
killed (`starts_not_always_running`, `starts_running_iff`).
-/
namespace Codebot.BotStarts
open Runs Texts NautilusRuntimes Function

/-- `RuntimeKey` of one user, in the mode `paper`. -/
structure RuntimeKey where
  brokerConnectionId : Text
  accountId : Text
  riskPolicyId : Text
deriving DecidableEq
inductive ProposalStatus
  | missingInputs
  | ready
  | started
deriving DecidableEq
/-- The identities that a start needs, as a proposal or a request gives them. -/
structure Inputs where
  brokerConnectionId : Option Text
  accountId : Option Text
  riskPolicyId : Option Text
deriving DecidableEq

/-- The strategy of a proposal is always named: creation fills it in. -/
structure BotProposal where
  status : ProposalStatus
  strategyId : Nat
  subscribed : Bool
  inputs : Inputs
  runtimeId : Option RuntimeKey
deriving DecidableEq

/-- `given or stored`. -/
def orElse (given stored : Option Text) : Option Text := if given.any fun t => t != [] then given else stored
/-- What a confirmation starts with: its own identities before those of the proposal. -/
def Inputs.over (given stored : Inputs) : Inputs :=
  ⟨orElse given.brokerConnectionId stored.brokerConnectionId,orElse given.accountId stored.accountId,
    orElse given.riskPolicyId stored.riskPolicyId⟩
/-- `bot_required_missing`, without the strategy. -/
def requiredMissing (unicode : Unicode) (inputs : Inputs) (subscribed : Bool) : List String :=
  let blank (value : Option Text) : Bool := value.all fun t => strip unicode t = []
  (if blank inputs.brokerConnectionId then ["broker_connection_id"] else []) ++
    (if blank inputs.accountId then ["account_id"] else []) ++
    (if blank inputs.riskPolicyId then ["risk_policy_id"] else []) ++
    if subscribed then [] else ["data_subscriptions"]
def Inputs.runtimeKey (inputs : Inputs) : RuntimeKey :=
  ⟨inputs.brokerConnectionId.getD [],inputs.accountId.getD [],inputs.riskPolicyId.getD []⟩
/-- A start that has passed the checks of its request. -/
inductive Start
  | confirm (id : Nat) (proposal : BotProposal) (inputs : Inputs)
  | direct (key : RuntimeKey) (strategyId : Nat)
deriving DecidableEq
def Start.runtimeKey : Start → RuntimeKey
  | .confirm _ _ inputs => inputs.runtimeKey
  | .direct key _ => key
def Start.strategyId : Start → Nat
  | .confirm _ proposal _ => proposal.strategyId
  | .direct _ strategyId => strategyId
def Start.proposalId : Start → Option Nat
  | .confirm id _ _ => some id
  | .direct _ _ => none
/-- The path of a request with its idempotency key. -/
structure Slot where
  proposalId : Option Nat
  key : Nat
deriving DecidableEq
/-- What the body of a request is compared by. -/
inductive Body
  | confirm (inputs : Inputs)
  | direct (key : RuntimeKey) (strategyId : Nat)
deriving DecidableEq
def Start.body : Start → Body
  | .confirm _ _ inputs => .confirm inputs
  | .direct key strategyId => .direct key strategyId
inductive Entry
  | pending (body : Body)
  | completed (body : Body) (runtime : NautilusRuntime)
deriving DecidableEq
inductive Answer
  | success (runtime : NautilusRuntime)
  | error
deriving DecidableEq

/-- What a start request does next. -/
inductive Phase
  | idle
  /-- Before `check_write` and `begin_idempotency`. -/
  | checking (start : Start) (key : Option Nat)
  /-- Before it looks up the runtime, or the read of `upsert_nautilus_runtime`. -/
  | admitted (start : Start) (slot : Option Slot)
  /-- The upsert of the SQL repository has read the row: before its commit. -/
  | saving (start : Start) (slot : Option Slot) (found : Option NautilusRuntime)
  /-- Before the event `strategy_loaded` and `mark_bot_proposal_started`. -/
  | upserted (start : Start) (slot : Option Slot) (found : Option NautilusRuntime)
  /-- Before `complete_idempotency` and the answer. -/
  | marked (start : Start) (slot : Option Slot) (found : Option NautilusRuntime)
  /-- The request was answered; whether it marked a proposal as started. -/
  | answered (answer : Answer) (marked : Bool)
deriving DecidableEq

def Phase.free : Phase → Bool
  | .idle => true
  | .answered _ _ => true
  | _ => false
/-- The row that `upsert_nautilus_runtime` returns. The session returns the columns as
    it has read them. -/
def returned (start : Start) (found : Option NautilusRuntime) : NautilusRuntime :=
  match found with
  | none => .new .paper start.strategyId
  | some runtime => (Write.upsert .paper start.strategyId).target runtime

/-- The commit of `upsert_nautilus_runtime`. Another row of the key that was inserted
    since violates the constraint. -/
def saved (start : Start) (found row : Option NautilusRuntime) : Option NautilusRuntime :=
  match found, row with
  | none, none => some (returned start none)
  | none, some _ => none
  | some _, none => none
  | some runtime, some row => some (merge runtime (returned start (some runtime)) row)

structure World (requests starters : Nat) where
  runtime : RuntimeKey → System requests
  proposal : Nat → Option BotProposal
  idempotency : Slot → Option Entry
  starter : Fin starters → Phase

inductive Label (requests starters : Nat)
  | tick (amount : Nat)
  /-- Any step of a runtime that is not a start: the other requests and the workers. -/
  | runtime (key : RuntimeKey) (label : NautilusRuntimes.Label requests)
  | createBotProposal (id strategyId : Nat) (subscribed : Bool) (inputs : Inputs)
  /-- `POST /v1/bots/proposals/{id}/confirm-start`. -/
  | confirmStart (c : Fin starters) (id : Nat) (given : Inputs) (key : Option Nat)
  /-- `POST /v1/nautilus/runtimes`. -/
  | startRuntime (c : Fin starters) (mode : Mode) (runtimeKey : RuntimeKey) (strategyId : Nat) (key : Option Nat)
  /-- The next call of a request; it may raise. -/
  | proceed (c : Fin starters) (raises : Bool)
  /-- An idempotency entry runs out. -/
  | expire (slot : Slot)
deriving DecidableEq

variable {requests starters : Nat}
def World.put (world : World requests starters) (c : Fin starters) (phase : Phase) : World requests starters :=
  { world with starter := Function.update world.starter c phase }
def World.row (world : World requests starters) (key : RuntimeKey) : Option NautilusRuntime := (world.runtime key).row
def World.write (world : World requests starters) (key : RuntimeKey) (row : Option NautilusRuntime) : World requests starters :=
  { world with runtime := Function.update world.runtime key { world.runtime key with row := row } }
/-- `complete_idempotency`. -/
def World.complete (world : World requests starters) (slot : Option Slot) (body : Body) (runtime : NautilusRuntime) :
    World requests starters :=
  match slot with
  | none => world
  | some slot => { world with idempotency := Function.update world.idempotency slot (some (.completed body runtime)) }
/-- The columns that `mark_bot_proposal_started` writes. -/
def BotProposal.markStarted (runtimeId : RuntimeKey) (proposal : BotProposal) : BotProposal :=
  { proposal with status := .started, runtimeId := some runtimeId }
/-- `mark_bot_proposal_started`. -/
def World.mark (world : World requests starters) (start : Start) : World requests starters :=
  match start with
  | .confirm id _ inputs =>
    let proposal := (world.proposal id).map (BotProposal.markStarted inputs.runtimeKey)
    { world with proposal := Function.update world.proposal id proposal }
  | .direct _ _ => world
/-- The runtime that a started proposal has already. -/
def existing (world : World requests starters) : Start → Option NautilusRuntime
  | .confirm _ proposal _ => if proposal.status = .started then proposal.runtimeId.bind world.row else none
  | .direct _ _ => none
def other : NautilusRuntimes.Label requests → Bool
  | .tick _ => false
  | .request _ (.start _ _) => false
  | _ => true

/-- The controls admit a request, replay an answer or refuse. -/
def check (world : World requests starters) (c : Fin starters) (start : Start) : Option Nat → World requests starters
  | none => world.put c (.admitted start none)
  | some key =>
    match world.idempotency ⟨start.proposalId,key⟩ with
    | none => { world with idempotency := Function.update world.idempotency ⟨start.proposalId,key⟩ (some (.pending start.body)) }.put
        c (.admitted start (some ⟨start.proposalId,key⟩))
    | some (.pending _) => world.put c (.answered .error false)
    | some (.completed body runtime) =>
      if body = start.body then world.put c (.answered (.success runtime) false) else world.put c (.answered .error false)

/-- The next call of a request. -/
def proceed (repository : Repository) (world : World requests starters) (c : Fin starters) (raises : Bool) :
    Option (World requests starters) :=
  match world.starter c with
  | .idle => none
  | .answered _ _ => none
  | .checking start key =>
    if raises then some (world.put c (.answered .error false)) else some (check world c start key)
  | .admitted start slot =>
    if raises then some (world.put c (.answered .error false))
    else
      match existing world start with
      | some runtime => some ((world.complete slot start.body runtime).put c (.answered (.success runtime) false))
      | none =>
        match repository with
        | .memory => some ((world.write start.runtimeKey (some (returned start (world.row start.runtimeKey)))).put c
            (.upserted start slot (world.row start.runtimeKey)))
        | .sql => some (world.put c (.saving start slot (world.row start.runtimeKey)))
  | .saving start slot found =>
    if raises then some (world.put c (.answered .error false))
    else
      match saved start found (world.row start.runtimeKey) with
      | none => some (world.put c (.answered .error false))
      | some row => some ((world.write start.runtimeKey (some row)).put c (.upserted start slot found))
  | .upserted start slot found =>
    if raises then some (world.put c (.answered .error false))
    else some ((world.mark start).put c (.marked start slot found))
  | .marked start slot found =>
    if raises then some (world.put c (.answered .error start.proposalId.isSome))
    else some ((world.complete slot start.body (returned start found)).put c
      (.answered (.success (returned start found)) start.proposalId.isSome))

def step (unicode : Unicode) (repository : Repository) (leaseSeconds : Nat) (world : World requests starters) :
    Label requests starters → Option (World requests starters)
  | .tick amount => some { world with runtime := fun key => { world.runtime key with now := (world.runtime key).now + amount } }
  | .runtime key label =>
    if other label then
      (NautilusRuntimes.step repository leaseSeconds (world.runtime key) label).map fun system =>
        { world with runtime := Function.update world.runtime key system }
    else none
  | .createBotProposal id strategyId subscribed inputs =>
    if world.proposal id = none then
      let status := if requiredMissing unicode inputs subscribed = [] then .ready else .missingInputs
      some { world with proposal := Function.update world.proposal id (some ⟨status,strategyId,subscribed,inputs,none⟩) }
    else none
  | .confirmStart c id given key =>
    if (world.starter c).free then
      match world.proposal id with
      | none => some (world.put c (.answered .error false))
      | some proposal =>
        if requiredMissing unicode (given.over proposal.inputs) proposal.subscribed = [] then
          some (world.put c (.checking (.confirm id proposal (given.over proposal.inputs)) key))
        else some (world.put c (.answered .error false))
    else none
  | .startRuntime c mode runtimeKey strategyId key =>
    if (world.starter c).free then
      -- broker execution is disabled
      if mode = .live then some (world.put c (.answered .error false))
      else some (world.put c (.checking (.direct runtimeKey strategyId) key))
    else none
  | .proceed c raises => proceed repository world c raises
  | .expire slot => some { world with idempotency := Function.update world.idempotency slot none }

def initial (requests starters : Nat) : World requests starters :=
  ⟨fun _ => NautilusRuntimes.initial requests,fun _ => none,fun _ => none,fun _ => .idle⟩
def running (runtime : NautilusRuntime) : Bool :=
  runtime.desiredState == .running && !terminal runtime.state && !runtime.killSwitchActive
def Honest : Phase → Prop
  | .answered (.success runtime) _ => running runtime
  | .answered .error marked => ¬ marked
  | _ => True
/-- After the step every answer is honest. -/
def StartsRunning (unicode : Unicode) (repository : Repository) (leaseSeconds : Nat) (world : World requests starters)
    (label : Label requests starters) : Prop :=
  ∀ next, step unicode repository leaseSeconds world label = some next → ∀ c, Honest (next.starter c)

/-- The runtime that a request finds is running, and nothing raises after the proposal was marked. -/
def FindsRunning (world : World requests starters) : Label requests starters → Prop
  | .proceed c raises =>
    match world.starter c with
    | .admitted start _ => raises = false → ∀ runtime ∈ existing world start, running runtime
    | .marked start _ found =>
      if raises then start.proposalId = none else ∀ runtime ∈ found, running runtime
    | _ => True
  | _ => True

/-- The answers so far and those that are kept for replay are honest. -/
structure Kept (world : World requests starters) : Prop where
  honest : ∀ c, Honest (world.starter c)
  replays : ∀ slot body runtime, world.idempotency slot = some (.completed body runtime) → running runtime

variable {start : Start}
theorem running_returned {found : Option NautilusRuntime} :
    running (returned start found) ↔ ∀ runtime ∈ found, running runtime := by
  cases found with
  | none => simp [returned,running,NautilusRuntime.new,terminal]
  | some runtime => simp [returned,running,Write.target]
@[simp] theorem put_starter (world : World requests starters) (c : Fin starters) (phase : Phase) :
    (world.put c phase).starter = Function.update world.starter c phase := rfl
@[simp] theorem put_idempotency (world : World requests starters) (c : Fin starters) (phase : Phase) :
    (world.put c phase).idempotency = world.idempotency := rfl
@[simp] theorem write_starter (world : World requests starters) (key : RuntimeKey) (row : Option NautilusRuntime) :
    (world.write key row).starter = world.starter := rfl
@[simp] theorem complete_starter (world : World requests starters) (slot : Option Slot) (body : Body)
    (runtime : NautilusRuntime) : (world.complete slot body runtime).starter = world.starter := by
  cases slot <;> rfl
@[simp] theorem mark_starter (world : World requests starters) (start : Start) : (world.mark start).starter = world.starter := by
  cases start <;> rfl
@[simp] theorem mark_idempotency (world : World requests starters) (start : Start) :
    (world.mark start).idempotency = world.idempotency := by
  cases start <;> rfl

variable {c : Fin starters} {phase : Phase}

theorem honest_update {starter : Fin starters → Phase} (honest : ∀ d, Honest (starter d)) :
    (∀ d, Honest (Function.update starter c phase d)) ↔ Honest phase := by
  constructor
  · intro all
    have here := all c
    rwa [update_self] at here
  · intro isHonest d
    by_cases same : d = c
    · rw [same,update_self]
      exact isHonest
    · rw [update_of_ne same]
      exact honest d

theorem kept_initial : Kept (initial requests starters) where
  honest _ := trivial
  replays _ _ _ found := by cases found

variable {world : World requests starters}

theorem check_honest (kept : Kept world) (c : Fin starters) (start : Start)
    (key : Option Nat) : ∀ d, Honest ((check world c start key).starter d) := by
  cases key with
  | none => exact (honest_update kept.honest).mpr trivial
  | some key =>
    simp only [check]
    split
    · exact (honest_update kept.honest).mpr trivial
    · exact (honest_update kept.honest).mpr Bool.false_ne_true
    · rename_i body runtime entry
      split
      · exact (honest_update kept.honest).mpr (kept.replays _ body runtime entry)
      · exact (honest_update kept.honest).mpr Bool.false_ne_true

theorem put_honest_iff {before : World requests starters} (kept : Kept world) (same : before.starter = world.starter) :
    (∀ next, some (before.put c phase) = some next → ∀ d, Honest (next.starter d)) ↔ Honest phase := by
  rw [← honest_update kept.honest]
  constructor
  · intro all d
    have here := all _ rfl d
    rwa [put_starter,same] at here
  · intro honest next stepped d
    cases stepped
    rw [put_starter,same]
    exact honest d

variable {repository : Repository}

theorem proceed_honest_iff (kept : Kept world) (c : Fin starters) (raises : Bool) :
    (∀ next, proceed repository world c raises = some next → ∀ d, Honest (next.starter d)) ↔
      FindsRunning world (.proceed c raises) := by
  have refused : (∀ next, some (world.put c (.answered .error false)) = some next → ∀ d, Honest (next.starter d)) ↔ True :=
    (put_honest_iff kept rfl).trans (by simp [Honest])
  cases phase : world.starter c with
  | idle | answered answer marked => simp [proceed,FindsRunning,phase]
  | checking start key =>
    cases raises with
    | true => simpa [proceed,FindsRunning,phase] using refused
    | false => simpa [proceed,FindsRunning,phase] using check_honest kept c start key
  | admitted start slot =>
    cases raises with
    | true => simpa [proceed,FindsRunning,phase] using refused
    | false =>
      cases found : existing world start with
      | some runtime =>
        simp only [proceed,FindsRunning,phase,found,Bool.false_eq_true,if_false]
        rw [put_honest_iff kept (complete_starter world slot start.body runtime)]
        simp [Honest]
      | none =>
        simp only [proceed,FindsRunning,phase,found,Bool.false_eq_true,if_false]
        cases repository with
        | memory =>
          refine (put_honest_iff kept (write_starter world _ _)).trans ?_
          simp [Honest]
        | sql =>
          refine (put_honest_iff kept rfl).trans ?_
          simp [Honest]
  | saving start slot found =>
    cases raises with
    | true => simpa [proceed,FindsRunning,phase] using refused
    | false =>
      simp only [proceed,FindsRunning,phase,Bool.false_eq_true,if_false]
      split
      · exact refused
      · refine (put_honest_iff kept (write_starter world _ _)).trans ?_
        simp [Honest]
  | upserted start slot found =>
    cases raises with
    | true => simpa [proceed,FindsRunning,phase] using refused
    | false =>
      simp only [proceed,FindsRunning,phase,Bool.false_eq_true,if_false]
      refine (put_honest_iff kept (mark_starter world start)).trans ?_
      simp [Honest]
  | marked start slot found =>
    cases raises with
    | true =>
      simp only [proceed,FindsRunning,phase,if_true]
      refine (put_honest_iff kept rfl).trans ?_
      simp [Honest]
    | false =>
      simp only [proceed,FindsRunning,phase,Bool.false_eq_true,if_false]
      exact (put_honest_iff kept (complete_starter world slot start.body _)).trans running_returned

theorem starts_step_iff {unicode : Unicode} {leaseSeconds : Nat} (kept : Kept world) (label : Label requests starters) :
    StartsRunning unicode repository leaseSeconds world label ↔ FindsRunning world label := by
  have unchanged : ∀ next : World requests starters, next.starter = world.starter → ∀ c, Honest (next.starter c) := by
    intro next same c
    rw [same]
    exact kept.honest c
  cases label with
  | proceed c raises => exact proceed_honest_iff kept c raises
  | tick amount | expire slot =>
    refine iff_of_true ?_ trivial
    intro next stepped
    cases stepped
    exact unchanged _ rfl
  | runtime key label =>
    refine iff_of_true ?_ trivial
    intro next stepped
    simp only [step] at stepped
    split at stepped
    · obtain ⟨system,_,rfl⟩ := Option.map_eq_some_iff.mp stepped
      exact unchanged _ rfl
    · cases stepped
  | createBotProposal id strategyId subscribed inputs =>
    refine iff_of_true ?_ trivial
    intro next stepped
    simp only [step] at stepped
    split at stepped <;> cases stepped
    exact unchanged _ rfl
  | confirmStart c id given key =>
    refine iff_of_true ?_ trivial
    intro next stepped
    simp only [step] at stepped
    split at stepped
    · split at stepped
      · cases stepped
        exact (honest_update kept.honest).mpr Bool.false_ne_true
      · split at stepped <;> cases stepped
        · exact (honest_update kept.honest).mpr trivial
        · exact (honest_update kept.honest).mpr Bool.false_ne_true
    · cases stepped
  | startRuntime c mode runtimeKey strategyId key =>
    refine iff_of_true ?_ trivial
    intro next stepped
    simp only [step] at stepped
    split at stepped
    · split at stepped <;> cases stepped
      · exact (honest_update kept.honest).mpr Bool.false_ne_true
      · exact (honest_update kept.honest).mpr trivial
    · cases stepped

theorem complete_entry {marked : Bool} {slot : Option Slot} {other : Slot}
    {body body' : Body} {runtime runtime' : NautilusRuntime}
    (entry : ((world.complete slot body runtime).put c (.answered (.success runtime) marked)).idempotency other =
      some (.completed body' runtime')) :
    world.idempotency other = some (.completed body' runtime') ∨ runtime = runtime' := by
  cases slot with
  | none => exact .inl entry
  | some slot =>
    simp only [put_idempotency,World.complete,update_apply] at entry
    split at entry
    · cases entry
      exact .inr rfl
    · exact .inl entry

theorem check_entry {key : Option Nat} {other : Slot} {body : Body} {runtime : NautilusRuntime}
    (entry : (check world c start key).idempotency other = some (.completed body runtime)) :
    world.idempotency other = some (.completed body runtime) := by
  cases key with
  | none => exact entry
  | some key =>
    simp only [check] at entry
    split at entry
    · simp only [put_idempotency,update_apply] at entry
      split at entry
      · cases entry
      · exact entry
    · exact entry
    · split at entry <;> exact entry

theorem proceed_entry {next : World requests starters} {raises : Bool}
    (stepped : proceed repository world c raises = some next) {slot : Slot} {body : Body} {runtime : NautilusRuntime}
    (entry : next.idempotency slot = some (.completed body runtime)) :
    world.idempotency slot = some (.completed body runtime) ∨
      ∃ d marked, next.starter d = .answered (.success runtime) marked := by
  unfold proceed at stepped
  split at stepped
  · cases stepped
  · cases stepped
  · split at stepped <;> cases stepped
    · exact .inl entry
    · exact .inl (check_entry entry)
  · split at stepped
    · cases stepped
      exact .inl entry
    · split at stepped
      · cases stepped
        refine (complete_entry entry).imp id ?_
        rintro rfl
        exact ⟨c,false,update_self ..⟩
      · split at stepped <;> cases stepped <;> exact .inl entry
  · split at stepped
    · cases stepped
      exact .inl entry
    · split at stepped <;> cases stepped <;> exact .inl entry
  · split at stepped <;> cases stepped
    · exact .inl entry
    · rw [put_idempotency,mark_idempotency] at entry
      exact .inl entry
  · split at stepped <;> cases stepped
    · exact .inl entry
    · refine (complete_entry entry).imp id ?_
      rintro rfl
      exact ⟨c,_,update_self ..⟩

theorem kept_step {unicode : Unicode} {leaseSeconds : Nat} {world next : World requests starters}
    {label : Label requests starters} (kept : Kept world) (honest : StartsRunning unicode repository leaseSeconds world label)
    (stepped : step unicode repository leaseSeconds world label = some next) : Kept next := by
  refine ⟨honest next stepped,?_⟩
  intro slot body runtime entry
  have before : world.idempotency slot = some (.completed body runtime) ∨
      ∃ d marked, next.starter d = .answered (.success runtime) marked := by
    cases label with
    | proceed c raises => exact proceed_entry stepped entry
    | tick amount =>
      cases stepped
      exact .inl entry
    | expire slot' =>
      cases stepped
      simp only [update_apply] at entry
      split at entry
      · cases entry
      · exact .inl entry
    | runtime key label =>
      simp only [step] at stepped
      split at stepped
      · obtain ⟨system,_,rfl⟩ := Option.map_eq_some_iff.mp stepped
        exact .inl entry
      · cases stepped
    | createBotProposal id strategyId subscribed inputs =>
      simp only [step] at stepped
      split at stepped <;> cases stepped
      exact .inl entry
    | confirmStart c id given key =>
      simp only [step] at stepped
      split at stepped
      · split at stepped
        · cases stepped
          exact .inl entry
        · split at stepped <;> cases stepped <;> exact .inl entry
      · cases stepped
    | startRuntime c mode runtimeKey strategyId key =>
      simp only [step] at stepped
      split at stepped
      · split at stepped <;> cases stepped <;> exact .inl entry
      · cases stepped
  rcases before with stored | ⟨d,marked,answered⟩
  · exact kept.replays slot body runtime stored
  · have isHonest := honest next stepped d
    rwa [answered] at isHonest

/-- In every run all successes answer with running runtimes exactly if the requests find running runtimes and nothing
    raises after a proposal was marked. -/
theorem starts_running_iff (unicode : Unicode) (repository : Repository) (leaseSeconds : Nat)
    (labels : List (Label requests starters)) :
    Meets (step unicode repository leaseSeconds) (StartsRunning unicode repository leaseSeconds) (initial requests starters)
      labels ↔ Meets (step unicode repository leaseSeconds) FindsRunning (initial requests starters) labels :=
  meets_iff (fun _ _ _ kept honest => kept_step kept honest) (fun _ label kept => starts_step_iff kept label) kept_initial

local instance oneRequest : @NeZero Nat Zero.ofOfNat0 1 := @NeZero.mk Nat Zero.ofOfNat0 1 (Nat.succ_ne_zero 0)

def sampleKey : RuntimeKey := ⟨text "b",text "a",text "r"⟩
/-- A runtime is started and killed, and then started again. -/
def startedAfterKill : List (Label 1 1) :=
  [.startRuntime 0 .paper sampleKey 7 none,.proceed 0 false,.proceed 0 false,.proceed 0 false,.proceed 0 false,
    .runtime sampleKey (.request 0 .killSwitch),.runtime sampleKey (.proceed 0),
    .startRuntime 0 .paper sampleKey 7 none,.proceed 0 false,.proceed 0 false,.proceed 0 false,.proceed 0 false]

/-- The second start answers with the killed runtime. -/
theorem starts_not_always_running : ¬ ∀ (requests starters : Nat) (unicode : Unicode) (repository : Repository)
    (leaseSeconds : Nat) (labels : List (Label requests starters)),
    Meets (step unicode repository leaseSeconds) (StartsRunning unicode repository leaseSeconds) (initial requests starters)
      labels := by
  intro always
  obtain ⟨world,reached,runtime,marked,answered,stopped⟩ : ∃ world,
      run (step ascii .memory 60) (initial 1 1) startedAfterKill = some world ∧
        ∃ runtime marked, world.starter 0 = .answered (.success runtime) marked ∧ running runtime = false :=
    ⟨_,rfl,_,_,rfl,rfl⟩
  have kept : Kept world :=
    run_keeps (fun _ _ _ kept honest => kept_step kept honest) kept_initial (always 1 1 ascii .memory 60 startedAfterKill) reached
  have honest := kept.honest 0
  rw [answered,Honest,stopped] at honest
  cases honest

end Codebot.BotStarts
