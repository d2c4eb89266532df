import Codebot.NautilusRuntimes

/-!
Whether the kill switch is final. A state that was computed from a row read before the kill may be committed after it,
the kill itself does not write a state that it read as `stopping`, and the in-memory claim does not look at it
(`kill_switch_not_final`, `kill_switch_final_iff`).
-/
namespace Codebot.KillSwitch
open Runs NautilusRuntimes
variable {requests : Nat}

/-- The lease that a step claims. -/
def claimedLease (repository : Repository) (leaseSeconds : Nat) (system : System requests) :
    Label requests → Option NautilusRuntime
  | .claim workerId locked => claim repository leaseSeconds system workerId locked
  | _ => none
def Killed (system : System requests) : Prop := ∃ runtime, system.row = some runtime ∧ runtime.killSwitchActive
def Winding (runtime : NautilusRuntime) : Prop :=
  runtime.killSwitchActive → runtime.desiredState = .stopping ∧ winding runtime.state
/-- A step keeps the kill switch, leads to a row that is to stop where the kill
    switch is set, and claims no lease after it is set. -/
def Final (repository : Repository) (leaseSeconds : Nat) (system : System requests) (label : Label requests) : Prop :=
  ∀ next, step repository leaseSeconds system label = some next →
    (Killed system → Killed next ∧ claimedLease repository leaseSeconds system label = none) ∧
      ∀ runtime, next.row = some runtime → Winding runtime

/-- A call's commit, or its step in memory, writes a state that it computed from a
    row before the kill, or the kill leaves a state that it read as `stopping`. -/
def timelyWrite (repository : Repository) (row : NautilusRuntime) : Phase → Bool
  | .calling (.setState state) _ => repository == .sql || !row.killSwitchActive || winding state
  | .loaded (.setState state) loaded _ => !row.killSwitchActive || winding state || state == loaded.state
  | .loaded (.heartbeat warmup) loaded _ =>
    !row.killSwitchActive || loaded.killSwitchActive || stateFromHeartbeatPayload warmup == loaded.state
  | .loaded .killSwitch loaded _ => loaded.state != .stopping || winding row.state
  | _ => true

/-- No state computed before the kill is written after it, none came between its read and its commit, and no worker
    claims the killed runtime. -/
def timely (repository : Repository) (system : System requests) (label : Label requests) : Bool :=
  match system.row, label with
  | some row, .proceed c => timelyWrite repository row (system.request c)
  | some row, .claim workerId _ =>
    repository == .sql || !row.killSwitchActive || !leaseFree system.now workerId row
  | _, _ => true

def pending : Phase → List Write
  | .calling write after => write :: after.toList
  | .loaded write _ after => write :: after.toList
  | _ => []
/-- What a SQL call read is what was: the kill switch and the wish to stop are
    still there, and a killed row was to stop. -/
def Earlier (row loaded : NautilusRuntime) : Prop :=
  (loaded.killSwitchActive → row.killSwitchActive ∧ winding loaded.state) ∧
    (loaded.desiredState = .stopping → row.desiredState = .stopping)
structure Consistent (system : System requests) : Prop where
  winding : ∀ runtime, system.row = some runtime → Winding runtime
  wishes : ∀ c desiredState, .setDesiredState desiredState ∈ pending (system.request c) → desiredState = .stopping
  earlier : ∀ c write loaded after, system.request c = .loaded write loaded after →
    ∃ row, system.row = some row ∧ Earlier row loaded

theorem consistent_initial : Consistent (initial requests) := by
  refine ⟨?_,?_,?_⟩
  · intro runtime found
    cases found
  · intro c desiredState member
    cases member
  · intro c write loaded after phase
    cases phase

def Follows (row next : NautilusRuntime) : Prop :=
  (row.killSwitchActive → next.killSwitchActive) ∧ (row.desiredState = .stopping → next.desiredState = .stopping)

variable {row : NautilusRuntime}
theorem earlier_follows {next loaded : NautilusRuntime} (follows : Follows row next) (earlier : Earlier row loaded) :
    Earlier next loaded :=
  ⟨fun killed => ⟨follows.1 (earlier.1 killed).1,(earlier.1 killed).2⟩,fun wish => follows.2 (earlier.2 wish)⟩
theorem follows_refl (row : NautilusRuntime) : Follows row row := ⟨id,id⟩

variable {write : Write}

theorem target_follows (wish : ∀ desiredState, write = .setDesiredState desiredState → desiredState = .stopping) :
    Follows row (write.target row) := by
  cases write with
  | setState state => exact ⟨id,id⟩
  | setDesiredState desiredState => exact ⟨id,fun _ => wish _ rfl⟩
  | heartbeat warmup => exact ⟨id,id⟩
  | killSwitch => exact ⟨fun _ => rfl,fun _ => rfl⟩
  | upsert mode strategyId => exact ⟨id,id⟩

theorem pick_same {Value : Type} [DecidableEq Value] (loaded row : Value) : pick loaded loaded row = row := if_pos rfl
theorem pick_of {Value : Type} [DecidableEq Value] {loaded target row value : Value} (before : row = value)
    (written : target = value) : pick loaded target row = value := by
  unfold pick
  rw [before,written,ite_self]

theorem merge_follows {loaded : NautilusRuntime}
    (wish : ∀ desiredState, write = .setDesiredState desiredState → desiredState = .stopping) :
    Follows row (merge loaded (write.target loaded) row) := by
  cases write with
  | setState state => simp [Follows,merge,Write.target,pick_same]
  | setDesiredState desiredState =>
    obtain rfl := wish _ rfl
    exact ⟨by simp [merge,Write.target,pick_same],fun already => pick_of already rfl⟩
  | heartbeat warmup => simp [Follows,merge,Write.target,pick_same]
  | killSwitch => exact ⟨fun killed => pick_of killed rfl,fun already => pick_of already rfl⟩
  | upsert mode strategyId => simp [Follows,merge,Write.target,pick_same]

theorem heartbeat_not_winding (warmup : Option WarmupStatus) : winding (stateFromHeartbeatPayload warmup) = false := by
  unfold stateFromHeartbeatPayload
  split <;> rfl

theorem target_winding (winds : Winding row) (after : Option Write)
    (wish : ∀ desiredState, write = .setDesiredState desiredState → desiredState = .stopping) :
    Winding (write.target row) ↔ timelyWrite .memory row (.calling write after) := by
  cases write with
  | setState state =>
    constructor
    · intro holds
      by_cases killed : row.killSwitchActive
      · have wound : winding state = true := (holds killed).2
        simp [timelyWrite,killed,wound]
      · simp [timelyWrite,killed]
    · intro timely killed
      have killed : row.killSwitchActive = true := killed
      have wound : winding state = true := by simpa [timelyWrite,killed] using timely
      exact ⟨(winds killed).1,wound⟩
  | setDesiredState desiredState =>
    refine iff_of_true ?_ rfl
    intro killed
    exact ⟨wish _ rfl,(winds killed).2⟩
  | heartbeat warmup =>
    refine iff_of_true ?_ rfl
    intro killed
    have killed : row.killSwitchActive = true := killed
    obtain ⟨wish,winding⟩ := winds killed
    refine ⟨wish,?_⟩
    simp only [Write.target,killed,winding,if_true]
  | killSwitch => exact iff_of_true (fun _ => ⟨rfl,rfl⟩) rfl
  | upsert mode strategyId => exact iff_of_true winds rfl

theorem merge_winding {loaded : NautilusRuntime} (repository : Repository) (after : Option Write)
    (winds : Winding row) (earlier : Earlier row loaded)
    (wish : ∀ desiredState, write = .setDesiredState desiredState → desiredState = .stopping) :
    Winding (merge loaded (write.target loaded) row) ↔ timelyWrite repository row (.loaded write loaded after) := by
  cases write with
  | setState state =>
    have kill : (merge loaded (Write.target loaded (.setState state)) row).killSwitchActive = row.killSwitchActive :=
      pick_same _ _
    have wanted : (merge loaded (Write.target loaded (.setState state)) row).desiredState = row.desiredState :=
      pick_same _ _
    unfold Winding
    rw [kill,wanted]
    by_cases killed : row.killSwitchActive
    · obtain ⟨wish,before⟩ := winds killed
      by_cases same : state = loaded.state
      · simp [timelyWrite,merge,Write.target,pick,killed,wish,before,same]
      · simp [timelyWrite,merge,Write.target,pick,killed,wish,same]
    · simp [timelyWrite,killed]
  | setDesiredState desiredState =>
    obtain rfl := wish _ rfl
    refine iff_of_true ?_ rfl
    intro killed
    have killed : row.killSwitchActive = true := (pick_same _ _).symm.trans killed
    obtain ⟨already,before⟩ := winds killed
    exact ⟨pick_of already rfl,(congrArg winding (pick_same _ _)).trans before⟩
  | heartbeat warmup =>
    have kill : (merge loaded (Write.target loaded (.heartbeat warmup)) row).killSwitchActive = row.killSwitchActive :=
      pick_same _ _
    have wanted : (merge loaded (Write.target loaded (.heartbeat warmup)) row).desiredState = row.desiredState :=
      pick_same _ _
    unfold Winding
    rw [kill,wanted]
    by_cases killed : row.killSwitchActive
    · obtain ⟨wish,before⟩ := winds killed
      by_cases known : loaded.killSwitchActive
      · simp [timelyWrite,merge,Write.target,pick,killed,wish,before,known,(earlier.1 known).2]
      · by_cases same : stateFromHeartbeatPayload warmup = loaded.state
        · simp [timelyWrite,merge,Write.target,pick,killed,wish,before,known,same]
        · simp [timelyWrite,merge,Write.target,pick,killed,wish,known,same,heartbeat_not_winding]
    · simp [timelyWrite,killed]
  | killSwitch =>
    have kill : (merge loaded (Write.target loaded .killSwitch) row).killSwitchActive = true := by
      by_cases known : loaded.killSwitchActive
      · exact pick_of (earlier.1 known).1 rfl
      · simp [merge,Write.target,pick,known]
    have wanted : (merge loaded (Write.target loaded .killSwitch) row).desiredState = .stopping := by
      by_cases known : loaded.desiredState = .stopping
      · exact pick_of (earlier.2 known) rfl
      · simp [merge,Write.target,pick,Ne.symm known]
    unfold Winding
    rw [kill,wanted]
    by_cases same : loaded.state = .stopping
    · simp [timelyWrite,merge,Write.target,pick,same]
    · simp [timelyWrite,merge,Write.target,pick,same,Ne.symm same,winding]
  | upsert mode strategyId =>
    refine iff_of_true ?_ rfl
    intro killed
    have killed : row.killSwitchActive = true := (pick_same _ _).symm.trans killed
    obtain ⟨already,before⟩ := winds killed
    exact ⟨(pick_same _ _).trans already,(congrArg winding (pick_same _ _)).trans before⟩

variable {repository : Repository}
variable {phase : Phase}

theorem proceed_row {next : Phase × Option NautilusRuntime}
    (winds : Winding row) (wishes : ∀ desiredState, .setDesiredState desiredState ∈ pending phase → desiredState = .stopping)
    (earlier : ∀ write loaded after, phase = .loaded write loaded after → Earlier row loaded)
    (proceeded : proceed repository (some row) phase = some next) :
    ∃ runtime, next.2 = some runtime ∧ Follows row runtime ∧ (Winding runtime ↔ timelyWrite repository row phase) := by
  cases phase with
  | idle => cases proceeded
  | appended type =>
    simp only [proceed] at proceeded
    split at proceeded <;> cases proceeded <;> exact ⟨row,rfl,follows_refl row,iff_of_true winds rfl⟩
  | calling write after =>
    have wish : ∀ desiredState, write = .setDesiredState desiredState → desiredState = .stopping := by
      rintro desiredState rfl
      exact wishes desiredState List.mem_cons_self
    cases repository with
    | memory =>
      cases proceeded
      exact ⟨_,rfl,target_follows wish,target_winding winds after wish⟩
    | sql =>
      cases proceeded
      refine ⟨row,rfl,follows_refl row,iff_of_true winds ?_⟩
      cases write <;> rfl
  | loaded write loaded after =>
    have wish : ∀ desiredState, write = .setDesiredState desiredState → desiredState = .stopping := by
      rintro desiredState rfl
      exact wishes desiredState List.mem_cons_self
    cases proceeded
    exact ⟨_,rfl,merge_follows wish,merge_winding repository after winds (earlier write loaded after rfl) wish⟩
  | inserting mode strategyId =>
    cases proceeded
    exact ⟨row,rfl,follows_refl row,iff_of_true winds rfl⟩

theorem proceed_idle {row : Option NautilusRuntime} (stuck : proceed repository row phase = none) : phase = .idle := by
  cases phase with
  | idle => rfl
  | appended type =>
    cases row with
    | none => cases stuck
    | some runtime =>
      simp only [proceed] at stuck
      split at stuck <;> cases stuck
  | calling write after => cases row <;> cases repository <;> cases write <;> cases stuck
  | loaded write loaded after => cases stuck
  | inserting mode strategyId => cases row <;> cases stuck

theorem proceed_phase {row : Option NautilusRuntime}
    {next : Phase × Option NautilusRuntime} (proceeded : proceed repository row phase = some next) :
    (∀ desiredState, .setDesiredState desiredState ∈ pending next.1 → .setDesiredState desiredState ∈ pending phase) ∧
      ∀ write loaded after, next.1 = .loaded write loaded after → row = some loaded ∧ next.2 = row := by
  have following : ∀ write (after : Option Write), (∀ desiredState,
      Write.setDesiredState desiredState ∈ pending (Phase.after after) → .setDesiredState desiredState ∈ write :: after.toList) ∧
      ∀ other loaded later, Phase.after after ≠ .loaded other loaded later := by
    intro write after
    cases after with
    | none => simp [Phase.after,pending]
    | some second => simp +contextual [Phase.after,pending]
  cases phase with
  | idle => cases proceeded
  | appended type =>
    cases row with
    | none =>
      cases proceeded
      simp [pending]
    | some runtime =>
      simp only [proceed] at proceeded
      split at proceeded <;> cases proceeded <;> simp [pending]
  | calling write after =>
    obtain ⟨fewer,notLoaded⟩ := following write after
    cases row with
    | none =>
      cases repository <;> cases write <;> cases proceeded <;> simp [pending]
    | some runtime =>
      cases repository with
      | memory =>
        cases proceeded
        exact ⟨fewer,fun other loaded later phase => absurd phase (notLoaded other loaded later)⟩
      | sql =>
        cases proceeded
        refine ⟨fun _ => id,?_⟩
        rintro other loaded later ⟨⟩
        exact ⟨rfl,rfl⟩
  | loaded write loaded after =>
    obtain ⟨fewer,notLoaded⟩ := following write after
    cases proceeded
    exact ⟨fewer,fun other row later phase => absurd phase (notLoaded other row later)⟩
  | inserting mode strategyId =>
    cases row <;> cases proceeded <;> simp [pending]

theorem proceed_none {next : Phase × Option NautilusRuntime}
    (notLoaded : ∀ write loaded after, phase ≠ .loaded write loaded after)
    (proceeded : proceed repository none phase = some next) :
    ∀ runtime, next.2 = some runtime → runtime.killSwitchActive = false := by
  cases phase with
  | idle => cases proceeded
  | appended type =>
    cases proceeded
    simp
  | calling write after =>
    cases repository <;> cases write <;> cases proceeded <;> simp [NautilusRuntime.new]
  | loaded write loaded after => exact absurd rfl (notLoaded write loaded after)
  | inserting mode strategyId =>
    cases proceeded
    simp [NautilusRuntime.new]

theorem renew_follows (repository : Repository) (leaseSeconds now workerId : Nat) (locked : Bool) (runtime : NautilusRuntime)
    (winds : Winding runtime) :
    Follows runtime (renewNautilusRuntimeLease repository leaseSeconds now workerId locked runtime) ∧
      Winding (renewNautilusRuntimeLease repository leaseSeconds now workerId locked runtime) := by
  unfold renewNautilusRuntimeLease
  split
  · exact ⟨⟨id,id⟩,winds⟩
  · exact ⟨⟨id,id⟩,winds⟩

theorem release_follows (repository : Repository) (workerId : Nat) (locked : Bool) (runtime : NautilusRuntime)
    (winds : Winding runtime) :
    Follows runtime (releaseNautilusRuntimeLease repository workerId locked runtime) ∧
      Winding (releaseNautilusRuntimeLease repository workerId locked runtime) := by
  unfold releaseNautilusRuntimeLease
  split
  · exact ⟨⟨id,id⟩,fun killed => ⟨(winds killed).1,rfl⟩⟩
  · exact ⟨⟨id,id⟩,winds⟩

variable {leaseSeconds : Nat}
theorem claim_killed {now workerId : Nat} {locked : Bool}
    {runtime : NautilusRuntime} (winds : Winding runtime) (killed : runtime.killSwitchActive) :
    claimNautilusRuntimeLease repository leaseSeconds now workerId locked runtime = none ↔
      repository == .sql || !leaseFree now workerId runtime := by
  cases repository with
  | memory => simp [claimNautilusRuntimeLease]
  | sql => simp [claimNautilusRuntimeLease,(winds killed).1]
theorem claim_unkilled {now workerId : Nat} {locked : Bool} {runtime next : NautilusRuntime}
    (isClaim : claimNautilusRuntimeLease repository leaseSeconds now workerId locked runtime = some next) :
    next.killSwitchActive = runtime.killSwitchActive ∧ next.desiredState = runtime.desiredState := by
  rw [claimed_of_claim isClaim]
  exact ⟨rfl,rfl⟩

variable {system : System requests}
variable {label : Label requests} {next : System requests}

theorem final_follows (stepped : step repository leaseSeconds system label = some next)
    (unclaimed : claimedLease repository leaseSeconds system label = none)
    (follows : ∀ row, system.row = some row → ∃ runtime, next.row = some runtime ∧ Follows row runtime ∧ Winding runtime)
    (fresh : system.row = none → ∀ runtime, next.row = some runtime → Winding runtime) :
    Final repository leaseSeconds system label := by
  intro same again
  rw [stepped] at again
  cases again
  constructor
  · rintro ⟨row,found,killed⟩
    obtain ⟨runtime,foundNext,kept,_⟩ := follows row found
    exact ⟨⟨runtime,foundNext,kept.1 killed⟩,unclaimed⟩
  · intro runtime foundNext
    cases found : system.row with
    | none => exact fresh found runtime foundNext
    | some row =>
      obtain ⟨other,foundOther,_,winds⟩ := follows row found
      rw [foundNext] at foundOther
      cases foundOther
      exact winds

theorem final_unchanged
    (consistent : Consistent system) (stepped : step repository leaseSeconds system label = some next)
    (same : next.row = system.row) (unclaimed : claimedLease repository leaseSeconds system label = none) :
    Final repository leaseSeconds system label := by
  refine final_follows stepped unclaimed (fun row found => ?_) (fun none_ runtime found => ?_)
  · exact ⟨row,same.trans found,follows_refl row,consistent.winding row found⟩
  · rw [same,none_] at found
    cases found

theorem final_proceed_iff (consistent : Consistent system)
    (c : Fin requests) : Final repository leaseSeconds system (.proceed c) ↔ timely repository system (.proceed c) := by
  cases found : system.row with
  | none =>
    refine iff_of_true ?_ (by simp [timely,found])
    intro next stepped
    obtain ⟨after,proceeded,rfl⟩ := Option.map_eq_some_iff.mp stepped
    rw [found] at proceeded
    refine ⟨?_,fun runtime isNext killed => ?_⟩
    · rintro ⟨row,isRow,_⟩
      rw [found] at isRow
      cases isRow
    · have notLoaded : ∀ write loaded after, system.request c ≠ .loaded write loaded after := by
        intro write loaded after phase
        obtain ⟨row,isRow,_⟩ := consistent.earlier c write loaded after phase
        rw [found] at isRow
        cases isRow
      rw [proceed_none notLoaded proceeded runtime isNext] at killed
      cases killed
  | some row =>
    cases proceeded : proceed repository (some row) (system.request c) with
    | none =>
      have idle := proceed_idle proceeded
      refine iff_of_true ?_ (by simp [timely,found,idle,timelyWrite])
      intro next stepped
      simp only [step,found,proceeded] at stepped
      cases stepped
    | some after =>
      have stepped : step repository leaseSeconds system (.proceed c) = some (system.put c after) := by
        simp only [step,found,proceeded,Option.map_some]
      obtain ⟨runtime,isNext,follows,winds⟩ := proceed_row (consistent.winding row found) (consistent.wishes c)
        (fun write loaded later phase => by
          obtain ⟨same,isRow,earlier⟩ := consistent.earlier c write loaded later phase
          rw [found] at isRow
          cases isRow
          exact earlier) proceeded
      have same : timely repository system (.proceed c) = timelyWrite repository row (system.request c) := by
        simp only [timely,found]
      rw [same,← winds]
      constructor
      · intro final
        exact (final _ stepped).2 runtime isNext
      · intro winds
        refine final_follows stepped rfl (fun other isRow => ?_) (fun none_ => ?_)
        · rw [found] at isRow
          cases isRow
          exact ⟨runtime,isNext,follows,winds⟩
        · rw [found] at none_
          cases none_

theorem final_claim_iff (consistent : Consistent system) (workerId : Nat) (locked : Bool) :
    Final repository leaseSeconds system (.claim workerId locked) ↔ timely repository system (.claim workerId locked) := by
  cases found : system.row with
  | none =>
    refine iff_of_true (final_unchanged consistent ?_ rfl ?_) (by simp [timely,found])
    · simp only [step,claim,found,Option.bind_none]
    · simp only [claimedLease,claim,found,Option.bind_none]
  | some row =>
    have lease : claim repository leaseSeconds system workerId locked =
        claimNautilusRuntimeLease repository leaseSeconds system.now workerId locked row := by
      simp only [claim,found,Option.bind_some]
    by_cases killed : row.killSwitchActive
    · have winds := consistent.winding row found
      have same : timely repository system (.claim workerId locked) =
          (repository == .sql || !leaseFree system.now workerId row) := by
        simp [timely,found,killed]
      rw [same,← @claim_killed repository leaseSeconds system.now workerId locked row winds killed,← lease]
      constructor
      · intro final
        cases claimed : claim repository leaseSeconds system workerId locked with
        | none => rfl
        | some runtime =>
          have stepped : step repository leaseSeconds system (.claim workerId locked) =
              some { system with row := some runtime } := by
            simp only [step,claimed]
          exact claimed.symm.trans ((final _ stepped).1 ⟨row,found,killed⟩).2
      · intro unclaimed
        exact final_unchanged consistent (by simp only [step,unclaimed]) rfl unclaimed
    · refine iff_of_true ?_ (by simp [timely,found,killed])
      intro next stepped
      refine ⟨?_,?_⟩
      · rintro ⟨other,isRow,isKilled⟩
        rw [found] at isRow
        cases isRow
        exact absurd isKilled killed
      · intro runtime isNext isKilled
        simp only [step,lease] at stepped
        split at stepped
        · cases stepped
          rw [found] at isNext
          cases isNext
          exact absurd isKilled killed
        · rename_i claimed
          cases stepped
          cases isNext
          rw [(claim_unkilled claimed).1] at isKilled
          exact absurd isKilled killed

theorem final_iff (consistent : Consistent system)
    (label : Label requests) : Final repository leaseSeconds system label ↔ timely repository system label := by
  cases label with
  | tick amount => exact iff_of_true (final_unchanged consistent rfl rfl rfl) (by unfold timely; split <;> simp_all)
  | append workerId locked => exact iff_of_true (final_unchanged consistent rfl rfl rfl) (by unfold timely; split <;> simp_all)
  | request c request =>
    refine iff_of_true ?_ (by unfold timely; split <;> simp_all)
    by_cases idle : system.request c = .idle
    · exact final_unchanged consistent (if_pos idle) rfl rfl
    · intro next stepped
      simp only [step,if_neg idle] at stepped
      cases stepped
  | renew workerId locked =>
    refine iff_of_true ?_ (by unfold timely; split <;> simp_all)
    refine final_follows rfl rfl (fun row found => ?_) (fun none_ runtime found => ?_)
    · have renewal := renew_follows repository leaseSeconds system.now workerId locked row (consistent.winding row found)
      exact ⟨_,by rw [found]; rfl,renewal⟩
    · rw [none_] at found
      cases found
  | release workerId locked =>
    refine iff_of_true ?_ (by unfold timely; split <;> simp_all)
    refine final_follows rfl rfl (fun row found => ?_) (fun none_ runtime found => ?_)
    · have release := release_follows repository workerId locked row (consistent.winding row found)
      exact ⟨_,by rw [found]; rfl,release⟩
    · rw [none_] at found
      cases found
  | proceed c => exact final_proceed_iff consistent c
  | claim workerId locked => exact final_claim_iff consistent workerId locked

theorem step_follows
    (consistent : Consistent system) (stepped : step repository leaseSeconds system label = some next) (found : system.row = some row) :
    ∃ runtime, next.row = some runtime ∧ Follows row runtime := by
  have winds := consistent.winding row found
  cases label with
  | tick amount =>
    cases stepped
    exact ⟨row,found,follows_refl row⟩
  | append workerId locked =>
    cases stepped
    exact ⟨row,found,follows_refl row⟩
  | request c request =>
    simp only [step] at stepped
    split at stepped <;> cases stepped
    exact ⟨row,found,follows_refl row⟩
  | renew workerId locked =>
    cases stepped
    exact ⟨_,by rw [found]; rfl,(renew_follows repository leaseSeconds system.now workerId locked row winds).1⟩
  | release workerId locked =>
    cases stepped
    exact ⟨_,by rw [found]; rfl,(release_follows repository workerId locked row winds).1⟩
  | proceed c =>
    obtain ⟨after,proceeded,rfl⟩ := Option.map_eq_some_iff.mp stepped
    rw [found] at proceeded
    obtain ⟨runtime,isNext,follows,_⟩ := proceed_row winds (consistent.wishes c)
      (fun write loaded later phase => by
        obtain ⟨same,isRow,earlier⟩ := consistent.earlier c write loaded later phase
        rw [found] at isRow
        cases isRow
        exact earlier) proceeded
    exact ⟨runtime,isNext,follows⟩
  | claim workerId locked =>
    simp only [step,claim,found,Option.bind_some] at stepped
    split at stepped
    · cases stepped
      exact ⟨row,found,follows_refl row⟩
    · rename_i runtime claimed
      cases stepped
      obtain ⟨kill,wish⟩ := claim_unkilled claimed
      exact ⟨runtime,rfl,fun killed => kill.trans killed,fun already => wish.trans already⟩

theorem step_phase (stepped : step repository leaseSeconds system label = some next) (c : Fin requests) :
    next.request c = system.request c ∨ (∃ request : Request, next.request c = request.phase) ∨
      ∃ after, proceed repository system.row (system.request c) = some after ∧ next.row = after.2 ∧ next.request c = after.1 := by
  cases label with
  | tick amount | append workerId locked | renew workerId locked | release workerId locked =>
    cases stepped
    exact .inl rfl
  | request d request =>
    simp only [step] at stepped
    split at stepped <;> cases stepped
    simp only [System.put,Function.update_apply]
    split
    · exact .inr (.inl ⟨request,rfl⟩)
    · exact .inl rfl
  | proceed d =>
    obtain ⟨after,proceeded,rfl⟩ := Option.map_eq_some_iff.mp stepped
    simp only [System.put,Function.update_apply]
    split
    · rename_i same
      exact .inr (.inr ⟨after,same ▸ proceeded,rfl,rfl⟩)
    · exact .inl rfl
  | claim workerId locked =>
    simp only [step] at stepped
    split at stepped <;> cases stepped <;> exact .inl rfl

theorem request_phase (request : Request) :
    (∀ desiredState, .setDesiredState desiredState ∈ pending request.phase → desiredState = .stopping) ∧
      ∀ write loaded after, request.phase ≠ .loaded write loaded after := by
  cases request with
  | event type => cases type <;> simp [Request.phase,pending]
  | start mode strategyId | heartbeat warmup | stop | killSwitch => simp [Request.phase,pending]

theorem consistent_step (consistent : Consistent system) (final : Final repository leaseSeconds system label)
    (stepped : step repository leaseSeconds system label = some next) : Consistent next := by
  refine ⟨(final next stepped).2,?_,?_⟩
  · intro c desiredState member
    rcases step_phase stepped c with same | ⟨request,first⟩ | ⟨after,proceeded,_,same⟩
    · exact consistent.wishes c desiredState (same ▸ member)
    · exact (request_phase request).1 desiredState (first ▸ member)
    · exact consistent.wishes c desiredState ((proceed_phase proceeded).1 desiredState (same ▸ member))
  · intro c write loaded after phase
    rcases step_phase stepped c with same | ⟨request,first⟩ | ⟨later,proceeded,isRow,same⟩
    · obtain ⟨row,found,earlier⟩ := consistent.earlier c write loaded after (same.symm.trans phase)
      obtain ⟨runtime,isNext,follows⟩ := step_follows consistent stepped found
      exact ⟨runtime,isNext,earlier_follows follows earlier⟩
    · exact absurd (first.symm.trans phase) ((request_phase request).2 write loaded after)
    · obtain ⟨found,unchanged⟩ := (proceed_phase proceeded).2 write loaded after (same.symm.trans phase)
      refine ⟨loaded,isRow.trans (unchanged.trans found),fun killed => ⟨killed,?_⟩,id⟩
      exact (consistent.winding loaded found killed).2

/-- The kill switch is final in exactly the runs whose steps are timely. -/
theorem kill_switch_final_iff (repository : Repository) (leaseSeconds : Nat) (labels : List (Label requests)) :
    Meets (step repository leaseSeconds) (Final repository leaseSeconds) (initial requests) labels ↔
      Meets (step repository leaseSeconds) (fun system label => timely repository system label) (initial requests) labels :=
  meets_iff (fun _ _ _ => consistent_step) (fun _ label consistent => final_iff consistent label) consistent_initial
/-- A heartbeat reads a provisioning runtime before the kill. -/
def heartbeatBeforeKill : List (Label 2) :=
  [.request 0 (.start .paper 7),.proceed 0,.proceed 0,.claim 1 false,
    .request 0 (.heartbeat none),.proceed 0,.request 1 .killSwitch,.proceed 1,.proceed 1]

theorem kill_switch_not_final : ¬ ∀ (requests : Nat) (repository : Repository) (leaseSeconds : Nat)
    (labels : List (Label requests)),
    Meets (step repository leaseSeconds) (Final repository leaseSeconds) (initial requests) labels := by
  intro always
  have meets := always 2 .sql 60 (heartbeatBeforeKill ++ [Label.proceed 0])
  obtain ⟨system,reached,next,stepped,runtime,isNext,killed,running⟩ :
      ∃ system, run (step .sql 60) (initial 2) heartbeatBeforeKill = some system ∧
        ∃ next, step .sql 60 system (.proceed 0) = some next ∧
          ∃ runtime, next.row = some runtime ∧ runtime.killSwitchActive ∧ runtime.state = .running :=
    ⟨_,rfl,_,rfl,_,rfl,rfl,rfl⟩
  have final := ((meets_append meets).2 system reached).1 next stepped
  have winds := (final.2 runtime isNext killed).2
  rw [running] at winds
  cases winds

end Codebot.KillSwitch
