import Codebot.JobLeases

/-!
The quota of a workspace. A claim counts the active jobs of the workspace in its snapshot and commits later, under a
lock of the one row, so two claims see the same free slot (`quota_not_kept`, `quota_kept_iff`).
-/
namespace Codebot.WorkspaceQuota
open Runs Tables JobTable BacktestWorker ChatWorker JobLeases
open TerminalStatuses (heartbeat_writes)
variable {workers requests chats : Nat}

/-- A claim at its commit: the statement with its time and its snapshot, the row
    as the snapshot has it and as it is now, and the write. -/
structure Commit where
  claimer : Claimer
  at_ : Nat
  snapshot : List RunJobRow
  loaded : RunJobRow
  job : RunJobRow
  write : RunJobRow → RunJobRow

/-- The commit of a step, if the step is a claim that takes a job. -/
def commit (settings : Settings) (fleet : Fleet workers requests chats) :
    FleetLabel workers requests chats → Option Commit
  | .backtest (.take w locked) =>
    match fleet.world.worker w with
    | .claiming snapshot at_ =>
      (claimRows settings .claimJob at_ snapshot locked fleet.db.jobs).map fun rows =>
        ⟨.claimJob,at_,snapshot,rows.1,rows.2,claimed settings at_ w⟩
    | _ => none
  | .take c locked =>
    match fleet.chat c with
    | .claiming jobType snapshot at_ =>
      (claimRows settings (.claimRunJob jobType) at_ snapshot locked fleet.db.jobs).map fun rows =>
        ⟨.claimRunJob jobType,at_,snapshot,rows.1,rows.2,
          claimedRunJob settings.chatLeaseSeconds at_ (Party.chat c : Party workers chats).workerId rows.1⟩
    | _ => none
  | _ => none

def Commit.active (commit : Commit) (db : Db) : Nat :=
  activeCount db.now commit.job.jobType commit.job.workspaceId db.jobs
/-- Right after a claim commits, the workspace has no more active jobs of the type
    than the limit of the claimed job. -/
def QuotaKept (settings : Settings) (fleet : Fleet workers requests chats) (label : FleetLabel workers requests chats) : Prop :=
  ∀ claim ∈ commit settings fleet label, ∀ next, fleetStep settings fleet label = some next →
    (claim.active next.db : Int) ≤ claim.claimer.limit settings claim.job
/-- At the commit the workspace still has a free slot. -/
def StillFree (settings : Settings) (fleet : Fleet workers requests chats) (label : FleetLabel workers requests chats) : Prop :=
  ∀ claim ∈ commit settings fleet label,
    if leaseActive fleet.db.now (claim.write claim.job) then
      (claim.active fleet.db : Int) < claim.claimer.limit settings claim.job
    else (claim.active fleet.db : Int) ≤ claim.claimer.limit settings claim.job
/-- Every job of the type and the workspace that is active at the commit was
    active in the snapshot. -/
def Quiet (settings : Settings) (fleet : Fleet workers requests chats) (label : FleetLabel workers requests chats) : Prop :=
  ∀ claim ∈ commit settings fleet label, ∀ row ∈ fleet.db.jobs,
    activeIn fleet.db.now claim.job.jobType claim.job.workspaceId row →
      ∃ seen ∈ claim.snapshot, seen.id = row.id ∧ activeIn claim.at_ claim.job.jobType claim.job.workspaceId seen
instance (settings : Settings) (fleet : Fleet workers requests chats) (label : FleetLabel workers requests chats) :
    Decidable (StillFree settings fleet label) :=
  inferInstanceAs (Decidable (∀ claim ∈ commit settings fleet label,
    if leaseActive fleet.db.now (claim.write claim.job) then
      (claim.active fleet.db : Int) < claim.claimer.limit settings claim.job
    else (claim.active fleet.db : Int) ≤ claim.claimer.limit settings claim.job))

/-- The snapshot of a claim that has not committed, with its time. -/
def snapshots (fleet : Fleet workers requests chats) : Party workers chats → Option (List RunJobRow × Nat)
  | .backtest w =>
    match fleet.world.worker w with
    | .claiming snapshot at_ => some (snapshot,at_)
    | _ => none
  | .chat c =>
    match fleet.chat c with
    | .claiming _ snapshot at_ => some (snapshot,at_)
    | _ => none

/-- The keys are distinct, and a snapshot is of an earlier time and shows jobs
    that still exist with the same type, workspace and limit. -/
structure Counted (fleet : Fleet workers requests chats) : Prop where
  leases : Leases fleet
  distinct : (fleet.db.jobs.map Keyed.key).Nodup
  before : ∀ party snapshot at_, snapshots fleet party = some (snapshot,at_) → at_ ≤ fleet.db.now
  shown : ∀ party snapshot at_, snapshots fleet party = some (snapshot,at_) → ∀ seen ∈ snapshot,
    ∃ row, find fleet.db.jobs seen.id = some row ∧ SameJob seen row

theorem counted_initial : Counted (initialFleet workers requests chats) := by
  refine ⟨leases_initial,List.nodup_nil,?_,?_⟩
  · rintro (w | c) snapshot at_ ⟨⟩
  · rintro (w | c) snapshot at_ ⟨⟩

variable {settings : Settings}
variable {db : Db} {outcome : Outcome}
theorem work_snapshot {workerId : Nat} {phase : Phase}
    {next : Phase × Db} (stepped : work settings workerId db phase outcome = some next) :
    next.2.now = db.now ∧ ∀ snapshot at_, next.1 ≠ .claiming snapshot at_ := by
  cases phase <;> cases outcome <;> simp only [work] at stepped <;> try split at stepped
  all_goals first | cases stepped <;> simp | split at stepped <;> cases stepped <;> simp
theorem chatWork_snapshot {phase : ChatPhase} {next : ChatPhase × Db}
    (stepped : chatWork db phase outcome = some next) :
    next.2.now = db.now ∧ ∀ jobType snapshot at_, next.1 ≠ .claiming jobType snapshot at_ := by
  cases phase <;> cases outcome <;> simp only [chatWork] at stepped <;> try split at stepped
  all_goals cases stepped <;> simp [ChatPhase.start]

theorem step_snapshots {world next : World workers requests} {label : Label workers requests}
    (stepped : step settings world label = some next) :
    world.db.now ≤ next.db.now ∧ ∀ v snapshot at_, next.worker v = .claiming snapshot at_ →
      world.worker v = .claiming snapshot at_ ∨ snapshot = world.db.jobs ∧ at_ = world.db.now := by
  have put : ∀ w (after : Phase × Db), (∀ snapshot at_, after.1 ≠ .claiming snapshot at_) →
      ∀ v snapshot at_, (world.put w after).worker v = .claiming snapshot at_ → world.worker v = .claiming snapshot at_ := by
    intro w after other v snapshot at_ phase
    simp only [World.put,Function.update_apply] at phase
    split at phase
    · exact absurd phase (other snapshot at_)
    · exact phase
  cases label with
  | tick amount =>
    cases stepped
    exact ⟨Nat.le_add_right _ _,fun _ _ _ phase => .inl phase⟩
  | createRun id =>
    simp only [step] at stepped
    split at stepped <;> cases stepped
    exact ⟨le_rfl,fun _ _ _ phase => .inl phase⟩
  | createRunJob input =>
    simp only [step] at stepped
    split at stepped <;> cases stepped
    exact ⟨le_rfl,fun _ _ _ phase => .inl phase⟩
  | claim w =>
    simp only [step] at stepped
    split at stepped <;> cases stepped
    refine ⟨le_rfl,?_⟩
    intro v snapshot at_ phase
    simp only [World.put,Function.update_apply] at phase
    split at phase
    · cases phase
      exact .inr ⟨rfl,rfl⟩
    · exact .inl phase
  | take w locked =>
    simp only [step,take] at stepped
    split at stepped
    · split at stepped <;> cases stepped <;>
        exact ⟨le_rfl,fun v snapshot at_ phase => .inl (put w _ (by simp) v snapshot at_ phase)⟩
    · cases stepped
  | heartbeat w connected =>
    obtain ⟨after,beat,rfl⟩ := Option.map_eq_some_iff.mp stepped
    obtain ⟨job,lost,phase,⟨later,still⟩,written⟩ := heartbeat_writes beat
    refine ⟨?_,fun v snapshot at_ phase => .inl (put w _ (by simp [still]) v snapshot at_ phase)⟩
    rcases written with same | ⟨until_,same⟩
    · exact le_of_eq (congrArg Db.now same).symm
    · exact le_of_eq (congrArg Db.now same).symm
  | work w outcome =>
    obtain ⟨after,worked,rfl⟩ := Option.map_eq_some_iff.mp stepped
    obtain ⟨same,other⟩ := work_snapshot worked
    exact ⟨same.ge,fun v snapshot at_ phase => .inl (put w _ other v snapshot at_ phase)⟩
  | cancelRun c runId =>
    simp only [step] at stepped
    split at stepped
    · split at stepped <;> cases stepped <;> exact ⟨le_rfl,fun _ _ _ phase => .inl phase⟩
    · cases stepped
  | cancel c =>
    obtain ⟨after,answered,rfl⟩ := Option.map_eq_some_iff.mp stepped
    refine ⟨?_,fun _ _ _ phase => .inl phase⟩
    unfold cancel at answered
    split at answered
    · cases answered
    · split at answered <;> cases answered <;> exact le_rfl
    · split at answered <;> cases answered <;> exact le_rfl
    · cases answered
      exact le_rfl
    · cases answered
      exact le_rfl

variable {fleet : Fleet workers requests chats} {label : FleetLabel workers requests chats}
  {next : Fleet workers requests chats}

theorem fleetStep_snapshots (stepped : fleetStep settings fleet label = some next) :
    fleet.db.now ≤ next.db.now ∧ ∀ party snapshot at_, snapshots next party = some (snapshot,at_) →
      snapshots fleet party = some (snapshot,at_) ∨ snapshot = fleet.db.jobs ∧ at_ = fleet.db.now := by
  have put : ∀ c (after : ChatPhase × Db), (∀ jobType snapshot at_, after.1 ≠ .claiming jobType snapshot at_) →
      ∀ party snapshot at_, snapshots (fleet.put c after) party = some (snapshot,at_) →
        snapshots fleet party = some (snapshot,at_) := by
    rintro c after other (v | d) snapshot at_ shown
    · exact shown
    · simp only [snapshots,Fleet.put,Function.update_apply] at shown ⊢
      split at shown
      · rename_i phase
        split at phase
        · exact absurd phase (other _ _ _)
        · rwa [phase]
      · cases shown
  cases label with
  | backtest label =>
    obtain ⟨moved,chat⟩ := backtestStep_world stepped
    obtain ⟨later,phases⟩ := step_snapshots moved
    refine ⟨later,?_⟩
    rintro (v | d) snapshot at_ shown
    · simp only [snapshots] at shown
      split at shown
      · rename_i phase
        cases shown
        rcases phases v _ _ phase with before | now
        · simp [snapshots,before]
        · exact .inr now
      · cases shown
    · refine .inl ?_
      simpa only [snapshots,chat] using shown
  | claim c =>
    simp only [fleetStep] at stepped
    split at stepped <;> cases stepped
    refine ⟨le_rfl,?_⟩
    rintro (v | d) snapshot at_ shown
    · exact .inl shown
    · simp only [snapshots,Fleet.put,Function.update_apply] at shown ⊢
      split at shown
      · rename_i phase
        split at phase
        · cases phase
          cases shown
          exact .inr ⟨rfl,rfl⟩
        · rw [phase]
          exact .inl shown
      · cases shown
  | take c locked =>
    simp only [fleetStep,chatTake] at stepped
    split at stepped
    · split at stepped <;> cases stepped
      · exact ⟨le_rfl,fun party snapshot at_ shown => .inl (put c _ (by simp) party snapshot at_ shown)⟩
      · refine ⟨le_rfl,?_⟩
        rintro (v | d) snapshot at_ shown
        · exact .inl shown
        · exact .inl (put c _ (by simp) (.chat d) snapshot at_ shown)
    · cases stepped
  | work c outcome =>
    obtain ⟨after,worked,rfl⟩ := Option.map_eq_some_iff.mp stepped
    obtain ⟨same,other⟩ := chatWork_snapshot worked
    exact ⟨same.ge,fun party snapshot at_ shown => .inl (put c _ other party snapshot at_ shown)⟩

theorem counted_step (counted : Counted fleet) (stepped : fleetStep settings fleet label = some next) :
    Counted next := by
  have change := fleetStep_jobs counted.leases stepped
  obtain ⟨later,snapshots⟩ := fleetStep_snapshots stepped
  refine ⟨leases_step counted.leases stepped,jobsStep_distinct change counted.distinct,?_,?_⟩
  · intro party snapshot at_ after
    rcases snapshots party snapshot at_ after with before | ⟨_,rfl⟩
    · exact (counted.before party snapshot at_ before).trans later
    · exact later
  · intro party snapshot at_ after seen member
    have known : ∃ row, find fleet.db.jobs seen.id = some row ∧ SameJob seen row := by
      rcases snapshots party snapshot at_ after with before | ⟨rfl,_⟩
      · exact counted.shown party snapshot at_ before seen member
      · exact ⟨seen,find_of_mem counted.distinct member,rfl,rfl,rfl⟩
    obtain ⟨row,found,same⟩ := known
    obtain ⟨last,foundLast,again⟩ := jobsStep_sameJob change found
    exact ⟨last,foundLast,again.1.trans same.1,again.2.1.trans same.2.1,again.2.2.trans same.2.2⟩

/-- The two statements that commit a claim. -/
inductive Commits (settings : Settings) (fleet : Fleet workers requests chats) :
    FleetLabel workers requests chats → Commit → Prop
  | claimJob (w : Fin workers) (locked : List Nat) (snapshot : List RunJobRow) (at_ : Nat) (loaded job : RunJobRow) :
      fleet.world.worker w = .claiming snapshot at_ →
      claimRows settings .claimJob at_ snapshot locked fleet.db.jobs = some (loaded,job) →
      Commits settings fleet (.backtest (.take w locked)) ⟨.claimJob,at_,snapshot,loaded,job,claimed settings at_ w⟩
  | claimRunJob (c : Fin chats) (locked : List Nat) (jobType : JobType) (snapshot : List RunJobRow) (at_ : Nat)
      (loaded job : RunJobRow) :
      fleet.chat c = .claiming jobType snapshot at_ →
      claimRows settings (.claimRunJob jobType) at_ snapshot locked fleet.db.jobs = some (loaded,job) →
      Commits settings fleet (.take c locked) ⟨.claimRunJob jobType,at_,snapshot,loaded,job,
        claimedRunJob settings.chatLeaseSeconds at_ (Party.chat c : Party workers chats).workerId loaded⟩

theorem commit_cases {claim : Commit} (committed : commit settings fleet label = some claim) :
    Commits settings fleet label claim := by
  unfold commit at committed
  split at committed
  · split at committed
    · rename_i phase
      obtain ⟨⟨loaded,job⟩,rows,rfl⟩ := Option.map_eq_some_iff.mp committed
      exact .claimJob _ _ _ _ _ _ phase rows
    · cases committed
  · split at committed
    · rename_i phase
      obtain ⟨⟨loaded,job⟩,rows,rfl⟩ := Option.map_eq_some_iff.mp committed
      exact .claimRunJob _ _ _ _ _ _ _ phase rows
    · cases committed
  · cases committed

theorem claimable_inactive {at_ now : Nat} (later : at_ ≤ now) {jobType : JobType} {job : RunJobRow}
    (free : claimable at_ jobType job) : leaseActive now job = false := by
  simp only [claimable,Bool.and_eq_true,Bool.or_eq_true,beq_iff_eq] at free
  rcases free.2 with queued | expired
  · simp [leaseActive,queued]
  · unfold leaseExpired at expired
    cases leased : job.leasedUntil with
    | none => simp [leaseActive,leased]
    | some until_ =>
      simp only [leased,Option.any_some,decide_eq_true_eq] at expired
      have past : ¬ now ≤ until_ := by omega
      simp [leaseActive,leased,past]

theorem commit_known {claim : Commit} (counted : Counted fleet) (committed : commit settings fleet label = some claim) :
    find fleet.db.jobs claim.job.id = some claim.job ∧ leaseActive fleet.db.now claim.job = false ∧
      claim.loaded ∈ claim.snapshot ∧ SameJob claim.loaded claim.job ∧
      withinQuota settings claim.claimer claim.at_ claim.snapshot claim.loaded := by
  have known : ∀ party claimer at_ snapshot locked loaded job, snapshots fleet party = some (snapshot,at_) →
      claimRows settings claimer at_ snapshot locked fleet.db.jobs = some (loaded,job) →
      find fleet.db.jobs job.id = some job ∧ leaseActive fleet.db.now job = false ∧ loaded ∈ snapshot ∧
        SameJob loaded job ∧ withinQuota settings claimer at_ snapshot loaded := by
    intro party claimer at_ snapshot locked loaded job shown rows
    obtain ⟨keyed,found,free,member,_,quota⟩ := claimRows_some rows
    obtain ⟨row,foundRow,same⟩ := counted.shown party snapshot at_ shown loaded member
    rw [keyed,found] at foundRow
    cases foundRow
    exact ⟨found,claimable_inactive (counted.before party snapshot at_ shown) free,member,same,quota⟩
  cases commit_cases committed with
  | claimJob w locked snapshot at_ loaded job phase rows =>
    exact known (.backtest w) _ _ _ _ _ _ (by simp only [snapshots,phase]) rows
  | claimRunJob c locked jobType snapshot at_ loaded job phase rows =>
    exact known (.chat c) _ _ _ _ _ _ (by simp only [snapshots,phase]) rows

theorem commit_step {claim : Commit} (committed : commit settings fleet label = some claim) :
    (∃ next, fleetStep settings fleet label = some next ∧ next.db.now = fleet.db.now ∧
      next.db.jobs = update fleet.db.jobs claim.job.id claim.write) ∧
      (∀ row, Keyed.key (claim.write row) = Keyed.key row) ∧ ∀ row, SameJob row (claim.write row) := by
  cases commit_cases committed with
  | claimJob w locked snapshot at_ loaded job phase rows =>
    refine ⟨?_,fun _ => rfl,fun _ => ⟨rfl,rfl,rfl⟩⟩
    have candidate : claimCandidate settings .claimJob at_ snapshot locked fleet.world.db.jobs = some job := by
      change claimRows settings .claimJob at_ snapshot locked fleet.world.db.jobs = _ at rows
      rw [claimCandidate,rows]
      rfl
    have taken : takes settings fleet.world w locked = some job := by simp only [takes,phase,candidate]
    simp only [fleetStep,backtestStep,step,take,phase,candidate,taken,Option.map_some,Option.some.injEq,exists_eq_left']
    exact ⟨rfl,rfl⟩
  | claimRunJob c locked jobType snapshot at_ loaded job phase rows =>
    refine ⟨?_,fun _ => rfl,fun _ => ⟨rfl,rfl,rfl⟩⟩
    simp only [fleetStep,chatTake,phase,rows,Option.some.injEq,exists_eq_left']
    exact ⟨rfl,rfl⟩

theorem active_commit {claim : Commit} (counted : Counted fleet)
    (committed : commit settings fleet label = some claim) (stepped : fleetStep settings fleet label = some next) :
    claim.active next.db = claim.active fleet.db + if leaseActive fleet.db.now (claim.write claim.job) then 1 else 0 := by
  obtain ⟨⟨same,again,now,jobs⟩,keyed,kept⟩ := commit_step committed
  rw [stepped] at again
  cases again
  obtain ⟨found,inactive,_⟩ := commit_known counted committed
  have before : activeIn fleet.db.now claim.job.jobType claim.job.workspaceId claim.job = false := by
    simp [activeIn,inactive]
  have counts := @countP_update _ _ _ counted.distinct _ _ found claim.write _ before
  obtain ⟨ofType,ofWorkspace,_⟩ := kept claim.job
  have after : activeIn fleet.db.now claim.job.jobType claim.job.workspaceId (claim.write claim.job) =
      leaseActive fleet.db.now (claim.write claim.job) := by
    simp [activeIn,ofType,ofWorkspace]
  rw [after] at counts
  rw [Commit.active,Commit.active,activeCount,activeCount,now,jobs]
  exact counts

theorem quota_step_iff (counted : Counted fleet)
    (label : FleetLabel workers requests chats) : QuotaKept settings fleet label ↔ StillFree settings fleet label := by
  refine forall_congr' fun claim => forall_congr' fun committed => ?_
  obtain ⟨⟨next,stepped,_⟩,_⟩ := commit_step committed
  have counts := active_commit counted committed stepped
  by_cases started : leaseActive fleet.db.now (claim.write claim.job)
  · rw [if_pos started] at counts ⊢
    constructor
    · intro kept
      have bound := kept next stepped
      omega
    · intro free other again
      rw [stepped] at again
      cases again
      omega
  · rw [if_neg started] at counts ⊢
    constructor
    · intro kept
      have bound := kept next stepped
      omega
    · intro free other again
      rw [stepped] at again
      cases again
      omega

theorem quiet_stillFree (counted : Counted fleet) (quiet : Quiet settings fleet label) :
    StillFree settings fleet label := by
  intro claim committed
  obtain ⟨_,_,_,⟨ofType,ofWorkspace,ofLimit⟩,quota⟩ := commit_known counted committed
  have fewer : claim.active fleet.db ≤ activeCount claim.at_ claim.job.jobType claim.job.workspaceId claim.snapshot :=
    countP_le counted.distinct (quiet claim committed)
  have sameLimit : claim.claimer.limit settings claim.loaded = claim.claimer.limit settings claim.job := by
    cases claim.claimer <;> simp [Claimer.limit,ofLimit]
  unfold withinQuota at quota
  rw [Bool.and_eq_true,decide_eq_true_eq,← ofType,← ofWorkspace,sameLimit] at quota
  have free := quota.1
  split <;> omega

/-- Claims keep the quota of a workspace exactly in the runs where, at every commit, the slot that the claim saw is
    still free. -/
theorem quota_kept_iff (settings : Settings) (labels : List (FleetLabel workers requests chats)) :
    (Meets (fleetStep settings) (QuotaKept settings) (initialFleet workers requests chats) labels ↔
      Meets (fleetStep settings) (StillFree settings) (initialFleet workers requests chats) labels) ∧
    (Meets (fleetStep settings) (Quiet settings) (initialFleet workers requests chats) labels →
      Meets (fleetStep settings) (QuotaKept settings) (initialFleet workers requests chats) labels) := by
  constructor
  · exact meets_iff (fun _ _ _ counted _ => counted_step counted) (fun _ label counted => quota_step_iff counted label) counted_initial
  · exact meets_mono (fun _ _ _ counted _ => counted_step counted)
      (fun _ label counted quiet => (quota_step_iff counted label).mpr (quiet_stillFree counted quiet)) counted_initial

local instance twoWorkers : @NeZero Nat Zero.ofOfNat0 2 := @NeZero.mk Nat Zero.ofOfNat0 2 (Nat.succ_ne_zero 1)

/-- Two backtest workers take their snapshots before either commits. -/
def bothClaiming : List (FleetLabel 2 0 0) :=
  [.backtest (.createRun 0),.backtest (.createRunJob ⟨0,0,0,.backtestPreview,.integer 1,none,2⟩),
    .backtest (.createRunJob ⟨1,0,0,.backtestPreview,.integer 1,none,2⟩),
    .backtest (.claim 0),.backtest (.claim 1),.backtest (.take 0 [])]

theorem quota_not_kept : ¬ ∀ (workers requests chats : Nat) (settings : Settings)
    (labels : List (FleetLabel workers requests chats)),
    Meets (fleetStep settings) (QuotaKept settings) (initialFleet workers requests chats) labels := by
  intro always
  have meets := always 2 0 0 ⟨60,60,2,1⟩ (bothClaiming ++ [FleetLabel.backtest (.take 1 [])])
  obtain ⟨fleet,reached,full⟩ : ∃ fleet, run (fleetStep ⟨60,60,2,1⟩) (initialFleet 2 0 0) bothClaiming = some fleet ∧
      ¬ StillFree ⟨60,60,2,1⟩ fleet (.backtest (.take 1 [])) := ⟨_,rfl,by decide⟩
  have counted : Counted fleet := reachable_keeps (fun _ _ _ => counted_step) counted_initial ⟨_,reached⟩
  exact full ((quota_step_iff counted _).mp ((meets_append meets).2 fleet reached).1)

end Codebot.WorkspaceQuota
