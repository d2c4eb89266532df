import Mathlib.Data.List.Induction
import Codebot.BacktestApprovals

/-!
What a backtest approval authorises. A job is queued only under an approval that was granted (`granted_first`). That
it is the only job of its approval, and that it carries the plan that was presented, the code leaves to its callers
(`one_run_of_one_plan_iff`).
-/
namespace Codebot.PlanApprovals
open Texts BacktestConfigs BacktestApprovals Runs List
open Tables (Keyed find find_of_mem find_mem find_key distinct_append)

instance : Keyed Job := ⟨Job.id⟩
def Granted (s : Conversation) (approvalId : Nat) : Prop :=
  ∃ event ∈ s.events, event.type = .approved ∧ event.approvalId = some approvalId
def HasJob (s : Conversation) (approvalId run job : Nat) : Prop :=
  ∃ entry ∈ s.jobs, entry.approvalId = approvalId ∧ entry.run = run ∧ entry.id = job
def Unspent (s : Conversation) (approvalId : Nat) : Prop := ∀ job ∈ s.jobs, job.approvalId ≠ approvalId
instance (s : Conversation) (approvalId : Nat) : Decidable (Unspent s approvalId) :=
  inferInstanceAs (Decidable (∀ job ∈ s.jobs, job.approvalId ≠ approvalId))
def Carries (job : Job) (plan : Plan) : Prop :=
  job.strategySpec = plan.strategySpec ∧ job.pineCode = plan.pineCode ∧
    userFacingBacktestConfig job.backtestConfig = plan.backtestConfig
def Kept (tools : Tools) (config : BacktestConfig) : Prop :=
  ∀ enabled, normalizeBacktestConfig tools.toRuntime enabled config.fields = if enabled then some config else none
/-- A plan as `create_backtest_plan` presents it: its reading gives the config and the
    script that it shows. -/
def Presentable (tools : Tools) (plan : Plan) : Prop :=
  requiredPine tools plan.pineCode plan.strategySpec = some plan.pineCode ∧
    ∃ config, Kept tools config ∧ userFacingBacktestConfig config = plan.backtestConfig ∧
      ∀ enabled, normalizeBacktestConfig tools.toRuntime enabled plan.backtestConfig = if enabled then some config else none

/-- What stands behind the work of a request or a call. -/
def Backed (tools : Tools) (s : Conversation) : Pending → Prop
  | .approving found => found.plan ∈ s.plans
  | .queueing found => found.plan ∈ s.plans ∧ Granted s found.plan.approvalId
  | .noting found run job => Granted s found.plan.approvalId ∧ HasJob s found.plan.approvalId run job
  | .announcing found run job => Granted s found.plan.approvalId ∧ HasJob s found.plan.approvalId run job
  | .previewing approvalId strategySpec pineCode config =>
    Granted s approvalId ∧ Kept tools config ∧ requiredPine tools pineCode strategySpec = some pineCode
  | _ => True

/-- What a queued event names. -/
def Names (s : Conversation) (event : RunEvent) : Prop :=
  ∃ approvalId run job, event.approvalId = some approvalId ∧ event.child = some (run,job) ∧
    Granted s approvalId ∧ HasJob s approvalId run job

structure Consistent (tools : Tools) (s : Conversation) : Prop where
  plans : (s.plans.map Keyed.key).Nodup
  newPlan : ∀ plan ∈ s.plans, plan.approvalId < s.next
  presentable : ∀ plan ∈ s.plans, Presentable tools plan
  jobs : (s.jobs.map Keyed.key).Nodup
  newJob : ∀ job ∈ s.jobs, job.id < s.next
  backed : ∀ work ∈ s.pending, Backed tools s work
  queued : ∀ event ∈ s.events, event.type = .queued → Names s event

variable {tools : Tools}
/-- Events, plans and jobs are added, never taken away. -/
structure Grows (s t : Conversation) : Prop where
  events : s.events ⊆ t.events
  plans : s.plans ⊆ t.plans
  jobs : s.jobs ⊆ t.jobs

variable {approvalId : Nat}
variable {s t : Conversation}
theorem granted_grows (grows : Grows s t) (granted : Granted s approvalId) : Granted t approvalId := by
  obtain ⟨event,member,found⟩ := granted
  exact ⟨event,grows.events member,found⟩

variable {run : Nat}
theorem hasJob_grows (grows : Grows s t) {job : Nat}
    (has : HasJob s approvalId run job) : HasJob t approvalId run job := by
  obtain ⟨entry,member,found⟩ := has
  exact ⟨entry,grows.jobs member,found⟩

variable {work : Pending}

theorem backed_grows (grows : Grows s t) (backed : Backed tools s work) : Backed tools t work := by
  cases work with
  | approving found => exact grows.plans backed
  | queueing found => exact ⟨grows.plans backed.1,granted_grows grows backed.2⟩
  | noting found run job => exact ⟨granted_grows grows backed.1,hasJob_grows grows backed.2⟩
  | announcing found run job => exact ⟨granted_grows grows backed.1,hasJob_grows grows backed.2⟩
  | previewing approvalId strategySpec pineCode config => exact ⟨granted_grows grows backed.1,backed.2⟩
  | _ => trivial

theorem names_grows (grows : Grows s t) {event : RunEvent} (names : Names s event) : Names t event := by
  obtain ⟨approvalId,run,job,isApproval,isChild,granted,has⟩ := names
  exact ⟨approvalId,run,job,isApproval,isChild,granted_grows grows granted,hasJob_grows grows has⟩
theorem grows_logged (s : Conversation) (events : List RunEvent) : Grows s (logged s events) :=
  ⟨subset_append_left _ _,List.Subset.refl _,List.Subset.refl _⟩
theorem grows_queue (s : Conversation) (job : Job) : Grows s (queue s job) :=
  ⟨List.Subset.refl _,List.Subset.refl _,subset_append_left _ _⟩

variable {events : List RunEvent}

theorem consistent_logged (holds : Consistent tools s)
    (named : ∀ event ∈ events, event.type = .queued → Names s event) : Consistent tools (logged s events) := by
  have grows := grows_logged s events
  refine ⟨holds.plans,holds.newPlan,holds.presentable,holds.jobs,holds.newJob,?_,?_⟩
  · intro work member
    exact backed_grows grows (holds.backed work member)
  · intro event member isQueued
    rcases mem_append.mp member with old | new
    · exact names_grows grows (holds.queued event old isQueued)
    · exact names_grows grows (named event new isQueued)

theorem consistent_plain (holds : Consistent tools s)
    (others : ∀ event ∈ events, event.type ≠ .queued) : Consistent tools (logged s events) :=
  consistent_logged holds fun event member isQueued => absurd isQueued (others event member)
theorem consistent_persist (holds : Consistent tools s) (run : Nat) (kind : ArtifactKind) :
    Consistent tools (persist s run kind) := by
  refine consistent_plain ?_ (by simp [plain])
  exact ⟨holds.plans,fun plan member => Nat.lt_succ_of_lt (holds.newPlan plan member),holds.presentable,holds.jobs,
    fun job member => Nat.lt_succ_of_lt (holds.newJob job member),holds.backed,holds.queued⟩

theorem consistent_begin (holds : Consistent tools s)
    (backed : Backed tools s work) : Consistent tools (begin s work) := by
  refine ⟨holds.plans,holds.newPlan,holds.presentable,holds.jobs,holds.newJob,?_,holds.queued⟩
  intro other member
  rcases mem_append.mp member with old | new
  · exact holds.backed other old
  · rw [mem_singleton.mp new]
    exact backed

variable {index : Nat}

theorem consistent_goOn (holds : Consistent tools s) {rest : Option Pending}
    (backed : ∀ work ∈ rest, Backed tools s work) : Consistent tools (goOn s index rest) := by
  cases rest with
  | none =>
    refine ⟨holds.plans,holds.newPlan,holds.presentable,holds.jobs,holds.newJob,?_,holds.queued⟩
    intro other member
    exact holds.backed other (mem_of_mem_eraseIdx member)
  | some work =>
    refine ⟨holds.plans,holds.newPlan,holds.presentable,holds.jobs,holds.newJob,?_,holds.queued⟩
    intro other member
    rcases mem_or_eq_of_mem_set member with old | rfl
    · exact holds.backed other old
    · exact backed other rfl

variable {job : Job}

theorem consistent_queue (holds : Consistent tools s) (fresh : job.id = s.next + 1) :
    Consistent tools (queue s job) := by
  have grows := grows_queue s job
  refine ⟨holds.plans,?_,holds.presentable,?_,?_,?_,?_⟩
  · intro plan member
    exact Nat.lt_add_right 2 (holds.newPlan plan member)
  · refine distinct_append holds.jobs ?_
    intro other member same
    have older := holds.newJob other member
    have keyed : other.id = job.id := same
    omega
  · intro other member
    rcases mem_append.mp member with old | new
    · exact Nat.lt_add_right 2 (holds.newJob other old)
    · rw [mem_singleton.mp new,fresh]
      exact Nat.lt_succ_self _
  · intro work member
    exact backed_grows grows (holds.backed work member)
  · intro event member isQueued
    exact names_grows grows (holds.queued event member isQueued)

theorem consistent_initial : Consistent tools initial := by
  refine ⟨nodup_nil,?_,?_,nodup_nil,?_,?_,?_⟩
  all_goals
    intro entry member
    cases member

variable {pineCode : Text} {strategySpec : StrategySpec}
variable {pine : Text}

theorem requiredPine_again (required : requiredPine tools pineCode strategySpec = some pine) :
    requiredPine tools pine strategySpec = some pine := by
  unfold requiredPine at required ⊢
  split at required
  · cases required
  · rename_i written
    split at required
    · rename_i isStrategy
      cases required
      rw [strip_strip,if_neg written,if_pos isStrategy]
    · cases required

variable {enabled : Bool}
variable {arguments : Arguments} {config : BacktestConfig}
theorem presentable_created (read : normalizeBacktestConfig tools.toRuntime enabled arguments.backtestConfig = some config)
    (required : requiredPine tools arguments.pineCode arguments.strategySpec = some pine) :
    Presentable tools ⟨approvalId,run,arguments.strategySpec,pine,userFacingBacktestConfig config⟩ :=
  ⟨requiredPine_again required,config,normalize_config read,rfl,normalize_userFacing read⟩

theorem consistent_writePlan (holds : Consistent tools s) {plan : Plan}
    (fresh : plan.approvalId = s.next) (presentable : Presentable tools plan) :
    Consistent tools (writePlan s plan) := by
  have grows : Grows s (writePlan s plan) :=
    ⟨List.Subset.refl _,subset_append_left _ _,List.Subset.refl _⟩
  have later : s.next < (writePlan s plan).next := by
    rw [← fresh]
    exact Nat.lt_succ_self _
  refine ⟨distinct_append holds.plans ?_,?_,?_,holds.jobs,?_,?_,?_⟩
  · intro other member
    have older := holds.newPlan other member
    exact Nat.ne_of_lt (fresh.symm ▸ older : other.approvalId < plan.approvalId)
  · intro other member
    rcases mem_append.mp member with old | new
    · exact Nat.lt_trans (holds.newPlan other old) later
    · rw [mem_singleton.mp new]
      exact Nat.lt_succ_self _
  · intro other member
    rcases mem_append.mp member with old | new
    · exact holds.presentable other old
    · rw [mem_singleton.mp new]
      exact presentable
  · intro job member
    exact Nat.lt_trans (holds.newJob job member) later
  · intro work member
    exact backed_grows grows (holds.backed work member)
  · intro event member isQueued
    exact names_grows grows (holds.queued event member isQueued)

theorem consistent_createPlan (holds : Consistent tools s) (created : createPlan tools s run arguments enabled = some t) : Consistent tools t := by
  simp only [createPlan] at created
  obtain ⟨config,read,created⟩ := Option.bind_eq_some_iff.mp created
  obtain ⟨pine,required,created⟩ := Option.bind_eq_some_iff.mp created
  have validated : Consistent tools (persistValidation s run) :=
    consistent_persist (consistent_persist holds run _) run _
  split at created
  · cases created
    exact consistent_begin (consistent_writePlan validated rfl (presentable_created read required)) trivial
  · cases created
    exact validated

theorem observed (treated : approvalStatus events approvalId = .approved ∨
    approvalStatus events approvalId = .queued) :
    ∃ event ∈ events, event.approvalId = some approvalId ∧ (event.type = .approved ∨ event.type = .queued) := by
  induction events using List.reverseRecOn with
  | nil => rcases treated with treated | treated <;> cases treated
  | append_singleton events event ih =>
    rw [approvalStatus,foldl_concat] at treated
    by_cases concerned : event.approvalId = some approvalId ∧ (event.type = .approved ∨ event.type = .queued)
    · exact ⟨event,by simp,concerned⟩
    · have before : approvalStatus events approvalId = .approved ∨ approvalStatus events approvalId = .queued := by
        simp only [observe] at treated
        split at treated
        · rename_i isApproval
          split at treated <;> simp_all [approvalStatus]
        · exact treated
      obtain ⟨found,member,rest⟩ := ih before
      exact ⟨found,mem_append_left _ member,rest⟩

theorem newest_subset {α : Type} (limit : Nat) (entries : List α) : newest limit entries ⊆ entries :=
  drop_subset _ _

theorem granted_treated (holds : Consistent tools s)
    (treated : statusIn s approvalId = .approved ∨ statusIn s approvalId = .queued) : Granted s approvalId := by
  obtain ⟨event,member,isApproval,isType⟩ := observed treated
  have logged := newest_subset _ _ member
  rcases isType with approved | queued
  · exact ⟨event,logged,approved,isApproval⟩
  · obtain ⟨other,run,job,isOther,-,granted,-⟩ := holds.queued event logged queued
    cases isApproval.symm.trans isOther
    exact granted

variable {found : PlanRecord}

theorem found_plan
    (isFound : findPlan s approvalId = some found) : found.plan ∈ s.plans ∧ found.plan.approvalId = approvalId := by
  obtain ⟨artifact,-,matched⟩ := exists_of_findSome?_eq_some isFound
  split at matched
  · split at matched
    · rename_i plan isPlan
      split at matched
      · rename_i same
        cases matched
        exact ⟨mem_reverse.mp (mem_of_find?_eq_some isPlan),same⟩
      · cases matched
    · cases matched
  · cases matched

theorem answer_found {decision : Decision}
    (goesOn : answer s approvalId decision = .approve found ∨ answer s approvalId decision = .reject found) :
    findPlan s approvalId = some found := by
  unfold answer at goesOn
  split at goesOn
  · rcases goesOn with goesOn | goesOn <;> cases goesOn
  · rename_i other isFound
    split at goesOn <;> simp_all

theorem jobOf_queueing (s : Conversation) (enabled : Bool) (presentable : Presentable tools found.plan) :
    ∃ config, userFacingBacktestConfig config = found.plan.backtestConfig ∧
      jobOf tools s enabled (.queueing found) = if enabled then
        some ⟨s.next + 1,s.next,found.plan.approvalId,found.plan.strategySpec,found.plan.pineCode,config⟩ else none := by
  obtain ⟨required,config,kept,shown,read⟩ := presentable
  refine ⟨config,shown,?_⟩
  cases enabled with
  | true => simp [jobOf,newJob,read true,kept true,required]
  | false => simp [jobOf,read false]

theorem jobOf_previewing (s : Conversation) (enabled : Bool) (approvalId : Nat) (kept : Kept tools config)
    (required : requiredPine tools pineCode strategySpec = some pineCode) :
    jobOf tools s enabled (.previewing approvalId strategySpec pineCode config) = if enabled then
      some ⟨s.next + 1,s.next,approvalId,strategySpec,pineCode,config⟩ else none := by
  cases enabled with
  | true => simp [jobOf,newJob,kept true,required]
  | false => simp [jobOf,newJob,kept false]

theorem newJob_some {config : ConfigFields}
    (queued : newJob tools s approvalId strategySpec pineCode config enabled = some job) :
    job.id = s.next + 1 ∧ job.approvalId = approvalId := by
  obtain ⟨read,-,queued⟩ := Option.bind_eq_some_iff.mp queued
  obtain ⟨pine,-,queued⟩ := Option.bind_eq_some_iff.mp queued
  cases queued
  exact ⟨rfl,rfl⟩

theorem jobOf_some (queued : jobOf tools s enabled work = some job) : job.id = s.next + 1 ∧
      ((∃ found, work = .queueing found ∧ job.approvalId = found.plan.approvalId) ∨
        ∃ strategySpec pineCode config, work = .previewing job.approvalId strategySpec pineCode config) := by
  cases work with
  | queueing found =>
    obtain ⟨config,-,queued⟩ := Option.bind_eq_some_iff.mp queued
    obtain ⟨isNew,same⟩ := newJob_some queued
    exact ⟨isNew,.inl ⟨found,rfl,same⟩⟩
  | previewing approvalId strategySpec pineCode config =>
    obtain ⟨isNew,same⟩ := newJob_some queued
    exact ⟨isNew,.inr ⟨strategySpec,pineCode,config,by rw [same]⟩⟩
  | _ => cases queued

def queuedBy (tools : Tools) (s : Conversation) : Label → Option Job
  | .advance index enabled => s.pending[index]?.bind (jobOf tools s enabled)
  | _ => none
@[simp] theorem goOn_jobs (s : Conversation) (index : Nat) (rest : Option Pending) : (goOn s index rest).jobs = s.jobs := by
  cases rest <;> rfl

theorem advance_jobs (advanced : advance tools s index enabled work = some t) :
    t.jobs = s.jobs ++ (jobOf tools s enabled work).toList := by
  cases work with
  | queueing found =>
    obtain ⟨job,isJob,advanced⟩ := Option.bind_eq_some_iff.mp advanced
    cases advanced
    rw [goOn_jobs,isJob]
    rfl
  | previewing approvalId strategySpec pineCode config =>
    obtain ⟨job,isJob,advanced⟩ := Option.bind_eq_some_iff.mp advanced
    cases advanced
    rw [goOn_jobs,isJob]
    rfl
  | _ =>
    cases advanced
    simp [goOn_jobs,jobOf,logged,persist]

@[simp] theorem goOn_plans (s : Conversation) (index : Nat) (rest : Option Pending) : (goOn s index rest).plans = s.plans := by
  cases rest <;> rfl

theorem advance_plans (advanced : advance tools s index enabled work = some t) : t.plans = s.plans := by
  cases work with
  | queueing found =>
    obtain ⟨job,-,advanced⟩ := Option.bind_eq_some_iff.mp advanced
    cases advanced
    exact goOn_plans _ _ _
  | previewing approvalId strategySpec pineCode config =>
    obtain ⟨job,-,advanced⟩ := Option.bind_eq_some_iff.mp advanced
    cases advanced
    exact goOn_plans _ _ _
  | _ =>
    cases advanced
    exact goOn_plans _ _ _

variable {label : Label}

theorem step_jobs (stepped : step tools s label = some t) : t.jobs = s.jobs ++ (queuedBy tools s label).toList := by
  cases label with
  | event =>
    cases stepped
    simp [queuedBy,logged]
  | artifact run =>
    cases stepped
    simp [queuedBy,persist,logged]
  | createPlan run arguments enabled =>
    simp only [step,createPlan] at stepped
    obtain ⟨config,-,stepped⟩ := Option.bind_eq_some_iff.mp stepped
    obtain ⟨pine,-,stepped⟩ := Option.bind_eq_some_iff.mp stepped
    split at stepped <;> cases stepped <;> simp [queuedBy,begin,writePlan,persistValidation,persist,logged]
  | decide approvalId decision =>
    cases stepped
    unfold request
    split <;> simp [queuedBy,begin]
  | runPreview run approvalId arguments enabled =>
    simp only [step,runPreview] at stepped
    split at stepped
    · obtain ⟨config,-,stepped⟩ := Option.bind_eq_some_iff.mp stepped
      obtain ⟨pine,-,stepped⟩ := Option.bind_eq_some_iff.mp stepped
      split at stepped <;> cases stepped <;> simp [queuedBy,begin,persistValidation,persist,logged]
    · cases stepped
  | advance index enabled =>
    obtain ⟨work,isWork,stepped⟩ := Option.bind_eq_some_iff.mp stepped
    rw [advance_jobs stepped,queuedBy,isWork]
    rfl
  | raise index =>
    obtain ⟨work,-,stepped⟩ := Option.map_eq_some_iff.mp stepped
    subst stepped
    cases work <;> simp [queuedBy,raise,logged]

variable {p : Pending → Prop}
private theorem only (holds : p work) : ∀ other ∈ some work, p other := by
  intro other member
  cases member
  exact holds
private theorem noOther : ∀ other ∈ (none : Option Pending), p other := by
  intro other member
  cases member
theorem hasJob_queue (s : Conversation) (job : Job) : HasJob (queue s job) job.approvalId job.run job.id :=
  ⟨job,mem_append_right _ mem_cons_self,rfl,rfl,rfl⟩

theorem consistent_advance (holds : Consistent tools s) (backed : Backed tools s work) (advanced : advance tools s index enabled work = some t) :
    Consistent tools t := by
  cases work with
  | recording plan =>
    cases advanced
    exact consistent_goOn (consistent_persist holds _ _) (only trivial)
  | requiring plan again =>
    cases advanced
    refine consistent_goOn (consistent_plain holds (by simp [concerning])) ?_
    cases again with
    | true => exact noOther
    | false => exact only trivial
  | rejecting approvalId =>
    cases advanced
    exact consistent_goOn (consistent_plain holds (by simp [concerning])) noOther
  | approving found =>
    cases advanced
    refine consistent_goOn (consistent_plain holds (by simp [concerning])) (only ⟨backed,?_⟩)
    exact ⟨concerning .approved found.plan.approvalId,mem_append_right _ mem_cons_self,rfl,rfl⟩
  | queueing found =>
    obtain ⟨job,isJob,advanced⟩ := Option.bind_eq_some_iff.mp advanced
    cases advanced
    obtain ⟨fresh,⟨other,same,approval⟩ | ⟨spec,pine,config,same⟩⟩ := jobOf_some isJob
    · cases same
      refine consistent_goOn (consistent_queue holds fresh) (only ⟨granted_grows (grows_queue s job) backed.2,?_⟩)
      exact approval ▸ hasJob_queue s job
    · cases same
  | noting found run job =>
    cases advanced
    refine consistent_goOn (consistent_plain holds (by simp [concerning])) (only ?_)
    exact ⟨granted_grows (grows_logged s _) backed.1,hasJob_grows (grows_logged s _) backed.2⟩
  | announcing found run job =>
    cases advanced
    refine consistent_goOn (consistent_logged holds ?_) (only trivial)
    intro event member _
    rw [mem_singleton.mp member]
    exact ⟨found.plan.approvalId,run,job,rfl,rfl,backed.1,backed.2⟩
  | waiting approvalId run =>
    cases advanced
    exact consistent_goOn (consistent_plain holds (by simp [concerning])) noOther
  | previewing approvalId strategySpec pineCode config =>
    obtain ⟨job,isJob,advanced⟩ := Option.bind_eq_some_iff.mp advanced
    cases advanced
    exact consistent_goOn (consistent_queue holds (jobOf_some isJob).1) (only trivial)
  | previewed approvalId =>
    cases advanced
    exact consistent_goOn (consistent_plain holds (by simp [concerning])) noOther

theorem consistent_raise (holds : Consistent tools s) (index : Nat) (work : Pending) :
    Consistent tools (raise s index work) := by
  cases work with
  | queueing found => exact consistent_goOn (consistent_plain holds (by simp [concerning])) noOther
  | noting found run job => exact consistent_goOn (consistent_plain holds (by simp [concerning])) noOther
  | _ => exact consistent_goOn holds noOther

theorem consistent_request (holds : Consistent tools s) (approvalId : Nat) (decision : Decision) :
    Consistent tools (request s approvalId decision) := by
  unfold request
  split
  · exact consistent_begin holds trivial
  · rename_i found isAnswer
    exact consistent_begin holds (found_plan (answer_found (.inl isAnswer))).1
  · exact holds

theorem consistent_runPreview (holds : Consistent tools s) (called : runPreview tools s run approvalId arguments enabled = some t) :
    Consistent tools t := by
  simp only [runPreview] at called
  split at called
  · rename_i treated
    simp only [ensureApproved,Bool.or_eq_true,decide_eq_true_eq] at treated
    have granted := granted_treated holds treated
    obtain ⟨config,read,called⟩ := Option.bind_eq_some_iff.mp called
    obtain ⟨pine,required,called⟩ := Option.bind_eq_some_iff.mp called
    have validated : Consistent tools (persistValidation s run) :=
      consistent_persist (consistent_persist holds run _) run _
    have grows : Grows s (persistValidation s run) :=
      ⟨by simp [persistValidation,persist,logged],by simp [persistValidation,persist,logged],
        by simp [persistValidation,persist,logged]⟩
    split at called
    · cases called
      exact consistent_begin validated ⟨granted_grows grows granted,normalize_config read,requiredPine_again required⟩
    · cases called
      exact validated
  · cases called

theorem consistent_step (holds : Consistent tools s) (stepped : step tools s label = some t) : Consistent tools t := by
  cases label with
  | event =>
    cases stepped
    exact consistent_plain holds (by simp [plain])
  | artifact run =>
    cases stepped
    exact consistent_persist holds _ _
  | createPlan run arguments enabled => exact consistent_createPlan holds stepped
  | decide approvalId decision =>
    cases stepped
    exact consistent_request holds approvalId decision
  | runPreview run approvalId arguments enabled => exact consistent_runPreview holds stepped
  | advance index enabled =>
    obtain ⟨work,isWork,advanced⟩ := Option.bind_eq_some_iff.mp stepped
    exact consistent_advance holds (holds.backed work (mem_of_getElem? isWork)) advanced
  | raise index =>
    obtain ⟨work,-,raised⟩ := Option.map_eq_some_iff.mp stepped
    exact raised ▸ consistent_raise holds index work

/-- No two jobs have one approval id, and every job carries the plan that was
    presented with its approval id. -/
structure OneRunOfOnePlan (s : Conversation) : Prop where
  one : (s.jobs.map Job.approvalId).Nodup
  carried : ∀ job ∈ s.jobs, ∃ plan, find s.plans job.approvalId = some plan ∧ Carries job plan
/-- What an approval is for, of one step: the jobs that the step adds were granted
    before it, and after it each approval has one job, of the plan presented. -/
def Authorised (tools : Tools) (s : Conversation) (label : Label) : Prop :=
  ∀ t, step tools s label = some t →
    (∀ job ∈ t.jobs, job ∉ s.jobs → Granted s job.approvalId) ∧ OneRunOfOnePlan t

/-- The condition on the work that a step advances: it queues under an approval that
    is unspent, and a tool call queues what the plan of its approval shows. -/
def Keeps (s : Conversation) : Label → Prop
  | .advance index true =>
    match s.pending[index]? with
    | some (.queueing found) => Unspent s found.plan.approvalId
    | some (.previewing approvalId strategySpec pineCode config) => Unspent s approvalId ∧
      ∃ plan, find s.plans approvalId = some plan ∧ strategySpec = plan.strategySpec ∧ pineCode = plan.pineCode ∧
        userFacingBacktestConfig config = plan.backtestConfig
    | _ => True
  | _ => True

theorem step_plans (stepped : step tools s label = some t) : s.plans <+: t.plans := by
  cases label with
  | event =>
    cases stepped
    simp [logged]
  | artifact run =>
    cases stepped
    simp [persist,logged]
  | createPlan run arguments enabled =>
    simp only [step,createPlan] at stepped
    obtain ⟨config,-,stepped⟩ := Option.bind_eq_some_iff.mp stepped
    obtain ⟨pine,-,stepped⟩ := Option.bind_eq_some_iff.mp stepped
    split at stepped <;> cases stepped <;> simp [begin,writePlan,persistValidation,persist,logged]
  | decide approvalId decision =>
    cases stepped
    unfold request
    split <;> simp [begin]
  | runPreview run approvalId arguments enabled =>
    simp only [step,runPreview] at stepped
    split at stepped
    · obtain ⟨config,-,stepped⟩ := Option.bind_eq_some_iff.mp stepped
      obtain ⟨pine,-,stepped⟩ := Option.bind_eq_some_iff.mp stepped
      split at stepped <;> cases stepped <;> simp [begin,persistValidation,persist,logged]
    · cases stepped
  | advance index enabled =>
    obtain ⟨work,-,stepped⟩ := Option.bind_eq_some_iff.mp stepped
    exact prefix_rfl.trans (advance_plans stepped ▸ prefix_rfl)
  | raise index =>
    obtain ⟨work,-,stepped⟩ := Option.map_eq_some_iff.mp stepped
    subst stepped
    cases work <;> simp [raise,logged]

theorem carried_later (stepped : step tools s label = some t)
    (carried : ∃ plan, find s.plans job.approvalId = some plan ∧ Carries job plan) :
    ∃ plan, find t.plans job.approvalId = some plan ∧ Carries job plan := by
  obtain ⟨plan,isPlan,carries⟩ := carried
  obtain ⟨more,appended⟩ := step_plans stepped
  refine ⟨plan,?_,carries⟩
  rw [find] at isPlan
  rw [find,← appended,find?_append,isPlan]
  rfl

theorem granted_queuedBy (holds : Consistent tools s)
    (queued : queuedBy tools s label = some job) : Granted s job.approvalId := by
  cases label with
  | advance index enabled =>
    obtain ⟨work,isWork,isJob⟩ := Option.bind_eq_some_iff.mp queued
    have backed := holds.backed work (mem_of_getElem? isWork)
    obtain ⟨-,⟨found,rfl,same⟩ | ⟨spec,pine,config,rfl⟩⟩ := jobOf_some isJob
    · exact same ▸ backed.2
    · exact backed.1
  | _ => cases queued

theorem step_queuedBy (queued : queuedBy tools s label = some job) : ∃ t, step tools s label = some t := by
  cases label with
  | advance index enabled =>
    obtain ⟨work,isWork,isJob⟩ := Option.bind_eq_some_iff.mp queued
    obtain ⟨-,⟨found,rfl,-⟩ | ⟨spec,pine,config,rfl⟩⟩ := jobOf_some isJob
    · refine ⟨goOn (queue s job) index (some (.noting found job.run job.id)),?_⟩
      simp only [step,isWork,Option.bind_some,advance]
      exact Option.bind_eq_some_iff.mpr ⟨job,isJob,rfl⟩
    · refine ⟨goOn (queue s job) index (some (.previewed job.approvalId)),?_⟩
      simp only [step,isWork,Option.bind_some,advance]
      exact Option.bind_eq_some_iff.mpr ⟨job,isJob,rfl⟩
  | _ => cases queued

theorem queuedBy_new (holds : Consistent tools s) (queued : queuedBy tools s label = some job) : job ∉ s.jobs := by
  cases label with
  | advance index enabled =>
    obtain ⟨work,-,isJob⟩ := Option.bind_eq_some_iff.mp queued
    intro member
    have older := holds.newJob job member
    have newer := (jobOf_some isJob).1
    omega
  | _ => cases queued

/-- In every run jobs are queued under approvals that were granted before, and what is said to be queued is a job of one. -/
theorem granted_first (reached : Reachable (step tools) initial s) (stepped : step tools s label = some t) :
    (∀ job ∈ t.jobs, job ∉ s.jobs → Granted s job.approvalId) ∧ ∀ event ∈ t.events, event.type = .queued → Names t event := by
  have consistent := reachable_keeps (fun _ _ _ here each => consistent_step here each) consistent_initial reached
  refine ⟨?_,(consistent_step consistent stepped).queued⟩
  intro job member new
  rw [step_jobs stepped] at member
  rcases mem_append.mp member with old | queued
  · exact absurd old new
  · exact granted_queuedBy consistent (Option.mem_toList.mp queued)

theorem plans_queuedBy (queued : queuedBy tools s label = some job)
    (stepped : step tools s label = some t) : t.plans = s.plans := by
  cases label with
  | advance index enabled =>
    obtain ⟨work,-,advanced⟩ := Option.bind_eq_some_iff.mp stepped
    exact advance_plans advanced
  | _ => cases queued

theorem authorised_quiet (sound : OneRunOfOnePlan s)
    (quiet : queuedBy tools s label = none) : Authorised tools s label := by
  intro t stepped
  have jobs := step_jobs stepped
  rw [quiet,Option.toList_none,append_nil] at jobs
  refine ⟨fun job member new => absurd (jobs ▸ member) new,⟨jobs ▸ sound.one,?_⟩⟩
  intro job member
  exact carried_later stepped (sound.carried job (jobs ▸ member))

theorem authorised_queued (holds : Consistent tools s) (sound : OneRunOfOnePlan s) (queued : queuedBy tools s label = some job) : Authorised tools s label ↔
      Unspent s job.approvalId ∧ ∃ plan, find s.plans job.approvalId = some plan ∧ Carries job plan := by
  constructor
  · intro authorised
    obtain ⟨t,stepped⟩ := step_queuedBy queued
    have jobs := step_jobs stepped
    rw [queued,Option.toList_some] at jobs
    obtain ⟨-,⟨one,carried⟩⟩ := authorised t stepped
    rw [jobs,map_append,nodup_append] at one
    refine ⟨?_,?_⟩
    · intro other member
      exact one.2.2 other.approvalId (mem_map_of_mem member) job.approvalId mem_cons_self
    · obtain ⟨plan,isPlan,carries⟩ := carried job (jobs ▸ mem_append_right _ mem_cons_self)
      rw [plans_queuedBy queued stepped] at isPlan
      exact ⟨plan,isPlan,carries⟩
  · rintro ⟨unspent,carried⟩ t stepped
    have jobs := step_jobs stepped
    rw [queued,Option.toList_some] at jobs
    refine ⟨?_,?_,?_⟩
    · intro other member new
      rw [jobs] at member
      rcases mem_append.mp member with old | added
      · exact absurd old new
      · rw [mem_singleton.mp added]
        exact granted_queuedBy holds queued
    · rw [jobs,map_append,nodup_append]
      refine ⟨sound.one,by simp,?_⟩
      rintro _ member _ isJob rfl
      obtain ⟨other,isOther,same⟩ := mem_map.mp member
      exact unspent other isOther (same.trans (mem_singleton.mp isJob))
    · intro other member
      rw [jobs] at member
      rcases mem_append.mp member with old | added
      · exact carried_later stepped (sound.carried other old)
      · rw [mem_singleton.mp added]
        exact carried_later stepped carried

theorem authorised_iff (holds : Consistent tools s) (sound : OneRunOfOnePlan s) (label : Label) :
    Authorised tools s label ↔ Keeps s label := by
  cases label with
  | advance index enabled =>
    cases isWork : s.pending[index]? with
    | none =>
      have quiet : queuedBy tools s (.advance index enabled) = none := by simp [queuedBy,isWork]
      cases enabled <;> simp [authorised_quiet sound quiet,Keeps,isWork]
    | some work =>
      have backed := holds.backed work (mem_of_getElem? isWork)
      cases work with
      | queueing found =>
        obtain ⟨config,shown,isJob⟩ := jobOf_queueing s enabled (holds.presentable _ backed.1)
        have planned : find s.plans found.plan.approvalId = some found.plan := find_of_mem holds.plans backed.1
        cases enabled with
        | true =>
          rw [authorised_queued holds sound (by rw [queuedBy,isWork]; exact isJob)]
          simp only [Keeps,isWork]
          exact ⟨And.left,fun unspent => ⟨unspent,found.plan,planned,rfl,rfl,shown⟩⟩
        | false =>
          have quiet : queuedBy tools s (.advance index false) = none := by rw [queuedBy,isWork]; exact isJob
          simp [authorised_quiet sound quiet,Keeps]
      | previewing approvalId strategySpec pineCode config =>
        have isJob := jobOf_previewing s enabled approvalId backed.2.1 backed.2.2
        cases enabled with
        | true =>
          rw [authorised_queued holds sound (by rw [queuedBy,isWork]; exact isJob)]
          simp only [Keeps,isWork,Carries]
        | false =>
          have quiet : queuedBy tools s (.advance index false) = none := by rw [queuedBy,isWork]; exact isJob
          simp [authorised_quiet sound quiet,Keeps]
      | _ =>
        have quiet : queuedBy tools s (.advance index enabled) = none := by simp [queuedBy,isWork,jobOf]
        cases enabled <;> simp [authorised_quiet sound quiet,Keeps,isWork]
  | _ => exact ⟨fun _ => trivial,fun _ => authorised_quiet sound rfl⟩

theorem sound_initial : Consistent tools initial ∧ OneRunOfOnePlan initial := by
  refine ⟨consistent_initial,nodup_nil,?_⟩
  intro job member
  cases member
theorem sound_step (s : Conversation) (label : Label) (t : Conversation)
    (sound : Consistent tools s ∧ OneRunOfOnePlan s) (authorised : Authorised tools s label)
    (stepped : step tools s label = some t) : Consistent tools t ∧ OneRunOfOnePlan t :=
  ⟨consistent_step sound.1 stepped,(authorised t stepped).2⟩
/-- A run queues each job under a granted approval, one for each and with the plan presented, exactly if each of its
    steps meets the condition. -/
theorem one_run_of_one_plan_iff (tools : Tools) (labels : List Label) :
    Meets (step tools) (Authorised tools) initial labels ↔ Meets (step tools) (fun s => Keeps s) initial labels := by
  refine @meets_iff _ _ _ (Authorised tools) _ _ sound_step ?_ _ sound_initial labels
  intro s label sound
  exact authorised_iff sound.1 sound.2 label

/-- A runtime where numbers are exact and the dates of the default config are read. -/
def sampleTools : Tools where
  toStableUnicode := stableAscii
  float := some
  timestamp value :=
    if value = text "2024-01-01" then some 1704067200 else if value = text "2024-12-31" then some 1735603200 else none
  float_float _ _ _ := rfl
  validPine _ _ := true

def sampleArguments : Arguments where
  strategySpec := ⟨text "strategy",[]⟩
  pineCode := text "strategy()"
  backtestConfig := ⟨none,none,none,none,none,none,none,none,none,none,none⟩
def samplePlanned : List Label :=
  [.createPlan 0 sampleArguments true,.advance 0 true,.advance 0 true,.advance 0 true]
def doubleApproval : List Label :=
  samplePlanned ++ [.decide 2 .approved,.decide 2 .approved,.advance 0 true,.advance 1 true,.advance 0 true]

theorem sample_granted : ∃ s t : Conversation, (∀ job ∈ t.jobs, job ∉ s.jobs → Granted s job.approvalId) ∧ s.jobs.length < t.jobs.length :=
  have reached : Reachable (step sampleTools) initial _ := ⟨doubleApproval,rfl⟩
  ⟨_,_,(@granted_first _ _ _ (.advance 1 true) reached rfl).1,by decide⟩
/-- Two approving requests at once queue two jobs under the approval. -/
theorem two_runs_of_one_plan : ¬ ∀ (tools : Tools) (labels : List Label),
    Meets (step tools) (Authorised tools) initial labels := by
  intro always
  have meets := meets_mono sound_step (fun s label sound => (authorised_iff sound.1 sound.2 label).mp) sound_initial
    (always sampleTools (doubleApproval ++ [.advance 1 true]))
  obtain ⟨s,reached,bad⟩ : ∃ s, run (step sampleTools) initial doubleApproval = some s ∧
      ¬ Keeps s (.advance 1 true) := by
    refine ⟨_,rfl,?_⟩
    intro unspent
    exact unspent _ mem_cons_self rfl
  exact bad ((meets_append meets).2 s reached).1

end Codebot.PlanApprovals
