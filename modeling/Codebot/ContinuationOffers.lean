import Codebot.Continuations

/-!
The continuation that is offered and the continuations that the endpoint accepts (`offers_agree_iff`). A task that was
completed without the event `workflow.continuation.required` is accepted and not offered.
-/
namespace Codebot.ContinuationOffers
open Series List Texts Snapshots WorkflowTasks WorkflowInputs WorkflowResponses Continuations

section
variable (unicode : Unicode) (registry : Registry) (journal : Journal) (auth : AuthContext) (clock : Clock)

/-- The cache after the loop has passed the tasks without an offer. -/
def passes : Option Cache → List Task → Option (Option Cache)
  | cache,[] => some cache
  | cache,task :: rest =>
    match visit unicode registry journal auth clock cache task with
    | (some _,_) => none
    | (none,cache) => passes cache rest
/-- The loop asks whether the run of the task has materialized, and no other status decides. -/
def Evaluates (task : Task) (item : ContinuationItem) : Prop :=
  (workflowTaskContinuationState registry task).isSome = true ∧ journal.continuationItem auth task.id = some item ∧
    item.status ≠ .required

/-- The offer and the endpoint agree on the conversation. The endpoint may be called later. -/
structure Agrees (conversationId : Nat) : Prop where
  accepted : ∀ offer, pendingWorkflowContinuation unicode registry journal auth clock conversationId = some offer →
    ∃ task, getWorkflowTask journal.tasks auth task.id = some task ∧ offer.taskId = some task.id ∧
      ∀ later, clock.now ≤ later → Accepts unicode registry journal auth { clock with now := later } task
  offered : ∀ tasks before task after, journal.workflowTasks auth conversationId = some tasks →
    tasks.reverse = before ++ task :: after → Accepts unicode registry journal auth clock task →
    (∀ newer ∈ before, ¬ Accepts unicode registry journal auth clock newer) →
    ∃ offer, pendingWorkflowContinuation unicode registry journal auth clock conversationId = some offer ∧
      offer.taskId = some task.id
  cached : ∀ tasks before task after, journal.workflowTasks auth conversationId = some tasks →
    tasks.reverse = before ++ task :: after → ∀ cache, passes unicode registry journal auth clock (some ∅) before = some cache →
    ∀ item, Evaluates registry journal auth task item →
      (continuationMaterialized unicode journal auth task item cache).1 =
        (continuationMaterialized unicode journal auth task item none).1

def Asks (task : Task) (item : ContinuationItem) (output : Event → Bool) : Prop :=
  Evaluates registry journal auth task item ∧ awaitedOutput unicode task = some output
def Known (task : Task) : Prop :=
  (journal.continuationItem auth task.id).isSome = true ∧ Accepts unicode registry journal auth clock task

/-- Where the loop asks for one run twice, both outputs are shown or neither; the newest accepted
    task has a continuation event. -/
structure Consistent (conversationId : Nat) : Prop where
  alike : ∀ tasks before first middle second after, journal.workflowTasks auth conversationId = some tasks →
    tasks.reverse = before ++ first :: (middle ++ second :: after) →
    (∀ task ∈ before ++ first :: middle, ¬ Known unicode registry journal auth clock task) →
    ∀ item output other otherOutput, Asks unicode registry journal auth first item output →
      Asks unicode registry journal auth second other otherOutput → item.runId = other.runId →
        journal.shows auth item.runId output = journal.shows auth other.runId otherOutput
  known : ∀ tasks before task after, journal.workflowTasks auth conversationId = some tasks →
    tasks.reverse = before ++ task :: after → Accepts unicode registry journal auth clock task →
    (∀ newer ∈ before, ¬ Accepts unicode registry journal auth clock newer) →
    (journal.continuationItem auth task.id).isSome = true

end

variable {unicode : Unicode} {registry : Registry} {journal : Journal} {auth : AuthContext} {clock : Clock} {task : Task}
  {item : ContinuationItem} {cache : Cache}
/-- The cached answer for the run of the task, if there is one, is the answer without the cache. -/
def Right (unicode : Unicode) (registry : Registry) (journal : Journal) (auth : AuthContext) (cache : Cache) (task : Task) :
    Prop :=
  ∀ item output, Asks unicode registry journal auth task item output → ∀ cached, cache.lookup item.runId = some cached →
    cached = journal.shows auth item.runId output
theorem materialized_uncached : (continuationMaterialized unicode journal auth task item none).1 =
    (awaitedOutput unicode task).elim true (journal.shows auth item.runId) := by
  unfold continuationMaterialized
  cases awaitedOutput unicode task <;> rfl

theorem right_iff (evaluates : Evaluates registry journal auth task item) :
    Right unicode registry journal auth cache task ↔
      (continuationMaterialized unicode journal auth task item (some cache)).1 =
        (continuationMaterialized unicode journal auth task item none).1 := by
  have sameItem : ∀ other, Evaluates registry journal auth task other → other = item := by
    intro other also
    exact Option.some.inj (also.2.1.symm.trans evaluates.2.1)
  rw [materialized_uncached]
  unfold continuationMaterialized
  cases awaited : awaitedOutput unicode task with
  | none =>
    refine iff_of_true ?_ rfl
    rintro other output ⟨_,isOutput⟩
    rw [awaited] at isOutput
    cases isOutput
  | some output =>
    cases found : cache.lookup item.runId with
    | none =>
      simp only [Option.bind_some,found,Option.elim_some]
      refine iff_of_true ?_ trivial
      rintro other output ⟨also,_⟩ cached isCached
      rw [sameItem other also,found] at isCached
      cases isCached
    | some cached =>
      simp only [Option.bind_some,found,Option.elim_some]
      constructor
      · intro right
        exact right item output ⟨evaluates,awaited⟩ cached found
      · rintro isIt other output ⟨also,isOutput⟩ _ isCached
        cases sameItem other also
        rw [awaited] at isOutput
        cases isOutput
        rw [found] at isCached
        cases isCached
        exact isIt

theorem materialized_cache (evaluates : Evaluates registry journal auth task item)
    (right : Right unicode registry journal auth cache task) :
    ∃ next, (continuationMaterialized unicode journal auth task item (some cache)).2 = some next ∧
      ∀ runId value, next.lookup runId = some value ↔ cache.lookup runId = some value ∨
        ∃ other output, Asks unicode registry journal auth task other output ∧ other.runId = runId ∧
          journal.shows auth runId output = value := by
  have sameItem : ∀ other, Evaluates registry journal auth task other → other = item := by
    intro other also
    exact Option.some.inj (also.2.1.symm.trans evaluates.2.1)
  unfold continuationMaterialized
  cases awaited : awaitedOutput unicode task with
  | none =>
    refine ⟨cache,rfl,?_⟩
    intro runId value
    refine ⟨.inl,?_⟩
    rintro (known | ⟨other,output,⟨_,isOutput⟩,_⟩)
    · exact known
    · rw [awaited] at isOutput
      cases isOutput
  | some output =>
    have asked : ∀ other otherOutput, Asks unicode registry journal auth task other otherOutput →
        other = item ∧ otherOutput = output := by
      rintro other otherOutput ⟨also,isOutput⟩
      exact ⟨sameItem other also,Option.some.inj (isOutput.symm.trans awaited)⟩
    cases found : cache.lookup item.runId with
    | some cached =>
      simp only [Option.bind_some,found]
      refine ⟨cache,rfl,?_⟩
      intro runId value
      refine ⟨.inl,?_⟩
      rintro (known | ⟨other,otherOutput,asks,rfl,shown⟩)
      · exact known
      · obtain ⟨rfl,rfl⟩ := asked other otherOutput asks
        rw [found,right _ _ asks cached found,shown]
    | none =>
      simp only [Option.bind_some,found,Option.map_some]
      refine ⟨_,rfl,?_⟩
      intro runId value
      by_cases same : runId = item.runId
      · subst same
        rw [Finmap.lookup_insert,Option.some.injEq]
        constructor
        · intro shown
          exact .inr ⟨item,output,⟨evaluates,awaited⟩,rfl,shown⟩
        · rintro (known | ⟨other,otherOutput,asks,_,shown⟩)
          · rw [found] at known
            cases known
          · obtain ⟨rfl,rfl⟩ := asked other otherOutput asks
            exact shown
      · rw [Finmap.lookup_insert_of_ne _ same]
        refine ⟨.inl,?_⟩
        rintro (known | ⟨other,otherOutput,asks,rfl,_⟩)
        · exact known
        · exact absurd (congrArg _ (asked other otherOutput asks).1) same

theorem visit_right (right : Right unicode registry journal auth cache task) :
    (visit unicode registry journal auth clock (some cache) task).1 = (visit unicode registry journal auth clock none task).1 ∧
      ∃ next, (visit unicode registry journal auth clock (some cache) task).2 = some next ∧
        ∀ runId value, next.lookup runId = some value ↔ cache.lookup runId = some value ∨
          ∃ item output, Asks unicode registry journal auth task item output ∧ item.runId = runId ∧
            journal.shows auth runId output = value := by
  have unasked : (∀ item output, ¬ Asks unicode registry journal auth task item output) →
      ∃ next, some cache = some next ∧ ∀ runId value, next.lookup runId = some value ↔ cache.lookup runId = some value ∨
        ∃ item output, Asks unicode registry journal auth task item output ∧ item.runId = runId ∧
          journal.shows auth runId output = value := by
    intro notAsked
    refine ⟨cache,rfl,?_⟩
    intro runId value
    refine ⟨.inl,?_⟩
    rintro (known | ⟨item,output,asks,_⟩)
    · exact known
    · exact absurd asks (notAsked item output)
  unfold visit
  cases resumable : workflowTaskContinuationState registry task with
  | none =>
    refine ⟨rfl,unasked ?_⟩
    rintro item output ⟨⟨isSome,_⟩,_⟩
    rw [resumable] at isSome
    cases isSome
  | some continuation =>
    cases found : journal.continuationItem auth task.id with
    | none =>
      refine ⟨rfl,unasked ?_⟩
      rintro item output ⟨⟨_,isItem,_⟩,_⟩
      rw [found] at isItem
      cases isItem
    | some item =>
      have evaluates : item.status ≠ .required → Evaluates registry journal auth task item := by
        intro notRequired
        exact ⟨by rw [resumable]; rfl,found,notRequired⟩
      cases status : item.status with
      | required =>
        simp only [status]
        refine ⟨trivial,unasked ?_⟩
        rintro other output ⟨⟨_,isItem,notRequired⟩,_⟩
        cases found.symm.trans isItem
        exact notRequired status
      | started =>
        have here := evaluates (by rw [status]; exact fun same => by cases same)
        have same := (right_iff here).mp right
        have added := materialized_cache here right
        simp only [status,continuationRetryable,same]
        exact ⟨trivial,added⟩
      | completed =>
        have here := evaluates (by rw [status]; exact fun same => by cases same)
        have same := (right_iff here).mp right
        have added := materialized_cache here right
        simp only [status,same]
        exact ⟨trivial,added⟩
      | failed =>
        have here := evaluates (by rw [status]; exact fun same => by cases same)
        have same := (right_iff here).mp right
        have added := materialized_cache here right
        simp only [status,same]
        exact ⟨trivial,added⟩

theorem visit_uncached_iff :
    (visit unicode registry journal auth clock none task).1.isSome = true ↔ Known unicode registry journal auth clock task := by
  rw [Known,accepts_iff]
  unfold visit
  cases workflowTaskContinuationState registry task with
  | none => simp
  | some continuation =>
    cases journal.continuationItem auth task.id with
    | none => simp
    | some item =>
      cases status : item.status with
      | required => simp [alreadyStarted,status]
      | started =>
        simp only [alreadyStarted,status]
        cases (continuationRetryable unicode journal auth clock task item none).1 <;> simp
      | completed =>
        simp only [alreadyStarted,status]
        cases (continuationMaterialized unicode journal auth task item none).1 <;> simp
      | failed =>
        simp only [alreadyStarted,status]
        cases (continuationMaterialized unicode journal auth task item none).1 <;> simp

theorem continuation_taskId {continuation : Continuation}
    (resumable : workflowTaskContinuationState registry task = some continuation) : continuation.taskId = task.id := by
  unfold workflowTaskContinuationState at resumable
  split at resumable
  · cases resumable
  · split at resumable
    · cases resumable
      rfl
    · cases resumable

theorem visit_taskId {cache : Option Cache} {offer : Offer}
    (offered : (visit unicode registry journal auth clock cache task).1 = some offer) : offer.taskId = some task.id := by
  unfold visit at offered
  cases resumable : workflowTaskContinuationState registry task with
  | none => simp [resumable] at offered
  | some continuation =>
    have names := continuation_taskId resumable
    have again : ∀ {answer : Bool} {reason : String}, (if answer then none else some (Offer.again continuation reason)) =
        some offer → offer.taskId = some task.id := by
      intro answer reason isOffer
      split at isOffer
      · cases isOffer
      · cases isOffer
        exact congrArg some names
    cases found : journal.continuationItem auth task.id with
    | none => simp [resumable,found] at offered
    | some item =>
      cases status : item.status with
      | required =>
        simp only [resumable,found,status,Option.some.injEq] at offered
        subst offered
        exact item_taskId found
      | started =>
        simp only [resumable,found,status] at offered
        split at offered
        · cases offered
          exact congrArg some names
        · cases offered
      | completed =>
        simp only [resumable,found,status] at offered
        exact again offered
      | failed =>
        simp only [resumable,found,status] at offered
        exact again offered

theorem passes_cons {cache : Option Cache} {rest : List Task} :
    passes unicode registry journal auth clock cache (task :: rest) =
      if (visit unicode registry journal auth clock cache task).1.isSome then none
      else passes unicode registry journal auth clock (visit unicode registry journal auth clock cache task).2 rest := by
  rw [passes]
  rcases visit unicode registry journal auth clock cache task with ⟨offer | _,next⟩ <;> rfl

theorem passes_append {cache : Option Cache} {before after : List Task} :
    passes unicode registry journal auth clock cache (before ++ after) =
      (passes unicode registry journal auth clock cache before).bind fun next =>
        passes unicode registry journal auth clock next after := by
  induction before generalizing cache with
  | nil => rfl
  | cons task rest ih =>
    rw [cons_append,passes_cons,passes_cons]
    split
    · rfl
    · exact ih

theorem firstOffer_append {cache : Option Cache} {before after : List Task} {next : Option Cache}
    (passed : passes unicode registry journal auth clock cache before = some next) :
    firstOffer unicode registry journal auth clock cache (before ++ after) =
      firstOffer unicode registry journal auth clock next after := by
  induction before generalizing cache with
  | nil =>
    cases passed
    rfl
  | cons task rest ih =>
    rw [passes_cons] at passed
    rw [cons_append,firstOffer]
    rcases visited : visit unicode registry journal auth clock cache task with ⟨offer | _,following⟩
    · rw [visited] at passed
      exact ih passed
    · rw [visited] at passed
      cases passed

/-- The cache has the answers of the tasks that were asked, and no others. -/
def Filled (unicode : Unicode) (registry : Registry) (journal : Journal) (auth : AuthContext) (tasks : List Task) (cache : Cache) :
    Prop :=
  ∀ runId value, cache.lookup runId = some value ↔ ∃ task ∈ tasks, ∃ item output,
    Asks unicode registry journal auth task item output ∧ item.runId = runId ∧ journal.shows auth runId output = value
theorem filled_nil : Filled unicode registry journal auth [] ∅ := by
  intro runId value
  simp

theorem passes_right {tasks : List Task} (right : ∀ before task after, tasks = before ++ task :: after →
      (∀ earlier ∈ before, ¬ Known unicode registry journal auth clock earlier) → ∀ cache,
      passes unicode registry journal auth clock (some ∅) before = some (some cache) →
      Filled unicode registry journal auth before cache → Right unicode registry journal auth cache task) :
    (∀ next, passes unicode registry journal auth clock (some ∅) tasks = some next →
      (∀ task ∈ tasks, ¬ Known unicode registry journal auth clock task) ∧
        ∃ cache, next = some cache ∧ Filled unicode registry journal auth tasks cache) ∧
    ((∀ task ∈ tasks, ¬ Known unicode registry journal auth clock task) →
      ∃ next, passes unicode registry journal auth clock (some ∅) tasks = some next) := by
  induction tasks using List.reverseRecOn with
  | nil =>
    refine ⟨?_,fun _ => ⟨_,rfl⟩⟩
    rintro next ⟨⟩
    exact ⟨by simp,∅,rfl,filled_nil⟩
  | append_singleton before task ih =>
    have earlier := ih fun first other after split => right first other (after ++ [task]) (by simp [split])
    have visited : ∀ next, passes unicode registry journal auth clock (some ∅) before = some next →
        ∃ cache, next = some cache ∧ Filled unicode registry journal auth before cache ∧
          Right unicode registry journal auth cache task := by
      intro next passed
      obtain ⟨unknown,cache,rfl,filled⟩ := earlier.1 next passed
      exact ⟨cache,rfl,filled,right before task [] rfl unknown cache passed filled⟩
    constructor
    · intro next passed
      rw [passes_append] at passed
      obtain ⟨mid,passedBefore,passedTask⟩ := Option.bind_eq_some_iff.mp passed
      obtain ⟨cache,rfl,filled,isRight⟩ := visited mid passedBefore
      obtain ⟨same,added,isAdded,lookups⟩ := @visit_right unicode registry journal auth clock task cache isRight
      rw [passes_cons] at passedTask
      split at passedTask
      · cases passedTask
      · rename_i notOffered
        rw [isAdded] at passedTask
        cases passedTask
        refine ⟨?_,added,rfl,?_⟩
        · intro other listed
          rcases mem_append.mp listed with isBefore | isTask
          · exact (earlier.1 _ passedBefore).1 other isBefore
          · rw [mem_singleton.mp isTask,← visit_uncached_iff,← same]
            exact notOffered
        · intro runId value
          rw [lookups,filled runId value]
          constructor
          · rintro (⟨other,listed,asked⟩ | asked)
            · exact ⟨other,mem_append_left _ listed,asked⟩
            · exact ⟨task,by simp,asked⟩
          · rintro ⟨other,listed,asked⟩
            rcases mem_append.mp listed with isBefore | isTask
            · exact .inl ⟨other,isBefore,asked⟩
            · exact .inr (mem_singleton.mp isTask ▸ asked)
    · intro unknown
      obtain ⟨next,passed⟩ := earlier.2 fun other listed => unknown other (mem_append_left _ listed)
      obtain ⟨cache,rfl,_,isRight⟩ := visited next passed
      obtain ⟨same,_⟩ := @visit_right unicode registry journal auth clock task cache isRight
      have notOffered : ¬ (visit unicode registry journal auth clock (some cache) task).1.isSome = true := by
        rw [same,visit_uncached_iff]
        exact unknown task (by simp)
      rw [passes_append,passed,Option.bind_some,passes_cons,if_neg notOffered]
      exact ⟨_,rfl⟩

theorem firstOffer_some {tasks : List Task} {cache : Option Cache} {offer : Offer}
    (offered : firstOffer unicode registry journal auth clock cache tasks = some offer) :
    ∃ before task after next, tasks = before ++ task :: after ∧
      passes unicode registry journal auth clock cache before = some next ∧
        (visit unicode registry journal auth clock next task).1 = some offer := by
  induction tasks generalizing cache with
  | nil => cases offered
  | cons task rest ih =>
    rw [firstOffer] at offered
    rcases visited : visit unicode registry journal auth clock cache task with ⟨first | _,following⟩
    · rw [visited] at offered
      obtain ⟨before,other,after,next,rfl,passed,isOffer⟩ := ih offered
      refine ⟨task :: before,other,after,next,rfl,?_,isOffer⟩
      rw [passes_cons,visited]
      exact passed
    · rw [visited] at offered
      exact ⟨[],task,rest,cache,rfl,rfl,by rw [visited]; exact offered⟩

theorem listed_task {conversationId : Nat} {tasks : List Task}
    (listed : journal.workflowTasks auth conversationId = some tasks) (isListed : task ∈ tasks) :
    task ∈ journal.tasks ∧ taskAuthorized auth task = true := by
  obtain ⟨conversation,_,rfl⟩ := Option.map_eq_some_iff.mp listed
  obtain ⟨stored,chosen⟩ := mem_filter.mp (mem_ordered.mp isListed)
  simp only [Bool.and_eq_true] at chosen
  exact ⟨stored,chosen.2⟩

theorem getWorkflowTask_of_mem (stored : task ∈ journal.tasks) (isAuthorized : taskAuthorized auth task = true) :
    getWorkflowTask journal.tasks auth task.id = some task := by
  have search : journal.tasks.find? (fun other => other.id == task.id) = some task := by
    cases found : journal.tasks.find? fun other => other.id == task.id with
    | none =>
      have missed := find?_eq_none.mp found task stored
      simp at missed
    | some other =>
      have same : other.id = task.id := by simpa using find?_some found
      rw [inj_on_of_nodup_map journal.taskIds (mem_of_find?_eq_some found) stored same]
  rw [getWorkflowTask,search]
  exact Option.filter_eq_some_iff.mpr ⟨rfl,isAuthorized⟩

section
variable {conversationId : Nat}

/-- Every task that the loop comes to finds a right cache. -/
def Rightly (unicode : Unicode) (registry : Registry) (journal : Journal) (auth : AuthContext) (clock : Clock)
    (conversationId : Nat) : Prop :=
  ∀ tasks before task after, journal.workflowTasks auth conversationId = some tasks →
    tasks.reverse = before ++ task :: after → (∀ earlier ∈ before, ¬ Known unicode registry journal auth clock earlier) →
    ∀ cache, passes unicode registry journal auth clock (some ∅) before = some (some cache) →
      Filled unicode registry journal auth before cache → Right unicode registry journal auth cache task
theorem rightly_of_agrees (agrees : Agrees unicode registry journal auth clock conversationId) :
    Rightly unicode registry journal auth clock conversationId := by
  intro tasks before task after listed split _ cache passed _ item output asks
  have same := agrees.cached tasks before task after listed split (some cache) passed item asks.1
  exact (right_iff asks.1).mpr same item output asks

theorem rightly_of_consistent (consistent : Consistent unicode registry journal auth clock conversationId) :
    Rightly unicode registry journal auth clock conversationId := by
  intro tasks before task after listed split unknown cache _ filled item output asks cached found
  obtain ⟨first,isBefore,firstItem,firstOutput,firstAsks,sameRun,shown⟩ := (filled item.runId cached).mp found
  obtain ⟨front,middle,rfl⟩ := append_of_mem isBefore
  have parts : tasks.reverse = front ++ first :: (middle ++ task :: after) := by simpa using split
  have alike := consistent.alike tasks front first middle task after listed parts unknown _ _ _ _ firstAsks asks sameRun
  rw [← alike,sameRun,shown]

theorem passes_rightly (rightly : Rightly unicode registry journal auth clock conversationId) {tasks before rest : List Task}
    (listed : journal.workflowTasks auth conversationId = some tasks) (split : tasks.reverse = before ++ rest) :
    (∀ next, passes unicode registry journal auth clock (some ∅) before = some next →
      (∀ task ∈ before, ¬ Known unicode registry journal auth clock task) ∧
        ∃ cache, next = some cache ∧ Filled unicode registry journal auth before cache) ∧
    ((∀ task ∈ before, ¬ Known unicode registry journal auth clock task) →
      ∃ next, passes unicode registry journal auth clock (some ∅) before = some next) := by
  apply passes_right
  intro front task after parts
  exact rightly tasks front task (after ++ rest) listed (by rw [split,parts]; simp)

theorem offered_of_known (rightly : Rightly unicode registry journal auth clock conversationId) {tasks before after : List Task}
    (listed : journal.workflowTasks auth conversationId = some tasks) (split : tasks.reverse = before ++ task :: after)
    (unknown : ∀ earlier ∈ before, ¬ Known unicode registry journal auth clock earlier)
    (known : Known unicode registry journal auth clock task) :
    ∃ offer, pendingWorkflowContinuation unicode registry journal auth clock conversationId = some offer ∧
      offer.taskId = some task.id := by
  obtain ⟨next,passed⟩ := (passes_rightly rightly listed split).2 unknown
  obtain ⟨_,cache,rfl,filled⟩ := (passes_rightly rightly listed split).1 next passed
  have right := rightly tasks before task after listed split unknown cache passed filled
  have offers := visit_uncached_iff.mpr known
  rw [← (visit_right right).1] at offers
  obtain ⟨offer,isOffer⟩ := Option.isSome_iff_exists.mp offers
  refine ⟨offer,?_,visit_taskId isOffer⟩
  unfold pendingWorkflowContinuation
  simp only [listed]
  rw [split,firstOffer_append passed,firstOffer]
  rcases visited : visit unicode registry journal auth clock (some cache) task with ⟨first | _,following⟩
  · rw [visited] at isOffer
    cases isOffer
  · rw [visited] at isOffer
    exact isOffer

theorem known_of_offered (rightly : Rightly unicode registry journal auth clock conversationId) {offer : Offer}
    (offered : pendingWorkflowContinuation unicode registry journal auth clock conversationId = some offer) :
    ∃ tasks before task after, journal.workflowTasks auth conversationId = some tasks ∧
      tasks.reverse = before ++ task :: after ∧ Known unicode registry journal auth clock task ∧
        offer.taskId = some task.id := by
  unfold pendingWorkflowContinuation at offered
  cases listed : journal.workflowTasks auth conversationId with
  | none => simp [listed] at offered
  | some tasks =>
    simp only [listed] at offered
    obtain ⟨before,task,after,next,split,passed,isOffer⟩ := firstOffer_some offered
    obtain ⟨unknown,cache,rfl,filled⟩ := (passes_rightly rightly listed split).1 next passed
    have right := rightly tasks before task after listed split unknown cache passed filled
    refine ⟨tasks,before,task,after,rfl,split,?_,visit_taskId isOffer⟩
    rw [← visit_uncached_iff,← (visit_right right).1,isOffer]
    rfl

theorem consistent_of_agrees (agrees : Agrees unicode registry journal auth clock conversationId) :
    Consistent unicode registry journal auth clock conversationId := by
  have rightly := rightly_of_agrees agrees
  constructor
  · intro tasks before first middle second after listed split unknown item output other otherOutput asks otherAsks sameRun
    have parts : tasks.reverse = (before ++ first :: middle) ++ second :: after := by simpa using split
    obtain ⟨next,passed⟩ := (passes_rightly rightly listed parts).2 unknown
    obtain ⟨_,cache,rfl,filled⟩ := (passes_rightly rightly listed parts).1 next passed
    have cached := (filled item.runId _).mpr ⟨first,by simp,item,output,asks,rfl,rfl⟩
    rw [sameRun] at cached
    have right := rightly tasks _ second after listed parts unknown cache passed filled other otherOutput otherAsks _ cached
    rw [sameRun,right]
  · intro tasks before task after listed split accepts newest
    obtain ⟨offer,offered,names⟩ := agrees.offered tasks before task after listed split accepts newest
    obtain ⟨_,_,other,_,alsoListed,otherSplit,known,otherNames⟩ := known_of_offered rightly offered
    cases listed.symm.trans alsoListed
    have isTask : task ∈ tasks := mem_reverse.mp (by simp [split])
    have isOther : other ∈ tasks := mem_reverse.mp (by simp [otherSplit])
    have sameId : task.id = other.id := Option.some.inj (names.symm.trans otherNames)
    rw [inj_on_of_nodup_map journal.taskIds (listed_task listed isTask).1 (listed_task listed isOther).1 sameId]
    exact known.1

theorem agrees_of_consistent (consistent : Consistent unicode registry journal auth clock conversationId) :
    Agrees unicode registry journal auth clock conversationId := by
  have rightly := rightly_of_consistent consistent
  constructor
  · intro offer offered
    obtain ⟨tasks,before,task,after,listed,split,known,names⟩ := known_of_offered rightly offered
    obtain ⟨stored,isAuthorized⟩ := listed_task listed (mem_reverse.mp (show task ∈ tasks.reverse by simp [split]))
    exact ⟨task,getWorkflowTask_of_mem stored isAuthorized,names,fun later isLater => accepts_later isLater known.2⟩
  · intro tasks before task after listed split accepts newest
    have isKnown := consistent.known tasks before task after listed split accepts newest
    exact offered_of_known rightly listed split (fun earlier isEarlier known => newest earlier isEarlier known.2) ⟨isKnown,accepts⟩
  · intro tasks before task after listed split next passed item evaluates
    obtain ⟨unknown,cache,rfl,filled⟩ := (passes_rightly rightly listed split).1 next passed
    exact (right_iff evaluates).mp (rightly tasks before task after listed split unknown cache passed filled)

end

/-- For all rows of a conversation the offer, the endpoint and the cache agree exactly if the rows
    are consistent. -/
theorem offers_agree_iff (unicode : Unicode) (registry : Registry) (journal : Journal) (auth : AuthContext) (clock : Clock)
    (conversationId : Nat) : Agrees unicode registry journal auth clock conversationId ↔
      Consistent unicode registry journal auth clock conversationId :=
  ⟨consistent_of_agrees,agrees_of_consistent⟩

/-- A conversation whose strategy inputs a completed step has resolved, which appends no event. -/
def resolvedBySync : Journal where
  conversations := [⟨1,1,1,none,1,1,false⟩]
  runs := [⟨3,1,1,1,"completed",2,5,none,none,none,none⟩]
  tasks := [{
    id := 7
    conversationId := 1
    runId := some 3
    ownerUserId := 1
    workspaceId := 1
    workflowId := "strategy_bot_simulation"
    taskTemplateId := "collect_strategy_inputs"
    stepId := "collect_strategy_inputs"
    kind := "input_request"
    status := "completed"
    payloadJson := {
      taskTemplateId := some "collect_strategy_inputs"
      status := some "pending_user"
      stepId := some "collect_strategy_inputs"
      kind := some "input_request"
      inputRequestIds := ["market","symbol"]
      actionIds := []
      inputRequests := []
      actions := []
      values := ∅
      rest := "" }
    responseJson := none
    createdAt := 4
    updatedAt := 5
    resolvedAt := some 5 }]
  events := []
  taskIds := List.nodup_singleton _

/-- The endpoint accepts the task, and nothing is offered. -/
theorem accepted_not_offered : ¬ ∀ (unicode : Unicode) (registry : Registry) (journal : Journal) (auth : AuthContext)
    (clock : Clock) (conversationId : Nat), Agrees unicode registry journal auth clock conversationId := by
  intro always
  have agrees := always ascii workflowDefinitions resolvedBySync ⟨1,1⟩ ⟨10,120⟩ 1
  have notOffered : (pendingWorkflowContinuation ascii workflowDefinitions resolvedBySync ⟨1,1⟩ ⟨10,120⟩ 1).isNone = true := by
    decide
  obtain ⟨offer,offered,_⟩ := agrees.offered resolvedBySync.tasks [] _ [] rfl rfl ⟨_,rfl⟩ (by simp)
  rw [offered] at notOffered
  cases notOffered

end Codebot.ContinuationOffers
