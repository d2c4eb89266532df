import Codebot.PlanApprovals

/-!
Whether a decided approval stays decided. Its status is read off the newest events only, and of two decisions the
later one wins, so that a rejection is not final and a queued preview is not always found again
(`decisions_kept_iff`).
-/
namespace Codebot.ApprovalDecisions
open BacktestApprovals PlanApprovals Runs List
open Tables (Keyed find find_of_mem)

def Rejected (s : Conversation) (approvalId : Nat) : Prop :=
  ∃ event ∈ s.events, event.type = .rejected ∧ event.approvalId = some approvalId
def decides (approvalId : Nat) (event : RunEvent) : Bool :=
  event.approvalId = some approvalId && (event.type = .rejected || event.type = .queued || event.type = .approved)
def lastDecision (events : List RunEvent) (approvalId : Nat) : Option EventType :=
  (events.reverse.find? (decides approvalId)).map RunEvent.type
/-- The preview was queued, and no rejection comes after that. -/
def QueuedStands (events : List RunEvent) (approvalId : Nat) : Prop :=
  ∃ before event after, events = before ++ event :: after ∧ event.type = .queued ∧
    event.approvalId = some approvalId ∧ ∀ later ∈ after, later.type = .rejected → later.approvalId ≠ some approvalId
theorem status_append (events : List RunEvent) (event : RunEvent) (approvalId : Nat) :
    approvalStatus (events ++ [event]) approvalId = observe approvalId (approvalStatus events approvalId) event :=
  foldl_concat ..
theorem lastDecision_append (events : List RunEvent) (event : RunEvent) (approvalId : Nat) :
    lastDecision (events ++ [event]) approvalId =
      if decides approvalId event then some event.type else lastDecision events approvalId := by
  rw [lastDecision,reverse_append,reverse_singleton,singleton_append,find?_cons]
  cases decided : decides approvalId event with
  | true => simp
  | false => simp [lastDecision]

theorem status_open (events : List RunEvent) (approvalId : Nat) :
    (approvalStatus events approvalId = .rejected ↔ lastDecision events approvalId = some .rejected) ∧
      (approvalStatus events approvalId = .pending ↔ lastDecision events approvalId = none) := by
  induction events using List.reverseRecOn with
  | nil => exact ⟨⟨nofun,nofun⟩,⟨fun _ => rfl,fun _ => rfl⟩⟩
  | append_singleton events event ih =>
    rw [status_append,lastDecision_append]
    by_cases concerned : event.approvalId = some approvalId
    · cases isType : event.type with
      | approved =>
        by_cases wasQueued : approvalStatus events approvalId = .queued <;>
          simp [observe,decides,concerned,isType,wasQueued]
      | rejected => simp [observe,decides,concerned,isType]
      | queued => simp [observe,decides,concerned,isType]
      | _ => simpa [observe,decides,concerned,isType] using ih
    · simpa [observe,decides,concerned] using ih

theorem stands_append (events : List RunEvent) (event : RunEvent) (approvalId : Nat) :
    QueuedStands (events ++ [event]) approvalId ↔
      (event.type = .queued ∧ event.approvalId = some approvalId) ∨
        (QueuedStands events approvalId ∧ (event.type = .rejected → event.approvalId ≠ some approvalId)) := by
  constructor
  · rintro ⟨before,queued,after,split,isQueued,concerned,calm⟩
    rcases eq_nil_or_concat after with rfl | ⟨rest,last,rfl⟩
    · obtain ⟨-,same⟩ := append_inj' split rfl
      cases same
      exact .inl ⟨isQueued,concerned⟩
    · rw [concat_eq_append,← cons_append,← append_assoc] at split
      obtain ⟨front,same⟩ := append_inj' split rfl
      cases same
      refine .inr ⟨⟨before,queued,rest,front,isQueued,concerned,?_⟩,calm event (by simp)⟩
      intro later member
      exact calm later (by simp [member])
  · rintro (⟨isQueued,concerned⟩ | ⟨⟨before,queued,after,rfl,isQueued,concerned,calm⟩,quiet⟩)
    · exact ⟨events,event,[],rfl,isQueued,concerned,by simp⟩
    · refine ⟨before,queued,after ++ [event],by simp,isQueued,concerned,?_⟩
      intro later member
      rcases mem_append.mp member with old | new
      · exact calm later old
      · rw [mem_singleton.mp new]
        exact quiet

theorem status_queued (events : List RunEvent) (approvalId : Nat) :
    approvalStatus events approvalId = .queued ↔ QueuedStands events approvalId := by
  induction events using List.reverseRecOn with
  | nil =>
    refine ⟨nofun,?_⟩
    rintro ⟨before,event,after,split,-⟩
    simp at split
  | append_singleton events event ih =>
    rw [status_append,stands_append,← ih]
    by_cases concerned : event.approvalId = some approvalId
    · cases isType : event.type with
      | approved =>
        by_cases wasQueued : approvalStatus events approvalId = .queued <;>
          simp [observe,concerned,isType,wasQueued]
      | _ => simp [observe,concerned,isType]
    · simp [observe,concerned]

def window (s : Conversation) : List RunEvent := newest eventWindow s.events
theorem status_window (s : Conversation) (approvalId : Nat) :
    approvalStatus (window s) approvalId = statusIn s approvalId := by
  rw [statusIn,window]
/-- One of the newest artifacts is the record of a plan whose file still has the
    approval id. -/
def PlanInReach (s : Conversation) (approvalId : Nat) : Prop :=
  ∃ artifact ∈ newest artifactPage s.artifacts, artifact.kind = .backtestPlan ∧
    ∃ plan, planFile s artifact.run = some plan ∧ plan.approvalId = approvalId

theorem findPlan_reach (s : Conversation) (approvalId : Nat) :
    (∃ found, findPlan s approvalId = some found) ↔ PlanInReach s approvalId := by
  rw [← Option.isSome_iff_exists,findPlan,findSome?_isSome_iff]
  constructor
  · rintro ⟨artifact,member,found⟩
    refine ⟨artifact,mem_reverse.mp member,?_⟩
    split at found
    · rename_i isPlan
      cases isFile : planFile s artifact.run with
      | none => simp [isFile] at found
      | some plan => exact ⟨isPlan,plan,rfl,by simpa [isFile] using found⟩
    · cases found
  · rintro ⟨artifact,member,isPlan,plan,isFile,same⟩
    exact ⟨artifact,mem_reverse.mpr member,by simp [isPlan,isFile,same]⟩

variable {tools : Tools}
variable {approvalId : Nat}
variable {s : Conversation}

theorem queuedPreview_names (holds : Consistent tools s)
    (stands : QueuedStands (window s) approvalId) : ∃ job ∈ s.jobs, job.approvalId = approvalId ∧
      queuedPreview (window s) approvalId = some (job.run,job.id) := by
  obtain ⟨before,event,after,split,isQueued,concerned,-⟩ := stands
  have listed : event ∈ (window s).reverse := by simp [split]
  obtain ⟨newestEvent,isNewest⟩ : ∃ found, ((window s).reverse.find? fun event =>
      event.type = .queued && event.approvalId = some approvalId) = some found := by
    rw [← Option.isSome_iff_exists,find?_isSome]
    exact ⟨event,listed,by simp [isQueued,concerned]⟩
  have kind := find?_some isNewest
  simp only [Bool.and_eq_true,decide_eq_true_eq] at kind
  have logged := newest_subset _ _ (mem_reverse.mp (mem_of_find?_eq_some isNewest))
  obtain ⟨named,run,id,isNamed,child,-,job,member,sameApproval,rfl,rfl⟩ := holds.queued newestEvent logged kind.1
  cases kind.2.symm.trans isNamed
  exact ⟨job,member,sameApproval,by rw [queuedPreview,isNewest]; exact child⟩

variable {decision : Decision}

theorem answer_queued {child : Option (Nat × Nat)} :
    answer s approvalId decision = .queued child ↔ PlanInReach s approvalId ∧ QueuedStands (window s) approvalId ∧
      child = queuedPreview (window s) approvalId := by
  rw [← findPlan_reach,← status_queued,status_window,window]
  unfold answer
  generalize statusIn s approvalId = status
  generalize queuedPreview (newest eventWindow s.events) approvalId = named
  cases findPlan s approvalId with
  | none => simp
  | some found => cases status <;> cases decision <;> simp [eq_comm]

def treatedAsApproved : Answer → Bool
  | .queued _ => true
  | .approve _ => true
  | _ => false

theorem answer_refused :
    treatedAsApproved (answer s approvalId decision) = false ↔ (PlanInReach s approvalId →
      match decision with
      | .approved => lastDecision (window s) approvalId = some .rejected
      | .rejected => ¬ QueuedStands (window s) approvalId) := by
  rw [← findPlan_reach,← status_queued,← (status_open _ _).1,status_window]
  unfold answer
  generalize statusIn s approvalId = status
  cases findPlan s approvalId with
  | none => simp [treatedAsApproved]
  | some found => cases status <;> cases decision <;> simp [treatedAsApproved]

theorem call_refused : ensureApproved s approvalId = false ↔
    lastDecision (window s) approvalId = none ∨ lastDecision (window s) approvalId = some .rejected := by
  rw [← (status_open _ _).1,← (status_open _ _).2,status_window,ensureApproved]
  generalize statusIn s approvalId = status
  cases status <;> simp

/-- Once an approval is rejected nothing is treated as approved or queued for it; once a job is queued for it every
    request answers with that job and its run. -/
def Decided (tools : Tools) (s : Conversation) (label : Label) : Prop :=
  (∀ t, step tools s label = some t → ∀ job ∈ t.jobs, job ∉ s.jobs → ¬ Rejected s job.approvalId) ∧
    match label with
    | .decide approvalId decision =>
      (Rejected s approvalId → treatedAsApproved (answer s approvalId decision) = false) ∧
        ∀ job ∈ s.jobs, job.approvalId = approvalId → answer s approvalId decision = .queued (some (job.run,job.id))
    | .runPreview _ approvalId _ _ => Rejected s approvalId → ensureApproved s approvalId = false
    | _ => True

/-- The condition on a step: a request finds a rejection as the last decision, or, where it rejects again, no queued
    event that stands, and the one job of an approval behind such an event; a call finds no decision or a rejection
    last; nothing is queued under an approval that was rejected since. -/
def Stays (s : Conversation) : Label → Prop
  | .decide approvalId decision =>
    (Rejected s approvalId → PlanInReach s approvalId →
      match decision with
      | .approved => lastDecision (window s) approvalId = some .rejected
      | .rejected => ¬ QueuedStands (window s) approvalId) ∧
    ∀ job ∈ s.jobs, job.approvalId = approvalId → PlanInReach s approvalId ∧ QueuedStands (window s) approvalId ∧
      ∀ other ∈ s.jobs, other.approvalId = approvalId → other = job
  | .runPreview _ approvalId _ _ => Rejected s approvalId →
    lastDecision (window s) approvalId = none ∨ lastDecision (window s) approvalId = some .rejected
  | .advance index true =>
    match s.pending[index]? with
    | some (.queueing found) => ¬ Rejected s found.plan.approvalId
    | some (.previewing approvalId _ _ _) => ¬ Rejected s approvalId
    | _ => True
  | _ => True

theorem added_iff {s : Conversation} (holds : Consistent tools s) {label : Label} {p : Nat → Prop} :
    (∀ t, step tools s label = some t → ∀ job ∈ t.jobs, job ∉ s.jobs → p job.approvalId) ↔
      ∀ job, queuedBy tools s label = some job → p job.approvalId := by
  constructor
  · intro added job queued
    obtain ⟨t,stepped⟩ := step_queuedBy queued
    refine added t stepped job ?_ (queuedBy_new holds queued)
    rw [step_jobs stepped,queued]
    exact mem_append_right _ mem_cons_self
  · intro created t stepped job member new
    rw [step_jobs stepped] at member
    rcases mem_append.mp member with old | isQueued
    · exact absurd old new
    · exact created job (Option.mem_toList.mp isQueued)

theorem created_iff {s : Conversation} (holds : Consistent tools s) {index : Nat} {enabled : Bool} {p : Nat → Prop} :
    (∀ job, queuedBy tools s (.advance index enabled) = some job → p job.approvalId) ↔
      (enabled = true → match s.pending[index]? with
        | some (.queueing found) => p found.plan.approvalId
        | some (.previewing approvalId _ _ _) => p approvalId
        | _ => True) := by
  cases isWork : s.pending[index]? with
  | none => simp [queuedBy,isWork]
  | some work =>
    have backed := holds.backed work (mem_of_getElem? isWork)
    cases work with
    | queueing found =>
      obtain ⟨config,-,isJob⟩ := jobOf_queueing s enabled (holds.presentable _ backed.1)
      simp only [queuedBy,isWork,Option.bind_some,isJob]
      cases enabled <;> simp
    | previewing approvalId strategySpec pineCode config =>
      have isJob := jobOf_previewing s enabled approvalId backed.2.1 backed.2.2
      simp only [queuedBy,isWork,Option.bind_some,isJob]
      cases enabled <;> simp
    | _ => simp [queuedBy,isWork,jobOf]

theorem answered_iff (holds : Consistent tools s) :
    (∀ job ∈ s.jobs, job.approvalId = approvalId → answer s approvalId decision = .queued (some (job.run,job.id))) ↔
      ∀ job ∈ s.jobs, job.approvalId = approvalId → PlanInReach s approvalId ∧ QueuedStands (window s) approvalId ∧
        ∀ other ∈ s.jobs, other.approvalId = approvalId → other = job := by
  constructor
  · intro answered job member same
    obtain ⟨reach,stands,child⟩ := answer_queued.mp (answered job member same)
    refine ⟨reach,stands,?_⟩
    intro other isOther sameOther
    obtain ⟨-,-,again⟩ := answer_queued.mp (answered other isOther sameOther)
    have ids : other.id = job.id := by
      have pairs := Option.some.inj (again.trans child.symm)
      exact congrArg Prod.snd pairs
    have first := find_of_mem holds.jobs member
    have second := find_of_mem holds.jobs isOther
    rw [show Keyed.key other = Keyed.key job from ids] at second
    exact Option.some.inj (second.symm.trans first)
  · intro unique job member same
    obtain ⟨reach,stands,only⟩ := unique job member same
    obtain ⟨named,isNamed,sameNamed,child⟩ := queuedPreview_names holds stands
    rw [only named isNamed sameNamed] at child
    exact answer_queued.mpr ⟨reach,stands,child.symm⟩

theorem decided_iff (holds : Consistent tools s) (label : Label) : Decided tools s label ↔ Stays s label := by
  have added := @added_iff _ _ holds label fun approvalId => ¬ Rejected s approvalId
  cases label with
  | decide approvalId decision =>
    have quiet : ∀ t, step tools s (.decide approvalId decision) = some t → ∀ job ∈ t.jobs, job ∉ s.jobs →
        ¬ Rejected s job.approvalId := added.mpr nofun
    simp only [Decided,Stays,answered_iff holds,answer_refused]
    exact ⟨And.right,fun kept => ⟨quiet,kept⟩⟩
  | runPreview run approvalId arguments enabled =>
    simp only [Decided,Stays,call_refused]
    exact ⟨And.right,fun kept => ⟨added.mpr nofun,kept⟩⟩
  | advance index enabled =>
    simp only [Decided,and_true]
    rw [added,@created_iff _ _ holds index enabled fun approvalId => ¬ Rejected s approvalId]
    cases enabled <;> simp [Stays]
  | _ => exact ⟨fun _ => trivial,fun _ => ⟨added.mpr nofun,trivial⟩⟩

/-- A run of a conversation keeps to its decisions exactly if each of its steps meets
    the condition. -/
theorem decisions_kept_iff (tools : Tools) (labels : List Label) :
    Meets (step tools) (Decided tools) initial labels ↔ Meets (step tools) (fun s => Stays s) initial labels := by
  refine @meets_iff _ _ _ (Decided tools) (Consistent tools) _ ?_ ?_ _ consistent_initial labels
  · intro s label t holds _ stepped
    exact consistent_step holds stepped
  · intro s label holds
    exact decided_iff holds label

/-- A rejecting and an approving request read the pending approval; the rejection is
    logged first. -/
def rejectedThenApproved : List Label :=
  samplePlanned ++ [.decide 2 .approved,.decide 2 .rejected,.advance 1 true,.advance 0 true]

/-- A job is queued for a rejected approval. -/
theorem rejection_not_final : ¬ ∀ (tools : Tools) (labels : List Label),
    Meets (step tools) (Decided tools) initial labels := by
  intro always
  have meets := always sampleTools (rejectedThenApproved ++ [.advance 0 true])
  obtain ⟨s,reached,t,stepped,job,added,new,rejected⟩ : ∃ s, run (step sampleTools) initial rejectedThenApproved = some s ∧
      ∃ t, step sampleTools s (.advance 0 true) = some t ∧ ∃ job ∈ t.jobs, job ∉ s.jobs ∧ Rejected s job.approvalId := by
    refine ⟨_,rfl,_,rfl,_,mem_cons_self,by decide,concerning .rejected 2,?_,rfl,rfl⟩
    decide
  exact ((meets_append meets).2 s reached).1.1 t stepped job added new rejected

end Codebot.ApprovalDecisions
