import Codebot.JobTable
import Mathlib.Data.List.Dedup
import Mathlib.Data.List.Find

/-!
`claim_run_job` of the two repositories. The in-memory repository goes once through its sorted candidates and counts
the active jobs of a workspace at each; the SQL repository counts them once, reads its candidates in pages and selects
each again by its id (`selection_agrees`).
-/
namespace Codebot.JobSelection
open Tables List JobTable

section Pages
variable {α β : Type*}

/-- Go through the rows of a query by pages of `size + 1` rows, up to the first row that is
    picked or to an empty page. -/
def pagedFind (pick : α → Option β) (size : Nat) (rows : List α) (offset : Nat) : Option β :=
  let page := (rows.drop offset).take (size + 1)
  if page.isEmpty then none
  else
    match page.findSome? pick with
    | some picked => some picked
    | none => pagedFind pick size rows (offset + (size + 1))
termination_by rows.length - offset
decreasing_by
  rename_i filled
  have inside : offset < rows.length := by
    by_contra beyond
    apply filled
    simp [page,List.drop_eq_nil_of_le (by omega : rows.length ≤ offset)]
  omega

theorem pagedFind_eq (pick : α → Option β) (size : Nat) (rows : List α) (offset : Nat) :
    pagedFind pick size rows offset = (rows.drop offset).findSome? pick := by
  fun_induction pagedFind pick size rows offset with
  | case1 offset page empty =>
    have none : rows.drop offset = [] := by
      by_contra left
      obtain ⟨row,rest,split⟩ := exists_cons_of_ne_nil left
      simp [page,split] at empty
    rw [none]
    rfl
  | case2 offset page filled picked found =>
    rw [← take_append_drop (size + 1) (rows.drop offset),findSome?_append]
    simp only [page] at found
    rw [found]
    rfl
  | case3 offset page filled missed ih =>
    rw [ih,← take_append_drop (size + 1) (rows.drop offset),findSome?_append]
    simp only [page] at missed
    rw [missed,drop_drop]
    rfl

end Pages

/-- The rows of `run_jobs` under their primary keys. -/
structure RunJobs where
  rows : List RunJobRow
  distinct : (rows.map Keyed.key).Nodup
/-- One row of the table takes the columns of a claim. -/
def RunJobs.write (jobs : RunJobs) (jobId : Nat) (change : RunJobRow → RunJobRow)
    (keeps : ∀ job, Keyed.key (change job) = Keyed.key job) : RunJobs where
  rows := update jobs.rows jobId change
  distinct := by
    rw [keys_update keeps]
    exact jobs.distinct
/-- The condition on a candidate of the in-memory repository. -/
def queuedInMemory (now : Nat) (jobType : JobType) (job : RunJobRow) : Bool :=
  job.jobType == jobType && job.attempts < job.maxAttempts &&
    (job.status == .queued || (job.status == .running && job.leasedUntil.any (· < now)))

/-- `claim_run_job` of the in-memory repository. -/
def claimInMemory (settings : Settings) (now workerId : Nat) (jobType : JobType) (jobs : RunJobs) :
    Option RunJobRow × RunJobs :=
  let queued := jobs.rows.filter (queuedInMemory now jobType)
  if queued.isEmpty then (none,jobs)
  else
    let job := (claimOrder queued).find? fun candidate =>
      let activeLimit := backtestActiveLimitFromPayload candidate.workspaceActiveLimit
      let runningCount := activeCount now candidate.jobType candidate.workspaceId jobs.rows
      decide ((runningCount : Int) < activeLimit)
    match job with
    | none => (none,jobs)
    | some job =>
      (some (claimed settings now workerId job),jobs.write job.id (claimed settings now workerId) fun _ => rfl)

/-- `active_counts`: the workspaces with an active job of the type, each with its number of them. -/
def activeCounts (now : Nat) (jobType : JobType) (rows : List RunJobRow) : List (Nat × Nat) :=
  let active := rows.filter fun job => job.jobType == jobType && leaseActive now job
  (active.map (·.workspaceId)).dedup.map fun workspaceId =>
    (workspaceId,active.countP fun job => job.workspaceId == workspaceId)
/-- `batch_size` is 100. -/
def lastOfBatch : Nat := 99

/-- `claim_run_job` of the SQL repository, on rows that no other session has locked. A candidate
    whose workspace has a free slot is selected again. -/
def claimInSql (settings : Settings) (now workerId : Nat) (jobType : JobType) (jobs : RunJobs) :
    Option RunJobRow × RunJobs :=
  let candidates := claimOrder (jobs.rows.filter (claimable now jobType))
  let counts := activeCounts now jobType jobs.rows
  let job := pagedFind (fun candidate =>
    let activeLimit := backtestActiveLimitFromPayload candidate.workspaceActiveLimit
    if activeLimit ≤ ((counts.lookup candidate.workspaceId).getD 0 : Int) then none
    else (find jobs.rows candidate.id).filter (claimable now jobType)) lastOfBatch candidates 0
  match job with
  | none => (none,jobs)
  | some job =>
    (some (claimedRunJob settings.leaseSeconds now workerId job job),
      jobs.write job.id (claimedRunJob settings.leaseSeconds now workerId job) fun _ => rfl)

/-- The job can be claimed: it is queued or its lease has run out, it has an attempt left, and its
    workspace has a free slot. -/
def Eligible (now : Nat) (jobType : JobType) (jobs : RunJobs) (job : RunJobRow) : Prop :=
  job ∈ jobs.rows ∧ claimable now jobType job ∧
    (activeCount now jobType job.workspaceId jobs.rows : Int) < backtestActiveLimitFromPayload job.workspaceActiveLimit
/-- No eligible job was created before this one, or at the same time with a smaller id. -/
def Oldest (now : Nat) (jobType : JobType) (jobs : RunJobs) (job : RunJobRow) : Prop :=
  Eligible now jobType jobs job ∧ ∀ other, Eligible now jobType jobs other →
    job.createdAt < other.createdAt ∨ (job.createdAt = other.createdAt ∧ job.id ≤ other.id)

variable {settings : Settings} {now workerId : Nat} {jobType : JobType} {jobs : RunJobs} {job : RunJobRow}

theorem lookup_counts (count : Nat → Nat) (workspaces : List Nat) (workspaceId : Nat) :
    (workspaces.map fun other => (other,count other)).lookup workspaceId =
      if workspaceId ∈ workspaces then some (count workspaceId) else none := by
  induction workspaces with
  | nil => rfl
  | cons other rest ih =>
    rw [map_cons,lookup_cons,ih]
    by_cases same : workspaceId = other
    · simp [same]
    · simp [same,beq_false_of_ne same]

theorem activeCounts_lookup (rows : List RunJobRow) (workspaceId : Nat) :
    ((activeCounts now jobType rows).lookup workspaceId).getD 0 = activeCount now jobType workspaceId rows := by
  have counted : (rows.filter fun job => job.jobType == jobType && leaseActive now job).countP
      (fun job => job.workspaceId == workspaceId) = activeCount now jobType workspaceId rows := by
    rw [countP_filter,activeCount]
    apply countP_congr
    intro job _
    simp only [activeIn,Bool.and_eq_true]
    tauto
  unfold activeCounts
  rw [lookup_counts]
  split
  · exact counted
  · rename_i absent
    rw [← counted]
    symm
    apply countP_eq_zero.mpr
    intro job active same
    apply absent
    rw [mem_dedup,← beq_iff_eq.mp same]
    exact mem_map_of_mem active

theorem queuedInMemory_eq (job : RunJobRow) : queuedInMemory now jobType job = claimable now jobType job := by
  unfold queuedInMemory claimable leaseExpired
  rw [Bool.eq_iff_iff]
  simp only [Bool.and_eq_true,Bool.or_eq_true]
  tauto
/-- The workspace of the job has a free slot. -/
def free (now : Nat) (jobType : JobType) (rows : List RunJobRow) (job : RunJobRow) : Bool :=
  decide ((activeCount now jobType job.workspaceId rows : Int) < backtestActiveLimitFromPayload job.workspaceActiveLimit)
def selected (now : Nat) (jobType : JobType) (jobs : RunJobs) : Option RunJobRow :=
  (claimOrder (jobs.rows.filter (claimable now jobType))).find? (free now jobType jobs.rows)
/-- The table after a claim of the selected job, and the job as it was claimed. -/
def claim (settings : Settings) (now workerId : Nat) (jobs : RunJobs) : Option RunJobRow → Option RunJobRow × RunJobs
  | none => (none,jobs)
  | some job =>
    (some (claimed settings now workerId job),jobs.write job.id (claimed settings now workerId) fun _ => rfl)
theorem candidate_iff : job ∈ claimOrder (jobs.rows.filter (claimable now jobType)) ↔
    job ∈ jobs.rows ∧ claimable now jobType job := by
  rw [claimOrder,(perm_insertionSort _ _).mem_iff,mem_filter]
theorem claimable_jobType (ready : claimable now jobType job) : job.jobType = jobType := by
  simp only [claimable,Bool.and_eq_true,beq_iff_eq] at ready
  exact ready.1.1.1

theorem claimInMemory_eq :
    claimInMemory settings now workerId jobType jobs = claim settings now workerId jobs (selected now jobType jobs) := by
  have candidates : jobs.rows.filter (queuedInMemory now jobType) = jobs.rows.filter (claimable now jobType) :=
    filter_congr fun job _ => queuedInMemory_eq job
  unfold claimInMemory selected
  simp only [candidates]
  split
  · rename_i nothing
    rw [isEmpty_iff.mp nothing]
    rfl
  · have same : (claimOrder (jobs.rows.filter (claimable now jobType))).find? (fun candidate =>
        decide ((activeCount now candidate.jobType candidate.workspaceId jobs.rows : Int) <
          backtestActiveLimitFromPayload candidate.workspaceActiveLimit)) =
        (claimOrder (jobs.rows.filter (claimable now jobType))).find? (free now jobType jobs.rows) := by
      apply find?_congr
      intro candidate listed
      rw [claimable_jobType (candidate_iff.mp listed).2,free]
    rw [same]
    cases (claimOrder (jobs.rows.filter (claimable now jobType))).find? (free now jobType jobs.rows) <;> rfl

theorem reselected (listed : job ∈ jobs.rows) (ready : claimable now jobType job) :
    (find jobs.rows job.id).filter (claimable now jobType) = some job := by
  rw [← key_job,find_of_mem jobs.distinct listed]
  simp [ready]

theorem findSome_picks {pick : RunJobRow → Option RunJobRow} {p : RunJobRow → Bool} {rows : List RunJobRow}
    (picks : ∀ row ∈ rows, pick row = if p row then some row else none) : rows.findSome? pick = rows.find? p := by
  induction rows with
  | nil => rfl
  | cons row rest ih =>
    obtain ⟨here,later⟩ := forall_mem_cons.mp picks
    rw [findSome?_cons,find?_cons,here,ih later]
    cases p row <;> rfl

theorem claimedRunJob_same (job : RunJobRow) :
    claimedRunJob settings.leaseSeconds now workerId job job = claimed settings now workerId job := by
  unfold claimedRunJob claimed
  congr 1
  · split
    · assumption
    · rfl
  · split
    · assumption
    · rfl
  · split
    · assumption
    · rfl

theorem write_sql (listed : job ∈ jobs.rows) :
    jobs.write job.id (claimedRunJob settings.leaseSeconds now workerId job) (fun _ => rfl) =
      jobs.write job.id (claimed settings now workerId) fun _ => rfl := by
  unfold RunJobs.write
  congr 1
  apply map_congr_left
  intro row present
  by_cases same : Keyed.key row = job.id
  · have own : row = job := Option.some.inj
      ((find_of_mem jobs.distinct present).symm.trans (same ▸ find_of_mem jobs.distinct listed))
    rw [if_pos same,if_pos same,own,claimedRunJob_same]
  · rw [if_neg same,if_neg same]

theorem selected_candidate (found : selected now jobType jobs = some job) : job ∈ jobs.rows :=
  (candidate_iff.mp (mem_of_find?_eq_some found)).1

theorem pages_select : (claimOrder (jobs.rows.filter (claimable now jobType))).findSome? (fun candidate =>
    if backtestActiveLimitFromPayload candidate.workspaceActiveLimit ≤
      (activeCount now jobType candidate.workspaceId jobs.rows : Int) then none
    else (find jobs.rows candidate.id).filter (claimable now jobType)) = selected now jobType jobs := by
  apply findSome_picks
  intro candidate listed
  obtain ⟨present,ready⟩ := candidate_iff.mp listed
  rw [reselected present ready]
  by_cases full : backtestActiveLimitFromPayload candidate.workspaceActiveLimit ≤
      (activeCount now jobType candidate.workspaceId jobs.rows : Int)
  · rw [if_pos full,if_neg (by rw [free,decide_eq_true_eq]; omega)]
  · rw [if_neg full,if_pos (by rw [free,decide_eq_true_eq]; omega)]

theorem claimInSql_eq :
    claimInSql settings now workerId jobType jobs = claim settings now workerId jobs (selected now jobType jobs) := by
  unfold claimInSql
  simp only [pagedFind_eq,drop_zero,activeCounts_lookup,pages_select]
  cases found : selected now jobType jobs with
  | none => rfl
  | some job =>
    apply Prod.ext
    · exact congrArg some (claimedRunJob_same job)
    · exact write_sql (selected_candidate found)

theorem eligible_iff : Eligible now jobType jobs job ↔
    job ∈ claimOrder (jobs.rows.filter (claimable now jobType)) ∧ free now jobType jobs.rows job = true := by
  rw [candidate_iff,free,decide_eq_true_eq,Eligible,and_assoc]
theorem selected_none : selected now jobType jobs = none ↔ ∀ job, ¬ Eligible now jobType jobs job := by
  rw [selected,find?_eq_none]
  simp only [eligible_iff,not_and]
theorem claimOrder_ordered (rows : List RunJobRow) : (claimOrder rows).Pairwise fun a b =>
    a.createdAt < b.createdAt ∨ (a.createdAt = b.createdAt ∧ a.id ≤ b.id) := by
  have total : Std.Total fun a b : RunJobRow =>
      a.createdAt < b.createdAt ∨ (a.createdAt = b.createdAt ∧ a.id ≤ b.id) := ⟨by intro a b; omega⟩
  have transitive : IsTrans RunJobRow fun a b =>
      a.createdAt < b.createdAt ∨ (a.createdAt = b.createdAt ∧ a.id ≤ b.id) := ⟨by intro a b c; omega⟩
  exact pairwise_insertionSort _ rows

theorem selected_oldest (found : selected now jobType jobs = some job) : Oldest now jobType jobs job := by
  obtain ⟨open_,before,after,split,passed⟩ := find?_eq_some_iff_append.mp found
  refine ⟨eligible_iff.mpr ⟨by rw [split]; simp,open_⟩,?_⟩
  intro other eligible
  obtain ⟨listed,otherFree⟩ := eligible_iff.mp eligible
  have ordered := claimOrder_ordered (jobs.rows.filter (claimable now jobType))
  rw [split] at ordered listed
  rcases mem_append.mp listed with earlier | later
  · have busy := passed other earlier
    rw [otherFree] at busy
    cases busy
  · rcases mem_cons.mp later with rfl | behind
    · exact .inr ⟨rfl,Nat.le_refl _⟩
    · exact rel_of_pairwise_cons (pairwise_append.mp ordered).2.1 behind

/-- The two repositories claim the same job and leave the same table: nothing if no job is eligible, and otherwise the
    oldest eligible job. -/
theorem selection_agrees (settings : Settings) (now workerId : Nat) (jobType : JobType) (jobs : RunJobs) :
    claimInSql settings now workerId jobType jobs = claimInMemory settings now workerId jobType jobs ∧
      ((claimInSql settings now workerId jobType jobs).1 = none ↔ ∀ job, ¬ Eligible now jobType jobs job) ∧
      ∀ job, (claimInSql settings now workerId jobType jobs).1 = some job →
        ∃ oldest, Oldest now jobType jobs oldest ∧ job = claimed settings now workerId oldest := by
  rw [claimInSql_eq,claimInMemory_eq,← selected_none]
  refine ⟨rfl,?_,?_⟩
  · cases selected now jobType jobs with
    | none => simp [claim]
    | some job => simp [claim]
  · intro job taken
    cases found : selected now jobType jobs with
    | none =>
      rw [found] at taken
      cases taken
    | some oldest =>
      rw [found] at taken
      exact ⟨oldest,selected_oldest found,(Option.some.inj taken).symm⟩

end Codebot.JobSelection
