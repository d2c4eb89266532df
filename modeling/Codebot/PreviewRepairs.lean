import Codebot.ChatDesk
import Mathlib.Data.Fintype.EquivFin

/-!
Repairs of previews that failed. A backtest worker that has failed a job for good inserts a repair job for it, unless
there is one; a chat worker has the script repaired and creates a run and a job for it. Nothing in the handler asks
whether that was done before (`one_rerun_iff`).
-/
namespace Codebot.PreviewRepairs
open Runs Tables JobTable BacktestWorker ChatWorker ChatDesk List Function

/-- What the payload of a job has of a repair: the failed job, and the attempts of its
    `compatibility_repair`, which a first backtest does not have. -/
structure Payload where
  pineCode : Bool
  failedJobId : Option Nat
  attempt : Option Nat
  maxAttempts : Option Nat
deriving DecidableEq

/-- `PREVIEW_COMPATIBILITY_REPAIR_MAX_ATTEMPTS`, of either program. -/
def maxRepairAttempts : Nat := 2
def backtestJobMaxAttempts : Nat := 3
def compatibilityRepairAttempts (payload : Payload) : Nat := payload.attempt.getD 0
/-- `_positive_int(value) or fallback`. -/
def positiveOr (value : Option Nat) (fallback : Nat) : Nat := (value.filter (0 < ·)).getD fallback
def repairAttempt (payload : Payload) : Nat := positiveOr payload.attempt 1
def repairMaxAttempts (payload : Payload) : Nat := min (positiveOr payload.maxAttempts maxRepairAttempts) maxRepairAttempts
/-- A failed backtest job and a repair attempt. -/
structure Pair where
  failedJobId : Option Nat
  attempt : Nat
deriving DecidableEq
def pairOf (payload : Payload) : Pair := ⟨payload.failedJobId,repairAttempt payload⟩
/-- A run or a job that a repair has created for its pair. -/
structure Rerun where
  id : Nat
  pair : Pair
deriving DecidableEq
/-- Where a backtest worker is in `enqueuePreviewCompatibilityRepairJob`: before the statement
    takes its snapshot, or before it inserts the row. -/
inductive Enqueue
  | idle
  | looking (job : RunJobRow)
  | inserting (job : RunJobRow)
deriving DecidableEq

/-- The next statement of `process_preview_compatibility_repair_job`. -/
inductive Stage
  | beginning (job : RunJobRow)
  | repairing (job : RunJobRow)
  | creating (job : RunJobRow)
  | specifying (job : RunJobRow) (runId : Nat)
  | queueing (job : RunJobRow) (runId : Nat)
  | announcing
  | returning
deriving DecidableEq

def handler : Handler Stage where
  jobType := .previewCompatibilityRepair
  start := .beginning
  returns stage := stage == .returning

/-- What a statement that creates nothing does. The model may give no valid script. -/
def handle (payload : Nat → Payload) (repaired : Bool) : Stage → Option Stage
  | .beginning job =>
    if repairMaxAttempts (payload job.id) < repairAttempt (payload job.id) then some .returning else some (.repairing job)
  | .repairing job => if repaired then some (.creating job) else some .returning
  | .creating _ => none
  | .specifying job runId => some (.queueing job runId)
  | .queueing _ _ => none
  | .announcing => some .returning
  | .returning => none

def repairPayload (payload : Nat → Payload) (job : RunJobRow) : Payload :=
  ⟨true,some job.id,some (compatibilityRepairAttempts (payload job.id) + 1),some maxRepairAttempts⟩
def rerunPayload (repair : Payload) : Payload :=
  ⟨true,repair.failedJobId,some (repairAttempt repair),some (repairMaxAttempts repair)⟩
structure State (workers requests chats : Nat) where
  desk : Desk Stage workers requests chats
  enqueue : Fin workers → Enqueue
  runs : List Rerun
  jobs : List Rerun

inductive Label (workers requests chats : Nat)
  | fleet (label : FleetLabel workers requests chats)
  | look (w : Fin workers)
  | insert (w : Fin workers) (id : Nat)
  | abandon (w : Fin workers)
  | handle (c : Fin chats) (repaired : Bool)
  | create (c : Fin chats) (id : Nat)
  | queue (c : Fin chats) (id : Nat) (limit : LimitValue)
deriving DecidableEq

variable {workers requests chats : Nat}
def State.move (s : State workers requests chats) (c : Fin chats) (stage : Stage) : State workers requests chats :=
  { s with desk := s.desk.enter s.desk.fleet c (some stage) }
def enqueues (payload : Payload) (error : ErrorCode) : Bool :=
  error == .previewCompatibilityLimit && compatibilityRepairAttempts payload < maxRepairAttempts && payload.pineCode
/-- The rows that the statement looks for. -/
def repairExists (payload : Nat → Payload) (jobs : List RunJobRow) (job : RunJobRow) : Bool :=
  jobs.any fun row => row.jobType == .previewCompatibilityRepair && (payload row.id).failedJobId == some job.id &&
    (payload row.id).attempt == some (compatibilityRepairAttempts (payload job.id) + 1) &&
    (row.status == .queued || row.status == .running || row.status == .completed)
/-- Requests create no repair jobs and no reruns; a worker enqueues before it claims again. -/
def allowed (payload : Nat → Payload) (s : State workers requests chats) : FleetLabel workers requests chats → Bool
  | .backtest (.createRunJob input) => input.jobType != .previewCompatibilityRepair &&
      (payload input.id).failedJobId == none && (payload input.id).attempt == none
  | .backtest (.claim w) => s.enqueue w == .idle
  | _ => true
/-- `markJobFailed` ends with `enqueuePreviewCompatibilityRepairJob`. -/
def enqueueAfter (payload : Nat → Payload) (s : State workers requests chats) : FleetLabel workers requests chats → Fin workers → Enqueue
  | .backtest (.work w .ok) =>
    match s.desk.fleet.world.worker w with
    | .failed job error => if enqueues (payload job.id) error then Function.update s.enqueue w (.looking job) else s.enqueue
    | _ => s.enqueue
  | _ => s.enqueue

def step (settings : Settings) (payload : Nat → Payload) (s : State workers requests chats) :
    Label workers requests chats → Option (State workers requests chats)
  | .fleet label =>
    if allowed payload s label then
      (deskStep settings handler s.desk label).map fun desk => { s with desk, enqueue := enqueueAfter payload s label }
    else none
  | .look w =>
    match s.enqueue w with
    | .looking job =>
      let next := if repairExists payload s.desk.fleet.db.jobs job then .idle else .inserting job
      some { s with enqueue := Function.update s.enqueue w next }
    | _ => none
  | .insert w id =>
    match s.enqueue w with
    | .inserting job =>
      if payload id = repairPayload payload job then
        (deskStep settings handler s.desk (.backtest (.createRunJob ⟨id,job.runId,job.workspaceId,.previewCompatibilityRepair,
          job.workspaceActiveLimit,job.rangeSeconds,2⟩))).map fun desk =>
            { s with desk, enqueue := Function.update s.enqueue w .idle }
      else none
    | _ => none
  | .abandon w => some { s with enqueue := Function.update s.enqueue w .idle }
  | .handle c repaired => (s.desk.stage c).bind fun stage => (handle payload repaired stage).map (s.move c)
  | .create c id =>
    match s.desk.stage c with
    | some (.creating job) =>
      (deskStep settings handler s.desk (.backtest (.createRun id))).map fun desk =>
        { ({ s with desk } : State workers requests chats).move c (.specifying job id) with
          runs := s.runs ++ [⟨id,pairOf (payload job.id)⟩] }
    | _ => none
  | .queue c id limit =>
    match s.desk.stage c with
    | some (.queueing job runId) =>
      if payload id = rerunPayload (payload job.id) then
        (deskStep settings handler s.desk (.backtest (.createRunJob ⟨id,runId,job.workspaceId,.backtestPreview,limit,
          job.rangeSeconds,backtestJobMaxAttempts⟩))).map fun desk =>
            { ({ s with desk } : State workers requests chats).move c .announcing with
              jobs := s.jobs ++ [⟨id,pairOf (payload job.id)⟩] }
      else none
    | _ => none

def initial (workers requests chats : Nat) : State workers requests chats :=
  ⟨initialDesk workers requests chats,fun _ => .idle,[],[]⟩
def State.runPairs (s : State workers requests chats) : List Pair := s.runs.map (·.pair)
def State.jobPairs (s : State workers requests chats) : List Pair := s.jobs.map (·.pair)
def OnePerPair (s : State workers requests chats) : Prop := s.runPairs.Nodup ∧ s.jobPairs.Nodup
def Repairs (payload : Nat → Payload) (s : State workers requests chats) (failed id : Nat) : Prop :=
  (∃ row ∈ s.desk.fleet.db.jobs, row.id = id) ∧ (payload id).failedJobId = some failed
def ShortChains (payload : Nat → Payload) (s : State workers requests chats) : Prop :=
  ∀ chain : List Nat, chain.IsChain (Repairs payload s) → chain.length ≤ 3
def Stage.preparing : Stage → Option RunJobRow
  | .beginning job => some job
  | .repairing job => some job
  | .creating job => some job
  | _ => none
def Stage.queuing : Stage → Option RunJobRow
  | .specifying job _ => some job
  | .queueing job _ => some job
  | _ => none
/-- The worker is at the pair, at one of these stages. -/
def At (payload : Nat → Payload) (stages : Stage → Option RunJobRow) (s : State workers requests chats) (c : Fin chats)
    (pair : Pair) : Prop :=
  ∃ stage job, s.desk.stage c = some stage ∧ stages stage = some job ∧ pairOf (payload job.id) = pair
/-- A claim that takes a repair job finds its pair without a rerun, and nobody else before one. -/
def ClaimsFresh (settings : Settings) (payload : Nat → Payload) (s : State workers requests chats) :
    Label workers requests chats → Prop
  | .fleet (.take c locked) => ∀ row, taken settings s.desk.fleet c locked = some row → row.jobType = .previewCompatibilityRepair →
      pairOf (payload row.id) ∉ s.runPairs ∧
        ∀ other, other ≠ c → ¬ At payload Stage.preparing s other (pairOf (payload row.id))
  | _ => True
/-- The payload is of a repair of a job that may have one. -/
def Linked (payload : Nat → Payload) (repair : Payload) : Prop :=
  ∃ failed, repair.failedJobId = some failed ∧ compatibilityRepairAttempts (payload failed) < maxRepairAttempts ∧
    repair.attempt = some (compatibilityRepairAttempts (payload failed) + 1) ∧ repair.maxAttempts = some maxRepairAttempts

/-- Each pair has a rerun, or a worker before one, at most once, and payloads are linked. -/
structure Sound (payload : Nat → Payload) (s : State workers requests chats) : Prop where
  once : OnePerPair s
  unmade : ∀ c pair, At payload Stage.preparing s c pair → pair ∉ s.runPairs
  alone : ∀ c other pair, At payload Stage.preparing s c pair → At payload Stage.preparing s other pair → c = other
  made : ∀ c pair, At payload Stage.queuing s c pair → pair ∈ s.runPairs ∧ pair ∉ s.jobPairs
  owner : ∀ c other pair, At payload Stage.queuing s c pair → At payload Stage.queuing s other pair → c = other
  jobsOfRuns : ∀ pair ∈ s.jobPairs, pair ∈ s.runPairs
  rows : ∀ row ∈ s.desk.fleet.db.jobs,
    row.jobType = .previewCompatibilityRepair ∨ (payload row.id).failedJobId ≠ none → Linked payload (payload row.id)
  stages : ∀ c stage job, s.desk.stage c = some stage → stage.preparing = some job ∨ stage.queuing = some job →
    Linked payload (payload job.id)
  enqueued : ∀ w job, s.enqueue w = .looking job ∨ s.enqueue w = .inserting job →
    compatibilityRepairAttempts (payload job.id) < maxRepairAttempts

variable {settings : Settings} {payload : Nat → Payload} {s t : State workers requests chats}

theorem short_chains (sound : Sound payload s) : ShortChains payload s := by
  have linked : ∀ {failed id}, Repairs payload s failed id →
      compatibilityRepairAttempts (payload failed) < maxRepairAttempts ∧
        compatibilityRepairAttempts (payload id) = compatibilityRepairAttempts (payload failed) + 1 := by
    rintro failed id ⟨⟨row,member,rfl⟩,isFailed⟩
    obtain ⟨other,isOther,few,attempt,_⟩ := sound.rows row member (.inr (by rw [isFailed]; exact Option.some_ne_none _))
    rw [isFailed] at isOther
    cases isOther
    exact ⟨few,by rw [compatibilityRepairAttempts,attempt]; rfl⟩
  intro chain isChain
  match chain,isChain with
  | [],_ => exact Nat.zero_le _
  | [_],_ => exact Nat.le_of_ble_eq_true rfl
  | [_,_],_ => exact Nat.le_of_ble_eq_true rfl
  | [_,_,_],_ => exact Nat.le_of_ble_eq_true rfl
  | a :: b :: c :: d :: rest,isChain =>
    obtain ⟨first,later⟩ := isChain_cons_cons.mp isChain
    obtain ⟨second,last⟩ := isChain_cons_cons.mp later
    have third := (isChain_cons_cons.mp last).1
    have one := (linked first).2
    have two := (linked second).2
    have three := (linked third).1
    unfold maxRepairAttempts at three
    omega

variable {c other : Fin chats} {stage : Stage}

theorem move_at {stages : Stage → Option RunJobRow} {pair : Pair}
    (isAt : At payload stages (s.move c stage) other pair) :
    (other = c ∧ ∃ job, stages stage = some job ∧ pairOf (payload job.id) = pair) ∨ (other ≠ c ∧ At payload stages s other pair) := by
  obtain ⟨at_,job,reached,ofStage,isPair⟩ := isAt
  rcases enter_stage reached with ⟨same,isStage⟩ | ⟨differs,before⟩
  · cases isStage
    exact .inl ⟨same,job,ofStage,isPair⟩
  · exact .inr ⟨differs,at_,job,before,ofStage,isPair⟩

theorem sound_fewer (sound : Sound payload s) (runs : t.runs = s.runs) (jobs : t.jobs = s.jobs)
    (preparing : ∀ c pair, At payload Stage.preparing t c pair → At payload Stage.preparing s c pair)
    (queuing : ∀ c pair, At payload Stage.queuing t c pair → At payload Stage.queuing s c pair)
    (rows : ∀ row ∈ t.desk.fleet.db.jobs,
      row.jobType = .previewCompatibilityRepair ∨ (payload row.id).failedJobId ≠ none → Linked payload (payload row.id))
    (stages : ∀ c stage job, t.desk.stage c = some stage → stage.preparing = some job ∨ stage.queuing = some job →
      Linked payload (payload job.id))
    (enqueued : ∀ w job, t.enqueue w = .looking job ∨ t.enqueue w = .inserting job →
      compatibilityRepairAttempts (payload job.id) < maxRepairAttempts) : Sound payload t := by
  have sameRuns : t.runPairs = s.runPairs := by rw [State.runPairs,runs,State.runPairs]
  have sameJobs : t.jobPairs = s.jobPairs := by rw [State.jobPairs,jobs,State.jobPairs]
  refine ⟨?_,?_,?_,?_,?_,?_,rows,stages,enqueued⟩
  · rw [OnePerPair,sameRuns,sameJobs]
    exact sound.once
  · intro c pair isAt
    rw [sameRuns]
    exact sound.unmade c pair (preparing c pair isAt)
  · exact fun c other pair isAt also => sound.alone c other pair (preparing c pair isAt) (preparing other pair also)
  · intro c pair isAt
    rw [sameRuns,sameJobs]
    exact sound.made c pair (queuing c pair isAt)
  · exact fun c other pair isAt also => sound.owner c other pair (queuing c pair isAt) (queuing other pair also)
  · rw [sameRuns,sameJobs]
    exact sound.jobsOfRuns

variable {desk : Desk Stage workers requests chats} {label : FleetLabel workers requests chats}

theorem rows_step (sound : Sound payload s) (stepped : deskStep settings handler s.desk label = some desk)
    (created : ∀ input, label = .backtest (.createRunJob input) →
      input.jobType = .previewCompatibilityRepair ∨ (payload input.id).failedJobId ≠ none → Linked payload (payload input.id)) :
    ∀ row ∈ desk.fleet.db.jobs,
      row.jobType = .previewCompatibilityRepair ∨ (payload row.id).failedJobId ≠ none → Linked payload (payload row.id) := by
  obtain ⟨fleet,moved,entered⟩ := Option.bind_eq_some_iff.mp stepped
  have sameFleet : desk.fleet = fleet := by
    split at entered
    · cases entered
      rfl
    · split at entered
      · split at entered
        · cases entered
          rfl
        · cases entered
      · cases entered
        rfl
    · cases entered
      rfl
  rw [sameFleet]
  intro row member isRepair
  rcases step_rows moved member with ⟨old,isOld,sameId,sameType⟩ | ⟨input,isInput,sameId,sameType⟩
  · rw [← sameType,← sameId] at isRepair
    exact sameId ▸ sound.rows old isOld isRepair
  · rw [← sameType,← sameId] at isRepair
    exact sameId ▸ created input isInput isRepair

theorem backtest_stage {label : BacktestWorker.Label workers requests}
    (stepped : deskStep settings handler s.desk (.backtest label) = some desk) : desk.stage = s.desk.stage := by
  obtain ⟨fleet,moved,entered⟩ := Option.bind_eq_some_iff.mp stepped
  cases entered
  rfl

variable {repaired : Bool}

theorem handle_stage {next : Stage} (handled : handle payload repaired stage = some next) :
    (∀ job, next.preparing = some job → stage.preparing = some job) ∧
      ∀ job, next.queuing = some job → stage.queuing = some job := by
  unfold handle at handled
  split at handled
  · split at handled
    · cases handled
      exact ⟨fun _ none => (nomatch none),fun _ none => (nomatch none)⟩
    · cases handled
      exact ⟨fun _ same => same,fun _ none => (nomatch none)⟩
  · split at handled
    · cases handled
      exact ⟨fun _ same => same,fun _ none => (nomatch none)⟩
    · cases handled
      exact ⟨fun _ none => (nomatch none),fun _ none => (nomatch none)⟩
  · cases handled
  · cases handled
    exact ⟨fun _ none => (nomatch none),fun _ same => same⟩
  · cases handled
  · cases handled
    exact ⟨fun _ none => (nomatch none),fun _ none => (nomatch none)⟩
  · cases handled

variable {repair : Payload}

theorem linked_attempt (linked : Linked payload repair) :
    repairMaxAttempts repair = maxRepairAttempts ∧ repair.attempt = some (repairAttempt repair) ∧
      repairAttempt repair ≤ maxRepairAttempts := by
  obtain ⟨failed,_,few,attempt,max⟩ := linked
  have isAttempt : repairAttempt repair = compatibilityRepairAttempts (payload failed) + 1 := by
    rw [repairAttempt,attempt]
    rfl
  refine ⟨?_,by rw [isAttempt,attempt],by omega⟩
  rw [repairMaxAttempts,max]
  rfl

theorem linked_rerun (linked : Linked payload repair) : Linked payload (rerunPayload repair) := by
  obtain ⟨isMax,isAttempt,_⟩ := linked_attempt linked
  obtain ⟨failed,isFailed,few,attempt,_⟩ := linked
  refine ⟨failed,isFailed,few,?_,congrArg some isMax⟩
  change some (repairAttempt repair) = _
  rw [← isAttempt,attempt]
theorem linked_repair {job : RunJobRow} (few : compatibilityRepairAttempts (payload job.id) < maxRepairAttempts) :
    Linked payload (repairPayload payload job) := ⟨job.id,rfl,few,rfl,rfl⟩

theorem enqueueAfter_cases (label : FleetLabel workers requests chats) : enqueueAfter payload s label = s.enqueue ∨
    ∃ w job error, enqueueAfter payload s label = Function.update s.enqueue w (.looking job) ∧
      enqueues (payload job.id) error = true := by
  unfold enqueueAfter
  split
  · split
    · split
      · rename_i worker _ job error _ candidate
        exact .inr ⟨worker,job,error,rfl,candidate⟩
      · exact .inl rfl
    · exact .inl rfl
  · exact .inl rfl

theorem update_few {w : Fin workers} {next : Enqueue} (sound : Sound payload s)
    (few : ∀ job, next = .looking job ∨ next = .inserting job → compatibilityRepairAttempts (payload job.id) < maxRepairAttempts)
    (other : Fin workers) (job : RunJobRow)
    (enqueues_ : Function.update s.enqueue w next other = .looking job ∨ Function.update s.enqueue w next other = .inserting job) :
    compatibilityRepairAttempts (payload job.id) < maxRepairAttempts := by
  by_cases same : other = w
  · rw [same,update_self] at enqueues_
    exact few job enqueues_
  · rw [update_of_ne same] at enqueues_
    exact sound.enqueued other job enqueues_

theorem enqueueAfter_few (label : FleetLabel workers requests chats) (sound : Sound payload s) (w : Fin workers) (job : RunJobRow)
    (enqueues_ : enqueueAfter payload s label w = .looking job ∨ enqueueAfter payload s label w = .inserting job) :
    compatibilityRepairAttempts (payload job.id) < maxRepairAttempts := by
  rcases @enqueueAfter_cases _ _ _ payload s label with same | ⟨worker,failed,error,same,candidate⟩
  · rw [same] at enqueues_
    exact sound.enqueued w job enqueues_
  · rw [same] at enqueues_
    refine update_few sound ?_ w job enqueues_
    rintro other (isLooking | isInserting)
    · cases isLooking
      simp only [enqueues,Bool.and_eq_true,decide_eq_true_eq] at candidate
      exact candidate.1.2
    · cases isInserting

theorem sound_fleet (sound : Sound payload s) (fresh : ClaimsFresh settings payload s (.fleet label))
    (stepped : step settings payload s (.fleet label) = some t) : Sound payload t := by
  simp only [step] at stepped
  split at stepped
  · rename_i isAllowed
    obtain ⟨desk,moved,rfl⟩ := Option.map_eq_some_iff.mp stepped
    have rows := rows_step sound moved (by
      rintro input rfl isRepair
      simp only [allowed,Bool.and_eq_true,bne_iff_ne,beq_iff_eq] at isAllowed
      rcases isRepair with ofType | failed
      · exact absurd ofType isAllowed.1.1
      · exact absurd isAllowed.1.2 failed)
    -- a worker at a pair was there before, or it has just claimed a job of the pair
    have begins : ∀ {c stage}, desk.stage c = some stage → s.desk.stage c = some stage ∨
        ∃ locked row job, label = .take c locked ∧ taken settings s.desk.fleet c locked = some row ∧ stage = .beginning job ∧
          row ∈ s.desk.fleet.db.jobs ∧ row.id = job.id ∧ row.jobType = .previewCompatibilityRepair := by
      intro c stage reached
      rcases deskStep_stage moved reached with before | ⟨locked,job,rfl,processing,ofType,isStart⟩
      · exact .inl before
      · obtain ⟨fleet,went,entered⟩ := Option.bind_eq_some_iff.mp moved
        cases entered
        obtain ⟨row,takes,member,sameId,sameType⟩ := taken_of_processing went processing
        exact .inr ⟨locked,row,job,rfl,takes,isStart,member,sameId,sameType.trans ofType⟩
    by_cases claims : ∃ c locked row, label = .take c locked ∧ taken settings s.desk.fleet c locked = some row ∧
        row.jobType = .previewCompatibilityRepair
    · obtain ⟨c,locked,row,rfl,takes,ofType⟩ := claims
      obtain ⟨unmade,nobody⟩ := fresh row takes ofType
      have preparing : ∀ {other pair}, At payload Stage.preparing { s with desk } other pair →
          At payload Stage.preparing s other pair ∨ other = c ∧ pair = pairOf (payload row.id) := by
        rintro other pair ⟨stage,job,reached,ofStage,isPair⟩
        rcases begins reached with before | ⟨_,found,begun,isLabel,takesIt,rfl,_,sameId,_⟩
        · exact .inl ⟨stage,job,before,ofStage,isPair⟩
        · cases isLabel
          rw [takes] at takesIt
          cases takesIt
          cases ofStage
          exact .inr ⟨rfl,by rw [sameId,isPair]⟩
      have queuing : ∀ {other pair}, At payload Stage.queuing { s with desk } other pair → At payload Stage.queuing s other pair := by
        rintro other pair ⟨stage,job,reached,ofStage,isPair⟩
        rcases begins reached with before | ⟨_,_,_,_,_,rfl,_⟩
        · exact ⟨stage,job,before,ofStage,isPair⟩
        · cases ofStage
      have few := @enqueueAfter_few _ _ _ payload s (.take c locked) sound
      refine ⟨sound.once,?_,?_,?_,?_,sound.jobsOfRuns,rows,?_,few⟩
      · intro other pair isAt
        rcases preparing isAt with before | ⟨_,rfl⟩
        · exact sound.unmade other pair before
        · exact unmade
      · intro one other pair first second
        rcases preparing first with before | ⟨rfl,rfl⟩
        · rcases preparing second with also | ⟨rfl,rfl⟩
          · exact sound.alone one other pair before also
          · by_contra differs
            exact nobody one differs before
        · rcases preparing second with also | ⟨rfl,_⟩
          · by_contra differs
            exact nobody other (fun same => differs same.symm) also
          · rfl
      · exact fun other pair isAt => sound.made other pair (queuing isAt)
      · exact fun one other pair first second => sound.owner one other pair (queuing first) (queuing second)
      · intro other stage job reached ofStage
        rcases begins reached with before | ⟨_,found,begun,_,_,rfl,member,sameId,isType⟩
        · exact sound.stages other stage job before ofStage
        · rcases ofStage with isJob | isJob
          · cases isJob
            exact sameId ▸ sound.rows found member (.inl isType)
          · cases isJob
    · have before : ∀ {c stage}, desk.stage c = some stage → s.desk.stage c = some stage := by
        intro c stage reached
        rcases begins reached with before | ⟨locked,row,_,isLabel,takes,_,_,_,ofType⟩
        · exact before
        · exact absurd ⟨c,locked,row,isLabel,takes,ofType⟩ claims
      exact sound_fewer (t := { s with desk, enqueue := enqueueAfter payload s label }) sound rfl rfl
        (fun c pair ⟨stage,job,reached,rest⟩ => ⟨stage,job,before reached,rest⟩)
        (fun c pair ⟨stage,job,reached,rest⟩ => ⟨stage,job,before reached,rest⟩) rows
        (fun c stage job reached => sound.stages c stage job (before reached)) (enqueueAfter_few label sound)
  · cases stepped

theorem sound_handle (sound : Sound payload s)
    (stepped : step settings payload s (.handle c repaired) = some t) : Sound payload t := by
  obtain ⟨stage,here,handled⟩ := Option.bind_eq_some_iff.mp stepped
  obtain ⟨next,went,rfl⟩ := Option.map_eq_some_iff.mp handled
  obtain ⟨preparing,queuing⟩ := handle_stage went
  refine sound_fewer sound rfl rfl ?_ ?_ sound.rows ?_ sound.enqueued
  · intro other pair isAt
    rcases move_at isAt with ⟨rfl,job,ofStage,isPair⟩ | ⟨_,before⟩
    · exact ⟨stage,job,here,preparing job ofStage,isPair⟩
    · exact before
  · intro other pair isAt
    rcases move_at isAt with ⟨rfl,job,ofStage,isPair⟩ | ⟨_,before⟩
    · exact ⟨stage,job,here,queuing job ofStage,isPair⟩
    · exact before
  · intro other reached job isStage ofStage
    rcases enter_stage isStage with ⟨rfl,same⟩ | ⟨_,before⟩
    · cases same
      exact sound.stages other stage job here (ofStage.imp (preparing job) (queuing job))
    · exact sound.stages other reached job before ofStage

variable {id : Nat}

theorem sound_create (sound : Sound payload s)
    (stepped : step settings payload s (.create c id) = some t) : Sound payload t := by
  simp only [step] at stepped
  split at stepped
  · rename_i job here
    obtain ⟨desk,moved,rfl⟩ := Option.map_eq_some_iff.mp stepped
    have rows := rows_step sound moved (by rintro input isLabel; cases isLabel)
    have sameStage := backtest_stage moved
    have isAt : At payload Stage.preparing s c (pairOf (payload job.id)) := ⟨_,job,here,rfl,rfl⟩
    have unmade := sound.unmade c _ isAt
    have preparing : ∀ {other pair}, At payload Stage.preparing (({ s with desk } : State workers requests chats).move c
        (.specifying job id)) other pair → other ≠ c ∧ At payload Stage.preparing s other pair := by
      intro other pair prepares
      rcases move_at prepares with ⟨_,_,ended,_⟩ | ⟨differs,stage,job',reached,rest⟩
      · cases ended
      · exact ⟨differs,stage,job',sameStage ▸ reached,rest⟩
    have queuing : ∀ {other pair}, At payload Stage.queuing (({ s with desk } : State workers requests chats).move c
        (.specifying job id)) other pair → (other = c ∧ pair = pairOf (payload job.id)) ∨ At payload Stage.queuing s other pair := by
      intro other pair queues
      rcases move_at queues with ⟨same,job',isJob,isPair⟩ | ⟨_,stage,job',reached,rest⟩
      · cases isJob
        exact .inl ⟨same,isPair.symm⟩
      · exact .inr ⟨stage,job',sameStage ▸ reached,rest⟩
    have runPairs : ∀ {desk enqueue}, State.runPairs (⟨desk,enqueue,s.runs ++ [⟨id,pairOf (payload job.id)⟩],s.jobs⟩ :
        State workers requests chats) = s.runPairs ++ [pairOf (payload job.id)] := map_append
    refine ⟨⟨?_,sound.once.2⟩,?_,?_,?_,?_,?_,rows,?_,sound.enqueued⟩
    · refine (?_ : (List.map Rerun.pair (s.runs ++ [⟨id,pairOf (payload job.id)⟩])).Nodup)
      rw [map_append]
      exact List.Nodup.append sound.once.1 (nodup_singleton _) (disjoint_singleton.mpr unmade)
    · intro other pair prepares made
      obtain ⟨differs,before⟩ := preparing prepares
      rcases mem_append.mp (runPairs ▸ made) with old | new
      · exact sound.unmade other pair before old
      · exact differs (sound.alone other c pair before (mem_singleton.mp new ▸ isAt))
    · intro one other pair first second
      exact sound.alone one other pair (preparing first).2 (preparing second).2
    · intro other pair queues
      rcases queuing queues with ⟨_,rfl⟩ | before
      · refine ⟨runPairs ▸ mem_append_right _ (mem_singleton_self _),?_⟩
        exact fun hasJob => unmade (sound.jobsOfRuns _ hasJob)
      · obtain ⟨made,noJob⟩ := sound.made other pair before
        exact ⟨runPairs ▸ mem_append_left _ made,noJob⟩
    · intro one other pair first second
      rcases queuing first with ⟨rfl,rfl⟩ | before
      · rcases queuing second with ⟨rfl,_⟩ | also
        · rfl
        · exact absurd (sound.made other _ also).1 unmade
      · rcases queuing second with ⟨rfl,rfl⟩ | also
        · exact absurd (sound.made one _ before).1 unmade
        · exact sound.owner one other pair before also
    · exact fun pair hasJob => runPairs ▸ mem_append_left _ (sound.jobsOfRuns pair hasJob)
    · intro other stage job' reached ofStage
      rcases enter_stage reached with ⟨_,same⟩ | ⟨_,before⟩
      · cases same
        rcases ofStage with isJob | isJob
        · cases isJob
        · cases isJob
          exact sound.stages c _ job here (.inl rfl)
      · exact sound.stages other stage job' (sameStage ▸ before) ofStage
  · cases stepped

theorem sound_queue {limit : LimitValue} (sound : Sound payload s)
    (stepped : step settings payload s (.queue c id limit) = some t) : Sound payload t := by
  simp only [step] at stepped
  split at stepped
  · rename_i job runId here
    split at stepped
    · rename_i isPayload
      obtain ⟨desk,moved,rfl⟩ := Option.map_eq_some_iff.mp stepped
      have linked := sound.stages c _ job here (.inr rfl)
      have rows := rows_step sound moved (by
        rintro input isLabel _
        cases isLabel
        rw [isPayload]
        exact linked_rerun linked)
      have sameStage := backtest_stage moved
      have isAt : At payload Stage.queuing s c (pairOf (payload job.id)) := ⟨_,job,here,rfl,rfl⟩
      obtain ⟨made,fresh⟩ := sound.made c _ isAt
      have preparing : ∀ {other pair}, At payload Stage.preparing (({ s with desk } : State workers requests chats).move c
          .announcing) other pair → At payload Stage.preparing s other pair := by
        intro other pair prepares
        rcases move_at prepares with ⟨_,_,ended,_⟩ | ⟨_,stage,job',reached,rest⟩
        · cases ended
        · exact ⟨stage,job',sameStage ▸ reached,rest⟩
      have queuing : ∀ {other pair}, At payload Stage.queuing (({ s with desk } : State workers requests chats).move c
          .announcing) other pair → other ≠ c ∧ At payload Stage.queuing s other pair := by
        intro other pair queues
        rcases move_at queues with ⟨_,_,ended,_⟩ | ⟨differs,stage,job',reached,rest⟩
        · cases ended
        · exact ⟨differs,stage,job',sameStage ▸ reached,rest⟩
      have jobPairs : ∀ {desk enqueue}, State.jobPairs (⟨desk,enqueue,s.runs,s.jobs ++ [⟨id,pairOf (payload job.id)⟩]⟩ :
          State workers requests chats) = s.jobPairs ++ [pairOf (payload job.id)] := map_append
      refine ⟨⟨sound.once.1,?_⟩,?_,?_,?_,?_,?_,rows,?_,sound.enqueued⟩
      · refine (?_ : (List.map Rerun.pair (s.jobs ++ [⟨id,pairOf (payload job.id)⟩])).Nodup)
        rw [map_append]
        exact List.Nodup.append sound.once.2 (nodup_singleton _) (disjoint_singleton.mpr fresh)
      · exact fun other pair prepares => sound.unmade other pair (preparing prepares)
      · exact fun one other pair first second => sound.alone one other pair (preparing first) (preparing second)
      · intro other pair queues
        obtain ⟨differs,before⟩ := queuing queues
        obtain ⟨hasRun,noJob⟩ := sound.made other pair before
        refine ⟨hasRun,?_⟩
        intro hasJob
        rcases mem_append.mp (jobPairs ▸ hasJob) with old | new
        · exact noJob old
        · exact differs (sound.owner other c pair before (mem_singleton.mp new ▸ isAt))
      · intro one other pair first second
        exact sound.owner one other pair (queuing first).2 (queuing second).2
      · intro pair hasJob
        rcases mem_append.mp (jobPairs ▸ hasJob) with old | new
        · exact sound.jobsOfRuns pair old
        · exact mem_singleton.mp new ▸ made
      · intro other stage job' reached ofStage
        rcases enter_stage reached with ⟨_,same⟩ | ⟨_,before⟩
        · cases same
          rcases ofStage with isJob | isJob
          · cases isJob
          · cases isJob
        · exact sound.stages other stage job' (sameStage ▸ before) ofStage
    · cases stepped
  · cases stepped

theorem sound_step (s : State workers requests chats) (label : Label workers requests chats) (t : State workers requests chats)
    (sound : Sound payload s) (fresh : ClaimsFresh settings payload s label) (stepped : step settings payload s label = some t) :
    Sound payload t := by
  have unchanged : ∀ {enqueue : Fin workers → Enqueue}, (∀ w job, enqueue w = .looking job ∨ enqueue w = .inserting job →
      compatibilityRepairAttempts (payload job.id) < maxRepairAttempts) → Sound payload { s with enqueue } :=
    fun few => sound_fewer (t := { s with enqueue := _ }) sound rfl rfl (fun _ _ same => same) (fun _ _ same => same) sound.rows
      sound.stages few
  cases label with
  | fleet label => exact sound_fleet sound fresh stepped
  | look w =>
    simp only [step] at stepped
    split at stepped
    · rename_i job phase
      cases stepped
      refine unchanged (update_few sound ?_)
      intro other isNext
      split at isNext
      · rcases isNext with isLooking | isInserting
        · cases isLooking
        · cases isInserting
      · rcases isNext with isLooking | isInserting
        · cases isLooking
        · cases isInserting
          exact sound.enqueued w job (.inl phase)
    · cases stepped
  | insert w id =>
    simp only [step] at stepped
    split at stepped
    · rename_i job phase
      split at stepped
      · rename_i isPayload
        obtain ⟨desk,moved,rfl⟩ := Option.map_eq_some_iff.mp stepped
        have few := sound.enqueued w job (.inr phase)
        have rows := rows_step sound moved (by
          rintro input isLabel _
          cases isLabel
          rw [isPayload]
          exact linked_repair few)
        have sameStage := backtest_stage moved
        have idle := @update_few _ _ _ payload s w .idle sound (by
          rintro other (isLooking | isInserting)
          · cases isLooking
          · cases isInserting)
        exact sound_fewer (t := { s with desk, enqueue := _ }) sound rfl rfl
          (fun c pair ⟨stage,job,reached,rest⟩ => ⟨stage,job,sameStage ▸ reached,rest⟩)
          (fun c pair ⟨stage,job,reached,rest⟩ => ⟨stage,job,sameStage ▸ reached,rest⟩) rows
          (fun c stage job reached => sound.stages c stage job (sameStage ▸ reached)) idle
      · cases stepped
    · cases stepped
  | abandon w =>
    cases stepped
    refine unchanged (update_few sound ?_)
    rintro other (isLooking | isInserting)
    · cases isLooking
    · cases isInserting
  | handle c repaired => exact sound_handle sound stepped
  | create c id => exact sound_create sound stepped
  | queue c id limit => exact sound_queue sound stepped

def Label.ofHandler : Label workers requests chats → Bool
  | .handle _ _ | .create _ _ | .queue _ _ _ => true
  | _ => false
/-- Each pair has one rerun at most, also after any further statements of the handlers, and a
    chain of reruns has two repairs at most. -/
structure Secure (settings : Settings) (payload : Nat → Payload) (s : State workers requests chats) : Prop where
  once : ∀ labels t, labels.all Label.ofHandler → run (step settings payload) s labels = some t → OnePerPair t
  short : ShortChains payload s

theorem sound_secure (s : State workers requests chats) (sound : Sound payload s) : Secure settings payload s := by
  refine ⟨?_,short_chains sound⟩
  intro labels t ofHandler ran
  suffices Sound payload t from this.once
  refine run_keeps sound_step sound ?_ ran
  clear ran sound
  induction labels generalizing s with
  | nil => trivial
  | cons label rest ih =>
    rw [all_cons,Bool.and_eq_true] at ofHandler
    refine ⟨?_,fun next _ => ih next ofHandler.2⟩
    cases label with
    | handle c repaired => trivial
    | create c id => trivial
    | queue c id limit => trivial
    | _ => cases ofHandler.1

theorem creates_now {c : Fin chats} {job : RunJobRow} (here : s.desk.stage c = some (.creating job)) :
    ∃ id t, step settings payload s (.create c id) = some t ∧ t.runPairs = s.runPairs ++ [pairOf (payload job.id)] ∧
      ∀ other, other ≠ c → t.desk.stage other = s.desk.stage other := by
  obtain ⟨id,fresh⟩ := Infinite.exists_notMem_finset (s.desk.fleet.db.runs.map (·.id)).toFinset
  have absent : find s.desk.fleet.world.db.runs id = none := by
    refine find?_eq_none.mpr fun run member same => fresh ?_
    rw [mem_toFinset]
    exact mem_map.mpr ⟨run,member,by simpa using same⟩
  obtain ⟨desk,moved⟩ : ∃ desk, deskStep settings handler s.desk (.backtest (.createRun id)) = some desk := by
    simp [deskStep,fleetStep,backtestStep,BacktestWorker.step,absent]
  let t : State workers requests chats := { ({ s with desk } : State workers requests chats).move c (.specifying job id) with
    runs := s.runs ++ [⟨id,pairOf (payload job.id)⟩] }
  have created : step settings payload s (.create c id) = some t := by
    simp only [step,here,moved,Option.map_some]
    rfl
  refine ⟨id,t,created,map_append,?_⟩
  intro other differs
  exact (update_of_ne differs ..).trans (congrFun (backtest_stage moved) other)

theorem move_other (differs : other ≠ c) :
    (s.move c stage).desk.stage other = s.desk.stage other := update_of_ne differs ..

theorem creates {c : Fin chats} {stage : Stage} {job : RunJobRow} (here : s.desk.stage c = some stage)
    (preparing : stage.preparing = some job) (linked : Linked payload (payload job.id)) :
    ∃ labels t, labels.all Label.ofHandler = true ∧ run (step settings payload) s labels = some t ∧
      t.runPairs = s.runPairs ++ [pairOf (payload job.id)] ∧ ∀ other, other ≠ c → t.desk.stage other = s.desk.stage other := by
  have fromRepairing : ∀ {s : State workers requests chats}, s.desk.stage c = some (.repairing job) →
      ∃ labels t, labels.all Label.ofHandler = true ∧ run (step settings payload) s labels = some t ∧
        t.runPairs = s.runPairs ++ [pairOf (payload job.id)] ∧ ∀ other, other ≠ c → t.desk.stage other = s.desk.stage other := by
    intro s here
    have repairs : step settings payload s (.handle c true) = some (s.move c (.creating job)) := by
      simp [step,here,handle]
    obtain ⟨id,t,created,pairs,others⟩ := @creates_now _ _ _ settings payload (s.move c (.creating job)) c job (update_self ..)
    refine ⟨[.handle c true,.create c id],t,rfl,run_cons_some.mpr ⟨_,repairs,run_cons_some.mpr ⟨_,created,run_nil _⟩⟩,pairs,?_⟩
    exact fun other differs => (others other differs).trans (move_other differs)
  cases stage with
  | beginning first =>
    cases preparing
    obtain ⟨isMax,_,few⟩ := linked_attempt linked
    have begins : step settings payload s (.handle c true) = some (s.move c (.repairing job)) := by
      simp [step,here,handle,isMax,not_lt.mpr few]
    obtain ⟨labels,t,ofHandler,ran,pairs,others⟩ := fromRepairing (s := s.move c (.repairing job)) (update_self ..)
    refine ⟨.handle c true :: labels,t,ofHandler,run_cons_some.mpr ⟨_,begins,ran⟩,pairs,?_⟩
    exact fun other differs => (others other differs).trans (move_other differs)
  | repairing first =>
    cases preparing
    exact fromRepairing here
  | creating first =>
    cases preparing
    obtain ⟨id,t,created,pairs,others⟩ := @creates_now _ _ _ settings payload s c job here
    exact ⟨[.create c id],t,rfl,run_cons_some.mpr ⟨_,created,run_nil _⟩,pairs,others⟩
  | _ => cases preparing

theorem fresh_of_secure {locked : List Nat} (sound : Sound payload s)
    (secure : ∀ t, step settings payload s (.fleet (.take c locked)) = some t → Secure settings payload t) :
    ClaimsFresh settings payload s (.fleet (.take c locked)) := by
  intro row takes ofType
  obtain ⟨fleet,job,moved,processing,sameId,sameType⟩ := processing_of_taken takes
  let after : State workers requests chats := { s with desk := s.desk.enter fleet c (some (.beginning job)) }
  have claims : step settings payload s (.fleet (.take c locked)) = some after := by
    have isType : job.jobType = handler.jobType := sameType.trans ofType
    simp only [step,allowed,if_true,deskStep,moved,Option.bind_some,processing,Handler.entered,if_pos isType,Option.map_some]
    rfl
  have one := (secure after claims).once
  have member : row ∈ s.desk.fleet.db.jobs := by
    obtain ⟨other,takesOther,member,_⟩ := taken_of_processing moved processing
    rw [takes] at takesOther
    cases takesOther
    exact member
  have linked : Linked payload (payload job.id) := sameId ▸ sound.rows row member (.inl ofType)
  obtain ⟨labels,t,ofHandler,ran,pairs,others⟩ := @creates _ _ _ settings payload after c (.beginning job) job
    (update_self ..) rfl linked
  rw [sameId] at pairs
  constructor
  · intro made
    have nodup := (one labels t ofHandler ran).1
    rw [pairs] at nodup
    exact disjoint_of_nodup_append nodup made (mem_singleton_self _)
  · rintro other differs ⟨stage,otherJob,here,preparing,isPair⟩
    have still : t.desk.stage other = some stage :=
      (others other differs).trans ((update_of_ne differs ..).trans here)
    obtain ⟨more,last,ofHandlerToo,ranMore,morePairs,_⟩ := @creates _ _ _ settings payload t other stage otherJob still preparing
      (sound.stages other stage otherJob here (.inl preparing))
    have nodup := (one (labels ++ more) last (by rw [all_append,ofHandler,ofHandlerToo]; rfl)
      (run_append_some.mpr ⟨t,ran,ranMore⟩)).1
    rw [morePairs,pairs,isPair] at nodup
    exact disjoint_of_nodup_append nodup (mem_append_right _ (mem_singleton_self _)) (mem_singleton_self _)

theorem sound_initial : Sound payload (initial workers requests chats) := by
  have nowhere : ∀ {stages c pair}, ¬ At payload stages (initial workers requests chats) c pair := by
    rintro stages c pair ⟨_,_,reached,_⟩
    cases reached
  refine ⟨⟨nodup_nil,nodup_nil⟩,fun _ _ isAt => absurd isAt nowhere,fun _ _ _ isAt => absurd isAt nowhere,
    fun _ _ isAt => absurd isAt nowhere,fun _ _ _ isAt => absurd isAt nowhere,forall_mem_nil _,forall_mem_nil _,?_,?_⟩
  · intro c stage job reached
    cases reached
  · rintro w job (isLooking | isInserting)
    · cases isLooking
    · cases isInserting

/-- A pair of a failed job and an attempt has one rerun at most and a chain of reruns two repairs at most exactly if
    each claim of a repair job finds its pair without a rerun, and nobody else before one. -/
theorem one_rerun_iff (settings : Settings) (payload : Nat → Payload) (labels : List (Label workers requests chats)) :
    (∀ before after t, labels = before ++ after → run (step settings payload) (initial workers requests chats) before = some t →
        Secure settings payload t) ↔
      Meets (step settings payload) (ClaimsFresh settings payload) (initial workers requests chats) labels := by
  refine secures_iff sound_secure sound_step ?_ sound_initial
  intro s label sound secure
  cases label with
  | fleet label =>
    cases label with
    | take c locked => exact fresh_of_secure sound secure
    | _ => trivial
  | _ => trivial

def samplePayload : Nat → Payload := fun id => if id = 1 then ⟨true,some 0,some 1,some 2⟩ else ⟨true,none,none,none⟩
def sampleSettings : Settings := ⟨300,60,2,1⟩
/-- An attempt at a backtest that finds the script incompatible. -/
def fails (w : Fin 1) : List (Label 1 0 2) :=
  ([.claim w,.take w [],.work w .ok,.work w .ok,.work w (.raised .previewCompatibilityLimit),.work w .ok,.work w .ok,.work w .ok] :
    List (BacktestWorker.Label 1 0)).map fun label => .fleet (.backtest label)
def claims (c : Fin 2) : List (Label 1 0 2) := [.fleet (.claim c),.fleet (.take c []),.handle c true]
/-- The lease of a repair runs out while its model answers. -/
def slowModel (w : Fin 1) (c d : Fin 2) : List (Label 1 0 2) :=
  [.fleet (.backtest (.createRun 0)),
    .fleet (.backtest (.createRunJob ⟨0,0,0,.backtestPreview,.missing,none,backtestJobMaxAttempts⟩))] ++
    fails w ++ fails w ++ fails w ++ [.look w,.insert w 1] ++ claims c ++ [.fleet (.backtest (.tick 61))] ++ claims d ++
    [.handle c true,.create c 1,.handle d true,.create d 2]

theorem repaired_twice : ¬ ∀ (labels : List (Label 1 0 2)) (t : State 1 0 2),
    run (step sampleSettings samplePayload) (initial 1 0 2) labels = some t → OnePerPair t ∧ ShortChains samplePayload t := by
  intro all
  have ends : (run (step sampleSettings samplePayload) (initial 1 0 2) (slowModel 0 0 1)).isSome := by decide +kernel
  have twice : ∀ t ∈ run (step sampleSettings samplePayload) (initial 1 0 2) (slowModel 0 0 1), ¬t.runPairs.Nodup := by
    decide +kernel
  obtain ⟨t,reached⟩ := Option.isSome_iff_exists.mp ends
  exact twice t reached (all (slowModel 0 0 1) t reached).1.1

end Codebot.PreviewRepairs
