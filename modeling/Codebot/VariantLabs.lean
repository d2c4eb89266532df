import Codebot.Raising
import Codebot.PlanApprovals
import Mathlib.Data.Finset.Card

/-!
The variant lab. A call reads all configs before it queues a preview for one variant after the other: a run, its spec,
its job and two events, each a repository call of its own. A failure ends the call and leaves what was queued
(`all_or_nothing_iff`).
-/
namespace Codebot.VariantLabs
open Texts BacktestConfigs Raising List
open BacktestApprovals (StrategySpec Tools requiredPine)
open PlanApprovals (sampleTools)

structure Variant where
  name : Text
  strategySpec : Option StrategySpec
  pineCode : Option Text
  backtestConfig : Option ConfigFields
deriving DecidableEq
structure Arguments where
  prompt : Text
  strategySpec : StrategySpec
  pineCode : Option Text
  baseBacktestConfig : ConfigFields
  variants : List Variant
deriving DecidableEq

/-- What a cache key is a checksum of. -/
structure CacheKey where
  dataSource : Text
  exchange : Text
  symbol : Text
  timeframe : Text
  candleTimeframe : Text
  start : Text
  endAt : Text
deriving DecidableEq

/-- The metadata of a variant. -/
structure ChatTool where
  prompt : Text
  variantGroupId : Nat
  variantIndex : Nat
  variantName : Text
  sharedCacheKey : Option CacheKey
  variantCacheKey : CacheKey
deriving DecidableEq

inductive RunStatus
  | queued
  | failed
deriving DecidableEq
structure Run where
  id : Nat
  status : RunStatus
deriving DecidableEq

structure Job where
  id : Nat
  run : Nat
  strategySpec : StrategySpec
  pineCode : Text
  backtestConfig : BacktestConfig
  chatTool : ChatTool
deriving DecidableEq

inductive EventType
  | backtestQueued
  | backtestFailed
  | artifactCreated
deriving DecidableEq
structure RunEvent where
  run : Nat
  type : EventType
  child : Option Nat
  job : Option Nat
deriving DecidableEq

/-- A variant as the result lists it. -/
structure QueuedVariant where
  name : Text
  run : Nat
  job : Nat
  backtestConfig : ConfigFields
  cacheKey : CacheKey
deriving DecidableEq

/-- The comparison that is written for a call. -/
structure Comparison where
  variantGroupId : Nat
  sharedCacheKey : Option CacheKey
  prompt : Text
  baseBacktestConfig : ConfigFields
  variants : List QueuedVariant
deriving DecidableEq

/-- What a call returns. -/
structure VariantLab where
  variantGroupId : Nat
  sharedCacheKey : Option CacheKey
  sharedCache : Bool
  artifactId : Option Nat
  variants : List QueuedVariant
deriving DecidableEq

/-- The records of the repository that a call adds to, the run of the call, and the files. -/
structure Lab where
  current : Nat
  runs : List Run
  specs : List (Nat × StrategySpec)
  jobs : List Job
  events : List RunEvent
  artifacts : List Nat
  files : List Comparison
  next : Nat
deriving DecidableEq

/-- A repository call does its work, refuses it with `None`, or raises. -/
inductive Answer
  | done
  | refused
  | raised
deriving DecidableEq

/-- How the repository answers the calls for one variant. -/
structure Answers where
  run : Answer
  spec : Answer
  job : Answer
  status : Answer
  failedEvent : Answer
  childEvent : Answer
  ownEvent : Answer
deriving DecidableEq

/-- How it answers the calls for each variant and those for the comparison. -/
structure Calls where
  variant : Nat → Answers
  file : Answer
  artifact : Answer
  event : Answer
def backtestMaxVariants : Nat := 6

def backtestCacheKey (config : BacktestConfig) : CacheKey where
  dataSource := config.dataSource
  exchange := config.exchange
  symbol := config.symbol
  timeframe := config.timeframe
  candleTimeframe := config.candleTimeframe
  start := config.start
  endAt := config.endAt

/-- `{**base_config, **overrides}`. -/
def overBase (base : BacktestConfig) (overrides : ConfigFields) : ConfigFields where
  engine := some (overrides.engine.getD base.engine)
  exchange := some (overrides.exchange.getD base.exchange)
  symbol := some (overrides.symbol.getD base.symbol)
  timeframe := some (overrides.timeframe.getD base.timeframe)
  candleTimeframe := some (overrides.candleTimeframe.getD base.candleTimeframe)
  start := some (overrides.start.getD base.start)
  endAt := some (overrides.endAt.getD base.endAt)
  initialCapital := some (overrides.initialCapital.getD base.initialCapital)
  feeBps := some (overrides.feeBps.getD base.feeBps)
  slippageBps := some (overrides.slippageBps.getD base.slippageBps)
  dataSource := some (overrides.dataSource.getD base.dataSource)

def noOverrides : ConfigFields := ⟨none,none,none,none,none,none,none,none,none,none,none⟩
def Variant.overrides (variant : Variant) : ConfigFields := variant.backtestConfig.getD noOverrides
/-- `variant.get("strategy_spec") or arguments["strategy_spec"]`. -/
def Variant.spec (arguments : Arguments) (variant : Variant) : StrategySpec :=
  variant.strategySpec.getD arguments.strategySpec
/-- `variant.get("pine_code") or arguments.get("pine_code")`, empty for no text. -/
def Variant.source (arguments : Arguments) (variant : Variant) : Text :=
  orElse (variant.pineCode.getD []) (arguments.pineCode.getD [])
structure Prepared where
  index : Nat
  variant : Variant
  config : BacktestConfig
deriving DecidableEq

variable (tools : Tools) (enabled : Bool)
def variantConfig (base : BacktestConfig) (variant : Variant) : Option BacktestConfig :=
  normalizeBacktestConfig tools.toRuntime enabled (overBase base variant.overrides)
/-- The variants with their configs, from an index on. -/
def prepare (base : BacktestConfig) : Nat → List Variant → Option (List Prepared)
  | _, [] => some []
  | index, variant :: rest =>
    match variantConfig tools enabled base variant with
    | none => none
    | some config => (prepare base (index + 1) rest).map (⟨index,variant,config⟩ :: ·)
/-- `cache_keys[0] if len(set(cache_keys)) == 1 else None`. -/
def sharedCacheKey (keys : List CacheKey) : Option CacheKey := if keys.toFinset.card = 1 then keys.head? else none
def Lab.log (lab : Lab) (answer : Answer) (event : RunEvent) : Lab :=
  if answer = .done then { lab with events := lab.events ++ [event] } else lab
def Lab.createRun (lab : Lab) : Lab := { lab with runs := lab.runs ++ [⟨lab.next,.queued⟩], next := lab.next + 1 }
def Lab.createSpec (lab : Lab) (answer : Answer) (run : Nat) (strategySpec : StrategySpec) : Lab :=
  if answer = .done then { lab with specs := lab.specs ++ [(run,strategySpec)] } else lab
def Lab.createJob (lab : Lab) (job : Job) : Lab := { lab with jobs := lab.jobs ++ [job], next := lab.next + 1 }
/-- `set_run_status(run, "failed")`. -/
def Lab.failRun (lab : Lab) (answer : Answer) (run : Nat) : Lab :=
  if answer = .done then { lab with runs := lab.runs.map fun other => if other.id = run then ⟨run,.failed⟩ else other } else lab

/-- `_queue_backtest_preview`: the run and the job, or `none` where it raises. -/
def queueBacktestPreview (lab : Lab) (answers : Answers) (strategySpec : StrategySpec) (backtestConfig : BacktestConfig)
    (metadata : ChatTool) (pineCode : Text) : Lab × Option (Nat × Nat) :=
  match normalizeBacktestConfig tools.toRuntime enabled backtestConfig.fields, requiredPine tools pineCode strategySpec with
  | some config, some pine =>
    if answers.run ≠ .done then (lab,none)
    else
      let run := lab.next
      let created := lab.createRun
      if answers.spec = .raised then (created,none)
      else
        let specified := created.createSpec answers.spec run strategySpec
        match answers.job with
        | .raised => (specified,none)
        | .refused =>
          if answers.status = .raised then (specified,none)
          else ((specified.failRun answers.status run).log answers.failedEvent ⟨run,.backtestFailed,none,none⟩,none)
        | .done =>
          let job : Job := ⟨specified.next,run,strategySpec,pine,config,metadata⟩
          let queued := specified.createJob job
          if answers.childEvent = .raised then (queued,none)
          else
            let noted := queued.log answers.childEvent ⟨run,.backtestQueued,none,some job.id⟩
            if answers.ownEvent = .raised then (noted,none)
            else (noted.log answers.ownEvent ⟨lab.current,.backtestQueued,some run,some job.id⟩,some (run,job.id))
  | _, _ => (lab,none)

/-- The queueing of one variant. -/
def queueVariant (calls : Calls) (arguments : Arguments) (group : Nat) (shared : Option CacheKey) (lab : Lab)
    (item : Prepared) : Lab × Option (List QueuedVariant) :=
  let spec := item.variant.spec arguments
  let key := backtestCacheKey item.config
  match requiredPine tools (item.variant.source arguments) spec with
  | none => (lab,none)
  | some pine =>
    match queueBacktestPreview tools enabled lab (calls.variant item.index) spec item.config
        ⟨arguments.prompt,group,item.index,item.variant.name,shared,key⟩ pine with
    | (failed,none) => (failed,none)
    | (queued,some (run,job)) => (queued,some [⟨item.variant.name,run,job,userFacingBacktestConfig item.config,key⟩])

/-- `_persist_json_artifact` of the comparison: the id of the artifact, or `none` where it raises. -/
def persistComparison (calls : Calls) (lab : Lab) (comparison : Comparison) : Lab × Option (Option Nat) :=
  if calls.file = .raised then (lab,none)
  else
    let written := { lab with files := lab.files ++ [comparison] }
    match calls.artifact with
    | .raised => (written,none)
    | .refused => (written,some none)
    | .done =>
      let recorded := { written with artifacts := written.artifacts ++ [written.next], next := written.next + 1 }
      if calls.event = .raised then (recorded,none)
      else (recorded.log calls.event ⟨lab.current,.artifactCreated,none,none⟩,some (some written.next))

/-- `_run_backtest_variant_lab_tool`: what it returns, or `none` where it raises. -/
def runBacktestVariantLab (calls : Calls) (arguments : Arguments) (lab : Lab) : Lab × Option VariantLab :=
  if backtestMaxVariants < arguments.variants.length then (lab,none)
  else
    match normalizeBacktestConfig tools.toRuntime enabled arguments.baseBacktestConfig with
    | none => (lab,none)
    | some base =>
      match prepare tools enabled base 0 arguments.variants with
      | none => (lab,none)
      | some prepared =>
        let group := lab.next
        let shared := sharedCacheKey (prepared.map fun item => backtestCacheKey item.config)
        match forEach (queueVariant tools enabled calls arguments group shared) { lab with next := group + 1 } prepared with
        | (failed,none) => (failed,none)
        | (queued,some variants) =>
          match persistComparison calls queued ⟨group,shared,arguments.prompt,userFacingBacktestConfig base,variants⟩ with
          | (failed,none) => (failed,none)
          | (last,some artifactId) => (last,some ⟨group,shared,shared.isSome,artifactId,variants⟩)

/-- A call of the tool, whose schema wants at least one variant. -/
def callVariantLab (calls : Calls) (arguments : Arguments) (lab : Lab) : Lab × Option VariantLab :=
  if arguments.variants = [] then (lab,none) else runBacktestVariantLab tools enabled calls arguments lab

/-- What decides which candles a preview reads. -/
structure CandleData where
  dataSource : Text
  exchange : Text
  symbol : Text
  candleTimeframe : Text
  start : Option Rat
  endAt : Option Rat
deriving DecidableEq

def candleData (config : BacktestConfig) : CandleData where
  dataSource := config.dataSource
  exchange := config.exchange
  symbol := config.symbol
  candleTimeframe := config.candleTimeframe
  start := parseBacktestDatetime tools.toRuntime config.start
  endAt := parseBacktestDatetime tools.toRuntime config.endAt
def SameCandles (configs : List BacktestConfig) : Prop :=
  ∀ first ∈ configs, ∀ second ∈ configs, candleData tools first = candleData tools second
def queuedRuns (lab : Lab) : List Run := lab.runs.filter fun run => run.status = .queued
/-- The job has the variant's own spec, source and config. -/
structure Own (base : BacktestConfig) (arguments : Arguments) (variant : Variant) (job : Job) : Prop where
  spec : job.strategySpec = variant.spec arguments
  source : requiredPine tools (variant.source arguments) (variant.spec arguments) = some job.pineCode
  config : variantConfig tools enabled base variant = some job.backtestConfig

/-- A call that raises leaves no new job or queued run. One that returns has queued a job for each variant, in order,
    and says whether they use the same candles. -/
def AllOrNothing (calls : Calls) (arguments : Arguments) (lab : Lab) : Prop :=
  match callVariantLab tools enabled calls arguments lab with
  | (last,none) => last.jobs = lab.jobs ∧ queuedRuns last = queuedRuns lab
  | (last,some result) =>
    ∃ base jobs, normalizeBacktestConfig tools.toRuntime enabled arguments.baseBacktestConfig = some base ∧
      last.jobs = lab.jobs ++ jobs ∧ List.Forall₂ (Own tools enabled base arguments) arguments.variants jobs ∧
        queuedRuns last = queuedRuns lab ++ jobs.map (fun job => ⟨job.run,.queued⟩) ∧
          (result.sharedCache ↔ SameCandles tools (jobs.map (·.backtestConfig)))

/-- The queueing of the variant fails. -/
def Fails (answers : Answers) (arguments : Arguments) (variant : Variant) : Prop :=
  requiredPine tools (variant.source arguments) (variant.spec arguments) = none ∨ answers.run ≠ .done ∨ answers.spec = .raised ∨
    answers.job ≠ .done ∨ answers.childEvent = .raised ∨ answers.ownEvent = .raised
/-- It fails before a run is created, or over a job that is refused for a run that is then set to failed. -/
def LeavesNothing (answers : Answers) (arguments : Arguments) (variant : Variant) : Prop :=
  requiredPine tools (variant.source arguments) (variant.spec arguments) = none ∨ answers.run ≠ .done ∨
    answers.spec ≠ .raised ∧ answers.job = .refused ∧ answers.status = .done
def Compares (calls : Calls) : Prop :=
  calls.file ≠ .raised ∧ calls.artifact ≠ .raised ∧ (calls.artifact = .done → calls.event ≠ .raised)
/-- Configs with the same candles have the same timeframe of signals and write their range alike. -/
def KeyedAlike (configs : List BacktestConfig) : Prop :=
  SameCandles tools configs → ∀ first ∈ configs, ∀ second ∈ configs,
    first.timeframe = second.timeframe ∧ first.start = second.start ∧ first.endAt = second.endAt
/-- The call is given one to six variants, and its configs are read. -/
structure Reads (arguments : Arguments) (base : BacktestConfig) : Prop where
  given : arguments.variants ≠ []
  most : arguments.variants.length ≤ backtestMaxVariants
  reads : normalizeBacktestConfig tools.toRuntime enabled arguments.baseBacktestConfig = some base
  variants : ∀ variant ∈ arguments.variants, (variantConfig tools enabled base variant).isSome
/-- Where the configs are read, the first variant fails and leaves nothing, or nothing fails and equal candles have equal keys. -/
def NothingFailsLate (calls : Calls) (arguments : Arguments) : Prop :=
  ∀ base, Reads tools enabled arguments base →
    (∃ first rest, arguments.variants = first :: rest ∧ LeavesNothing tools (calls.variant 0) arguments first) ∨
      (∀ index variant, arguments.variants[index]? = some variant → ¬Fails tools (calls.variant index) arguments variant) ∧
        Compares calls ∧ KeyedAlike tools (arguments.variants.filterMap (variantConfig tools enabled base))
def Fresh (lab : Lab) : Prop := ∀ run ∈ lab.runs, run.id < lab.next

variable {tools} {enabled}

variable {arguments : Arguments}

theorem LeavesNothing.fails {answers : Answers} {variant : Variant}
    (nothing : LeavesNothing tools answers arguments variant) : Fails tools answers arguments variant := by
  rcases nothing with noSource | noRun | ⟨_,refused,_⟩
  · exact .inl noSource
  · exact .inr (.inl noRun)
  · refine .inr (.inr (.inr (.inl ?_)))
    rw [refused]
    exact fun same => nomatch same

theorem requiredPine_again {source pine : Text} {spec : StrategySpec} (required : requiredPine tools source spec = some pine) :
    requiredPine tools pine spec = some pine := by
  unfold requiredPine at required
  split at required
  · cases required
  · rename_i some
    split at required
    · rename_i isStrategy
      cases required
      rw [requiredPine,strip_strip,if_neg some,if_pos isStrategy]
    · cases required

@[simp] theorem log_jobs (lab : Lab) (answer : Answer) (event : RunEvent) : (lab.log answer event).jobs = lab.jobs := by
  unfold Lab.log
  split <;> rfl
@[simp] theorem log_runs (lab : Lab) (answer : Answer) (event : RunEvent) : (lab.log answer event).runs = lab.runs := by
  unfold Lab.log
  split <;> rfl
@[simp] theorem log_next (lab : Lab) (answer : Answer) (event : RunEvent) : (lab.log answer event).next = lab.next := by
  unfold Lab.log
  split <;> rfl
@[simp] theorem createSpec_jobs (lab : Lab) (answer : Answer) (run : Nat) (spec : StrategySpec) :
    (lab.createSpec answer run spec).jobs = lab.jobs := by
  unfold Lab.createSpec
  split <;> rfl
@[simp] theorem createSpec_runs (lab : Lab) (answer : Answer) (run : Nat) (spec : StrategySpec) :
    (lab.createSpec answer run spec).runs = lab.runs := by
  unfold Lab.createSpec
  split <;> rfl
@[simp] theorem createSpec_next (lab : Lab) (answer : Answer) (run : Nat) (spec : StrategySpec) :
    (lab.createSpec answer run spec).next = lab.next := by
  unfold Lab.createSpec
  split <;> rfl
@[simp] theorem createRun_jobs (lab : Lab) : lab.createRun.jobs = lab.jobs := rfl
@[simp] theorem createRun_runs (lab : Lab) : lab.createRun.runs = lab.runs ++ [⟨lab.next,.queued⟩] := rfl
@[simp] theorem createJob_jobs (lab : Lab) (job : Job) : (lab.createJob job).jobs = lab.jobs ++ [job] := rfl
@[simp] theorem createJob_runs (lab : Lab) (job : Job) : (lab.createJob job).runs = lab.runs := rfl
@[simp] theorem createJob_next (lab : Lab) (job : Job) : (lab.createJob job).next = lab.next + 1 := rfl

variable {lab : Lab}
theorem Fresh.createRun (fresh : Fresh lab) : Fresh lab.createRun := by
  intro run listed
  rcases mem_append.mp listed with old | new
  · exact (fresh run old).trans (Nat.lt_succ_self _)
  · rw [mem_singleton.mp new]
    exact Nat.lt_succ_self _

variable {last : Lab}
theorem Fresh.later (fresh : Fresh lab) (runs : last.runs = lab.runs) (next : lab.next ≤ last.next) : Fresh last := by
  intro run listed
  exact (fresh run (runs ▸ listed)).trans_le next

theorem preview_done {answers : Answers} {lab : Lab} (fresh : Fresh lab) {spec : StrategySpec} {config : BacktestConfig}
    {metadata : ChatTool} {pine : Text} (read : normalizeBacktestConfig tools.toRuntime enabled config.fields = some config)
    (required : requiredPine tools pine spec = some pine) (hasRun : answers.run = .done) (hasSpec : answers.spec ≠ .raised)
    (hasJob : answers.job = .done) (hasChildEvent : answers.childEvent ≠ .raised) (hasOwnEvent : answers.ownEvent ≠ .raised) :
    ∃ last job, queueBacktestPreview tools enabled lab answers spec config metadata pine = (last,some (job.run,job.id)) ∧
      Fresh last ∧ last.jobs = lab.jobs ++ [job] ∧ last.runs = lab.runs ++ [⟨job.run,.queued⟩] ∧
        job.strategySpec = spec ∧ job.pineCode = pine ∧ job.backtestConfig = config := by
  let specified := lab.createRun.createSpec answers.spec lab.next spec
  let job : Job := ⟨specified.next,lab.next,spec,pine,config,metadata⟩
  refine ⟨((specified.createJob job).log answers.childEvent ⟨lab.next,.backtestQueued,none,some job.id⟩).log answers.ownEvent
    ⟨lab.current,.backtestQueued,some lab.next,some job.id⟩,job,?_,?_,?_,?_,rfl,rfl,rfl⟩
  · rw [queueBacktestPreview,read,required]
    dsimp only
    rw [if_neg (not_not.mpr hasRun),if_neg hasSpec,hasJob]
    dsimp only
    rw [if_neg hasChildEvent,if_neg hasOwnEvent]
  · exact fresh.createRun.later (by simp [specified]) (by simp [specified])
  · simp [specified]
  · simp [specified,job]

theorem queueVariant_done {calls : Calls} {arguments : Arguments} {group : Nat} {shared : Option CacheKey} {lab : Lab}
    (fresh : Fresh lab) {base : BacktestConfig} {index : Nat} {variant : Variant} {config : BacktestConfig}
    (read : variantConfig tools enabled base variant = some config)
    (works : ¬Fails tools (calls.variant index) arguments variant) : ∃ last entry job,
      queueVariant tools enabled calls arguments group shared lab ⟨index,variant,config⟩ = (last,some [entry]) ∧ Fresh last ∧
        last.jobs = lab.jobs ++ [job] ∧ last.runs = lab.runs ++ [⟨job.run,.queued⟩] ∧
          Own tools enabled base arguments variant job ∧ job.backtestConfig = config := by
  unfold Fails at works
  push Not at works
  obtain ⟨hasSource,hasRun,hasSpec,hasJob,hasChildEvent,hasOwnEvent⟩ := works
  obtain ⟨pine,isPine⟩ := Option.ne_none_iff_exists'.mp hasSource
  have again : normalizeBacktestConfig tools.toRuntime enabled config.fields = some config := by
    rw [normalize_config read,if_pos (settled_normalize read).1]
  obtain ⟨last,job,ran,later,jobs,runs,isSpec,isSource,isConfig⟩ := @preview_done tools enabled (calls.variant index) lab fresh
    (variant.spec arguments) config ⟨arguments.prompt,group,index,variant.name,shared,backtestCacheKey config⟩ pine again
    (requiredPine_again isPine) hasRun hasSpec hasJob hasChildEvent hasOwnEvent
  refine ⟨last,⟨variant.name,job.run,job.id,userFacingBacktestConfig config,backtestCacheKey config⟩,job,?_,later,jobs,runs,
    ⟨isSpec,by rw [isSource,isPine],by rw [isConfig,read]⟩,isConfig⟩
  rw [queueVariant]
  dsimp only
  rw [isPine]
  dsimp only
  rw [ran]

@[simp] theorem queuedRuns_log (lab : Lab) (answer : Answer) (event : RunEvent) :
    queuedRuns (lab.log answer event) = queuedRuns lab := by
  rw [queuedRuns,log_runs,queuedRuns]
theorem queuedRuns_append (lab last : Lab) (run : Nat) (runs : last.runs = lab.runs ++ [⟨run,.queued⟩]) :
    queuedRuns last = queuedRuns lab ++ [⟨run,.queued⟩] := by
  rw [queuedRuns,runs,filter_append]
  rfl

theorem queuedRuns_failRun (fresh : Fresh lab) (runs : last.runs = lab.runs ++ [⟨lab.next,.queued⟩]) :
    queuedRuns (last.failRun .done lab.next) = queuedRuns lab := by
  have others : lab.runs.map (fun other => if other.id = lab.next then (⟨lab.next,.failed⟩ : Run) else other) = lab.runs := by
    refine (map_congr_left ?_).trans (map_id _)
    intro run listed
    exact if_neg (fresh run listed).ne
  rw [queuedRuns,Lab.failRun,if_pos rfl]
  dsimp only
  rw [runs,map_append,others,filter_append,map_singleton,if_pos rfl]
  simp [queuedRuns]

theorem preview_fails {answers : Answers} {lab : Lab} (fresh : Fresh lab) {spec : StrategySpec} {config : BacktestConfig}
    {metadata : ChatTool} {pine : Text} (read : normalizeBacktestConfig tools.toRuntime enabled config.fields = some config)
    (required : requiredPine tools pine spec = some pine) (fails : answers.run ≠ .done ∨ answers.spec = .raised ∨
      answers.job ≠ .done ∨ answers.childEvent = .raised ∨ answers.ownEvent = .raised) :
    ∃ last, queueBacktestPreview tools enabled lab answers spec config metadata pine = (last,none) ∧
      (queuedRuns lab).length ≤ (queuedRuns last).length ∧ ((last.jobs = lab.jobs ∧ queuedRuns last = queuedRuns lab) ↔
        answers.run ≠ .done ∨ answers.spec ≠ .raised ∧ answers.job = .refused ∧ answers.status = .done) := by
  let specified := lab.createRun.createSpec answers.spec lab.next spec
  -- What was created stays where nothing sets its run to failed.
  have stays : ∀ last : Lab, last.runs = lab.runs ++ [⟨lab.next,.queued⟩] →
      (queuedRuns lab).length ≤ (queuedRuns last).length ∧ ¬(last.jobs = lab.jobs ∧ queuedRuns last = queuedRuns lab) := by
    intro last runs
    rw [queuedRuns_append lab last lab.next runs]
    refine ⟨by simp,fun same => ?_⟩
    have lengths := congrArg List.length same.2
    rw [length_append,length_singleton] at lengths
    omega
  rw [queueBacktestPreview,read,required]
  dsimp only
  by_cases hasRun : answers.run = .done
  · rw [if_neg (not_not.mpr hasRun)]
    by_cases noSpec : answers.spec = .raised
    · rw [if_pos noSpec]
      obtain ⟨grows,remains⟩ := stays lab.createRun rfl
      exact ⟨_,rfl,grows,iff_of_false remains fun inTime => inTime.elim (fun noRun => noRun hasRun) fun others => others.1 noSpec⟩
    · rw [if_neg noSpec]
      have isRuns : specified.runs = lab.runs ++ [⟨lab.next,.queued⟩] := by simp [specified]
      cases isJob : answers.job with
      | raised =>
        obtain ⟨grows,remains⟩ := stays specified isRuns
        refine ⟨_,rfl,grows,iff_of_false remains ?_⟩
        exact fun inTime => inTime.elim (fun noRun => noRun hasRun) fun others => nomatch others.2.1
      | refused =>
        dsimp only
        by_cases isStatus : answers.status = .done
        · rw [if_neg (by rw [isStatus]; exact fun same => nomatch same),isStatus]
          have runs : queuedRuns (specified.failRun .done lab.next) = queuedRuns lab := queuedRuns_failRun fresh isRuns
          refine ⟨_,rfl,?_,iff_of_true ⟨?_,?_⟩ (.inr ⟨noSpec,rfl,rfl⟩)⟩
          · rw [queuedRuns_log]
            exact (congrArg List.length runs).ge
          · rw [log_jobs,Lab.failRun,if_pos rfl]
            exact createSpec_jobs ..
          · rw [queuedRuns_log]
            exact runs
        · have kept : ¬(answers.run ≠ .done ∨ answers.spec ≠ .raised ∧ Answer.refused = .refused ∧ answers.status = .done) :=
            fun inTime => inTime.elim (fun noRun => noRun hasRun) fun others => isStatus others.2.2
          by_cases raised : answers.status = .raised
          · rw [if_pos raised]
            obtain ⟨grows,remains⟩ := stays specified isRuns
            exact ⟨_,rfl,grows,iff_of_false remains kept⟩
          · rw [if_neg raised,Lab.failRun,if_neg isStatus]
            obtain ⟨grows,remains⟩ := stays (specified.log answers.failedEvent ⟨lab.next,.backtestFailed,none,none⟩)
              ((log_runs ..).trans isRuns)
            exact ⟨_,rfl,grows,iff_of_false remains kept⟩
      | done =>
        dsimp only
        have kept : ¬(answers.run ≠ .done ∨ answers.spec ≠ .raised ∧ Answer.done = .refused ∧ answers.status = .done) :=
          fun inTime => inTime.elim (fun noRun => noRun hasRun) fun others => nomatch others.2.1
        by_cases noChildEvent : answers.childEvent = .raised
        · rw [if_pos noChildEvent]
          obtain ⟨grows,remains⟩ := stays (specified.createJob ⟨specified.next,lab.next,spec,pine,config,metadata⟩)
            ((createJob_runs ..).trans isRuns)
          exact ⟨_,rfl,grows,iff_of_false remains kept⟩
        · have noOwnEvent : answers.ownEvent = .raised := by
            rcases fails with noRun | noSpecHere | noJob | noEvent | isIt
            · exact absurd hasRun noRun
            · exact absurd noSpecHere noSpec
            · exact absurd isJob noJob
            · exact absurd noEvent noChildEvent
            · exact isIt
          rw [if_neg noChildEvent,if_pos noOwnEvent]
          obtain ⟨grows,remains⟩ := stays ((specified.createJob ⟨specified.next,lab.next,spec,pine,config,metadata⟩).log
            answers.childEvent ⟨lab.next,.backtestQueued,none,some specified.next⟩)
            ((log_runs ..).trans ((createJob_runs ..).trans isRuns))
          exact ⟨_,rfl,grows,iff_of_false remains kept⟩
  · rw [if_pos hasRun]
    exact ⟨lab,rfl,le_refl _,iff_of_true ⟨rfl,rfl⟩ (.inl hasRun)⟩

theorem queueVariant_fails {calls : Calls} {arguments : Arguments} {group : Nat} {shared : Option CacheKey} {lab : Lab}
    (fresh : Fresh lab) {base : BacktestConfig} {index : Nat} {variant : Variant} {config : BacktestConfig}
    (read : variantConfig tools enabled base variant = some config)
    (fails : Fails tools (calls.variant index) arguments variant) : ∃ last,
      queueVariant tools enabled calls arguments group shared lab ⟨index,variant,config⟩ = (last,none) ∧
        (queuedRuns lab).length ≤ (queuedRuns last).length ∧ ((last.jobs = lab.jobs ∧ queuedRuns last = queuedRuns lab) ↔
          LeavesNothing tools (calls.variant index) arguments variant) := by
  rw [queueVariant]
  dsimp only
  cases isPine : requiredPine tools (variant.source arguments) (variant.spec arguments) with
  | none => exact ⟨lab,rfl,le_refl _,iff_of_true ⟨rfl,rfl⟩ (.inl isPine)⟩
  | some pine =>
    have again : normalizeBacktestConfig tools.toRuntime enabled config.fields = some config := by
      rw [normalize_config read,if_pos (settled_normalize read).1]
    have others : (calls.variant index).run ≠ .done ∨ (calls.variant index).spec = .raised ∨ (calls.variant index).job ≠ .done ∨
        (calls.variant index).childEvent = .raised ∨ (calls.variant index).ownEvent = .raised := by
      refine fails.resolve_left ?_
      rw [isPine]
      exact fun none => nomatch none
    obtain ⟨last,ran,grows,inTime⟩ := @preview_fails tools enabled (calls.variant index) lab fresh
      (variant.spec arguments) config ⟨arguments.prompt,group,index,variant.name,shared,backtestCacheKey config⟩ pine again
      (requiredPine_again isPine) others
    dsimp only
    rw [ran]
    refine ⟨last,rfl,grows,inTime.trans ?_⟩
    rw [LeavesNothing,isPine]
    exact (or_iff_right fun none => nomatch none).symm

theorem loop_spec {calls : Calls} {arguments : Arguments} {group : Nat} {shared : Option CacheKey} {base : BacktestConfig}
    {index : Nat} {variants : List Variant} {prepared : List Prepared} {lab : Lab} (fresh : Fresh lab)
    (isPrepared : prepare tools enabled base index variants = some prepared) :
    ((∀ place variant, variants[place]? = some variant → ¬Fails tools (calls.variant (index + place)) arguments variant) ∧
      ∃ last entries jobs, forEach (queueVariant tools enabled calls arguments group shared) lab prepared = (last,some entries) ∧
        last.jobs = lab.jobs ++ jobs ∧ List.Forall₂ (Own tools enabled base arguments) variants jobs ∧
          queuedRuns last = queuedRuns lab ++ jobs.map (fun job => ⟨job.run,.queued⟩) ∧
            jobs.map (·.backtestConfig) = prepared.map (·.config)) ∨
    ((∃ place variant, variants[place]? = some variant ∧ Fails tools (calls.variant (index + place)) arguments variant) ∧
      ∃ last, forEach (queueVariant tools enabled calls arguments group shared) lab prepared = (last,none) ∧
        (queuedRuns lab).length ≤ (queuedRuns last).length ∧ ((last.jobs = lab.jobs ∧ queuedRuns last = queuedRuns lab) ↔
          ∃ first rest, variants = first :: rest ∧ LeavesNothing tools (calls.variant index) arguments first)) := by
  induction variants generalizing index prepared lab with
  | nil =>
    cases isPrepared
    refine .inl ⟨?_,lab,[],[],rfl,by simp,.nil,by simp,rfl⟩
    intro place variant listed
    cases listed
  | cons variant rest ih =>
    rw [prepare] at isPrepared
    split at isPrepared
    · cases isPrepared
    · rename_i config read
      obtain ⟨others,isOthers,rfl⟩ := Option.map_eq_some_iff.mp isPrepared
      by_cases fails : Fails tools (calls.variant index) arguments variant
      · obtain ⟨last,ran,grows,inTime⟩ := @queueVariant_fails tools enabled calls arguments group shared lab fresh base index variant
          config read fails
        refine .inr ⟨⟨0,variant,rfl,fails⟩,last,forEach_cons_raised ran,grows,inTime.trans ?_⟩
        exact ⟨fun nothing => ⟨variant,rest,rfl,nothing⟩,fun ⟨first,_,same,nothing⟩ => (List.cons.inj same).1 ▸ nothing⟩
      · obtain ⟨mid,entry,job,ran,later,jobs,runs,own,isConfig⟩ := @queueVariant_done tools enabled calls arguments group shared lab
          fresh base index variant config read fails
        have queued := queuedRuns_append lab mid job.run runs
        rw [forEach_cons_returned ran]
        rcases @ih (index + 1) others mid later isOthers with
          ⟨work,last,entries,more,looped,isJobs,owns,isRuns,configs⟩ | ⟨⟨place,failing,listed,failed⟩,last,looped,grows,_⟩
        · refine .inl ⟨?_,last,entry :: entries,job :: more,by rw [looped]; rfl,?_,.cons own owns,?_,?_⟩
          · intro place other listed
            cases place with
            | zero => exact (Option.some.inj listed) ▸ fails
            | succ place =>
              rw [← Nat.succ_add_eq_add_succ]
              exact work place other listed
          · rw [isJobs,jobs,append_assoc,singleton_append]
          · rw [isRuns,queued,append_assoc,singleton_append,map_cons]
          · rw [map_cons,map_cons,configs,isConfig]
        · refine .inr ⟨⟨place + 1,failing,listed,?_⟩,last,by rw [looped]; rfl,?_,?_⟩
          · rw [← Nat.succ_add_eq_add_succ]
            exact failed
          · rw [queued,length_append,length_singleton] at grows
            omega
          · -- The first variant stays queued, and it did not fail.
            refine iff_of_false ?_ ?_
            · intro same
              rw [queued,same.2,length_append,length_singleton] at grows
              omega
            · rintro ⟨first,_,same,nothing⟩
              exact fails ((List.cons.inj same).1 ▸ nothing.fails)

theorem prepare_some {base : BacktestConfig} {index : Nat} {variants : List Variant} :
    (prepare tools enabled base index variants).isSome ↔ ∀ variant ∈ variants, (variantConfig tools enabled base variant).isSome := by
  induction variants generalizing index with
  | nil => simp [prepare]
  | cons variant rest ih =>
    rw [prepare,forall_mem_cons]
    cases variantConfig tools enabled base variant with
    | none => simp
    | some config => simpa using ih

variable {base : BacktestConfig}

theorem prepare_configs {index : Nat} {variants : List Variant} {prepared : List Prepared}
    (isPrepared : prepare tools enabled base index variants = some prepared) :
    prepared.map (·.config) = variants.filterMap (variantConfig tools enabled base) := by
  induction variants generalizing index prepared with
  | nil =>
    cases isPrepared
    rfl
  | cons variant rest ih =>
    rw [prepare] at isPrepared
    split at isPrepared
    · cases isPrepared
    · rename_i config read
      obtain ⟨others,isOthers,rfl⟩ := Option.map_eq_some_iff.mp isPrepared
      rw [map_cons,ih isOthers,filterMap_cons,read]

theorem shared_isSome {keys : List CacheKey} (some : keys ≠ []) :
    (sharedCacheKey keys).isSome ↔ ∀ first ∈ keys, ∀ second ∈ keys, first = second := by
  have distinct : keys.toFinset.card = 1 ↔ ∀ first ∈ keys, ∀ second ∈ keys, first = second := by
    obtain ⟨key,rest,rfl⟩ := exists_cons_of_ne_nil some
    have one : 0 < (key :: rest).toFinset.card := Finset.card_pos.mpr ⟨key,by simp⟩
    have least := @Finset.card_le_one _ (key :: rest).toFinset
    simp only [mem_toFinset] at least
    rw [← least]
    omega
  rw [sharedCacheKey,← distinct]
  split
  · rename_i same
    exact iff_of_true (isSome_head?.mpr some) same
  · rename_i differs
    exact iff_of_false (fun isSome => nomatch isSome) differs

theorem shared_right_iff {configs : List BacktestConfig} (some : configs ≠ []) :
    ((sharedCacheKey (configs.map backtestCacheKey)).isSome ↔ SameCandles tools configs) ↔ KeyedAlike tools configs := by
  have keyed : (∀ first ∈ configs.map backtestCacheKey, ∀ second ∈ configs.map backtestCacheKey, first = second) ↔
      ∀ first ∈ configs, ∀ second ∈ configs, backtestCacheKey first = backtestCacheKey second := by
    simp only [forall_mem_map]
  rw [shared_isSome (by simpa using some),keyed]
  constructor
  · intro right same first listed second alsoListed
    have equal := right.mpr same first listed second alsoListed
    simp only [backtestCacheKey,CacheKey.mk.injEq] at equal
    exact ⟨equal.2.2.2.1,equal.2.2.2.2.2⟩
  · intro alike
    constructor
    · intro equal first listed second alsoListed
      have keys := equal first listed second alsoListed
      simp only [backtestCacheKey,CacheKey.mk.injEq] at keys
      simp only [candleData,keys]
    · intro same first listed second alsoListed
      have data := same first listed second alsoListed
      obtain ⟨timeframe,start,endAt⟩ := alike same first listed second alsoListed
      simp only [candleData,CandleData.mk.injEq] at data
      simp only [backtestCacheKey,data,timeframe,start,endAt]

theorem persist_spec (calls : Calls) (lab : Lab) (comparison : Comparison) :
    (persistComparison calls lab comparison).1.jobs = lab.jobs ∧ queuedRuns (persistComparison calls lab comparison).1 = queuedRuns lab ∧
      ((persistComparison calls lab comparison).2.isSome ↔ Compares calls) := by
  unfold persistComparison Compares
  by_cases noFile : calls.file = .raised
  · rw [if_pos noFile]
    exact ⟨rfl,rfl,iff_of_false (fun isSome => nomatch isSome) fun compares => compares.1 noFile⟩
  · rw [if_neg noFile]
    cases calls.artifact with
    | raised => exact ⟨rfl,rfl,iff_of_false (fun isSome => nomatch isSome) fun compares => compares.2.1 rfl⟩
    | refused => exact ⟨rfl,rfl,iff_of_true rfl ⟨noFile,by decide,fun same => absurd same (by decide)⟩⟩
    | done =>
      dsimp only
      by_cases noEvent : calls.event = .raised
      · rw [if_pos noEvent]
        exact ⟨rfl,rfl,iff_of_false (fun isSome => nomatch isSome) fun compares => compares.2.2 rfl noEvent⟩
      · rw [if_neg noEvent,log_jobs,queuedRuns_log]
        exact ⟨rfl,rfl,iff_of_true rfl ⟨noFile,by decide,fun _ => noEvent⟩⟩

variable {calls : Calls}

theorem call_unread (unread : ∀ base, ¬Reads tools enabled arguments base) :
    callVariantLab tools enabled calls arguments lab = (lab,none) := by
  rw [callVariantLab]
  split
  · rfl
  · rename_i given
    rw [runBacktestVariantLab]
    split
    · rfl
    · rename_i most
      split
      · rfl
      · rename_i base reads
        split
        · rfl
        · rename_i prepared isPrepared
          have all := (@prepare_some tools enabled base 0 arguments.variants).mp (by rw [isPrepared]; rfl)
          exact absurd ⟨given,not_lt.mp most,reads,all⟩ (unread base)

theorem call_reads {calls : Calls} {arguments : Arguments} {lab : Lab} {base : BacktestConfig}
    (reads : Reads tools enabled arguments base) : ∃ prepared, prepare tools enabled base 0 arguments.variants = some prepared ∧
      callVariantLab tools enabled calls arguments lab =
        match forEach (queueVariant tools enabled calls arguments lab.next
          (sharedCacheKey (prepared.map fun item => backtestCacheKey item.config))) { lab with next := lab.next + 1 } prepared with
        | (failed,none) => (failed,none)
        | (queued,some variants) =>
          match persistComparison calls queued ⟨lab.next,sharedCacheKey (prepared.map fun item => backtestCacheKey item.config),
            arguments.prompt,userFacingBacktestConfig base,variants⟩ with
          | (failed,none) => (failed,none)
          | (last,some artifactId) => (last,some ⟨lab.next,sharedCacheKey (prepared.map fun item => backtestCacheKey item.config),
              (sharedCacheKey (prepared.map fun item => backtestCacheKey item.config)).isSome,artifactId,variants⟩) := by
  obtain ⟨prepared,isPrepared⟩ := Option.isSome_iff_exists.mp ((@prepare_some tools enabled base 0 _).mpr reads.variants)
  refine ⟨prepared,isPrepared,?_⟩
  rw [callVariantLab,if_neg reads.given,runBacktestVariantLab,if_neg (not_lt.mpr reads.most),reads.reads]
  dsimp only
  rw [isPrepared]

theorem reads_iff (fresh : Fresh lab)
    (reads : Reads tools enabled arguments base) : AllOrNothing tools enabled calls arguments lab ↔
      (∃ first rest, arguments.variants = first :: rest ∧ LeavesNothing tools (calls.variant 0) arguments first) ∨
        (∀ index variant, arguments.variants[index]? = some variant → ¬Fails tools (calls.variant index) arguments variant) ∧
          Compares calls ∧ KeyedAlike tools (arguments.variants.filterMap (variantConfig tools enabled base)) := by
  obtain ⟨prepared,isPrepared,isCall⟩ := @call_reads tools enabled calls arguments lab base reads
  have configs := prepare_configs isPrepared
  have freshNow : Fresh { lab with next := lab.next + 1 } := fresh.later rfl (Nat.le_succ _)
  rw [AllOrNothing,isCall]
  rcases @loop_spec tools enabled calls arguments lab.next
      (sharedCacheKey (prepared.map fun item => backtestCacheKey item.config)) base 0 _ prepared _ freshNow isPrepared with
    ⟨works,queued,entries,jobs,looped,isJobs,owns,isRuns,jobConfigs⟩ | ⟨⟨place,failing,listed,failed⟩,last,looped,_,inTime⟩
  · rw [looped]
    dsimp only
    have noFailure : ∀ index variant, arguments.variants[index]? = some variant → ¬Fails tools (calls.variant index) arguments variant := by
      intro index variant listed
      have work := works index variant listed
      rwa [Nat.zero_add] at work
    obtain ⟨sameJobs,sameRuns,persists⟩ := persist_spec calls queued ⟨lab.next,
      sharedCacheKey (prepared.map fun item => backtestCacheKey item.config),arguments.prompt,userFacingBacktestConfig base,entries⟩
    obtain ⟨first,rest,isList⟩ := exists_cons_of_ne_nil reads.given
    have notFirst : ¬∃ first rest, arguments.variants = first :: rest ∧ LeavesNothing tools (calls.variant 0) arguments first := by
      rintro ⟨first,rest,same,nothing⟩
      exact noFailure 0 first (by rw [same]; rfl) nothing.fails
    rcases persisted : persistComparison calls queued ⟨lab.next,
      sharedCacheKey (prepared.map fun item => backtestCacheKey item.config),arguments.prompt,userFacingBacktestConfig base,entries⟩ with
      ⟨last,_ | artifactId⟩
    · -- The comparison fails with the jobs queued.
      rw [persisted] at sameJobs persists ⊢
      dsimp only at sameJobs ⊢
      refine iff_of_false ?_ ?_
      · rintro ⟨none,_⟩
        have lengths := congrArg List.length (sameJobs.symm.trans none)
        have count := owns.length_eq
        rw [isJobs,length_append] at lengths
        rw [isList,length_cons] at count
        dsimp only at lengths
        omega
      · rintro (nothing | ⟨_,compares,_⟩)
        · exact notFirst nothing
        · exact nomatch persists.mpr compares
    · rw [persisted] at sameJobs sameRuns persists ⊢
      dsimp only at sameJobs sameRuns ⊢
      have some : prepared.map (·.config) ≠ [] := by
        rw [← jobConfigs]
        have count := owns.length_eq
        rw [isList,length_cons] at count
        exact ne_nil_of_length_pos (by rw [length_map]; omega)
      have right := @shared_right_iff tools _ some
      rw [map_map] at right
      rw [← configs,← right,← jobConfigs]
      constructor
      · rintro ⟨other,others,isOther,isJobsToo,_,_,shares⟩
        have same : others = jobs := append_cancel_left (isJobsToo.symm.trans (sameJobs.trans isJobs))
        rw [same] at shares
        exact .inr ⟨noFailure,persists.mp rfl,shares⟩
      · rintro (nothing | ⟨_,_,shares⟩)
        · exact absurd nothing notFirst
        · exact ⟨base,jobs,reads.reads,sameJobs.trans isJobs,owns,sameRuns.trans isRuns,shares⟩
  · rw [looped]
    dsimp only
    rw [or_iff_left]
    · exact inTime
    · rintro ⟨works,_⟩
      rw [Nat.zero_add] at failed
      exact works place failing listed failed

/-- The variant lab queues all or nothing exactly if nothing fails late. -/
theorem all_or_nothing_iff {calls : Calls} {arguments : Arguments} {lab : Lab} (fresh : Fresh lab) :
    AllOrNothing tools enabled calls arguments lab ↔ NothingFailsLate tools enabled calls arguments := by
  by_cases read : ∃ base, Reads tools enabled arguments base
  · obtain ⟨base,reads⟩ := read
    rw [reads_iff fresh reads]
    constructor
    · intro inTime other otherReads
      have same : other = base := Option.some.inj (otherReads.reads.symm.trans reads.reads)
      rw [same]
      exact inTime
    · intro inTime
      exact inTime base reads
  · have unread : ∀ base, ¬Reads tools enabled arguments base := fun base reads => read ⟨base,reads⟩
    rw [AllOrNothing,call_unread unread]
    exact iff_of_true ⟨rfl,rfl⟩ fun base reads => absurd reads (unread base)

def allDone : Calls := ⟨fun _ => ⟨.done,.done,.done,.done,.done,.done,.done⟩,.done,.done,.done⟩
def emptyLab : Lab := ⟨0,[],[],[],[],[],[],1⟩
/-- A variant with a source, and one that has the source of the arguments. -/
def twoVariants (pineCode : Option Text) : Arguments where
  prompt := text "compare"
  strategySpec := ⟨text "strategy",[]⟩
  pineCode
  baseBacktestConfig := noOverrides
  variants := [⟨text "first",none,some (text "strategy()"),none⟩,⟨text "second",none,none,none⟩]

/-- Without a source for the second variant the first stays queued. -/
theorem first_variant_left : ¬AllOrNothing sampleTools true allDone (twoVariants none) emptyLab := by
  intro all
  have raised : (callVariantLab sampleTools true allDone (twoVariants none) emptyLab).2.isNone := by decide +kernel
  have left : (callVariantLab sampleTools true allDone (twoVariants none) emptyLab).1.jobs ≠ [] := by decide +kernel
  rw [AllOrNothing] at all
  rcases ran : callVariantLab sampleTools true allDone (twoVariants none) emptyLab with ⟨last,_ | result⟩
  · rw [ran] at all left
    exact left all.1
  · rw [ran] at raised
    cases raised

theorem both_variants_queued : AllOrNothing sampleTools true allDone (twoVariants (some (text "strategy()"))) emptyLab := by
  have fresh : Fresh emptyLab := forall_mem_nil _
  refine (all_or_nothing_iff fresh).mpr ?_
  intro base reads
  have isBase : normalizeBacktestConfig sampleTools.toRuntime true noOverrides = some backtestDefaultConfig := by decide +kernel
  have same : base = backtestDefaultConfig := Option.some.inj (reads.reads.symm.trans isBase)
  have configs : (twoVariants (some (text "strategy()"))).variants.filterMap
      (variantConfig sampleTools true backtestDefaultConfig) = [backtestDefaultConfig,backtestDefaultConfig] := by decide +kernel
  refine .inr ⟨?_,⟨by decide,by decide,fun _ => by decide⟩,?_⟩
  · intro index variant listed fails
    have hasSource : ∀ variant ∈ (twoVariants (some (text "strategy()"))).variants,
        requiredPine sampleTools (variant.source (twoVariants (some (text "strategy()"))))
          (variant.spec (twoVariants (some (text "strategy()")))) ≠ none := by decide +kernel
    rcases fails with noSource | noRun | noSpec | noJob | noEvent | noEvent
    · exact hasSource variant (mem_of_getElem? listed) noSource
    · exact noRun rfl
    · cases noSpec
    · exact noJob rfl
    · cases noEvent
    · cases noEvent
  · rw [same,configs]
    intro _ first listed second alsoListed
    simp only [mem_cons,not_mem_nil,or_false,or_self] at listed alsoListed
    rw [listed,alsoListed]
    exact ⟨rfl,rfl,rfl⟩
end Codebot.VariantLabs
