import Codebot.BacktestWorker
import Codebot.ArtifactStore

/-!
The artifacts of a backtest. An attempt inserts the rows of its artifacts in one transaction and writes the index of
the run in another; one that fails after the first leaves its rows to an attempt that starts over
(`artifacts_once_iff`).
-/
namespace Codebot.BacktestArtifacts
open Runs JobTable BacktestWorker List
open ArtifactStore (Key)

/-- The properties of the object that `writeBacktestArtifacts` returns. -/
inductive Entry
  | plan
  | dashboard
  | report
  | trades
  | equityCurve
  | cacheManifest
  | ohlcvMetadata
  | sourceBundle
  | metadata
  | pine
  | pineforgeCompile
  | pineforgeRunnerManifest
deriving DecidableEq

structure ArtifactSpec where
  kind : String
  mimeType : String
  displayName : String
deriving DecidableEq
def artifact (kind displayName : String) : ArtifactSpec := ⟨kind,"application/json",displayName⟩
def textArtifact (kind displayName : String) : ArtifactSpec := ⟨kind,"text/plain",displayName⟩

def Entry.spec : Entry → ArtifactSpec
  | .plan => artifact "backtest_plan" "backtest_plan.json"
  | .dashboard => artifact "backtest_dashboard" "backtest-dashboard.json"
  | .report => artifact "backtest_report" "backtest-report.json"
  | .trades => artifact "backtest_trades" "trades.json"
  | .equityCurve => artifact "backtest_equity_curve" "equity-curve.json"
  | .cacheManifest => artifact "market_data_cache_manifest" "candle-cache-manifest.json"
  | .ohlcvMetadata => artifact "market_data_ohlcv_metadata" "ohlcv-metadata.json"
  | .sourceBundle => artifact "backtest_source_bundle" "strategy-adapter-source.json"
  | .metadata => artifact "backtest_run_metadata" "run-metadata.json"
  | .pine => textArtifact "pine_strategy_source" "strategy.pine"
  | .pineforgeCompile => artifact "pineforge_compile_report" "pineforge-compile.json"
  | .pineforgeRunnerManifest => artifact "pineforge_runner_manifest" "pineforge-runner-manifest.json"

def Entry.storageKey (runId : Nat) (entry : Entry) : Key := ⟨runId,entry.spec.displayName⟩
/-- The entries, without and with a Pine code in the source bundle. -/
def entries (pineCode : Bool) : List Entry :=
  [.plan,.dashboard,.report,.trades,.equityCurve,.cacheManifest,.ohlcvMetadata,.sourceBundle,.metadata] ++
    if pineCode then [.pine,.pineforgeCompile,.pineforgeRunnerManifest] else []
/-- A row of `artifacts`. -/
structure ArtifactRow where
  id : Nat
  runId : Nat
  spec : ArtifactSpec
  storageKey : Key
deriving DecidableEq
/-- What a row of `artifacts` is of. -/
def ArtifactRow.of (row : ArtifactRow) : Nat × Key := (row.runId,row.storageKey)
/-- The entries that `artifact_manifest_json` names. -/
def manifestEntries : List Entry := [.report,.trades,.equityCurve,.cacheManifest]
/-- A row of `backtest_runner_stats`; the run is unique in the table. -/
structure IndexRow where
  runId : Nat
  manifest : List Key
deriving DecidableEq
/-- `INSERT … ON CONFLICT (run_id) DO UPDATE`. -/
def upsert (rows : List IndexRow) (row : IndexRow) : List IndexRow :=
  if rows.any (·.runId == row.runId) then
    rows.map fun old => if old.runId = row.runId then { old with manifest := row.manifest } else old
  else rows ++ [row]

/-- Where a worker is between the second `getRun` of `processJob` and `completeJob`. -/
inductive Stage
  /-- Elsewhere, or before `writeBacktestArtifacts`. -/
  | outside
  /-- The files of these entries are still to write. -/
  | writing (job : RunJobRow) (entries missing : List Entry)
  /-- After the commit of `persistArtifacts`. -/
  | indexing (job : RunJobRow)
  /-- After the commit of `persistBacktestIndexes`. -/
  | indexed
deriving DecidableEq

structure State (workers requests : Nat) where
  world : World workers requests
  stage : Fin workers → Stage
  files : List Key
  artifacts : List ArtifactRow
  nextId : Nat
  indexes : List IndexRow

inductive Label (workers requests : Nat)
  | world (label : BacktestWorker.Label workers requests)
  /-- `writeBacktestArtifacts` begins with what the execution returned. -/
  | begin (w : Fin workers) (pineCode : Bool)
  | writeArtifactFile (w : Fin workers) (entry : Entry)
  | persistArtifacts (w : Fin workers)
  | persistBacktestIndexes (w : Fin workers)
deriving DecidableEq

variable {workers requests : Nat}
def State.enter (s : State workers requests) (w : Fin workers) (stage : Stage) : State workers requests :=
  { s with stage := Function.update s.stage w stage }
def artifactEntries (nextId runId : Nat) (entries : List Entry) : List ArtifactRow :=
  entries.mapIdx fun index entry => ⟨nextId + index,runId,entry.spec,entry.storageKey runId⟩

/-- A worker completes its job only after both transactions. It may raise or die at any point. -/
def settle (s : State workers requests) (world : World workers requests) :
    BacktestWorker.Label workers requests → Option (State workers requests)
  | .work w outcome =>
    match s.world.worker w, outcome with
    | .persisting _, .ok => if s.stage w = .indexed then some { (s.enter w .outside) with world } else none
    | _, _ => some { (s.enter w .outside) with world }
  | _ => some { s with world }

def step (settings : Settings) (s : State workers requests) : Label workers requests → Option (State workers requests)
  | .world label => (BacktestWorker.step settings s.world label).bind fun world => settle s world label
  | .begin w pineCode =>
    match s.world.worker w, s.stage w with
    | .persisting job, .outside => some (s.enter w (.writing job (entries pineCode) (entries pineCode)))
    | _, _ => none
  | .writeArtifactFile w entry =>
    match s.stage w with
    | .writing job entries missing =>
      if entry ∈ missing then
        some { (s.enter w (.writing job entries (missing.erase entry))) with files := entry.storageKey job.runId :: s.files }
      else none
    | _ => none
  | .persistArtifacts w =>
    match s.stage w with
    | .writing job entries [] =>
      some { (s.enter w (.indexing job)) with
        artifacts := s.artifacts ++ artifactEntries s.nextId job.runId entries, nextId := s.nextId + entries.length }
    | _ => none
  | .persistBacktestIndexes w =>
    match s.stage w with
    | .indexing job =>
      some { (s.enter w .indexed) with
        indexes := upsert s.indexes ⟨job.runId,manifestEntries.map (Entry.storageKey job.runId)⟩ }
    | _ => none

def initial (workers requests : Nat) : State workers requests :=
  ⟨BacktestWorker.initial workers requests,fun _ => .outside,[],[],0,[]⟩
def Exists (s : State workers requests) (runId : Nat) (key : Key) : Prop :=
  key ∈ s.files ∧ (runId,key) ∈ s.artifacts.map ArtifactRow.of
/-- One row at most for a run and a storage key, and the indexed keys are those of artifacts. -/
structure Consistent (s : State workers requests) : Prop where
  once : (s.artifacts.map ArtifactRow.of).Nodup
  refers : ∀ row ∈ s.indexes, ∀ key ∈ row.manifest, Exists s row.runId key
/-- The attempt that is to insert its rows is the first one of its run that does. -/
def FirstAttempt (s : State workers requests) : Label workers requests → Prop
  | .persistArtifacts w => ∀ job entries, s.stage w = .writing job entries [] → ∀ row ∈ s.artifacts, row.runId ≠ job.runId
  | _ => True
/-- A run that has artifacts has its plan; what is not missing is written, and what is to be
    indexed is inserted. -/
structure Sound (s : State workers requests) : Prop extends Consistent s where
  plan : ∀ row ∈ s.artifacts, (row.runId,Entry.plan.storageKey row.runId) ∈ s.artifacts.map ArtifactRow.of
  written : ∀ w job listed missing, s.stage w = .writing job listed missing → (∃ pineCode, listed = entries pineCode) ∧
    ∀ entry ∈ listed, entry ∈ missing ∨ entry.storageKey job.runId ∈ s.files
  inserted : ∀ w job, s.stage w = .indexing job → ∀ entry ∈ manifestEntries, Exists s job.runId (entry.storageKey job.runId)
theorem storageKey_injective (runId : Nat) : Function.Injective (Entry.storageKey runId) := by
  intro one other same
  have named : one.spec.displayName = other.spec.displayName := congrArg Key.path same
  revert named
  cases one <;> cases other <;> decide
theorem entries_nodup (pineCode : Bool) : (entries pineCode).Nodup := by
  cases pineCode <;> decide
theorem plan_listed (pineCode : Bool) : Entry.plan ∈ entries pineCode := mem_cons_self
theorem manifest_listed (pineCode : Bool) : manifestEntries ⊆ entries pineCode := by
  cases pineCode <;> decide
theorem artifactEntries_of (nextId runId : Nat) (listed : List Entry) :
    (artifactEntries nextId runId listed).map ArtifactRow.of = listed.map fun entry => (runId,entry.storageKey runId) := by
  refine ext_getElem (by simp [artifactEntries]) ?_
  intro index _ _
  simp [artifactEntries,ArtifactRow.of]

variable {runId : Nat}
variable {listed : List Entry} {nextId : Nat}
theorem artifactEntries_run {row : ArtifactRow}
    (member : row ∈ artifactEntries nextId runId listed) : row.runId = runId := by
  obtain ⟨index,_,rfl⟩ := mem_mapIdx.mp member
  rfl
theorem artifactEntries_nodup (nextId runId : Nat) (pineCode : Bool) :
    ((artifactEntries nextId runId (entries pineCode)).map ArtifactRow.of).Nodup := by
  rw [artifactEntries_of]
  refine (entries_nodup pineCode).map ?_
  intro one other same
  exact storageKey_injective runId (Prod.mk.inj same).2

theorem mem_upsert {rows : List IndexRow} {new row : IndexRow} (member : row ∈ upsert rows new) : row ∈ rows ∨ row = new := by
  unfold upsert at member
  split at member
  · obtain ⟨old,isOld,same⟩ := mem_map.mp member
    split at same
    · rename_i ofRun
      right
      rw [← same,ofRun]
    · exact .inl (same ▸ isOld)
  · rcases mem_append.mp member with old | added
    · exact .inl old
    · exact .inr (mem_singleton.mp added)

variable {settings : Settings} {s t : State workers requests}
variable {w : Fin workers}

theorem enter_stage {other : Fin workers} {stage at_ : Stage} (reached : (s.enter w stage).stage other = at_) :
    (other = w ∧ stage = at_) ∨ s.stage other = at_ := by
  change Function.update s.stage w stage other = at_ at reached
  by_cases same : other = w
  · subst same
    rw [Function.update_self] at reached
    exact .inl ⟨rfl,reached⟩
  · rw [Function.update_of_ne same] at reached
    exact .inr reached

theorem exists_later {key : Key} (files : s.files ⊆ t.files) (artifacts : s.artifacts ⊆ t.artifacts)
    (there : Exists s runId key) : Exists t runId key :=
  ⟨files there.1,map_subset _ artifacts there.2⟩

variable {label : BacktestWorker.Label workers requests}

theorem settle_spec {world : World workers requests}
    (settled : settle s world label = some t) : (t.files = s.files ∧ t.artifacts = s.artifacts ∧ t.indexes = s.indexes) ∧
      ∀ w, t.stage w = .outside ∨ t.stage w = s.stage w := by
  have left : ∀ (w other : Fin workers), (s.enter w .outside).stage other = .outside ∨
      (s.enter w .outside).stage other = s.stage other := by
    intro w other
    have reached : (s.enter w .outside).stage other = (s.enter w .outside).stage other := rfl
    rcases enter_stage reached with ⟨_,ended⟩ | same
    · exact .inl ended.symm
    · exact .inr same.symm
  unfold settle at settled
  split at settled
  · rename_i w outcome
    split at settled
    · split at settled
      · cases settled
        exact ⟨⟨rfl,rfl,rfl⟩,left w⟩
      · cases settled
    · cases settled
      exact ⟨⟨rfl,rfl,rfl⟩,left w⟩
  · cases settled
    exact ⟨⟨rfl,rfl,rfl⟩,fun _ => .inr rfl⟩

theorem sound_settle {world : World workers requests}
    (sound : Sound s) (settled : settle s world label = some t) : Sound t := by
  obtain ⟨⟨files,artifacts,indexes⟩,stages⟩ := settle_spec settled
  have there : ∀ {runId : Nat} {key : Key}, Exists s runId key → Exists t runId key :=
    exists_later (files ▸ List.Subset.refl _) (artifacts ▸ List.Subset.refl _)
  refine ⟨⟨artifacts ▸ sound.once,?_⟩,artifacts ▸ sound.plan,?_,?_⟩
  · intro row member key named
    exact there (sound.refers row (indexes ▸ member) key named)
  · intro w job listed missing reached
    rw [files]
    rcases stages w with ended | same
    · rw [ended] at reached
      cases reached
    · exact sound.written w job listed missing (same ▸ reached)
  · intro w job reached entry isNamed
    rcases stages w with ended | same
    · rw [ended] at reached
      cases reached
    · exact there (sound.inserted w job (same ▸ reached) entry isNamed)

theorem sound_begin {pineCode : Bool} (sound : Sound s)
    (stepped : step settings s (.begin w pineCode) = some t) : Sound t := by
  simp only [step] at stepped
  split at stepped
  · rename_i job _ _
    cases stepped
    refine ⟨⟨sound.once,sound.refers⟩,sound.plan,?_,?_⟩
    · intro other at_ listed missing reached
      rcases enter_stage reached with ⟨_,same⟩ | before
      · cases same
        exact ⟨⟨pineCode,rfl⟩,fun entry isListed => .inl isListed⟩
      · exact sound.written other at_ listed missing before
    · intro other at_ reached
      rcases enter_stage reached with ⟨_,same⟩ | before
      · cases same
      · exact sound.inserted other at_ before
  · cases stepped

theorem sound_writeArtifactFile {entry : Entry} (sound : Sound s)
    (stepped : step settings s (.writeArtifactFile w entry) = some t) : Sound t := by
  simp only [step] at stepped
  split at stepped
  · rename_i job entries missing writing
    split at stepped
    · cases stepped
      have there : ∀ {runId : Nat} {key : Key}, Exists s runId key →
          Exists { (s.enter w (.writing job entries (missing.erase entry))) with
            files := entry.storageKey job.runId :: s.files } runId key :=
        exists_later (subset_cons_self ..) (List.Subset.refl _)
      refine ⟨⟨sound.once,fun row member key named => there (sound.refers row member key named)⟩,sound.plan,?_,?_⟩
      · intro other at_ listed still reached
        rcases enter_stage reached with ⟨_,same⟩ | before
        · cases same
          obtain ⟨isEntries,each⟩ := sound.written w job entries missing writing
          refine ⟨isEntries,?_⟩
          intro one isListed
          by_cases isNew : one = entry
          · exact .inr (isNew ▸ mem_cons_self)
          · rcases each one isListed with lacks | isWritten
            · exact .inl ((mem_erase_of_ne isNew).mpr lacks)
            · exact .inr (mem_cons_of_mem _ isWritten)
        · obtain ⟨isEntries,each⟩ := sound.written other at_ listed still before
          exact ⟨isEntries,fun one isListed => (each one isListed).imp_right (mem_cons_of_mem _)⟩
      · intro other at_ reached one named
        rcases enter_stage reached with ⟨_,same⟩ | before
        · cases same
        · exact there (sound.inserted other at_ before one named)
    · cases stepped
  · cases stepped

theorem persisted_of : (s.artifacts ++ artifactEntries nextId runId listed).map ArtifactRow.of =
    s.artifacts.map ArtifactRow.of ++ listed.map fun entry => (runId,entry.storageKey runId) := by
  rw [map_append,artifactEntries_of]

theorem sound_persistArtifacts (sound : Sound s) (first : FirstAttempt s (.persistArtifacts w))
    (stepped : step settings s (.persistArtifacts w) = some t) : Sound t := by
  simp only [step] at stepped
  split at stepped
  · rename_i job listed writing
    cases stepped
    obtain ⟨⟨pineCode,rfl⟩,each⟩ := sound.written w job listed [] writing
    have none := first job _ writing
    have there : ∀ {runId : Nat} {key : Key}, Exists s runId key →
        Exists { (s.enter w (.indexing job)) with
          artifacts := s.artifacts ++ artifactEntries s.nextId job.runId (entries pineCode)
          nextId := s.nextId + (entries pineCode).length } runId key :=
      exists_later (List.Subset.refl _) (subset_append_left ..)
    refine ⟨⟨?_,fun row member key named => there (sound.refers row member key named)⟩,?_,?_,?_⟩
    · -- the rows that were there are of other runs
      rw [map_append]
      refine List.Nodup.append sound.once (artifactEntries_nodup ..) ?_
      intro of before added
      obtain ⟨old,isOld,rfl⟩ := mem_map.mp before
      obtain ⟨new,isNew,same⟩ := mem_map.mp added
      exact none old isOld ((Prod.mk.inj same).1 ▸ artifactEntries_run isNew)
    · intro row member
      rcases mem_append.mp member with old | new
      · exact map_subset _ (subset_append_left ..) (sound.plan row old)
      · rw [artifactEntries_run new,persisted_of]
        exact mem_append_right _ (mem_map.mpr ⟨.plan,plan_listed pineCode,rfl⟩)
    · intro other at_ still missing reached
      rcases enter_stage reached with ⟨_,same⟩ | before
      · cases same
      · exact sound.written other at_ still missing before
    · intro other at_ reached entry named
      rcases enter_stage reached with ⟨_,same⟩ | before
      · cases same
        have isListed := manifest_listed pineCode named
        refine ⟨(each entry isListed).resolve_left not_mem_nil,?_⟩
        rw [persisted_of]
        exact mem_append_right _ (mem_map.mpr ⟨entry,isListed,rfl⟩)
      · exact there (sound.inserted other at_ before entry named)
  · cases stepped

theorem sound_persistBacktestIndexes (sound : Sound s)
    (stepped : step settings s (.persistBacktestIndexes w) = some t) : Sound t := by
  simp only [step] at stepped
  split at stepped
  · rename_i job indexing
    cases stepped
    refine ⟨⟨sound.once,?_⟩,sound.plan,?_,?_⟩
    · intro row member key named
      rcases mem_upsert member with old | rfl
      · exact sound.refers row old key named
      · obtain ⟨entry,isEntry,rfl⟩ := mem_map.mp named
        exact sound.inserted w job indexing entry isEntry
    · intro other at_ listed missing reached
      rcases enter_stage reached with ⟨_,same⟩ | before
      · cases same
      · exact sound.written other at_ listed missing before
    · intro other at_ reached entry named
      rcases enter_stage reached with ⟨_,same⟩ | before
      · cases same
      · exact sound.inserted other at_ before entry named
  · cases stepped

theorem sound_step (s : State workers requests) (label : Label workers requests) (t : State workers requests)
    (sound : Sound s) (first : FirstAttempt s label) (stepped : step settings s label = some t) : Sound t := by
  cases label with
  | world label =>
    obtain ⟨world,_,settled⟩ := Option.bind_eq_some_iff.mp stepped
    exact sound_settle sound settled
  | begin w pineCode => exact sound_begin sound stepped
  | writeArtifactFile w entry => exact sound_writeArtifactFile sound stepped
  | persistArtifacts w => exact sound_persistArtifacts sound first stepped
  | persistBacktestIndexes w => exact sound_persistBacktestIndexes sound stepped

theorem firstAttempt_of_consistent (sound : Sound s)
    (consistent : ∀ t, step settings s (.persistArtifacts w) = some t → Consistent t) : FirstAttempt s (.persistArtifacts w) := by
  intro job listed writing row member ofRun
  obtain ⟨⟨pineCode,rfl⟩,_⟩ := sound.written w job listed [] writing
  have once := (consistent _ (by simp only [step,writing]; rfl)).once
  rw [persisted_of] at once
  have planned := sound.plan row member
  rw [ofRun] at planned
  exact (disjoint_of_nodup_append once) planned (mem_map.mpr ⟨.plan,plan_listed pineCode,rfl⟩)

/-- In a run the artifacts are consistent in every state exactly if each attempt that inserts its
    artifacts is the first one of its run that does. -/
theorem artifacts_once_iff (settings : Settings) (labels : List (Label workers requests)) :
    (∀ before after t, labels = before ++ after → run (step settings) (initial workers requests) before = some t →
        Consistent t) ↔
      Meets (step settings) FirstAttempt (initial workers requests) labels := by
  have start : Sound (initial workers requests) := by
    refine ⟨⟨nodup_nil,?_⟩,?_,?_,?_⟩
    · exact fun _ member => absurd member not_mem_nil
    · exact fun _ member => absurd member not_mem_nil
    · exact fun _ _ _ _ reached => nomatch reached
    · exact fun _ _ reached => nomatch reached
  refine secures_iff (fun _ sound => sound.toConsistent) sound_step ?_ start
  intro s label sound consistent
  cases label with
  | persistArtifacts w => exact firstAttempt_of_consistent sound consistent
  | _ => trivial

def sampleSettings : Settings := ⟨60,60,2,1⟩
/-- An attempt from its claim until its artifacts are inserted. -/
def attempt (w : Fin 1) : List (Label 1 0) :=
  [.world (.claim w),.world (.take w []),.world (.work w .ok),.world (.work w .ok),.world (.work w .ok),.world (.work w .ok),
    .world (.work w .ok),.begin w false] ++ (entries false).map (.writeArtifactFile w) ++ [.persistArtifacts w]
/-- The index is not written, the job is queued again, and the next attempt inserts the artifacts again. -/
def twoAttempts (w : Fin 1) : List (Label 1 0) :=
  [.world (.createRun 0),.world (.createRunJob ⟨0,0,0,.backtestPreview,.missing,none,3⟩)] ++ attempt w ++
    [.world (.work w (.raised .workerError)),.world (.work w .ok),.world (.work w .ok),.world (.work w .ok)] ++ attempt w

theorem artifacts_twice : ¬ ∀ (labels : List (Label 1 0)) (t : State 1 0),
    run (step sampleSettings) (initial 1 0) labels = some t → Consistent t := by
  intro all
  have ends : (run (step sampleSettings) (initial 1 0) (twoAttempts 0)).isSome := by decide +kernel
  have twice : ∀ t ∈ run (step sampleSettings) (initial 1 0) (twoAttempts 0), ¬(t.artifacts.map ArtifactRow.of).Nodup := by
    decide +kernel
  obtain ⟨t,reached⟩ := Option.isSome_iff_exists.mp ends
  exact twice t reached (all (twoAttempts 0) t reached).once

end Codebot.BacktestArtifacts
