import Codebot.Runs
import Codebot.SegmentCovers

/-!
Concurrent fills of the candle cache. A fill holds the lock of its lock key while it reads a manifest, writes segments
and writes the manifest anew. But the lock key has the symbols and the timeframe as they are spelled, the path of the
manifest only their tokens (`segments_kept`).
-/
namespace Codebot.CacheFills
open Texts Timeframes Series CandleFetches CandleCache SegmentCovers List Function
open Runs (run run_keeps run_relates run_append_some run_cons_some Meets meets_append)
set_option linter.unusedSectionVars false

/-- What the lock key is a checksum of. -/
structure LockKey where
  symbol : Text
  dataset : Dataset
deriving DecidableEq
def rangeCacheLockKey (request : Request) : LockKey := ⟨request.symbol,request.dataset⟩
/-- Where a fill is that has the lock: the windows or groups still to do and the segments of its manifest. -/
inductive Phase (Price : Type)
  | locked
  | storing (windows : List (Span Int × List (Candle Price))) (stored : List (RangeCacheSegment Price))
  | merging (stored : List (RangeCacheSegment Price)) (groups : List (List (RangeCacheSegment Price)))
      (compacted : List (RangeCacheSegment Price))
  | leaving
structure Fill (Price : Type) where
  request : Request
  phase : Phase Price
/-- The files, the lock of each key and the fills that have one. -/
structure State (Worker Price : Type) where
  store : Store Price
  locks : LockKey → Option Worker
  fills : Worker → Option (Fill Price)

/-- A fill fetches from what the provider is at that time; it may fail at any point. -/
inductive Label (Worker Price : Type)
  | acquire (worker : Worker) (request : Request)
  | cover (worker : Worker) (provider : Provider Price)
  | store (worker : Worker)
  | readIndex (worker : Worker)
  | merge (worker : Worker)
  | commit (worker : Worker)
  | fail (worker : Worker)
  | release (worker : Worker)

section
variable {Worker Price : Type} [DecidableEq Worker]

def State.move (s : State Worker Price) (worker : Worker) (request : Request) (phase : Phase Price) (store : Store Price) :
    State Worker Price :=
  { s with store, fills := Function.update s.fills worker (some ⟨request,phase⟩) }
def segmentsOf (store : Store Price) (dataset : Dataset) : List (RangeCacheSegment Price) :=
  ((store.index (indexKey dataset)).map (·.segments)).getD []

/-- The update, once the manifest has been read: the segments are pruned and sorted, and one of the
    policies merges them. -/
def planned [LinearOrder Price] (settings : Settings Price) (store : Store Price) (request : Request)
    (stored : List (RangeCacheSegment Price)) : Phase Price :=
  let pruned := stored.foldl (pruneCoveredRangeCacheSegments request.stepMs) (segmentsOf store request.dataset)
  let sorted := ordered (·.rangeStart) (pruned.filter fun segment => segment.stepMs = request.stepMs)
  match settings.policy with
  | .monthly => .merging stored [] sorted
  | .legacyMerge => .merging stored (contiguousGroups sorted) []

/-- The manifest is written from what was read and merged, in place of what is there now. -/
def written (settings : Settings Price) (store : Store Price) (dataset : Dataset) (compacted : List (RangeCacheSegment Price)) :
    Store Price :=
  let segments :=
    match settings.policy with
    | .monthly => compacted
    | .legacyMerge => ordered (·.rangeStart) compacted
  { store with index := Function.update store.index (indexKey dataset) (some ⟨dataset,segments⟩) }

/-- The steps of `getOrFillPublicCandleCacheV2` from the lock to its release. -/
def step [LinearOrder Price] (settings : Settings Price) (s : State Worker Price) : Label Worker Price → Option (State Worker Price)
  | .acquire worker request =>
    match s.fills worker, s.locks (rangeCacheLockKey request) with
    | none, none =>
      some { (s.move worker request .locked s.store) with
        locks := Function.update s.locks (rangeCacheLockKey request) (some worker) }
    | _, _ => none
  | .cover worker provider =>
    match s.fills worker with
    | some ⟨request,.locked⟩ =>
      match readRangeCacheCoverage s.store request.dataset request.stepMs request.requested with
      | none => some (s.move worker request .leaving s.store)
      | some winner =>
        if winner.complete then some (s.move worker request .leaving s.store)
        else
          let windows := fetchWindows settings provider request.dataset request.stepMs winner.missingIntervals
          some (s.move worker request (.storing windows []) s.store)
    | _ => none
  | .store worker =>
    match s.fills worker with
    | some ⟨request,.storing (window :: windows) stored⟩ =>
      match storeWindow settings request.symbol request.dataset request.stepMs s.store window with
      | (store,some more) => some (s.move worker request (.storing windows (stored ++ more.map (·.1))) store)
      | (store,none) => some (s.move worker request .leaving store)
    | _ => none
  | .readIndex worker =>
    match s.fills worker with
    | some ⟨request,.storing [] stored⟩ =>
      if stored.isEmpty then some (s.move worker request .leaving s.store)
      else some (s.move worker request (planned settings s.store request stored) s.store)
    | _ => none
  | .merge worker =>
    match s.fills worker with
    | some ⟨request,.merging stored (group :: groups) compacted⟩ =>
      match mergeContiguousRangeCacheGroup settings request.symbol request.dataset request.stepMs s.store group with
      | (store,some more) => some (s.move worker request (.merging stored groups (compacted ++ more)) store)
      | (store,none) => some (s.move worker request .leaving store)
    | _ => none
  | .commit worker =>
    match s.fills worker with
    | some ⟨request,.merging _ [] compacted⟩ =>
      some (s.move worker request .leaving (written settings s.store request.dataset compacted))
    | _ => none
  | .fail worker => (s.fills worker).map fun fill => s.move worker fill.request .leaving s.store
  | .release worker =>
    match s.fills worker with
    | some ⟨request,.leaving⟩ =>
      some { s with
        locks := Function.update s.locks (rangeCacheLockKey request) none
        fills := Function.update s.fills worker none }
    | _ => none

def initial (store : Store Price) : State Worker Price := ⟨store,fun _ => none,fun _ => none⟩
def Phase.added : Phase Price → List (RangeCacheSegment Price)
  | .merging stored _ _ => stored
  | _ => []
/-- A segment that an update has added is in the manifest from then on, or a segment that covers it is. -/
def SegmentsKept [LinearOrder Price] (settings : Settings Price) (store : Store Price) (labels : List (Label Worker Price)) : Prop :=
  ∀ before middle after worker mid fill next last, labels = before ++ .commit worker :: (middle ++ after) →
    run (step settings) (initial store) before = some mid → mid.fills worker = some fill →
    step settings mid (.commit worker) = some next → run (step settings) next middle = some last →
    ∀ segment ∈ fill.phase.added, ∃ later ∈ segmentsOf last.store fill.request.dataset,
      rangeCacheSegmentCovers later segment = true
/-- A fill that takes its lock finds no other at its manifest that has the lock of another key. -/
def Aligned (s : State Worker Price) : Label Worker Price → Prop
  | .acquire _ request => ∀ other fill, s.fills other = some fill →
      indexKey fill.request.dataset = indexKey request.dataset → rangeCacheLockKey fill.request = rangeCacheLockKey request
  | _ => True
/-- What a fill has written is as it should be, and its update keeps all that is in the manifest. -/
def Ready (store : Store Price) (fill : Fill Price) : Prop :=
  match fill.phase with
  | .storing _ stored => ∀ segment ∈ stored, Written fill.request.stepMs segment
  | .merging stored groups compacted => (∀ segment ∈ stored, Written fill.request.stepMs segment) ∧
      AllKept fill.request.stepMs (segmentsOf store fill.request.dataset ++ stored) (compacted ++ groups.flatten)
  | _ => True
/-- A fill has its lock, and no other is at its manifest. -/
structure Sound (s : State Worker Price) : Prop where
  locked : ∀ worker fill, s.fills worker = some fill → s.locks (rangeCacheLockKey fill.request) = some worker
  alone : ∀ worker other fill fill', s.fills worker = some fill → s.fills other = some fill' →
    indexKey fill.request.dataset = indexKey fill'.request.dataset → worker = other
  ready : ∀ worker fill, s.fills worker = some fill → Ready s.store fill
def Keeps (s t : State Worker Price) : Prop :=
  ∀ dataset : Dataset, AllKept (timeframeToMs dataset.timeframe) (segmentsOf s.store dataset) (segmentsOf t.store dataset)

variable {settings : Settings Price} {s t : State Worker Price}
variable {fill : Fill Price} {store' : Store Price}
theorem ready_congr {store : Store Price}
    (same : segmentsOf store' fill.request.dataset = segmentsOf store fill.request.dataset) :
    Ready store' fill ↔ Ready store fill := by
  unfold Ready
  rw [same]
theorem segmentsOf_index {store : Store Price} (same : store'.index = store.index) (dataset : Dataset) :
    segmentsOf store' dataset = segmentsOf store dataset := by
  rw [segmentsOf,same,segmentsOf]

/-- How a fill goes on: in a way that stays as it should be, and the manifest is as it was or
    keeps what it had. -/
structure Advances (s : State Worker Price) (worker : Worker) (fill : Fill Price) (phase : Phase Price) (store : Store Price) :
    Prop where
  filling : s.fills worker = some fill
  ready : Ready s.store fill → Ready store ⟨fill.request,phase⟩
  index : (∀ dataset, segmentsOf store dataset = segmentsOf s.store dataset) ∨
    (∀ dataset, indexKey dataset ≠ indexKey fill.request.dataset → segmentsOf store dataset = segmentsOf s.store dataset) ∧
      (Ready s.store fill → AllKept fill.request.stepMs (segmentsOf s.store fill.request.dataset ++ fill.phase.added)
        (segmentsOf store fill.request.dataset))

theorem advances_leaving {worker : Worker} (filling : s.fills worker = some fill) {store : Store Price}
    (same : store.index = s.store.index) : Advances s worker fill .leaving store :=
  ⟨filling,fun _ => trivial,.inl (segmentsOf_index same)⟩

variable {compacted : List (RangeCacheSegment Price)} {dataset : Dataset}

theorem segmentsOf_written {stepMs : Nat} {store : Store Price} :
    AllKept stepMs compacted (segmentsOf (written settings store dataset compacted) dataset) := by
  apply allKept_subset
  intro segment member _
  unfold segmentsOf written
  dsimp only
  rw [update_self]
  cases settings.policy with
  | monthly => exact member
  | legacyMerge => exact mem_ordered.mpr member

theorem segmentsOf_other {store : Store Price} {other : Dataset} (differs : indexKey other ≠ indexKey dataset) :
    segmentsOf (written settings store dataset compacted) other = segmentsOf store other := by
  unfold segmentsOf written
  dsimp only
  rw [update_of_ne differs]

section
variable [LinearOrder Price]

theorem planned_ready {store : Store Price} {request : Request} {stored : List (RangeCacheSegment Price)}
    (areWritten : ∀ segment ∈ stored, Written request.stepMs segment) :
    Ready store ⟨request,planned settings store request stored⟩ := by
  have sorted : AllKept request.stepMs (segmentsOf store request.dataset ++ stored)
      (ordered (·.rangeStart) ((stored.foldl (pruneCoveredRangeCacheSegments request.stepMs)
        (segmentsOf store request.dataset)).filter fun segment => segment.stepMs = request.stepMs)) := by
    refine allKept_trans (pruned_kept areWritten) (allKept_subset ?_)
    intro segment member step
    exact mem_ordered.mpr (mem_filter.mpr ⟨member,decide_eq_true step⟩)
  unfold planned
  cases settings.policy with
  | monthly => exact ⟨areWritten,by simpa using sorted⟩
  | legacyMerge =>
    refine ⟨areWritten,?_⟩
    dsimp only
    rw [contiguousGroups_flatten,nil_append]
    exact sorted

theorem step_cases {label : Label Worker Price} (stepped : step settings s label = some t) :
    (∃ worker request, label = .acquire worker request ∧ s.fills worker = none ∧ s.locks (rangeCacheLockKey request) = none ∧
      t = { (s.move worker request .locked s.store) with
        locks := Function.update s.locks (rangeCacheLockKey request) (some worker) }) ∨
    (∃ worker fill, s.fills worker = some fill ∧ t = { s with
        locks := Function.update s.locks (rangeCacheLockKey fill.request) none
        fills := Function.update s.fills worker none }) ∨
    ∃ worker fill phase store, Advances s worker fill phase store ∧ t = s.move worker fill.request phase store := by
  cases label with
  | acquire worker request =>
    simp only [step] at stepped
    split at stepped
    · rename_i idle free
      cases stepped
      exact .inl ⟨worker,request,rfl,idle,free,rfl⟩
    · cases stepped
  | cover worker provider =>
    simp only [step] at stepped
    split at stepped
    · rename_i request filling
      split at stepped
      · cases stepped
        exact .inr (.inr ⟨worker,_,_,_,advances_leaving filling rfl,rfl⟩)
      · split at stepped
        · cases stepped
          exact .inr (.inr ⟨worker,_,_,_,advances_leaving filling rfl,rfl⟩)
        · cases stepped
          refine .inr (.inr ⟨worker,⟨request,.locked⟩,_,_,?_,rfl⟩)
          exact ⟨filling,fun _ => forall_mem_nil _,.inl fun _ => rfl⟩
    · cases stepped
  | store worker =>
    simp only [step] at stepped
    split at stepped
    · rename_i request window windows stored filling
      split at stepped
      · rename_i store more ran
        cases stepped
        refine .inr (.inr ⟨worker,_,_,_,⟨filling,?_,.inl (segmentsOf_index (storeWindow_index ran))⟩,rfl⟩)
        intro ready segment member
        rcases mem_append.mp member with old | new
        · exact ready segment old
        · obtain ⟨entry,isEntry,rfl⟩ := mem_map.mp new
          exact storeWindow_written ran entry isEntry
      · rename_i store ran
        cases stepped
        exact .inr (.inr ⟨worker,_,_,_,advances_leaving filling (storeWindow_index ran),rfl⟩)
    · cases stepped
  | readIndex worker =>
    simp only [step] at stepped
    split at stepped
    · rename_i request stored filling
      split at stepped
      · cases stepped
        exact .inr (.inr ⟨worker,_,_,_,advances_leaving filling rfl,rfl⟩)
      · cases stepped
        exact .inr (.inr ⟨worker,_,_,_,⟨filling,planned_ready,.inl fun _ => rfl⟩,rfl⟩)
    · cases stepped
  | merge worker =>
    simp only [step] at stepped
    split at stepped
    · rename_i request stored group groups compacted filling
      split at stepped
      · rename_i store more ran
        cases stepped
        have same := merge_index ran
        refine .inr (.inr ⟨worker,_,_,_,⟨filling,?_,.inl (segmentsOf_index same)⟩,rfl⟩)
        rintro ⟨areWritten,all⟩
        refine ⟨areWritten,?_⟩
        dsimp only at all ⊢
        rw [segmentsOf_index same]
        rw [flatten_cons,← append_assoc] at all
        exact allKept_trans all (allKept_congr (allKept_congr (allKept_refl _) (merge_kept ran)) (allKept_refl _))
      · rename_i store ran
        cases stepped
        exact .inr (.inr ⟨worker,_,_,_,advances_leaving filling (merge_index ran),rfl⟩)
    · cases stepped
  | commit worker =>
    simp only [step] at stepped
    split at stepped
    · rename_i request stored compacted filling
      cases stepped
      refine .inr (.inr ⟨worker,⟨request,.merging stored [] compacted⟩,_,_,?_,rfl⟩)
      refine ⟨filling,fun _ => trivial,.inr ⟨fun _ => segmentsOf_other,?_⟩⟩
      rintro ⟨_,all⟩
      rw [flatten_nil,append_nil] at all
      exact allKept_trans all segmentsOf_written
    · cases stepped
  | fail worker =>
    obtain ⟨fill,filling,rfl⟩ := Option.map_eq_some_iff.mp stepped
    exact .inr (.inr ⟨worker,fill,_,_,advances_leaving filling rfl,rfl⟩)
  | release worker =>
    simp only [step] at stepped
    split at stepped
    · rename_i request filling
      cases stepped
      exact .inr (.inl ⟨worker,_,filling,rfl⟩)
    · cases stepped

theorem move_fills {worker other : Worker} {request : Request} {phase : Phase Price} {store : Store Price} {fill : Fill Price}
    (filling : (s.move worker request phase store).fills other = some fill) :
    (other = worker ∧ fill = ⟨request,phase⟩) ∨ (other ≠ worker ∧ s.fills other = some fill) := by
  change Function.update s.fills worker (some ⟨request,phase⟩) other = some fill at filling
  by_cases same : other = worker
  · rw [same,update_self] at filling
    exact .inl ⟨same,(Option.some.inj filling).symm⟩
  · rw [update_of_ne same] at filling
    exact .inr ⟨same,filling⟩

variable {fill : Fill Price} {worker : Worker}

theorem sound_move {phase : Phase Price} {store : Store Price} (sound : Sound s)
    (advances : Advances s worker fill phase store) : Sound (s.move worker fill.request phase store) := by
  have before : ∀ {other fill'}, (s.move worker fill.request phase store).fills other = some fill' →
      ∃ old, s.fills other = some old ∧ old.request = fill'.request := by
    intro other fill' filling
    rcases move_fills filling with ⟨rfl,rfl⟩ | ⟨_,unchanged⟩
    · exact ⟨fill,advances.filling,rfl⟩
    · exact ⟨fill',unchanged,rfl⟩
  refine ⟨?_,?_,?_⟩
  · intro other fill' filling
    obtain ⟨old,was,same⟩ := before filling
    exact same ▸ sound.locked other old was
  · intro one other fill1 fill2 first second path
    obtain ⟨old1,was1,same1⟩ := before first
    obtain ⟨old2,was2,same2⟩ := before second
    exact sound.alone one other old1 old2 was1 was2 (by rw [same1,same2,path])
  · intro other fill' filling
    rcases move_fills filling with ⟨rfl,rfl⟩ | ⟨differs,unchanged⟩
    · exact advances.ready (sound.ready other fill advances.filling)
    · refine (ready_congr ?_).mpr (sound.ready other fill' unchanged)
      rcases advances.index with same | ⟨elsewhere,_⟩
      · exact same _
      · exact elsewhere _ fun path => differs (sound.alone other worker fill' fill unchanged advances.filling path)

theorem sound_step (s : State Worker Price) (label : Label Worker Price) (t : State Worker Price) (sound : Sound s)
    (aligned : Aligned s label) (stepped : step settings s label = some t) : Sound t := by
  rcases step_cases stepped with ⟨worker,request,rfl,idle,free,rfl⟩ | ⟨worker,fill,filling,rfl⟩ |
    ⟨worker,fill,phase,store,advances,rfl⟩
  · -- whoever is at the manifest would have the same lock key, and that lock is free
    have nobody : ∀ other fill, s.fills other = some fill → indexKey fill.request.dataset ≠ indexKey request.dataset := by
      intro other fill filling path
      have held := sound.locked other fill filling
      rw [aligned other fill filling path,free] at held
      cases held
    have after : ∀ {other fill}, Function.update s.fills worker (some ⟨request,.locked⟩) other = some fill →
        (other = worker ∧ fill = ⟨request,.locked⟩) ∨ (other ≠ worker ∧ s.fills other = some fill) :=
      fun {other fill} filling => @move_fills _ _ _ s _ worker other request .locked s.store fill filling
    refine ⟨?_,?_,?_⟩
    · intro other fill filling
      rcases after filling with ⟨rfl,rfl⟩ | ⟨_,unchanged⟩
      · exact update_self ..
      · have held := sound.locked other fill unchanged
        have differs : rangeCacheLockKey fill.request ≠ rangeCacheLockKey request := by
          intro same
          rw [same,free] at held
          cases held
        exact (update_of_ne differs ..).trans held
    · intro one other fill1 fill2 first second path
      rcases after first with ⟨rfl,rfl⟩ | ⟨_,was1⟩
      · rcases after second with ⟨rfl,rfl⟩ | ⟨_,was2⟩
        · rfl
        · exact absurd path.symm (nobody other fill2 was2)
      · rcases after second with ⟨rfl,rfl⟩ | ⟨_,was2⟩
        · exact absurd path (nobody one fill1 was1)
        · exact sound.alone one other fill1 fill2 was1 was2 path
    · intro other fill filling
      rcases after filling with ⟨rfl,rfl⟩ | ⟨_,unchanged⟩
      · trivial
      · exact sound.ready other fill unchanged
  · have before : ∀ {other fill'}, Function.update s.fills worker none other = some fill' →
        other ≠ worker ∧ s.fills other = some fill' := by
      intro other fill' filling
      by_cases same : other = worker
      · rw [same,update_self] at filling
        cases filling
      · rw [update_of_ne same] at filling
        exact ⟨same,filling⟩
    refine ⟨?_,?_,?_⟩
    · intro other fill' filling'
      obtain ⟨differs,was⟩ := before filling'
      have held := sound.locked other fill' was
      have otherKey : rangeCacheLockKey fill'.request ≠ rangeCacheLockKey fill.request := by
        intro same
        rw [same,sound.locked worker fill filling] at held
        exact differs (Option.some.inj held).symm
      exact (update_of_ne otherKey ..).trans held
    · intro one other fill1 fill2 first second
      exact sound.alone one other fill1 fill2 (before first).2 (before second).2
    · intro other fill' filling'
      exact sound.ready other fill' (before filling').2
  · exact sound_move sound advances

theorem keeps_step (s : State Worker Price) (label : Label Worker Price) (t : State Worker Price) (sound : Sound s)
    (stepped : step settings s label = some t) : Keeps s t := by
  intro dataset
  rcases step_cases stepped with ⟨worker,request,rfl,idle,free,rfl⟩ | ⟨worker,fill,filling,rfl⟩ |
    ⟨worker,fill,phase,store,advances,rfl⟩
  · exact allKept_refl _
  · exact allKept_refl _
  · change AllKept _ _ (segmentsOf store dataset)
    rcases advances.index with same | ⟨elsewhere,update⟩
    · rw [same]
      exact allKept_refl _
    · by_cases path : indexKey dataset = indexKey fill.request.dataset
      · have sameStep : timeframeToMs dataset.timeframe = fill.request.stepMs := path_step (congrArg (·.2.2) path)
        have sameSegments : ∀ store : Store Price, segmentsOf store dataset = segmentsOf store fill.request.dataset := by
          intro store
          rw [segmentsOf,path,segmentsOf]
        rw [sameStep,sameSegments,sameSegments]
        intro segment member
        exact update (sound.ready worker fill advances.filling) segment (mem_append_left _ member)
      · rw [elsewhere dataset path]
        exact allKept_refl _

theorem sound_initial (store : Store Price) : Sound (initial store : State Worker Price) :=
  ⟨fun _ _ filling => (nomatch filling),fun _ _ _ _ filling => (nomatch filling),fun _ _ filling => (nomatch filling)⟩

theorem commit_kept (sound : Sound s) (filling : s.fills worker = some fill)
    (stepped : step settings s (.commit worker) = some t) :
    ∀ segment ∈ fill.phase.added, Written fill.request.stepMs segment ∧
      Kept fill.request.stepMs (segmentsOf t.store fill.request.dataset) segment := by
  simp only [step,filling] at stepped
  split at stepped
  · rename_i request stored compacted isFill
    cases isFill
    cases stepped
    obtain ⟨areWritten,all⟩ := sound.ready worker _ filling
    rw [flatten_nil,append_nil] at all
    intro segment member
    refine ⟨areWritten segment member,?_⟩
    exact allKept_trans all segmentsOf_written segment (mem_append_right _ member) (areWritten segment member)
  · cases stepped

end
end

def minutes : Provider Nat where
  history _ := [⟨0,10,12,9,11,5⟩,⟨60000,11,13,10,12,6⟩]
  ascending _ := by decide
  rows _ := 1000
def monthlySettings : Settings Nat := ⟨.monthly,500,Nat.succ_pos _,1578240,fun _ _ => false⟩
def requestOf (symbol : String) (since : Int) : Request :=
  ⟨text symbol,⟨text "binance",text "BTC/USDT",text "1m"⟩,since,1⟩
def untilRead (worker : Nat) (request : Request) : List (Label Nat Nat) :=
  [.acquire worker request,.cover worker minutes,.store worker,.readIndex worker]
def emptyStore : Store Nat := ⟨fun _ => none,fun _ => .missing⟩

end Codebot.CacheFills
