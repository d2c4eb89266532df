import Codebot.Runs

/-!
The lock files of the candle cache. A call makes the lock file of its key, fills the cache and removes the file. A
call that finds a file removes it when it is older than the timeout, and when a wait as long as that has brought no
candles; neither removal asks whose file it is (`exclusive_iff`).
-/
namespace Codebot.CacheLocks
open Runs (run run_keeps run_cons_some run_nil Meets secures_iff)
set_option linter.unusedSectionVars false

/-- A lock file, which the call that made it writes to as long as it exists. -/
structure LockFile (Worker : Type) where
  mtimeMs : Int
  creator : Worker
deriving DecidableEq

/-- Where a call of `getOrFillPublicCandleCacheV2` is, with the lock key and `staleLockRemoved`. -/
inductive Phase (Key : Type)
  | idle
  | trying (key : Key) (staleLockRemoved : Bool)
  | refused (key : Key) (staleLockRemoved : Bool)
  | stale (key : Key)
  | waiting (key : Key) (staleLockRemoved : Bool) (waitUntil : Int)
  | opened (key : Key)
  | filling (key : Key)
deriving DecidableEq

/-- The clock, the lock files by key and the phases of the calls. -/
structure State (Worker Key : Type) where
  now : Int
  files : Key → Option (LockFile Worker)
  phases : Worker → Phase Key

inductive Label (Worker Key : Type)
  | tick (ms : Nat)
  | start (worker : Worker) (key : Key)
  | tryOpen (worker : Worker)
  | write (worker : Worker)
  | stat (worker : Worker)
  | remove (worker : Worker)
  | finish (worker : Worker)
  | leave (worker : Worker)
deriving DecidableEq

variable {Worker Key : Type} [DecidableEq Worker] [DecidableEq Key]
def State.move (s : State Worker Key) (worker : Worker) (phase : Phase Key) : State Worker Key :=
  { s with phases := Function.update s.phases worker phase }
def State.put (s : State Worker Key) (key : Key) (file : Option (LockFile Worker)) : State Worker Key :=
  { s with files := Function.update s.files key file }
/-- `isCacheLockStale`: a file that is no longer there is not stale. -/
def isCacheLockStale (timeoutMs : Int) (s : State Worker Key) (key : Key) : Bool :=
  (s.files key).any fun file => s.now - file.mtimeMs > timeoutMs
/-- `releaseCacheLock`: the file at the path goes, whoever made it. -/
def releaseCacheLock (s : State Worker Key) (key : Key) : State Worker Key := s.put key none
/-- The key whose lock file the call is about to remove without having made it. -/
def removing (s : State Worker Key) (worker : Worker) : Option Key :=
  match s.phases worker with
  | .stale key => some key
  | .waiting key false waitUntil => if s.now < waitUntil then none else some key
  | _ => none

/-- One step of one call, or of the clock. A call may leave at any point: it is served from the
    cache, its deadline passes, or its process ends. -/
def step (timeoutMs : Int) (s : State Worker Key) : Label Worker Key → Option (State Worker Key)
  | .tick ms => some { s with now := s.now + ms }
  | .start worker key =>
    match s.phases worker with
    | .idle => some (s.move worker (.trying key false))
    | _ => none
  | .tryOpen worker =>
    match s.phases worker with
    | .trying key staleLockRemoved =>
      match s.files key with
      | none => some ((s.put key (some ⟨s.now,worker⟩)).move worker (.opened key))
      | some _ => some (s.move worker (.refused key staleLockRemoved))
    | _ => none
  | .write worker =>
    match s.phases worker with
    | .opened key =>
      let written := (s.files key).map fun file => if file.creator = worker then { file with mtimeMs := s.now } else file
      some ((s.put key written).move worker (.filling key))
    | _ => none
  | .stat worker =>
    match s.phases worker with
    | .refused key staleLockRemoved =>
      if isCacheLockStale timeoutMs s key && !staleLockRemoved then some (s.move worker (.stale key))
      else some (s.move worker (.waiting key staleLockRemoved (s.now + timeoutMs)))
    | _ => none
  | .remove worker => (removing s worker).map fun key => (releaseCacheLock s key).move worker (.trying key true)
  | .finish worker =>
    match s.phases worker with
    | .filling key => some ((releaseCacheLock s key).move worker .idle)
    | _ => none
  | .leave worker => some (s.move worker .idle)

def initial (now : Int) (files : Key → Option (LockFile Worker)) : State Worker Key := ⟨now,files,fun _ => .idle⟩
def Holds (s : State Worker Key) (worker : Worker) (key : Key) : Prop :=
  s.phases worker = .opened key ∨ s.phases worker = .filling key
def Exclusive (s : State Worker Key) : Prop :=
  ∀ key worker other, Holds s worker key → Holds s other key → worker = other
def LeftBehind (s : State Worker Key) (key : Key) : Prop :=
  ∀ file, s.files key = some file → ¬ Holds s file.creator key
def Spares (s : State Worker Key) : Label Worker Key → Prop
  | .remove worker => ∀ key, removing s worker = some key → LeftBehind s key
  | _ => True
def Guarded (s : State Worker Key) : Prop :=
  ∀ worker key, Holds s worker key → ∃ file, s.files key = some file ∧ file.creator = worker

variable {timeoutMs : Int} {s t : State Worker Key}
@[simp] theorem move_files (worker : Worker) (phase : Phase Key) : (s.move worker phase).files = s.files := rfl
@[simp] theorem put_files (key : Key) (file : Option (LockFile Worker)) :
    (s.put key file).files = Function.update s.files key file := rfl
theorem move_self (worker : Worker) (phase : Phase Key) : (s.move worker phase).phases worker = phase := by
  simp [State.move]

variable {key : Key} {phase : Phase Key} {worker : Worker}

theorem holds_move {other : Worker} :
    Holds (s.move worker phase) other key ↔
      (other = worker ∧ (phase = .opened key ∨ phase = .filling key)) ∨ (other ≠ worker ∧ Holds s other key) := by
  unfold Holds State.move
  by_cases same : other = worker
  · subst same
    simp
  · simp [same]

theorem guarded_exclusive (guarded : Guarded s) : Exclusive s := by
  intro key worker other holds also
  obtain ⟨file,there,made⟩ := guarded worker key holds
  obtain ⟨file',there',made'⟩ := guarded other key also
  rw [there] at there'
  cases there'
  exact made.symm.trans made'
theorem guarded_move (guarded : Guarded s)
    (free : ∀ key, phase ≠ .opened key ∧ phase ≠ .filling key) : Guarded (s.move worker phase) := by
  intro other key holds
  rcases holds_move.mp holds with ⟨_,opened | filling⟩ | ⟨_,before⟩
  · exact absurd opened (free key).1
  · exact absurd filling (free key).2
  · exact guarded other key before

theorem guarded_release (guarded : Guarded s) (free : ∀ key, phase ≠ .opened key ∧ phase ≠ .filling key)
    (nobody : ∀ other, other ≠ worker → ¬ Holds s other key) :
    Guarded ((releaseCacheLock s key).move worker phase) := by
  intro other key' holds
  rcases holds_move.mp holds with ⟨_,opened | filling⟩ | ⟨different,before⟩
  · exact absurd opened (free key').1
  · exact absurd filling (free key').2
  · have elsewhere : key' ≠ key := fun same => nobody other different (same ▸ before)
    obtain ⟨file,there,made⟩ := guarded other key' before
    exact ⟨file,by simp [releaseCacheLock,elsewhere,there],made⟩

theorem removing_idle {key' : Key} (removes : removing s worker = some key) : ¬ Holds s worker key' := by
  rintro (opened | filling)
  · simp [removing,opened] at removes
  · simp [removing,filling] at removes

theorem guarded_step (s : State Worker Key) (label : Label Worker Key) (t : State Worker Key) (guarded : Guarded s)
    (spares : Spares s label) (stepped : step timeoutMs s label = some t) : Guarded t := by
  cases label with
  | tick ms =>
    cases stepped
    exact guarded
  | start worker key =>
    simp only [step] at stepped
    split at stepped
    · cases stepped
      exact guarded_move guarded (by simp)
    · cases stepped
  | tryOpen worker =>
    simp only [step] at stepped
    split at stepped
    · rename_i key removed trying
      split at stepped
      · rename_i absent
        cases stepped
        intro other key' holds
        rcases holds_move.mp holds with ⟨rfl,same | filling⟩ | ⟨different,before⟩
        · cases same
          exact ⟨⟨s.now,other⟩,by simp,rfl⟩
        · cases filling
        · obtain ⟨file,there,made⟩ := guarded other key' before
          have elsewhere : key' ≠ key := by
            rintro rfl
            rw [absent] at there
            cases there
          exact ⟨file,by simp [elsewhere,there],made⟩
      · cases stepped
        exact guarded_move guarded (by simp)
    · cases stepped
  | write worker =>
    simp only [step] at stepped
    split at stepped
    · rename_i key opened
      cases stepped
      -- the writer held the key as `opened` before, so its file is there already
      have kept : ∀ other key', Holds s other key' → ∃ file, (Function.update s.files key ((s.files key).map fun file =>
          if file.creator = worker then { file with mtimeMs := s.now } else file)) key' = some file ∧ file.creator = other := by
        intro other key' before
        obtain ⟨file,there,made⟩ := guarded other key' before
        by_cases same : key' = key
        · subst same
          refine ⟨if file.creator = worker then { file with mtimeMs := s.now } else file,by simp [there],?_⟩
          by_cases own : file.creator = worker
          · rw [if_pos own]
            exact made
          · rw [if_neg own]
            exact made
        · exact ⟨file,by simp [same,there],made⟩
      intro other key' holds
      rcases holds_move.mp holds with ⟨rfl,same | same⟩ | ⟨_,before⟩
      · cases same
      · cases same
        exact kept other key (.inl opened)
      · exact kept other key' before
    · cases stepped
  | stat worker =>
    simp only [step] at stepped
    split at stepped
    · split at stepped
      · cases stepped
        exact guarded_move guarded (by simp)
      · cases stepped
        exact guarded_move guarded (by simp)
    · cases stepped
  | remove worker =>
    obtain ⟨key,removes,rfl⟩ := Option.map_eq_some_iff.mp stepped
    apply guarded_release guarded (by simp)
    intro other _ holds
    obtain ⟨file,there,made⟩ := guarded other key holds
    exact spares key removes file there (made ▸ holds)
  | finish worker =>
    simp only [step] at stepped
    split at stepped
    · rename_i key filling
      cases stepped
      apply guarded_release guarded (by simp)
      intro other different holds
      exact different (guarded_exclusive guarded key other worker holds (.inr filling))
    · cases stepped
  | leave worker =>
    cases stepped
    exact guarded_move guarded (by simp)

def Secure (timeoutMs : Int) (s : State Worker Key) : Prop :=
  ∀ (attempts : List Worker) t, run (step timeoutMs) s (attempts.map .tryOpen) = some t → Exclusive t

theorem guarded_secure (guarded : Guarded s) : Secure timeoutMs s := by
  intro attempts t ran
  have spares : Meets (step timeoutMs) Spares s (attempts.map .tryOpen) := by
    clear guarded ran
    induction attempts generalizing s with
    | nil => trivial
    | cons worker rest ih => exact ⟨trivial,fun next _ => ih⟩
  exact guarded_exclusive (run_keeps guarded_step guarded spares ran)

theorem not_secure_of_remove {holder : Worker} (removes : removing s worker = some key) (holds : Holds s holder key) :
    ¬ Secure timeoutMs ((releaseCacheLock s key).move worker (.trying key true)) := by
  intro secure
  let removed := (releaseCacheLock s key).move worker (.trying key true)
  let taken := (removed.put key (some ⟨removed.now,worker⟩)).move worker (.opened key)
  have opens : step timeoutMs removed (.tryOpen worker) = some taken := by
    simp [step,removed,taken,move_self,releaseCacheLock]
  have different : holder ≠ worker := by
    rintro rfl
    exact removing_idle removes holds
  have both : Exclusive taken := secure [worker] taken (run_cons_some.mpr ⟨taken,opens,run_nil taken⟩)
  refine different (both key holder worker ?_ (.inl (move_self worker _)))
  refine holds_move.mpr (.inr ⟨different,?_⟩)
  change Holds removed holder key
  exact holds_move.mpr (.inr ⟨different,holds⟩)

/-- At most one call holds the lock of a key exactly if each call that removes a lock file of another finds one left
    behind. -/
theorem exclusive_iff (timeoutMs now : Int) (files : Key → Option (LockFile Worker)) (labels : List (Label Worker Key)) :
    (∀ before after t, labels = before ++ after → run (step timeoutMs) (initial now files) before = some t →
        Secure timeoutMs t) ↔
      Meets (step timeoutMs) Spares (initial now files) labels := by
  have start : Guarded (initial now files : State Worker Key) := by
    rintro worker key (opened | filling)
    · cases opened
    · cases filling
  refine secures_iff (fun _ => guarded_secure) guarded_step ?_ start
  intro s label _ secure
  cases label with
  | remove worker =>
    intro key removes file _ holds
    exact not_secure_of_remove removes holds (secure _ (by rw [step,removes]; rfl))
  | _ => trivial

def samplePath : String := "cache/locks-v2/0f1e.lock"
/-- A second call takes the lock of a fill that lasts longer than the timeout. -/
theorem slow_fill_joined : ¬ ∀ (labels : List (Label Nat String)) (t : State Nat String),
    run (step 30000) (initial 0 fun _ => none) labels = some t → Exclusive t := by
  intro all
  have exclusive := all [.start 0 samplePath,.tryOpen 0,.write 0,.tick 30001,.start 1 samplePath,.tryOpen 1,.stat 1,
    .remove 1,.tryOpen 1] _ rfl
  exact absurd (exclusive samplePath 0 1 (.inr rfl) (.inl rfl)) (by decide)

end Codebot.CacheLocks
