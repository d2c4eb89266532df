import Codebot.Runs
import Codebot.Texts

/-!
The artifacts of runs and their files. A record of an artifact has an id of its own and names a file in the folder of
its run; the tools, the prompt chain and the runner write their files under fixed names there (`content_kept_iff`).
-/
namespace Codebot.ArtifactStore
open Texts Runs

/-- A storage key: a run, and a path relative to its folder. -/
structure Key where
  run : Nat
  path : String
deriving DecidableEq
def PINE_STRATEGY_PATH : String := "pine/strategy.pine"
def MQL5_RUNNER_DESIGN_PATH : String := "mql5/runner-design.md"
def VALIDATION_REPORT_PATH : String := "validation-report.json"
def REVIEW_REPORT_PATH : String := "review-report.json"
def BACKTEST_PLAN_PATH : String := "backtest/backtest-plan.json"
def BACKTEST_PINEFORGE_VALIDATION_PATH : String := "backtest/pineforge-validation.json"
def KNOWLEDGE_PROPOSAL_PATH : String := "knowledge-proposal.json"
def variantLabPath (group : Nat) : String := "backtest/variant-lab-" ++ toString group ++ ".json"
def robustnessReportPath (id : Nat) : String := "backtest/robustness-report-" ++ toString id ++ ".json"
/-- A content to write: a text, or a JSON payload as the text that it is dumped to,
    in which line ends within strings are escaped. -/
structure Content where
  json : Bool
  body : Text
  dumped : json = true → body ≠ [] ∧ 13 ∉ body
def Content.text (body : Text) : Content := ⟨false,body,nofun⟩
/-- A record of an artifact. The body is what its file held when it was created. -/
structure Artifact where
  id : Nat
  key : Key
  json : Bool
  body : Text
deriving DecidableEq
structure Store where
  files : Key → Option Text
  artifacts : List Artifact
  next : Nat
def initial : Store where
  files _ := none
  artifacts := []
  next := 0
/-- `LocalArtifactStore.read_content`: the text of the file in text mode, which a JSON
    artifact parses; there is no JSON in an empty file. -/
def readContent (s : Store) (artifact : Artifact) : Option Text :=
  (s.files artifact.key).bind fun body =>
    if artifact.json ∧ universalNewlines body = [] then none else some (universalNewlines body)
/-- What a call writes: the file and the record of an artifact, a file alone, or the
    record of a file that is there. -/
inductive Write
  | persist (key : Key) (content : Content)
  | file (key : Key) (content : Content)
  | record (key : Key) (json : Bool)
def written (content : Content) : Text := if encodable content.body then content.body else []
def putFile (s : Store) (key : Key) (content : Content) : Store :=
  { s with files := Function.update s.files key (some (written content)) }
def putArtifact (s : Store) (key : Key) (json : Bool) (body : Text) : Store :=
  { s with artifacts := s.artifacts ++ [⟨s.next,key,json,body⟩], next := s.next + 1 }

/-- One write. A text that cannot be encoded raises before the record is created, and
    the runner passes over a path where no file is. -/
def step (s : Store) : Write → Option Store
  | .persist key content =>
    some (if encodable content.body then putArtifact (putFile s key content) key content.json content.body
      else putFile s key content)
  | .file key content => some (putFile s key content)
  | .record key json =>
    some (match s.files key with
      | some body => putArtifact s key json body
      | none => s)

/-- A call of a tool, a result of the prompt chain, or an execution of the runner with
    the files that it writes before the records of its catalog. -/
inductive Call
  | generatePine (run : Nat) (pine validation review : Content)
  | createMql5Design (run : Nat) (design : Content)
  | staticValidate (run : Nat) (validation : Content)
  | parallelReview (run : Nat) (report : Content)
  | knowledgeProposal (run : Nat) (proposal : Content)
  | createBacktestPlan (run : Nat) (pine validation : Content) (plan : Option Content)
  | runBacktestPreview (run : Nat) (pine validation : Content)
  | runVariantLab (run group : Nat) (comparison : Content)
  | buildRobustnessReport (run id : Nat) (report : Content)
  | executeRunner (run : Nat) (live : Bool) (files : List (String × Content))

/-- `RUNNER_ARTIFACTS`: the paths of the records, and which of them are JSON. -/
def runnerArtifacts : List (String × Bool) :=
  [(PINE_STRATEGY_PATH,false),(VALIDATION_REPORT_PATH,true),(REVIEW_REPORT_PATH,true),
    ("manual-tradingview-checklist.md",false),("runtime-summary.json",true)]
def liveRunnerArtifacts : List (String × Bool) :=
  runnerArtifacts ++ [("agent-run.json",true),("live-metadata.json",true),("live-workflow-trace.json",true),
    ("live-error.json",true),("market-research.json",true),("quality-report.json",true),("knowledge-context.json",true)]
def Write.raises : Write → Bool
  | .persist _ content => !encodable content.body
  | .file _ content => !encodable content.body
  | .record _ _ => false
def untilRaise : List Write → List Write
  | [] => []
  | write :: rest => if write.raises then [write] else write :: untilRaise rest

/-- The writes of a call, in its order. The result of the prompt chain is persisted as
    that of `generate_pine`; a plan whose script fails validation is not written. -/
def Call.writes : Call → List Write
  | .generatePine run pine validation review =>
    untilRaise [.persist ⟨run,PINE_STRATEGY_PATH⟩ pine,.persist ⟨run,VALIDATION_REPORT_PATH⟩ validation,
      .persist ⟨run,REVIEW_REPORT_PATH⟩ review]
  | .createMql5Design run design => [.persist ⟨run,MQL5_RUNNER_DESIGN_PATH⟩ design]
  | .staticValidate run validation => [.persist ⟨run,VALIDATION_REPORT_PATH⟩ validation]
  | .parallelReview run report => [.persist ⟨run,REVIEW_REPORT_PATH⟩ report]
  | .knowledgeProposal run proposal => [.persist ⟨run,KNOWLEDGE_PROPOSAL_PATH⟩ proposal]
  | .createBacktestPlan run pine validation plan =>
    untilRaise ([.persist ⟨run,PINE_STRATEGY_PATH⟩ pine,.persist ⟨run,BACKTEST_PINEFORGE_VALIDATION_PATH⟩ validation] ++
      plan.toList.map fun content => .persist ⟨run,BACKTEST_PLAN_PATH⟩ content)
  | .runBacktestPreview run pine validation =>
    untilRaise [.persist ⟨run,PINE_STRATEGY_PATH⟩ pine,.persist ⟨run,BACKTEST_PINEFORGE_VALIDATION_PATH⟩ validation]
  | .runVariantLab run group comparison => [.persist ⟨run,variantLabPath group⟩ comparison]
  | .buildRobustnessReport run id report => [.persist ⟨run,robustnessReportPath id⟩ report]
  | .executeRunner run live files =>
    untilRaise ((files.map fun file => .file ⟨run,file.1⟩ file.2) ++
      (if live then liveRunnerArtifacts else runnerArtifacts).map fun entry => .record ⟨run,entry.1⟩ entry.2)

def KeepsContent (s : Store) : Prop := ∀ artifact ∈ s.artifacts, readContent s artifact = some artifact.body
def Readable (json : Bool) (body : Text) : Prop := 13 ∉ body ∧ (json = true → body ≠ [])
instance (json : Bool) (body : Text) : Decidable (Readable json body) :=
  inferInstanceAs (Decidable (13 ∉ body ∧ (json = true → body ≠ [])))
def Agrees (s : Store) (key : Key) (content : Content) : Prop :=
  ∀ artifact ∈ s.artifacts, artifact.key = key → universalNewlines (written content) = artifact.body
instance (s : Store) (key : Key) (content : Content) : Decidable (Agrees s key content) :=
  inferInstanceAs (Decidable (∀ artifact ∈ s.artifacts, artifact.key = key →
    universalNewlines (written content) = artifact.body))
/-- The condition on a write: it agrees with the records of its file, and the body of a
    new record can be read back. -/
def Keeps (s : Store) : Write → Prop
  | .persist key content => Agrees s key content ∧ (encodable content.body = true → 13 ∉ content.body)
  | .file key content => Agrees s key content
  | .record key json => ∀ body, s.files key = some body → Readable json body

variable {artifact : Artifact} {body : Text} {s : Store}

theorem readContent_eq (isFile : s.files artifact.key = some body)
    {expected : Text} (readable : Readable artifact.json expected) :
    readContent s artifact = some expected ↔ universalNewlines body = expected := by
  rw [readContent,isFile,Option.bind_some]
  by_cases empty : artifact.json = true ∧ universalNewlines body = []
  · rw [if_pos empty]
    constructor
    · intro none
      cases none
    · intro same
      exact absurd (same.symm.trans empty.2) (readable.2 empty.1)
  · rw [if_neg empty,Option.some_inj]

theorem readable_kept (kept : readContent s artifact = some artifact.body) :
    Readable artifact.json artifact.body := by
  obtain ⟨body,-,read⟩ := Option.bind_eq_some_iff.mp kept
  split at read
  · cases read
  · rename_i nonempty
    have same := Option.some.inj read
    constructor
    · rw [← same]
      exact return_notMem_universalNewlines body
    · intro json empty
      exact nonempty ⟨json,same.trans empty⟩

theorem putFile_iff (kept : KeepsContent s) (key : Key) (content : Content) :
    KeepsContent (putFile s key content) ↔ Agrees s key content := by
  have read : ∀ artifact ∈ s.artifacts, artifact.key = key →
      (readContent (putFile s key content) artifact = some artifact.body ↔
        universalNewlines (written content) = artifact.body) := by
    intro artifact member same
    refine readContent_eq ?_ (readable_kept (kept artifact member))
    show Function.update s.files key (some (written content)) artifact.key = some (written content)
    rw [same,Function.update_self]
  constructor
  · intro after artifact member same
    exact (read artifact member same).mp (after artifact member)
  · intro agrees artifact member
    by_cases same : artifact.key = key
    · exact (read artifact member same).mpr (agrees artifact member same)
    · have untouched : (putFile s key content).files artifact.key = s.files artifact.key :=
        Function.update_of_ne same _ _
      have before := kept artifact member
      unfold readContent at before ⊢
      rw [untouched]
      exact before

theorem putArtifact_iff {key : Key} {json : Bool} (isFile : s.files key = some body) :
    KeepsContent (putArtifact s key json body) ↔ KeepsContent s ∧ Readable json body := by
  constructor
  · intro after
    constructor
    · intro artifact member
      exact after artifact (List.mem_append_left _ member)
    · exact readable_kept (after ⟨s.next,key,json,body⟩ (List.mem_append_right _ List.mem_cons_self))
  · rintro ⟨kept,readable⟩ artifact member
    rcases List.mem_append.mp member with old | new
    · exact kept artifact old
    · rw [List.mem_singleton.mp new]
      exact (readContent_eq isFile readable).mpr (universalNewlines_eq_self.mpr readable.1)

theorem keepsContent_step_iff (kept : KeepsContent s) (write : Write) :
    (∀ t, step s write = some t → KeepsContent t) ↔ Keeps s write := by
  cases write with
  | file key content =>
    simp only [step,Option.some_inj,forall_eq',Keeps]
    exact putFile_iff kept key content
  | persist key content =>
    simp only [step,Option.some_inj,forall_eq',Keeps]
    split
    · rename_i encoded
      have isFile : (putFile s key content).files key = some content.body := by
        show Function.update s.files key (some (written content)) key = some content.body
        rw [Function.update_self,written,if_pos encoded]
      rw [putArtifact_iff isFile,putFile_iff kept]
      constructor
      · rintro ⟨agrees,readable⟩
        exact ⟨agrees,fun _ => readable.1⟩
      · rintro ⟨agrees,without⟩
        exact ⟨agrees,without encoded,fun json => (content.dumped json).1⟩
    · rename_i raises
      rw [putFile_iff kept]
      exact ⟨fun agrees => ⟨agrees,fun encoded => absurd encoded raises⟩,And.left⟩
  | record key json =>
    simp only [step,Option.some_inj,forall_eq',Keeps]
    cases isFile : s.files key with
    | none => simpa using kept
    | some body =>
      rw [putArtifact_iff isFile]
      constructor
      · rintro ⟨-,readable⟩ other same
        exact Option.some.inj same ▸ readable
      · intro readable
        exact ⟨kept,readable body rfl⟩

theorem keepsContent_initial : KeepsContent initial := by
  intro artifact member
  cases member

/-- In a run of writes, of any calls in any runs and in any order, every record reads
    back its content after each write exactly if each write meets the condition. -/
theorem content_kept_iff (writes : List Write) :
    Meets step (fun s write => ∀ t, step s write = some t → KeepsContent t) initial writes ↔
      Meets step Keeps initial writes := by
  refine @meets_iff _ _ _ _ KeepsContent _ ?_ ?_ _ keepsContent_initial writes
  · intro s write t _ keeps stepped
    exact keeps t stepped
  · intro s write kept
    exact keepsContent_step_iff kept write

def firstPlan : Content := ⟨true,text "\x7b\"fee_bps\": 1\x7d",by decide⟩
def secondPlan : Content := ⟨true,text "\x7b\"fee_bps\": 2\x7d",by decide⟩
def sampleValidation : Content := ⟨true,text "\x7b\x7d",by decide⟩
/-- Two plans of one run, with the same script and validation. -/
def twoPlans : List Call :=
  [.createBacktestPlan 0 (.text (text "strategy()")) sampleValidation (some firstPlan),
    .createBacktestPlan 0 (.text (text "strategy()")) sampleValidation (some secondPlan)]

/-- The second plan of a run replaces the content of the first. -/
theorem content_not_kept : ¬ ∀ calls : List Call,
    Meets step (fun s write => ∀ t, step s write = some t → KeepsContent t) initial (calls.flatMap Call.writes) := by
  intro always
  obtain ⟨s,reached,artifact,member,lost⟩ : ∃ s, run step initial (twoPlans.flatMap Call.writes) = some s ∧
      ∃ artifact ∈ s.artifacts, readContent s artifact ≠ some artifact.body := by
    refine ⟨_,rfl,⟨2,⟨0,BACKTEST_PLAN_PATH⟩,true,firstPlan.body⟩,?_,?_⟩
    · decide
    · decide
  have kept : KeepsContent s :=
    run_keeps (fun _ _ t _ keeps stepped => keeps t stepped) keepsContent_initial (always twoPlans) reached
  exact lost (kept artifact member)

end Codebot.ArtifactStore
