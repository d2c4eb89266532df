import Codebot.KnowledgeCandidates

/-!
The lessons that `learn_from_run` takes from the reports of runs. What a report finds has a topic, and the topic has
its lesson, its kind and its tags (`lesson_injective`). Lessons of one key are grouped (`grouped_artifacts`). The
digest of a key is a function that does not confuse two payloads.
-/
namespace Codebot.RunLessons
open Texts KnowledgeIndex KnowledgeCandidates List
open JsonDumps (atMost)

/-- The payload that `_learning_dedupe_key` hashes. -/
structure KeyPayload where
  lessonKind : Text
  lesson : Text
  stage : Text
  failureClass : Text
  validatorCheck : Text
  marketTags : List Text
  platformTags : List Text
deriving DecidableEq

/-- The settings of the candidates with the digest of a payload; on ASCII the tables are the ASCII tables. -/
structure LessonSettings extends candidates : KnowledgeCandidates.Settings where
  digest : KeyPayload → Text
  digest_injective : Function.Injective digest
  digest_some : ∀ payload, digest payload ≠ []
  lower_ascii : ∀ t : Text, (∀ c ∈ t, c < 128) → unicode.lower t = ascii.lower t
  space_ascii : ∀ c < 128, unicode.space c = ascii.space c

structure Extracted where
  lessonKind : Text
  lesson : Text
  dedupeKey : Text
  evidenceRefs : List Text
  caseIds : List Text
  stage : Text
  failureClass : Text
  validatorCheck : Text
  domainTags : List Text
  marketTags : List Text
  platformTags : List Text
  stages : List Text
  sourceUri : Text
  deterministic : Bool
  operational : Bool
  successfulRepair : Bool
deriving DecidableEq

def squeeze (unicode : Unicode) : Bool → Text → Text
  | _, [] => []
  | after, c :: t =>
    if unicode.space c then (if after then squeeze unicode true t else 32 :: squeeze unicode true t)
    else c :: squeeze unicode false t
def normalizeLearningText (unicode : Unicode) (t : Text) : Text := strip unicode (squeeze unicode false (unicode.lower t))

section
variable (settings : LessonSettings)

def learningDedupeKey (lessonKind lesson stage failureClass validatorCheck : Text) (marketTags platformTags : List Text) : Text :=
  settings.digest
    { lessonKind
      lesson := normalizeLearningText settings.unicode lesson
      stage
      failureClass
      validatorCheck
      marketTags := sorted (dedupeStrings settings.unicode marketTags)
      platformTags := sorted (dedupeStrings settings.unicode platformTags) }

/-- `_base_learning_candidate`, for the market tags that all lessons have. -/
def baseLearningCandidate (lessonKind lesson evidenceRef caseId stage failureClass validatorCheck : Text)
    (domainTags platformTags stages : List Text) (deterministic operational successfulRepair : Bool) : Extracted :=
  let dedupeKey := learningDedupeKey settings lessonKind lesson stage failureClass validatorCheck [text "general"]
    (givenAll platformTags [text "general"])
  { lessonKind
    lesson
    dedupeKey
    evidenceRefs := [evidenceRef]
    caseIds := [caseId]
    stage
    failureClass
    validatorCheck
    domainTags := dedupeStrings settings.unicode (givenAll domainTags [text "trading"])
    marketTags := dedupeStrings settings.unicode [text "general"]
    platformTags := dedupeStrings settings.unicode (givenAll platformTags [text "general"])
    stages := dedupeStrings settings.unicode (givenAll stages (if stage = [] then [] else [stage]))
    sourceUri := text "learning-run:" ++ dedupeKey
    deterministic
    operational
    successfulRepair }

end

inductive Topic
  | versionHeader
  | strategyExit
  | lookahead
  | positionSizing
  | exitWarning
  | unnamedCheck
  | invalidation
  | premise
  | session
  | sampleSize
  | executionCosts
  | drawdown
  | lossStreak
  | oosWindow
  | suspiciousMetrics
  | routeHealth
  | missingContext
  | contextBudget
  | latency
  | proxyEvents
deriving DecidableEq

namespace Topic

def lesson : Topic → Text
  | versionHeader =>
    text "Pine repair must preserve exact `//@version=6` as the first line, with no leading whitespace or comments before it."
  | strategyExit => text "Pine strategy generation and repair must include `strategy.exit` stop/limit handling for each `strategy.entry` " ++
      text "when producing a strategy script."
  | lookahead => text "Pine generation must avoid `barmerge.lookahead_on` and prefer confirmed-bar or lookahead-off logic " ++
      text "when using higher-timeframe data."
  | positionSizing => text "Strategy specs must avoid full-capital or all-in position sizing and encode bounded fixed units or " ++
      text "small fixed-risk assumptions before code generation."
  | exitWarning => text "When static validation warns that `strategy.exit` is missing, repair should add bounded stop/limit exits " ++
      text "before balanced review passes the artifact."
  | unnamedCheck => text "When final validation fails without a named check, repair must summarize validator output first " ++
      text "and make static validation authoritative before reviewer preferences."
  | invalidation => text "Trader-grade strategy specs should encode setup invalidation explicitly before Pine generation, " ++
      text "especially for price-action entries."
  | premise => text "Trader-grade strategy specs should state the market premise and regime where the setup is intended to operate " ++
      text "before code generation."
  | session => text "Price-action strategy specs should encode session and timeframe assumptions when the prompt or playbook implies " ++
      text "liquidity/session behavior."
  | sampleSize => text "Local preview results with no or low closed-trade sample must stay rejected or manual-review only; " ++
      text "do not treat preview profit as evidence."
  | executionCosts => text "Local preview results should include fee or slippage assumptions before promotion; zero-cost previews need " ++
      text "manual execution-realism review."
  | drawdown => text "Local preview results with high drawdown must trigger manual risk review or rejection before any promotion " ++
      text "decision."
  | lossStreak => text "Local preview results with long loss streaks need position-sizing and portfolio-heat review before " ++
      text "promotion."
  | oosWindow => text "Local preview results without enough range and sample for out-of-sample review must remain manual-review " ++
      text "only."
  | suspiciousMetrics => text "Local preview results with extreme win rate, Sharpe, Sortino, or return metrics need overfit review " ++
      text "before promotion."
  | routeHealth => text "When a provider route repeatedly times out or returns transport errors, route health should degrade that route " ++
      text "and prefer an available fallback before another provider call."
  | missingContext => text "Stage context contracts must fail before provider calls when required handoff fields are missing."
  | contextBudget => text "Stage context should stay within its soft budget by passing compact summaries instead of full prior " ++
      text "stage history."
  | latency => text "Provider timeout and connection-error evidence should be recorded with route alias, stage, fallback status, " ++
      text "and provider-call timing before changing route policy."
  | proxyEvents => text "Proxy attribution events should preserve redacted route timing and error subclass so provider failures can be " ++
      text "debugged without prompt or secret leakage."

def lessonKind : Topic → Text
  | versionHeader | strategyExit | lookahead | positionSizing | exitWarning | unnamedCheck => text "pine_static_validation"
  | invalidation | premise | session => text "strategy_quality"
  | sampleSize | executionCosts | drawdown | lossStreak | oosWindow | suspiciousMetrics => text "backtest_robustness"
  | routeHealth => text "harness_route_health"
  | missingContext => text "context_contract"
  | contextBudget => text "context_budget"
  | latency | proxyEvents => text "harness_provider_diagnostics"

def domainTags : Topic → List Text
  | versionHeader => [text "pine",text "validation",text "syntax"]
  | strategyExit => [text "pine",text "validation",text "risk"]
  | lookahead => [text "pine",text "validation",text "repaint"]
  | positionSizing => [text "risk",text "position_sizing",text "validation"]
  | exitWarning => [text "pine",text "validation",text "risk"]
  | unnamedCheck => [text "pine",text "validation"]
  | invalidation => [text "strategy_quality",text "price_action",text "invalidation"]
  | premise => [text "strategy_quality",text "price_action",text "market_premise"]
  | session => [text "strategy_quality",text "price_action",text "session_timeframe"]
  | sampleSize => [text "backtest",text "anti_overfit",text "sample_adequacy"]
  | executionCosts => [text "backtest",text "execution_realism",text "risk"]
  | drawdown => [text "backtest",text "risk",text "drawdown"]
  | lossStreak => [text "backtest",text "risk",text "position_sizing"]
  | oosWindow | suspiciousMetrics => [text "backtest",text "anti_overfit",text "validation"]
  | routeHealth => [text "harness",text "route_policy",text "provider_ops"]
  | missingContext => [text "harness",text "context_contract"]
  | contextBudget => [text "harness",text "context_budget"]
  | latency => [text "harness",text "provider_ops",text "latency"]
  | proxyEvents => [text "harness",text "provider_ops",text "observability"]

def platformTags : Topic → List Text
  | routeHealth | missingContext | contextBudget | latency | proxyEvents => [text "general"]
  | _ => [text "pine_v6"]

/-- The stages that read the lesson, from the stage it was learned in. -/
def stages (stage : Text) : Topic → List Text
  | versionHeader | strategyExit | lookahead | positionSizing =>
    [text "strategy_coding",text "pine_code_generation",text "repair",text "balanced_review"]
  | exitWarning | unnamedCheck => [text "pine_code_generation",text "repair",text "balanced_review"]
  | invalidation | premise | session => [text "strategy_reasoning",text "strategy_coding",text "balanced_review"]
  | sampleSize | executionCosts | drawdown | lossStreak | oosWindow | suspiciousMetrics => [text "balanced_review",text "repair"]
  | routeHealth => if stage = [] then [] else [stage]
  | missingContext | contextBudget | latency | proxyEvents => [stage]

def deterministic : Topic → Bool
  | invalidation | premise | session => false
  | _ => true
def operational : Topic → Bool
  | routeHealth | missingContext | contextBudget | latency | proxyEvents => true
  | _ => false

end Topic

section
variable (settings : LessonSettings)

/-- The candidate of a topic. -/
def topicCandidate (topic : Topic) (evidenceRef caseId stage failureClass validatorCheck : Text) (successfulRepair : Bool) : Extracted :=
  baseLearningCandidate settings topic.lessonKind topic.lesson evidenceRef caseId stage failureClass validatorCheck topic.domainTags
    topic.platformTags (topic.stages stage) topic.deterministic topic.operational successfulRepair

/-- A finding of a report: its topic, the absolute path of the report, and where it is from. -/
structure Finding where
  topic : Topic
  path : Text
  absolute : path.head? = some 47
  json : path.getLast? = some 110
  caseId : Text
  stage : Text
  failureClass : Text
  validatorCheck : Text
  successfulRepair : Bool

/-- `_learning_candidates_from_artifacts`, for the findings of the reports in the order in which they are read. -/
def learningCandidatesFromArtifacts (findings : List Finding) : List Extracted :=
  findings.map fun finding => topicCandidate settings finding.topic finding.path finding.caseId finding.stage finding.failureClass
    finding.validatorCheck finding.successfulRepair

end

/-- A candidate joins the one of its key. -/
def absorb (unicode : Unicode) (existing candidate : Extracted) : Extracted :=
  { existing with
    evidenceRefs := dedupeStrings unicode (existing.evidenceRefs ++ candidate.evidenceRefs)
    caseIds := dedupeStrings unicode (existing.caseIds ++ candidate.caseIds)
    successfulRepair := existing.successfulRepair || candidate.successfulRepair }
def insertGroup (unicode : Unicode) : List Extracted → Extracted → List Extracted
  | [], candidate => [candidate]
  | group :: rest, candidate =>
    if group.dedupeKey = candidate.dedupeKey then absorb unicode group candidate :: rest
    else group :: insertGroup unicode rest candidate
/-- The order of `(lesson_kind, dedupe_key)`. -/
def before (one other : Extracted) : Bool :=
  if one.lessonKind = other.lessonKind then atMost one.dedupeKey other.dedupeKey else atMost one.lessonKind other.lessonKind
def dedupeLearningCandidates (unicode : Unicode) (candidates : List Extracted) : List Extracted :=
  (candidates.foldl (insertGroup unicode) []).insertionSort fun one other => before one other
def learningConfidence (candidate : Extracted) : Text :=
  if 2 ≤ candidate.evidenceRefs.length then text "high"
  else if candidate.deterministic && candidate.successfulRepair then text "high"
  else if candidate.deterministic then text "medium"
  else text "low"

/-- What `learn_from_run` proposes of a group, with the ids that new candidates get by their keys. -/
def lessonOf (fresh : Text → Text) (group : Extracted) : Lesson where
  proposal :=
    { newId := fresh group.dedupeKey
      lesson := group.lesson
      evidenceRef := group.evidenceRefs.headD []
      candidateType := text "procedural"
      dedupeKey := group.dedupeKey
      lessonKind := group.lessonKind
      confidence := learningConfidence group
      domainTags := group.domainTags
      marketTags := group.marketTags
      platformTags := group.platformTags
      stages := group.stages
      sourceUri := group.sourceUri
      trustLevel := text "agent_reviewed"
      learning := some ⟨group.evidenceRefs.length⟩ }
  laterRefs := group.evidenceRefs.tail

def groups (settings : LessonSettings) (findings : List Finding) : List Extracted :=
  dedupeLearningCandidates settings.unicode (learningCandidatesFromArtifacts settings findings)
/-- The lessons that `learn_from_run` goes through. -/
def runLessons (settings : LessonSettings) (fresh : Text → Text) (findings : List Finding) : List Lesson :=
  (groups settings findings).map (lessonOf fresh)

variable {unicode : Unicode} {values : List Text}
variable {t : Text}

theorem mem_dedupeStrings :
    t ∈ dedupeStrings unicode values ↔ t ≠ [] ∧ ∃ value ∈ values, strip unicode value = t := by
  have run : ∀ (values output : List Text), t ∈ values.foldl (fun output value =>
      let normalized := strip unicode value
      if normalized = [] ∨ normalized ∈ output then output else output ++ [normalized]) output ↔
        t ∈ output ∨ t ≠ [] ∧ ∃ value ∈ values, strip unicode value = t := by
    intro values
    induction values with
    | nil => simp
    | cons value rest ih =>
      intro output
      rw [foldl_cons,ih]
      dsimp only
      split_ifs with skipped
      · constructor
        · rintro (earlier | ⟨some,other,member,same⟩)
          · exact .inl earlier
          · exact .inr ⟨some,other,mem_cons_of_mem _ member,same⟩
        · rintro (earlier | ⟨some,other,member,same⟩)
          · exact .inl earlier
          rcases mem_cons.mp member with rfl | later
          · rw [same] at skipped
            exact .inl (skipped.resolve_left some)
          · exact .inr ⟨some,other,later,same⟩
      · rw [not_or] at skipped
        constructor
        · rintro (inOutput | ⟨some,other,member,same⟩)
          · rcases mem_append.mp inOutput with earlier | last
            · exact .inl earlier
            · rw [mem_singleton.mp last]
              exact .inr ⟨skipped.1,value,mem_cons_self,rfl⟩
          · exact .inr ⟨some,other,mem_cons_of_mem _ member,same⟩
        · rintro (earlier | ⟨some,other,member,same⟩)
          · exact .inl (mem_append_left _ earlier)
          rcases mem_cons.mp member with rfl | later
          · exact .inl (mem_append_right _ (mem_singleton.mpr same.symm))
          · exact .inr ⟨some,other,later,same⟩
  have whole := run values []
  simpa [dedupeStrings] using whole

/-- A text that `_dedupe_strings` keeps as it is. -/
def Stripped (unicode : Unicode) (t : Text) : Prop := t ≠ [] ∧ strip unicode t = t
theorem stripped_dedupe : ∀ t ∈ dedupeStrings unicode values, Stripped unicode t := by
  intro t member
  obtain ⟨some,value,_,rfl⟩ := mem_dedupeStrings.mp member
  exact ⟨some,strip_strip unicode value⟩

theorem mem_dedupe_stripped (stripped : ∀ t ∈ values, Stripped unicode t) :
    t ∈ dedupeStrings unicode values ↔ t ∈ values := by
  rw [mem_dedupeStrings]
  constructor
  · rintro ⟨some,value,member,rfl⟩
    rw [(stripped value member).2]
    exact member
  · exact fun member => ⟨(stripped t member).1,t,member,(stripped t member).2⟩

section
variable {settings : LessonSettings}

def topics : List Topic :=
  [.versionHeader,.strategyExit,.lookahead,.positionSizing,.exitWarning,.unnamedCheck,.invalidation,.premise,.session,.sampleSize,
    .executionCosts,.drawdown,.lossStreak,.oosWindow,.suspiciousMetrics,.routeHealth,.missingContext,.contextBudget,.latency,.proxyEvents]
theorem mem_topics (topic : Topic) : topic ∈ topics := by
  cases topic <;> decide
theorem lessons_ascii : ∀ topic ∈ topics, ∀ c ∈ topic.lesson, c < 128 := by
  simp only [topics,forall_mem_cons,Topic.lesson]
  repeat rw [text_ofList]
  decide +kernel
theorem lessons_apart : (topics.map fun topic => normalizeLearningText ascii topic.lesson).Nodup := by
  simp only [topics,map_cons,map_nil,Topic.lesson]
  repeat rw [text_ofList]
  decide +kernel

variable {unicode : Unicode}
variable {other : Unicode} {t : Text}

theorem strip_congr (same : ∀ c ∈ t, unicode.space c = other.space c) : strip unicode t = strip other t := by
  have drop : ∀ rest : Text, (∀ c ∈ rest, unicode.space c = other.space c) → rest.dropWhile unicode.space = rest.dropWhile other.space := by
    intro rest same
    induction rest with
    | nil => rfl
    | cons c rest ih =>
      rw [dropWhile_cons,dropWhile_cons,same c mem_cons_self,ih fun d later => same d (mem_cons_of_mem c later)]
  have front : ∀ c ∈ (t.dropWhile other.space).reverse, unicode.space c = other.space c := by
    intro c member
    exact same c ((dropWhile_sublist _).subset (mem_reverse.mp member))
  rw [strip,strip,drop t same,drop _ front]

theorem squeeze_congr (after : Bool) (same : ∀ c ∈ t, unicode.space c = other.space c) :
    squeeze unicode after t = squeeze other after t := by
  induction t generalizing after with
  | nil => rfl
  | cons c t ih =>
    have rest : ∀ after, squeeze unicode after t = squeeze other after t := fun after => ih after fun d later => same d (mem_cons_of_mem c later)
    rw [squeeze,squeeze,same c mem_cons_self,rest,rest]

theorem mem_squeeze {after : Bool} {c : Nat} (member : c ∈ squeeze unicode after t) : c = 32 ∨ c ∈ t := by
  fun_induction squeeze unicode after t with
  | case1 => cases member
  | case2 d t blank ih => exact (ih member).imp id (mem_cons_of_mem d)
  | case3 after d t blank first ih =>
    rcases mem_cons.mp member with isSpace | later
    · exact .inl isSpace
    · exact (ih later).imp id (mem_cons_of_mem d)
  | case4 after d t visible ih =>
    rcases mem_cons.mp member with rfl | later
    · exact .inr mem_cons_self
    · exact (ih later).imp id (mem_cons_of_mem d)

theorem normalize_ascii (small : ∀ c ∈ t, c < 128) :
    normalizeLearningText settings.unicode t = normalizeLearningText ascii t := by
  have lowered : ∀ c ∈ ascii.lower t, c < 128 := by
    intro c member
    obtain ⟨d,inText,rfl⟩ := mem_map.mp member
    have bound := small d inText
    split_ifs with upper
    · have range : 65 ≤ d ∧ d ≤ 90 := by simpa [asciiUpper,between] using upper
      omega
    · exact bound
  rw [normalizeLearningText,normalizeLearningText,settings.lower_ascii t small,
    squeeze_congr false fun c member => settings.space_ascii c (lowered c member)]
  refine strip_congr fun c member => settings.space_ascii c ?_
  rcases mem_squeeze member with rfl | inText
  · decide
  · exact lowered c inText

/-- The text of a lesson, normalized, tells its topic. -/
theorem lesson_injective {one other : Topic}
    (same : normalizeLearningText settings.unicode one.lesson = normalizeLearningText settings.unicode other.lesson) : one = other := by
  have small : ∀ topic : Topic, ∀ c ∈ topic.lesson, c < 128 := fun topic => lessons_ascii topic (mem_topics topic)
  rw [normalize_ascii (small one),normalize_ascii (small other)] at same
  exact inj_on_of_nodup_map lessons_apart (mem_topics one) (mem_topics other) same
def bare (candidate : Extracted) : Extracted := { candidate with evidenceRefs := [], caseIds := [], successfulRepair := false }
/-- A candidate of a topic, from a file. -/
def Drawn (settings : LessonSettings) (candidate : Extracted) : Prop :=
  ∃ topic ref caseId stage failureClass check repaired, Stripped settings.unicode ref ∧
    candidate = topicCandidate settings topic ref caseId stage failureClass check repaired

variable {one : Extracted}

theorem alike {other : Extracted} (isOne : Drawn settings one) (isOther : Drawn settings other) (same : one.dedupeKey = other.dedupeKey) :
    bare one = bare other := by
  obtain ⟨topic,ref,caseId,stage,failureClass,check,repaired,_,rfl⟩ := isOne
  obtain ⟨alsoTopic,alsoRef,alsoCase,alsoStage,alsoClass,alsoCheck,alsoRepaired,_,rfl⟩ := isOther
  have payload := settings.digest_injective same
  injection payload with _ lesson isStage isClass isCheck
  cases lesson_injective lesson
  cases isStage
  cases isClass
  cases isCheck
  rfl

variable {candidate : Extracted}
theorem Drawn.lesson (drawn : Drawn settings candidate) : ∃ topic : Topic, candidate.lesson = topic.lesson := by
  obtain ⟨topic,_,_,_,_,_,_,_,rfl⟩ := drawn
  exact ⟨topic,rfl⟩

theorem path_stripped (finding : Finding) : Stripped settings.unicode finding.path := by
  have some : finding.path ≠ [] := by
    intro none
    have absolute := finding.absolute
    rw [none] at absolute
    cases absolute
  refine ⟨some,strip_trimmed ⟨?_,?_⟩⟩
  · intro c first
    rw [finding.absolute] at first
    cases first
    rw [settings.space_ascii 47 (by decide)]
    rfl
  · intro c last
    rw [finding.json] at last
    cases last
    rw [settings.space_ascii 110 (by decide)]
    rfl

theorem drawn_artifacts {findings : List Finding}
    (member : candidate ∈ learningCandidatesFromArtifacts settings findings) : Drawn settings candidate := by
  obtain ⟨finding,_,rfl⟩ := mem_map.mp member
  exact ⟨finding.topic,_,_,_,_,_,_,path_stripped finding,rfl⟩

theorem insertGroup_cases (unicode : Unicode) (candidate : Extracted) (found : List Extracted) :
    (∃ front group rest, found = front ++ group :: rest ∧ group.dedupeKey = candidate.dedupeKey ∧
      insertGroup unicode found candidate = front ++ absorb unicode group candidate :: rest) ∨
    (∀ group ∈ found, group.dedupeKey ≠ candidate.dedupeKey) ∧ insertGroup unicode found candidate = found ++ [candidate] := by
  induction found with
  | nil => exact .inr ⟨nofun,rfl⟩
  | cons group rest ih =>
    rw [insertGroup]
    by_cases same : group.dedupeKey = candidate.dedupeKey
    · exact .inl ⟨[],group,rest,rfl,same,if_pos same⟩
    · rw [if_neg same]
      rcases ih with ⟨front,other,later,rfl,isSame,inserted⟩ | ⟨apart,inserted⟩
      · exact .inl ⟨group :: front,other,later,rfl,isSame,by rw [inserted]; rfl⟩
      · exact .inr ⟨forall_mem_cons.mpr ⟨same,apart⟩,by rw [inserted]; rfl⟩

theorem bare_key {other : Extracted} (same : bare one = bare other) : one.dedupeKey = other.dedupeKey := by
  have keys : (bare one).dedupeKey = (bare other).dedupeKey := congrArg Extracted.dedupeKey same
  exact keys
/-- Groups of the candidates that are read: one for a key, with the evidence of all. -/
structure Grouped (settings : LessonSettings) (read found : List Extracted) : Prop where
  distinct : (found.map (·.dedupeKey)).Nodup
  covers : ∀ candidate ∈ read, ∃ group ∈ found, bare group = bare candidate ∧ candidate.evidenceRefs ⊆ group.evidenceRefs
  taken : ∀ group ∈ found, ∃ candidate ∈ read, bare group = bare candidate
  evidence : ∀ group ∈ found, group.evidenceRefs ≠ [] ∧ ∀ ref ∈ group.evidenceRefs, Stripped settings.unicode ref
theorem Drawn.evidence (drawn : Drawn settings candidate) :
    candidate.evidenceRefs ≠ [] ∧ ∀ ref ∈ candidate.evidenceRefs, Stripped settings.unicode ref := by
  obtain ⟨topic,ref,_,_,_,_,_,file,rfl⟩ := drawn
  refine ⟨cons_ne_nil _ _,fun other member => ?_⟩
  rw [mem_singleton.mp member]
  exact file

theorem grouped_insert {read found : List Extracted} (grouped : Grouped settings read found)
    (isDrawn : Drawn settings candidate) (drawn : ∀ other ∈ read, Drawn settings other) :
    Grouped settings (read ++ [candidate]) (insertGroup settings.unicode found candidate) := by
  rcases insertGroup_cases settings.unicode candidate found with ⟨front,group,rest,rfl,same,inserted⟩ | ⟨apart,inserted⟩
  · have inGroups : group ∈ front ++ group :: rest := mem_append_right _ mem_cons_self
    obtain ⟨first,isRead,isFirst⟩ := grouped.taken group inGroups
    have isAlike : bare group = bare candidate := by
      rw [isFirst]
      exact alike (drawn first isRead) isDrawn ((bare_key isFirst).symm.trans same)
    have stripped : ∀ ref ∈ group.evidenceRefs ++ candidate.evidenceRefs, Stripped settings.unicode ref := by
      intro ref member
      rcases mem_append.mp member with former | new
      · exact (grouped.evidence group inGroups).2 ref former
      · exact isDrawn.evidence.2 ref new
    have united : ∀ ref, ref ∈ (absorb settings.unicode group candidate).evidenceRefs ↔ ref ∈ group.evidenceRefs ++ candidate.evidenceRefs :=
      fun ref => mem_dedupe_stripped stripped
    have others : ∀ other, other ∈ front ++ group :: rest → other = group ∨ other ∈ front ++ absorb settings.unicode group candidate :: rest := by
      intro other member
      simp only [mem_append,mem_cons] at member ⊢
      tauto
    rw [inserted]
    refine ⟨?_,?_,?_,?_⟩
    · have distinct := grouped.distinct
      rw [map_append,map_cons] at distinct ⊢
      exact distinct
    · intro other member
      rcases mem_append.mp member with former | last
      · obtain ⟨found,isFound,isBare,evidence⟩ := grouped.covers other former
        rcases others found isFound with rfl | kept
        · refine ⟨_,mem_append_right _ mem_cons_self,isBare,fun ref inRefs => ?_⟩
          exact (united ref).mpr (mem_append_left _ (evidence inRefs))
        · exact ⟨found,kept,isBare,evidence⟩
      · rw [mem_singleton.mp last]
        refine ⟨_,mem_append_right _ mem_cons_self,isAlike,fun ref inRefs => ?_⟩
        exact (united ref).mpr (mem_append_right _ inRefs)
    · intro other member
      have known : ∀ former ∈ front ++ group :: rest, ∃ read' ∈ read ++ [candidate], bare former = bare read' := by
        intro former isFormer
        obtain ⟨source,isSource,isBare⟩ := grouped.taken former isFormer
        exact ⟨source,mem_append_left _ isSource,isBare⟩
      rcases mem_append.mp member with early | late
      · exact known other (mem_append_left _ early)
      rcases mem_cons.mp late with rfl | later
      · exact known group inGroups
      · exact known other (mem_append_right _ (mem_cons_of_mem _ later))
    · intro other member
      rcases mem_append.mp member with early | late
      · exact grouped.evidence other (mem_append_left _ early)
      rcases mem_cons.mp late with rfl | later
      · constructor
        · obtain ⟨ref,inRefs⟩ := exists_mem_of_ne_nil _ isDrawn.evidence.1
          exact ne_nil_of_mem ((united ref).mpr (mem_append_right _ inRefs))
        · exact fun ref inRefs => stripped ref ((united ref).mp inRefs)
      · exact grouped.evidence other (mem_append_right _ (mem_cons_of_mem _ later))
  · rw [inserted]
    refine ⟨?_,?_,?_,?_⟩
    · rw [map_append,map_singleton,nodup_append]
      refine ⟨grouped.distinct,nodup_singleton _,?_⟩
      intro key member other isOther same
      obtain ⟨group,isGroup,rfl⟩ := mem_map.mp member
      rw [mem_singleton.mp isOther] at same
      exact apart group isGroup same
    · intro other member
      rcases mem_append.mp member with former | last
      · obtain ⟨found,isFound,isBare,evidence⟩ := grouped.covers other former
        exact ⟨found,mem_append_left _ isFound,isBare,evidence⟩
      · rw [mem_singleton.mp last]
        exact ⟨candidate,mem_append_right _ mem_cons_self,rfl,List.Subset.refl _⟩
    · intro other member
      rcases mem_append.mp member with former | last
      · obtain ⟨source,isSource,isBare⟩ := grouped.taken other former
        exact ⟨source,mem_append_left _ isSource,isBare⟩
      · exact ⟨candidate,mem_append_right _ mem_cons_self,by rw [mem_singleton.mp last]⟩
    · intro other member
      rcases mem_append.mp member with former | last
      · exact grouped.evidence other former
      · rw [mem_singleton.mp last]
        exact isDrawn.evidence

/-- The groups have all candidates. -/
theorem grouped_artifacts (findings : List Finding) :
    Grouped settings (learningCandidatesFromArtifacts settings findings) (groups settings findings) := by
  have run : ∀ (rest read found : List Extracted), (∀ candidate ∈ read ++ rest, Drawn settings candidate) → Grouped settings read found →
      Grouped settings (read ++ rest) (rest.foldl (insertGroup settings.unicode) found) := by
    intro rest
    induction rest with
    | nil =>
      intro read found _ grouped
      rw [append_nil]
      exact grouped
    | cons candidate rest ih =>
      intro read found drawn grouped
      have split : read ++ candidate :: rest = read ++ [candidate] ++ rest := by simp
      rw [split] at drawn ⊢
      have isDrawn := drawn candidate (mem_append_left _ (mem_append_right _ mem_cons_self))
      exact ih _ _ drawn (grouped_insert grouped isDrawn fun other member => drawn other (mem_append_left _ (mem_append_left _ member)))
  have unsorted := run (learningCandidatesFromArtifacts settings findings) [] [] (fun _ member => drawn_artifacts member) ⟨nodup_nil,nofun,nofun,nofun⟩
  have perm := perm_insertionSort (fun one other : Extracted => (before one other : Prop))
    ((learningCandidatesFromArtifacts settings findings).foldl (insertGroup settings.unicode) [])
  rw [nil_append] at unsorted
  refine ⟨(perm.map _).nodup_iff.mpr unsorted.distinct,?_,?_,?_⟩
  · intro candidate member
    obtain ⟨group,isGroup,rest⟩ := unsorted.covers candidate member
    exact ⟨group,perm.mem_iff.mpr isGroup,rest⟩
  · exact fun group member => unsorted.taken group (perm.mem_iff.mp member)
  · exact fun group member => unsorted.evidence group (perm.mem_iff.mp member)

end

end Codebot.RunLessons
