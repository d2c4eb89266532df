import Codebot.Loops
import Codebot.PolicyEngine

/-!
A live generation of a strategy: its stages give a strategy spec and Pine code, which are normalized, validated and
reviewed, and repaired in a loop (`generates`).

The stages are functions of what happened before and of their artifacts; they return what they should or fail. The
validator, the schema of a spec and the templates are parameters.
-/
namespace Codebot.LiveGeneration
open Texts Regexes PolicyEngine Loops List

structure Check where
  name : Text
  status : Text
  details : Text
deriving DecidableEq
structure Validation where
  status : Text
  checks : List Check
  warnings : List Text
  nextActions : List Text
deriving DecidableEq

/-- A strategy spec, whose other fields are one text. -/
structure StrategySpec where
  name : Text
  targetPlatform : Text
  scriptType : Text
  constraints : List Text
  others : Text
deriving DecidableEq

/-- The output of a review. -/
structure Review where
  verdict : Text
  requiredFixes : List Text
  rationale : Text
deriving DecidableEq
/-- `current_artifacts`. -/
structure Artifacts where
  strategySpec : Option StrategySpec
  pineCode : Option Text
  validation : Option Validation
  review : Option Review
deriving DecidableEq
inductive RepairSource
  | llm
  | deterministic
deriving DecidableEq
/-- An entry of `repair_history`. -/
structure RepairRecord where
  iteration : Nat
  source : RepairSource
  validation : Validation
  review : Option Review
deriving DecidableEq

/-- What happens in a generation. -/
inductive Event
  | round
  | llmRepair
  | providerReview
  | changed (strategySpec : StrategySpec) (pineCode : Text)
  | reviewed (seen : Artifacts) (review : Review)
deriving DecidableEq

inductive Failure
  | stage (error : Text)
  | schema
  | emptyPineCode
  | unreadableNumber
  | safetyPolicyViolation
  | workflowGateFailed
deriving DecidableEq

/-- The prompt and the policy of a generation, and what its checks are computed with. -/
structure Settings where
  alphabet : Alphabet
  prompt : Text
  enforce : Bool
  validSpec : StrategySpec → Bool
  validatePine : Text → StrategySpec → Validation
  moveVersionHeader : Text → Option Text
  priceActionTemplate : StrategySpec → Text
  dumpArtifacts : StrategySpec → Text → Text

/-- The stages, with the events before them. -/
structure Stages where
  strategyReasoning : Except Text Unit
  strategyCoding : Except Text StrategySpec
  pineCodeGeneration : StrategySpec → Except Text Text
  balancedReview : List Event → Artifacts → Except Text Review
  repair : List Event → Artifacts → Except Text (StrategySpec × Text)
structure TierConfig where
  maxRepairLoops : Option Int
  maxLlmRepairLoops : Option Int
  maxPostRepairReviews : Option Int
  allowDeterministicRepairAfterBudget : Option Bool
/-- `_max_repair_loops_for_tier`. -/
def TierConfig.repairLoops (tier : TierConfig) : Int := tier.maxRepairLoops.getD 2
/-- `_max_llm_repair_loops_for_tier`. -/
def TierConfig.llmRepairLoops (tier : TierConfig) : Int := tier.maxLlmRepairLoops.getD tier.repairLoops
/-- `_max_post_repair_reviews_for_tier`. -/
def TierConfig.postRepairReviews (tier : TierConfig) : Int := tier.maxPostRepairReviews.getD tier.repairLoops
/-- `_allow_deterministic_repair_after_budget`. -/
def TierConfig.allowDeterministicAfterBudget (tier : TierConfig) : Bool := tier.allowDeterministicRepairAfterBudget.getD true
def statusPass : Text := text "pass"
def statusFail : Text := text "fail"
def validationFailures (validation : Validation) : List Check :=
  validation.checks.filter fun check => !(check.status == statusPass || check.status == text "skipped")
def validationAllowsArtifact (validation : Validation) : Bool :=
  validation.status == statusPass || (validation.status == text "manual_required" && (validationFailures validation).isEmpty)
/-- `_required_fix_blocks_production`. -/
def blockerTerms : List String :=
  ["strategy.exit","stop loss","stop-loss","take profit","take-profit","schema","static validation","version_header",
    "pine version","policy","guaranteed","risk-free","no-loss","broker","live ready","live-ready","live execution"]
def requiresRepair (unicode : Unicode) (validation : Validation) (review : Review) : Bool :=
  !validationAllowsArtifact validation || review.verdict == statusFail ||
    review.requiredFixes.any fun fix => blockerTerms.any fun term => contains (text term) (unicode.lower fix)
def fixOf (failure : Check) : Text := failure.name ++ text ": " ++ failure.details
/-- `_static_review_payload`. -/
def staticReview (validation : Validation) (reason : Text) : Review :=
  let failures := validationFailures validation
  { verdict := if failures = [] then statusPass else text "needs_fix"
    requiredFixes := failures.map fixOf
    rationale := text "Deterministic static review used because " ++ reason ++ text "; static validation remains authoritative." }

def alignReviewWithValidation (review : Review) (validation : Validation) : Review :=
  let failures := validationFailures validation
  if failures = [] then review
  else if review.verdict ≠ statusPass ∧ review.requiredFixes ≠ [] then review
  else
    { verdict := text "needs_fix"
      requiredFixes :=
        if review.requiredFixes = [] then (failures.filter (·.name ≠ [])).map fixOf else review.requiredFixes
      rationale :=
        if review.rationale = [] then text "Static validation failures require fixes before the artifact can pass review."
        else review.rationale }

def priceActionOnlyPromptTerms : List String :=
  ["price action only","no indicator","no indicators","without indicator","without indicators"]
def priceActionPromptTerms : List String := ["price action","liquidity sweep","sweep","break of structure","bos","retest"]
def priceActionForbiddenPineTerms : List (String × String) :=
  [("ta.atr","ATR"),("ta.sma","moving average"),("ta.ema","moving average"),("ta.wma","moving average"),
    ("ta.rma","moving average"),("ta.rsi","RSI"),("ta.macd","MACD"),("ta.stoch","stochastic")]

section
variable (settings : Settings)

def lowered (t : Text) : Text := settings.alphabet.lower t
def promptHas (term : String) : Bool := contains (text term) (lowered settings settings.prompt)
def promptRequestsPriceActionOnly : Bool :=
  priceActionOnlyPromptTerms.any (promptHas settings) && priceActionPromptTerms.any (promptHas settings)

def priceActionForbiddenIndicatorFindings (code : Text) : List Check :=
  if promptRequestsPriceActionOnly settings then
    (priceActionForbiddenPineTerms.filter fun entry => contains (text entry.1) (lowered settings code)).map fun entry =>
      { name := text "price_action_only_indicators"
        status := statusFail
        details := text "Price-action-only prompt forbids " ++ text entry.2 ++ text "; remove `" ++ text entry.1 ++
          text "` and use OHLC-derived structure instead." }
  else []

def applyPriceActionValidation (code : Text) (validation : Validation) : Validation :=
  let findings := priceActionForbiddenIndicatorFindings settings code
  if findings = [] then validation
  else
    { validation with
      status := statusFail
      checks := validation.checks ++ findings
      nextActions := validation.nextActions ++ findings.map (·.details) }

def validated (spec : StrategySpec) (code : Text) : Validation :=
  applyPriceActionValidation settings code (settings.validatePine code spec)
def promptRequestsBothPlatforms : Bool :=
  promptHas settings "both-platform" || promptHas settings "both platform" || (promptHas settings "pine" && promptHas settings "mql5") ||
    (promptHas settings "tradingview" && promptHas settings "metatrader")

/-- `_normalize_target_platform_for_prompt`, with the kinds of its normalizations. -/
def normalizeTargetPlatformForPrompt (spec : StrategySpec) : StrategySpec × List Text :=
  if !promptRequestsBothPlatforms settings || spec.targetPlatform == text "both" then (spec,[])
  else
    ({ spec with
        targetPlatform := text "both"
        constraints := spec.constraints ++ [text "MQL5 output is design-only and requires manual MetaTrader validation."] },
      [text "target_platform"])

def normalizeScriptTypeForStrategyPrompt (spec : StrategySpec) : StrategySpec × List Text :=
  if !promptHas settings "strategy" || spec.scriptType == text "strategy" then (spec,[])
  else ({ spec with scriptType := text "strategy" },[text "script_type"])

/-- The constraints of a price action prompt, the first of them `PRICE_ACTION_ALLOWED_CONSTRAINT`. -/
def priceActionConstraints : List Text :=
  [text "Price-action-only prompt: do not use ATR, moving averages, RSI, MACD, stochastic, or other indicator transforms " ++
      text "unless the prompt explicitly allows them. Use only OHLC-derived swing levels, pivots, support/resistance, wick/close, " ++
      text "sweep, reclaim, BOS/retest, and structure conditions.",
    text "Market premise: use the setup only in a defined trend/range/volatility or liquidity regime; " ++
      text "avoid low-liquidity chop and repeated failed reclaims.",
    text "Define swing highs/lows explicitly with confirmed OHLC pivots or prior structure levels; avoid future-looking entries.",
    text "Define sweep buffer, reclaim close, stop beyond swept wick/level, and structure target or bounded risk-reward fallback."]

def normalizePriceActionConstraintsForPrompt (spec : StrategySpec) : StrategySpec × List Text :=
  let constraints := priceActionConstraints.foldl (fun constraints addition =>
    if constraints.contains addition then constraints else constraints ++ [addition]) spec.constraints
  if !promptRequestsPriceActionOnly settings || constraints == spec.constraints then (spec,[])
  else ({ spec with constraints := constraints },[text "price_action_constraints"])
/-- The three normalizations of a spec in turn. -/
def normalizeSpec (spec : StrategySpec) : StrategySpec × List Text :=
  let first := normalizeTargetPlatformForPrompt settings spec
  let second := normalizeScriptTypeForStrategyPrompt settings first.1
  let third := normalizePriceActionConstraintsForPrompt settings second.1
  (third.1,first.2 ++ second.2 ++ third.2)

/-- `_normalize_script_declaration_for_strategy_spec`: the word before the last code point of the match. -/
def normalizeScriptDeclaration (spec : StrategySpec) (code : Text) : Option Text :=
  if spec.scriptType ≠ text "strategy" then none
  else
    match compile false (text "\\bstrategy\\s*\\("),compile false (text "\\bindicator\\s*\\(") with
    | some strategy,some indicator =>
      if (search settings.alphabet strategy code).isSome then none
      else (search settings.alphabet indicator code).map fun found =>
        found.1.before.reverse ++ text "strategy" ++ text "(" ++ found.2.after
    | _,_ => none

def normalizeRepaintLookahead (code : Text) : Option Text :=
  if contains (text "barmerge.lookahead_on") code then
    some (replaceText (text "barmerge.lookahead_on") (text "barmerge.lookahead_off") code)
  else none
/-- A change that is recorded under its kind. -/
def recorded (kind : String) (change : Text → Option Text) (code : Text × List Text) : Text × List Text :=
  match change code.1 with
  | none => code
  | some changed => (changed,code.2 ++ [text kind])
def normalizeLivePineCode (spec : StrategySpec) (code : Text) : Text × List Text :=
  recorded "script_declaration" (normalizeScriptDeclaration settings spec)
    (recorded "repaint_lookahead_on_to_off" normalizeRepaintLookahead
      (recorded "pine_version_header" settings.moveVersionHeader (code,[])))
def priceActionPineNeedsTemplateRepair (code : Text) : Bool :=
  promptRequestsPriceActionOnly settings &&
    (!contains (text "strategy.entry") (lowered settings code) || !contains (text "strategy.exit") (lowered settings code) ||
      priceActionForbiddenPineTerms.any fun entry => contains (text entry.1) (lowered settings code))
def repairPriceActionPineIfIncomplete (spec : StrategySpec) : Text → Option Text := fun code =>
  if priceActionPineNeedsTemplateRepair settings code then some (settings.priceActionTemplate spec) else none
/-- The code of a stage is normalized, and replaced where it is incomplete. -/
def normalizeCode (spec : StrategySpec) (code : Text) : Text × List Text :=
  recorded "price_action_template_repair" (repairPriceActionPineIfIncomplete settings spec) (normalizeLivePineCode settings spec code)

/-- The spec and the code of a generation, with its counters. -/
structure Draft where
  strategySpec : StrategySpec
  pineCode : Text
  validation : Validation
  artifacts : Artifacts
  normalizations : List Text
  repairHistory : List RepairRecord
  repairCount : Nat
  llmRepairCount : Nat
  deterministicRepairCount : Nat
  postRepairReviewCount : Nat
  events : List Event

/-- A draft with its review. -/
structure State extends Draft where
  review : Review
  repairBudgetExhausted : Bool
/-- A failure with the events before it. -/
structure Raised where
  events : List Event
  failure : Failure

/-- `LiveGenerationResult`. -/
structure Result where
  strategySpec : StrategySpec
  pineCode : Text
  validation : Validation
  review : Review
  policyFindings : List PolicyFinding
  repairCount : Nat
  llmRepairCount : Nat
  deterministicRepairCount : Nat
  postRepairReviewCount : Nat
  repairBudgetExhausted : Bool
  repairHistory : List RepairRecord
  normalizations : List Text
  events : List Event

variable {settings}
def Draft.note (d : Draft) (event : Event) : Draft := { d with events := d.events ++ [event] }

variable (settings)

/-- A draft takes a spec and code and their validation. -/
def Draft.take (d : Draft) (spec : StrategySpec) (code : Text) (normalizations : List Text) : Draft :=
  let validation := validated settings spec code
  { d with
    strategySpec := spec
    pineCode := code
    validation := validation
    artifacts := { d.artifacts with strategySpec := some spec, pineCode := some code, validation := some validation }
    normalizations := d.normalizations ++ normalizations
    events := d.events ++ [.changed spec code] }

/-- A repair that is done is counted and recorded. -/
def Draft.record (d : Draft) (source : RepairSource) (iteration : Nat) : Draft :=
  { d with
    repairCount := iteration
    repairHistory := d.repairHistory ++ [⟨iteration,source,d.validation,none⟩] }

/-- The stages up to the code. -/
def draft (stages : Stages) : Except Failure Draft := do
  stages.strategyReasoning.mapError .stage
  let coded ← stages.strategyCoding.mapError .stage
  if !settings.validSpec coded then throw .schema
  let spec := normalizeSpec settings coded
  let code ← (stages.pineCodeGeneration spec.1).mapError .stage
  if strip settings.alphabet.toUnicode code = [] then throw .emptyPineCode
  let normalized := normalizeCode settings spec.1 code
  let validation := validated settings spec.1 normalized.1
  return {
    strategySpec := spec.1
    pineCode := normalized.1
    validation := validation
    artifacts := ⟨some spec.1,some normalized.1,some validation,none⟩
    normalizations := spec.2 ++ normalized.2
    repairHistory := []
    repairCount := 0
    llmRepairCount := 0
    deterministicRepairCount := 0
    postRepairReviewCount := 0
    events := [.changed spec.1 normalized.1] }

/-- `_maybe_run_deterministic_repair`: the draft, and whether something changed. -/
def maybeRunDeterministicRepair (d : Draft) : Except Failure (Draft × Bool) :=
  let spec := normalizeSpec settings d.strategySpec
  let code := normalizeCode settings spec.1 d.pineCode
  if spec.1 = d.strategySpec ∧ code.1 = d.pineCode ∧ spec.2 ++ code.2 = [] then .ok (d,false)
  else if !settings.validSpec spec.1 then .error .schema
  else
    let repaired := (d.take settings spec.1 code.1 (spec.2 ++ code.2)).record .deterministic (d.repairCount + 1)
    .ok ({ repaired with deterministicRepairCount := d.deterministicRepairCount + 1 },true)

def beginLlmRepair (d : Draft) : Draft := { d.note .llmRepair with llmRepairCount := d.llmRepairCount + 1 }

/-- What the repair stage gave is normalized and validated. -/
def finishLlmRepair (d : Draft) (output : Except Text (StrategySpec × Text)) : Except Failure Draft := do
  let repaired ← output.mapError .stage
  if !settings.validSpec repaired.1 then throw .schema
  let spec := normalizeSpec settings repaired.1
  if strip settings.alphabet.toUnicode repaired.2 = [] then throw .emptyPineCode
  let code := normalizeCode settings spec.1 repaired.2
  return (d.take settings spec.1 code.1 (spec.2 ++ code.2)).record .llm (d.repairCount + 1)

/-- A review is aligned with the validation and taken. -/
def Draft.reviewed (d : Draft) (exhausted : Bool) (output : Review) : State :=
  let review := alignReviewWithValidation output d.validation
  { d with
    artifacts := { d.artifacts with validation := some d.validation, review := some review }
    events := d.events ++ [.reviewed d.artifacts review]
    review := review
    repairBudgetExhausted := exhausted }

/-- The review after the first code. -/
def firstReview (stages : Stages) (d : Draft) : Except Failure State :=
  if !validationAllowsArtifact d.validation then
    .ok (d.reviewed false (staticReview d.validation (text "validation_blocking_before_review")))
  else ((stages.balancedReview d.events d.artifacts).mapError .stage).map (d.reviewed false)
def State.recordReview (s : State) : State :=
  { s with repairHistory := s.repairHistory.modifyLast fun repair => { repair with review := some s.review } }

/-- The review after a repair. -/
def reviewRepair (stages : Stages) (tier : TierConfig) (d : Draft) (exhausted : Bool) : Round State Raised :=
  if !validationAllowsArtifact d.validation then
    .again (d.reviewed exhausted (staticReview d.validation (text "validation_blocking_after_repair"))).recordReview
  else if tier.postRepairReviews ≤ d.postRepairReviewCount then
    .again (d.reviewed exhausted (staticReview d.validation (text "post_repair_review_budget_exhausted"))).recordReview
  else
    let counted := { d.note .providerReview with postRepairReviewCount := d.postRepairReviewCount + 1 }
    match stages.balancedReview counted.events counted.artifacts with
    | .error error => .raised ⟨counted.events,.stage error⟩
    | .ok review => .again (counted.reviewed exhausted review).recordReview

/-- A round of the repair loop. -/
def repairRound (stages : Stages) (tier : TierConfig) (s : State) : Round State Raised :=
  if !(requiresRepair settings.alphabet.toUnicode s.validation s.review && decide ((s.repairCount : Int) < tier.repairLoops)) then .left s
  else
    let d := s.toDraft.note .round
    let deterministicAllowed := decide ((d.llmRepairCount : Int) < tier.llmRepairLoops) || tier.allowDeterministicAfterBudget
    match (if deterministicAllowed then maybeRunDeterministicRepair settings d else .ok (d,false)) with
    | .error failure => .raised ⟨d.events,failure⟩
    | .ok (repaired,true) => reviewRepair stages tier repaired s.repairBudgetExhausted
    | .ok (same,false) =>
      if tier.llmRepairLoops ≤ same.llmRepairCount then .left { s with toDraft := same, repairBudgetExhausted := true }
      else
        let begun := beginLlmRepair same
        match finishLlmRepair settings begun (stages.repair begun.events begun.artifacts) with
        | .error failure => .raised ⟨begun.events,failure⟩
        | .ok repaired => reviewRepair stages tier repaired s.repairBudgetExhausted

/-- `find_policy_claims` of the spec and the code. -/
def findPolicyClaims (spec : StrategySpec) (code : Text) : Except JsonTexts.Failure (List PolicyFinding) :=
  evaluateText settings.alphabet (settings.dumpArtifacts spec code) .policyText .generatedArtifact

/-- The gate at the end. -/
def finalGate (s : State) : Except Raised Result :=
  match findPolicyClaims settings s.strategySpec s.pineCode with
  | .error _ => .error ⟨s.events,.unreadableNumber⟩
  | .ok findings =>
    let blocking := findings.any (·.severity = .blocker)
    if !validationAllowsArtifact s.validation || s.review.verdict == statusFail || (settings.enforce && blocking) then
      .error ⟨s.events,if blocking then .safetyPolicyViolation else .workflowGateFailed⟩
    else
      .ok
        { strategySpec := s.strategySpec
          pineCode := s.pineCode
          validation := s.validation
          review := s.review
          policyFindings := findings
          repairCount := s.repairCount
          llmRepairCount := s.llmRepairCount
          deterministicRepairCount := s.deterministicRepairCount
          postRepairReviewCount := s.postRepairReviewCount
          repairBudgetExhausted := s.repairBudgetExhausted || requiresRepair settings.alphabet.toUnicode s.validation s.review
          repairHistory := s.repairHistory
          normalizations := s.normalizations
          events := s.events }

/-- The stages before the loop, with a repair that needs no stage if the first code does not pass. -/
def opening (stages : Stages) : Except Failure State := do
  let first ← draft settings stages
  if validationAllowsArtifact first.validation then firstReview stages first
  else
    let repaired ← maybeRunDeterministicRepair settings first
    firstReview stages repaired.1
/-- `_generate_multi_agent_live`, with a bound on the rounds of its loop. -/
def generateMultiAgentLive (stages : Stages) (tier : TierConfig) (fuel : Nat) : Option (Except Raised Result) :=
  match opening settings stages with
  | .error failure => some (.error ⟨[],failure⟩)
  | .ok s => (loop (repairRound settings stages tier) fuel s).map fun ended => ended.bind (finalGate settings)
/-- The validation of a draft is that of its spec and code, and the stages are given the three. -/
structure Drafted (d : Draft) : Prop where
  validation : d.validation = validated settings d.strategySpec d.pineCode
  seenSpec : d.artifacts.strategySpec = some d.strategySpec
  seenCode : d.artifacts.pineCode = some d.pineCode
  seenValidation : d.artifacts.validation = some d.validation

variable (tier : TierConfig)
/-- The rounds of the loop, its repair stages and its review stages are within their budgets. -/
structure Bounded (events : List Event) : Prop where
  rounds : (events.count .round : Int) ≤ max 0 tier.repairLoops
  llmRepairs : (events.count .llmRepair : Int) ≤ max 0 tier.llmRepairLoops
  providerReviews : (events.count .providerReview : Int) ≤ max 0 tier.postRepairReviews
/-- The counters of a draft count its events. -/
structure Counted (d : Draft) : Prop where
  rounds : d.events.count .round ≤ d.repairCount
  llmRepairs : d.events.count .llmRepair = d.llmRepairCount
  providerReviews : d.events.count .providerReview = d.postRepairReviewCount
/-- The last review saw the spec, the code and the validation of the draft, which have not changed since. -/
def ReviewedLast (d : Draft) (review : Review) : Prop :=
  ∃ earlier seen later, d.events = earlier ++ .reviewed seen review :: later ∧ (∀ spec code, .changed spec code ∉ later) ∧
    seen.strategySpec = some d.strategySpec ∧ seen.pineCode = some d.pineCode ∧ seen.validation = some d.validation
/-- What holds before each round of the loop. -/
structure Sound (s : State) : Prop where
  drafted : Drafted settings s.toDraft
  counted : Counted s.toDraft
  bounded : Bounded tier s.events
  reviewed : ReviewedLast s.toDraft s.review
/-- What holds where the loop ends. -/
structure Over (s : State) : Prop where
  drafted : Drafted settings s.toDraft
  bounded : Bounded tier s.events
  reviewed : ReviewedLast s.toDraft s.review

variable {settings tier}

theorem drafted_draft {stages : Stages} {d : Draft} (done : draft settings stages = .ok d) :
    Drafted settings d ∧ Counted d ∧ Bounded tier d.events := by
  simp only [draft,bind,Except.bind,pure,Except.pure,throw,throwThe,MonadExceptOf.throw] at done
  split at done
  · cases done
  split at done
  · cases done
  split at done
  · cases done
  split at done
  · cases done
  split at done
  · cases done
  cases done
  exact ⟨⟨rfl,rfl,rfl,rfl⟩,⟨by simp,by simp,by simp⟩,⟨Int.le_max_left 0 _,Int.le_max_left 0 _,Int.le_max_left 0 _⟩⟩

variable {d repaired : Draft}

theorem deterministic_cases {changed : Bool} (done : maybeRunDeterministicRepair settings d = .ok (repaired,changed)) :
    changed = false ∧ repaired = d ∨
      changed = true ∧ Drafted settings repaired ∧ repaired.repairCount = d.repairCount + 1 ∧
        repaired.llmRepairCount = d.llmRepairCount ∧ repaired.postRepairReviewCount = d.postRepairReviewCount ∧
          ∃ spec code, repaired.events = d.events ++ [.changed spec code] := by
  unfold maybeRunDeterministicRepair at done
  dsimp only at done
  split at done
  · cases done
    exact .inl ⟨rfl,rfl⟩
  split at done
  · cases done
  · cases done
    exact .inr ⟨rfl,⟨rfl,rfl,rfl,rfl⟩,rfl,rfl,rfl,_,_,rfl⟩

theorem finish_cases {output : Except Text (StrategySpec × Text)}
    (done : finishLlmRepair settings d output = .ok repaired) :
    Drafted settings repaired ∧ repaired.repairCount = d.repairCount + 1 ∧ repaired.llmRepairCount = d.llmRepairCount ∧
      repaired.postRepairReviewCount = d.postRepairReviewCount ∧ ∃ spec code, repaired.events = d.events ++ [.changed spec code] := by
  simp only [finishLlmRepair,bind,Except.bind,pure,Except.pure,throw,throwThe,MonadExceptOf.throw] at done
  split at done
  · cases done
  split at done
  · cases done
  split at done
  · cases done
  cases done
  exact ⟨⟨rfl,rfl,rfl,rfl⟩,rfl,rfl,rfl,_,_,rfl⟩

def Uncounted (event : Event) : Prop := event ≠ .round ∧ event ≠ .llmRepair ∧ event ≠ .providerReview
theorem uncounted_changed (spec : StrategySpec) (code : Text) : Uncounted (.changed spec code) := ⟨nofun,nofun,nofun⟩
theorem uncounted_reviewed (seen : Artifacts) (review : Review) : Uncounted (.reviewed seen review) := ⟨nofun,nofun,nofun⟩
theorem count_note {events : List Event} {event other : Event} (apart : event ≠ other) :
    (events ++ [event]).count other = events.count other := by
  rw [count_append,count_singleton,if_neg (by simpa using apart),Nat.add_zero]
theorem count_note_self (events : List Event) (event : Event) : (events ++ [event]).count event = events.count event + 1 := by
  rw [count_append,count_singleton_self]

variable {event : Event} {events : List Event}
theorem Bounded.note (bounded : Bounded tier events) (uncounted : Uncounted event) :
    Bounded tier (events ++ [event]) where
  rounds := by rw [count_note uncounted.1]; exact bounded.rounds
  llmRepairs := by rw [count_note uncounted.2.1]; exact bounded.llmRepairs
  providerReviews := by rw [count_note uncounted.2.2]; exact bounded.providerReviews

theorem Bounded.spend (bounded : Bounded tier events)
    (rounds : event = .round → (events.count .round : Int) < tier.repairLoops)
    (llmRepairs : event = .llmRepair → (events.count .llmRepair : Int) < tier.llmRepairLoops)
    (reviews : event = .providerReview → (events.count .providerReview : Int) < tier.postRepairReviews) :
    Bounded tier (events ++ [event]) := by
  have counts : ∀ {other : Event} {budget : Int}, (events.count other : Int) ≤ max 0 budget →
      (event = other → (events.count other : Int) < budget) → ((events ++ [event]).count other : Int) ≤ max 0 budget := by
    intro other budget before left
    by_cases same : event = other
    · subst same
      rw [count_note_self]
      have := left rfl
      omega
    · rw [count_note same]
      exact before
  exact ⟨counts bounded.rounds rounds,counts bounded.llmRepairs llmRepairs,counts bounded.providerReviews reviews⟩

theorem Counted.note {next : Draft} (counted : Counted d) (uncounted : Uncounted event)
    (events : next.events = d.events ++ [event]) (repairs : d.repairCount ≤ next.repairCount)
    (llmRepairs : next.llmRepairCount = d.llmRepairCount) (reviews : next.postRepairReviewCount = d.postRepairReviewCount) :
    Counted next where
  rounds := by
    rw [events,count_note uncounted.1]
    exact Nat.le_trans counted.rounds repairs
  llmRepairs := by
    rw [events,count_note uncounted.2.1,llmRepairs]
    exact counted.llmRepairs
  providerReviews := by
    rw [events,count_note uncounted.2.2,reviews]
    exact counted.providerReviews

theorem sound_reviewed (drafted : Drafted settings d) (counted : Counted d) (bounded : Bounded tier d.events)
    (exhausted : Bool) (output : Review) : Sound settings tier (d.reviewed exhausted output).recordReview where
  drafted := ⟨drafted.validation,drafted.seenSpec,drafted.seenCode,rfl⟩
  counted := counted.note (uncounted_reviewed _ _) rfl (Nat.le_refl _) rfl rfl
  bounded := bounded.note (uncounted_reviewed _ _)
  reviewed := ⟨d.events,d.artifacts,[],rfl,nofun,drafted.seenSpec,drafted.seenCode,drafted.seenValidation⟩

variable {s : State} {stages : Stages}

theorem sound_firstReview (drafted : Drafted settings d) (counted : Counted d)
    (bounded : Bounded tier d.events) (done : firstReview stages d = .ok s) : Sound settings tier s := by
  have taken : ∀ output, Sound settings tier (d.reviewed false output) := by
    intro output
    have sound := sound_reviewed drafted counted bounded false output
    exact ⟨⟨drafted.validation,drafted.seenSpec,drafted.seenCode,rfl⟩,
      ⟨sound.counted.rounds,sound.counted.llmRepairs,sound.counted.providerReviews⟩,sound.bounded,sound.reviewed⟩
  unfold firstReview at done
  split at done
  · cases done
    exact taken _
  · cases output : stages.balancedReview d.events d.artifacts with
    | error error =>
      rw [output] at done
      cases done
    | ok review =>
      rw [output] at done
      cases done
      exact taken review

theorem reviewRepair_cases {exhausted : Bool} (drafted : Drafted settings d) (counted : Counted d)
    (bounded : Bounded tier d.events) :
    (∃ next, reviewRepair stages tier d exhausted = .again next ∧ Sound settings tier next ∧ next.repairCount = d.repairCount) ∨
      ∃ raised, reviewRepair stages tier d exhausted = .raised raised ∧ Bounded tier raised.events := by
  unfold reviewRepair
  split
  · exact .inl ⟨_,rfl,sound_reviewed drafted counted bounded exhausted _,rfl⟩
  split
  · exact .inl ⟨_,rfl,sound_reviewed drafted counted bounded exhausted _,rfl⟩
  next within =>
    have rounds := @count_note d.events .providerReview .round nofun
    have llmRepairs := @count_note d.events .providerReview .llmRepair nofun
    have reviews := count_note_self d.events .providerReview
    have noted : Bounded tier (d.events ++ [.providerReview]) := by
      have counts := counted.providerReviews
      refine bounded.spend nofun nofun ?_
      intro _
      omega
    dsimp only
    split
    · exact .inr ⟨_,rfl,noted⟩
    next review _ =>
      refine .inl ⟨_,rfl,sound_reviewed ?_ ?_ noted exhausted review,rfl⟩
      · exact ⟨drafted.validation,drafted.seenSpec,drafted.seenCode,drafted.seenValidation⟩
      · exact ⟨rounds ▸ counted.rounds,llmRepairs.trans counted.llmRepairs,reviews.trans (congrArg (· + 1) counted.providerReviews)⟩

def rank (tier : TierConfig) (s : State) : Nat := (tier.repairLoops - s.repairCount).toNat

theorem counted_repaired {s : State} {d repaired : Draft} (counted : Counted s.toDraft)
    (rounds : d.events.count .round = s.events.count .round + 1) (llmRepairs : d.events.count .llmRepair = d.llmRepairCount)
    (reviews : d.events.count .providerReview = d.postRepairReviewCount) (bounded : Bounded tier d.events)
    (repairs : repaired.repairCount = s.repairCount + 1) (sameLlm : repaired.llmRepairCount = d.llmRepairCount)
    (sameReviews : repaired.postRepairReviewCount = d.postRepairReviewCount)
    (events : ∃ spec code, repaired.events = d.events ++ [.changed spec code]) :
    Counted repaired ∧ Bounded tier repaired.events := by
  obtain ⟨spec,code,events⟩ := events
  have uncounted := uncounted_changed spec code
  refine ⟨⟨?_,?_,?_⟩,events ▸ bounded.note uncounted⟩
  · rw [events,count_note uncounted.1,rounds,repairs]
    exact Nat.succ_le_succ counted.rounds
  · rw [events,count_note uncounted.2.1,llmRepairs,sameLlm]
  · rw [events,count_note uncounted.2.2,reviews,sameReviews]

theorem round_cases (sound : Sound settings tier s) :
    (∃ next, repairRound settings stages tier s = .again next ∧ Sound settings tier next ∧ rank tier next < rank tier s) ∨
      (∃ last, repairRound settings stages tier s = .left last ∧ Over settings tier last) ∨
      ∃ raised, repairRound settings stages tier s = .raised raised ∧ Bounded tier raised.events := by
  unfold repairRound
  split
  next => exact .inr (.inl ⟨s,rfl,sound.drafted,sound.bounded,sound.reviewed⟩)
  next asked =>
    have within : (s.repairCount : Int) < tier.repairLoops := by
      simp only [Bool.not_eq_true,Bool.not_eq_false',Bool.and_eq_true,decide_eq_true_eq] at asked
      exact asked.2
    have rounds := count_note_self s.events .round
    have llmRepairs := @count_note s.events .round .llmRepair nofun
    have reviews := @count_note s.events .round .providerReview nofun
    have begun : Bounded tier (s.events ++ [.round]) := by
      have counts := sound.counted.rounds
      refine sound.bounded.spend ?_ nofun nofun
      intro _
      omega
    -- a repair with its review goes round again, with one round less, or fails
    have again : ∀ {repaired : Draft}, Drafted settings repaired → Counted repaired → Bounded tier repaired.events →
        repaired.repairCount = s.repairCount + 1 →
        (∃ next, reviewRepair stages tier repaired s.repairBudgetExhausted = .again next ∧ Sound settings tier next ∧
            rank tier next < rank tier s) ∨
          ∃ raised, reviewRepair stages tier repaired s.repairBudgetExhausted = .raised raised ∧ Bounded tier raised.events := by
      intro repaired drafted counted bounded repairs
      refine (reviewRepair_cases drafted counted bounded).imp ?_ id
      rintro ⟨next,reviewed,isSound,same⟩
      refine ⟨next,reviewed,isSound,?_⟩
      unfold rank
      omega
    dsimp only
    split
    next => exact .inr (.inr ⟨_,rfl,begun⟩)
    next repaired changes =>
      split at changes
      · rcases deterministic_cases changes with ⟨impossible,-⟩ | ⟨-,drafted,repairs,sameLlm,sameReviews,events⟩
        · cases impossible
        · obtain ⟨counted,bounded⟩ := @counted_repaired _ s (s.toDraft.note .round) _ sound.counted rounds
            (llmRepairs.trans sound.counted.llmRepairs) (reviews.trans sound.counted.providerReviews) begun repairs sameLlm
            sameReviews events
          exact (again drafted counted bounded repairs).imp id .inr
      · cases changes
    next same unchanged =>
      have isSame : same = s.toDraft.note .round := by
        split at unchanged
        · rcases deterministic_cases unchanged with ⟨-,isSame⟩ | ⟨impossible,-⟩
          · exact isSame
          · cases impossible
        · cases unchanged
          rfl
      subst isSame
      split
      next =>
        obtain ⟨earlier,seen,later,events,unchanged,rest⟩ := sound.reviewed
        refine .inr (.inl ⟨_,rfl,⟨sound.drafted.validation,sound.drafted.seenSpec,sound.drafted.seenCode,sound.drafted.seenValidation⟩,
          begun,earlier,seen,later ++ [.round],?_,?_,rest⟩)
        · show s.events ++ [_] = _
          rw [events,append_assoc,cons_append]
        · intro spec code member
          rcases mem_append.mp member with former | new
          · exact unchanged spec code former
          · cases mem_singleton.mp new
      next left =>
        have asks : Bounded tier (s.events ++ [.round] ++ [.llmRepair]) := by
          have counts : (s.events ++ [Event.round]).count Event.llmRepair = s.llmRepairCount := llmRepairs.trans sound.counted.llmRepairs
          have left : ¬ tier.llmRepairLoops ≤ s.llmRepairCount := left
          refine begun.spend nofun ?_ nofun
          intro _
          omega
        split
        next => exact .inr (.inr ⟨_,rfl,asks⟩)
        next repaired finished =>
          obtain ⟨drafted,repairs,sameLlm,sameReviews,events⟩ := finish_cases finished
          obtain ⟨counted,bounded⟩ := @counted_repaired _ s (beginLlmRepair (s.toDraft.note .round)) _ sound.counted
            ((@count_note _ Event.llmRepair .round nofun).trans rounds)
            ((count_note_self _ _).trans (congrArg (· + 1) (llmRepairs.trans sound.counted.llmRepairs)))
            ((@count_note _ Event.llmRepair .providerReview nofun).trans (reviews.trans sound.counted.providerReviews))
            asks repairs sameLlm sameReviews events
          exact (again drafted counted bounded repairs).imp id .inr

variable (settings) in
/-- What is returned was validated and reviewed as it is returned, and passes its gates. -/
structure Validated (result : Result) : Prop where
  validation : result.validation = validated settings result.strategySpec result.pineCode
  allowed : validationAllowsArtifact result.validation = true
  reviewed : ∃ earlier seen later, result.events = earlier ++ .reviewed seen result.review :: later ∧
    (∀ spec code, .changed spec code ∉ later) ∧ seen.strategySpec = some result.strategySpec ∧
      seen.pineCode = some result.pineCode ∧ seen.validation = some result.validation
  verdict : result.review.verdict ≠ statusFail
  policy : settings.enforce = true → ∃ findings, findPolicyClaims settings result.strategySpec result.pineCode = .ok findings ∧
    ∀ finding ∈ findings, finding.severity ≠ .blocker

theorem finalGate_validated {result : Result} (left : Over settings tier s)
    (passed : finalGate settings s = .ok result) : Validated settings result ∧ Bounded tier result.events := by
  unfold finalGate at passed
  split at passed
  · cases passed
  next findings found =>
    dsimp only at passed
    split at passed
    · cases passed
    next gates =>
      cases passed
      simp only [Bool.or_eq_true,Bool.not_eq_true',beq_iff_eq,Bool.and_eq_true,not_or,not_and,Bool.not_eq_false] at gates
      obtain ⟨⟨allowed,verdict⟩,policy⟩ := gates
      refine ⟨⟨left.drafted.validation,allowed,left.reviewed,verdict,?_⟩,left.bounded⟩
      intro enforced
      refine ⟨findings,found,?_⟩
      intro finding member blocks
      exact policy enforced (any_eq_true.mpr ⟨finding,member,decide_eq_true blocks⟩)

theorem finalGate_bounded {raised : Raised} (left : Over settings tier s) (failed : finalGate settings s = .error raised) :
    Bounded tier raised.events := by
  unfold finalGate at failed
  split at failed
  · cases failed
    exact left.bounded
  · dsimp only at failed
    split at failed
    · cases failed
      exact left.bounded
    · cases failed

theorem sound_opening (done : opening settings stages = .ok s) : Sound settings tier s := by
  simp only [opening,bind,Except.bind] at done
  split at done
  · cases done
  next first isFirst =>
    obtain ⟨drafted,counted,bounded⟩ := @drafted_draft settings tier _ _ isFirst
    split at done
    · exact sound_firstReview drafted counted bounded done
    split at done
    · cases done
    next repaired isRepaired =>
      rcases deterministic_cases isRepaired with ⟨-,same⟩ | ⟨-,again,repairs,sameLlm,sameReviews,spec,code,events⟩
      · rw [same] at done
        exact sound_firstReview drafted counted bounded done
      · have uncounted := uncounted_changed spec code
        refine sound_firstReview again ?_ (events ▸ bounded.note uncounted) done
        exact counted.note uncounted events (repairs ▸ Nat.le_succ _) sameLlm sameReviews

/-- A generation ends within its budgets, whatever its stages give, and what it returns was validated and
    reviewed as it is returned. -/
theorem generates (settings : Settings) (stages : Stages) (tier : TierConfig) (more : Nat) :
    ∃ ended, generateMultiAgentLive settings stages tier (tier.repairLoops.toNat + 1 + more) = some ended ∧
      (∀ raised, ended = .error raised → Bounded tier raised.events) ∧
      ∀ result, ended = .ok result → Bounded tier result.events ∧ Validated settings result := by
  unfold generateMultiAgentLive
  split
  next failure failed =>
    refine ⟨_,rfl,?_,nofun⟩
    rintro _ ⟨⟩
    exact ⟨Int.le_max_left 0 _,Int.le_max_left 0 _,Int.le_max_left 0 _⟩
  next s opened =>
    have sound : Sound settings tier s := sound_opening opened
    have enough : rank tier s < tier.repairLoops.toNat + 1 + more := by
      unfold rank
      omega
    obtain ⟨ended,looped,left,raised⟩ := loop_ends (fun _ isSound => round_cases isSound) sound enough
    rw [looped]
    refine ⟨_,rfl,?_,?_⟩
    · intro failure failed
      cases ended with
      | error earlier =>
        cases failed
        exact raised _ rfl
      | ok last => exact finalGate_bounded (left last rfl) failed
    · intro result passed
      cases ended with
      | error earlier => cases passed
      | ok last => exact (finalGate_validated (left last rfl) passed).symm
end

end Codebot.LiveGeneration
