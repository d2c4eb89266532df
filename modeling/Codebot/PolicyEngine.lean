import Codebot.Regexes
import Codebot.JsonTexts

/-!
The policy engine: its rules, the fragments of a text that they are applied to, and the findings. A text that is JSON
is read and its texts are the fragments; a rule finds a sentence in which one of its patterns matches, unless one of
its exceptions covers the match (`evaluateText`).
-/
namespace Codebot.PolicyEngine
open Texts Regexes JsonTexts List

inductive Severity
  | blocker
  | warning
  | info
deriving DecidableEq
inductive EvidenceLevel
  | education
  | strategyIdea
  | generatedArtifact
  | staticValidation
  | manualRuntimeProof
deriving DecidableEq

inductive Surface
  | agentChatOutput
  | agentRunOutput
  | artifactValidationReport
  | artifactRuntimeTraceSummary
  | policyText
  | reviewRisk
  | text
  | toolGeneratePine
  | userPrompt
deriving DecidableEq

/-- A rule with the sources of its patterns. A rule without surfaces or evidence levels
    applies to all of them. The message ends with the matched text. -/
structure PolicyRule where
  id : String
  category : String
  severity : Severity
  code : String
  message : String
  blockPatterns : List String
  allowPatterns : List String
  surfaces : List Surface
  evidenceLevels : List EvidenceLevel

def PolicyRule.blockRegexes (rule : PolicyRule) : List Pattern := (rule.blockPatterns.map text).filterMap (compile true)
def PolicyRule.allowRegexes (rule : PolicyRule) : List Pattern := (rule.allowPatterns.map text).filterMap (compile true)

structure PolicyFinding where
  ruleId : String
  category : String
  severity : Severity
  code : String
  message : Text
  matchedText : Text
  sentence : Text
deriving DecidableEq

/-- The rules of the policy file. -/
def policyRules : List PolicyRule :=
  [{ id := "guaranteed_return_claim"
     category := "profitability_claim"
     severity := .blocker
     code := "policy_violation"
     message := "Blocked trading claim: "
     blockPatterns := ["\\bguarantee(?:d|s)?\\s+(?:profit|returns?)\\b","\\brisk-free\\b"]
     allowPatterns :=
      ["\\b(no|without|do not|does not|don't|never|must not|should not|avoid|avoids|avoiding|exclude|excludes|excluded|excluding|constraints against|not for|not used for|not be used for)\\b.{0,140}\\b(?:guarantee(?:d|s)?\\s+(?:profit|returns?)|risk-free)\\b",
        "\\b(?:guarantee(?:d|s)?\\s+(?:profit|returns?)|risk-free)\\b.{0,140}\\b(is not|are not|was not|were not|must not|should not|without|avoid|avoided|not performed|not requested|not included|claim|claims)\\b",
        "\\b(disclaimer|disclaimers|disclaiming|educational)\\b.{0,160}\\b(?:guarantee(?:d|s)?\\s+(?:profit|returns?)|risk-free)\\b"]
     surfaces := []
     evidenceLevels := [] },
    { id := "no_loss_claim"
      category := "risk_claim"
      severity := .blocker
      code := "policy_violation"
      message := "Blocked trading claim: "
      blockPatterns := ["\\bcannot\\s+lose(?:\\s+money)?\\b","\\bcan't\\s+lose(?:\\s+money)?\\b"]
      allowPatterns :=
        ["\\b(do not|does not|don't|never|must not|should not|avoid|avoids|avoiding)\\b.{0,80}\\bclaim\\b.{0,80}\\b(?:cannot|can't)\\s+lose(?:\\s+money)?\\b"]
      surfaces := []
      evidenceLevels := [] },
    { id := "live_ready_claim"
      category := "live_trading_claim"
      severity := .blocker
      code := "policy_violation"
      message := "Blocked trading claim: "
      blockPatterns :=
        ["\\blive\\s+trading\\s+ready\\b","\\blive\\s+ready\\b","\\blive-ready\\b","\\blive\\s+immediately\\b",
          "\\b(?:certify|certified|safe)\\b.{0,80}\\blive\\s+trading\\b","\\bautonomous\\s+live\\b"]
      allowPatterns :=
        ["\\b(no|not|without|do not|does not|don't|never|must not|should not|avoid|avoids|avoiding|exclude|excludes|excluded|excluding|constraints against|not for|not used for|not be used for)\\b.{0,140}\\b(?:live\\s+trading\\s+ready|live\\s+ready|live-ready|live\\s+immediately|live\\s+trading|autonomous\\s+live)\\b",
          "\\b(?:live\\s+trading\\s+ready|live\\s+ready|live-ready|live\\s+immediately|live\\s+trading|autonomous\\s+live)\\b.{0,140}\\b(is not|are not|was not|were not|must not|should not|without|avoid|avoided|not performed|not requested|not included|claim|claims)\\b",
          "\\bnot\\s+safe\\s+for\\s+live\\s+trading\\b",
          "\\b(disclaimer|disclaimers|disclaiming|educational)\\b.{0,160}\\blive\\s+(trading|execution)\\b"]
      surfaces := []
      evidenceLevels := [] },
    { id := "broker_execution"
      category := "live_execution"
      severity := .blocker
      code := "policy_violation"
      message := "Blocked trading action or arbitrary IO request: "
      blockPatterns := ["\\b(connect|integrate|deploy)\\b.{0,80}\\b(broker|exchange)\\b","\\bconnects\\s+to\\s+my\\s+broker\\b"]
      allowPatterns :=
        ["\\b(no|without|do not|does not|don't|never|must not|should not|avoid|avoids|avoiding|exclude|excludes|excluded|excluding|constraints against|not for|not used for|not be used for)\\b.{0,140}\\b(?:broker\\s+execution|exchange\\s+execution|broker\\s+integration|broker\\s+deployment|broker|exchange)\\b",
          "\\b(?:broker\\s+execution|exchange\\s+execution|broker\\s+integration|broker\\s+deployment|broker|exchange)\\b.{0,140}\\b(is not|are not|was not|were not|must not|should not|without|avoid|avoided|not performed|not requested|not included|claim|claims)\\b"]
      surfaces := []
      evidenceLevels := [] },
    { id := "live_order_execution"
      category := "live_execution"
      severity := .blocker
      code := "policy_violation"
      message := "Blocked trading action or arbitrary IO request: "
      blockPatterns :=
        ["\\bplace\\s+live\\s+orders?\\b","\\bexecute\\s+live\\s+trades?\\b",
          "\\b(place|send|submit|execute)\\b.{0,80}\\blive\\s+(orders?|trades?)\\b","\\blive\\s+trades?\\s+automatically\\b"]
      allowPatterns :=
        ["\\b(no|without|do not|does not|don't|never|must not|should not|avoid|avoids|avoiding|exclude|excludes|excluded|excluding|not for|not used for|not be used for)\\b.{0,140}\\blive\\s+(orders?|trades?)\\b"]
      surfaces := []
      evidenceLevels := [] },
    { id := "arbitrary_io_request"
      category := "arbitrary_io"
      severity := .blocker
      code := "policy_violation"
      message := "Blocked trading action or arbitrary IO request: "
      blockPatterns :=
        ["\\bshell\\s+command\\b","\\brun\\s+shell\\b","\\bnetwork\\s+request\\b","\\bhttp://","\\bhttps://",
          "\\bfilesystem\\b","/etc/"]
      allowPatterns := []
      surfaces := []
      evidenceLevels := [] },
    { id := "tool_request"
      category := "arbitrary_io"
      severity := .blocker
      code := "policy_violation"
      message := "Blocked trading action or arbitrary IO request: "
      blockPatterns :=
        ["\\b(call|use|run|execute)\\s+((shell|network|file)(\\s*/\\s*|\\s+or\\s+|\\s*,\\s*)?){1,3}\\s+tools?\\b"]
      allowPatterns := []
      surfaces := []
      evidenceLevels := [] },
    { id := "source_injection"
      category := "source_injection"
      severity := .blocker
      code := "policy_violation"
      message := "Blocked source-injection request: "
      blockPatterns := ["\\bignore\\s+(all\\s+)?(prior|previous|system|developer)\\s+(rules|instructions)\\b"]
      allowPatterns := []
      surfaces := []
      evidenceLevels := [] },
    { id := "runtime_success_without_proof"
      category := "runtime_proof"
      severity := .blocker
      code := "policy_violation"
      message := "Runtime, compile, or backtest success claim requires manual runtime proof: "
      blockPatterns :=
        ["\\bcompile\\s+success\\b","\\bcompiled\\s+successfully\\b","\\bbacktest\\s+success\\b",
          "\\bbacktested\\s+successfully\\b","\\bbacktest\\s+passed\\b"]
      allowPatterns :=
        ["\\b(no|without|not|does not|do not|before claiming|before any|avoid|avoids|avoiding)\\b.{0,140}\\b(?:compile\\s+success|compiled\\s+successfully|backtest\\s+success|backtested\\s+successfully|backtest\\s+passed)\\b"]
      surfaces := [.agentChatOutput,.agentRunOutput,.artifactValidationReport]
      evidenceLevels := [.education,.strategyIdea,.generatedArtifact,.staticValidation] },
    { id := "profitability_warning"
      category := "profitability_claim"
      severity := .warning
      code := "policy_warning"
      message := "Trading claim warning: "
      blockPatterns :=
        ["\\bprofitability\\b","\\bprofitable\\b","\\blive\\s+trading\\b","\\blive\\s+trades\\b","\\bbroker\\b"]
      allowPatterns :=
        ["\\b(no|without|do not|does not|don't|never|must not|should not|avoid|avoids|avoiding|exclude|excludes|excluded|excluding|constraints against|not for|not used for|not be used for|disclaimer|disclaimers|disclaiming)\\b.{0,140}\\b(?:profitability|profitable|live\\s+trading|live\\s+trades|broker)\\b",
          "\\b(?:rather\\s+than\\s+claim(?:ing)?|cannot|can't|lack\\s+of)\\b.{0,140}\\b(?:profitability|profitable|live\\s+trading|live\\s+trades|broker)\\b"]
      surfaces := []
      evidenceLevels := [] }]

def ruleApplies (rule : PolicyRule) (surface : Surface) (evidence : EvidenceLevel) : Bool :=
  (rule.surfaces = [] || surface ∈ rule.surfaces) && (rule.evidenceLevels = [] || evidence ∈ rule.evidenceLevels)
/-- `POLICY_SAFE_CONTEXT_KEYS`. -/
def safeContextKeys : List Text := [text "non_goals",text "policy_observations"]

mutual

/-- `_collect_policy_fragments`: the texts of a value, except under the safe keys. -/
def collectFragments (key : Option Text) : Json → List Text
  | .text value => if key.any (· ∈ safeContextKeys) then [] else [value]
  | .array items => if key.any (· ∈ safeContextKeys) then [] else collectItems key items
  | .object entries => if key.any (· ∈ safeContextKeys) then [] else collectEntries entries
  | _ => []
def collectItems (key : Option Text) : List Json → List Text
  | [] => []
  | item :: rest => collectFragments key item ++ collectItems key rest
def collectEntries : List (Text × Json) → List Text
  | [] => []
  | entry :: rest => collectFragments (some entry.1) entry.2 ++ collectEntries rest

end

/-- `_policy_text_fragments`. An integer that is too long to read fails. -/
def policyTextFragments (t : Text) : Except Failure (List Text) :=
  match loads t with
  | .ok payload => .ok (collectFragments none payload)
  | .error .decode => .ok [t]
  | .error .digits => .error .digits
def spaces : Option Pattern := compile false (text "\\s+")
def sentenceEnds : Option Pattern := compile false (text "(?<=[.!?])\\s+|[\\n\\r;]+")
def contrastBoundary : Option Pattern := compile true (text "\\b(?:but|however|except|though|although|yet)\\b")

variable (alphabet : Alphabet)
def policySentences (t : Text) : List Text :=
  let normalized := strip alphabet.toUnicode (spaces.elim t fun p => sub alphabet p (text " ") t)
  if normalized = [] then []
  else ((sentenceEnds.elim [normalized] fun p => split alphabet p normalized).map (strip alphabet.toUnicode)).filter
    fun part => part != []
/-- `_is_allowed_match`: an exception covers the match, and no contrast stands between
    the beginnings of the two. -/
def isAllowedMatch (sentence : Text) (found : Cursor × Cursor) (allowRegexes : List Pattern) : Bool :=
  allowRegexes.any fun allow => (findAll alphabet allow sentence).any fun covering =>
    covering.1.before.length ≤ found.1.before.length && found.2.before.length ≤ covering.2.before.length &&
      contrastBoundary.all fun contrast => (search alphabet contrast (span covering.1 found.1)).isNone

/-- The finding of a rule in a sentence: that of its first pattern with a match that no
    exception covers. -/
def findingOf (rule : PolicyRule) (sentence : Text) : Option PolicyFinding :=
  rule.blockRegexes.findSome? fun regex =>
    match search alphabet regex sentence with
    | none => none
    | some found =>
      if isAllowedMatch alphabet sentence found rule.allowRegexes then none
      else
        let matchedText := span found.1 found.2
        some ⟨rule.id,rule.category,rule.severity,rule.code,text rule.message ++ matchedText,matchedText,sentence⟩

def evaluateFragments (fragments : List Text) (surface : Surface) (evidence : EvidenceLevel) : List PolicyFinding :=
  fragments.flatMap fun fragment => (policySentences alphabet fragment).flatMap fun sentence =>
    (policyRules.filter fun rule => ruleApplies rule surface evidence).filterMap fun rule => findingOf alphabet rule sentence
def dedupeKey (finding : PolicyFinding) : String × Text × Text :=
  (finding.ruleId,finding.sentence,alphabet.lower finding.matchedText)
/-- `_dedupe_findings`: the first of each key. -/
def dedupeFindings (findings : List PolicyFinding) : List PolicyFinding :=
  findings.foldl (fun output finding =>
    if output.any fun earlier => dedupeKey alphabet earlier = dedupeKey alphabet finding then output
    else output ++ [finding]) []
/-- `evaluate_policy` of a text. -/
def evaluateText (t : Text) (surface : Surface) (evidence : EvidenceLevel) : Except Failure (List PolicyFinding) :=
  (policyTextFragments t).map fun fragments => dedupeFindings alphabet (evaluateFragments alphabet fragments surface evidence)
theorem policyRules_wide : ∀ rule ∈ policyRules, rule.blockRegexes.length = rule.blockPatterns.length ∧
    ∀ p ∈ rule.blockRegexes, 1 < width p.regex := by
  simp only [policyRules,PolicyRule.blockRegexes,forall_mem_cons,map_cons,map_nil]
  repeat rw [text_ofList]
  decide +kernel
theorem fragments_single (c : Nat) : ∃ fragments, policyTextFragments [c] = .ok fragments ∧
    ∀ fragment ∈ fragments, fragment.length ≤ 1 := by
  rcases loads_single c with failed | ⟨value,isNumber⟩
  · exact ⟨[[c]],by rw [policyTextFragments,failed],by simp⟩
  · exact ⟨[],by rw [policyTextFragments,isNumber]; rfl,by simp⟩

theorem policySentences_length {t sentence : Text} (member : sentence ∈ policySentences alphabet t) :
    sentence.length ≤ t.length := by
  have short : (spaces.elim t fun p => sub alphabet p (text " ") t).length ≤ t.length := by
    cases spaces with
    | none => exact Nat.le_refl _
    | some p => exact subFrom_length (by decide)
  have stripped := strip_length alphabet.toUnicode (spaces.elim t fun p => sub alphabet p (text " ") t)
  simp only [policySentences] at member
  split at member
  · cases member
  · obtain ⟨part,isPart,rfl⟩ := mem_map.mp (mem_filter.mp member).1
    have cut : part.length ≤ (strip alphabet.toUnicode (spaces.elim t fun p => sub alphabet p (text " ") t)).length := by
      cases isEnds : sentenceEnds with
      | none =>
        rw [isEnds,Option.elim_none] at isPart
        have same := mem_singleton.mp isPart
        exact Nat.le_of_eq (by rw [same])
      | some p =>
        rw [isEnds,Option.elim_some] at isPart
        have bound := splitFrom_length isPart
        simpa using bound
    have whole := strip_length alphabet.toUnicode part
    omega

theorem findingOf_short {rule : PolicyRule} (known : rule ∈ policyRules) {sentence : Text} (short : sentence.length ≤ 1) :
    findingOf alphabet rule sentence = none := by
  rw [findingOf,findSome?_eq_none_iff]
  intro p member
  have absent : search alphabet p sentence = none :=
    searchFrom_short (Nat.lt_of_le_of_lt short ((policyRules_wide rule known).2 p member))
  rw [absent]

/-- A text of one character has no findings. -/
theorem evaluateText_single (c : Nat) (surface : Surface) (evidence : EvidenceLevel) :
    evaluateText alphabet [c] surface evidence = .ok [] := by
  obtain ⟨fragments,isFragments,short⟩ := fragments_single c
  have none : evaluateFragments alphabet fragments surface evidence = [] := by
    rw [evaluateFragments,flatMap_eq_nil_iff]
    intro fragment member
    rw [flatMap_eq_nil_iff]
    intro sentence isSentence
    rw [filterMap_eq_nil_iff]
    intro rule isRule
    refine findingOf_short alphabet (mem_filter.mp isRule).1 ?_
    exact Nat.le_trans (policySentences_length alphabet isSentence) (short fragment member)
  rw [evaluateText,isFragments]
  show Except.ok (dedupeFindings alphabet (evaluateFragments alphabet fragments surface evidence)) = Except.ok []
  rw [none]
  rfl

end Codebot.PolicyEngine
