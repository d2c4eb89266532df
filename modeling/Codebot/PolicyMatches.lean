import Codebot.PolicyEngine
import Mathlib.Data.List.Induction
import Mathlib.Data.List.Nodup

/-!
The policy engine over any rule set, with each pattern as the function from a text to the spans that it matches, in
order. A match is excused by a match of an exception that contains it, with no contrast between their beginnings.
`_evaluate_fragments` asks this of the first match of a pattern only, so that an excused match hides the later ones.
-/
namespace Codebot.PolicyMatches
open Texts Regexes JsonTexts List
open PolicyEngine (Severity PolicyFinding collectFragments collectItems collectEntries safeContextKeys
  policyTextFragments policySentences dedupeKey dedupeFindings)
set_option linter.unusedSectionVars false

abbrev Matcher := Text → List (Nat × Nat)

/-- `PolicyRule`, for any surfaces and evidence levels. -/
structure PolicyRule (Surface Level : Type) where
  id : String
  category : String
  severity : Severity
  code : String
  message : Text → Text
  blockRegexes : List Matcher
  allowRegexes : List Matcher
  surfaces : List Surface
  evidenceLevels : List Level

/-- The rules that `load_policy_rules` accepts, which have one identifier each. -/
structure RuleSet (Surface Level : Type) where
  rules : List (PolicyRule Surface Level)
  distinct : (rules.map PolicyRule.id).Nodup
structure PolicySubject (Surface Level : Type) where
  surface : Surface
  payload : Json
  evidenceLevel : Level
structure PolicyDecision where
  allowed : Bool
  findings : List PolicyFinding
def slice (t : Text) (first last : Nat) : Text := (t.take last).drop first
def payloadFragments : Json → Except Failure (List Text)
  | .text t => policyTextFragments t
  | payload => .ok (collectFragments none payload)

variable {Surface Level : Type} [DecidableEq Surface] [DecidableEq Level]
def ruleApplies (rule : PolicyRule Surface Level) (surface : Surface) (level : Level) : Bool :=
  (rule.surfaces.isEmpty || rule.surfaces.contains surface) &&
    (rule.evidenceLevels.isEmpty || rule.evidenceLevels.contains level)

variable (alphabet : Alphabet) (contrast : Matcher)
/-- `_is_allowed_match`, with `_CONTRAST_BOUNDARY_RE`. -/
def isAllowedMatch (sentence : Text) (found : Nat × Nat) (allowRegexes : List Matcher) : Bool :=
  allowRegexes.any fun allow => (allow sentence).any fun covering =>
    covering.1 ≤ found.1 && found.2 ≤ covering.2 && (contrast (slice sentence covering.1 found.1)).isEmpty

/-- The finding of a rule in a sentence: that of its first pattern whose first match is not excused. -/
def findingOf (rule : PolicyRule Surface Level) (sentence : Text) : Option PolicyFinding :=
  rule.blockRegexes.findSome? fun regex =>
    match (regex sentence).head? with
    | none => none
    | some found =>
      if isAllowedMatch contrast sentence found rule.allowRegexes then none
      else
        let matchedText := slice sentence found.1 found.2
        some ⟨rule.id,rule.category,rule.severity,rule.code,rule.message matchedText,matchedText,sentence⟩

def evaluateFragments (rules : RuleSet Surface Level) (fragments : List Text) (surface : Surface) (level : Level) :
    List PolicyFinding :=
  fragments.flatMap fun fragment => (policySentences alphabet fragment).flatMap fun sentence =>
    (rules.rules.filter fun rule => ruleApplies rule surface level).filterMap fun rule => findingOf contrast rule sentence
def blocks (finding : PolicyFinding) : Bool := decide (finding.severity = .blocker)
def evaluatePolicy (rules : RuleSet Surface Level) (subject : PolicySubject Surface Level) : Except Failure PolicyDecision :=
  (payloadFragments subject.payload).map fun fragments =>
    let findings := dedupeFindings alphabet
      (evaluateFragments alphabet contrast rules fragments subject.surface subject.evidenceLevel)
    ⟨!findings.any blocks,findings⟩
def containsBlockingPolicy (rules : RuleSet Surface Level) (t : Text) (surface : Surface) (level : Level) :
    Except Failure Bool :=
  (policyTextFragments t).map fun fragments => (evaluateFragments alphabet contrast rules fragments surface level).any blocks
/-- A text of the value that is under no safe key. -/
inductive TextIn : Json → Text → Prop
  | text (t : Text) : TextIn (.text t) t
  | item {items : List Json} {item : Json} {t : Text} : item ∈ items → TextIn item t → TextIn (.array items) t
  | entry {entries : List (Text × Json)} {entry : Text × Json} {t : Text} :
    entry ∈ entries → entry.1 ∉ safeContextKeys → TextIn entry.2 t → TextIn (.object entries) t
/-- A text fragment of a payload: of the value that a text stands for, if it is JSON, or the text itself. A text
    with an integer that is too long to read has none. -/
def Fragment (payload : Json) (t : Text) : Prop :=
  match payload with
  | .text whole => (∃ value, loads whole = .ok value ∧ TextIn value t) ∨ loads whole = .error .decode ∧ t = whole
  | payload => TextIn payload t
/-- An exception contains the match, and no contrast lies between their beginnings. -/
def Excused (rule : PolicyRule Surface Level) (sentence : Text) (found : Nat × Nat) : Prop :=
  ∃ allow ∈ rule.allowRegexes, ∃ covering ∈ allow sentence, covering.1 ≤ found.1 ∧ found.2 ≤ covering.2 ∧
    contrast (slice sentence covering.1 found.1) = []
def Uncovered (rule : PolicyRule Surface Level) (sentence : Text) : Prop :=
  ∃ regex ∈ rule.blockRegexes, ∃ found ∈ regex sentence, ¬ Excused contrast rule sentence found
def FirstUncovered (rule : PolicyRule Surface Level) (sentence : Text) : Prop :=
  ∃ regex ∈ rule.blockRegexes, ∃ found ∈ (regex sentence).head?, ¬ Excused contrast rule sentence found
/-- The rule applies to the subject, of whose payload the text is a sentence. -/
def Examined (rules : RuleSet Surface Level) (subject : PolicySubject Surface Level) (rule : PolicyRule Surface Level)
    (sentence : Text) : Prop :=
  rule ∈ rules.rules ∧ ruleApplies rule subject.surface subject.evidenceLevel = true ∧
    ∃ fragment, Fragment subject.payload fragment ∧ sentence ∈ policySentences alphabet fragment
def Reports (decision : PolicyDecision) (rule : PolicyRule Surface Level) (sentence : Text) : Prop :=
  ∃ finding ∈ decision.findings, finding.ruleId = rule.id ∧ finding.sentence = sentence
/-- The rule is reported for the sentence, and blocks the text if it is a blocker. -/
def Flagged (rules : RuleSet Surface Level) (subject : PolicySubject Surface Level) (rule : PolicyRule Surface Level)
    (sentence : Text) : Prop :=
  (∃ decision, evaluatePolicy alphabet contrast rules subject = .ok decision ∧ Reports decision rule sentence) ∧
    ∀ t, subject.payload = .text t → rule.severity = .blocker →
      containsBlockingPolicy alphabet contrast rules t subject.surface subject.evidenceLevel = .ok true

variable {t : Text}
theorem textIn_text {value : Text} : TextIn (.text value) t ↔ t = value := by
  constructor
  · rintro ⟨⟩
    rfl
  · rintro rfl
    exact .text t
theorem textIn_array {items : List Json} : TextIn (.array items) t ↔ ∃ item ∈ items, TextIn item t := by
  constructor
  · rintro ⟨⟩
    exact ⟨_,‹_›,‹_›⟩
  · rintro ⟨item,among,inside⟩
    exact .item among inside
theorem textIn_object {entries : List (Text × Json)} :
    TextIn (.object entries) t ↔ ∃ entry ∈ entries, entry.1 ∉ safeContextKeys ∧ TextIn entry.2 t := by
  constructor
  · rintro ⟨⟩
    exact ⟨_,‹_›,‹_›,‹_›⟩
  · rintro ⟨entry,among,unsafeKey,inside⟩
    exact .entry among unsafeKey inside
theorem mem_collectItems (key : Option Text) (items : List Json) (t : Text) :
    t ∈ collectItems key items ↔ ∃ item ∈ items, t ∈ collectFragments key item := by
  induction items with
  | nil => simp [collectItems]
  | cons item rest ih => simp [collectItems,ih]
theorem mem_collectEntries (entries : List (Text × Json)) (t : Text) :
    t ∈ collectEntries entries ↔ ∃ entry ∈ entries, t ∈ collectFragments (some entry.1) entry.2 := by
  induction entries with
  | nil => simp [collectEntries]
  | cons entry rest ih => simp [collectEntries,ih]
def Collected (key : Option Text) : Prop := ∀ name ∈ key, name ∉ safeContextKeys
theorem any_safe_iff (key : Option Text) : (key.any (· ∈ safeContextKeys)) = true ↔ ¬ Collected key := by
  cases key <;> simp [Collected]

variable {key : Option Text}

theorem collectFragments_safe (safe : ¬ Collected key) (value : Json) : collectFragments key value = [] := by
  have isSafe := (any_safe_iff key).mpr safe
  cases value with
  | text value => exact if_pos isSafe
  | array items => exact if_pos isSafe
  | object entries => exact if_pos isSafe
  | null | bool value | integer value | float source => rfl

theorem any_safe_of_collected (collected : Collected key) :
    ¬ (key.any (· ∈ safeContextKeys)) = true := fun safe => (any_safe_iff key).mp safe collected
theorem collectFragments_text (collected : Collected key) (value : Text) :
    collectFragments key (.text value) = [value] :=
  if_neg (any_safe_of_collected collected)
theorem collectFragments_array (collected : Collected key) (items : List Json) :
    collectFragments key (.array items) = collectItems key items :=
  if_neg (any_safe_of_collected collected)
theorem collectFragments_object (collected : Collected key) (entries : List (Text × Json)) :
    collectFragments key (.object entries) = collectEntries entries :=
  if_neg (any_safe_of_collected collected)

theorem mem_collectFragments (key : Option Text) (value : Json) (t : Text) :
    t ∈ collectFragments key value ↔ Collected key ∧ TextIn value t := by
  by_cases collected : Collected key
  · cases value with
    | text value => simp [collectFragments_text collected,collected,textIn_text]
    | array items =>
      have each : ∀ item ∈ items, (t ∈ collectFragments key item ↔ TextIn item t) := by
        intro item among
        have smaller := sizeOf_lt_of_mem among
        simp [mem_collectFragments key item t,collected]
      rw [collectFragments_array collected,mem_collectItems,textIn_array]
      simp only [collected,true_and]
      exact exists_congr fun item => and_congr_right (each item)
    | object entries =>
      have each : ∀ entry ∈ entries, (t ∈ collectFragments (some entry.1) entry.2 ↔
          entry.1 ∉ safeContextKeys ∧ TextIn entry.2 t) := by
        rintro ⟨name,value⟩ among
        have smaller := sizeOf_lt_of_mem among
        simp [mem_collectFragments (some name) value t,Collected]
      rw [collectFragments_object collected,mem_collectEntries,textIn_object]
      simp only [collected,true_and]
      exact exists_congr fun entry => and_congr_right (each entry)
    | null | bool value | integer value | float source =>
      refine iff_of_false not_mem_nil ?_
      rintro ⟨-,⟨⟩⟩
  · simp [collectFragments_safe collected,collected]
termination_by sizeOf value
decreasing_by all_goals simp at smaller ⊢; omega

variable {fragments : List Text}

/-- What `_payload_fragments` finds is the fragments of the payload. -/
theorem mem_payloadFragments {payload : Json} (found : payloadFragments payload = .ok fragments)
    (t : Text) : t ∈ fragments ↔ Fragment payload t := by
  have collected : Collected none := by simp [Collected]
  cases payload with
  | text whole =>
    rw [payloadFragments,policyTextFragments] at found
    cases read : loads whole with
    | ok value =>
      rw [read] at found
      cases found
      simp [Fragment,read,mem_collectFragments,collected]
    | error failure =>
      rw [read] at found
      cases failure with
      | decode =>
        cases found
        simp [Fragment,read]
      | digits => cases found
  | null | bool value | integer value | float source | array items | object entries =>
    cases found
    simp [Fragment,mem_collectFragments,collected]

theorem payloadFragments_of_fragment {payload : Json} (fragment : Fragment payload t) :
    ∃ fragments, payloadFragments payload = .ok fragments := by
  cases payload with
  | text whole =>
    rcases fragment with ⟨value,read,-⟩ | ⟨read,-⟩
    · exact ⟨_,by rw [payloadFragments,policyTextFragments,read]⟩
    · exact ⟨_,by rw [payloadFragments,policyTextFragments,read]⟩
  | null | bool value | integer value | float source | array items | object entries => exact ⟨_,rfl⟩

variable {alphabet contrast}
theorem isAllowedMatch_iff {rule : PolicyRule Surface Level} {sentence : Text} {found : Nat × Nat} :
    isAllowedMatch contrast sentence found rule.allowRegexes = true ↔ Excused contrast rule sentence found := by
  simp only [isAllowedMatch,Excused,any_eq_true,Bool.and_eq_true,decide_eq_true_eq,List.isEmpty_iff,and_assoc]

theorem findingOf_isSome {rule : PolicyRule Surface Level} {sentence : Text} :
    (findingOf contrast rule sentence).isSome = true ↔ FirstUncovered contrast rule sentence := by
  rw [findingOf,findSome?_isSome_iff]
  refine exists_congr fun regex => and_congr_right fun _ => ?_
  cases first : (regex sentence).head? with
  | none => simp
  | some found =>
    by_cases allowed : isAllowedMatch contrast sentence found rule.allowRegexes
    · simpa [allowed] using isAllowedMatch_iff.mp allowed
    · simpa [allowed] using fun excused => allowed (isAllowedMatch_iff.mpr excused)

variable {finding : PolicyFinding}

theorem findingOf_some {rule : PolicyRule Surface Level} {sentence : Text}
    (found : findingOf contrast rule sentence = some finding) :
    finding.ruleId = rule.id ∧ finding.sentence = sentence ∧ finding.severity = rule.severity := by
  obtain ⟨regex,-,first⟩ := exists_of_findSome?_eq_some found
  split at first
  · cases first
  · split at first
    · cases first
    · cases first
      exact ⟨rfl,rfl,rfl⟩

theorem mem_evaluateFragments {rules : RuleSet Surface Level} {surface : Surface} {level : Level} : finding ∈ evaluateFragments alphabet contrast rules fragments surface level ↔
      ∃ fragment ∈ fragments, ∃ sentence ∈ policySentences alphabet fragment, ∃ rule ∈ rules.rules,
        ruleApplies rule surface level = true ∧ findingOf contrast rule sentence = some finding := by
  simp only [evaluateFragments,mem_flatMap,mem_filterMap,mem_filter,and_assoc]
theorem dedupeFindings_append (findings : List PolicyFinding) (finding : PolicyFinding) :
    dedupeFindings alphabet (findings ++ [finding]) =
      if (dedupeFindings alphabet findings).any fun earlier => dedupeKey alphabet earlier = dedupeKey alphabet finding then
        dedupeFindings alphabet findings
      else dedupeFindings alphabet findings ++ [finding] := by
  rw [dedupeFindings,foldl_append]
  rfl

theorem mem_of_mem_dedupeFindings {findings : List PolicyFinding}
    (member : finding ∈ dedupeFindings alphabet findings) : finding ∈ findings := by
  induction findings using List.reverseRecOn with
  | nil => cases member
  | append_singleton earlier last ih =>
    rw [dedupeFindings_append] at member
    split at member
    · exact mem_append_left _ (ih member)
    · rcases mem_append.mp member with before | new
      · exact mem_append_left _ (ih before)
      · exact mem_append_right _ new

theorem dedupeFindings_key {findings : List PolicyFinding} (member : finding ∈ findings) :
    ∃ kept ∈ dedupeFindings alphabet findings, dedupeKey alphabet kept = dedupeKey alphabet finding := by
  induction findings using List.reverseRecOn with
  | nil => cases member
  | append_singleton earlier last ih =>
    rw [dedupeFindings_append]
    split
    case isTrue repeated =>
      rcases mem_append.mp member with before | new
      · exact ih before
      · rw [mem_singleton.mp new]
        simpa using repeated
    case isFalse =>
      rcases mem_append.mp member with before | new
      · obtain ⟨kept,among,same⟩ := ih before
        exact ⟨kept,mem_append_left _ among,same⟩
      · exact ⟨finding,mem_append_right _ new,rfl⟩

section
variable {rules : RuleSet Surface Level} {subject : PolicySubject Surface Level} {rule : PolicyRule Surface Level}
  {sentence : Text}

theorem finding_of_firstUncovered {fragments : List Text} (examined : Examined alphabet rules subject rule sentence)
    (found : payloadFragments subject.payload = .ok fragments) (uncovered : FirstUncovered contrast rule sentence) :
    ∃ finding ∈ evaluateFragments alphabet contrast rules fragments subject.surface subject.evidenceLevel,
      finding.ruleId = rule.id ∧ finding.sentence = sentence ∧ finding.severity = rule.severity := by
  obtain ⟨known,applies,fragment,isFragment,isSentence⟩ := examined
  obtain ⟨finding,has⟩ := Option.isSome_iff_exists.mp (findingOf_isSome.mpr uncovered)
  have among := (mem_payloadFragments found fragment).mpr isFragment
  have found := mem_evaluateFragments.mpr ⟨fragment,among,sentence,isSentence,rule,known,applies,has⟩
  exact ⟨finding,found,findingOf_some has⟩

theorem firstUncovered_of_reports {decision : PolicyDecision} (known : rule ∈ rules.rules)
    (decided : evaluatePolicy alphabet contrast rules subject = .ok decision) (reports : Reports decision rule sentence) :
    FirstUncovered contrast rule sentence := by
  cases found : payloadFragments subject.payload with
  | error failure =>
    rw [evaluatePolicy,found] at decided
    cases decided
  | ok fragments =>
    rw [evaluatePolicy,found] at decided
    cases decided
    obtain ⟨finding,member,sameRule,sameSentence⟩ := reports
    obtain ⟨fragment,-,cut,-,other,knownOther,-,has⟩ := mem_evaluateFragments.mp (mem_of_mem_dedupeFindings member)
    obtain ⟨fromRule,fromSentence,-⟩ := findingOf_some has
    have same : other = rule := inj_on_of_nodup_map rules.distinct knownOther known (fromRule.symm.trans sameRule)
    have here : cut = sentence := fromSentence.symm.trans sameSentence
    subst same here
    exact findingOf_isSome.mp (Option.isSome_iff_exists.mpr ⟨finding,has⟩)

theorem flagged_of_firstUncovered (examined : Examined alphabet rules subject rule sentence)
    (uncovered : FirstUncovered contrast rule sentence) : Flagged alphabet contrast rules subject rule sentence := by
  obtain ⟨fragment,isFragment,-⟩ := examined.2.2
  obtain ⟨fragments,found⟩ := payloadFragments_of_fragment isFragment
  obtain ⟨finding,member,ofRule,ofSentence,severity⟩ := finding_of_firstUncovered examined found uncovered
  constructor
  · obtain ⟨kept,among,same⟩ := @dedupeFindings_key alphabet _ _ member
    simp only [dedupeKey,Prod.mk.injEq] at same
    refine ⟨_,by rw [evaluatePolicy,found]; rfl,kept,among,?_,?_⟩
    · exact same.1.trans ofRule
    · exact same.2.1.trans ofSentence
  · intro t isText blocker
    rw [isText,payloadFragments] at found
    rw [containsBlockingPolicy,found]
    have blocked : (evaluateFragments alphabet contrast rules fragments subject.surface
        subject.evidenceLevel).any blocks = true := any_eq_true.mpr ⟨finding,member,by simp [blocks,severity,blocker]⟩
    exact congrArg Except.ok blocked

end

/-- A subject has every match flagged that is not excused exactly if no rule has all such matches behind excused
    first matches of their patterns. -/
theorem flags_iff (alphabet : Alphabet) (contrast : Matcher) (rules : RuleSet Surface Level)
    (subject : PolicySubject Surface Level) :
    (∀ rule sentence, Examined alphabet rules subject rule sentence → Uncovered contrast rule sentence →
        Flagged alphabet contrast rules subject rule sentence) ↔
      ∀ rule sentence, Examined alphabet rules subject rule sentence → Uncovered contrast rule sentence →
        FirstUncovered contrast rule sentence := by
  constructor
  · intro flags rule sentence examined uncovered
    obtain ⟨decision,decided,reports⟩ := (flags rule sentence examined uncovered).1
    exact firstUncovered_of_reports examined.1 decided reports
  · intro first rule sentence examined uncovered
    exact flagged_of_firstUncovered examined (first rule sentence examined uncovered)

def matcherOf (alphabet : Alphabet) (p : Pattern) : Matcher := fun t =>
  (findAll alphabet p t).map fun found => (found.1.before.length,found.2.before.length)
/-- `_CONTRAST_BOUNDARY_RE`. -/
def contrastMatcher (alphabet : Alphabet) : Matcher := PolicyEngine.contrastBoundary.elim (fun _ => []) (matcherOf alphabet)

def ruleOf (alphabet : Alphabet) (rule : PolicyEngine.PolicyRule) :
    PolicyRule PolicyEngine.Surface PolicyEngine.EvidenceLevel where
  id := rule.id
  category := rule.category
  severity := rule.severity
  code := rule.code
  message matchedText := text rule.message ++ matchedText
  blockRegexes := rule.blockRegexes.map (matcherOf alphabet)
  allowRegexes := rule.allowRegexes.map (matcherOf alphabet)
  surfaces := rule.surfaces
  evidenceLevels := rule.evidenceLevels

theorem policyRules_distinct : (PolicyEngine.policyRules.map PolicyEngine.PolicyRule.id).Nodup := by decide
/-- The rules of the policy file. -/
def policyRules (alphabet : Alphabet) : RuleSet PolicyEngine.Surface PolicyEngine.EvidenceLevel where
  rules := PolicyEngine.policyRules.map (ruleOf alphabet)
  distinct := by
    rw [List.map_map]
    exact policyRules_distinct
theorem head?_matcherOf {p : Pattern} (wide : 0 < width p.regex) (t : Text) : (matcherOf alphabet p t).head? =
    (search alphabet p t).map fun found => (found.1.before.length,found.2.before.length) := by
  rw [matcherOf,head?_map,head?_findAll wide]

theorem contrastMatcher_isEmpty (t : Text) : (contrastMatcher alphabet t).isEmpty =
    PolicyEngine.contrastBoundary.all fun contrast => (search alphabet contrast t).isNone := by
  have wide : ∀ contrast ∈ PolicyEngine.contrastBoundary, 0 < width contrast.regex := by
    rw [PolicyEngine.contrastBoundary,text_ofList]
    decide +kernel
  cases isContrast : PolicyEngine.contrastBoundary with
  | none => simp [contrastMatcher,isContrast]
  | some contrast =>
    have first := @head?_matcherOf alphabet contrast (wide contrast isContrast) t
    rw [contrastMatcher,isContrast]
    cases found : search alphabet contrast t with
    | none =>
      rw [found] at first
      simpa [found] using first
    | some spanned =>
      rw [found] at first
      have isCons := head?_eq_some_iff.mp first
      obtain ⟨rest,same⟩ := isCons
      simp [same,found]

theorem any_congr_mem {α : Type} {l : List α} {p q : α → Bool} (same : ∀ a ∈ l, p a = q a) : l.any p = l.any q := by
  induction l with
  | nil => rfl
  | cons a l ih => simp [same a,ih fun other among => same other (mem_cons_of_mem a among)]
theorem findSome?_congr_mem {α β : Type} {l : List α} {f g : α → Option β} (same : ∀ a ∈ l, f a = g a) :
    l.findSome? f = l.findSome? g := by
  induction l with
  | nil => rfl
  | cons a l ih =>
    rw [findSome?_cons,findSome?_cons,same a mem_cons_self,
      ih fun other among => same other (mem_cons_of_mem a among)]

theorem isAllowedMatch_ruleOf {sentence : Text} {found : Cursor × Cursor} (start : found.1.whole = sentence)
    (allowRegexes : List Pattern) :
    isAllowedMatch (contrastMatcher alphabet) sentence (found.1.before.length,found.2.before.length)
      (allowRegexes.map (matcherOf alphabet)) = PolicyEngine.isAllowedMatch alphabet sentence found allowRegexes := by
  rw [isAllowedMatch,PolicyEngine.isAllowedMatch,any_map]
  refine any_congr_mem fun allow _ => ?_
  rw [Function.comp_apply,matcherOf,any_map]
  refine any_congr_mem fun covering among => ?_
  have isText : covering.1.whole = sentence := (matchesFrom_whole among).1
  simp only [Function.comp_apply,slice,contrastMatcher_isEmpty,span_eq isText start]

theorem findingOf_ruleOf {rule : PolicyEngine.PolicyRule} (known : rule ∈ PolicyEngine.policyRules) (sentence : Text) :
    findingOf (contrastMatcher alphabet) (ruleOf alphabet rule) sentence = PolicyEngine.findingOf alphabet rule sentence := by
  rw [findingOf,PolicyEngine.findingOf,ruleOf,findSome?_map]
  refine findSome?_congr_mem fun p among => ?_
  have wide : 0 < width p.regex := Nat.lt_of_succ_lt ((PolicyEngine.policyRules_wide rule known).2 p among)
  rw [Function.comp_apply,head?_matcherOf wide]
  cases isFound : search alphabet p sentence with
  | none => rfl
  | some found =>
    have start : found.1.whole = sentence := (searchFrom_whole isFound).1
    have stop : found.2.whole = sentence := (searchFrom_whole isFound).2
    simp only [Option.map_some,isAllowedMatch_ruleOf start,slice,span_eq start stop]

theorem ruleApplies_ruleOf (rule : PolicyEngine.PolicyRule) (surface : PolicyEngine.Surface)
    (level : PolicyEngine.EvidenceLevel) :
    ruleApplies (ruleOf alphabet rule) surface level = PolicyEngine.ruleApplies rule surface level := by
  have isEmpty : ∀ {α : Type} [DecidableEq α] (l : List α), l.isEmpty = decide (l = []) := by
    intro α _ l
    cases l <;> simp
  simp only [ruleApplies,PolicyEngine.ruleApplies,ruleOf,isEmpty,contains_eq_mem]

theorem evaluateFragments_policyRules (fragments : List Text) (surface : PolicyEngine.Surface)
    (level : PolicyEngine.EvidenceLevel) :
    evaluateFragments alphabet (contrastMatcher alphabet) (policyRules alphabet) fragments surface level =
      PolicyEngine.evaluateFragments alphabet fragments surface level := by
  have each : ∀ sentence, ((policyRules alphabet).rules.filter fun rule => ruleApplies rule surface level).filterMap
      (fun rule => findingOf (contrastMatcher alphabet) rule sentence) =
        (PolicyEngine.policyRules.filter fun rule => PolicyEngine.ruleApplies rule surface level).filterMap
          fun rule => PolicyEngine.findingOf alphabet rule sentence := by
    intro sentence
    simp only [policyRules,filter_map,filterMap_map,Function.comp_def,ruleApplies_ruleOf]
    exact filterMap_congr fun rule known => findingOf_ruleOf (mem_filter.mp known).1 sentence
  simp only [evaluateFragments,PolicyEngine.evaluateFragments,each]

/-- With the rules of the rule file the engine finds what the one that scans by their patterns finds. -/
theorem evaluateText_eq (t : Text) (surface : PolicyEngine.Surface) (level : PolicyEngine.EvidenceLevel) :
    PolicyEngine.evaluateText alphabet t surface level =
      (evaluatePolicy alphabet (contrastMatcher alphabet) (policyRules alphabet) ⟨surface,.text t,level⟩).map
        PolicyDecision.findings := by
  rw [PolicyEngine.evaluateText,evaluatePolicy,payloadFragments]
  cases policyTextFragments t with
  | error failure => rfl
  | ok fragments =>
    simp only [Except.map,evaluateFragments_policyRules]

instance decidableUncovered (rule : PolicyRule Surface Level) (sentence : Text) :
    Decidable (Uncovered contrast rule sentence) :=
  decidable_of_iff ((rule.blockRegexes.any fun regex => (regex sentence).any fun found =>
      !isAllowedMatch contrast sentence found rule.allowRegexes) = true) (by
    simp only [Uncovered,← isAllowedMatch_iff,List.any_eq_true,Bool.not_eq_true,Bool.not_eq_eq_eq_not,Bool.not_true])

/-- One pattern of the first rule, with a short exception. -/
def sampleRule : PolicyEngine.PolicyRule where
  id := "guaranteed_return_claim"
  category := "profitability_claim"
  severity := .blocker
  code := "policy_violation"
  message := "Blocked trading claim: "
  blockPatterns := ["\\brisk-free\\b"]
  allowPatterns := ["\\bno\\b.{0,140}\\brisk-free\\b"]
  surfaces := []
  evidenceLevels := []

/-- An excused claim, and the same claim after it that nothing excuses. -/
theorem excuse_hides : ¬ ∀ (alphabet : Alphabet) (contrast : Matcher)
    (rules : RuleSet PolicyEngine.Surface PolicyEngine.EvidenceLevel)
    (subject : PolicySubject PolicyEngine.Surface PolicyEngine.EvidenceLevel)
    (rule : PolicyRule PolicyEngine.Surface PolicyEngine.EvidenceLevel) (sentence : Text),
    Examined alphabet rules subject rule sentence → Uncovered contrast rule sentence →
      Flagged alphabet contrast rules subject rule sentence := by
  intro all
  let rule := ruleOf asciiAlphabet sampleRule
  let claim := text "No risk-free, but risk-free."
  let rules : RuleSet PolicyEngine.Surface PolicyEngine.EvidenceLevel := ⟨[rule],nodup_singleton _⟩
  have fragments : payloadFragments (.text claim) = .ok [claim] := by decide +kernel
  have examined : Examined asciiAlphabet rules ⟨.text,.text claim,.strategyIdea⟩ rule claim :=
    ⟨mem_singleton.mpr rfl,rfl,claim,(mem_payloadFragments fragments claim).mp (mem_singleton.mpr rfl),
      by decide +kernel⟩
  have uncovered : Uncovered (contrastMatcher asciiAlphabet) rule claim := by decide +kernel
  have nothing : findingOf (contrastMatcher asciiAlphabet) rule claim = none := by decide +kernel
  obtain ⟨⟨decision,decided,reports⟩,-⟩ := all _ _ _ _ _ _ examined uncovered
  have first := firstUncovered_of_reports examined.1 decided reports
  rw [← findingOf_isSome,nothing] at first
  cases first

end Codebot.PolicyMatches
