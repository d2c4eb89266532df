import Codebot.Texts
import Mathlib.Data.List.Infix

/-!
The sizing rules of a strategy spec. Where its sizing and its risk rules name the full capital, a normaliser replaces
the sizing and each rule that names it, and another adds an assumption on exposure; the check after them searches all
rules together (`settled_iff`).
-/
namespace Codebot.SizingRules
open List hiding contains
open Texts

/-- The tables, in which case is a matter of a part between spaces. -/
structure CaseTables extends StableUnicode where
  lower_spaced : ∀ first second, lower (first ++ text " " ++ second) = lower first ++ text " " ++ lower second
/-- `FULL_CAPITAL_POSITION_SIZING_PHRASES`. -/
def fullCapitalPhrases : List Text := ["100% of available capital","100 percent of available capital","all available capital",
  "all capital","entire account","entire account balance","full account","full balance","whole account","100% account",
  "100% of account","100% of equity","100% equity"].map text
/-- `BOUNDED_RISK_POSITION_SIZING_PHRASES`. -/
def boundedRiskPhrases : List Text :=
  ["1%","1 percent","2%","2 percent","fixed risk","fixed fractional","fixed units","small-risk","bounded"].map text
/-- `RISK_CONCENTRATION_ASSUMPTION_PHRASES`. -/
def riskConcentrationPhrases : List Text := ["portfolio heat","exposure","correlated","correlation","leverage"].map text
def defaultRiskConcentrationAssumption : Text :=
  text "Assume single-strategy exposure only; cap portfolio heat and correlated positions before any paper or live use."
def boundedSizing : Text := text "Risk 1% of account equity per trade."
def boundedRule : Text := text "Use bounded fixed fractional sizing; risk 1% of account equity per trade."
/-- The fields of a spec that are searched. -/
structure StrategySpec where
  positionSizing : Option Text
  riskRules : List Text
  constraints : List Text
deriving DecidableEq
structure Normalization where
  kind : Text
  source : Option Text
  target : Text
  matchedPhrase : Option Text
  reason : Text
def StrategySpec.sizing (spec : StrategySpec) : List Text := spec.positionSizing.toList ++ spec.riskRules

section
variable (tables : CaseTables)

def searchText (parts : List Text) : Text := tables.lower (join (text " ") (parts.filter (· ≠ [])))
def names (phrases : List Text) (t : Text) : Bool := phrases.any fun phrase => contains phrase t
def bounded (rule : Text) : Text := if names fullCapitalPhrases (tables.lower rule) then boundedRule else rule

def normalizeFullCapitalPositionSizing (spec : StrategySpec) : StrategySpec × Option Normalization :=
  match fullCapitalPhrases.find? fun phrase => contains phrase (searchText tables spec.sizing) with
  | none => (spec,none)
  | some phrase =>
    let rules := spec.riskRules.map (bounded tables)
    ({ spec with
        positionSizing := some boundedSizing
        riskRules := if rules = spec.riskRules then rules ++ [boundedRule] else rules },
      some ⟨text "position_sizing",spec.positionSizing,boundedSizing,some phrase,text "unsafe_full_capital_position_sizing"⟩)

def normalizeRiskConcentrationAssumption (spec : StrategySpec) : StrategySpec × Option Normalization :=
  let riskText := searchText tables (spec.sizing ++ spec.constraints)
  if ¬ names boundedRiskPhrases riskText ∨ names riskConcentrationPhrases riskText then (spec,none)
  else
    ({ spec with riskRules := spec.riskRules ++ [defaultRiskConcentrationAssumption] },
      some ⟨text "risk_concentration_assumption",none,defaultRiskConcentrationAssumption,none,
        text "missing_exposure_or_portfolio_heat_assumption"⟩)
def validatePositionSizingQuality (spec : StrategySpec) : Except Text Unit :=
  let sizingText := searchText tables spec.sizing
  if sizingText = [] then .ok ()
  else if names fullCapitalPhrases sizingText then
    .error (text "strategy_spec uses unsafe full-capital position sizing; use 1-2% account equity risk per trade, fixed units, or another explicitly bounded small-risk model.")
  else .ok ()
def normalized (spec : StrategySpec) : StrategySpec :=
  (normalizeRiskConcentrationAssumption tables (normalizeFullCapitalPositionSizing tables spec).1).1
def Unsafe (parts : List Text) : Prop := names fullCapitalPhrases (searchText tables parts) = true
def Spans (spec : StrategySpec) : Prop := ∃ run, run <:+: spec.riskRules ∧ (∀ rule ∈ run, ¬ Unsafe tables [rule]) ∧ Unsafe tables run

end

variable {tables : CaseTables}
theorem names_iff {phrases : List Text} {t : Text} : names phrases t = true ↔ ∃ phrase ∈ phrases, phrase <:+: t := by
  simp only [names,any_eq_true,contains_iff]
theorem lower_nil (tables : CaseTables) : tables.lower [] = [] := tables.lower_ascii [] (by simp)
theorem searchText_eq (parts : List Text) :
    searchText tables parts = join (text " ") ((parts.filter (· ≠ [])).map tables.lower) :=
  map_join (lower_nil tables) tables.lower_spaced _
theorem searchText_within {parts whole : List Text} (inside : parts <:+: whole) :
    searchText tables parts <:+: searchText tables whole := by
  rw [searchText_eq,searchText_eq]
  exact join_within _ ((inside.filter _).map _)
theorem names_within {phrases parts whole : List Text} (inside : parts <:+: whole) (has : names phrases (searchText tables parts)) :
    names phrases (searchText tables whole) := by
  obtain ⟨phrase,isPhrase,within⟩ := names_iff.mp has
  exact names_iff.mpr ⟨phrase,isPhrase,within.trans (searchText_within inside)⟩
theorem unsafe_single (rule : Text) : Unsafe tables [rule] ↔ names fullCapitalPhrases (tables.lower rule) = true := by
  unfold Unsafe searchText
  by_cases empty : rule = []
  · simp [empty,join]
  · simp [empty,join]
def Fence (body : Text) : Prop :=
  ∀ phrase ∈ fullCapitalPhrases, ¬ phrase <:+: body ∧ ∀ rest ∈ phrase.tails, rest ≠ [] → ¬ rest <+: 32 :: body
theorem phrase_plain : ∀ phrase ∈ fullCapitalPhrases, 46 ∉ phrase ∧ phrase.head? ≠ some 32 ∧ phrase ≠ [] := by
  decide +kernel

theorem infix_split {c : Nat} {t front back : Text} (absent : c ∉ t) (inside : t <:+: front ++ c :: back) :
    t <:+: front ∨ t <:+: back := by
  rcases infix_append_iff.mp inside with inFront | inBack | ⟨first,later,rfl,ends,begins⟩
  · exact .inl inFront
  · rcases infix_cons_iff.mp inBack with begins | inside
    · rcases prefix_cons_iff.mp begins with rfl | ⟨rest,rfl,-⟩
      · exact .inl nil_infix
      · exact absurd mem_cons_self absent
    · exact .inr inside
  · rcases prefix_cons_iff.mp begins with rfl | ⟨rest,rfl,-⟩
    · rw [append_nil]
      exact .inl ends.isInfix
    · exact absurd (mem_append_right _ mem_cons_self) absent

theorem fence_before {body front phrase : Text} (fence : Fence body) (isPhrase : phrase ∈ fullCapitalPhrases)
    (inside : phrase <:+: front ++ 32 :: body) : phrase <:+: front := by
  obtain ⟨absent,never⟩ := fence phrase isPhrase
  rcases infix_append_iff.mp inside with inFront | inBody | ⟨first,later,rfl,ends,begins⟩
  · exact inFront
  · rcases infix_cons_iff.mp inBody with begins | inBody
    · exact absurd begins (never phrase ((mem_tails _ _).mpr suffix_rfl) (phrase_plain phrase isPhrase).2.2)
    · exact absurd inBody absent
  · by_cases none : later = []
    · rw [none,append_nil]
      exact ends.isInfix
    · exact absurd begins (never later ((mem_tails _ _).mpr (suffix_append _ _)) none)

def Parts (tables : CaseTables) (sentence : Text) : Prop := ∃ body, tables.lower sentence = body ++ [46] ∧ Fence body

/-- A sentence that no phrase touches parts what is searched. -/
theorem unsafe_around {first later : List Text} {sentence : Text} (parts : Parts tables sentence)
    (has : Unsafe tables (first ++ sentence :: later)) : Unsafe tables first ∨ Unsafe tables later := by
  obtain ⟨body,spoken,fence⟩ := parts
  obtain ⟨phrase,isPhrase,inside⟩ := names_iff.mp has
  obtain ⟨noStop,noBlank,_⟩ := phrase_plain phrase isPhrase
  have some : sentence ≠ [] := by
    rintro rfl
    rw [lower_nil] at spoken
    exact absurd spoken.symm (by simp)
  have ends : ∀ {back : Text}, phrase <:+: 32 :: back → phrase <:+: back := by
    intro back inside
    rcases infix_cons_iff.mp inside with begins | inside
    · rcases prefix_cons_iff.mp begins with rfl | ⟨rest,rfl,-⟩
      · exact nil_infix
      · exact absurd rfl noBlank
    · exact inside
  have starts : ∀ {back : Text}, phrase <:+: body ++ 46 :: back → phrase <:+: back := fun inside =>
    (infix_split noStop inside).resolve_left (fence phrase isPhrase).1
  rw [searchText_eq,filter_append,filter_cons_of_pos (by simpa using some),map_append,map_cons,spoken] at inside
  unfold Unsafe
  rw [names_iff,names_iff,searchText_eq,searchText_eq]
  generalize (first.filter (· ≠ [])).map tables.lower = front at inside ⊢
  generalize (later.filter (· ≠ [])).map tables.lower = back at inside ⊢
  have isText : text " " = [32] := by decide
  rw [isText] at inside ⊢
  have tail : ∃ rest, join [32] ((body ++ [46]) :: back) = body ++ 46 :: rest ∧ (phrase <:+: rest → phrase <:+: join [32] back) := by
    cases back with
    | nil => exact ⟨[],by simp [join],id⟩
    | cons next rest => exact ⟨32 :: join [32] (next :: rest),by simp [join_cons],ends⟩
  obtain ⟨rest,isTail,inRest⟩ := tail
  by_cases none : front = []
  · rw [none,nil_append,isTail] at inside
    exact .inr ⟨phrase,isPhrase,inRest (starts inside)⟩
  · rw [join_append _ none (cons_ne_nil _ _),isTail,append_assoc,singleton_append,← cons_append,
      ← append_assoc] at inside
    rcases infix_split noStop inside with before | after
    · exact .inl ⟨phrase,isPhrase,fence_before fence isPhrase before⟩
    · exact .inr ⟨phrase,isPhrase,inRest after⟩

theorem parts_ascii {sentence body : Text} (small : ∀ c ∈ sentence, c < 128) (isLower : ascii.lower sentence = body ++ [46])
    (fence : Fence body) : Parts tables sentence := ⟨body,(tables.lower_ascii sentence small).trans isLower,fence⟩

theorem sentences_part (tables : CaseTables) :
    Parts tables boundedRule ∧ Parts tables boundedSizing ∧ Parts tables defaultRiskConcentrationAssumption := by
  refine ⟨@parts_ascii _ _ (text "use bounded fixed fractional sizing; risk 1% of account equity per trade") ?_ ?_ ?_,
    @parts_ascii _ _ (text "risk 1% of account equity per trade") ?_ ?_ ?_,
    @parts_ascii _ _ (text "assume single-strategy exposure only; cap portfolio heat and correlated positions before any paper or live use")
      ?_ ?_ ?_⟩
  all_goals
    simp only [boundedRule,boundedSizing,defaultRiskConcentrationAssumption,Fence]
    repeat rw [text_ofList]
    decide +kernel

theorem unsafe_within {parts whole : List Text} (inside : parts <:+: whole) (isUnsafe : Unsafe tables parts) : Unsafe tables whole :=
  names_within inside isUnsafe
theorem not_unsafe_nil : ¬ Unsafe tables [] := by
  intro isUnsafe
  obtain ⟨phrase,isPhrase,inside⟩ := names_iff.mp isUnsafe
  rw [searchText_eq] at inside
  exact (phrase_plain phrase isPhrase).2.2 (infix_nil.mp inside)
theorem bounded_safe {rule : Text} (safe : ¬ Unsafe tables [rule]) : bounded tables rule = rule :=
  if_neg fun has => safe ((unsafe_single rule).mpr has)

/-- What is found among rules that were replaced goes on from one of them that was kept into the next. -/
theorem kept_run {front rules : List Text} (kept : ∀ rule ∈ front, ¬ Unsafe tables [rule])
    (isUnsafe : Unsafe tables (front ++ rules.map (bounded tables))) :
    ∃ run, run <:+: front ++ rules ∧ (∀ rule ∈ run, ¬ Unsafe tables [rule]) ∧ Unsafe tables run := by
  induction rules generalizing front with
  | nil => exact ⟨front,infix_append_left,kept,by simpa using isUnsafe⟩
  | cons rule rest ih =>
    rw [map_cons] at isUnsafe
    by_cases replaced : Unsafe tables [rule]
    · have isBounded : bounded tables rule = boundedRule := if_pos ((unsafe_single rule).mp replaced)
      rw [isBounded] at isUnsafe
      rcases unsafe_around (sentences_part tables).1 isUnsafe with before | after
      · exact ⟨front,infix_append_left,kept,before⟩
      · obtain ⟨run,inside,alone,spans⟩ := @ih [] (forall_mem_nil _) after
        refine ⟨run,inside.trans ?_,alone,spans⟩
        exact ((suffix_cons rule rest).trans (suffix_append front _)).isInfix
    · rw [bounded_safe replaced,← singleton_append,← append_assoc] at isUnsafe
      have grown : ∀ kept ∈ front ++ [rule], ¬ Unsafe tables [kept] := by
        intro other member
        rcases mem_append.mp member with earlier | here
        · exact kept other earlier
        · rw [mem_singleton.mp here]
          exact replaced
      obtain ⟨run,inside,alone,spans⟩ := ih grown isUnsafe
      rw [append_assoc,singleton_append] at inside
      exact ⟨run,inside,alone,spans⟩

theorem normalized_full (tables : CaseTables) (spec : StrategySpec) :
    (¬ Unsafe tables spec.sizing ∧ (normalizeFullCapitalPositionSizing tables spec).1 = spec) ∨
      Unsafe tables spec.sizing ∧ ∃ rules, (rules = spec.riskRules.map (bounded tables) ∧ rules ≠ spec.riskRules ∨
          rules = spec.riskRules ++ [boundedRule] ∧ spec.riskRules.map (bounded tables) = spec.riskRules) ∧
        (normalizeFullCapitalPositionSizing tables spec).1 = { spec with positionSizing := some boundedSizing,riskRules := rules } := by
  unfold normalizeFullCapitalPositionSizing
  cases found : fullCapitalPhrases.find? fun phrase => contains phrase (searchText tables spec.sizing) with
  | none =>
    refine .inl ⟨fun isUnsafe => ?_,rfl⟩
    obtain ⟨phrase,isPhrase,has⟩ := any_eq_true.mp isUnsafe
    exact find?_eq_none.mp found phrase isPhrase has
  | some phrase =>
    have has := @List.find?_some _ (fun phrase => contains phrase (searchText tables spec.sizing)) _ _ found
    refine .inr ⟨any_eq_true.mpr ⟨phrase,mem_of_find?_eq_some found,has⟩,_,?_,rfl⟩
    split
    · rename_i same
      exact .inr ⟨by rw [same],same⟩
    · rename_i differs
      exact .inl ⟨rfl,differs⟩

theorem unsafe_of_spans {spec : StrategySpec} (spans : Spans tables spec) : Unsafe tables spec.sizing := by
  obtain ⟨run,inside,_,isUnsafe⟩ := spans
  exact unsafe_within (inside.trans (suffix_append _ _).isInfix) isUnsafe

theorem full_unsafe_iff (spec : StrategySpec) :
    Unsafe tables (normalizeFullCapitalPositionSizing tables spec).1.sizing ↔ Spans tables spec := by
  rcases normalized_full tables spec with ⟨safe,same⟩ | ⟨_,rules,isRules,same⟩
  · rw [same]
    exact iff_of_false safe fun spans => safe (unsafe_of_spans spans)
  · rw [same]
    constructor
    · intro isUnsafe
      have ofRules : Unsafe tables rules :=
        (@unsafe_around _ [] _ _ (sentences_part tables).2.1 isUnsafe).resolve_left not_unsafe_nil
      have ofKept : Unsafe tables ([] ++ spec.riskRules.map (bounded tables)) := by
        rcases isRules with ⟨rfl,_⟩ | ⟨rfl,kept⟩
        · exact ofRules
        · rw [kept]
          exact (unsafe_around (sentences_part tables).1 ofRules).resolve_right not_unsafe_nil
      exact kept_run (forall_mem_nil _) ofKept
    · rintro ⟨run,inside,alone,isUnsafe⟩
      have kept : run.map (bounded tables) = run := by
        conv_rhs => rw [← map_id run]
        exact map_congr_left fun rule member => bounded_safe (alone rule member)
      have within : run <:+: rules := by
        rcases isRules with ⟨rfl,_⟩ | ⟨rfl,_⟩
        · rw [← kept]
          exact inside.map _
        · exact inside.trans infix_append_left
      exact unsafe_within (within.trans (suffix_cons _ _).isInfix) isUnsafe

theorem normalized_risk (tables : CaseTables) (spec : StrategySpec) :
    (normalizeRiskConcentrationAssumption tables spec).1 = spec ∨
      (normalizeRiskConcentrationAssumption tables spec).1 =
        { spec with riskRules := spec.riskRules ++ [defaultRiskConcentrationAssumption] } := by
  unfold normalizeRiskConcentrationAssumption
  dsimp only
  split
  · exact .inl rfl
  · exact .inr rfl

theorem risk_unsafe_iff (spec : StrategySpec) :
    Unsafe tables (normalizeRiskConcentrationAssumption tables spec).1.sizing ↔ Unsafe tables spec.sizing := by
  rcases normalized_risk tables spec with same | same
  · rw [same]
  · rw [same]
    have isSizing : StrategySpec.sizing { spec with riskRules := spec.riskRules ++ [defaultRiskConcentrationAssumption] } =
        spec.sizing ++ [defaultRiskConcentrationAssumption] := (append_assoc _ _ _).symm
    rw [isSizing]
    exact ⟨fun isUnsafe => (unsafe_around (sentences_part tables).2.2 isUnsafe).resolve_right not_unsafe_nil,
      unsafe_within infix_append_left⟩

theorem normalized_unsafe_iff (spec : StrategySpec) : Unsafe tables (normalized tables spec).sizing ↔ Spans tables spec :=
  (risk_unsafe_iff _).trans (full_unsafe_iff spec)

theorem validated_iff (spec : StrategySpec) : validatePositionSizingQuality tables spec = .ok () ↔ ¬ Unsafe tables spec.sizing := by
  unfold validatePositionSizingQuality Unsafe
  dsimp only
  split
  · rename_i empty
    refine iff_of_true rfl fun has => ?_
    obtain ⟨phrase,isPhrase,inside⟩ := names_iff.mp has
    rw [empty] at inside
    exact (phrase_plain phrase isPhrase).2.2 (infix_nil.mp inside)
  · split
    · rename_i has
      exact iff_of_false nofun (not_not_intro has)
    · rename_i clean
      exact iff_of_true rfl clean

theorem assumption_concentrated : names riskConcentrationPhrases (searchText tables [defaultRiskConcentrationAssumption]) := by
  have isText : searchText tables [defaultRiskConcentrationAssumption] = ascii.lower defaultRiskConcentrationAssumption := by
    rw [searchText,filter_cons_of_pos (by decide +kernel)]
    exact tables.lower_ascii _ (by decide +kernel)
  rw [isText]
  decide +kernel

theorem risk_risk (spec : StrategySpec) :
    (normalizeRiskConcentrationAssumption tables (normalizeRiskConcentrationAssumption tables spec).1).1 =
      (normalizeRiskConcentrationAssumption tables spec).1 := by
  rcases normalized_risk tables spec with same | same
  · rw [same,same]
  · rw [same]
    refine congrArg Prod.fst (if_pos (.inr (names_within ?_ assumption_concentrated)))
    exact ⟨spec.positionSizing.toList ++ spec.riskRules,spec.constraints,by simp [StrategySpec.sizing]⟩

theorem normalized_iff (spec : StrategySpec) :
    normalized tables (normalized tables spec) = normalized tables spec ↔ ¬ Unsafe tables (normalized tables spec).sizing := by
  generalize isSpec : normalized tables spec = first
  rcases normalized_full tables first with ⟨safe,same⟩ | ⟨isUnsafe,rules,isRules,same⟩
  · refine iff_of_true ?_ safe
    rw [normalized,same,← isSpec]
    exact risk_risk _
  · refine iff_of_false (fun whole => ?_) (not_not_intro isUnsafe)
    have sameRules : (normalized tables first).riskRules = first.riskRules := congrArg StrategySpec.riskRules whole
    have isFinal : (normalized tables first).riskRules = rules ∨
        (normalized tables first).riskRules = rules ++ [defaultRiskConcentrationAssumption] := by
      rw [normalized,same]
      rcases normalized_risk tables { first with positionSizing := some boundedSizing,riskRules := rules } with same | same
      · exact .inl (congrArg StrategySpec.riskRules same)
      · exact .inr (congrArg StrategySpec.riskRules same)
    have length := congrArg List.length sameRules
    rcases isRules with ⟨isRules,differs⟩ | ⟨rfl,_⟩
    · rcases isFinal with final | final
      · exact differs (final.symm.trans sameRules)
      · rw [final,isRules,length_append,length_map] at length
        exact absurd length (by simp)
    · rcases isFinal with final | final
      · rw [final] at length
        simp at length
      · rw [final] at length
        simp at length

/-- After the normalisers the check passes, and they change nothing when they are applied again, exactly if no phrase goes on
    from one rule into the next. -/
theorem settled_iff (tables : CaseTables) (spec : StrategySpec) :
    (validatePositionSizingQuality tables (normalized tables spec) = .ok () ↔ ¬ Spans tables spec) ∧
      (normalized tables (normalized tables spec) = normalized tables spec ↔ ¬ Spans tables spec) :=
  ⟨(validated_iff _).trans (not_congr (normalized_unsafe_iff spec)),(normalized_iff spec).trans (not_congr (normalized_unsafe_iff spec))⟩
def asciiCases : CaseTables := ⟨stableAscii,lower_spaced_ascii⟩

/-- The phrase begins in one rule and ends in the next. -/
theorem phrase_left : ¬ ∀ (tables : CaseTables) (spec : StrategySpec),
    validatePositionSizingQuality tables (normalized tables spec) = .ok () := by
  intro settled
  have passes := settled asciiCases ⟨none,[text "never use all",text "capital on a trade"],[]⟩
  rw [validated_iff,normalized_unsafe_iff] at passes
  refine passes ⟨_,infix_rfl,?_,?_⟩
  · unfold Unsafe
    decide +kernel
  · unfold Unsafe
    decide +kernel

end Codebot.SizingRules
