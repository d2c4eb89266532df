import Codebot.NautilusStrategy
import Mathlib.Data.List.TakeWhile

/-!
The moving averages that the rules of a strategy spec state, and those that the Nautilus generator reads out of them:
the first two numbers before the letters of an average, or 9 and 21, and the letters `ema` and `exponential` wherever
they stand (`fails_closed_iff`).
-/
namespace Codebot.StatedAverages
open List hiding contains
open Texts PythonLiterals NautilusStrategy

/-- The tables with the letters of words, and what Unicode promises of them. -/
structure RuleTables extends Unicode where
  letter : Nat → Bool
  digit_ascii : ∀ c < 128, digit c = ascii.digit c
  space_ascii : ∀ c < 128, space c = ascii.space c
  digit_space : ∀ c, (digit c).isSome → space c = false
  lower_nil : lower [] = []
  lower_spaced : ∀ first second, lower (first ++ text " " ++ second) = lower first ++ text " " ++ lower second

theorem ascii_digit : ∀ c < 128, ascii.digit c = ascii.digit c := fun _ _ => rfl
theorem ascii_lower_nil : ascii.lower [] = [] := rfl

theorem digit_space_ascii (c : Nat) (isDigit : (ascii.digit c).isSome) : ascii.space c = false := by
  have digit : asciiDigit c = true := by
    simp only [ascii] at isDigit
    split at isDigit
    · assumption
    · cases isDigit
  simp only [asciiDigit,between,Bool.and_eq_true,decide_eq_true_eq,Char.reduceToNat] at digit
  simp only [ascii,Bool.or_eq_false_iff,Bool.and_eq_false_iff,beq_eq_false_iff_ne,decide_eq_false_iff_not]
  omega

/-- The tables where they concern ASCII only. -/
def asciiRules : RuleTables where
  toUnicode := ascii
  letter := asciiLetter
  digit_ascii := ascii_digit
  space_ascii := stableAscii.space_ascii
  digit_space := digit_space_ascii
  lower_nil := ascii_lower_nil
  lower_spaced := lower_spaced_ascii

variable (tables : RuleTables)
/-- The text has the word, and no letters next to it; `inWord` says that the last character before was a letter. -/
def hasWord (word : Text) (inWord : Bool) : Text → Bool
  | [] => false
  | c :: t =>
    (!inWord && (afterPrefix word (c :: t)).any fun rest => !rest.head?.any tables.letter) ||
      hasWord word (tables.letter c) t
/-- What stands between a number and its average: hyphens and white space, and perhaps the word `period`. -/
structure Between (gap : Text) : Prop where
  parts : ∃ separators period, gap = separators ++ period ∧
    (∀ c ∈ separators, c = '-'.toNat ∨ tables.space c) ∧
      (period = [] ∨ ∃ spaces, period = text "period" ++ spaces ∧ spaces ≠ [] ∧ ∀ c ∈ spaces, tables.space c)
def averageWords : List Text := [text "sma",text "ema",text "moving average"]
/-- No number and no word goes on after this. -/
def Begins (before : Text) : Prop :=
  ∀ c ∈ before.getLast?, tables.digit c = none ∧ tables.letter c = false ∧
    (c = '.'.toNat ∨ c = ','.toNat → ∀ d ∈ before.dropLast.getLast?, tables.digit d = none)
/-- A rule in lower case gives the number directly before a whole word for an average. -/
def Numbers (rule : Text) (period : Nat) : Prop :=
  ∃ before digits gap average after, rule = before ++ (digits ++ (gap ++ (average ++ after))) ∧ Begins tables before ∧
    digits ≠ [] ∧ (∀ c ∈ digits, (tables.digit c).isSome) ∧ digitsValue tables.toUnicode digits = period ∧
      Between tables gap ∧ average ∈ averageWords ∧ after.head?.any tables.letter = false
def rulesText (spec : StrategySpec) : Text := tables.lower (join (text " ") (spec.entryRules ++ spec.exitRules))
def names (spec : StrategySpec) (word : Text) : Bool := hasWord tables word false (rulesText tables spec)
def namesExponential (spec : StrategySpec) : Bool :=
  names tables spec (text "ema") || names tables spec (text "exponential")
def namesSimple (spec : StrategySpec) : Bool :=
  names tables spec (text "sma") || names tables spec (text "simple moving average")
def OnlyNumbers (spec : StrategySpec) (fast slow : Nat) : Prop :=
  ∀ rule ∈ spec.entryRules ++ spec.exitRules, ∀ period, Numbers tables (tables.lower rule) period →
    period = fast ∨ period = slow
def EntryNumbers (spec : StrategySpec) (period : Nat) : Prop :=
  ∃ rule ∈ spec.entryRules, Numbers tables (tables.lower rule) period
/-- The contract is the one that the rules state. -/
structure Stated (spec : StrategySpec) (contract : MovingAverageContract) : Prop where
  fast : EntryNumbers tables spec contract.fastPeriod
  slow : EntryNumbers tables spec contract.slowPeriod
  only : OnlyNumbers tables spec contract.fastPeriod contract.slowPeriod
  oneType : ¬(namesExponential tables spec ∧ namesSimple tables spec)
  exponential : contract.averageType = .ema ↔ namesExponential tables spec
/-- A spec that passes is generated with the contract that its rules state. -/
def FailsClosed (spec : StrategySpec) : Prop :=
  validateNautilusSpec tables.toUnicode spec = .pass → ∃ contract, movingAverageContract tables.toUnicode spec = some contract ∧
    generateNautilusStrategy tables.toUnicode spec = some (source (strategyPieces tables.toUnicode spec contract)) ∧
      Stated tables spec contract
def foundPeriods (spec : StrategySpec) : List Nat :=
  periods tables.toUnicode (rulesText tables spec).length (rulesText tables spec)
def exponentialLetters (spec : StrategySpec) : Bool :=
  contains (text "ema") (rulesText tables spec) || contains (text "exponential") (rulesText tables spec)
/-- Two numbers are found first, in entry rules, no other is given, no two types are named, and the letters of an
    exponential average are those of a word. -/
def PlainlyStated (spec : StrategySpec) : Prop :=
  ∃ fast slow rest, foundPeriods tables spec = fast :: slow :: rest ∧ EntryNumbers tables spec fast ∧
    EntryNumbers tables spec slow ∧ OnlyNumbers tables spec fast slow ∧
      ¬(namesExponential tables spec ∧ namesSimple tables spec) ∧
        (exponentialLetters tables spec → namesExponential tables spec)

variable {tables}
theorem digit_none {c : Nat} (small : c < 128) (other : asciiDigit c = false) : tables.digit c = none := by
  rw [tables.digit_ascii c small]
  simp [ascii,other]

variable {word : Text}
theorem letters_none (letters : word.all fun c => c < 128 && !asciiDigit c) {c : Nat} (listed : c ∈ word) :
    tables.digit c = none := by
  have isLetter := all_eq_true.mp letters c listed
  simp only [Bool.and_eq_true,decide_eq_true_eq,Bool.not_eq_true'] at isLetter
  exact digit_none isLetter.1 isLetter.2
theorem space_none {c : Nat} (isSpace : tables.space c) : tables.digit c = none := by
  cases isDigit : tables.digit c with
  | none => rfl
  | some value =>
    have apart := tables.digit_space c (by rw [isDigit]; rfl)
    rw [apart] at isSpace
    cases isSpace
theorem separator_none {c : Nat} (separates : c = '-'.toNat ∨ tables.space c) : tables.digit c = none := by
  rcases separates with rfl | isSpace
  · exact digit_none (by decide) (by decide)
  · exact space_none isSpace

variable {rest t : Text}
theorem afterAverage_some (named : afterAverage t = some rest) : ∃ average ∈ averageWords, t = average ++ rest := by
  rcases Option.or_eq_some_iff.mp named with simple | ⟨_,others⟩
  · exact ⟨_,by simp [averageWords],afterPrefix_some.mp simple⟩
  · rcases Option.or_eq_some_iff.mp others with exponential | ⟨_,moving⟩
    · exact ⟨_,by simp [averageWords],afterPrefix_some.mp exponential⟩
    · exact ⟨_,by simp [averageWords],afterPrefix_some.mp moving⟩

variable {average : Text}
theorem average_none (isAverage : average ∈ averageWords) {c : Nat} (listed : c ∈ average) :
    tables.digit c = none := by
  have letters : ∀ average ∈ averageWords, average.all fun c => c < 128 && !asciiDigit c := by decide
  exact letters_none (letters average isAverage) listed

theorem afterPeriodWord_some (named : afterPeriodWord tables.toUnicode t = some rest) :
    ∃ words, t = words ++ rest ∧ ∀ c ∈ words, tables.digit c = none := by
  unfold afterPeriodWord at named
  split at named
  · obtain ⟨average,isAverage,rfl⟩ := afterAverage_some named
    exact ⟨average,rfl,fun c listed => average_none isAverage listed⟩
  · rename_i others isPeriod
    split at named
    · obtain ⟨average,isAverage,same⟩ := afterAverage_some named
      have split := takeWhile_append_dropWhile (p := tables.space) (l := others)
      refine ⟨text "period" ++ (others.takeWhile tables.space ++ average),?_,?_⟩
      · rw [afterPrefix_some.mp isPeriod,append_assoc,append_assoc,← same,split]
      · intro c listed
        rcases mem_append.mp listed with inWord | later
        · exact letters_none (by decide) inWord
        · rcases mem_append.mp later with isSpace | inAverage
          · exact space_none (mem_takeWhile_imp isSpace)
          · exact average_none isAverage inAverage
    · cases named

variable {period : Nat}

theorem periodAt_some (found : periodAt tables.toUnicode t = some (period,rest)) :
    ∃ digits words, t = digits ++ (words ++ rest) ∧ digits ≠ [] ∧ (∀ c ∈ digits, (tables.digit c).isSome) ∧
      ∀ c ∈ words, tables.digit c = none := by
  unfold periodAt at found
  dsimp only at found
  split at found
  · cases found
  · rename_i some
    obtain ⟨others,named,same⟩ := Option.map_eq_some_iff.mp found
    cases same
    obtain ⟨words,isRest,letters⟩ := afterPeriodWord_some named
    let isDigit (c : Nat) : Bool := (tables.digit c).isSome
    let separates (c : Nat) : Bool := c == '-'.toNat || tables.space c
    have outer : t.takeWhile isDigit ++ t.dropWhile isDigit = t := takeWhile_append_dropWhile
    have inner : (t.dropWhile isDigit).takeWhile separates ++ (t.dropWhile isDigit).dropWhile separates = t.dropWhile isDigit :=
      takeWhile_append_dropWhile
    refine ⟨t.takeWhile isDigit,(t.dropWhile isDigit).takeWhile separates ++ words,?_,?_,?_,?_⟩
    · rw [append_assoc,← isRest,inner,outer]
    · exact fun none => some (List.isEmpty_iff.mpr none)
    · intro c listed
      exact @List.mem_takeWhile_imp _ isDigit _ _ listed
    · intro c listed
      rcases mem_append.mp listed with isSeparator | inWords
      · apply separator_none
        simpa [separates] using mem_takeWhile_imp isSeparator
      · exact letters c inWords

theorem takeWhile_stops {p : Nat → Bool} {first : Text} (all : ∀ c ∈ first, p c) (stops : ∀ c ∈ rest.head?, p c = false) :
    (first ++ rest).takeWhile p = first ∧ (first ++ rest).dropWhile p = rest := by
  rw [takeWhile_append_of_pos all,dropWhile_append_of_pos all,dropWhile_head stops]
  cases rest with
  | nil => simp
  | cons c rest => simp [stops c rfl]

/-- An average begins with a letter that is neither a separator nor the first of `period`. -/
theorem average_head {average : Text} (isAverage : average ∈ averageWords) (after : Text) :
    (∃ c, (average ++ after).head? = some c ∧ tables.digit c = none ∧ tables.space c = false ∧ c ≠ '-'.toNat) ∧
      afterPrefix (text "period") (average ++ after) = none ∧ afterAverage (average ++ after) = some after := by
  have letter : ∀ c < 128, asciiDigit c = false → ascii.space c = false → tables.digit c = none ∧ tables.space c = false := by
    intro c small notDigit notSpace
    exact ⟨digit_none small notDigit,by rw [tables.space_ascii c small,notSpace]⟩
  simp only [averageWords,mem_cons,not_mem_nil,or_false] at isAverage
  rcases isAverage with rfl | rfl | rfl
  · have first := letter 's'.toNat (by decide) (by decide) (by decide)
    exact ⟨⟨'s'.toNat,rfl,first.1,first.2,by decide⟩,rfl,rfl⟩
  · have first := letter 'e'.toNat (by decide) (by decide) (by decide)
    exact ⟨⟨'e'.toNat,rfl,first.1,first.2,by decide⟩,rfl,rfl⟩
  · have first := letter 'm'.toNat (by decide) (by decide) (by decide)
    exact ⟨⟨'m'.toNat,rfl,first.1,first.2,by decide⟩,rfl,rfl⟩

theorem periodAt_numbered {digits gap : Text} (some : digits ≠ []) (all : ∀ c ∈ digits, (tables.digit c).isSome)
    (between : Between tables gap) (isAverage : average ∈ averageWords) (after : Text) :
    periodAt tables.toUnicode (digits ++ (gap ++ (average ++ after))) = .some (digitsValue tables.toUnicode digits,after) := by
  obtain ⟨separators,period,rfl,areSeparators,isPeriod⟩ := between.parts
  obtain ⟨⟨first,isFirst,notDigit,notSpace,notHyphen⟩,noPeriod,named⟩ := @average_head tables average isAverage after
  have word : (∀ c ∈ (period ++ (average ++ after)).head?, tables.digit c = none ∧ c ≠ '-'.toNat ∧ tables.space c = false) ∧
      afterPeriodWord tables.toUnicode (period ++ (average ++ after)) = .some after := by
    rcases isPeriod with rfl | ⟨spaces,rfl,someSpace,areSpaces⟩
    · rw [nil_append,isFirst,afterPeriodWord,noPeriod]
      refine ⟨?_,named⟩
      rintro c ⟨⟩
      exact ⟨notDigit,notHyphen,notSpace⟩
    · constructor
      · rintro c ⟨⟩
        refine ⟨digit_none (by decide) (by decide),by decide,?_⟩
        rw [tables.space_ascii _ (by decide)]
        decide
      · obtain ⟨space,others,rfl⟩ := exists_cons_of_ne_nil someSpace
        have dropped := (takeWhile_stops areSpaces (fun c isHead => by
          rw [isFirst] at isHead
          cases isHead
          exact notSpace) : ((space :: others) ++ (average ++ after)).takeWhile tables.space = _ ∧ _).2
        rw [afterPeriodWord,append_assoc,afterPrefix_append]
        dsimp only
        rw [dropped,cons_append,head?_cons,Option.any_some,areSpaces space mem_cons_self,if_pos rfl]
        exact named
  obtain ⟨stops,matched⟩ := word
  have digitsEnd : ∀ c ∈ (separators ++ (period ++ (average ++ after))).head?, (tables.digit c).isSome = false := by
    intro c isHead
    cases separators with
    | nil => rw [(stops c isHead).1]; rfl
    | cons separator others =>
      cases isHead
      rw [separator_none (areSeparators _ mem_cons_self)]
      rfl
  have split := takeWhile_stops all digitsEnd
  have separated : ((separators ++ (period ++ (average ++ after))).dropWhile fun c => c == '-'.toNat || tables.space c) =
      period ++ (average ++ after) := by
    refine (takeWhile_stops ?_ ?_).2
    · intro c listed
      simpa using areSeparators c listed
    · intro c isHead
      simpa using (stops c isHead).2
  have someDigits : digits.isEmpty = false := by simpa using some
  rw [append_assoc,periodAt,split.1,split.2,separated,matched,someDigits]
  rfl

variable {before : Text}

theorem digits_before {front between others : Text} {digit : Nat} (isDigit : (tables.digit digit).isSome)
    (some : before ≠ []) (apart : ∀ c ∈ before.getLast?, tables.digit c = none) (areDigits : ∀ c ∈ front, (tables.digit c).isSome)
    (noDigits : ∀ c ∈ between, tables.digit c = none) (same : before ++ digit :: others = (front ++ between) ++ rest) :
    ∃ middle, before = (front ++ between) ++ middle ∧ rest = middle ++ digit :: others := by
  rcases append_eq_append_iff.mp same with ⟨overrun,isFront,isRest⟩ | after
  · cases overrun with
    | nil => exact ⟨[],by rw [isFront,append_nil,append_nil],isRest.symm⟩
    | cons next overrun =>
      rw [cons_append,List.cons.injEq] at isRest
      obtain ⟨rfl,_⟩ := isRest
      have inFront : digit ∉ between := by
        intro listed
        rw [noDigits digit listed] at isDigit
        cases isDigit
      rcases append_eq_append_iff.mp isFront with ⟨tail,_,isBetween⟩ | ⟨tail,isFrontWhole,isTail⟩
      · exact absurd (isBetween ▸ mem_append_right _ mem_cons_self) inFront
      · obtain ⟨last,isLast⟩ := Option.isSome_iff_exists.mp (getLast?_isSome.mpr some)
        have inDigits := areDigits last (isFrontWhole ▸ mem_append_left _ (mem_of_getLast? isLast))
        rw [apart last isLast] at inDigits
        cases inDigits
  · exact after

theorem mem_periods {after : Text} (found : periodAt tables.toUnicode rest = some (period,after))
    (apart : ∀ c ∈ before.getLast?, tables.digit c = none) {fuel : Nat} (enough : (before ++ rest).length ≤ fuel) :
    period ∈ periods tables.toUnicode fuel (before ++ rest) := by
  obtain ⟨digits,words,rfl,someDigits,areDigits,_⟩ := periodAt_some found
  obtain ⟨digit,others,rfl⟩ := exists_cons_of_ne_nil someDigits
  induction fuel generalizing before with
  | zero => simp at enough
  | succ fuel ih =>
    cases before with
    | nil =>
      rw [nil_append,cons_append,periods,← cons_append,found]
      exact mem_cons_self
    | cons c before =>
      have later : ∀ c ∈ before.getLast?, tables.digit c = none := by
        intro d isLast
        cases before with
        | nil => cases isLast
        | cons next before => exact apart d isLast
      rw [cons_append,periods]
      cases here : periodAt tables.toUnicode (c :: (before ++ ((digit :: others) ++ (words ++ after)))) with
      | none =>
        rw [cons_append,length_cons] at enough
        exact ih later (by omega)
      | some earlier =>
        refine mem_cons_of_mem _ ?_
        -- The earlier match ends before this one: it has digits only at its beginning.
        obtain ⟨front,between,same,someFront,areFront,noDigits⟩ := periodAt_some here
        obtain ⟨middle,isMiddle,isRest⟩ := digits_before (areDigits digit mem_cons_self) (cons_ne_nil c before) apart
          areFront noDigits (same.trans (append_assoc ..).symm)
        rw [isRest]
        refine ih ?_ ?_
        · intro d isLast
          apply apart d
          rw [isMiddle,getLast?_append,isLast]
          rfl
        · have lengths := congrArg List.length isMiddle
          simp only [length_append,length_cons] at lengths enough ⊢
          have length := length_pos_of_ne_nil someFront
          omega

theorem lower_join (rules : List Text) :
    tables.lower (join (text " ") rules) = join (text " ") (rules.map tables.lower) :=
  map_join tables.lower_nil tables.lower_spaced rules

variable {rule : Text}

theorem join_rule {rules : List Text} (listed : rule ∈ rules) :
    ∃ before after, join (text " ") rules = before ++ (rule ++ after) ∧ ∀ c ∈ before.getLast?, c = ' '.toNat := by
  induction rules with
  | nil => cases listed
  | cons first rest ih =>
    cases rest with
    | nil =>
      rw [mem_singleton.mp listed,join]
      exact ⟨[],[],by simp,by simp⟩
    | cons next rest =>
      rw [join_cons]
      rcases mem_cons.mp listed with rfl | later
      · exact ⟨[],text " " ++ join (text " ") (next :: rest),by simp,by simp⟩
      · obtain ⟨before,after,same,ends⟩ := ih later
        refine ⟨first ++ text " " ++ before,after,by rw [same]; simp,?_⟩
        intro c isLast
        cases before with
        | nil =>
          rw [append_nil,getLast?_append] at isLast
          cases isLast
          rfl
        | cons d before =>
          apply ends c
          rw [getLast?_append] at isLast
          cases last : (d :: before).getLast? with
          | none => cases getLast?_eq_none_iff.mp last
          | some value =>
            rw [last] at isLast
            exact isLast

variable {spec : StrategySpec}

theorem numbers_found (listed : rule ∈ spec.entryRules ++ spec.exitRules)
    (numbers : Numbers tables (tables.lower rule) period) : period ∈ foundPeriods tables spec := by
  obtain ⟨before,digits,gap,average,after,same,begins,someDigits,areDigits,rfl,between,isAverage,_⟩ := numbers
  obtain ⟨front,back,joined,spaceBefore⟩ := join_rule (mem_map_of_mem (f := tables.lower) listed)
  have split : rulesText tables spec = (front ++ before) ++ (digits ++ (gap ++ (average ++ (after ++ back)))) := by
    rw [rulesText,lower_join,joined,same]
    simp only [append_assoc]
  rw [foundPeriods,split]
  refine mem_periods (periodAt_numbered someDigits areDigits between isAverage (after ++ back)) ?_ (le_refl _)
  intro c isLast
  rw [getLast?_append] at isLast
  cases last : before.getLast? with
  | some d =>
    rw [last] at isLast
    cases isLast
    exact (begins c last).1
  | none =>
    rw [last] at isLast
    rw [spaceBefore c isLast]
    exact digit_none (by decide) (by decide)

theorem only_of_found {fast slow : Nat}
    (two : ∀ period ∈ foundPeriods tables spec, period = fast ∨ period = slow) : OnlyNumbers tables spec fast slow :=
  fun _ listed period numbers => two period (numbers_found listed numbers)

theorem hasWord_contains {inWord : Bool} (has : hasWord tables word inWord t) : contains word t := by
  induction t generalizing inWord with
  | nil => cases has
  | cons c t ih =>
    rw [hasWord,Bool.or_eq_true] at has
    rw [contains,Bool.or_eq_true]
    rcases has with here | later
    · rw [Bool.and_eq_true] at here
      cases found : afterPrefix word (c :: t) with
      | none =>
        rw [found] at here
        cases here.2
      | some rest => exact .inl rfl
    · exact .inr (ih later)

theorem names_letters (named : namesExponential tables spec) : exponentialLetters tables spec := by
  rw [namesExponential,Bool.or_eq_true] at named
  rw [exponentialLetters,Bool.or_eq_true]
  exact named.imp hasWord_contains hasWord_contains

theorem contract_found {contract : MovingAverageContract}
    (isContract : movingAverageContract tables.toUnicode spec = some contract) :
    (contract.averageType = .ema ↔ exponentialLetters tables spec) ∧
      ((∃ rest, foundPeriods tables spec = contract.fastPeriod :: contract.slowPeriod :: rest) ∨
        (foundPeriods tables spec).length < 2 ∧ contract.fastPeriod = 9 ∧ contract.slowPeriod = 21) := by
  have letters : (if contains (text "ema") (rulesText tables spec) || contains (text "exponential") (rulesText tables spec)
      then AverageType.ema else .sma) = .ema ↔ exponentialLetters tables spec = true := by
    rw [exponentialLetters]
    cases contains (text "ema") (rulesText tables spec) || contains (text "exponential") (rulesText tables spec) with
    | true => exact iff_of_true rfl rfl
    | false => exact iff_of_false (fun same => nomatch same) Bool.false_ne_true
  have built : ∀ fast slow, (if fast = 0 || slow = 0 || slow ≤ fast then none
      else if !contains (text "cross") (rulesText tables spec) then none
      else some ⟨if contains (text "ema") (rulesText tables spec) || contains (text "exponential") (rulesText tables spec)
        then AverageType.ema else .sma,fast,slow⟩) = some contract →
      (contract.averageType = .ema ↔ exponentialLetters tables spec = true) ∧ contract.fastPeriod = fast ∧
        contract.slowPeriod = slow := by
    intro fast slow same
    split at same
    · cases same
    · split at same
      · cases same
      · cases same
        exact ⟨letters,rfl,rfl⟩
  rw [movingAverageContract] at isContract
  rcases found : foundPeriods tables spec with _ | ⟨first,_ | ⟨second,rest⟩⟩
  · rw [foundPeriods,rulesText] at found
    rw [found] at isContract
    exact ⟨(built 9 21 isContract).1,.inr ⟨by simp,(built 9 21 isContract).2⟩⟩
  · rw [foundPeriods,rulesText] at found
    rw [found] at isContract
    exact ⟨(built 9 21 isContract).1,.inr ⟨by simp,(built 9 21 isContract).2⟩⟩
  · rw [foundPeriods,rulesText] at found
    rw [found] at isContract
    obtain ⟨isType,isFast,isSlow⟩ := built first second isContract
    exact ⟨isType,.inl ⟨rest,by rw [isFast,isSlow]⟩⟩

/-- A spec is rejected or generated as it states exactly if, where it passes, it plainly states its averages. -/
theorem fails_closed_iff (tables : RuleTables) (spec : StrategySpec) : FailsClosed tables spec ↔
    (validateNautilusSpec tables.toUnicode spec = .pass → PlainlyStated tables spec) := by
  constructor
  · intro closed passes
    obtain ⟨contract,isContract,_,stated⟩ := closed passes
    obtain ⟨isType,periods⟩ := contract_found isContract
    rcases periods with ⟨rest,found⟩ | ⟨few,isFast,isSlow⟩
    · exact ⟨_,_,rest,found,stated.fast,stated.slow,stated.only,stated.oneType,
        fun letters => stated.exponential.mp (isType.mpr letters)⟩
    · obtain ⟨rule,listed,fast⟩ := stated.fast
      obtain ⟨other,otherListed,slow⟩ := stated.slow
      have foundFast := numbers_found (mem_append_left _ listed) fast
      have foundSlow := numbers_found (mem_append_left _ otherListed) slow
      rw [isFast] at foundFast
      rw [isSlow] at foundSlow
      -- Both defaults are given, so two numbers are found.
      rcases found : foundPeriods tables spec with _ | ⟨first,_ | ⟨second,rest⟩⟩
      · rw [found] at foundFast
        cases foundFast
      · rw [found] at foundFast foundSlow
        have nine := mem_singleton.mp foundFast
        have twentyOne := mem_singleton.mp foundSlow
        omega
      · rw [found] at few
        rw [length_cons,length_cons] at few
        omega
  · intro plainly passes
    obtain ⟨fast,slow,rest,found,entryFast,entrySlow,only,oneType,words⟩ := plainly passes
    obtain ⟨contract,isContract⟩ := Option.isSome_iff_exists.mp (passes_contract passes)
    obtain ⟨isType,periods⟩ := contract_found isContract
    have isPeriods : contract.fastPeriod = fast ∧ contract.slowPeriod = slow := by
      rcases periods with ⟨others,same⟩ | ⟨few,_⟩
      · rw [found] at same
        simp only [List.cons.injEq] at same
        exact ⟨same.1.symm,same.2.1.symm⟩
      · rw [found] at few
        rw [length_cons,length_cons] at few
        omega
    refine ⟨contract,isContract,?_,?_⟩
    · rw [generateNautilusStrategy,isContract]
      rfl
    · rw [← isPeriods.1] at entryFast only
      rw [← isPeriods.2] at entrySlow only
      exact ⟨entryFast,entrySlow,only,oneType,isType.trans ⟨words,names_letters⟩⟩

/-- Rules that number both averages in words of their own. -/
example : PlainlyStated asciiRules (sampleSpec "BTC/USDT") := by
  refine ⟨9,21,[9,21],by decide +kernel,⟨_,List.mem_cons_self,?_⟩,⟨_,List.mem_cons_self,?_⟩,only_of_found ?_,by decide +kernel,
    by decide +kernel⟩
  · refine ⟨[],text "9",text " ",text "ema",text " crosses above 21 ema",by decide +kernel,by simp [Begins],by decide,by decide,rfl,
      ⟨text " ",[],rfl,by decide,.inl rfl⟩,by decide,by decide⟩
  · refine ⟨text "9 ema crosses above ",text "21",text " ",text "ema",[],by decide +kernel,?_,by decide,by decide,rfl,
      ⟨text " ",[],rfl,by decide,.inl rfl⟩,by decide,by decide⟩
    rintro c ⟨⟩
    decide
  · decide +kernel

/-- A strategy of the price and one average. -/
def singleSpec : StrategySpec :=
  { sampleSpec "BTC/USDT" with
    entryRules := [text "Enter long when price crosses above the 50-period SMA"]
    exitRules := [text "Exit when price closes below it"] }

theorem single_average_traded : ¬FailsClosed asciiRules singleSpec := by
  intro closed
  obtain ⟨contract,isContract,_,stated⟩ := closed (by decide +kernel)
  have defaults : movingAverageContract ascii singleSpec = some ⟨.sma,9,21⟩ := by decide +kernel
  cases defaults.symm.trans isContract
  obtain ⟨rule,listed,numbers⟩ := stated.fast
  have found := numbers_found (mem_append_left _ listed) numbers
  have only : foundPeriods asciiRules singleSpec = [50] := by decide +kernel
  rw [only] at found
  revert found
  decide
end Codebot.StatedAverages
