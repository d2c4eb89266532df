import Mathlib.Data.Int.CardIntervalMod
import Codebot.CandleCache

/-!
The check of a feed of candles and its report. The expected bars are counted by the length of the range, the missing
ones by the gaps between the candles and to its ends (`feed_counts_iff`).
-/
namespace Codebot.FeedQuality
open Texts Timeframes CandleFetches List

inductive FeedError
  | invalidRange
  | noCandles
  | duplicate (timestamp : Int)
  | notAscending
  | notAligned (timestamp : Int)
  | malformed (timestamp : Int)
deriving DecidableEq

def FeedError.message (context timeframe : Text) : FeedError → Text
  | .invalidRange => text "Invalid OHLCV validation range for " ++ context
  | .noCandles => text "Invalid OHLCV feed: no candles available for " ++ context
  | .duplicate timestamp =>
    text "Invalid OHLCV feed: duplicate timestamp " ++ text (toString timestamp) ++ text " in " ++ context
  | .notAscending => text "Invalid OHLCV feed: timestamps must be strictly ascending in " ++ context
  | .notAligned timestamp =>
    text "Invalid OHLCV feed: timestamp " ++ text (toString timestamp) ++ text " is not aligned to " ++ timeframe
  | .malformed timestamp => text "Invalid OHLCV feed: malformed OHLC at timestamp " ++ text (toString timestamp)

/-- An instant of a report stands for its text. -/
structure OhlcvGapRange where
  start : Int
  endAt : Int
  missingBars : Int
deriving DecidableEq

/-- The report but for the checksum of the candles and the time of the check. -/
structure OhlcvQualityReport where
  warn : Bool
  timeframe : Text
  expectedStepMs : Nat
  expectedBars : Int
  actualBars : Nat
  missingBars : Int
  duplicateCount : Nat
  gapCount : Nat
  missingBarRatio : ℚ
  gapRanges : List OhlcvGapRange
  firstTimestamp : Option Int
  lastTimestamp : Option Int
  warnings : List Text
deriving DecidableEq

/-- `Math.ceil` of a duration in steps. -/
def bars (stepMs : Nat) (duration : Int) : Int := ⌈(duration : ℚ) / stepMs⌉
/-- `toFixed(8)`, as a number. -/
def toFixed8 (value : ℚ) : ℚ := (⌊value * 100000000 + 1 / 2⌋ : ℤ) / 100000000
def gapRange (startMs endMs : Int) (stepMs : Nat) : OhlcvGapRange := ⟨startMs,endMs,max 0 (bars stepMs (endMs - startMs))⟩
/-- The gap between a candle and the one before it. -/
def gapBefore (stepMs : Nat) (previous : Option Int) (timestamp : Int) : List OhlcvGapRange :=
  match previous with
  | none => []
  | some before => if before + stepMs < timestamp then [gapRange (before + stepMs) timestamp stepMs] else []

variable {Price : Type}

section
variable [LinearOrder Price]

/-- The gaps between the candles from one on. A remainder by a step of 0 is no number. -/
def scan (stepMs : Nat) : List Int → Option Int → List (Candle Price) → Except FeedError (List OhlcvGapRange)
  | _, _, [] => .ok []
  | seen, previous, candle :: candles =>
    if candle.timestamp ∈ seen then .error (.duplicate candle.timestamp)
    else if previous.any (candle.timestamp ≤ ·) then .error .notAscending
    else if stepMs = 0 ∨ candle.timestamp % stepMs ≠ 0 then .error (.notAligned candle.timestamp)
    else if candle.high < max candle.openPrice candle.close ∨ min candle.openPrice candle.close < candle.low then
      .error (.malformed candle.timestamp)
    else (scan stepMs (candle.timestamp :: seen) (some candle.timestamp) candles).map
      (gapBefore stepMs previous candle.timestamp ++ ·)

/-- The gap from the start of the range, the given gaps and the one to its end. -/
def withEnds (stepMs : Nat) (startMs endMs first last : Int) (gaps : List OhlcvGapRange) : List OhlcvGapRange :=
  (if startMs < first then [gapRange startMs first stepMs] else []) ++ gaps ++
    (if last + stepMs < endMs then [gapRange (last + stepMs) endMs stepMs] else [])
def warningText (missing : Int) (timeframe : Text) (gaps : Nat) : Text :=
  text "OHLCV feed has " ++ text (toString missing) ++ text " missing " ++ timeframe ++ text " bars across " ++
    text (toString gaps) ++ text " gap range(s)."

/-- The check of a feed with the ratio of missing bars from which it warns. -/
def validateOhlcvFeed (gapWarnRatio : ℚ) (candles : List (Candle Price)) (timeframe : Text) (startMs endMs : Int) :
    Except FeedError OhlcvQualityReport :=
  let stepMs := timeframeToMs timeframe
  if endMs ≤ startMs then .error .invalidRange
  else
    match candles with
    | [] => .error .noCandles
    | first :: rest =>
      (scan stepMs [] none (first :: rest)).map fun gaps =>
        let last := (first :: rest).getLast (List.cons_ne_nil _ _)
        let expectedBars := bars stepMs (endMs - startMs)
        let gapRanges := withEnds stepMs startMs endMs first.timestamp last.timestamp gaps
        let missingBars : Int := (gapRanges.map (·.missingBars)).sum
        let missingBarRatio : ℚ := if expectedBars ≤ 0 then 0 else toFixed8 ((missingBars : ℚ) / expectedBars)
        { warn := gapWarnRatio < missingBarRatio
          timeframe := timeframe
          expectedStepMs := stepMs
          expectedBars := expectedBars
          actualBars := (first :: rest).length
          missingBars := missingBars
          duplicateCount := 0
          gapCount := gapRanges.length
          missingBarRatio := missingBarRatio
          gapRanges := gapRanges
          firstTimestamp := some first.timestamp
          lastTimestamp := some last.timestamp
          warnings := if 0 < missingBars then [warningText missingBars timeframe gapRanges.length] else [] }

end

section
variable {stepMs : Nat}

theorem bars_add (positive : 0 < stepMs) (duration steps : Int) : bars stepMs (duration + steps * stepMs) = bars stepMs duration + steps := by
  have whole : (stepMs : ℚ) ≠ 0 := Nat.cast_ne_zero.mpr positive.ne'
  rw [bars,bars,← Int.ceil_add_intCast]
  congr 1
  push_cast
  rw [add_div,mul_div_cancel_right₀ _ whole]
theorem bars_steps (positive : 0 < stepMs) (steps : Int) : bars stepMs (steps * stepMs) = steps := by
  have none : bars stepMs 0 = 0 := by simp [bars]
  have shifted := bars_add positive 0 steps
  rwa [none,zero_add,zero_add] at shifted
theorem bars_mono (stepMs : Nat) {shorter longer : Int} (le : shorter ≤ longer) : bars stepMs shorter ≤ bars stepMs longer := by
  apply Int.ceil_le_ceil
  apply div_le_div_of_nonneg_right (Int.cast_le.mpr le) (Nat.cast_nonneg _)

theorem bars_neg (positive : 0 < stepMs) {instant : Int} (off : ¬(stepMs : Int) ∣ instant) :
    bars stepMs instant + bars stepMs (-instant) = 1 := by
  have whole : (stepMs : ℚ) ≠ 0 := Nat.cast_ne_zero.mpr positive.ne'
  have between : ((instant : ℚ) / stepMs) ∉ Set.range (Int.cast : ℤ → ℚ) := by
    rintro ⟨steps,isSteps⟩
    apply off
    refine ⟨steps,?_⟩
    rw [eq_div_iff whole] at isSteps
    have exact : steps * (stepMs : Int) = instant := by exact_mod_cast isSteps
    rw [← exact,mul_comm]
  rw [bars,bars,Int.cast_neg,neg_div,Int.ceil_neg]
  have next := (Int.ceil_eq_floor_add_one_iff_notMem _).mpr between
  omega

theorem bars_pos_iff (positive : 0 < stepMs) (duration : Int) : 0 < bars stepMs duration ↔ 0 < duration := by
  rw [bars,Int.ceil_pos,div_pos_iff_of_pos_right (Nat.cast_pos.mpr positive),Int.cast_pos]
end
def gridInstants (stepMs : Nat) (startMs endMs : Int) : Finset Int :=
  (@Finset.Ico Int Int.instLinearOrder.toPartialOrder.toPreorder _ startMs endMs).filter ((stepMs : Int) ∣ ·)
/-- The actual and the missing bars are the expected ones, these are the steps of the range, and none is missing exactly
    if each has a candle. -/
structure CountsExactly (report : OhlcvQualityReport) (candles : List (Candle Price)) (stepMs : Nat) (startMs endMs : Int) : Prop where
  total : report.actualBars + report.missingBars = report.expectedBars
  expected : report.expectedBars = (gridInstants stepMs startMs endMs).card
  missing : report.missingBars = 0 ↔ ∀ instant ∈ gridInstants stepMs startMs endMs, ∃ candle ∈ candles, candle.timestamp = instant

variable {endMs startMs : Int}
theorem card_gridInstants {stepMs : Nat} (positive : 0 < stepMs) (range : startMs < endMs) :
    ((gridInstants stepMs startMs endMs).card : Int) = bars stepMs endMs - bars stepMs startMs := by
  have counted := Int.Ico_filter_dvd_card startMs endMs (Int.natCast_pos.mpr positive)
  rw [gridInstants,counted]
  apply max_eq_left
  exact sub_nonneg.mpr (bars_mono stepMs range.le)

theorem none_missing_iff {stepMs : Nat} {candles : List (Candle Price)}
    (chain : (candles.map (·.timestamp)).IsChain (· < ·)) (onSteps : ∀ candle ∈ candles, (stepMs : Int) ∣ candle.timestamp)
    (inside : ∀ candle ∈ candles, startMs ≤ candle.timestamp ∧ candle.timestamp < endMs) {missing : Int}
    (counted : candles.length + missing = (gridInstants stepMs startMs endMs).card) :
    missing = 0 ↔ ∀ instant ∈ gridInstants stepMs startMs endMs, ∃ candle ∈ candles, candle.timestamp = instant := by
  have distinct : (candles.map (·.timestamp)).Nodup := (isChain_iff_pairwise.mp chain).imp ne_of_lt
  have card : (candles.map (·.timestamp)).toFinset.card = candles.length := by
    rw [toFinset_card_of_nodup distinct,length_map]
  have among : (candles.map (·.timestamp)).toFinset ⊆ gridInstants stepMs startMs endMs := by
    intro instant listed
    obtain ⟨candle,isCandle,rfl⟩ := mem_map.mp (mem_toFinset.mp listed)
    exact Finset.mem_filter.mpr ⟨Finset.mem_Ico.mpr (inside candle isCandle),onSteps candle isCandle⟩
  constructor
  · intro none instant isInstant
    have whole := Finset.eq_of_subset_of_card_le among (by omega)
    rw [← whole] at isInstant
    exact mem_map.mp (mem_toFinset.mp isInstant)
  · intro every
    have below := Finset.card_le_card among
    have above : (gridInstants stepMs startMs endMs).card ≤ (candles.map (·.timestamp)).toFinset.card := by
      apply Finset.card_le_card
      intro instant isInstant
      exact mem_toFinset.mpr (mem_map.mpr (every instant isInstant))
    omega

theorem between_ends {candle first : Candle Price} {rest : List (Candle Price)} (listed : candle ∈ first :: rest)
    (chain : ((first :: rest).map (·.timestamp)).IsChain (· < ·)) : first.timestamp ≤ candle.timestamp ∧
      candle.timestamp ≤ ((first :: rest).getLast (List.cons_ne_nil _ _)).timestamp := by
  have ascends : (first :: rest).Pairwise fun a b => a.timestamp < b.timestamp :=
    pairwise_map.mp (isChain_iff_pairwise.mp chain)
  constructor
  · rcases mem_cons.mp listed with rfl | later
    · exact le_refl _
    · exact ((pairwise_cons.mp ascends).1 candle later).le
  · rw [← dropLast_append_getLast (cons_ne_nil first rest)] at ascends listed
    rcases mem_append.mp listed with before | isLast
    · exact ((pairwise_append.mp ascends).2.2 candle before _ (mem_singleton_self _)).le
    · rw [mem_singleton.mp isLast]

def missing (gaps : List OhlcvGapRange) : Int := (gaps.map (·.missingBars)).sum
theorem missing_append (gaps later : List OhlcvGapRange) : missing (gaps ++ later) = missing gaps + missing later := by
  rw [missing,map_append,sum_append]
  rfl
theorem missing_gap {stepMs : Nat} (positive : 0 < stepMs) (start steps : Int) (nonneg : 0 ≤ steps) :
    (gapRange start (start + steps * stepMs) stepMs).missingBars = steps := by
  rw [gapRange,add_sub_cancel_left,bars_steps positive]
  exact max_eq_right nonneg

theorem missing_before {stepMs : Nat} {before timestamp : Int} (later : before < timestamp)
    (aligned : (stepMs : Int) ∣ before) (alsoAligned : (stepMs : Int) ∣ timestamp) :
    missing (gapBefore stepMs (some before) timestamp) * stepMs = timestamp - before - stepMs := by
  obtain ⟨steps,isSteps⟩ := Int.dvd_sub alsoAligned aligned
  have positive : 0 < stepMs := by
    rcases Nat.eq_zero_or_pos stepMs with rfl | positive
    · simp at isSteps
      omega
    · exact positive
  have step : (0 : Int) < stepMs := Int.natCast_pos.mpr positive
  have some : 0 < steps := by
    by_contra none
    have notLater := mul_nonpos_of_nonneg_of_nonpos step.le (not_lt.mp none)
    omega
  rw [gapBefore]
  split
  · have isTimestamp : timestamp = before + stepMs + (steps - 1) * stepMs := by linarith [isSteps, mul_comm (stepMs : Int) steps]
    have counted := missing_gap positive (before + stepMs) (steps - 1) (by omega)
    rw [← isTimestamp] at counted
    simp only [missing,map_singleton,sum_singleton,counted]
    linarith [mul_comm (stepMs : Int) steps]
  · rename_i next
    have least := mul_le_mul_of_nonneg_left (show 1 ≤ steps from some) step.le
    simp only [missing,map_nil,sum_nil]
    omega

theorem missing_upTo {stepMs : Nat} (positive : 0 < stepMs) (startMs endMs : Int) :
    missing (if startMs < endMs then [gapRange startMs endMs stepMs] else []) = max 0 (bars stepMs (endMs - startMs)) := by
  have some := bars_pos_iff positive (endMs - startMs)
  split
  · simp [missing,gapRange]
  · rw [missing,map_nil,sum_nil]
    omega

theorem missing_withEnds {stepMs : Nat} (positive : 0 < stepMs) (startMs endMs first last : Int) (gaps : List OhlcvGapRange) :
    missing (withEnds stepMs startMs endMs (first * stepMs) (last * stepMs) gaps) =
      max 0 (bars stepMs (-startMs) + first) + missing gaps + max 0 (bars stepMs endMs - (last + 1)) := by
  have opening : first * stepMs - startMs = -startMs + first * stepMs := by ring
  have closing : endMs - (last * stepMs + stepMs) = endMs + -(last + 1) * stepMs := by ring
  rw [withEnds,missing_append,missing_append,missing_upTo positive,missing_upTo positive,opening,closing,
    bars_add positive,bars_add positive]
  rfl

section
variable [LinearOrder Price]
variable {candles : List (Candle Price)} {gaps : List OhlcvGapRange}

theorem scan_cons {stepMs : Nat} {seen : List Int} {previous : Option Int} {candle : Candle Price}
    (scanned : scan stepMs seen previous (candle :: candles) = .ok gaps) :
    (∀ before ∈ previous, before < candle.timestamp) ∧ 0 < stepMs ∧ (stepMs : Int) ∣ candle.timestamp ∧
      ∃ later, scan stepMs (candle.timestamp :: seen) (some candle.timestamp) candles = .ok later ∧
        gaps = gapBefore stepMs previous candle.timestamp ++ later := by
  rw [scan] at scanned
  split at scanned
  · cases scanned
  split at scanned
  · cases scanned
  rename_i ascends
  split at scanned
  · cases scanned
  rename_i aligned
  split at scanned
  · cases scanned
  obtain ⟨someStep,onStep⟩ := not_or.mp aligned
  refine ⟨?_,Nat.pos_of_ne_zero someStep,Int.dvd_of_emod_eq_zero (not_not.mp onStep),?_⟩
  · rintro before isBefore
    rw [Option.mem_def] at isBefore
    subst isBefore
    simpa using ascends
  · cases later : scan stepMs (candle.timestamp :: seen) (some candle.timestamp) candles with
    | error failure =>
      rw [later] at scanned
      cases scanned
    | ok gaps =>
      rw [later] at scanned
      cases scanned
      exact ⟨gaps,rfl,rfl⟩

theorem scan_from {stepMs : Nat} {seen : List Int} {before : Int} (scanned : scan stepMs seen (some before) candles = .ok gaps)
    (aligned : (stepMs : Int) ∣ before) :
    (before :: candles.map (·.timestamp)).IsChain (· < ·) ∧ (∀ candle ∈ candles, (stepMs : Int) ∣ candle.timestamp) ∧
      missing gaps * stepMs = ((before :: candles.map (·.timestamp)).getLast (List.cons_ne_nil _ _)) - before -
        candles.length * stepMs := by
  induction candles generalizing seen before gaps with
  | nil =>
    cases scanned
    simp [missing]
  | cons candle candles ih =>
    obtain ⟨ascends,_,onStep,later,isLater,rfl⟩ := scan_cons scanned
    obtain ⟨chain,onSteps,filled⟩ := ih isLater onStep
    have gap := missing_before (ascends before rfl) aligned onStep
    refine ⟨List.IsChain.cons_cons (ascends before rfl) chain,forall_mem_cons.mpr ⟨onStep,onSteps⟩,?_⟩
    rw [missing_append,add_mul,gap,filled,map_cons,getLast_cons_cons,length_cons]
    push_cast
    ring

theorem scan_whole {stepMs : Nat} {first : Candle Price} {rest : List (Candle Price)}
    (scanned : scan stepMs [] none (first :: rest) = .ok gaps) :
    0 < stepMs ∧ ((first :: rest).map (·.timestamp)).IsChain (· < ·) ∧
      (∀ candle ∈ first :: rest, (stepMs : Int) ∣ candle.timestamp) ∧
      missing gaps * stepMs = (((first :: rest).getLast (List.cons_ne_nil _ _)).timestamp + stepMs) - first.timestamp -
        (first :: rest).length * stepMs := by
  obtain ⟨_,positive,onStep,later,isLater,rfl⟩ := scan_cons scanned
  obtain ⟨chain,onSteps,filled⟩ := scan_from isLater onStep
  have last : ((first :: rest).getLast (cons_ne_nil _ _)).timestamp =
      (first.timestamp :: rest.map (·.timestamp)).getLast (cons_ne_nil _ _) :=
    (getLast_map (f := fun candle : Candle Price => candle.timestamp) (l := first :: rest) (by simp)).symm
  refine ⟨positive,chain,forall_mem_cons.mpr ⟨onStep,onSteps⟩,?_⟩
  rw [length_cons,last,filled]
  push_cast
  ring

variable {timeframe : Text}

theorem accepted_counts {gapWarnRatio : ℚ} {startMs endMs : Int}
    {report : OhlcvQualityReport} (accepted : validateOhlcvFeed gapWarnRatio candles timeframe startMs endMs = .ok report) :
    startMs < endMs ∧ ∃ first rest gaps, candles = first :: rest ∧
      scan (timeframeToMs timeframe) [] none (first :: rest) = .ok gaps ∧
      report.actualBars = (first :: rest).length ∧
      report.expectedBars = bars (timeframeToMs timeframe) (endMs - startMs) ∧
      report.missingBars = missing (withEnds (timeframeToMs timeframe) startMs endMs first.timestamp
        ((first :: rest).getLast (List.cons_ne_nil _ _)).timestamp gaps) := by
  unfold validateOhlcvFeed at accepted
  dsimp only at accepted
  split at accepted
  · cases accepted
  rename_i range
  refine ⟨not_le.mp range,?_⟩
  cases candles with
  | nil => cases accepted
  | cons first rest =>
    dsimp only at accepted
    cases scanned : scan (timeframeToMs timeframe) [] none (first :: rest) with
    | error failure =>
      rw [scanned] at accepted
      cases accepted
    | ok gaps =>
      rw [scanned] at accepted
      cases accepted
      exact ⟨first,rest,gaps,rfl,scanned,rfl,rfl,rfl⟩

theorem scan_iff {stepMs : Nat} (positive : 0 < stepMs) {seen : List Int} {previous : Option Int} {candles : List (Candle Price)}
    (passed : ∀ timestamp ∈ seen, ∃ before ∈ previous, timestamp ≤ before) :
    (∃ gaps, scan stepMs seen previous candles = .ok gaps) ↔ (∀ before ∈ previous, ∀ candle ∈ candles, before < candle.timestamp) ∧
      CandleCache.validFeed stepMs candles = true := by
  induction candles generalizing seen previous with
  | nil => simp [scan,CandleCache.validFeed]
  | cons candle candles ih =>
    have later := @ih (candle.timestamp :: seen) (some candle.timestamp)
    have valid : CandleCache.validCandle stepMs candle = true ↔ candle.timestamp % stepMs = 0 ∧
        ¬(candle.high < max candle.openPrice candle.close ∨ min candle.openPrice candle.close < candle.low) := by
      rw [CandleCache.validCandle,Bool.and_eq_true,Bool.and_eq_true,decide_eq_true_eq,decide_eq_true_eq,decide_eq_true_eq,
        not_or,not_lt,not_lt,and_assoc]
    have feed : CandleCache.validFeed stepMs (candle :: candles) = true ↔ CandleCache.validCandle stepMs candle = true ∧
        (∀ other ∈ candles, candle.timestamp < other.timestamp) ∧ CandleCache.validFeed stepMs candles = true := by
      simp only [CandleCache.validFeed,pairwise_cons,all_cons,Bool.and_eq_true,decide_eq_true_eq]
      tauto
    have next : (∀ before ∈ previous, before < candle.timestamp) →
        ∀ timestamp ∈ candle.timestamp :: seen, ∃ before ∈ some candle.timestamp, timestamp ≤ before := by
      intro ascends timestamp listed
      refine ⟨candle.timestamp,rfl,?_⟩
      rcases mem_cons.mp listed with rfl | old
      · exact le_refl _
      · obtain ⟨before,isBefore,upTo⟩ := passed timestamp old
        exact upTo.trans (ascends before isBefore).le
    rw [feed,valid]
    constructor
    · rintro ⟨gaps,scanned⟩
      obtain ⟨ascends,_,onStep,rest,isRest,_⟩ := scan_cons scanned
      obtain ⟨after,isFeed⟩ := (later (next ascends)).mp ⟨rest,isRest⟩
      have formed : ¬(candle.high < max candle.openPrice candle.close ∨ min candle.openPrice candle.close < candle.low) := by
        intro malformed
        rw [scan] at scanned
        split_ifs at scanned
      refine ⟨?_,⟨Int.emod_eq_zero_of_dvd onStep,formed⟩,after candle.timestamp rfl,isFeed⟩
      intro before isBefore other isOther
      rcases mem_cons.mp isOther with rfl | isLater
      · exact ascends before isBefore
      · exact (ascends before isBefore).trans (after candle.timestamp rfl other isLater)
    · rintro ⟨ascends,⟨onStep,formed⟩,after,isFeed⟩
      have first : ∀ before ∈ previous, before < candle.timestamp := fun before isBefore => ascends before isBefore candle mem_cons_self
      obtain ⟨gaps,scanned⟩ := (later (next first)).mpr ⟨by rintro _ ⟨⟩; exact after,isFeed⟩
      have unseen : candle.timestamp ∉ seen := by
        intro old
        obtain ⟨before,isBefore,upTo⟩ := passed candle.timestamp old
        exact absurd (first before isBefore) (not_lt.mpr upTo)
      have rises : previous.any (candle.timestamp ≤ ·) ≠ true := by
        intro stays
        obtain ⟨before,isBefore,upTo⟩ := (Option.any_eq_true _ _).mp stays
        exact absurd (first before isBefore) (not_lt.mpr (of_decide_eq_true upTo))
      refine ⟨gapBefore stepMs previous candle.timestamp ++ gaps,?_⟩
      rw [scan,if_neg unseen,if_neg rises,if_neg (by omega),if_neg formed,scanned]
      rfl

theorem accepted_iff_valid (gapWarnRatio : ℚ) (candles : List (Candle Price)) {read : Nat × TimeUnit}
    (parsed : amountUnit (normalizeTimeframe timeframe) = some read) (positive : 0 < read.1) (startMs endMs : Int) :
    (∃ report, validateOhlcvFeed gapWarnRatio candles timeframe startMs endMs = .ok report) ↔
      CandleCache.validateOhlcvFeed candles read startMs endMs = .valid := by
  have isStep : timeframeToMs timeframe = read.1 * read.2.ms := by
    rw [timeframeToMs,parsed]
  have someStep : 0 < timeframeToMs timeframe := by
    rw [isStep]
    apply Nat.mul_pos positive
    cases read.2 <;> decide
  unfold validateOhlcvFeed CandleCache.validateOhlcvFeed
  rw [← isStep]
  by_cases range : endMs ≤ startMs
  · simp [range]
  · cases candles with
    | nil => simp [range]
    | cons first rest =>
      have whole := @scan_iff _ _ _ someStep [] none (first :: rest) (by simp)
      simp only [if_neg range,isEmpty_cons,Bool.false_eq_true,if_false]
      rw [show (∀ before ∈ (none : Option Int), ∀ candle ∈ first :: rest, before < candle.timestamp) ↔ True by simp,
        true_and] at whole
      cases scanned : scan (timeframeToMs timeframe) [] none (first :: rest) with
      | error failure =>
        have invalid : CandleCache.validFeed (timeframeToMs timeframe) (first :: rest) ≠ true := by
          intro valid
          obtain ⟨gaps,isOk⟩ := whole.mpr valid
          rw [scanned] at isOk
          cases isOk
        simp [invalid,Except.map]
      | ok gaps => simp [whole.mp ⟨gaps,scanned⟩,Except.map]

/-- The counts of an accepted feed are exact exactly if its range begins on a step and has all its candles. -/
theorem feed_counts_iff (gapWarnRatio : ℚ) (candles : List (Candle Price)) (timeframe : Text) (startMs endMs : Int)
    (report : OhlcvQualityReport) (accepted : validateOhlcvFeed gapWarnRatio candles timeframe startMs endMs = .ok report) :
    CountsExactly report candles (timeframeToMs timeframe) startMs endMs ↔
      ((timeframeToMs timeframe : Nat) : Int) ∣ startMs ∧ ∀ candle ∈ candles, startMs ≤ candle.timestamp ∧ candle.timestamp < endMs := by
  obtain ⟨range,first,rest,gaps,rfl,scanned,isActual,isExpected,isMissing⟩ := accepted_counts accepted
  generalize timeframeToMs timeframe = stepMs at *
  obtain ⟨positive,chain,onSteps,filled⟩ := scan_whole scanned
  have step : (0 : Int) < stepMs := Int.natCast_pos.mpr positive
  obtain ⟨a,isFirst⟩ := onSteps first mem_cons_self
  obtain ⟨b,isLast⟩ := onSteps _ (getLast_mem (cons_ne_nil first rest))
  rw [mul_comm] at isFirst isLast
  have ends := missing_withEnds positive startMs endMs a b gaps
  rw [← isFirst,← isLast,← isMissing] at ends
  -- the bars between the first candle and the last
  have inner : missing gaps = b + 1 - a - (first :: rest).length := by
    apply mul_right_cancel₀ step.ne'
    rw [filled,isFirst,isLast]
    ring
  have card := card_gridInstants positive range
  have lastBefore : ((first :: rest).getLast (cons_ne_nil _ _)).timestamp < endMs ↔ 0 < bars stepMs endMs - b := by
    rw [isLast,← sub_pos,← bars_pos_iff positive,sub_eq_add_neg,← neg_mul,bars_add positive,← sub_eq_add_neg]
  have order := between_ends mem_cons_self chain
  constructor
  · intro counts
    have total := counts.total
    have expected := counts.expected
    have aligned : (stepMs : Int) ∣ startMs := by
      by_contra off
      have whole := bars_neg positive off
      omega
    obtain ⟨k,isStart⟩ := aligned
    rw [mul_comm] at isStart
    have startSteps : bars stepMs startMs = k := by rw [isStart,bars_steps positive]
    have backSteps : bars stepMs (-startMs) = -k := by rw [isStart,← neg_mul,bars_steps positive]
    refine ⟨⟨k,by rw [isStart,mul_comm]⟩,?_⟩
    have firstAfter : k ≤ a := by omega
    have started : startMs ≤ first.timestamp := by
      rw [isStart,isFirst]
      exact mul_le_mul_of_nonneg_right firstAfter step.le
    have ended := lastBefore.mpr (by omega)
    intro candle listed
    have between := between_ends listed chain
    exact ⟨started.trans between.1,between.2.trans_lt ended⟩
  · rintro ⟨⟨k,isStart⟩,inside⟩
    rw [mul_comm] at isStart
    have startSteps : bars stepMs startMs = k := by rw [isStart,bars_steps positive]
    have backSteps : bars stepMs (-startMs) = -k := by rw [isStart,← neg_mul,bars_steps positive]
    have wholeSteps : bars stepMs (endMs - startMs) = bars stepMs endMs - k := by
      rw [isStart,sub_eq_add_neg,← neg_mul,bars_add positive,← sub_eq_add_neg]
    have firstAfter : k ≤ a := by
      have started := (inside first mem_cons_self).1
      rw [isStart,isFirst] at started
      exact le_of_mul_le_mul_right started step
    have ended := lastBefore.mp (inside _ (getLast_mem _)).2
    have total : report.actualBars + report.missingBars = report.expectedBars := by omega
    have expected : report.expectedBars = (gridInstants stepMs startMs endMs).card := by omega
    refine ⟨total,expected,none_missing_iff chain onSteps inside ?_⟩
    rw [← isActual,total,expected]
end

def flat (timestamp : Int) : Candle Int := ⟨timestamp,5,5,5,5,1⟩
def reported (result : Except FeedError OhlcvQualityReport) : Option (Nat × Int × Int) :=
  result.toOption.map fun report => (report.actualBars,report.missingBars,report.expectedBars)

/-- From half a minute on, a bar before the first minute is missing though the two minutes of the range have candles. -/
theorem halfMinute_counts : ∃ report,
    validateOhlcvFeed (1 / 1000) [flat 60000,flat 120000] (text "1m") 30000 150000 = .ok report ∧
      (report.actualBars,report.missingBars,report.expectedBars) = (2,1,2) ∧
      ¬CountsExactly report [flat 60000,flat 120000] (timeframeToMs (text "1m")) 30000 150000 := by
  have numbers : reported (validateOhlcvFeed (1 / 1000) [flat 60000,flat 120000] (text "1m") 30000 150000) = some (2,1,2) := by
    decide +kernel
  cases accepted : validateOhlcvFeed (1 / 1000) [flat 60000,flat 120000] (text "1m") 30000 150000 with
  | error failure =>
    rw [accepted] at numbers
    cases numbers
  | ok report =>
    rw [accepted] at numbers
    have isNumbers : (report.actualBars,report.missingBars,report.expectedBars) = (2,1,2) := Option.some.inj numbers
    refine ⟨report,rfl,isNumbers,?_⟩
    intro counts
    have total := counts.total
    simp only [Prod.mk.injEq] at isNumbers
    omega

/-- From a whole minute on, one of three bars is missing. -/
theorem wholeMinute_counts : ∃ report,
    validateOhlcvFeed (1 / 1000) [flat 60000,flat 180000] (text "1m") 60000 240000 = .ok report ∧
      CountsExactly report [flat 60000,flat 180000] (timeframeToMs (text "1m")) 60000 240000 := by
  have numbers : reported (validateOhlcvFeed (1 / 1000) [flat 60000,flat 180000] (text "1m") 60000 240000) = some (2,1,3) := by
    decide +kernel
  cases accepted : validateOhlcvFeed (1 / 1000) [flat 60000,flat 180000] (text "1m") 60000 240000 with
  | error failure =>
    rw [accepted] at numbers
    cases numbers
  | ok report => exact ⟨report,rfl,(feed_counts_iff _ _ _ _ _ report accepted).mpr (by decide +kernel)⟩
end Codebot.FeedQuality
