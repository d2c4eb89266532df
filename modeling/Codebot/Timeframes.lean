import Codebot.Texts
import Mathlib.Data.Int.Order.Basic

/-!
Timeframes, months and path tokens as the backtest worker has them. Times are
milliseconds; the calendar is that of `Date.UTC`.
-/
namespace Codebot.Timeframes
open Texts List

/-- The white space of `trim`. -/
def trimmed (c : Nat) : Bool :=
  (9 ≤ c && c ≤ 13) || c ∈ [32,0xA0,0x1680,0x2028,0x2029,0x202F,0x205F,0x3000,0xFEFF] || (0x2000 ≤ c && c ≤ 0x200A)
def trim (t : Text) : Text := strip { ascii with space := trimmed } t
/-- An alias, upper case, and its timeframe. -/
def aliases : List (Text × Text) :=
  [(text "M1",text "1m"),(text "M5",text "5m"),(text "M15",text "15m"),(text "M30",text "30m"),(text "H1",text "1h"),
    (text "H4",text "4h"),(text "D1",text "1d"),(text "W1",text "1w")]
/-- `normalizeTimeframe`. No other letter has the upper or lower case of one in a timeframe. -/
def normalizeTimeframe (value : Text) : Text :=
  ((aliases.find? fun entry => entry.1 = upper ascii (trim value)).map (·.2)).getD (ascii.lower (trim value))
/-- The unit of a timeframe. -/
inductive TimeUnit
  | minute
  | hour
  | day
  | week
deriving DecidableEq
def TimeUnit.ms : TimeUnit → Nat
  | .minute => 60000
  | .hour => 3600000
  | .day => 86400000
  | .week => 604800000
def TimeUnit.ofCharacter (c : Nat) : Option TimeUnit :=
  if c = 'm'.toNat then some .minute else if c = 'h'.toNat then some .hour else if c = 'd'.toNat then some .day
  else if c = 'w'.toNat then some .week else none
def decimal (digits : Text) : Nat := digits.foldl (fun n c => 10 * n + (c - 48)) 0
/-- `^(\d+)([mhdw])$`. -/
def amountUnit (t : Text) : Option (Nat × TimeUnit) :=
  match t.getLast?.bind TimeUnit.ofCharacter with
  | some unit => if t.dropLast ≠ [] ∧ t.dropLast.all asciiDigit then some (decimal t.dropLast,unit) else none
  | none => none
def timeframeToMs (value : Text) : Nat :=
  match amountUnit (normalizeTimeframe value) with
  | some (amount,unit) => amount * unit.ms
  | none => 60000
/-- `timeframeFromStepMs`, as an amount and its unit. -/
def timeframeFromStepMs (stepMs : Nat) : Nat × TimeUnit :=
  if stepMs % 604800000 = 0 then (stepMs / 604800000,.week)
  else if stepMs % 86400000 = 0 then (stepMs / 86400000,.day)
  else if stepMs % 3600000 = 0 then (stepMs / 3600000,.hour)
  else (max 1 (stepMs / 60000),.minute)
theorem timeframeToMs_minutes (value : Text) : timeframeToMs value % 60000 = 0 := by
  unfold timeframeToMs
  split
  · rename_i amount unit _
    cases unit <;> simp only [TimeUnit.ms] <;> omega
  · rfl
theorem timeframeFromStepMs_ms {stepMs : Nat} (minutes : stepMs % 60000 = 0) :
    (timeframeFromStepMs stepMs).1 * (timeframeFromStepMs stepMs).2.ms = stepMs := by
  unfold timeframeFromStepMs
  split_ifs <;> simp only [TimeUnit.ms] <;> omega
def msPerDay : Int := 86400000
def dayFromYear (year : Int) : Int := 365 * (year - 1970) + (year - 1969) / 4 - (year - 1901) / 100 + (year - 1601) / 400
def yearFromDay (day : Int) : Int :=
  let year := day * 400 / 146097 + 1970
  if day < dayFromYear year then year - 1 else if dayFromYear (year + 1) ≤ day then year + 1 else year
/-- `1` in a leap year. -/
def leapDay (year : Int) : Int := dayFromYear (year + 1) - dayFromYear year - 365

/-- The days of a year before a month; `12` is the next January. -/
def daysBeforeMonth (leap : Int) : Nat → Int
  | 0 => 0
  | 1 => 31
  | 2 => 59 + leap
  | 3 => 90 + leap
  | 4 => 120 + leap
  | 5 => 151 + leap
  | 6 => 181 + leap
  | 7 => 212 + leap
  | 8 => 243 + leap
  | 9 => 273 + leap
  | 10 => 304 + leap
  | 11 => 334 + leap
  | _ => 365 + leap

/-- `MonthFromTime`, of a day of the year: the first month that ends after it. -/
def monthFromDay (leap day : Int) : Nat :=
  ((List.range 11).find? fun month => day < daysBeforeMonth leap (month + 1)).getD 11
/-- `Date.UTC(year, month, 1)`, where years below 100 are those of the last century. -/
def dateUtc (year : Int) (month : Nat) : Int :=
  let full := if 0 ≤ year ∧ year ≤ 99 then 1900 + year else year
  (dayFromYear full + daysBeforeMonth (leapDay full) month) * msPerDay
def nextUtcMonthStart (timestampMs : Int) : Int :=
  let day := timestampMs / msPerDay
  let year := yearFromDay day
  dateUtc year (monthFromDay (leapDay year) (day - dayFromYear year) + 1)

theorem yearFromDay_between (day : Int) :
    dayFromYear (yearFromDay day) ≤ day ∧ day < dayFromYear (yearFromDay day + 1) := by
  have average : 146097 * (day * 400 / 146097) ≤ day * 400 ∧ day * 400 < 146097 * (day * 400 / 146097) + 146097 := by omega
  unfold yearFromDay
  generalize day * 400 / 146097 = years at average
  dsimp only
  split_ifs with before after
  · rw [Int.sub_add_cancel]
    refine ⟨?_,before⟩
    unfold dayFromYear
    omega
  · refine ⟨after,?_⟩
    unfold dayFromYear
    omega
  · exact ⟨not_lt.mp before,not_le.mp after⟩

theorem day_before_month {leap day : Int} (inYear : day < 365 + leap) : day < daysBeforeMonth leap (monthFromDay leap day + 1) := by
  unfold monthFromDay
  cases found : (List.range 11).find? fun month => day < daysBeforeMonth leap (month + 1) with
  | none => exact inYear
  | some month =>
    have before := find?_some found
    exact of_decide_eq_true before
theorem daysBeforeMonth_nonneg {leap : Int} (nonneg : 0 ≤ leap) (month : Nat) : 0 ≤ daysBeforeMonth leap month := by
  unfold daysBeforeMonth
  split <;> omega
theorem leapDay_nonneg (year : Int) : 0 ≤ leapDay year := by
  unfold leapDay dayFromYear
  omega

theorem nextUtcMonthStart_after (timestampMs : Int) : timestampMs < nextUtcMonthStart timestampMs := by
  obtain ⟨started,ends⟩ := yearFromDay_between (timestampMs / msPerDay)
  unfold nextUtcMonthStart dateUtc
  dsimp only
  generalize yearFromDay (timestampMs / msPerDay) = year at started ends ⊢
  have within : timestampMs / msPerDay - dayFromYear year < 365 + leapDay year := by
    unfold leapDay
    omega
  have later : timestampMs / msPerDay + 1 ≤ dayFromYear (if 0 ≤ year ∧ year ≤ 99 then 1900 + year else year) +
      daysBeforeMonth (leapDay (if 0 ≤ year ∧ year ≤ 99 then 1900 + year else year))
        (monthFromDay (leapDay year) (timestampMs / msPerDay - dayFromYear year) + 1) := by
    split_ifs with century
    · have nonneg := daysBeforeMonth_nonneg (leapDay_nonneg (1900 + year))
        (monthFromDay (leapDay year) (timestampMs / msPerDay - dayFromYear year) + 1)
      have centuries : dayFromYear (year + 1) ≤ dayFromYear (1900 + year) := by
        unfold dayFromYear
        omega
      omega
    · have month := day_before_month within
      omega
  have whole := Int.mul_le_mul_of_nonneg_right later (show (0 : Int) ≤ msPerDay by decide)
  have split := Int.mul_ediv_add_emod timestampMs msPerDay
  have rest := Int.emod_lt_of_pos timestampMs (show (0 : Int) < msPerDay by decide)
  rw [Int.add_mul] at whole
  rw [Int.mul_comm] at split
  omega

/-- `[a-zA-Z0-9._=-]`. -/
def pathCharacter (c : Nat) : Bool := asciiLetter c || asciiDigit c || c ∈ ['.'.toNat,'_'.toNat,'='.toNat,'-'.toNat]
/-- One underscore for each run of other characters. -/
def underscored : Text → Text
  | [] => []
  | c :: rest =>
    if pathCharacter c then c :: underscored rest
    else if (rest.head?.any fun next => !pathCharacter next) then underscored rest
    else '_'.toNat :: underscored rest
def pathToken (value : Text) : Text :=
  if underscored (trim value) = [] then text "unknown" else underscored (trim value)

example : pathToken (text "BTC/USDT") = pathToken (text "BTC:USDT") := by decide

def plainCharacter (c : Nat) : Bool := asciiLetter c || asciiDigit c

theorem underscored_plain {t : Text} (plain : t.all plainCharacter) : underscored t = t := by
  induction t with
  | nil => rfl
  | cons c rest ih =>
    rw [all_cons,Bool.and_eq_true] at plain
    have path : pathCharacter c = true := by
      unfold pathCharacter
      rw [Bool.or_eq_true]
      exact .inl plain.1
    rw [underscored,if_pos path,ih plain.2]

theorem plain_underscored {t : Text} (plain : (underscored t).all plainCharacter) : underscored t = t := by
  induction t with
  | nil => rfl
  | cons c rest ih =>
    rw [underscored] at plain ⊢
    by_cases path : pathCharacter c
    · rw [if_pos path] at plain ⊢
      rw [all_cons,Bool.and_eq_true] at plain
      rw [ih plain.2]
    · rw [if_neg path] at plain
      by_cases more : rest.head?.any fun next => !pathCharacter next
      · -- the run of other characters would go on in the token of the rest
        rw [if_pos more] at plain
        have same := ih plain
        cases rest with
        | nil => simp at more
        | cons next rest =>
          rw [same,all_cons,Bool.and_eq_true] at plain
          have isPath : pathCharacter next = true := by
            unfold pathCharacter
            rw [Bool.or_eq_true]
            exact .inl plain.1
          simp [isPath] at more
      · rw [if_neg more] at plain
        simp [plainCharacter,asciiLetter,asciiUpper,asciiLower,asciiDigit,between] at plain

theorem plain_of_amountUnit {t : Text} {read : Nat × TimeUnit} (parsed : amountUnit t = some read) :
    t ≠ [] ∧ t.all plainCharacter := by
  unfold amountUnit at parsed
  split at parsed
  · rename_i unit isUnit
    obtain ⟨c,isLast,ofUnit⟩ := Option.bind_eq_some_iff.mp isUnit
    obtain ⟨some,last⟩ := getLast?_eq_some_iff.mp isLast
    subst last
    split at parsed
    · rename_i digits
      refine ⟨by simp,?_⟩
      rw [dropLast_concat] at digits
      have plainUnit : plainCharacter c = true := by
        unfold TimeUnit.ofCharacter at ofUnit
        split_ifs at ofUnit with minute hour day week
        · subst minute
          rfl
        · subst hour
          rfl
        · subst day
          rfl
        · subst week
          rfl
      rw [all_append,Bool.and_eq_true]
      refine ⟨?_,by simp [plainUnit]⟩
      refine all_eq_true.mpr fun d member => ?_
      rw [plainCharacter,all_eq_true.mp digits.2 d member,Bool.or_true]
    · cases parsed
  · cases parsed

theorem plain_of_step {value : Text} (read : timeframeToMs value ≠ 60000) :
    trim value ≠ [] ∧ (trim value).all plainCharacter := by
  have parsed : normalizeTimeframe value ≠ [] ∧ (normalizeTimeframe value).all plainCharacter := by
    unfold timeframeToMs at read
    split at read
    · rename_i amount unit isRead
      exact plain_of_amountUnit isRead
    · exact absurd rfl read
  unfold normalizeTimeframe at parsed
  cases found : aliases.find? fun entry => entry.1 = upper ascii (trim value) with
  | some entry =>
    have isAlias := find?_some found
    have same : entry.1 = upper ascii (trim value) := of_decide_eq_true isAlias
    have plain : ∀ entry ∈ aliases, entry.1 ≠ [] ∧ entry.1.all plainCharacter = true := by decide
    obtain ⟨some,isPlain⟩ := plain entry (mem_of_find?_eq_some found)
    rw [same] at some isPlain
    refine ⟨fun none => some (by rw [none]; rfl),?_⟩
    refine all_eq_true.mpr fun c member => ?_
    by_cases lower : asciiLower c
    · simp [plainCharacter,asciiLetter,lower]
    · refine all_eq_true.mp isPlain c (mem_flatMap.mpr ⟨c,member,?_⟩)
      simp [ascii,lower]
  | none =>
    rw [found] at parsed
    change (trim value).map _ ≠ [] ∧ ((trim value).map _).all plainCharacter = true at parsed
    refine ⟨fun none => parsed.1 (by rw [none]; rfl),?_⟩
    refine all_eq_true.mpr fun c member => ?_
    by_cases isUpper : asciiUpper c
    · simp [plainCharacter,asciiLetter,isUpper]
    · have mapped := all_eq_true.mp parsed.2 _ (mem_map_of_mem member)
      rwa [if_neg isUpper] at mapped

theorem path_step {a b : Text} (same : pathToken a = pathToken b) : timeframeToMs a = timeframeToMs b := by
  have whole : ∀ {a b : Text}, pathToken a = pathToken b → timeframeToMs a ≠ 60000 → trim a = trim b := by
    intro a b same read
    obtain ⟨some,plain⟩ := plain_of_step read
    unfold pathToken at same
    rw [underscored_plain plain,if_neg some] at same
    split_ifs at same with empty
    · refine absurd ?_ read
      unfold timeframeToMs normalizeTimeframe
      rw [same]
      decide
    · rw [same] at plain
      rw [same,plain_underscored plain]
  have ofTrim : ∀ {a b : Text}, trim a = trim b → timeframeToMs a = timeframeToMs b := by
    intro a b same
    unfold timeframeToMs normalizeTimeframe
    rw [same]
  by_cases readA : timeframeToMs a = 60000
  · by_cases readB : timeframeToMs b = 60000
    · rw [readA,readB]
    · exact ofTrim (whole same.symm readB).symm
  · exact ofTrim (whole same readA)

end Codebot.Timeframes
