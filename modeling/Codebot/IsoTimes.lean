import Codebot.Dates

/-!
The texts that `datetime.isoformat()` writes of aware times. `datetime.fromisoformat` reads the time
back (`fromisoformat_isoformat`).
-/
namespace Codebot.IsoTimes
open Texts Timeframes Dates List

def padded : Nat → Nat → Text
  | 0,_ => []
  | count + 1,n => padded count (n / 10) ++ [48 + n % 10]
def Legal (clock : Clock) : Prop := clock.hour < 24 ∧ clock.minute < 60 ∧ clock.second < 60 ∧ clock.microsecond < 1000000
instance (clock : Clock) : Decidable (Legal clock) :=
  inferInstanceAs (Decidable (clock.hour < 24 ∧ clock.minute < 60 ∧ clock.second < 60 ∧ clock.microsecond < 1000000))

/-- An aware `datetime`: a date, a time, and how far and to which side it is from UTC. -/
structure Aware where
  year : Nat
  month : Nat
  day : Nat
  clock : Clock
  west : Bool
  offset : Clock
  isDate : (date year month day).isSome
  isTime : Legal clock
  isOffset : Legal offset
deriving DecidableEq

def microseconds (clock : Clock) : Int := clock.seconds * 1000000 + clock.microsecond
/-- `utcoffset()`, in microseconds. -/
def Aware.utcoffset (time : Aware) : Int := if time.west then -microseconds time.offset else microseconds time.offset
def Aware.datetime (time : Aware) : Datetime := ⟨dayOf time.year time.month time.day,time.clock,some time.utcoffset⟩
def fractionText (microsecond : Nat) : Text := if microsecond = 0 then [] else text "." ++ padded 6 microsecond
def formatTime (clock : Clock) : Text :=
  padded 2 clock.hour ++ text ":" ++ padded 2 clock.minute ++ (text ":" ++ (padded 2 clock.second ++ fractionText clock.microsecond))
/-- `_format_offset`, after the sign. -/
def formatOffset (offset : Clock) : Text :=
  padded 2 offset.hour ++ text ":" ++ padded 2 offset.minute ++
    if offset.second = 0 ∧ offset.microsecond = 0 then []
    else text ":" ++ (padded 2 offset.second ++ fractionText offset.microsecond)
def Aware.isoformat (time : Aware) : Text :=
  padded 4 time.year ++ text "-" ++ padded 2 time.month ++ text "-" ++ padded 2 time.day ++
    (text "T" ++ (formatTime time.clock ++ (if time.west then '-'.toNat else '+'.toNat) :: formatOffset time.offset))
theorem padded_length (count n : Nat) : (padded count n).length = count := by
  induction count generalizing n with
  | zero => rfl
  | succ count ih => rw [padded,length_append,ih,length_singleton]
theorem padded_digits (count n : Nat) : (padded count n).all asciiDigit := by
  induction count generalizing n with
  | zero => rfl
  | succ count ih =>
    have last : asciiDigit (48 + n % 10) := digit_bounds.mpr ⟨by omega,by omega⟩
    simp [padded,ih,last]

theorem decimal_padded {count n : Nat} (small : n < 10 ^ count) : decimal (padded count n) = n := by
  induction count generalizing n with
  | zero =>
    rw [Nat.pow_zero] at small
    rw [Nat.lt_one_iff.mp small]
    rfl
  | succ count ih =>
    have smaller : n / 10 < 10 ^ count := by
      rw [Nat.pow_succ] at small
      omega
    have before := ih smaller
    unfold decimal at before ⊢
    rw [padded,foldl_append,before]
    simp only [foldl_cons,foldl_nil]
    omega

theorem fraction_fractionText {microsecond : Nat} (small : microsecond < 1000000) : fraction (fractionText microsecond) = some microsecond := by
  by_cases whole : microsecond = 0
  · subst whole
    rfl
  · have length := padded_length 6 microsecond
    have written : padded 6 microsecond ≠ [] := by
      intro none
      rw [none] at length
      cases length
    have cut : (padded 6 microsecond).take 6 = padded 6 microsecond := take_of_length_le (le_of_eq length)
    rw [fractionText,if_neg whole]
    change (if (46 = '.'.toNat ∨ 46 = ','.toNat) ∧ padded 6 microsecond ≠ [] ∧ (padded 6 microsecond).all asciiDigit then
      some (decimal ((padded 6 microsecond).take 6) * 10 ^ (6 - (padded 6 microsecond).length)) else none) = _
    rw [if_pos ⟨.inl rfl,written,padded_digits 6 microsecond⟩,cut,length,decimal_padded small,Nat.sub_self,Nat.pow_zero,Nat.mul_one]

theorem parseClock_seconds {clock : Clock} (legal : Legal clock) : parseClock (formatTime clock) = some clock := by
  obtain ⟨hour,minute,second,microsecond⟩ := legal
  have written : text ":" ++ (padded 2 clock.second ++ fractionText clock.microsecond) ≠ [] := by simp [text]
  rw [formatTime,parseClock_minutes (padded_length 2 _) (padded_digits 2 _) (padded_length 2 _) (padded_digits 2 _),if_neg written,
    afterPrefix_append,Option.bind_some,digits_word (padded_length 2 _) (padded_digits 2 _),Option.bind_some,
    fraction_fractionText microsecond,Option.bind_some,decimal_padded (by omega),decimal_padded (by omega),decimal_padded (by omega)]

theorem parseClock_offset {offset : Clock} (legal : Legal offset) : parseClock (formatOffset offset) = some offset := by
  by_cases whole : offset.second = 0 ∧ offset.microsecond = 0
  · obtain ⟨hour,minute,_⟩ := legal
    rw [formatOffset,if_pos whole,parseClock_minutes (padded_length 2 _) (padded_digits 2 _) (padded_length 2 _) (padded_digits 2 _),
      if_pos rfl,decimal_padded (by omega),decimal_padded (by omega)]
    cases offset
    simp_all
  · rw [formatOffset,if_neg whole]
    exact parseClock_seconds legal

theorem formatTime_ofTime (clock : Clock) : (formatTime clock).all ofTime := by
  have colon : (text ":").all ofTime := by decide
  have point : (text ".").all ofTime := by decide
  have fraction : (fractionText clock.microsecond).all ofTime := by
    rw [fractionText]
    split
    · rfl
    · rw [all_append,point,ofTime_digits (padded_digits 6 _)]
      rfl
  simp only [formatTime,all_append,colon,fraction,ofTime_digits (padded_digits 2 _),Bool.and_self]

theorem parseOffset_format (time : Aware) :
    parseOffset ((if time.west then '-'.toNat else '+'.toNat) :: formatOffset time.offset) = some (some time.utcoffset) := by
  obtain ⟨hour,minute,second,microsecond⟩ := time.isOffset
  have day : time.offset.seconds < 86400 := by
    rw [Clock.seconds]
    omega
  cases west : time.west with
  | true =>
    rw [if_pos rfl,parseOffset,if_neg (by decide),parseClock_offset time.isOffset]
    simp [day,Aware.utcoffset,west,microseconds]
  | false =>
    rw [if_neg (by decide),parseOffset,if_neg (by decide),parseClock_offset time.isOffset]
    simp [day,Aware.utcoffset,west,microseconds]

theorem Aware.date_eq (time : Aware) : date time.year time.month time.day = some (dayOf time.year time.month time.day) ∧
    time.year < 10000 ∧ time.month < 100 ∧ time.day < 100 := by
  obtain ⟨number,read⟩ := Option.isSome_iff_exists.mp time.isDate
  obtain ⟨rfl,month,day,_⟩ := date_some read
  refine ⟨read,?_,by omega,by omega⟩
  unfold date at read
  split at read
  · rename_i proper
    omega
  · cases read

/-- What `isoformat` writes of a time reads back. -/
theorem fromisoformat_isoformat (time : Aware) : fromisoformat time.isoformat = some time.datetime := by
  obtain ⟨isDate,year,month,day⟩ := time.date_eq
  obtain ⟨hour,minute,second,_⟩ := time.isTime
  obtain ⟨separator,parsed⟩ := fromisoformat_date (padded_length 4 time.year) (padded_digits 4 _) (padded_length 2 time.month)
    (padded_digits 2 _) (padded_length 2 time.day) (padded_digits 2 _)
    (text "T" ++ (formatTime time.clock ++ (if time.west then '-'.toNat else '+'.toNat) :: formatOffset time.offset))
  rw [decimal_padded year,decimal_padded (by omega),decimal_padded (by omega),isDate] at parsed
  have ten : (padded 4 time.year ++ text "-" ++ padded 2 time.month ++ text "-" ++ padded 2 time.day).length = 10 := by
    simp only [length_append,padded_length]
    rfl
  have marked : ∀ c ∈ ((if time.west then '-'.toNat else '+'.toNat) :: formatOffset time.offset).head?, ofTime c = false := by
    intro c head
    obtain rfl := Option.some.inj head
    cases time.west <;> rfl
  obtain ⟨taken,dropped⟩ := split_offset (formatTime_ofTime time.clock) marked
  rw [← Aware.isoformat] at separator
  have long : ¬ time.isoformat.length ≤ 10 := by
    rw [Aware.isoformat,length_append,ten]
    simp [text]
  have short : ¬ time.isoformat.length < 7 := by omega
  have beginning : time.isoformat.take 10 = padded 4 time.year ++ text "-" ++ padded 2 time.month ++ text "-" ++ padded 2 time.day := by
    rw [Aware.isoformat,← ten,take_left]
  have rest : time.isoformat.drop (10 + 1) =
      formatTime time.clock ++ (if time.west then '-'.toNat else '+'.toNat) :: formatOffset time.offset := by
    rw [← drop_drop,Aware.isoformat,← ten,drop_left]
    rfl
  rw [fromisoformat,if_neg short,separator]
  simp only [Option.bind_eq_bind,Option.bind_some,beginning,parsed,if_neg long,rest,taken,dropped,parseClock_seconds time.isTime,
    parseOffset_format]
  rw [if_pos ⟨hour,minute,second⟩]
  rfl

theorem padded_ascii (count n : Nat) : ∀ c ∈ padded count n, c < 128 := by
  intro c member
  have bounds := digit_bounds.mp (all_eq_true.mp (padded_digits count n) c member)
  omega

theorem isoformat_ascii (time : Aware) : ∀ c ∈ time.isoformat, c < 128 := by
  have mark : (if time.west then '-'.toNat else '+'.toNat) < 128 := by
    cases time.west <;> decide
  have literal : (∀ c ∈ text ":", c < 128) ∧ (∀ c ∈ text ".", c < 128) ∧ (∀ c ∈ text "-", c < 128) ∧ ∀ c ∈ text "T", c < 128 := by
    decide
  have fraction : ∀ microsecond, ∀ c ∈ fractionText microsecond, c < 128 := by
    intro microsecond
    rw [fractionText]
    split
    · nofun
    · exact forall_mem_append.mpr ⟨literal.2.1,padded_ascii 6 _⟩
  have seconds : ∀ clock : Clock, ∀ c ∈ text ":" ++ (padded 2 clock.second ++ fractionText clock.microsecond), c < 128 := fun clock =>
    forall_mem_append.mpr ⟨literal.1,forall_mem_append.mpr ⟨padded_ascii 2 _,fraction _⟩⟩
  have minutes : ∀ (clock : Clock), ∀ c ∈ padded 2 clock.hour ++ text ":" ++ padded 2 clock.minute, c < 128 := fun clock =>
    forall_mem_append.mpr ⟨forall_mem_append.mpr ⟨padded_ascii 2 _,literal.1⟩,padded_ascii 2 _⟩
  have offset : ∀ c ∈ formatOffset time.offset, c < 128 := by
    refine forall_mem_append.mpr ⟨minutes time.offset,?_⟩
    split
    · nofun
    · exact seconds time.offset
  simp only [Aware.isoformat,forall_mem_append,forall_mem_cons]
  exact ⟨⟨⟨⟨⟨padded_ascii 4 _,literal.2.2.1⟩,padded_ascii 2 _⟩,literal.2.2.1⟩,padded_ascii 2 _⟩,literal.2.2.2,
    forall_mem_append.mpr ⟨minutes time.clock,seconds time.clock⟩,mark,offset⟩

end Codebot.IsoTimes
