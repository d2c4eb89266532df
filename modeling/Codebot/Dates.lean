import Codebot.Timeframes
import Mathlib.Tactic.IntervalCases

/-!
Dates as texts: what `datetime.fromisoformat(value).timestamp()` reads on the server and what
`new Date(value)` reads in the worker. Both know a date, with a time and an offset or without, and
`SameDate` says which of these they read alike (`instants_agree_iff`).
-/
namespace Codebot.Dates
open List hiding replace
open Texts Timeframes

def digits (count : Nat) (t : Text) : Option (Nat × Text) :=
  if count ≤ t.length ∧ (t.take count).all asciiDigit then some (decimal (t.take count),t.drop count) else none
def dayOf (year month day : Nat) : Int := dayFromYear year + daysBeforeMonth (leapDay year) (month - 1) + day - 1
def daysInMonth (year month : Nat) : Int :=
  daysBeforeMonth (leapDay year) month - daysBeforeMonth (leapDay year) (month - 1)
/-- `date(year, month, day)`. -/
def date (year month day : Nat) : Option Int :=
  if (1 ≤ year ∧ year ≤ 9999) ∧ (1 ≤ month ∧ month ≤ 12) ∧ 1 ≤ day ∧ (day : Int) ≤ daysInMonth year month then
    some (dayOf year month day)
  else none

/-- `_isoweek_to_gregorian`. Monday is weekday 0. -/
def isoweekToGregorian (year week day : Nat) : Option Int :=
  let first := dayFromYear year
  let weekday := (first + 3) % 7
  let long := weekday = 3 ∨ weekday = 2 ∧ leapDay year = 1
  let monday := if 3 < weekday then first - weekday + 7 else first - weekday
  let ordinal := monday + (week - 1 : Int) * 7 + (day - 1)
  if 1 ≤ year ∧ 1 ≤ week ∧ (week < 53 ∨ week = 53 ∧ long) ∧ (1 ≤ day ∧ day < 8) ∧ ordinal < dayFromYear 10000 then
    some ordinal
  else none

/-- `_find_isoformat_datetime_separator`, of a text of at least seven characters. -/
def separatorLocation (t : Text) : Option Nat :=
  if t.length = 7 then some 7
  else if t[4]? = some '-'.toNat then
    if t[5]? = some 'W'.toNat then
      if t[8]? = some '-'.toNat then
        if t.length = 9 then none else if t[10]?.any asciiDigit then some 8 else some 10
      else some 8
    else some 10
  else if t[4]? = some 'W'.toNat then
    let index := 7 + ((t.drop 7).takeWhile asciiDigit).length
    if index < 9 then some index else if index % 2 = 0 then some 7 else some 8
  else some 8

/-- `_parse_isoformat_date`, with the checks of `date`. -/
def parseIsoformatDate (t : Text) : Option Int := do
  let (year,t) ← digits 4 t
  let separator := if t.head? = some '-'.toNat then text "-" else []
  let t := t.drop separator.length
  if t.head? = some 'W'.toNat then
    let (week,t) ← digits 2 (t.drop 1)
    if t = [] then isoweekToGregorian year week 1
    else if (t.head? = some '-'.toNat) ≠ (separator ≠ []) then none
    else
      let (day,_) ← digits 1 (t.drop separator.length)
      isoweekToGregorian year week day
  else
    let (month,t) ← digits 2 t
    if (t.head? = some '-'.toNat) ≠ (separator ≠ []) then none
    else
      let (day,_) ← digits 2 (t.drop separator.length)
      date year month day

structure Clock where
  hour : Nat
  minute : Nat
  second : Nat
  microsecond : Nat
deriving DecidableEq
def Clock.seconds (clock : Clock) : Nat := clock.hour * 3600 + clock.minute * 60 + clock.second

/-- The microseconds of a fraction. Digits after the sixth are cut off. -/
def fraction (t : Text) : Option Nat :=
  match t with
  | [] => some 0
  | mark :: t =>
    if (mark = '.'.toNat ∨ mark = ','.toNat) ∧ t ≠ [] ∧ t.all asciiDigit then
      some (decimal (t.take 6) * 10 ^ (6 - t.length))
    else none

/-- `_parse_hh_mm_ss_ff`. -/
def parseClock (t : Text) : Option Clock := do
  let (hour,t) ← digits 2 t
  if t = [] then some ⟨hour,0,0,0⟩
  else
    let separator := if t.head? = some ':'.toNat then text ":" else []
    let (minute,t) ← digits 2 (t.drop separator.length)
    if t = [] then some ⟨hour,minute,0,0⟩
    else
      let t ← if separator = [] then some t else afterPrefix separator t
      let (second,t) ← digits 2 t
      let microsecond ← fraction t
      some ⟨hour,minute,second,microsecond⟩

def ofTime (c : Nat) : Bool := c ≠ '+'.toNat && c ≠ '-'.toNat && c ≠ 'Z'.toNat

/-- The offset in microseconds, which is less than a day. -/
def parseOffset (t : Text) : Option (Option Int) :=
  match t with
  | [] => some none
  | mark :: t =>
    if mark = 'Z'.toNat then if t = [] then some (some 0) else none
    else do
      let clock ← parseClock t
      let offset : Int := clock.seconds * 1000000 + clock.microsecond
      if clock.seconds < 86400 then some (some (if mark = '-'.toNat then -offset else offset)) else none

/-- A `datetime`: its day and its clock, and the offset of an aware one. -/
structure Datetime where
  day : Int
  clock : Clock
  offset : Option Int
deriving DecidableEq

def fromisoformat (t : Text) : Option Datetime :=
  if t.length < 7 then none
  else do
    let location ← separatorLocation t
    let day ← parseIsoformatDate (t.take location)
    if t.length ≤ location then some ⟨day,⟨0,0,0,0⟩,none⟩
    else
      let time := t.drop (location + 1)
      let clock ← parseClock (time.takeWhile ofTime)
      let offset ← parseOffset (time.dropWhile ofTime)
      if clock.hour < 24 ∧ clock.minute < 60 ∧ clock.second < 60 then some ⟨day,clock,offset⟩ else none

/-- The time zone of the processes: the seconds that a local time is ahead of UTC, and the local
    times that `timestamp()` can convert. -/
structure Zone where
  offset : Int → Int
  converts : Int → Bool
  within : ∀ seconds, -86400 < offset seconds ∧ offset seconds < 86400
def Zone.utc (zone : Zone) (seconds : Int) : Int := seconds - zone.offset seconds
def Datetime.seconds (datetime : Datetime) : Int := datetime.day * 86400 + datetime.clock.seconds
/-- `timestamp()`, exact and in microseconds. -/
def Datetime.timestamp (zone : Zone) (datetime : Datetime) : Option Int :=
  match datetime.offset with
  | some offset => some (datetime.seconds * 1000000 + datetime.clock.microsecond - offset)
  | none =>
    if zone.converts datetime.seconds then some (zone.utc datetime.seconds * 1000000 + datetime.clock.microsecond) else none
/-- What `_parse_backtest_datetime` reads before the rounding to a double. -/
def instant (zone : Zone) (value : Text) : Option Int :=
  (fromisoformat (replace 'Z'.toNat (text "+00:00") value)).bind (Datetime.timestamp zone)
/-- The offset of a text: whether it is negative, its hours and its minutes. -/
structure IsoOffset where
  negative : Bool
  hours : Nat
  minutes : Nat
deriving DecidableEq
def IsoOffset.size (offset : IsoOffset) : Nat := offset.hours * 3600 + offset.minutes * 60
def IsoOffset.seconds (offset : IsoOffset) : Int := if offset.negative then -offset.size else offset.size
/-- A text in the date time string format that has a full date. -/
structure IsoForm where
  year : Nat
  month : Nat
  day : Nat
  time : Option (Clock × Option IsoOffset)
deriving DecidableEq

def isoClock (t : Text) : Option (Clock × Text) := do
  let (hour,t) ← digits 2 t
  let t ← afterPrefix (text ":") t
  let (minute,t) ← digits 2 t
  match afterPrefix (text ":") t with
  | none => some (⟨hour,minute,0,0⟩,t)
  | some t =>
    let (second,t) ← digits 2 t
    match afterPrefix (text ".") t with
    | none => some (⟨hour,minute,second,0⟩,t)
    | some t =>
      let (millisecond,t) ← digits 3 t
      some (⟨hour,minute,second,millisecond * 1000⟩,t)

def isoOffset (t : Text) : Option (Option IsoOffset) :=
  match t with
  | [] => some none
  | mark :: t =>
    if mark = 'Z'.toNat then if t = [] then some (some ⟨false,0,0⟩) else none
    else if mark = '+'.toNat ∨ mark = '-'.toNat then do
      let (hours,t) ← digits 2 t
      let t ← afterPrefix (text ":") t
      let (minutes,t) ← digits 2 t
      if t = [] then some (some ⟨mark = '-'.toNat,hours,minutes⟩) else none
    else none

def isoForm (t : Text) : Option IsoForm := do
  let (year,t) ← digits 4 t
  let t ← afterPrefix (text "-") t
  let (month,t) ← digits 2 t
  let t ← afterPrefix (text "-") t
  let (day,t) ← digits 2 t
  if t = [] then some ⟨year,month,day,none⟩
  else
    let t ← afterPrefix (text "T") t
    let (clock,t) ← isoClock t
    let offset ← isoOffset t
    some ⟨year,month,day,some (clock,offset)⟩

/-- No element of the text is out of its bounds. -/
def IsoForm.legal (form : IsoForm) : Bool :=
  (1 ≤ form.month && form.month ≤ 12) && (1 ≤ form.day && form.day ≤ 31) && form.time.all fun time =>
    (time.1.hour < 24 || time.1 = ⟨24,0,0,0⟩) && time.1.minute < 60 && time.1.second < 60 &&
      time.2.all fun offset => offset.hours < 24 && offset.minutes < 60
def IsoForm.midnight (form : IsoForm) : Int := dayOf form.year form.month form.day * 86400
/-- The time value: a date alone is one of UTC, a time without an offset is a local one. -/
def IsoForm.timeValue (zone : Zone) (form : IsoForm) : Int :=
  match form.time with
  | none => form.midnight * 1000
  | some (clock,none) => zone.utc (form.midnight + clock.seconds) * 1000 + clock.microsecond / 1000
  | some (clock,some offset) => (form.midnight + clock.seconds - offset.seconds) * 1000 + clock.microsecond / 1000
def timeClip (time : Int) : Option Int := if -8640000000000000 ≤ time ∧ time ≤ 8640000000000000 then some time else none
/-- `new Date(value).getTime()`, where `other` is how the engine reads texts in other forms. -/
def dateParse (zone : Zone) (other : Text → Option Int) (value : Text) : Option Int :=
  match isoForm value with
  | some form => if form.legal then timeClip (form.timeValue zone) else none
  | none => other value

variable {count : Nat} {rest t : Text}

theorem digits_some {value : Nat} (read : digits count t = some (value,rest)) :
    ∃ word, t = word ++ rest ∧ word.length = count ∧ word.all asciiDigit ∧ value = decimal word := by
  unfold digits at read
  split at read
  · rename_i enough
    cases read
    exact ⟨t.take count,(take_append_drop count t).symm,length_take_of_le enough.1,enough.2,rfl⟩
  · cases read

variable {word : Text}
theorem digits_append (isDigits : word.all asciiDigit) (rest : Text) :
    digits word.length (word ++ rest) = some (decimal word,rest) := by
  rw [digits,take_left,drop_left,if_pos ⟨by simp,isDigits⟩]

variable {c : Nat}
theorem digit_bounds : asciiDigit c = true ↔ 48 ≤ c ∧ c ≤ 57 := by
  simp [asciiDigit,between]
theorem digits_word (long : word.length = count) (isDigits : word.all asciiDigit) (rest : Text) :
    digits count (word ++ rest) = some (decimal word,rest) := by
  rw [← long]
  exact digits_append isDigits rest
theorem ofTime_digit (isDigit : asciiDigit c) : ofTime c := by
  have bounds := digit_bounds.mp isDigit
  simp only [ofTime,Bool.and_eq_true,decide_eq_true_eq]
  exact ⟨⟨by simp; omega,by simp; omega⟩,by simp; omega⟩
theorem ofTime_digits (isDigits : word.all asciiDigit) : word.all ofTime := by
  rw [all_eq_true] at isDigits ⊢
  exact fun c member => ofTime_digit (isDigits c member)
theorem replace_append (old : Nat) (new first second : Text) :
    replace old new (first ++ second) = replace old new first ++ replace old new second :=
  flatMap_append

variable {new : Text}

theorem replace_absent {old : Nat} (absent : old ∉ t) : replace old new t = t := by
  induction t with
  | nil => rfl
  | cons c t ih =>
    have other : c ≠ old := fun same => absent (same ▸ mem_cons_self)
    have later := ih fun member => absent (mem_cons_of_mem c member)
    rw [replace,flatMap_cons,if_neg other]
    exact congrArg (c :: ·) later

theorem parseClock_minutes {hours minutes : Text} (twoHours : hours.length = 2) (areHours : hours.all asciiDigit)
    (twoMinutes : minutes.length = 2) (areMinutes : minutes.all asciiDigit) (t : Text) :
    parseClock (hours ++ text ":" ++ minutes ++ t) =
      if t = [] then some ⟨decimal hours,decimal minutes,0,0⟩
      else (afterPrefix (text ":") t).bind fun t => (digits 2 t).bind fun second => (fraction second.2).bind fun microsecond =>
        some ⟨decimal hours,decimal minutes,second.1,microsecond⟩ := by
  have colon : text ":" = [58] := rfl
  unfold parseClock
  rw [append_assoc,append_assoc,digits_word twoHours areHours,colon]
  simp [digits_word twoMinutes areMinutes]

theorem three_digits (three : word.length = 3) (isDigits : word.all asciiDigit) : decimal word < 1000 := by
  obtain ⟨a,b,c,rfl⟩ := length_eq_three.mp three
  simp only [all_cons,all_nil,Bool.and_true,Bool.and_eq_true,digit_bounds] at isDigits
  simp only [decimal,foldl_cons,foldl_nil]
  omega
def WholeMilliseconds (clock : Clock) : Prop := clock.microsecond % 1000 = 0 ∧ clock.microsecond < 1000000

variable {clock : Clock}

theorem isoClock_some (read : isoClock t = some (clock,rest)) :
    ∃ word, t = word ++ rest ∧ word.all ofTime ∧ parseClock word = some clock ∧ WholeMilliseconds clock := by
  unfold isoClock at read
  obtain ⟨⟨hour,t1⟩,readHour,read⟩ := Option.bind_eq_some_iff.mp read
  obtain ⟨t2,colon,read⟩ := Option.bind_eq_some_iff.mp read
  obtain ⟨⟨minute,t3⟩,readMinute,read⟩ := Option.bind_eq_some_iff.mp read
  obtain ⟨hours,rfl,twoHours,areHours,rfl⟩ := digits_some readHour
  obtain rfl := afterPrefix_some.mp colon
  obtain ⟨minutes,rfl,twoMinutes,areMinutes,rfl⟩ := digits_some readMinute
  have colonOfTime : (text ":").all ofTime := by decide
  cases found : afterPrefix (text ":") t3 with
  | none =>
    simp only [found] at read
    cases read
    refine ⟨hours ++ text ":" ++ minutes,by simp,?_,?_,rfl,show 0 < 1000000 by decide⟩
    · simp only [all_append,ofTime_digits areHours,ofTime_digits areMinutes,colonOfTime,Bool.and_self]
    · have parsed := parseClock_minutes twoHours areHours twoMinutes areMinutes []
      rw [append_nil] at parsed
      rw [parsed,if_pos rfl]
  | some t4 =>
    simp only [found] at read
    obtain ⟨⟨second,t5⟩,readSecond,read⟩ := Option.bind_eq_some_iff.mp read
    obtain rfl := afterPrefix_some.mp found
    obtain ⟨seconds,rfl,twoSeconds,areSeconds,rfl⟩ := digits_some readSecond
    cases point : afterPrefix (text ".") t5 with
    | none =>
      simp only [point] at read
      cases read
      refine ⟨hours ++ text ":" ++ minutes ++ (text ":" ++ (seconds ++ [])),by simp,?_,?_,rfl,show 0 < 1000000 by decide⟩
      · simp only [all_append,ofTime_digits areHours,ofTime_digits areMinutes,ofTime_digits areSeconds,colonOfTime,
          all_nil,Bool.and_self]
      · rw [parseClock_minutes twoHours areHours twoMinutes areMinutes,if_neg (by simp [text]),afterPrefix_append,
          Option.bind_some,digits_word twoSeconds areSeconds]
        rfl
    | some t6 =>
      simp only [point] at read
      obtain ⟨⟨millisecond,t7⟩,readMillisecond,read⟩ := Option.bind_eq_some_iff.mp read
      cases read
      obtain rfl := afterPrefix_some.mp point
      obtain ⟨milliseconds,rfl,three,areMilliseconds,rfl⟩ := digits_some readMillisecond
      have pointOfTime : (text ".").all ofTime := by decide
      have parts : fraction (text "." ++ milliseconds) = some (decimal milliseconds * 1000) := by
        have nonempty : milliseconds ≠ [] := by
          rintro rfl
          cases three
        have whole : milliseconds.take 6 = milliseconds := take_of_length_le (by omega)
        change (if (46 = '.'.toNat ∨ 46 = ','.toNat) ∧ milliseconds ≠ [] ∧ milliseconds.all asciiDigit then
          some (decimal (milliseconds.take 6) * 10 ^ (6 - milliseconds.length)) else none) = _
        have thousand : 10 ^ (6 - 3) = 1000 := by decide
        rw [if_pos ⟨.inl rfl,nonempty,areMilliseconds⟩,whole,three,thousand]
      have small := three_digits three areMilliseconds
      refine ⟨hours ++ text ":" ++ minutes ++ (text ":" ++ (seconds ++ (text "." ++ milliseconds))),by simp,?_,?_,
        Nat.mul_mod_left _ _,by dsimp only; omega⟩
      · simp only [all_append,ofTime_digits areHours,ofTime_digits areMinutes,ofTime_digits areSeconds,
          ofTime_digits areMilliseconds,colonOfTime,pointOfTime,Bool.and_self]
      · rw [parseClock_minutes twoHours areHours twoMinutes areMinutes,if_neg (by simp [text]),afterPrefix_append,
          Option.bind_some,digits_word twoSeconds areSeconds]
        change (fraction (text "." ++ milliseconds)).bind _ = _
        rw [parts]
        rfl

theorem replace_ofTime (ofTimes : word.all ofTime) : replace 'Z'.toNat new word = word := by
  apply replace_absent
  intro member
  have isOfTime := all_eq_true.mp ofTimes _ member
  simp [ofTime] at isOfTime
def isoDelta (offset : Option IsoOffset) : Option (Option Int) :=
  if offset.all (·.size < 86400) then some (offset.map (·.seconds * 1000000)) else none

theorem parseOffset_signed {mark : Nat} (signed : mark = '+'.toNat ∨ mark = '-'.toNat) {hours minutes : Text}
    (twoHours : hours.length = 2) (areHours : hours.all asciiDigit) (twoMinutes : minutes.length = 2)
    (areMinutes : minutes.all asciiDigit) :
    parseOffset (mark :: (hours ++ text ":" ++ minutes)) =
      isoDelta (some ⟨mark = '-'.toNat,decimal hours,decimal minutes⟩) := by
  have notZulu : mark ≠ 'Z'.toNat := by
    rcases signed with rfl | rfl <;> decide
  have parsed := parseClock_minutes twoHours areHours twoMinutes areMinutes []
  rw [append_nil,if_pos rfl] at parsed
  rw [parseOffset,if_neg notZulu,parsed]
  simp only [Option.bind_eq_bind,Option.bind_some]
  have seconds : Clock.seconds ⟨decimal hours,decimal minutes,0,0⟩ =
      IsoOffset.size ⟨mark = '-'.toNat,decimal hours,decimal minutes⟩ := by
    simp [Clock.seconds,IsoOffset.size]
  rw [seconds,isoDelta,Option.all_some,Option.map_some,IsoOffset.seconds]
  by_cases negative : mark = '-'.toNat
  · simp [negative]
  · simp only [if_neg negative,decide_eq_false negative]
    simp

variable {offset : Option IsoOffset}

theorem isoOffset_some (read : isoOffset t = some offset) :
    (∀ c ∈ (replace 'Z'.toNat (text "+00:00") t).head?, ofTime c = false) ∧
      parseOffset (replace 'Z'.toNat (text "+00:00") t) = isoDelta offset := by
  cases t with
  | nil =>
    cases read
    exact ⟨by simp [replace],by simp [replace,parseOffset,isoDelta]⟩
  | cons mark t =>
    unfold isoOffset at read
    by_cases zulu : mark = 'Z'.toNat
    · subst zulu
      by_cases ends : t = []
      · subst ends
        cases read
        have parsed := @parseOffset_signed '+'.toNat (.inl rfl) (text "00") (text "00") rfl (by decide) rfl (by decide)
        exact ⟨by decide,parsed⟩
      · simp [ends] at read
    · by_cases signed : mark = '+'.toNat ∨ mark = '-'.toNat
      · simp only [if_neg zulu,if_pos signed] at read
        obtain ⟨⟨hour,t1⟩,readHours,read⟩ := Option.bind_eq_some_iff.mp read
        obtain ⟨t2,colon,read⟩ := Option.bind_eq_some_iff.mp read
        obtain ⟨⟨minute,t3⟩,readMinutes,read⟩ := Option.bind_eq_some_iff.mp read
        obtain ⟨hours,rfl,twoHours,areHours,rfl⟩ := digits_some readHours
        obtain rfl := afterPrefix_some.mp colon
        obtain ⟨minutes,rfl,twoMinutes,areMinutes,rfl⟩ := digits_some readMinutes
        by_cases ends : t3 = []
        · subst ends
          simp only [if_true,Option.some.injEq] at read
          subst read
          have colonOfTime : (text ":").all ofTime := by decide
          have ofTimes : (hours ++ text ":" ++ minutes).all ofTime := by
            simp only [all_append,ofTime_digits areHours,ofTime_digits areMinutes,colonOfTime,Bool.and_self]
          have kept : replace 'Z'.toNat (text "+00:00") (mark :: (hours ++ (text ":" ++ (minutes ++ [])))) =
              mark :: (hours ++ text ":" ++ minutes) := by
            rw [append_nil,← append_assoc]
            change (if mark = 'Z'.toNat then text "+00:00" else [mark]) ++ replace 'Z'.toNat (text "+00:00") _ = _
            rw [if_neg zulu,replace_ofTime ofTimes]
            rfl
          rw [kept]
          refine ⟨?_,parseOffset_signed signed twoHours areHours twoMinutes areMinutes⟩
          intro c head
          obtain rfl : mark = c := by simpa using head
          rcases signed with rfl | rfl <;> rfl
        · simp [ends] at read
      · simp only [if_neg zulu,if_neg signed] at read
        cases read

/-- What Python makes of a text in the format. -/
def IsoForm.datetime (form : IsoForm) : Option Datetime := do
  let day ← date form.year form.month form.day
  match form.time with
  | none => some ⟨day,⟨0,0,0,0⟩,none⟩
  | some (clock,offset) => do
    let delta ← isoDelta offset
    if clock.hour < 24 ∧ clock.minute < 60 ∧ clock.second < 60 then some ⟨day,clock,delta⟩ else none

variable {form : IsoForm}

theorem isoForm_some (read : isoForm t = some form) :
    ∃ year month day rest, t = year ++ text "-" ++ month ++ text "-" ++ day ++ rest ∧
      (year.length = 4 ∧ year.all asciiDigit ∧ form.year = decimal year) ∧
      (month.length = 2 ∧ month.all asciiDigit ∧ form.month = decimal month) ∧
      (day.length = 2 ∧ day.all asciiDigit ∧ form.day = decimal day) ∧
      (rest = [] ∧ form.time = none ∨
        ∃ clock offset after last, rest = text "T" ++ after ∧ isoClock after = some (clock,last) ∧
          isoOffset last = some offset ∧ form.time = some (clock,offset)) := by
  unfold isoForm at read
  obtain ⟨⟨_,t1⟩,readYear,read⟩ := Option.bind_eq_some_iff.mp read
  obtain ⟨t2,first,read⟩ := Option.bind_eq_some_iff.mp read
  obtain ⟨⟨_,t3⟩,readMonth,read⟩ := Option.bind_eq_some_iff.mp read
  obtain ⟨t4,second,read⟩ := Option.bind_eq_some_iff.mp read
  obtain ⟨⟨_,t5⟩,readDay,read⟩ := Option.bind_eq_some_iff.mp read
  obtain ⟨year,rfl,four,isYear,rfl⟩ := digits_some readYear
  obtain rfl := afterPrefix_some.mp first
  obtain ⟨month,rfl,twoMonth,isMonth,rfl⟩ := digits_some readMonth
  obtain rfl := afterPrefix_some.mp second
  obtain ⟨day,rfl,twoDay,isDay,rfl⟩ := digits_some readDay
  refine ⟨year,month,day,t5,by simp,?_⟩
  by_cases ends : t5 = []
  · simp only [if_pos ends,Option.some.injEq] at read
    subst read
    exact ⟨⟨four,isYear,rfl⟩,⟨twoMonth,isMonth,rfl⟩,⟨twoDay,isDay,rfl⟩,.inl ⟨ends,rfl⟩⟩
  · simp only [if_neg ends] at read
    obtain ⟨t6,mark,read⟩ := Option.bind_eq_some_iff.mp read
    obtain ⟨⟨clock,last⟩,isClock,read⟩ := Option.bind_eq_some_iff.mp read
    obtain ⟨offset,isOffset,read⟩ := Option.bind_eq_some_iff.mp read
    cases read
    exact ⟨⟨four,isYear,rfl⟩,⟨twoMonth,isMonth,rfl⟩,⟨twoDay,isDay,rfl⟩,
      .inr ⟨clock,offset,t6,last,afterPrefix_some.mp mark,isClock,isOffset,rfl⟩⟩

theorem fromisoformat_date {year month day : Text} (four : year.length = 4) (isYear : year.all asciiDigit)
    (twoMonth : month.length = 2) (isMonth : month.all asciiDigit) (twoDay : day.length = 2) (isDay : day.all asciiDigit)
    (rest : Text) :
    separatorLocation (year ++ text "-" ++ month ++ text "-" ++ day ++ rest) = some 10 ∧
      parseIsoformatDate (year ++ text "-" ++ month ++ text "-" ++ day) =
        date (decimal year) (decimal month) (decimal day) := by
  have dash : text "-" = ['-'.toNat] := rfl
  obtain ⟨e,f,same⟩ := length_eq_two.mp twoMonth
  have notWeek : e ≠ 'W'.toNat := by
    rintro rfl
    rw [same] at isMonth
    exact absurd isMonth (by simp [asciiDigit,between])
  constructor
  · have long : (year ++ text "-" ++ month ++ text "-" ++ day ++ rest).length ≠ 7 := by
      simp only [length_append,four,twoMonth,twoDay]
      simp [dash]
      omega
    have fifth : (year ++ text "-" ++ month ++ text "-" ++ day ++ rest)[4]? = some '-'.toNat := by
      simp [dash,four]
    have sixth : (year ++ text "-" ++ month ++ text "-" ++ day ++ rest)[5]? = some e := by
      simp [dash,same,getElem?_append,four]
    rw [separatorLocation,if_neg long,if_pos fifth,sixth,if_neg (fun found => notWeek (Option.some.inj found))]
  · unfold parseIsoformatDate
    rw [append_assoc,append_assoc,append_assoc,digits_word four isYear]
    have head : (month ++ '-'.toNat :: day).head? ≠ some 'W'.toNat := by
      rw [same]
      exact fun found => notWeek (Option.some.inj found)
    have read := digits_word twoDay isDay []
    rw [append_nil] at read
    simp only [Option.bind_eq_bind,Option.bind_some,dash,cons_append,nil_append,head?_cons,if_true,
      length_cons,length_nil,drop_succ_cons,drop_zero]
    rw [if_neg head,digits_word twoMonth isMonth]
    simp [read]

theorem split_offset {offset : Text} (ofTimes : word.all ofTime) (marked : ∀ c ∈ offset.head?, ofTime c = false) :
    (word ++ offset).takeWhile ofTime = word ∧ (word ++ offset).dropWhile ofTime = offset := by
  have each := all_eq_true.mp ofTimes
  have ends : offset.takeWhile ofTime = [] ∧ offset.dropWhile ofTime = offset := by
    cases offset with
    | nil => exact ⟨rfl,rfl⟩
    | cons c rest => simp [marked c rfl]
  rw [takeWhile_append_of_pos each,dropWhile_append_of_pos each,ends.1,ends.2,append_nil]
  exact ⟨rfl,rfl⟩

theorem fromisoformat_iso (read : isoForm t = some form) :
    fromisoformat (replace 'Z'.toNat (text "+00:00") t) = form.datetime := by
  obtain ⟨year,month,day,rest,rfl,⟨four,isYear,formYear⟩,⟨twoMonth,isMonth,formMonth⟩,⟨twoDay,isDay,formDay⟩,time⟩ :=
    isoForm_some read
  have parsed := fromisoformat_date four isYear twoMonth isMonth twoDay isDay
  rw [← formYear,← formMonth,← formDay] at parsed
  have ten : (year ++ text "-" ++ month ++ text "-" ++ day).length = 10 := by
    simp only [length_append,four,twoMonth,twoDay]
    rfl
  have kept : replace 'Z'.toNat (text "+00:00") (year ++ text "-" ++ month ++ text "-" ++ day) =
      year ++ text "-" ++ month ++ text "-" ++ day := by
    simp only [replace_append,replace_ofTime (ofTime_digits isYear),replace_ofTime (ofTime_digits isMonth),
      replace_ofTime (ofTime_digits isDay)]
    rfl
  generalize (year ++ text "-" ++ month ++ text "-" ++ day) = date at parsed ten kept ⊢
  rw [replace_append,kept,fromisoformat,if_neg (by rw [length_append]; omega),(parsed _).1,IsoForm.datetime,← (parsed []).2]
  have front : ∀ other, (date ++ other).take 10 = date := fun other => by
    rw [← ten]
    exact take_left
  simp only [Option.bind_eq_bind,Option.bind_some,front]
  congr 1
  funext number
  rcases time with ⟨rfl,untimed⟩ | ⟨clock,offset,after,last,rfl,isClock,isOffset,timed⟩
  · rw [untimed,if_pos (by simp [replace,ten])]
  · obtain ⟨word,rfl,ofTimes,isWord,_⟩ := isoClock_some isClock
    obtain ⟨marked,delta⟩ := isoOffset_some isOffset
    have mark : replace 'Z'.toNat (text "+00:00") (text "T" ++ (word ++ last)) =
        text "T" ++ (word ++ replace 'Z'.toNat (text "+00:00") last) := by
      rw [replace_append,replace_append,replace_ofTime ofTimes]
      rfl
    have later : (date ++ (text "T" ++ (word ++ replace 'Z'.toNat (text "+00:00") last))).drop (10 + 1) =
        word ++ replace 'Z'.toNat (text "+00:00") last := by
      rw [← append_assoc,show 10 + 1 = (date ++ text "T").length by rw [length_append,ten]; rfl]
      exact drop_left
    obtain ⟨isTime,isOffset⟩ := split_offset ofTimes marked
    have beyond : ¬(date ++ (text "T" ++ (word ++ replace 'Z'.toNat (text "+00:00") last))).length ≤ 10 := by
      rw [length_append,length_append,ten,show (text "T").length = 1 from rfl]
      omega
    rw [mark,later,isTime,isOffset,isWord,delta,timed,if_neg beyond]
    rfl

/-- The texts that both processes read as one instant. -/
def SameDate (zone : Zone) (other : Text → Option Int) (value : Text) : Prop :=
  match isoForm value with
  | some form =>
    match form.time with
    | none => zone.offset form.midnight = 0
    | some (_,offset) => ∀ known ∈ offset, known.minutes < 60
  | none => ∃ time ∈ other value, instant zone value = some (time * 1000)

theorem leapDay_le (year : Int) : leapDay year ≤ 1 := by
  unfold leapDay dayFromYear
  omega

theorem date_some {year month day : Nat} {number : Int} (read : date year month day = some number) :
    number = dayOf year month day ∧ (1 ≤ month ∧ month ≤ 12) ∧ (1 ≤ day ∧ day ≤ 31) ∧ -800000 ≤ number ∧ number ≤ 3000000 := by
  unfold date at read
  split at read
  · rename_i proper
    obtain ⟨⟨early,late⟩,⟨first,last⟩,positive,inMonth⟩ := proper
    cases read
    have short := leapDay_le year
    have nonneg := leapDay_nonneg year
    have days : (day : Int) ≤ 31 ∧ daysBeforeMonth (leapDay year) (month - 1) ≤ 335 ∧
        0 ≤ daysBeforeMonth (leapDay year) (month - 1) := by
      unfold daysInMonth at inMonth
      interval_cases month <;> simp only [daysBeforeMonth] at inMonth ⊢ <;> omega
    refine ⟨rfl,⟨first,last⟩,⟨positive,by omega⟩,?_,?_⟩
    · unfold dayOf dayFromYear
      omega
    · unfold dayOf dayFromYear
      omega
  · cases read

theorem isoForm_whole (read : isoForm t = some form)
    (timed : form.time = some (clock,offset)) : WholeMilliseconds clock := by
  obtain ⟨_,_,_,_,_,_,_,_,time⟩ := isoForm_some read
  rcases time with ⟨_,untimed⟩ | ⟨_,_,_,_,_,isClock,_,isTime⟩
  · rw [untimed] at timed
    cases timed
  · rw [isTime] at timed
    cases timed
    obtain ⟨_,_,_,_,whole⟩ := isoClock_some isClock
    exact whole

theorem timeClip_eq {time : Int} (early : -8640000000000000 ≤ time) (late : time ≤ 8640000000000000) :
    timeClip time = some time := if_pos ⟨early,late⟩
theorem Clock.seconds_lt (hour : clock.hour < 24) (minute : clock.minute < 60) (second : clock.second < 60) :
    clock.seconds < 86400 := by
  unfold Clock.seconds
  omega

variable {micros : Int} {zone : Zone}

theorem timestamp_naive {datetime : Datetime} (naive : datetime.offset = none)
    (read : datetime.timestamp zone = some micros) :
    micros = zone.utc datetime.seconds * 1000000 + datetime.clock.microsecond := by
  simp only [Datetime.timestamp,naive] at read
  by_cases converts : zone.converts datetime.seconds
  · rw [if_pos converts] at read
    exact (Option.some.inj read).symm
  · rw [if_neg converts] at read
    cases read

theorem timestamp_aware {datetime : Datetime} {offset : Int} (aware : datetime.offset = some offset)
    (read : datetime.timestamp zone = some micros) :
    micros = datetime.seconds * 1000000 + datetime.clock.microsecond - offset := by
  simp only [Datetime.timestamp,aware] at read
  exact (Option.some.inj read).symm
theorem datetime_date {datetime : Datetime} (untimed : form.time = none) (made : form.datetime = some datetime) :
    ∃ number, date form.year form.month form.day = some number ∧ datetime = ⟨number,⟨0,0,0,0⟩,none⟩ := by
  obtain ⟨number,isDate,made⟩ := Option.bind_eq_some_iff.mp made
  simp only [untimed,Option.some.injEq] at made
  exact ⟨number,isDate,made.symm⟩

theorem datetime_time {datetime : Datetime}
    (timed : form.time = some (clock,offset)) (made : form.datetime = some datetime) :
    ∃ number, date form.year form.month form.day = some number ∧
      datetime = ⟨number,clock,offset.map (·.seconds * 1000000)⟩ ∧ (∀ known ∈ offset, known.size < 86400) ∧
      clock.hour < 24 ∧ clock.minute < 60 ∧ clock.second < 60 := by
  obtain ⟨number,isDate,made⟩ := Option.bind_eq_some_iff.mp made
  simp only [timed] at made
  obtain ⟨delta,isDelta,made⟩ := Option.bind_eq_some_iff.mp made
  unfold isoDelta at isDelta
  by_cases small : offset.all (·.size < 86400)
  · rw [if_pos small] at isDelta
    cases isDelta
    by_cases proper : clock.hour < 24 ∧ clock.minute < 60 ∧ clock.second < 60
    · rw [if_pos proper] at made
      refine ⟨number,isDate,(Option.some.inj made).symm,?_,proper⟩
      rintro known rfl
      simpa using small
    · rw [if_neg proper] at made
      cases made
  · rw [if_neg small] at isDelta
    cases isDelta

theorem dates_agree_iff {datetime : Datetime} (untimed : form.time = none)
    (made : form.datetime = some datetime) (read : datetime.timestamp zone = some micros) :
    (∃ time, (if form.legal then timeClip (form.timeValue zone) else none) = some time ∧ micros = time * 1000) ↔
      zone.offset form.midnight = 0 := by
  obtain ⟨number,isDate,rfl⟩ := datetime_date untimed made
  obtain ⟨isNumber,months,days,early,late⟩ := date_some isDate
  have midnight : form.midnight = number * 86400 := by rw [IsoForm.midnight,isNumber]
  have seconds : Datetime.seconds ⟨number,⟨0,0,0,0⟩,none⟩ = form.midnight := by
    rw [midnight]
    simp [Datetime.seconds,Clock.seconds]
  have isMicros := timestamp_naive rfl read
  rw [seconds,Zone.utc] at isMicros
  simp only [Nat.cast_zero,Int.add_zero] at isMicros
  have legal : form.legal = true := by simp [IsoForm.legal,untimed,months,days]
  have isValue : form.timeValue zone = form.midnight * 1000 := by simp only [IsoForm.timeValue,untimed]
  have clipped : timeClip (form.midnight * 1000) = some (form.midnight * 1000) := timeClip_eq (by omega) (by omega)
  rw [if_pos legal,isValue,clipped]
  constructor
  · rintro ⟨time,⟨⟩,same⟩
    omega
  · intro atUtc
    exact ⟨_,rfl,by omega⟩

theorem times_agree_iff {datetime : Datetime} (timed : form.time = some (clock,offset)) (whole : WholeMilliseconds clock)
    (made : form.datetime = some datetime) (read : datetime.timestamp zone = some micros) :
    (∃ time, (if form.legal then timeClip (form.timeValue zone) else none) = some time ∧ micros = time * 1000) ↔
      ∀ known ∈ offset, known.minutes < 60 := by
  obtain ⟨number,isDate,rfl,small,hour,minute,second⟩ := datetime_time timed made
  obtain ⟨isNumber,months,days,early,late⟩ := date_some isDate
  have midnight : form.midnight = number * 86400 := by rw [IsoForm.midnight,isNumber]
  have short := Clock.seconds_lt hour minute second
  obtain ⟨thousands,million⟩ := whole
  have isSeconds : Datetime.seconds ⟨number,clock,offset.map (·.seconds * 1000000)⟩ = form.midnight + clock.seconds := by
    rw [midnight]
    rfl
  have legal : form.legal = true ↔ ∀ known ∈ offset, known.minutes < 60 := by
    cases offset with
    | none => simp [IsoForm.legal,timed,months,days,hour,minute,second]
    | some known =>
      have hours : known.hours < 24 := by
        have within := small known rfl
        unfold IsoOffset.size at within
        omega
      simp [IsoForm.legal,timed,months,days,hour,minute,second,hours]
  have same : micros = form.timeValue zone * 1000 ∧ -8640000000000000 ≤ form.timeValue zone ∧
      form.timeValue zone ≤ 8640000000000000 := by
    cases offset with
    | none =>
      have isMicros := timestamp_naive rfl read
      rw [isSeconds] at isMicros
      have isValue : form.timeValue zone = zone.utc (form.midnight + clock.seconds) * 1000 + clock.microsecond / 1000 := by
        simp only [IsoForm.timeValue,timed]
      have within := zone.within (form.midnight + clock.seconds)
      rw [Zone.utc] at isMicros isValue
      dsimp only at isMicros
      omega
    | some known =>
      have isMicros := timestamp_aware rfl read
      rw [isSeconds] at isMicros
      have isValue : form.timeValue zone =
          (form.midnight + clock.seconds - known.seconds) * 1000 + clock.microsecond / 1000 := by
        simp only [IsoForm.timeValue,timed]
      have within := small known rfl
      have bounds : -86400 < known.seconds ∧ known.seconds < 86400 := by
        unfold IsoOffset.seconds
        split <;> omega
      dsimp only at isMicros
      omega
  obtain ⟨isMicros,before,after⟩ := same
  rw [← legal,timeClip_eq before after]
  constructor
  · rintro ⟨time,isTime,_⟩
    by_contra illegal
    rw [if_neg illegal] at isTime
    cases isTime
  · intro isLegal
    exact ⟨_,if_pos isLegal,isMicros⟩

/-- What the server reads, the worker reads as the same instant exactly where the text is of that kind. -/
theorem instants_agree_iff (other : Text → Option Int) {value : Text} (read : instant zone value = some micros) :
    (∃ time, dateParse zone other value = some time ∧ micros = time * 1000) ↔ SameDate zone other value := by
  unfold SameDate dateParse
  cases isForm : isoForm value with
  | none => simp [read,Option.mem_def]
  | some form =>
    rw [instant,fromisoformat_iso isForm] at read
    obtain ⟨datetime,made,read⟩ := Option.bind_eq_some_iff.mp read
    cases timed : form.time with
    | none =>
      simp only [timed]
      exact dates_agree_iff timed made read
    | some time =>
      simp only [timed]
      exact times_agree_iff timed (isoForm_whole isForm timed) made read

end Codebot.Dates
