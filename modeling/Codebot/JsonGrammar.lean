import Codebot.JsonDumps

/-!
The texts of JSON, by rules of their own, with any white space, escapes and forms of a number. What the rules derive
is read up to its end, unless it has an integer of too many digits (`written_read`, `object_read`). What is written of
a value reads back as the value (`loads_dumps`).
-/
namespace Codebot.JsonGrammar
open Texts JsonTexts JsonDumps List

def Blank (t : Text) : Prop := ∀ c ∈ t, whitespace c
def Quad (t : Text) (n : Nat) : Prop := t.length = 4 ∧ hexQuad t = some (n,[])

/-- What stands between the quotes of a text. -/
inductive Characters : Text → Text → Prop
  | done : Characters [] []
  | plain {c : Nat} {source value : Text} (visible : 32 ≤ c) (noQuote : c ≠ 34) (noBackslash : c ≠ 92)
      (rest : Characters source value) : Characters (c :: source) (c :: value)
  | letter {letter c : Nat} {source value : Text} (stands : letterEscape letter = some c)
      (rest : Characters source value) : Characters (92 :: letter :: source) (c :: value)
  | unit {n : Nat} {quad source value : Text} (isQuad : Quad quad n) (apart : high n → lowHalf source = none)
      (rest : Characters source value) : Characters (92 :: 117 :: quad ++ source) (n :: value)
  | pair {n m : Nat} {quad second source value : Text} (isQuad : Quad quad n) (isHigh : high n) (isSecond : Quad second m)
      (isLow : low m) (rest : Characters source value) :
      Characters (92 :: 117 :: quad ++ 92 :: 117 :: second ++ source) ((0x10000 + (n - 0xD800) * 0x400 + (m - 0xDC00)) :: value)

/-- The parts of a number. -/
structure Number where
  minus : Text
  whole : Text
  fraction : Text
  exponent : Text
  isMinus : minus = [] ∨ minus = [45]
  isWhole : Whole whole
  isFraction : fraction = [] ∨ ∃ c t, fraction = 46 :: c :: t ∧ asciiDigit c ∧ ∀ d ∈ t, asciiDigit d
  isExponent : exponent = [] ∨ ∃ mark sign c t, exponent = mark :: sign ++ c :: t ∧ (mark = 101 ∨ mark = 69) ∧
    (sign = [] ∨ sign = [43] ∨ sign = [45]) ∧ asciiDigit c ∧ ∀ d ∈ t, asciiDigit d

def Number.source (number : Number) : Text := number.minus ++ number.whole ++ number.fraction ++ number.exponent
/-- An integer, or a float as it is written. -/
def Number.value (number : Number) : Json :=
  if number.fraction = [] ∧ number.exponent = [] then
    .integer (if number.minus = [45] then -(decimal number.whole : Int) else decimal number.whole)
  else .float number.source
def collected (entries found : List (Text × Json)) : List (Text × Json) :=
  found.foldl (fun entries entry => putEntry entries entry.1 entry.2) entries

mutual

/-- The text of a value. -/
inductive Written : Text → Json → Prop
  | word {word : Text} {value : Json} (member : (word,value) ∈ words) : Written word value
  | number (number : Number) : Written number.source number.value
  | text {source value : Text} (characters : Characters source value) : Written (34 :: source ++ [34]) (.text value)
  | emptyArray {blank : Text} (isBlank : Blank blank) : Written (91 :: blank ++ [93]) (.array [])
  | array {blank body : Text} {items : List Json} (isBlank : Blank blank) (isBody : Items body items) :
      Written (91 :: blank ++ body ++ [93]) (.array items)
  | emptyObject {blank : Text} (isBlank : Blank blank) : Written (123 :: blank ++ [125]) (.object [])
  | object {blank body : Text} {found : List (Text × Json)} (isBlank : Blank blank) (isBody : Entries body found) :
      Written (123 :: blank ++ body ++ [125]) (.object (collected [] found))

/-- The items of an array, up to its bracket. -/
inductive Items : Text → List Json → Prop
  | last {source blank : Text} {value : Json} (written : Written source value) (isBlank : Blank blank) :
      Items (source ++ blank) [value]
  | more {source blank after body : Text} {value : Json} {items : List Json} (written : Written source value)
      (isBlank : Blank blank) (isAfter : Blank after) (isBody : Items body items) :
      Items (source ++ (blank ++ 44 :: (after ++ body))) (value :: items)
/-- A key, a colon and a value. -/
inductive Entry : Text → Text → Json → Prop
  | entry {characters key blank after source : Text} {value : Json} (isKey : Characters characters key)
      (isBlank : Blank blank) (isAfter : Blank after) (written : Written source value) :
      Entry (34 :: (characters ++ 34 :: (blank ++ 58 :: (after ++ source)))) key value
/-- The entries of an object, up to its brace. -/
inductive Entries : Text → List (Text × Json) → Prop
  | last {source key blank : Text} {value : Json} (isEntry : Entry source key value) (isBlank : Blank blank) :
      Entries (source ++ blank) [(key,value)]
  | more {source key blank after body : Text} {value : Json} {found : List (Text × Json)} (isEntry : Entry source key value)
      (isBlank : Blank blank) (isAfter : Blank after) (isBody : Entries body found) :
      Entries (source ++ (blank ++ 44 :: (after ++ body))) ((key,value) :: found)

end

variable {n : Nat} {quad : Text}
theorem quad_parts (isQuad : Quad quad n) : ∃ a b c d, quad = [a,b,c,d] := by
  obtain ⟨a,b,c,d,rfl⟩ := length_eq_four.mp isQuad.1
  exact ⟨a,b,c,d,rfl⟩
theorem hexQuad_quad (isQuad : Quad quad n) (rest : Text) : hexQuad (quad ++ rest) = some (n,rest) := by
  obtain ⟨a,b,c,d,rfl⟩ := quad_parts isQuad
  have read := isQuad.2
  simp only [hexQuad,Option.bind_eq_bind,cons_append,nil_append] at read ⊢
  simp only [Option.bind_eq_some_iff,Option.some.injEq,Prod.mk.injEq,and_true] at read ⊢
  exact read
theorem lowHalf_quad (isQuad : Quad quad n) (rest : Text) :
    lowHalf (92 :: 117 :: quad ++ rest) = if low n then some (n,rest) else none := by
  have read := hexQuad_quad isQuad rest
  simp only [lowHalf,escape_mark,cons_append,afterPrefix,if_true,read,Option.bind_eq_bind,Option.bind_some,low]
  by_cases isLow : 0xDC00 ≤ n ∧ n ≤ 0xDFFF
  · simp [isLow]
  · simp [isLow]

theorem lowHalf_closed {source value : Text} (characters : Characters source value) (apart : lowHalf source = none) (rest : Text) :
    lowHalf (source ++ 34 :: rest) = none := by
  cases characters with
  | done => simp [lowHalf,escape_mark,afterPrefix]
  | plain visible noQuote noBackslash later => simp [lowHalf,escape_mark,afterPrefix,Ne.symm noBackslash]
  | letter stands later =>
    have differs : ∀ letter, letter ∈ [34,92,47,98,102,110,114,116] → letter ≠ 117 := by decide
    simp [lowHalf,escape_mark,afterPrefix,Ne.symm (differs _ (letterEscape_letter stands))]
  | unit isQuad _ later =>
    rw [lowHalf_quad isQuad] at apart
    rw [append_assoc,lowHalf_quad isQuad]
    split_ifs at apart ⊢
    rfl
  | pair isQuad isHigh isSecond isLow later =>
    rw [append_assoc,lowHalf_quad isQuad] at apart
    rw [append_assoc,append_assoc,lowHalf_quad isQuad]
    split_ifs at apart ⊢
    rfl

theorem unicodeEscape_quad (isQuad : Quad quad n) (rest : Text) :
    unicodeEscape (quad ++ rest) =
      if high n then
        (lowHalf rest).elim (some (n,rest)) fun low => some (0x10000 + (n - 0xD800) * 0x400 + (low.1 - 0xDC00),low.2)
      else some (n,rest) := by
  simp only [unicodeEscape,hexQuad_quad isQuad rest,Option.bind_eq_bind,Option.bind_some,high]
  by_cases isHigh : 0xD800 ≤ n ∧ n ≤ 0xDBFF
  · cases lowHalf rest with
    | none => simp [isHigh]
    | some read => simp [isHigh]
  · simp [isHigh]

variable {c : Nat} {rest t : Text}
theorem readText_unicode (escaped : unicodeEscape t = some (c,rest)) (fuel : Nat) :
    readText (fuel + 1) (92 :: 117 :: t) = (readText fuel rest).map fun read => (c :: read.1,read.2) := by
  simp [readText,escaped]

variable {fuel : Nat}

theorem readText_characters {source value : Text} (characters : Characters source value) (rest : Text)
    (enough : source.length < fuel) : readText fuel (source ++ 34 :: rest) = .ok (value,rest) := by
  induction characters generalizing fuel with
  | done =>
    obtain ⟨less,rfl⟩ := Nat.exists_eq_succ_of_ne_zero (Nat.ne_of_gt enough)
    simp [readText]
  | @plain c source value visible noQuote noBackslash later ih =>
    obtain ⟨less,rfl⟩ := Nat.exists_eq_succ_of_ne_zero (Nat.ne_of_gt (Nat.lt_of_le_of_lt (Nat.zero_le _) enough))
    have printable : ¬ c < 32 := by omega
    rw [length_cons] at enough
    rw [cons_append]
    simp [readText,noQuote,noBackslash,printable,ih (Nat.lt_of_succ_lt_succ enough),Except.map]
  | @letter letter c source value stands later ih =>
    obtain ⟨less,rfl⟩ := Nat.exists_eq_succ_of_ne_zero (Nat.ne_of_gt (Nat.lt_of_le_of_lt (Nat.zero_le _) enough))
    have differs : ∀ letter, letter ∈ [34,92,47,98,102,110,114,116] → letter ≠ 117 := by decide
    have noUnit := differs letter (letterEscape_letter stands)
    simp only [length_cons] at enough
    have read := ih (show source.length < less by omega)
    rw [cons_append,cons_append]
    simp [readText,noUnit,stands,read,Except.map]
  | @unit n quad source value isQuad apart later ih =>
    obtain ⟨less,rfl⟩ := Nat.exists_eq_succ_of_ne_zero (Nat.ne_of_gt (Nat.lt_of_le_of_lt (Nat.zero_le _) enough))
    simp only [length_append,length_cons] at enough
    have escaped : unicodeEscape (quad ++ (source ++ 34 :: rest)) = some (n,source ++ 34 :: rest) := by
      rw [unicodeEscape_quad isQuad]
      split_ifs with isHigh
      · rw [lowHalf_closed later (apart isHigh)]
        rfl
      · rfl
    have read := ih (show source.length < less by omega)
    rw [append_assoc,cons_append,cons_append,readText_unicode escaped,read]
    rfl
  | @pair n m quad second source value isQuad isHigh isSecond isLow later ih =>
    obtain ⟨less,rfl⟩ := Nat.exists_eq_succ_of_ne_zero (Nat.ne_of_gt (Nat.lt_of_le_of_lt (Nat.zero_le _) enough))
    simp only [length_append,length_cons] at enough
    have escaped : unicodeEscape (quad ++ (92 :: 117 :: second ++ (source ++ 34 :: rest))) =
        some (0x10000 + (n - 0xD800) * 0x400 + (m - 0xDC00),source ++ 34 :: rest) := by
      rw [unicodeEscape_quad isQuad,if_pos isHigh,lowHalf_quad isSecond,if_pos isLow]
      rfl
    have read := ih (show source.length < less by omega)
    rw [append_assoc,append_assoc,cons_append,cons_append,readText_unicode escaped,read]
    rfl

def Outcome {α : Type} (value : α) (result : Except Failure α) : Prop := result = .ok value ∨ result = .error .digits

variable {mark : Nat}

theorem exponentPart_mark {sign : Text} (isMark : mark = 101 ∨ mark = 69)
    (isSign : sign = [] ∨ sign = [43] ∨ sign = [45]) (digit : asciiDigit c) (all : ∀ d ∈ t, asciiDigit d)
    (stops : ∀ c ∈ rest.head?, asciiDigit c = false) :
    exponentPart (mark :: sign ++ c :: t ++ rest) = (mark :: sign ++ c :: t,rest) := by
  obtain ⟨taken,dropped⟩ := takeWhile_digits (forall_mem_cons.mpr ⟨digit,all⟩) stops
  rw [cons_append] at taken dropped
  have unsigned : c ≠ 43 ∧ c ≠ 45 := by
    constructor <;> rintro rfl <;> exact absurd digit (by decide)
  rcases isMark with rfl | rfl
  all_goals
    rcases isSign with rfl | rfl | rfl
    · simp [exponentPart,unsigned.1,unsigned.2,taken]
    · simp [exponentPart,unsigned.1,unsigned.2,taken]
    · simp [exponentPart,unsigned.1,unsigned.2,taken]

/-- The whole part of an integer has too many digits. -/
def Number.long (number : Number) : Prop := number.fraction = [] ∧ number.exponent = [] ∧ maxDigits < number.whole.length
instance (number : Number) : Decidable number.long := inferInstanceAs (Decidable (_ ∧ _ ∧ _))
/-- The text is read up to its end, before what ends a number. -/
def ReadAs (t : Text) (result : Except Failure Json) : Prop :=
  ∀ fuel rest, t.length ≤ fuel → Ends rest → readValue fuel (t ++ rest) = result.map fun value => (value,rest)
/-- Whatever follows. -/
def ContainerReadAs (t : Text) (result : Except Failure Json) : Prop :=
  ∀ fuel rest, t.length ≤ fuel → readValue fuel (t ++ rest) = result.map fun value => (value,rest)
def ItemsReadAs (t : Text) (result : Except Failure (List Json)) : Prop :=
  ∀ fuel acc rest, t.length < fuel → readItems fuel acc (t ++ 93 :: rest) = result.map fun items => (.array (acc ++ items),rest)
/-- The entry is read with the mark after it. -/
def EntryReadAs (t key : Text) (result : Except Failure Json) : Prop :=
  ∀ fuel acc blank mark rest, t.length ≤ fuel → Blank blank → (mark = 44 ∨ mark = 125) →
    readEntries (fuel + 1) acc (t ++ (blank ++ mark :: rest)) = result.bind fun value =>
      if mark = 125 then .ok (.object (putEntry acc key value),rest) else readEntries fuel (putEntry acc key value) (skip rest)
def EntriesReadAs (t : Text) (result : Except Failure (List (Text × Json))) : Prop :=
  ∀ fuel acc rest, t.length < fuel → readEntries fuel acc (t ++ 125 :: rest) = result.map fun found => (.object (collected acc found),rest)
def ValueRead (t : Text) (value : Json) : Prop := ∃ result, Outcome value result ∧ ReadAs t result
def ContainerRead (t : Text) (value : Json) : Prop := ∃ result, Outcome value result ∧ ContainerReadAs t result
def ItemsRead (t : Text) (items : List Json) : Prop := ∃ result, Outcome items result ∧ ItemsReadAs t result
def EntriesRead (t : Text) (found : List (Text × Json)) : Prop := ∃ result, Outcome found result ∧ EntriesReadAs t result
theorem outcome_map {α β : Type} {value : α} {result : Except Failure α} (f : α → β) (outcome : Outcome value result) :
    Outcome (f value) (result.map f) := by
  rcases outcome with rfl | rfl
  · exact .inl rfl
  · exact .inr rfl
theorem outcome_bind {α β γ : Type} {value : α} {other : β} {result : Except Failure α} {others : Except Failure β} (f : α → β → γ)
    (outcome : Outcome value result) (also : Outcome other others) : Outcome (f value other) (result.bind fun value => others.map (f value)) := by
  rcases outcome with rfl | rfl
  · exact outcome_map (f value) also
  · exact .inr rfl
theorem ContainerReadAs.readAs {result : Except Failure Json} (reads : ContainerReadAs t result) : ReadAs t result :=
  fun fuel rest enough _ => reads fuel rest enough
theorem readAs_head {result : Except Failure Json} {u : Text} (begins : t = c :: u)
    (reads : ∀ fuel rest, Ends rest → readValue (fuel + 1) (t ++ rest) = result.map fun value => (value,rest)) : ReadAs t result := by
  intro fuel rest enough ends
  rw [begins,length_cons] at enough
  obtain ⟨less,rfl⟩ := Nat.exists_eq_succ_of_ne_zero (n := fuel) (by omega)
  exact reads less rest ends
theorem number_begins (number : Number) : ∃ c u, number.source = c :: u ∧ 45 ≤ c ∧ c ≤ 57 := by
  obtain ⟨c,u,begins,bounds⟩ := number_head number.isMinus number.isWhole (number.fraction ++ number.exponent)
  exact ⟨c,u,by rw [← begins,Number.source,append_assoc (number.minus ++ number.whole)],bounds⟩

theorem number_read (number : Number) : ReadAs number.source (if number.long then .error .digits else .ok number.value) := by
  obtain ⟨c,u,begins,_⟩ := number_begins number
  refine readAs_head begins ?_
  intro fuel rest ends
  obtain ⟨minus,whole,fraction,exponent,isMinus,isWhole,isFraction,isExponent⟩ := number
  have stopsRest : ∀ c ∈ rest.head?, asciiDigit c = false := fun c member => (ends c member).2.2.2
  have stopsExponent : ∀ c ∈ (exponent ++ rest).head?, c ≠ 46 ∧ asciiDigit c = false := by
    rcases isExponent with rfl | ⟨mark,sign,c,t,rfl,isMark,_⟩
    · exact fun c member => ⟨(ends c member).1,(ends c member).2.2.2⟩
    · rintro d ⟨⟩
      rcases isMark with rfl | rfl
      · exact ⟨by decide,by decide⟩
      · exact ⟨by decide,by decide⟩
  have fractionRead : fractionPart (fraction ++ (exponent ++ rest)) = (fraction,exponent ++ rest) := by
    rcases isFraction with rfl | ⟨c,t,rfl,digit,all⟩
    · exact fractionPart_ends fun c member => (stopsExponent c member).1
    · exact fractionPart_digits digit all fun c member => (stopsExponent c member).2
  have exponentRead : exponentPart (exponent ++ rest) = (exponent,rest) := by
    rcases isExponent with rfl | ⟨mark,sign,c,t,rfl,isMark,isSign,digit,all⟩
    · exact exponentPart_ends fun c member => ⟨(ends c member).2.1,(ends c member).2.2.1⟩
    · exact exponentPart_mark isMark isSign digit all stopsRest
  have stops : ∀ c ∈ (fraction ++ (exponent ++ rest)).head?, asciiDigit c = false := by
    rcases isFraction with rfl | ⟨c,t,rfl,_,_⟩
    · exact fun c member => (stopsExponent c member).2
    · rintro d ⟨⟩
      decide
  simp only [Number.source,Number.value,Number.long]
  rw [append_assoc (minus ++ whole ++ fraction),append_assoc (minus ++ whole),readValue_number isMinus isWhole,
    readNumber_parts isMinus isWhole stops,fractionRead]
  dsimp only
  rw [exponentRead]
  by_cases isInteger : fraction = [] ∧ exponent = []
  · obtain ⟨rfl,rfl⟩ := isInteger
    by_cases long : maxDigits < whole.length
    · simp [long,Except.map]
    · simp [long,Except.map]
  · have short : ¬ (fraction = [] ∧ exponent = [] ∧ maxDigits < whole.length) := fun long => isInteger ⟨long.1,long.2.1⟩
    rw [if_neg isInteger,if_neg isInteger,if_neg short]
    rfl

variable {blank : Text}

theorem ends_blank (isBlank : Blank blank) (rest : Text) (isMark : mark = 44 ∨ mark = 93 ∨ mark = 125) :
    Ends (blank ++ mark :: rest) := by
  cases blank with
  | nil =>
    rintro d ⟨⟩
    rcases isMark with rfl | rfl | rfl <;> decide
  | cons c blank =>
    rintro d ⟨⟩
    have space := isBlank c mem_cons_self
    simp only [whitespace,Bool.or_eq_true,beq_iff_eq] at space
    rcases space with ((rfl | rfl) | rfl) | rfl
    all_goals decide

theorem skip_mark (isBlank : Blank blank) (visible : whitespace c = false) (rest : Text) :
    skip (blank ++ c :: rest) = c :: rest := by
  rw [skip_blanks isBlank,skip_head visible]

theorem written_head {value : Json} (written : Written t value) :
    ∃ c u, t = c :: u ∧ whitespace c = false ∧ c ≠ 93 ∧ c < 128 := by
  cases written with
  | word member =>
    rw [words_spelled] at member
    simp only [mem_cons,Prod.mk.injEq,not_mem_nil,or_false] at member
    rcases member with ⟨rfl,_⟩ | ⟨rfl,_⟩ | ⟨rfl,_⟩ | ⟨rfl,_⟩ | ⟨rfl,_⟩ | ⟨rfl,_⟩
    all_goals exact ⟨_,_,rfl,by decide,by decide,by decide⟩
  | number number =>
    obtain ⟨c,u,begins,bounds⟩ := number_begins number
    refine ⟨c,u,begins,?_,by omega,by omega⟩
    simp only [whitespace,Bool.or_eq_false_iff,beq_eq_false_iff_ne]
    omega
  | _ => exact ⟨_,_,rfl,by decide,by decide,by decide⟩

variable {items : List Json}

theorem items_head (isBody : Items t items) : ∃ c u, t = c :: u ∧ whitespace c = false ∧ c ≠ 93 := by
  cases isBody with
  | last written _ =>
    obtain ⟨c,u,rfl,visible,differs,_⟩ := written_head written
    exact ⟨c,_,rfl,visible,differs⟩
  | more written _ _ _ =>
    obtain ⟨c,u,rfl,visible,differs,_⟩ := written_head written
    exact ⟨c,_,rfl,visible,differs⟩

variable {found : List (Text × Json)}

theorem entries_head (isBody : Entries t found) : ∃ u, t = 34 :: u := by
  cases isBody with
  | last isEntry _ =>
    cases isEntry
    exact ⟨_,rfl⟩
  | more isEntry _ _ _ =>
    cases isEntry
    exact ⟨_,rfl⟩

theorem word_read {word : Text} {value : Json} (member : (word,value) ∈ words) : ReadAs word (.ok value) := by
  obtain ⟨c,u,begins,_⟩ := written_head (.word member)
  exact readAs_head begins fun fuel rest _ => readValue_word member rest fuel

theorem text_read {source value : Text} (characters : Characters source value) :
    ContainerReadAs (34 :: source ++ [34]) (.ok (.text value)) := by
  intro fuel rest enough
  simp only [length_append,length_cons,length_nil] at enough
  obtain ⟨less,rfl⟩ := Nat.exists_eq_succ_of_ne_zero (n := fuel) (by omega)
  have read := readText_characters characters rest (show source.length < less by omega)
  rw [append_assoc,cons_append,singleton_append,readValue,if_pos (show 34 = '"'.toNat from rfl),read]
  rfl

variable {body : Text}

theorem array_read {result : Except Failure (List Json)} (isBlank : Blank blank) (isBody : Items body items)
    (reads : ItemsReadAs body result) : ContainerReadAs (91 :: blank ++ body ++ [93]) (result.map .array) := by
  obtain ⟨c,u,begins,visible,differs⟩ := items_head isBody
  intro fuel rest enough
  simp only [length_append,length_cons,length_nil] at enough
  obtain ⟨less,rfl⟩ := Nat.exists_eq_succ_of_ne_zero (n := fuel) (by omega)
  have skipped : skip (blank ++ (body ++ 93 :: rest)) = body ++ 93 :: rest := by
    rw [begins]
    exact skip_mark isBlank visible _
  have body := reads less [] rest (by omega)
  rw [append_assoc,append_assoc,cons_append,singleton_append,readValue,if_neg (by decide),
    if_pos (show 91 = '['.toNat from rfl),skipped]
  rw [begins] at body ⊢
  refine (if_neg differs).trans (body.trans ?_)
  cases result <;> rfl

theorem object_body {result : Except Failure (List (Text × Json))} (isBlank : Blank blank) (isBody : Entries body found)
    (reads : EntriesReadAs body result) :
    ContainerReadAs (123 :: blank ++ body ++ [125]) (result.map fun found => .object (collected [] found)) := by
  obtain ⟨u,begins⟩ := entries_head isBody
  intro fuel rest enough
  simp only [length_append,length_cons,length_nil] at enough
  obtain ⟨less,rfl⟩ := Nat.exists_eq_succ_of_ne_zero (n := fuel) (by omega)
  have skipped : skip (blank ++ (body ++ 125 :: rest)) = body ++ 125 :: rest := by
    rw [begins]
    exact skip_mark isBlank (by decide) _
  have body := reads less [] rest (by omega)
  rw [append_assoc,append_assoc,cons_append,singleton_append,readValue,if_neg (by decide),
    if_neg (by decide),if_pos (show 123 = '{'.toNat from rfl),skipped]
  rw [begins] at body ⊢
  refine (if_neg (by decide)).trans (body.trans ?_)
  cases result <;> rfl

theorem emptyArray_read (isBlank : Blank blank) : ContainerReadAs (91 :: blank ++ [93]) (.ok (.array [])) := by
  intro fuel rest enough
  obtain ⟨less,rfl⟩ := Nat.exists_eq_succ_of_ne_zero (n := fuel) (by simp at enough; omega)
  rw [append_assoc,cons_append,singleton_append,readValue,if_neg (by decide),
    if_pos (show 91 = '['.toNat from rfl),skip_mark isBlank (by decide)]
  rfl
theorem emptyObject_read (isBlank : Blank blank) : ContainerReadAs (123 :: blank ++ [125]) (.ok (.object [])) := by
  intro fuel rest enough
  obtain ⟨less,rfl⟩ := Nat.exists_eq_succ_of_ne_zero (n := fuel) (by simp at enough; omega)
  rw [append_assoc,cons_append,singleton_append,readValue,if_neg (by decide),if_neg (by decide),
    if_pos (show 123 = '{'.toNat from rfl),skip_mark isBlank (by decide)]
  rfl

variable {acc : List Json} {after : Text}

theorem readItems_next {value : Json} (read : readValue fuel t = .ok (value,after)) (mark : skip after = c :: rest) :
    readItems (fuel + 1) acc t =
      if c = 93 then .ok (.array (acc ++ [value]),rest)
      else if c = 44 then readItems fuel (acc ++ [value]) (skip rest)
      else .error .decode := by
  rw [readItems]
  simp only [read,bind,Except.bind,mark]
  rfl

theorem readItems_failed {failure : Failure} (read : readValue fuel t = .error failure) :
    readItems (fuel + 1) acc t = .error failure := by
  rw [readItems]
  simp only [read,bind,Except.bind]

variable {source : Text} {result : Except Failure Json}

theorem items_last (reads : ReadAs source result) (isBlank : Blank blank) :
    ItemsReadAs (source ++ blank) (result.map fun value => [value]) := by
  intro fuel acc rest enough
  rw [length_append] at enough
  obtain ⟨less,rfl⟩ := Nat.exists_eq_succ_of_ne_zero (n := fuel) (by omega)
  have first := reads less (blank ++ 93 :: rest) (by omega) (ends_blank isBlank rest (.inr (.inl rfl)))
  rw [append_assoc]
  cases result with
  | ok value =>
    rw [readItems_next first (skip_mark isBlank (by decide) rest),if_pos rfl]
    rfl
  | error failure =>
    rw [readItems_failed first]
    rfl

theorem items_more {others : Except Failure (List Json)} (reads : ReadAs source result)
    (isBlank : Blank blank) (isAfter : Blank after) (isBody : Items body items) (later : ItemsReadAs body others) :
    ItemsReadAs (source ++ (blank ++ 44 :: (after ++ body))) (result.bind fun value => others.map fun items => value :: items) := by
  obtain ⟨c,u,begins,visible,_⟩ := items_head isBody
  intro fuel acc rest enough
  simp only [length_append,length_cons] at enough
  obtain ⟨less,rfl⟩ := Nat.exists_eq_succ_of_ne_zero (n := fuel) (by omega)
  have first := reads less (blank ++ 44 :: (after ++ body ++ 93 :: rest)) (by omega) (ends_blank isBlank _ (.inl rfl))
  have shape : source ++ (blank ++ 44 :: (after ++ body)) ++ 93 :: rest = source ++ (blank ++ 44 :: (after ++ body ++ 93 :: rest)) := by
    simp
  rw [shape]
  cases result with
  | ok value =>
    have skipped : skip (after ++ body ++ 93 :: rest) = body ++ 93 :: rest := by
      rw [begins,append_assoc]
      exact skip_mark isAfter visible _
    rw [readItems_next first (skip_mark isBlank (by decide) _),if_neg (by decide),if_pos rfl,skipped,
      later less (acc ++ [value]) rest (by omega)]
    cases others with
    | ok items => simp [Except.map,Except.bind]
    | error failure => rfl
  | error failure =>
    rw [readItems_failed first]
    rfl

variable {key : Text}

theorem entry_read {characters : Text} {value : Json} (isKey : Characters characters key)
    (isBlank : Blank blank) (isAfter : Blank after) (written : Written source value) (reads : ReadAs source result) :
    EntryReadAs (34 :: (characters ++ 34 :: (blank ++ 58 :: (after ++ source)))) key result := by
  obtain ⟨c,u,begins,visible,_⟩ := written_head written
  intro fuel acc behind mark rest enough isBehind isMark
  simp only [length_append,length_cons] at enough
  have readKey := readText_characters isKey (blank ++ 58 :: (after ++ (source ++ (behind ++ mark :: rest))))
    (show characters.length < fuel by omega)
  have colon : skip (blank ++ 58 :: (after ++ (source ++ (behind ++ mark :: rest)))) = 58 :: (after ++ (source ++ (behind ++ mark :: rest))) :=
    skip_mark isBlank (by decide) _
  have skipped : skip (after ++ (source ++ (behind ++ mark :: rest))) = source ++ (behind ++ mark :: rest) := by
    rw [begins]
    exact skip_mark isAfter visible _
  have ends : Ends (behind ++ mark :: rest) := ends_blank isBehind rest (isMark.imp_right .inr)
  have first := reads fuel (behind ++ mark :: rest) (by omega) ends
  have seen : whitespace mark = false := by rcases isMark with rfl | rfl <;> decide
  have found := skip_mark isBehind seen rest
  have shape : 34 :: (characters ++ 34 :: (blank ++ 58 :: (after ++ source))) ++ (behind ++ mark :: rest) =
      34 :: (characters ++ 34 :: (blank ++ 58 :: (after ++ (source ++ (behind ++ mark :: rest))))) := by simp
  rw [shape,readEntries,if_pos (show 34 = '"'.toNat from rfl)]
  cases result with
  | ok value =>
    simp only [readKey,bind,Except.bind,colon,skipped,first,Except.map,found]
    rcases isMark with rfl | rfl
    · rfl
    · rfl
  | error failure =>
    simp only [readKey,bind,Except.bind,colon,skipped,first,Except.map]
    rfl

theorem entries_last (reads : EntryReadAs source key result) (isBlank : Blank blank) :
    EntriesReadAs (source ++ blank) (result.map fun value => [(key,value)]) := by
  intro fuel acc rest enough
  rw [length_append] at enough
  obtain ⟨less,rfl⟩ := Nat.exists_eq_succ_of_ne_zero (n := fuel) (by omega)
  rw [append_assoc,reads less acc blank 125 rest (by omega) isBlank (.inr rfl)]
  cases result <;> rfl

theorem entries_more {others : Except Failure (List (Text × Json))} (reads : EntryReadAs source key result)
    (isBlank : Blank blank) (isAfter : Blank after) (isBody : Entries body found) (later : EntriesReadAs body others) :
    EntriesReadAs (source ++ (blank ++ 44 :: (after ++ body)))
      (result.bind fun value => others.map fun found => (key,value) :: found) := by
  obtain ⟨u,begins⟩ := entries_head isBody
  intro fuel acc rest enough
  simp only [length_append,length_cons] at enough
  obtain ⟨less,rfl⟩ := Nat.exists_eq_succ_of_ne_zero (n := fuel) (by omega)
  have shape : source ++ (blank ++ 44 :: (after ++ body)) ++ 125 :: rest = source ++ (blank ++ 44 :: (after ++ body ++ 125 :: rest)) := by
    simp
  have skipped : skip (after ++ body ++ 125 :: rest) = body ++ 125 :: rest := by
    rw [begins,append_assoc]
    exact skip_mark isAfter (by decide) _
  rw [shape,reads less acc blank 44 _ (by omega) isBlank (.inl rfl)]
  cases result with
  | ok value =>
    simp only [Except.bind]
    rw [if_neg (by decide),skipped,later less (putEntry acc key value) rest (by omega)]
    cases others <;> rfl
  | error failure => rfl

mutual

/-- What the rules derive is read as its value, or has an integer of too many digits. -/
theorem written_read : ∀ {t : Text} {value : Json}, Written t value → ValueRead t value
  | _, _, .word member => ⟨_,.inl rfl,word_read member⟩
  | _, _, .number number => by
    refine ⟨_,?_,number_read number⟩
    split
    · exact .inr rfl
    · exact .inl rfl
  | _, _, .text characters => ⟨_,.inl rfl,(text_read characters).readAs⟩
  | _, _, .emptyArray isBlank => ⟨_,.inl rfl,(emptyArray_read isBlank).readAs⟩
  | _, _, .array isBlank isBody => by
    obtain ⟨result,outcome,reads⟩ := items_read isBody
    exact ⟨_,outcome_map Json.array outcome,(array_read isBlank isBody reads).readAs⟩
  | _, _, .emptyObject isBlank => ⟨_,.inl rfl,(emptyObject_read isBlank).readAs⟩
  | _, _, .object isBlank isBody => by
    obtain ⟨result,outcome,reads⟩ := entries_read isBody
    exact ⟨_,outcome_map (fun found => Json.object (collected [] found)) outcome,(object_body isBlank isBody reads).readAs⟩

theorem items_read : ∀ {t : Text} {items : List Json}, Items t items → ItemsRead t items
  | _, _, .last written isBlank => by
    obtain ⟨result,outcome,reads⟩ := written_read written
    exact ⟨_,outcome_map (fun value => [value]) outcome,items_last reads isBlank⟩
  | _, _, .more written isBlank isAfter isBody => by
    obtain ⟨result,outcome,reads⟩ := written_read written
    obtain ⟨others,also,later⟩ := items_read isBody
    exact ⟨_,outcome_bind (fun value items => value :: items) outcome also,items_more reads isBlank isAfter isBody later⟩

theorem entries_read : ∀ {t : Text} {found : List (Text × Json)}, Entries t found → EntriesRead t found
  | _, _, @Entries.last _ key _ _ (.entry isKey isGap isAfter written) isBlank => by
    obtain ⟨result,outcome,reads⟩ := written_read written
    exact ⟨_,outcome_map (fun value => [(key,value)]) outcome,entries_last (entry_read isKey isGap isAfter written reads) isBlank⟩
  | _, _, @Entries.more _ key _ _ _ _ _ (.entry isKey isGap isBehind written) isBlank isAfter isBody => by
    obtain ⟨result,outcome,reads⟩ := written_read written
    obtain ⟨others,also,later⟩ := entries_read isBody
    exact ⟨_,outcome_bind (fun value found => (key,value) :: found) outcome also,
      entries_more (entry_read isKey isGap isBehind written reads) isBlank isAfter isBody later⟩

end

variable {entries : List (Text × Json)}

theorem object_cases (written : Written t (.object entries)) :
    (∃ blank, Blank blank ∧ t = 123 :: blank ++ [125] ∧ entries = []) ∨
      ∃ blank body found, Blank blank ∧ Entries body found ∧ t = 123 :: blank ++ body ++ [125] ∧ entries = collected [] found := by
  generalize same : Json.object entries = value at written
  cases written with
  | word member =>
    rw [words_spelled,← same] at member
    simp at member
  | number number =>
    unfold Number.value at same
    split_ifs at same
  | emptyObject isBlank =>
    cases same
    exact .inl ⟨_,isBlank,rfl,rfl⟩
  | object isBlank isBody =>
    cases same
    exact .inr ⟨_,_,_,isBlank,isBody,rfl,rfl⟩
  | _ => cases same

/-- An object is read whatever follows it. -/
theorem object_read (written : Written t (.object entries)) : ContainerRead t (.object entries) := by
  rcases object_cases written with ⟨blank,isBlank,rfl,rfl⟩ | ⟨blank,body,found,isBlank,isBody,rfl,rfl⟩
  · exact ⟨_,.inl rfl,emptyObject_read isBlank⟩
  · obtain ⟨result,outcome,reads⟩ := entries_read isBody
    exact ⟨_,outcome_map (fun found => Json.object (collected [] found)) outcome,object_body isBlank isBody reads⟩
theorem quad_unit (small : n < 0x10000) : Quad ((escapeUnit n).drop 2) n := by
  have digit : ∀ k, hexDigit (hexChar (k % 16)) = some (k % 16) := fun k => hexDigit_hexChar _ (Nat.mod_lt _ (by decide))
  refine ⟨rfl,?_⟩
  simp only [escapeUnit,drop_succ_cons,drop_zero,hexQuad,digit,Option.bind_eq_bind,Option.bind_some,Option.some.injEq,Prod.mk.injEq,
    and_true]
  omega

theorem lowHalf_escape (codePoint : c < 0x110000) (notLow : low c = false) (rest : Text) : lowHalf (escapeChar c ++ rest) = none := by
  have escaped := escapeChar_escaped c
  generalize escapeChar c = written at escaped ⊢
  cases escaped with
  | letter letter stands =>
    have differs : letter ≠ 117 := fun same => absurd (letterEscape_letter stands) (same ▸ by decide)
    simp [lowHalf,escape_mark,afterPrefix,Ne.symm differs]
  | plain _ _ noBackslash => simp [lowHalf,escape_mark,afterPrefix,Ne.symm noBackslash]
  | unit small => exact (lowHalf_quad (quad_unit small) rest).trans (by rw [notLow]; rfl)
  | pair =>
    have first : 0xD800 + (c - 0x10000) / 0x400 < 0xDC00 := by omega
    rw [append_assoc]
    refine (lowHalf_quad (quad_unit (by omega)) _).trans ?_
    simp [low,first]

theorem characters_dump (separate : Separate t) : Characters (t.flatMap escapeChar) t := by
  induction t with
  | nil => exact .done
  | cons c t ih =>
    have later : Separate t := by
      refine ⟨fun d member => separate.codePoints d (mem_cons_of_mem c member),?_⟩
      cases t with
      | nil => exact .nil
      | cons d t => exact (isChain_cons_cons.mp separate.apart).2
    have apart : high c → lowHalf (t.flatMap escapeChar) = none := by
      intro isHigh
      cases t with
      | nil => rfl
      | cons d t =>
        rw [flatMap_cons]
        exact lowHalf_escape (separate.codePoints d (by simp)) ((isChain_cons_cons.mp separate.apart).1 isHigh) _
    have codePoint := separate.codePoints c mem_cons_self
    have escaped := escapeChar_escaped c
    rw [flatMap_cons]
    generalize escapeChar c = written at escaped ⊢
    cases escaped with
    | letter letter stands => exact .letter stands (ih later)
    | plain printable noQuote noBackslash => exact .plain printable.1 noQuote noBackslash (ih later)
    | unit small => exact .unit (quad_unit small) apart (ih later)
    | pair large =>
      -- the second unit is the low half of the first
      have joined : c = 0x10000 + (0xD800 + (c - 0x10000) / 0x400 - 0xD800) * 0x400 + (0xDC00 + (c - 0x10000) % 0x400 - 0xDC00) := by
        omega
      have isHigh : high (0xD800 + (c - 0x10000) / 0x400) := by
        simp only [high,Bool.and_eq_true,decide_eq_true_eq]
        omega
      have isLow : low (0xDC00 + (c - 0x10000) % 0x400) := by
        simp only [low,Bool.and_eq_true,decide_eq_true_eq]
        omega
      have read := Characters.pair (quad_unit (by omega)) isHigh (quad_unit (by omega)) isLow (ih later)
      rw [← joined] at read
      exact read

theorem collected_new {acc found : List (Text × Json)} (once : ((acc ++ found).map Prod.fst).Nodup) : collected acc found = acc ++ found := by
  induction found generalizing acc with
  | nil => exact (append_nil acc).symm
  | cons entry rest ih =>
    have isNew : entry.1 ∉ acc.map Prod.fst := by
      rw [map_append] at once
      exact fun member => (disjoint_of_nodup_append once) member mem_cons_self
    have longer := @ih (acc ++ [entry]) (by rw [append_assoc]; exact once)
    rw [append_assoc] at longer
    exact (congrArg (fun acc => collected acc rest) (putEntry_new entry.2 isNew)).trans longer

variable (separators : Separators)
theorem blank_item : Blank separators.item := fun c member => separators.blank c (mem_append_left _ member)
theorem blank_key : Blank separators.key := fun c member => separators.blank c (mem_append_right _ member)
/-- The text is derived for the value, and is read as the value. -/
def Read (t : Text) (value : Json) : Prop := Written t value ∧ ReadAs t (.ok value)
theorem read_word {word : Text} {value : Json} (member : (word,value) ∈ words) : Read word value := ⟨.word member,word_read member⟩

theorem read_integer {k : Int} (few : (natText k.natAbs).length ≤ maxDigits) : Read (dumpInteger k) (.integer k) := by
  have number : ∀ minus : Text, minus = [] ∨ minus = [45] → Read (minus ++ natText k.natAbs)
      (.integer (if minus = [45] then -(k.natAbs : Int) else k.natAbs)) := by
    intro minus isMinus
    have written := Written.number ⟨minus,natText k.natAbs,[],[],isMinus,natText_whole _,.inl rfl,.inl rfl⟩
    have read := number_read ⟨minus,natText k.natAbs,[],[],isMinus,natText_whole _,.inl rfl,.inl rfl⟩
    simp only [Number.source,Number.value,Number.long,append_nil,and_self,if_true,true_and,if_neg (Nat.not_lt.mpr few),decimal_natText]
      at written read
    exact ⟨written,read⟩
  unfold dumpInteger
  split_ifs with negative
  · have same : -(k.natAbs : Int) = k := by omega
    have read := number [45] (.inr rfl)
    rw [if_pos rfl,same] at read
    exact read
  · have same : (k.natAbs : Int) = k := by omega
    have read := number [] (.inl rfl)
    rw [if_neg (by decide),same] at read
    exact read

theorem read_float {source : Text} (isFloat : FloatText source) : Read source (.float source) := by
  obtain ⟨minus,whole,fraction,exponent,rfl,isMinus,isWhole,isFraction,isExponent,noInteger⟩ := isFloat.parts
  have marked : exponent = [] ∨ ∃ mark sign c t, exponent = mark :: sign ++ c :: t ∧ (mark = 101 ∨ mark = 69) ∧
      (sign = [] ∨ sign = [43] ∨ sign = [45]) ∧ asciiDigit c ∧ ∀ d ∈ t, asciiDigit d := by
    rcases isExponent with none | ⟨sign,c,t,same,isSign,digits⟩
    · exact .inl none
    · exact .inr ⟨101,sign,c,t,same,.inl rfl,isSign,digits⟩
  have written := Written.number ⟨minus,whole,fraction,exponent,isMinus,isWhole,isFraction,marked⟩
  have read := number_read ⟨minus,whole,fraction,exponent,isMinus,isWhole,isFraction,marked⟩
  have short : ¬ (fraction = [] ∧ exponent = [] ∧ maxDigits < whole.length) := fun long => noInteger ⟨long.1,long.2.1⟩
  simp only [Number.source,Number.value,Number.long,if_neg noInteger,if_neg short] at written read
  exact ⟨written,read⟩

theorem blank_nil : Blank [] := by
  intro c member
  cases member
theorem dump_entry (key : Text) (value : Json) : dumpText key ++ 58 :: separators.key ++ dumps separators value =
    34 :: (key.flatMap escapeChar ++ 34 :: ([] ++ 58 :: (separators.key ++ dumps separators value))) := by
  simp [dumpText]

mutual

theorem dumps_read : ∀ value : Json, Writable value → Read (dumps separators value) value
  | .null, _ => by
    rw [dumps]
    exact read_word (by simp [words])
  | .bool true, _ => by
    rw [dumps]
    exact read_word (by simp [words])
  | .bool false, _ => by
    rw [dumps]
    exact read_word (by simp [words])
  | .integer n, few => read_integer few
  | .float source, writable => by
    rw [dumps]
    rcases writable with isFloat | special
    · exact read_float isFloat
    · refine read_word ?_
      simp only [specials,mem_cons,not_mem_nil,or_false] at special
      rcases special with rfl | rfl | rfl <;> simp [words]
  | .text t, separate => ⟨.text (characters_dump separate),(text_read (characters_dump separate)).readAs⟩
  | .array [], _ => ⟨.emptyArray blank_nil,(emptyArray_read blank_nil).readAs⟩
  | .array (item :: items), writable => by
    obtain ⟨isBody,reads⟩ := dumpItems_read (item :: items) (cons_ne_nil _ _) writable
    exact ⟨.array blank_nil isBody,(array_read blank_nil isBody reads).readAs⟩
  | .object [], _ => ⟨.emptyObject blank_nil,(emptyObject_read blank_nil).readAs⟩
  | .object (entry :: entries), writable => by
    obtain ⟨isBody,reads⟩ := dumpEntries_read (entry :: entries) (cons_ne_nil _ _) writable.2
    have same : collected [] (entry :: entries) = entry :: entries := collected_new writable.1
    have written := Written.object blank_nil isBody
    have read := (object_body blank_nil isBody reads).readAs
    simp only [Except.map,same] at written read
    exact ⟨written,read⟩

theorem dumpItems_read : ∀ items : List Json, items ≠ [] → WritableItems items →
    Items (dumpItems separators items) items ∧ ItemsReadAs (dumpItems separators items) (.ok items)
  | [], filled, _ => absurd rfl filled
  | [item], _, writable => by
    obtain ⟨written,read⟩ := dumps_read item writable.1
    have isBody := Items.last written blank_nil
    have reads := items_last read blank_nil
    rw [append_nil] at isBody reads
    exact ⟨isBody,reads⟩
  | item :: next :: items, _, writable => by
    obtain ⟨written,read⟩ := dumps_read item writable.1
    obtain ⟨isBody,later⟩ := dumpItems_read (next :: items) (cons_ne_nil _ _) writable.2
    rw [dumpItems,append_assoc,cons_append]
    exact ⟨.more written blank_nil (blank_item separators) isBody,items_more read blank_nil (blank_item separators) isBody later⟩

theorem dumpEntries_read : ∀ entries : List (Text × Json), entries ≠ [] → WritableEntries entries →
    Entries (dumpEntries separators entries) entries ∧ EntriesReadAs (dumpEntries separators entries) (.ok entries)
  | [], filled, _ => absurd rfl filled
  | [(key,value)], _, writable => by
    obtain ⟨written,read⟩ := dumps_read value writable.2.1
    have isEntry := Entry.entry (characters_dump writable.1) blank_nil (blank_key separators) written
    have isRead := entry_read (characters_dump writable.1) blank_nil (blank_key separators) written read
    rw [← dump_entry] at isEntry isRead
    have isBody := Entries.last isEntry blank_nil
    have reads := entries_last isRead blank_nil
    rw [append_nil] at isBody reads
    exact ⟨isBody,reads⟩
  | (key,value) :: next :: entries, _, writable => by
    obtain ⟨written,read⟩ := dumps_read value writable.2.1
    obtain ⟨isBody,later⟩ := dumpEntries_read (next :: entries) (cons_ne_nil _ _) writable.2.2
    have isEntry := Entry.entry (characters_dump writable.1) blank_nil (blank_key separators) written
    have isRead := entry_read (characters_dump writable.1) blank_nil (blank_key separators) written read
    rw [← dump_entry] at isEntry isRead
    rw [dumpEntries,append_assoc (_ ++ dumps separators value),cons_append]
    exact ⟨.more isEntry blank_nil (blank_item separators) isBody,entries_more isRead blank_nil (blank_item separators) isBody later⟩

end

/-- What is written of a value reads back as the value. -/
theorem loads_dumps {value : Json} (writable : Writable value) : loads (dumps separators value) = .ok value := by
  obtain ⟨written,reads⟩ := dumps_read separators value writable
  obtain ⟨c,u,begins,visible,_,isAscii⟩ := written_head written
  have read := reads (2 * (dumps separators value).length + 2) [] (by omega) fun d member => nomatch member
  have unmarked : ¬ (dumps separators value).head? = some 0xFEFF := by
    rw [begins]
    rintro ⟨⟩
    omega
  have skipped : skip (dumps separators value) = dumps separators value := by
    rw [begins]
    exact skip_head visible
  rw [append_nil] at read
  rw [loads,if_neg unmarked,skipped]
  simp only [read,bind,Except.bind]
  rfl

variable {separators : Separators}
theorem dumps_injective {value other : Json} (writable : Writable value) (also : Writable other)
    (same : dumps separators value = dumps separators other) : value = other := by
  have read := loads_dumps separators writable
  rw [same,loads_dumps separators also] at read
  exact (Except.ok.inj read).symm

end Codebot.JsonGrammar
