import Codebot.Texts

/-!
The JSON that `json.loads` reads: besides the standard's values the three numbers
that are not finite, texts with lone surrogates, and objects whose later entries
replace earlier ones. A text that is no JSON fails to decode; an integer of too many
digits fails with another error.
-/
namespace Codebot.JsonTexts
open Texts

/-- A value. Numbers that are no integers are kept as they are written. -/
inductive Json
  | null
  | bool (value : Bool)
  | integer (value : Int)
  | float (source : Text)
  | text (value : Text)
  | array (items : List Json)
  | object (entries : List (Text × Json))

/-- `JSONDecodeError`, and the `ValueError` for an integer of too many digits. -/
inductive Failure
  | decode
  | digits
deriving DecidableEq
def whitespace (c : Nat) : Bool := c == 32 || c == 9 || c == 10 || c == 13
def skip (t : Text) : Text := t.dropWhile whitespace
def hexDigit (c : Nat) : Option Nat :=
  if asciiDigit c then some (c - 48)
  else if between 'a' 'f' c then some (c - 87)
  else if between 'A' 'F' c then some (c - 55)
  else none

/-- Four hexadecimal digits. -/
def hexQuad : Text → Option (Nat × Text)
  | a :: b :: c :: d :: rest => do
    let a ← hexDigit a
    let b ← hexDigit b
    let c ← hexDigit c
    let d ← hexDigit d
    some (((16 * a + b) * 16 + c) * 16 + d,rest)
  | _ => none

def lowHalf (t : Text) : Option (Nat × Text) := do
  let rest ← afterPrefix (text "\\u") t
  let read ← hexQuad rest
  if 0xDC00 ≤ read.1 ∧ read.1 ≤ 0xDFFF then some read else none

/-- The code point after `\u`, of which two surrogates make one. -/
def unicodeEscape (t : Text) : Option (Nat × Text) := do
  let read ← hexQuad t
  if 0xD800 ≤ read.1 ∧ read.1 ≤ 0xDBFF then
    match lowHalf read.2 with
    | some low => some (0x10000 + (read.1 - 0xD800) * 0x400 + (low.1 - 0xDC00),low.2)
    | none => some read
  else some read

/-- The code point that a one-letter escape stands for. -/
def letterEscape (c : Nat) : Option Nat :=
  if c = '"'.toNat ∨ c = '\\'.toNat ∨ c = '/'.toNat then some c
  else if c = 'b'.toNat then some 8
  else if c = 'f'.toNat then some 12
  else if c = 'n'.toNat then some 10
  else if c = 'r'.toNat then some 13
  else if c = 't'.toNat then some 9
  else none

/-- The rest of a text after its opening quote. -/
def readText : Nat → Text → Except Failure (Text × Text)
  | 0, _ => .error .decode
  | _ + 1, [] => .error .decode
  | fuel + 1, c :: rest =>
    if c = '"'.toNat then .ok ([],rest)
    else if c = '\\'.toNat then
      match rest with
      | [] => .error .decode
      | d :: rest =>
        match if d = 'u'.toNat then unicodeEscape rest else (letterEscape d).map fun c => (c,rest) with
        | some (c,rest) => (readText fuel rest).map fun read => (c :: read.1,read.2)
        | none => .error .decode
    else if c < 32 then .error .decode
    else (readText fuel rest).map fun read => (c :: read.1,read.2)

/-- The digits of the integer part: no zero before other digits. -/
def integerPart (t : Text) : Option (Text × Text) :=
  match t with
  | c :: rest =>
    if c = '0'.toNat then some ([c],rest)
    else if asciiDigit c then some (c :: rest.takeWhile asciiDigit,rest.dropWhile asciiDigit)
    else none
  | [] => none

/-- A fraction, where one is written. -/
def fractionPart (t : Text) : Text × Text :=
  match t with
  | c :: d :: rest =>
    if c = '.'.toNat ∧ asciiDigit d then
      (c :: d :: rest.takeWhile asciiDigit,rest.dropWhile asciiDigit)
    else ([],t)
  | _ => ([],t)

/-- An exponent, where one is written. -/
def exponentPart (t : Text) : Text × Text :=
  match t with
  | c :: rest =>
    if c = 'e'.toNat ∨ c = 'E'.toNat then
      let signed := rest.takeWhile fun d => d = '+'.toNat || d = '-'.toNat
      let digits := (rest.drop signed.length).takeWhile asciiDigit
      if signed.length ≤ 1 ∧ digits ≠ [] then (c :: signed ++ digits,(rest.drop signed.length).drop digits.length)
      else ([],t)
    else ([],t)
  | [] => ([],t)

/-- The most digits that `int` reads. -/
def maxDigits : Nat := 4300
def decimal (digits : Text) : Nat := digits.foldl (fun number digit => 10 * number + (digit - 48)) 0

def readNumber (t : Text) : Except Failure (Json × Text) :=
  let negative := t.head? = some '-'.toNat
  match integerPart (if negative then t.drop 1 else t) with
  | none => .error .decode
  | some (whole,rest) =>
    let fraction := fractionPart rest
    let exponent := exponentPart fraction.2
    if fraction.1 = [] ∧ exponent.1 = [] then
      if maxDigits < whole.length then .error .digits
      else .ok (.integer (if negative then -(decimal whole : Int) else decimal whole),rest)
    else .ok (.float ((if negative then ['-'.toNat] else []) ++ whole ++ fraction.1 ++ exponent.1),exponent.2)

/-- The values that are written as words. -/
def words : List (Text × Json) :=
  [(text "null",.null),(text "true",.bool true),(text "false",.bool false),(text "NaN",.float (text "NaN")),
    (text "Infinity",.float (text "Infinity")),(text "-Infinity",.float (text "-Infinity"))]
def readWord (t : Text) : Option (Json × Text) :=
  words.findSome? fun word => (afterPrefix word.1 t).map fun rest => (word.2,rest)
/-- `dict` assignment: a key keeps its place and takes the later value. -/
def putEntry (entries : List (Text × Json)) (key : Text) (value : Json) : List (Text × Json) :=
  if entries.any fun entry => entry.1 = key then entries.map fun entry => if entry.1 = key then (key,value) else entry
  else entries ++ [(key,value)]

mutual

def readValue : Nat → Text → Except Failure (Json × Text)
  | 0, _ => .error .decode
  | _ + 1, [] => .error .decode
  | fuel + 1, c :: rest =>
    if c = '"'.toNat then (readText fuel rest).map fun read => (.text read.1,read.2)
    else if c = '['.toNat then
      match skip rest with
      | d :: after => if d = ']'.toNat then .ok (.array [],after) else readItems fuel [] (d :: after)
      | [] => .error .decode
    else if c = '{'.toNat then
      match skip rest with
      | d :: after => if d = '}'.toNat then .ok (.object [],after) else readEntries fuel [] (d :: after)
      | [] => .error .decode
    else
      match readWord (c :: rest) with
      | some read => .ok read
      | none => readNumber (c :: rest)

/-- The items of an array up to its closing bracket. -/
def readItems : Nat → List Json → Text → Except Failure (Json × Text)
  | 0, _, _ => .error .decode
  | fuel + 1, items, t => do
    let value ← readValue fuel t
    match skip value.2 with
    | c :: rest =>
      if c = ']'.toNat then .ok (.array (items ++ [value.1]),rest)
      else if c = ','.toNat then readItems fuel (items ++ [value.1]) (skip rest)
      else .error .decode
    | [] => .error .decode

/-- The entries of an object up to its closing brace. -/
def readEntries : Nat → List (Text × Json) → Text → Except Failure (Json × Text)
  | 0, _, _ => .error .decode
  | fuel + 1, entries, t =>
    match t with
    | quote :: rest =>
      if quote = '"'.toNat then do
        let key ← readText fuel rest
        match skip key.2 with
        | colon :: rest =>
          if colon = ':'.toNat then do
            let value ← readValue fuel (skip rest)
            match skip value.2 with
            | c :: rest =>
              if c = '}'.toNat then .ok (.object (putEntry entries key.1 value.1),rest)
              else if c = ','.toNat then readEntries fuel (putEntry entries key.1 value.1) (skip rest)
              else .error .decode
            | [] => .error .decode
          else .error .decode
        | [] => .error .decode
      else .error .decode
    | [] => .error .decode

end

def loads (t : Text) : Except Failure Json := do
  if t.head? = some 0xFEFF then .error .decode
  else
    let value ← readValue (2 * t.length + 2) (skip t)
    if skip value.2 = [] then .ok value.1 else .error .decode

theorem readWord_single (c : Nat) : readWord [c] = none := by
  have long : ∀ word ∈ words, ∃ d e rest, word.1 = d :: e :: rest := by
    intro word member
    simp only [words,List.mem_cons,List.not_mem_nil,or_false] at member
    rcases member with rfl | rfl | rfl | rfl | rfl | rfl
    all_goals exact ⟨_,_,_,rfl⟩
  rw [readWord,List.findSome?_eq_none_iff]
  intro word member
  obtain ⟨d,e,rest,named⟩ := long word member
  rw [named]
  by_cases same : d = c
  · simp [afterPrefix,same]
  · simp [afterPrefix,same]

theorem readNumber_single (c : Nat) : readNumber [c] = .error .decode ∨ ∃ value, readNumber [c] = .ok (.integer value,[]) := by
  by_cases minus : c = '-'.toNat
  · left
    rw [minus]
    rfl
  · have positive : c ≠ 45 := minus
    by_cases zero : c = '0'.toNat
    · right
      rw [zero]
      exact ⟨0,rfl⟩
    · have leading : c ≠ 48 := zero
      by_cases digit : asciiDigit c
      · right
        refine ⟨decimal [c],?_⟩
        simp [readNumber,positive,integerPart,leading,digit,fractionPart,exponentPart,maxDigits]
      · left
        simp [readNumber,positive,integerPart,leading,digit]

theorem loads_single (c : Nat) : loads [c] = .error .decode ∨ ∃ value, loads [c] = .ok (.integer value) := by
  by_cases mark : c = 0xFEFF
  · left
    rw [mark]
    rfl
  have start : ¬ [c].head? = some 0xFEFF := by simpa using mark
  by_cases blank : whitespace c
  · left
    have skipped : skip [c] = [] := by simp [skip,blank]
    rw [loads,if_neg start,skipped]
    rfl
  have skipped : skip [c] = [c] := by simp [skip,blank]
  by_cases quote : c = '"'.toNat
  · left
    rw [quote]
    rfl
  by_cases bracket : c = '['.toNat
  · left
    rw [bracket]
    rfl
  by_cases brace : c = '{'.toNat
  · left
    rw [brace]
    rfl
  have read : readValue 4 [c] = readNumber [c] := by
    rw [readValue,if_neg quote,if_neg bracket,if_neg brace,readWord_single]
  rcases readNumber_single c with failed | ⟨value,isNumber⟩
  · left
    rw [loads,if_neg start,skipped]
    show (readValue 4 [c] >>= _) = _
    rw [read,failed]
    rfl
  · right
    refine ⟨value,?_⟩
    rw [loads,if_neg start,skipped]
    show (readValue 4 [c] >>= _) = _
    rw [read,isNumber]
    rfl

end Codebot.JsonTexts
