import Codebot.JsonTexts
import Mathlib.Data.List.Sort

/-!
The JSON that `json.dumps` writes, in ASCII, the values that it reads back (`Writable`), and
the order of `sort_keys`.
-/
namespace Codebot.JsonDumps
open Texts JsonTexts List

/-- The blanks after the comma of an item and the colon of a key. -/
structure Separators where
  item : Text
  key : Text
  blank : ∀ c ∈ item ++ key, whitespace c
/-- `separators=(", ", ": ")`. -/
def defaultSeparators : Separators := ⟨[32],[32],by decide⟩
/-- `separators=(",", ":")`. -/
def compactSeparators : Separators := ⟨[],[],by decide⟩
def hexChar (digit : Nat) : Nat := if digit < 10 then 48 + digit else 87 + digit
/-- `'\\u{0:04x}'.format(n)`. -/
def escapeUnit (n : Nat) : Text :=
  [92,117,hexChar (n / 4096 % 16),hexChar (n / 256 % 16),hexChar (n / 16 % 16),hexChar (n % 16)]

/-- `ESCAPE_DCT`, printable ASCII, or one or two units of UTF-16. -/
def escapeChar (c : Nat) : Text :=
  if c = 34 then [92,34]
  else if c = 92 then [92,92]
  else if c = 10 then [92,110]
  else if c = 13 then [92,114]
  else if c = 9 then [92,116]
  else if c = 12 then [92,102]
  else if c = 8 then [92,98]
  else if 32 ≤ c ∧ c < 127 then [c]
  else if c < 0x10000 then escapeUnit c
  else escapeUnit (0xD800 + (c - 0x10000) / 0x400) ++ escapeUnit (0xDC00 + (c - 0x10000) % 0x400)

def dumpText (t : Text) : Text := 34 :: t.flatMap escapeChar ++ [34]
def natText (n : Nat) : Text := (Nat.toDigits 10 n).map Char.toNat
def dumpInteger (n : Int) : Text := if n < 0 then 45 :: natText n.natAbs else natText n.natAbs

mutual

def dumps (separators : Separators) : Json → Text
  | .null => text "null"
  | .bool true => text "true"
  | .bool false => text "false"
  | .integer n => dumpInteger n
  | .float source => source
  | .text t => dumpText t
  | .array items => 91 :: dumpItems separators items ++ [93]
  | .object entries => 123 :: dumpEntries separators entries ++ [125]

def dumpItems (separators : Separators) : List Json → Text
  | [] => []
  | [item] => dumps separators item
  | item :: next :: rest => dumps separators item ++ 44 :: separators.item ++ dumpItems separators (next :: rest)
def dumpEntries (separators : Separators) : List (Text × Json) → Text
  | [] => []
  | [(key,value)] => dumpText key ++ 58 :: separators.key ++ dumps separators value
  | (key,value) :: next :: rest =>
    dumpText key ++ 58 :: separators.key ++ dumps separators value ++ 44 :: separators.item ++ dumpEntries separators (next :: rest)

end

/-- `<=` of texts, by their code points. -/
def atMost : Text → Text → Bool
  | [], _ => true
  | _ :: _, [] => false
  | c :: t, d :: u => c < d || (c == d && atMost t u)

mutual

/-- `sort_keys=True`: the entries of each object in the order of their keys. -/
def sortKeys : Json → Json
  | .array items => .array (sortItems items)
  | .object entries => .object ((sortEntries entries).insertionSort fun one other => atMost one.1 other.1)
  | value => value
def sortItems : List Json → List Json
  | [] => []
  | item :: rest => sortKeys item :: sortItems rest
def sortEntries : List (Text × Json) → List (Text × Json)
  | [] => []
  | (key,value) :: rest => (key,sortKeys value) :: sortEntries rest

end

def high (c : Nat) : Bool := 0xD800 ≤ c && c ≤ 0xDBFF
def low (c : Nat) : Bool := 0xDC00 ≤ c && c ≤ 0xDFFF
/-- Code points, with no high surrogate right before a low one: the two would be read as one. -/
structure Separate (t : Text) : Prop where
  codePoints : ∀ c ∈ t, c < 0x110000
  apart : t.IsChain fun c d => high c → low d = false

variable {t : Text}

theorem separate_ascii (ascii : ∀ c ∈ t, c < 128) : Separate t := by
  refine ⟨fun c member => Nat.lt_trans (ascii c member) (by decide),?_⟩
  induction t with
  | nil => exact .nil
  | cons c t ih =>
    have later := ih fun d member => ascii d (mem_cons_of_mem c member)
    cases t with
    | nil => exact .singleton c
    | cons d t =>
      refine .cons_cons ?_ later
      intro isHigh
      have small : c < 128 := ascii c mem_cons_self
      simp only [high,Bool.and_eq_true,decide_eq_true_eq] at isHigh
      omega

theorem hexDigit_hexChar : ∀ digit < 16, hexDigit (hexChar digit) = some digit := by decide

variable {n : Nat}
theorem escape_mark : text "\\u" = [92,117] := by decide
/-- How a character is written: as a letter after a backslash, as it is, or in units of UTF-16. -/
inductive Escaped (c : Nat) : Text → Prop
  | letter (letter : Nat) (stands : letterEscape letter = some c) : Escaped c [92,letter]
  | plain (printable : 32 ≤ c ∧ c < 127) (noQuote : c ≠ 34) (noBackslash : c ≠ 92) : Escaped c [c]
  | unit (small : c < 0x10000) : Escaped c (escapeUnit c)
  | pair (large : 0x10000 ≤ c) :
      Escaped c (escapeUnit (0xD800 + (c - 0x10000) / 0x400) ++ escapeUnit (0xDC00 + (c - 0x10000) % 0x400))

theorem escapeChar_escaped (c : Nat) : Escaped c (escapeChar c) := by
  unfold escapeChar
  by_cases quote : c = 34
  · rw [if_pos quote,quote]
    exact .letter 34 rfl
  rw [if_neg quote]
  by_cases backslash : c = 92
  · rw [if_pos backslash,backslash]
    exact .letter 92 rfl
  rw [if_neg backslash]
  by_cases feed : c = 10
  · rw [if_pos feed,feed]
    exact .letter 110 rfl
  rw [if_neg feed]
  by_cases carriage : c = 13
  · rw [if_pos carriage,carriage]
    exact .letter 114 rfl
  rw [if_neg carriage]
  by_cases tab : c = 9
  · rw [if_pos tab,tab]
    exact .letter 116 rfl
  rw [if_neg tab]
  by_cases form : c = 12
  · rw [if_pos form,form]
    exact .letter 102 rfl
  rw [if_neg form]
  by_cases back : c = 8
  · rw [if_pos back,back]
    exact .letter 98 rfl
  rw [if_neg back]
  by_cases printable : 32 ≤ c ∧ c < 127
  · rw [if_pos printable]
    exact .plain printable quote backslash
  rw [if_neg printable]
  by_cases small : c < 0x10000
  · rw [if_pos small]
    exact .unit small
  · rw [if_neg small]
    exact .pair (Nat.le_of_not_lt small)

theorem letterEscape_letter {letter c : Nat} (stands : letterEscape letter = some c) :
    letter ∈ [34,92,47,98,102,110,114,116] := by
  unfold letterEscape at stands
  split_ifs at stands with same back form feed carriage tab
  · rcases same with rfl | rfl | rfl <;> decide
  all_goals subst letter; decide

variable {rest : Text}
def Ends (t : Text) : Prop := ∀ c ∈ t.head?, c ≠ 46 ∧ c ≠ 101 ∧ c ≠ 69 ∧ asciiDigit c = false
def Whole (digits : Text) : Prop :=
  digits = [48] ∨ ∃ c t, digits = c :: t ∧ c ≠ 48 ∧ asciiDigit c ∧ ∀ d ∈ t, asciiDigit d
/-- The text of a float: `repr` writes a fraction or an exponent. -/
structure FloatText (source : Text) : Prop where
  parts : ∃ minus whole fraction exponent, source = minus ++ whole ++ fraction ++ exponent ∧ (minus = [] ∨ minus = [45]) ∧
    Whole whole ∧ (fraction = [] ∨ ∃ c t, fraction = 46 :: c :: t ∧ asciiDigit c ∧ ∀ d ∈ t, asciiDigit d) ∧
    (exponent = [] ∨ ∃ sign c t, exponent = 101 :: sign ++ c :: t ∧ (sign = [] ∨ sign = [43] ∨ sign = [45]) ∧
      asciiDigit c ∧ ∀ d ∈ t, asciiDigit d) ∧ ¬ (fraction = [] ∧ exponent = [])

variable {digits : Text}

theorem takeWhile_digits (all : ∀ d ∈ digits, asciiDigit d) (stops : ∀ c ∈ rest.head?, asciiDigit c = false) :
    (digits ++ rest).takeWhile asciiDigit = digits ∧ (digits ++ rest).dropWhile asciiDigit = rest := by
  have none : rest.takeWhile asciiDigit = [] ∧ rest.dropWhile asciiDigit = rest := by
    cases rest with
    | nil => exact ⟨rfl,rfl⟩
    | cons c t =>
      have stop : asciiDigit c = false := stops c rfl
      simp [stop]
  rw [takeWhile_append_of_pos all,dropWhile_append_of_pos all,none.1,none.2,append_nil]
  exact ⟨rfl,rfl⟩

variable {whole : Text}
theorem integerPart_whole (isWhole : Whole whole) (stops : ∀ c ∈ rest.head?, asciiDigit c = false) :
    integerPart (whole ++ rest) = some (whole,rest) := by
  rcases isWhole with rfl | ⟨c,t,rfl,leading,digit,all⟩
  · rfl
  · obtain ⟨taken,dropped⟩ := takeWhile_digits all stops
    simp [integerPart,leading,digit,taken,dropped]
theorem fractionPart_ends (ends : ∀ c ∈ rest.head?, c ≠ 46) : fractionPart rest = ([],rest) := by
  unfold fractionPart
  split
  · rename_i c d t
    have noPoint : c ≠ 46 := ends c rfl
    simp [noPoint]
  · rfl
theorem fractionPart_digits {c : Nat} (digit : asciiDigit c) (all : ∀ d ∈ t, asciiDigit d)
    (stops : ∀ c ∈ rest.head?, asciiDigit c = false) : fractionPart (46 :: c :: t ++ rest) = (46 :: c :: t,rest) := by
  obtain ⟨taken,dropped⟩ := takeWhile_digits all stops
  simp [fractionPart,digit,taken,dropped]
theorem exponentPart_ends (ends : ∀ c ∈ rest.head?, c ≠ 101 ∧ c ≠ 69) : exponentPart rest = ([],rest) := by
  cases rest with
  | nil => rfl
  | cons c t =>
    obtain ⟨small,capital⟩ := ends c rfl
    simp [exponentPart,small,capital]
theorem digit_bounds {c : Nat} (digit : asciiDigit c) : 48 ≤ c ∧ c ≤ 57 := by
  simpa [asciiDigit,between] using digit
theorem whole_head (isWhole : Whole whole) : ∃ c t, whole = c :: t ∧ asciiDigit c := by
  rcases isWhole with rfl | ⟨c,t,rfl,_,digit,_⟩
  · exact ⟨48,[],rfl,by decide⟩
  · exact ⟨c,t,rfl,digit⟩
theorem whole_digits (isWhole : Whole digits) : ∀ d ∈ digits, asciiDigit d := by
  rcases isWhole with rfl | ⟨c,t,rfl,_,first,rest⟩
  · decide
  · exact forall_mem_cons.mpr ⟨first,rest⟩

variable {minus : Text}

theorem readNumber_parts (isMinus : minus = [] ∨ minus = [45]) (isWhole : Whole whole)
    (stops : ∀ c ∈ rest.head?, asciiDigit c = false) : readNumber (minus ++ whole ++ rest) =
      if (fractionPart rest).1 = [] ∧ (exponentPart (fractionPart rest).2).1 = [] then
        if maxDigits < whole.length then .error .digits
        else .ok (.integer (if minus = [45] then -(decimal whole : Int) else decimal whole),rest)
      else .ok (.float (minus ++ whole ++ (fractionPart rest).1 ++ (exponentPart (fractionPart rest).2).1),
        (exponentPart (fractionPart rest).2).2) := by
  rcases isMinus with rfl | rfl
  · obtain ⟨c,t,same,digit⟩ := whole_head isWhole
    have unsigned : ¬ (whole ++ rest).head? = some '-'.toNat := by
      rw [same]
      rintro ⟨⟩
      exact absurd digit (by decide)
    simp only [nil_append,readNumber,if_neg unsigned,integerPart_whole isWhole stops]
    rfl
  · simp only [cons_append,nil_append,readNumber]
    rw [if_pos (by rfl),drop_one,tail_cons,integerPart_whole isWhole stops]
    simp

theorem natText_small (small : n < 10) : natText n = [48 + n] := by
  have digit : ∀ n < 10, (Nat.digitChar n).toNat = 48 + n := by decide
  rw [natText,Nat.toDigits_of_lt_base small,map_singleton,digit n small]
theorem natText_large (large : 10 ≤ n) : natText n = natText (n / 10) ++ [48 + n % 10] := by
  have digit : ∀ n < 10, (Nat.digitChar n).toNat = 48 + n := by decide
  rw [natText,Nat.toDigits_of_base_le (by decide) large,map_append,map_singleton,digit _ (Nat.mod_lt n (by decide))]
  rfl

theorem natText_pos (pos : 0 < n) : ∃ c t, natText n = c :: t ∧ c ≠ 48 ∧ asciiDigit c ∧ ∀ d ∈ t, asciiDigit d := by
  have digit : ∀ n < 10, asciiDigit (48 + n) := by decide
  induction n using Nat.strongRecOn with
  | ind n ih =>
    by_cases small : n < 10
    · exact ⟨48 + n,[],natText_small small,by omega,digit n small,fun _ member => absurd member not_mem_nil⟩
    · obtain ⟨c,t,written,leading,isDigit,all⟩ := ih (n / 10) (by omega) (by omega)
      refine ⟨c,t ++ [48 + n % 10],by rw [natText_large (by omega),written]; rfl,leading,isDigit,?_⟩
      intro d member
      rcases mem_append.mp member with old | new
      · exact all d old
      · rw [mem_singleton.mp new]
        exact digit _ (Nat.mod_lt n (by decide))

theorem natText_whole (n : Nat) : Whole (natText n) := by
  rcases Nat.eq_zero_or_pos n with rfl | pos
  · exact .inl (natText_small (by decide))
  · exact .inr (natText_pos pos)

theorem decimal_natText (n : Nat) : decimal (natText n) = n := by
  induction n using Nat.strongRecOn with
  | ind n ih =>
    by_cases small : n < 10
    · rw [natText_small small]
      simp [decimal]
    · have before := ih (n / 10) (by omega)
      rw [natText_large (by omega)]
      unfold decimal at before ⊢
      rw [foldl_append,before]
      simp only [foldl_cons,foldl_nil]
      omega

theorem natText_injective {m : Nat} (same : natText n = natText m) : n = m := by
  rw [← decimal_natText n,same,decimal_natText]

theorem dumpInteger_injective {n m : Int} (same : dumpInteger n = dumpInteger m) : n = m := by
  -- No digit is the sign.
  have unsigned : ∀ k l : Nat, 45 :: natText k ≠ natText l := by
    intro k l same
    have digit := whole_digits (natText_whole l) 45 (same ▸ mem_cons_self)
    exact absurd digit (by decide)
  unfold dumpInteger at same
  split_ifs at same with negative also also
  · have parts := natText_injective (List.cons.inj same).2
    omega
  · exact absurd same (unsigned _ _)
  · exact absurd same.symm (unsigned _ _)
  · have parts := natText_injective same
    omega

def specials : List Text := [text "NaN",text "Infinity",text "-Infinity"]

theorem words_spelled : words = [([110,117,108,108],.null),([116,114,117,101],.bool true),([102,97,108,115,101],.bool false),
    ([78,97,78],.float [78,97,78]),([73,110,102,105,110,105,116,121],.float [73,110,102,105,110,105,116,121]),
    ([45,73,110,102,105,110,105,116,121],.float [45,73,110,102,105,110,105,116,121])] := by
  have spelled : text "null" = [110,117,108,108] ∧ text "true" = [116,114,117,101] ∧ text "false" = [102,97,108,115,101] ∧
      text "NaN" = [78,97,78] ∧ text "Infinity" = [73,110,102,105,110,105,116,121] ∧
      text "-Infinity" = [45,73,110,102,105,110,105,116,121] := by decide
  obtain ⟨null,yes,no,nan,infinity,negative⟩ := spelled
  rw [words,null,yes,no,nan,infinity,negative]

theorem readWord_digit {c : Nat} (isMinus : minus = [] ∨ minus = [45]) (digit : asciiDigit c) (t : Text) :
    readWord (minus ++ c :: t) = none := by
  have bounds := digit_bounds digit
  have differs : ∀ d, 57 < d → ¬ d = c := by
    intro d above
    omega
  have minusDiffers : ¬ 45 = c := by omega
  rw [readWord,words_spelled]
  rcases isMinus with rfl | rfl
  · simp [afterPrefix,differs,minusDiffers]
  · simp [afterPrefix,differs]

theorem dumpInteger_parts (n : Int) : ∃ minus whole, dumpInteger n = minus ++ whole ∧ (minus = [] ∨ minus = [45]) ∧ Whole whole := by
  unfold dumpInteger
  split_ifs
  · exact ⟨[45],_,rfl,.inr rfl,natText_whole _⟩
  · exact ⟨[],_,rfl,.inl rfl,natText_whole _⟩

mutual

/-- What is read back: texts without a pair of halves, no integer of too many digits, no key twice. -/
def Writable : Json → Prop
  | .integer n => (natText n.natAbs).length ≤ maxDigits
  | .float source => FloatText source ∨ source ∈ specials
  | .text t => Separate t
  | .array items => WritableItems items
  | .object entries => (entries.map Prod.fst).Nodup ∧ WritableEntries entries
  | .null => True
  | .bool _ => True

def WritableItems : List Json → Prop
  | [] => True
  | item :: rest => Writable item ∧ WritableItems rest
def WritableEntries : List (Text × Json) → Prop
  | [] => True
  | (key,value) :: rest => Separate key ∧ Writable value ∧ WritableEntries rest

end

theorem empty_writable : Writable (.object []) := ⟨nodup_nil,trivial⟩
theorem number_head (isMinus : minus = [] ∨ minus = [45]) (isWhole : Whole whole) (rest : Text) :
    ∃ c t, minus ++ whole ++ rest = c :: t ∧ 45 ≤ c ∧ c ≤ 57 := by
  obtain ⟨c,t,rfl,digit⟩ := whole_head isWhole
  have bounds := digit_bounds digit
  rcases isMinus with rfl | rfl
  · exact ⟨c,t ++ rest,rfl,by omega,by omega⟩
  · exact ⟨45,c :: t ++ rest,rfl,by omega,by omega⟩
theorem skip_head {c : Nat} (visible : whitespace c = false) : skip (c :: t) = c :: t := by
  simp [skip,visible]
theorem skip_blanks {blanks : Text} (blank : ∀ c ∈ blanks, whitespace c) : skip (blanks ++ t) = skip t := by
  rw [skip,dropWhile_append_of_pos blank]
  rfl
theorem readValue_scalar {c : Nat} (scalar : c ≠ 34 ∧ c ≠ 91 ∧ c ≠ 123) {read : Json × Text}
    (isWord : readWord (c :: t) = some read) (fuel : Nat) : readValue (fuel + 1) (c :: t) = .ok read := by
  obtain ⟨quote,bracket,brace⟩ := scalar
  rw [readValue,if_neg (show ¬ c = '"'.toNat from quote),if_neg (show ¬ c = '['.toNat from bracket),
    if_neg (show ¬ c = '{'.toNat from brace),isWord]
theorem readValue_noWord {c : Nat} (scalar : c ≠ 34 ∧ c ≠ 91 ∧ c ≠ 123) (noWord : readWord (c :: t) = none)
    (fuel : Nat) : readValue (fuel + 1) (c :: t) = readNumber (c :: t) := by
  obtain ⟨quote,bracket,brace⟩ := scalar
  rw [readValue,if_neg (show ¬ c = '"'.toNat from quote),if_neg (show ¬ c = '['.toNat from bracket),
    if_neg (show ¬ c = '{'.toNat from brace),noWord]

theorem readValue_number (isMinus : minus = [] ∨ minus = [45]) (isWhole : Whole whole) (fuel : Nat) :
    readValue (fuel + 1) (minus ++ whole ++ rest) = readNumber (minus ++ whole ++ rest) := by
  obtain ⟨c,t,begins,bounds⟩ := number_head isMinus isWhole rest
  obtain ⟨d,u,same,digit⟩ := whole_head isWhole
  have noWord : readWord (minus ++ whole ++ rest) = none := by
    rw [append_assoc,same]
    exact readWord_digit isMinus digit (u ++ rest)
  rw [begins] at noWord ⊢
  exact readValue_noWord ⟨by omega,by omega,by omega⟩ noWord fuel

theorem readValue_word {word : Text} {value : Json} (member : (word,value) ∈ words) (rest : Text) (fuel : Nat) :
    readValue (fuel + 1) (word ++ rest) = .ok (value,rest) := by
  rw [words_spelled] at member
  simp only [mem_cons,Prod.mk.injEq,not_mem_nil,or_false] at member
  rcases member with ⟨rfl,rfl⟩ | ⟨rfl,rfl⟩ | ⟨rfl,rfl⟩ | ⟨rfl,rfl⟩ | ⟨rfl,rfl⟩ | ⟨rfl,rfl⟩
  all_goals
    refine readValue_scalar (by decide) ?_ fuel
    rw [readWord,words_spelled]
    simp [afterPrefix]

variable {entries : List (Text × Json)} {key : Text}
theorem putEntry_new (value : Json) (new : key ∉ entries.map Prod.fst) :
    putEntry entries key value = entries ++ [(key,value)] := by
  refine if_neg ?_
  rw [Bool.not_eq_true,any_eq_false]
  intro entry member same
  exact new (mem_map.mpr ⟨entry,member,of_decide_eq_true same⟩)
theorem writableEntries_iff : WritableEntries entries ↔ ∀ entry ∈ entries, Separate entry.1 ∧ Writable entry.2 := by
  induction entries with
  | nil => exact ⟨fun _ _ member => absurd member not_mem_nil,fun _ => trivial⟩
  | cons entry rest ih =>
    rw [WritableEntries,forall_mem_cons,ih,and_assoc]
theorem sortEntries_keys (entries : List (Text × Json)) : (sortEntries entries).map Prod.fst = entries.map Prod.fst := by
  induction entries with
  | nil => rfl
  | cons entry rest ih => rw [sortEntries,map_cons,map_cons,ih]

mutual

theorem sortKeys_writable : ∀ (value : Json), Writable value → Writable (sortKeys value)
  | .null, _ => trivial
  | .bool _, _ => trivial
  | .integer _, few => few
  | .float _, isFloat => isFloat
  | .text _, separate => separate
  | .array items, writable => by
    rw [sortKeys]
    exact sortItems_writable items writable
  | .object entries, writable => by
    have each := sortEntries_writable entries writable.2
    have perm := perm_insertionSort (fun one other : Text × Json => atMost one.1 other.1) (sortEntries entries)
    rw [sortKeys]
    refine ⟨?_,writableEntries_iff.mpr fun entry member => writableEntries_iff.mp each entry (perm.mem_iff.mp member)⟩
    rw [(perm.map Prod.fst).nodup_iff,sortEntries_keys]
    exact writable.1

theorem sortItems_writable : ∀ (items : List Json), WritableItems items → WritableItems (sortItems items)
  | [], _ => trivial
  | item :: rest, writable => ⟨sortKeys_writable item writable.1,sortItems_writable rest writable.2⟩
theorem sortEntries_writable : ∀ (entries : List (Text × Json)), WritableEntries entries → WritableEntries (sortEntries entries)
  | [], _ => trivial
  | (_,value) :: rest, writable => ⟨writable.1,sortKeys_writable value writable.2.1,sortEntries_writable rest writable.2.2⟩

end

end Codebot.JsonDumps
