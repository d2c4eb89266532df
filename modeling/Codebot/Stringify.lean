import Codebot.JsonReadings

/-!
The JSON that `JSON.stringify` writes. Only what is not ASCII is written otherwise than by
`json.dumps`, so that one text comes from one value.
-/
namespace Codebot.Stringify
open Texts JsonTexts JsonDumps JsonReadings List

def quoteChar (c : Nat) : Text := if 127 ≤ c ∧ surrogate c = false then [c] else escapeChar c
def quoteText (t : Text) : Text := 34 :: t.flatMap quoteChar ++ [34]
def infinite (source : Text) : Bool := specials.contains source

mutual

def stringify : Json → Text
  | .null => text "null"
  | .bool true => text "true"
  | .bool false => text "false"
  | .integer n => dumpInteger n
  | .float source => if infinite source then text "null" else source
  | .text t => quoteText t
  | .array items => 91 :: stringifyItems items ++ [93]
  | .object entries => 123 :: stringifyEntries entries ++ [125]

def stringifyItems : List Json → Text
  | [] => []
  | [item] => stringify item
  | item :: next :: rest => stringify item ++ 44 :: stringifyItems (next :: rest)
def stringifyEntries : List (Text × Json) → Text
  | [] => []
  | [(key,value)] => quoteText key ++ 58 :: stringify value
  | (key,value) :: next :: rest => quoteText key ++ 58 :: stringify value ++ 44 :: stringifyEntries (next :: rest)

end

def Finite : Json → Prop
  | .float source => FloatText source
  | _ => True
def asciify (t : Text) : Text := t.flatMap fun c => if c < 127 then [c] else escapeChar c
theorem asciify_append (t u : Text) : asciify (t ++ u) = asciify t ++ asciify u := flatMap_append
theorem asciify_cons {c : Nat} (ascii : c < 127) (t : Text) : asciify (c :: t) = c :: asciify t := by
  rw [asciify,flatMap_cons,if_pos ascii]
  rfl
theorem asciify_ascii {t : Text} (ascii : ∀ c ∈ t, c < 127) : asciify t = t := by
  induction t with
  | nil => rfl
  | cons c t ih => rw [asciify_cons (ascii c mem_cons_self),ih fun d member => ascii d (mem_cons_of_mem c member)]
theorem asciify_printable {t : Text} (printable : ∀ c ∈ t, Printable c) : asciify t = t :=
  asciify_ascii fun c member => (printable c member).2
theorem asciify_quoteChar (c : Nat) : asciify (quoteChar c) = escapeChar c := by
  unfold quoteChar
  split_ifs with raw
  · rw [asciify,flatMap_singleton,if_neg (Nat.not_lt.mpr raw.1)]
  · exact asciify_printable (printable_escapeChar c)
theorem asciify_quoteText (t : Text) : asciify (quoteText t) = dumpText t := by
  have within : asciify (t.flatMap quoteChar) = t.flatMap escapeChar := by
    induction t with
    | nil => rfl
    | cons c t ih => rw [flatMap_cons,flatMap_cons,asciify_append,asciify_quoteChar,ih]
  rw [quoteText,dumpText,cons_append,asciify_cons (by decide),asciify_append,within]
  rfl

theorem infinite_float {source : Text} (isFloat : FloatText source) : infinite source = false := by
  have noWord : ∀ word ∈ specials, ∃ c ∈ word, ¬NumberChar c := by
    have letters : ∀ word ∈ specials, ∃ c ∈ word, asciiDigit c = false ∧ c ≠ 43 ∧ c ≠ 45 ∧ c ≠ 46 ∧ c ≠ 101 := by decide
    intro word member
    obtain ⟨c,inWord,noDigit,noPlus,noMinus,noPoint,noMark⟩ := letters word member
    refine ⟨c,inWord,?_⟩
    rintro (digit | plus | minus | point | mark)
    · exact Bool.false_ne_true (noDigit.symm.trans digit)
    · exact noPlus plus
    · exact noMinus minus
    · exact noPoint point
    · exact noMark mark
  by_contra isInfinite
  have member : source ∈ specials := contains_iff_mem.mp (Bool.eq_true_of_not_eq_false isInfinite)
  obtain ⟨c,inWord,noNumber⟩ := noWord source member
  exact noNumber (float_chars isFloat c inWord)

mutual

/-- With what is not ASCII escaped, the text is the one of `json.dumps`. -/
theorem asciify_stringify : ∀ value : Json, Throughout Finite value → asciify (stringify value) = dumps compactSeparators value
  | .null, _ => rfl
  | .bool true, _ => rfl
  | .bool false, _ => rfl
  | .integer n, _ => asciify_printable (printable_dumpInteger n)
  | .float source, isFloat => by
    rw [stringify,infinite_float isFloat,if_neg Bool.false_ne_true]
    exact asciify_printable (printable_float (.inl isFloat))
  | .text t, _ => asciify_quoteText t
  | .array items, finite => by
    rw [stringify,dumps,List.cons_append,asciify_cons (by decide),asciify_append,asciify_stringifyItems items finite.2]
    rfl
  | .object entries, finite => by
    rw [stringify,dumps,List.cons_append,asciify_cons (by decide),asciify_append,asciify_stringifyEntries entries finite.2]
    rfl

theorem asciify_stringifyItems : ∀ items : List Json, ThroughoutItems Finite items →
    asciify (stringifyItems items) = dumpItems compactSeparators items
  | [], _ => rfl
  | [item], finite => asciify_stringify item finite.1
  | item :: next :: rest, finite => by
    rw [stringifyItems,dumpItems,asciify_append,asciify_stringify item finite.1,asciify_cons (by decide),
      asciify_stringifyItems (next :: rest) finite.2,List.append_assoc]
    rfl

theorem asciify_stringifyEntries : ∀ entries : List (Text × Json), ThroughoutEntries Finite entries →
    asciify (stringifyEntries entries) = dumpEntries compactSeparators entries
  | [], _ => rfl
  | [(key,value)], finite => by
    rw [stringifyEntries,dumpEntries,asciify_append,asciify_quoteText,asciify_cons (by decide),asciify_stringify value finite.1,
      List.append_assoc]
    rfl
  | (key,value) :: next :: rest, finite => by
    rw [stringifyEntries,dumpEntries,asciify_append,asciify_append,asciify_quoteText,asciify_cons (by decide),
      asciify_stringify value finite.1,asciify_cons (by decide),asciify_stringifyEntries (next :: rest) finite.2]
    simp only [compactSeparators,List.append_assoc,List.cons_append,List.nil_append]

end

/-- Values that read back are written alike only if they are the same. -/
theorem stringify_injective {value other : Json} (writable : Writable value) (also : Writable other) (finite : Throughout Finite value)
    (isFinite : Throughout Finite other) (same : stringify value = stringify other) : value = other := by
  have dumped := congrArg asciify same
  rw [asciify_stringify value finite,asciify_stringify other isFinite] at dumped
  exact JsonGrammar.dumps_injective writable also dumped

end Codebot.Stringify
