import Codebot.JsonGrammar

/-!
What holds of every value inside a JSON value, and what reading and writing say of it: the
written text is printable ASCII, and no text that is read from ASCII has the two halves of a
character as separate code points.
-/
namespace Codebot.JsonReadings
open Texts JsonTexts JsonDumps List

mutual

/-- The property holds of the value and of every value inside it. -/
def Throughout (P : Json → Prop) : Json → Prop
  | .null => P .null
  | .bool b => P (.bool b)
  | .integer n => P (.integer n)
  | .float source => P (.float source)
  | .text t => P (.text t)
  | .array items => P (.array items) ∧ ThroughoutItems P items
  | .object entries => P (.object entries) ∧ ThroughoutEntries P entries

def ThroughoutItems (P : Json → Prop) : List Json → Prop
  | [] => True
  | item :: rest => Throughout P item ∧ ThroughoutItems P rest
def ThroughoutEntries (P : Json → Prop) : List (Text × Json) → Prop
  | [] => True
  | (_,value) :: rest => Throughout P value ∧ ThroughoutEntries P rest

end

variable {items : List Json}
theorem throughoutItems_iff {P : Json → Prop} : ThroughoutItems P items ↔ ∀ item ∈ items, Throughout P item := by
  induction items with
  | nil => exact ⟨fun _ _ member => absurd member not_mem_nil,fun _ => trivial⟩
  | cons item rest ih => rw [ThroughoutItems,forall_mem_cons,ih]

variable {entries : List (Text × Json)}
theorem throughoutEntries_iff {P : Json → Prop} :
    ThroughoutEntries P entries ↔ ∀ entry ∈ entries, Throughout P entry.2 := by
  induction entries with
  | nil => exact ⟨fun _ _ member => absurd member not_mem_nil,fun _ => trivial⟩
  | cons entry rest ih => rw [ThroughoutEntries,forall_mem_cons,ih]

variable {key : Text} {value : Json}

theorem lookup_entry (found : entries.lookup key = some value) : (key,value) ∈ entries := by
  induction entries with
  | nil => cases found
  | cons entry rest ih =>
    rw [lookup_cons] at found
    split at found
    · rename_i same
      cases found
      rw [beq_iff_eq.mp same]
      exact mem_cons_self
    · exact mem_cons_of_mem _ (ih found)

mutual

theorem throughout_and {P Q : Json → Prop} : ∀ value : Json,
    Throughout (fun value => P value ∧ Q value) value ↔ Throughout P value ∧ Throughout Q value
  | .null => Iff.rfl
  | .bool _ => Iff.rfl
  | .integer _ => Iff.rfl
  | .float _ => Iff.rfl
  | .text _ => Iff.rfl
  | .array items => by
    simp only [Throughout,throughoutItems_and items]
    exact and_and_and_comm
  | .object entries => by
    simp only [Throughout,throughoutEntries_and entries]
    exact and_and_and_comm

theorem throughoutItems_and {P Q : Json → Prop} : ∀ items : List Json,
    ThroughoutItems (fun value => P value ∧ Q value) items ↔ ThroughoutItems P items ∧ ThroughoutItems Q items
  | [] => (and_self_iff).symm
  | item :: rest => by
    simp only [ThroughoutItems,throughout_and item,throughoutItems_and rest]
    exact and_and_and_comm
theorem throughoutEntries_and {P Q : Json → Prop} : ∀ entries : List (Text × Json),
    ThroughoutEntries (fun value => P value ∧ Q value) entries ↔ ThroughoutEntries P entries ∧ ThroughoutEntries Q entries
  | [] => (and_self_iff).symm
  | (_,value) :: rest => by
    simp only [ThroughoutEntries,throughout_and value,throughoutEntries_and rest]
    exact and_and_and_comm

end

mutual

instance decideThroughout (P : Json → Prop) [DecidablePred P] : (value : Json) → Decidable (Throughout P value)
  | .null => inferInstanceAs (Decidable (P .null))
  | .bool b => inferInstanceAs (Decidable (P (.bool b)))
  | .integer n => inferInstanceAs (Decidable (P (.integer n)))
  | .float source => inferInstanceAs (Decidable (P (.float source)))
  | .text t => inferInstanceAs (Decidable (P (.text t)))
  | .array items => @instDecidableAnd _ _ (inferInstanceAs (Decidable (P (.array items)))) (decideThroughoutItems P items)
  | .object entries => @instDecidableAnd _ _ (inferInstanceAs (Decidable (P (.object entries)))) (decideThroughoutEntries P entries)

instance decideThroughoutItems (P : Json → Prop) [DecidablePred P] : (items : List Json) → Decidable (ThroughoutItems P items)
  | [] => inferInstanceAs (Decidable True)
  | item :: rest => @instDecidableAnd _ _ (decideThroughout P item) (decideThroughoutItems P rest)
instance decideThroughoutEntries (P : Json → Prop) [DecidablePred P] :
    (entries : List (Text × Json)) → Decidable (ThroughoutEntries P entries)
  | [] => inferInstanceAs (Decidable True)
  | (_,value) :: rest => @instDecidableAnd _ _ (decideThroughout P value) (decideThroughoutEntries P rest)

end

/-- A value as Python has it: floats as `repr` writes them, code points, and no key twice. -/
def Proper : Json → Prop
  | .float source => FloatText source ∨ source ∈ specials
  | .text t => ∀ c ∈ t, c < 0x110000
  | .object entries => (entries.map Prod.fst).Nodup ∧ ∀ entry ∈ entries, ∀ c ∈ entry.1, c < 0x110000
  | _ => True
/-- An integer that `str` writes and `int` reads. -/
def Short : Json → Prop
  | .integer n => (natText n.natAbs).length ≤ maxDigits
  | _ => True

instance : DecidablePred Short
  | .integer n => inferInstanceAs (Decidable ((natText n.natAbs).length ≤ maxDigits))
  | .null => inferInstanceAs (Decidable True)
  | .bool _ => inferInstanceAs (Decidable True)
  | .float _ => inferInstanceAs (Decidable True)
  | .text _ => inferInstanceAs (Decidable True)
  | .array _ => inferInstanceAs (Decidable True)
  | .object _ => inferInstanceAs (Decidable True)

def Apart (t : Text) : Prop := t.IsChain fun c d => high c → low d = false
def TextsApart : Json → Prop
  | .text t => Apart t
  | .object entries => ∀ entry ∈ entries, Apart entry.1
  | _ => True

mutual

theorem writable_iff : ∀ value : Json,
    Writable value ↔ Throughout (fun value => Proper value ∧ Short value ∧ TextsApart value) value
  | .null => by simp [Writable,Throughout,Proper,Short,TextsApart]
  | .bool _ => by simp [Writable,Throughout,Proper,Short,TextsApart]
  | .integer _ => by simp [Writable,Throughout,Proper,Short,TextsApart]
  | .float _ => by simp [Writable,Throughout,Proper,Short,TextsApart]
  | .text t => by
    simp only [Writable,Throughout,Proper,Short,TextsApart,true_and]
    exact ⟨fun separate => ⟨separate.codePoints,separate.apart⟩,fun parts => ⟨parts.1,parts.2⟩⟩
  | .array items => by
    simp only [Writable,Throughout,Proper,Short,TextsApart,true_and]
    exact writableItems_iff items
  | .object entries => by
    simp only [Writable,Throughout,Proper,Short,TextsApart,true_and]
    constructor
    · rintro ⟨once,writable⟩
      have each := Codebot.JsonDumps.writableEntries_iff.mp writable
      exact ⟨⟨⟨once,fun entry member => (each entry member).1.codePoints⟩,fun entry member => (each entry member).1.apart⟩,
        (throughout_of_writableEntries entries).mp (fun entry member => (each entry member).2)⟩
    · rintro ⟨⟨⟨once,codePoints⟩,apart⟩,inside⟩
      refine ⟨once,Codebot.JsonDumps.writableEntries_iff.mpr ?_⟩
      intro entry member
      exact ⟨⟨codePoints entry member,apart entry member⟩,(throughout_of_writableEntries entries).mpr inside entry member⟩

theorem writableItems_iff : ∀ items : List Json,
    WritableItems items ↔ ThroughoutItems (fun value => Proper value ∧ Short value ∧ TextsApart value) items
  | [] => Iff.rfl
  | item :: rest => by rw [WritableItems,ThroughoutItems,writable_iff item,writableItems_iff rest]
theorem throughout_of_writableEntries : ∀ entries : List (Text × Json),
    (∀ entry ∈ entries, Writable entry.2) ↔
      ThroughoutEntries (fun value => Proper value ∧ Short value ∧ TextsApart value) entries
  | [] => by simp [ThroughoutEntries]
  | (_,value) :: rest => by
    rw [ThroughoutEntries,List.forall_mem_cons,writable_iff value,throughout_of_writableEntries rest]

end

def Printable (c : Nat) : Prop := 32 ≤ c ∧ c < 127
theorem printable_hexChar (n : Nat) : Printable (hexChar (n % 16)) := by
  have small : n % 16 < 16 := Nat.mod_lt _ (by decide)
  unfold Printable hexChar
  split <;> omega
theorem printable_escapeUnit (n : Nat) : ∀ c ∈ escapeUnit n, Printable c := by
  intro c member
  simp only [escapeUnit,mem_cons,not_mem_nil,or_false] at member
  rcases member with rfl | rfl | rfl | rfl | rfl | rfl
  · exact ⟨by decide,by decide⟩
  · exact ⟨by decide,by decide⟩
  all_goals exact printable_hexChar _

theorem printable_escapeChar (d : Nat) : ∀ c ∈ escapeChar d, Printable c := by
  have letters : ∀ letter ∈ [34,92,47,98,102,110,114,116], 32 ≤ letter ∧ letter < 127 := by decide
  have escaped := escapeChar_escaped d
  generalize escapeChar d = written at escaped ⊢
  intro c member
  cases escaped with
  | letter letter stands =>
    rcases mem_cons.mp member with rfl | last
    · exact ⟨by decide,by decide⟩
    · exact mem_singleton.mp last ▸ letters letter (letterEscape_letter stands)
  | plain printable => exact mem_singleton.mp member ▸ printable
  | unit => exact printable_escapeUnit _ c member
  | pair =>
    rcases mem_append.mp member with first | second
    · exact printable_escapeUnit _ c first
    · exact printable_escapeUnit _ c second

theorem printable_dumpText (t : Text) : ∀ c ∈ dumpText t, Printable c := by
  intro c member
  simp only [dumpText,mem_append,mem_cons,mem_flatMap] at member
  rcases member with (rfl | ⟨d,_,escaped⟩) | rfl | none
  · exact ⟨by decide,by decide⟩
  · exact printable_escapeChar d c escaped
  · exact ⟨by decide,by decide⟩
  · exact absurd none not_mem_nil

theorem printable_append {first second : Text} (isFirst : ∀ c ∈ first, Printable c) (isSecond : ∀ c ∈ second, Printable c) :
    ∀ c ∈ first ++ second, Printable c := by
  intro c member
  exact (mem_append.mp member).elim (isFirst c) (isSecond c)

variable {d : Nat} {t : Text}
theorem printable_cons (head : Printable d) (tail : ∀ c ∈ t, Printable c) : ∀ c ∈ d :: t, Printable c := by
  intro c member
  rcases mem_cons.mp member with rfl | later
  · exact head
  · exact tail c later
def NumberChar (c : Nat) : Prop := asciiDigit c ∨ c = 43 ∨ c = 45 ∨ c = 46 ∨ c = 101

variable {whole : Text}
theorem number_whole {minus : Text} (isMinus : minus = [] ∨ minus = [45]) (isWhole : Whole whole) :
    ∀ c ∈ minus ++ whole, NumberChar c := by
  refine forall_mem_append.mpr ⟨?_,fun c member => .inl (whole_digits isWhole c member)⟩
  rcases isMinus with rfl | rfl
  · exact fun c member => absurd member not_mem_nil
  · exact fun c member => .inr (.inr (.inl (mem_singleton.mp member)))
theorem integer_chars (n : Int) : ∀ c ∈ dumpInteger n, NumberChar c := by
  obtain ⟨minus,whole,same,isMinus,isWhole⟩ := dumpInteger_parts n
  rw [same]
  exact number_whole isMinus isWhole

variable {source : Text}

theorem float_chars (isFloat : FloatText source) : ∀ c ∈ source, NumberChar c := by
  obtain ⟨minus,whole,fraction,exponent,rfl,isMinus,isWhole,isFraction,isExponent,_⟩ := isFloat.parts
  refine forall_mem_append.mpr ⟨forall_mem_append.mpr ⟨number_whole isMinus isWhole,?_⟩,?_⟩
  · rcases isFraction with rfl | ⟨c,t,rfl,digit,all⟩
    · exact fun c member => absurd member not_mem_nil
    · refine forall_mem_cons.mpr ⟨.inr (.inr (.inr (.inl rfl))),forall_mem_cons.mpr ⟨.inl digit,?_⟩⟩
      exact fun c member => .inl (all c member)
  · rcases isExponent with rfl | ⟨sign,c,t,rfl,isSign,digit,all⟩
    · exact fun c member => absurd member not_mem_nil
    · have signed : ∀ d ∈ sign, NumberChar d := by
        rcases isSign with rfl | rfl | rfl
        · exact fun c member => absurd member not_mem_nil
        · exact fun c member => .inr (.inl (mem_singleton.mp member))
        · exact fun c member => .inr (.inr (.inl (mem_singleton.mp member)))
      refine forall_mem_append.mpr ⟨forall_mem_cons.mpr ⟨.inr (.inr (.inr (.inr rfl))),signed⟩,?_⟩
      exact forall_mem_cons.mpr ⟨.inl digit,fun c member => .inl (all c member)⟩

variable {c : Nat}
theorem printable_number (number : NumberChar c) : Printable c := by
  rcases number with digit | rfl | rfl | rfl | rfl
  · have bounds := digit_bounds digit
    exact ⟨by omega,by omega⟩
  all_goals exact ⟨by decide,by decide⟩
theorem printable_dumpInteger (n : Int) : ∀ c ∈ dumpInteger n, Printable c :=
  fun c member => printable_number (integer_chars n c member)
theorem printable_float (isFloat : FloatText source ∨ source ∈ specials) : ∀ c ∈ source, Printable c := by
  rcases isFloat with isFloat | special
  · exact fun c member => printable_number (float_chars isFloat c member)
  · have all : ∀ word ∈ specials, ∀ c ∈ word, 32 ≤ c ∧ c < 127 := by decide
    exact all source special

variable {separators : Separators}
theorem printable_blanks (blank : ∀ c ∈ separators.item ++ separators.key, c = 32) :
    (∀ c ∈ separators.item, Printable c) ∧ ∀ c ∈ separators.key, Printable c := by
  have each : ∀ c ∈ separators.item ++ separators.key, Printable c := by
    intro c member
    rw [blank c member]
    exact ⟨by decide,by decide⟩
  exact ⟨fun c member => each c (mem_append_left _ member),fun c member => each c (mem_append_right _ member)⟩

mutual

theorem printable_dumps (blank : ∀ c ∈ separators.item ++ separators.key, c = 32) : ∀ (value : Json),
    Throughout Proper value → ∀ c ∈ dumps separators value, Printable c
  | .null, _ => by
    have word : ∀ c ∈ text "null", 32 ≤ c ∧ c < 127 := by decide
    exact word
  | .bool true, _ => by
    have word : ∀ c ∈ text "true", 32 ≤ c ∧ c < 127 := by decide
    exact word
  | .bool false, _ => by
    have word : ∀ c ∈ text "false", 32 ≤ c ∧ c < 127 := by decide
    exact word
  | .integer n, _ => printable_dumpInteger n
  | .float _, isFloat => printable_float isFloat
  | .text t, _ => printable_dumpText t
  | .array items, proper => by
    rw [dumps]
    exact printable_append (printable_cons ⟨by decide,by decide⟩ (printable_dumpItems blank items proper.2))
      (printable_cons ⟨by decide,by decide⟩ fun c member => absurd member not_mem_nil)
  | .object entries, proper => by
    rw [dumps]
    exact printable_append (printable_cons ⟨by decide,by decide⟩ (printable_dumpEntries blank entries proper.2))
      (printable_cons ⟨by decide,by decide⟩ fun c member => absurd member not_mem_nil)

theorem printable_dumpItems (blank : ∀ c ∈ separators.item ++ separators.key, c = 32) : ∀ (items : List Json),
    ThroughoutItems Proper items → ∀ c ∈ dumpItems separators items, Printable c
  | [], _ => fun c member => absurd member List.not_mem_nil
  | [item], proper => printable_dumps blank item proper.1
  | item :: next :: rest, proper => by
    rw [dumpItems]
    exact printable_append (printable_append (printable_dumps blank item proper.1) (printable_cons ⟨by decide,by decide⟩ (printable_blanks blank).1))
      (printable_dumpItems blank (next :: rest) proper.2)

theorem printable_dumpEntries (blank : ∀ c ∈ separators.item ++ separators.key, c = 32) : ∀ (entries : List (Text × Json)),
    ThroughoutEntries Proper entries → ∀ c ∈ dumpEntries separators entries, Printable c
  | [], _ => fun c member => absurd member List.not_mem_nil
  | [(key,value)], proper => by
    rw [dumpEntries]
    exact printable_append (printable_append (printable_dumpText key) (printable_cons ⟨by decide,by decide⟩ (printable_blanks blank).2))
      (printable_dumps blank value proper.1)
  | (key,value) :: next :: rest, proper => by
    rw [dumpEntries]
    exact printable_append (printable_append (printable_append (printable_append (printable_dumpText key)
      (printable_cons ⟨by decide,by decide⟩ (printable_blanks blank).2)) (printable_dumps blank value proper.1))
      (printable_cons ⟨by decide,by decide⟩ (printable_blanks blank).1)) (printable_dumpEntries blank (next :: rest) proper.2)

end

def Ascii (t : Text) : Prop := ∀ c ∈ t, c < 128

variable {rest : Text}
theorem Ascii.suffix (ascii : Ascii t) (isSuffix : rest <:+ t) : Ascii rest :=
  fun c member => ascii c (isSuffix.subset member)

variable {n : Nat}

theorem hexQuad_suffix (read : hexQuad t = some (n,rest)) : rest <:+ t := by
  unfold hexQuad at read
  split at read
  · rename_i a b c d after
    simp only [Option.bind_eq_bind,Option.bind_eq_some_iff,Option.some.injEq,Prod.mk.injEq] at read
    obtain ⟨_,_,_,_,_,_,_,_,_,rfl⟩ := read
    exact ⟨[a,b,c,d],rfl⟩
  · cases read

theorem lowHalf_some : lowHalf t = some (n,rest) ↔
    ∃ after, t = 92 :: 117 :: after ∧ hexQuad after = some (n,rest) ∧ 0xDC00 ≤ n ∧ n ≤ 0xDFFF := by
  unfold lowHalf
  simp only [Option.bind_eq_bind,Option.bind_eq_some_iff]
  constructor
  · rintro ⟨after,isAfter,read,isRead,isLow⟩
    split at isLow
    · rename_i bounds
      cases isLow
      rw [escape_mark] at isAfter
      exact ⟨after,afterPrefix_some.mp isAfter,isRead,bounds⟩
    · cases isLow
  · rintro ⟨after,rfl,isRead,bounds⟩
    refine ⟨after,?_,(n,rest),isRead,if_pos bounds⟩
    rw [escape_mark]
    exact afterPrefix_append [92,117] after

theorem unicodeEscape_some (read : unicodeEscape t = some (c,rest)) : rest <:+ t ∧
    (high c → lowHalf rest = none) ∧ (low c → hexQuad t = some (c,rest)) := by
  unfold unicodeEscape at read
  simp only [Option.bind_eq_bind,Option.bind_eq_some_iff] at read
  obtain ⟨⟨n,after⟩,isRead,rest_eq⟩ := read
  have isSuffix := hexQuad_suffix isRead
  simp only at rest_eq
  split at rest_eq
  · rename_i isHigh
    split at rest_eq
    · rename_i lower found
      obtain ⟨m,last⟩ := lower
      obtain ⟨more,rfl,isLower,bounds⟩ := lowHalf_some.mp found
      simp only [Option.some.injEq,Prod.mk.injEq] at rest_eq
      obtain ⟨rfl,rfl⟩ := rest_eq
      refine ⟨((hexQuad_suffix isLower).trans ⟨[92,117],rfl⟩).trans isSuffix,?_,?_⟩
      · intro both
        simp only [high,Bool.and_eq_true,decide_eq_true_eq] at both
        omega
      · intro both
        simp only [low,Bool.and_eq_true,decide_eq_true_eq] at both
        omega
    · rename_i none
      cases rest_eq
      refine ⟨isSuffix,fun _ => none,?_⟩
      intro both
      simp only [low,Bool.and_eq_true,decide_eq_true_eq] at both
      omega
  · rename_i notHigh
    cases rest_eq
    refine ⟨isSuffix,?_,fun _ => isRead⟩
    intro isHigh
    exact absurd (by simpa [high] using isHigh) notHigh

theorem letterEscape_ascii (escaped : letterEscape c = some d) : d < 128 := by
  unfold letterEscape at escaped
  split_ifs at escaped with plain
  · cases escaped
    rcases plain with rfl | rfl | rfl <;> decide
  all_goals
    cases escaped
    decide

theorem not_halves (ascii : c < 128) : high c = false ∧ low c = false := by
  constructor
  · simp [high]
    omega
  · simp [low]
    omega

theorem map_ok {α β : Type} {f : α → β} {result : Except Failure α} {b : β} :
    result.map f = .ok b ↔ ∃ a, result = .ok a ∧ f a = b := by
  cases result with
  | error failure => exact ⟨fun same => (nomatch same),fun ⟨_,same,_⟩ => (nomatch same)⟩
  | ok a =>
    constructor
    · exact fun same => ⟨a,rfl,Except.ok.inj same⟩
    · rintro ⟨_,⟨⟩,same⟩
      exact congrArg _ same

theorem bind_ok {α β : Type} {f : α → Except Failure β} {result : Except Failure α} {b : β} :
    (result >>= f) = .ok b ↔ ∃ a, result = .ok a ∧ f a = .ok b := by
  cases result with
  | error failure => exact ⟨fun same => (nomatch same),fun ⟨_,same,_⟩ => (nomatch same)⟩
  | ok a =>
    constructor
    · exact fun same => ⟨a,rfl,same⟩
    · rintro ⟨_,⟨⟩,same⟩
      exact same

variable {fuel : Nat} {u : Text}

/-- How a text is read: it ends, or an escape or a character comes next. -/
theorem readText_cases (read : readText (fuel + 1) t = .ok (u,rest)) :
    (t = 34 :: rest ∧ u = []) ∨
      (∃ d after c last v, t = 92 :: d :: after ∧ u = c :: v ∧ readText fuel last = .ok (v,rest) ∧
        (d = 117 ∧ unicodeEscape after = some (c,last) ∨ d ≠ 117 ∧ letterEscape d = some c ∧ last = after)) ∨
      ∃ c after v, t = c :: after ∧ u = c :: v ∧ readText fuel after = .ok (v,rest) := by
  cases t with
  | nil => cases read
  | cons c t =>
    simp only [readText] at read
    split at read
    · rename_i quote
      cases read
      exact .inl ⟨by rw [quote]; rfl,rfl⟩
    · split at read
      · rename_i slash
        cases t with
        | nil => cases read
        | cons d after =>
          simp only at read
          split at read
          · rename_i found
            obtain ⟨⟨v,last⟩,isRead,same⟩ := map_ok.mp read
            cases same
            refine .inr (.inl ⟨d,after,_,_,v,by rw [slash]; rfl,rfl,isRead,?_⟩)
            split at found
            · rename_i isUnicode
              exact .inl ⟨isUnicode,found⟩
            · rename_i other
              obtain ⟨e,isLetter,same⟩ := Option.map_eq_some_iff.mp found
              cases same
              exact .inr ⟨other,isLetter,rfl⟩
          · cases read
      · split at read
        · cases read
        · obtain ⟨⟨v,last⟩,isRead,same⟩ := map_ok.mp read
          cases same
          exact .inr (.inr ⟨c,t,v,rfl,rfl,isRead⟩)

theorem apart_cons : Apart (c :: t) ↔ (∀ d ∈ t.head?, high c → low d = false) ∧ Apart t := by
  cases t with
  | nil => exact ⟨fun _ => ⟨fun d none => (nomatch none),.nil⟩,fun _ => .singleton c⟩
  | cons d t => simp [Apart]

theorem readText_apart (ascii : Ascii t) (read : readText fuel t = .ok (u,rest)) :
    Apart u ∧ rest <:+ t ∧ ∀ d ∈ u.head?, low d → lowHalf t ≠ none := by
  induction fuel generalizing t u rest with
  | zero => cases read
  | succ fuel ih =>
    rcases readText_cases read with ⟨rfl,rfl⟩ | ⟨d,after,c,last,v,rfl,rfl,isRead,escaped⟩ | ⟨c,after,v,rfl,rfl,isRead⟩
    · exact ⟨.nil,⟨[34],rfl⟩,fun d none => nomatch none⟩
    · rcases escaped with ⟨rfl,isUnicode⟩ | ⟨_,isLetter,rfl⟩
      · obtain ⟨isSuffix,afterHigh,isLow⟩ := unicodeEscape_some isUnicode
        have later : last <:+ 92 :: 117 :: after := isSuffix.trans ⟨[92,117],rfl⟩
        obtain ⟨apart,follows,begins⟩ := ih (ascii.suffix later) isRead
        refine ⟨apart_cons.mpr ⟨?_,apart⟩,follows.trans later,?_⟩
        · intro e isHead isHigh
          by_contra isLower
          exact begins e isHead (by simpa using isLower) (afterHigh isHigh)
        · intro e isHead isLower
          cases isHead
          have bounds : 0xDC00 ≤ c ∧ c ≤ 0xDFFF := by simpa [low] using isLower
          rw [lowHalf_some.mpr ⟨after,rfl,isLow isLower,bounds⟩]
          exact Option.some_ne_none _
      · have later : last <:+ 92 :: d :: last := ⟨[92,d],rfl⟩
        obtain ⟨apart,follows,_⟩ := ih (ascii.suffix later) isRead
        obtain ⟨notHigh,notLow⟩ := not_halves (letterEscape_ascii isLetter)
        refine ⟨apart_cons.mpr ⟨?_,apart⟩,follows.trans later,?_⟩
        · intro e _ isHigh
          rw [notHigh] at isHigh
          cases isHigh
        · intro e isHead isLower
          cases isHead
          rw [notLow] at isLower
          cases isLower
    · have later : after <:+ c :: after := ⟨[c],rfl⟩
      obtain ⟨apart,follows,_⟩ := ih (ascii.suffix later) isRead
      obtain ⟨notHigh,notLow⟩ := not_halves (ascii c mem_cons_self)
      refine ⟨apart_cons.mpr ⟨?_,apart⟩,follows.trans later,?_⟩
      · intro e _ isHigh
        rw [notHigh] at isHigh
        cases isHigh
      · intro e isHead isLower
        cases isHead
        rw [notLow] at isLower
        cases isLower

theorem skip_suffix (t : Text) : skip t <:+ t := dropWhile_suffix _

theorem integerPart_suffix (read : integerPart t = some (whole,rest)) : rest <:+ t := by
  unfold integerPart at read
  split at read
  · split_ifs at read
    · cases read
      exact suffix_cons _ _
    · cases read
      exact (dropWhile_suffix _).trans (suffix_cons _ _)
  · cases read

theorem fractionPart_suffix (t : Text) : (fractionPart t).2 <:+ t := by
  unfold fractionPart
  split
  · split_ifs
    · exact (dropWhile_suffix _).trans ⟨[_,_],rfl⟩
    · exact suffix_refl _
  · exact suffix_refl _

theorem exponentPart_suffix (t : Text) : (exponentPart t).2 <:+ t := by
  unfold exponentPart
  split
  · split_ifs
    · simp only
      split_ifs
      · exact ((drop_suffix _ _).trans (drop_suffix _ _)).trans (suffix_cons _ _)
      · exact suffix_refl _
    · exact suffix_refl _
  · exact suffix_refl _

theorem readNumber_apart (read : readNumber t = .ok (value,rest)) : Throughout TextsApart value ∧ rest <:+ t := by
  unfold readNumber at read
  have begins : (if t.head? = some '-'.toNat then t.drop 1 else t) <:+ t := by
    split
    · exact drop_suffix _ _
    · exact suffix_refl _
  simp only at read
  split at read
  · cases read
  · rename_i whole after isWhole
    have follows := (integerPart_suffix isWhole).trans begins
    split at read
    · split at read
      · cases read
      · cases read
        exact ⟨trivial,follows⟩
    · cases read
      exact ⟨trivial,((exponentPart_suffix _).trans (fractionPart_suffix _)).trans follows⟩

theorem readWord_apart (read : readWord t = some (value,rest)) : Throughout TextsApart value ∧ rest <:+ t := by
  obtain ⟨word,member,found⟩ := exists_of_findSome?_eq_some read
  obtain ⟨after,isAfter,same⟩ := Option.map_eq_some_iff.mp found
  cases same
  refine ⟨?_,⟨word.1,(afterPrefix_some.mp isAfter).symm⟩⟩
  simp only [words,mem_cons,not_mem_nil,or_false] at member
  rcases member with rfl | rfl | rfl | rfl | rfl | rfl
  all_goals trivial

def EntriesApart (entries : List (Text × Json)) : Prop := ∀ entry ∈ entries, Apart entry.1 ∧ Throughout TextsApart entry.2
theorem object_apart (apart : EntriesApart entries) : Throughout TextsApart (.object entries) :=
  ⟨fun entry member => (apart entry member).1,throughoutEntries_iff.mpr fun entry member => (apart entry member).2⟩

theorem putEntry_apart (apart : EntriesApart entries)
    (isKey : Apart key) (isValue : Throughout TextsApart value) : EntriesApart (putEntry entries key value) := by
  intro entry member
  unfold putEntry at member
  split at member
  · obtain ⟨old,isOld,same⟩ := mem_map.mp member
    split at same
    · rw [← same]
      exact ⟨isKey,isValue⟩
    · rw [← same]
      exact apart old isOld
  · rcases mem_append.mp member with old | new
    · exact apart entry old
    · cases mem_singleton.mp new
      exact ⟨isKey,isValue⟩

/-- What the three readers give for texts of ASCII. -/
structure ReadApart (fuel : Nat) : Prop where
  value : ∀ t value rest, Ascii t → readValue fuel t = .ok (value,rest) → Throughout TextsApart value ∧ rest <:+ t
  items : ∀ items t value rest, Ascii t → ThroughoutItems TextsApart items → readItems fuel items t = .ok (value,rest) →
    Throughout TextsApart value ∧ rest <:+ t
  entries : ∀ entries t value rest, Ascii t → EntriesApart entries → readEntries fuel entries t = .ok (value,rest) →
    Throughout TextsApart value ∧ rest <:+ t

/-- How a value begins. -/
theorem readValue_cases (read : readValue (fuel + 1) (c :: t) = .ok (value,rest)) :
    (c = 34 ∧ ∃ u, value = .text u ∧ readText fuel t = .ok (u,rest)) ∨
      (c = 91 ∧ ∃ d after, skip t = d :: after ∧
        (value = .array [] ∧ rest = after ∨ readItems fuel [] (d :: after) = .ok (value,rest))) ∨
      (c = 123 ∧ ∃ d after, skip t = d :: after ∧
        (value = .object [] ∧ rest = after ∨ readEntries fuel [] (d :: after) = .ok (value,rest))) ∨
      readWord (c :: t) = some (value,rest) ∨ readNumber (c :: t) = .ok (value,rest) := by
  simp only [readValue] at read
  split_ifs at read with quote bracket brace
  · obtain ⟨⟨u,last⟩,isRead,same⟩ := map_ok.mp read
    cases same
    exact .inl ⟨quote,u,rfl,isRead⟩
  · split at read
    · rename_i d after isAfter
      refine .inr (.inl ⟨bracket,d,after,isAfter,?_⟩)
      split_ifs at read
      · cases read
        exact .inl ⟨rfl,rfl⟩
      · exact .inr read
    · cases read
  · split at read
    · rename_i d after isAfter
      refine .inr (.inr (.inl ⟨brace,d,after,isAfter,?_⟩))
      split_ifs at read
      · cases read
        exact .inl ⟨rfl,rfl⟩
      · exact .inr read
    · cases read
  · split at read
    · rename_i found
      cases read
      exact .inr (.inr (.inr (.inl found)))
    · exact .inr (.inr (.inr (.inr read)))

theorem readValue_apart (ih : ReadApart fuel) (ascii : Ascii t)
    (read : readValue (fuel + 1) t = .ok (value,rest)) : Throughout TextsApart value ∧ rest <:+ t := by
  cases t with
  | nil => cases read
  | cons c t =>
    have tail : Ascii t := ascii.suffix (suffix_cons c t)
    have opened : ∀ {after last : Text}, skip t = after → last <:+ after → last <:+ c :: t := by
      rintro after last rfl isSuffix
      exact (isSuffix.trans (skip_suffix t)).trans (suffix_cons c t)
    rcases readValue_cases read with ⟨_,u,rfl,isRead⟩ | ⟨_,d,after,isAfter,⟨rfl,rfl⟩ | isRead⟩ |
      ⟨_,d,after,isAfter,⟨rfl,rfl⟩ | isRead⟩ | found | isNumber
    · obtain ⟨apart,follows,_⟩ := readText_apart tail isRead
      exact ⟨apart,follows.trans (suffix_cons c t)⟩
    · exact ⟨⟨trivial,trivial⟩,opened isAfter (suffix_cons d _)⟩
    · obtain ⟨apart,follows⟩ := ih.items [] _ _ _ (isAfter ▸ tail.suffix (skip_suffix t)) trivial isRead
      exact ⟨apart,opened isAfter follows⟩
    · exact ⟨object_apart fun _ none => absurd none not_mem_nil,opened isAfter (suffix_cons d _)⟩
    · obtain ⟨apart,follows⟩ := ih.entries [] _ _ _ (isAfter ▸ tail.suffix (skip_suffix t)) (fun _ none => absurd none not_mem_nil) isRead
      exact ⟨apart,opened isAfter follows⟩
    · exact readWord_apart found
    · exact readNumber_apart isNumber

theorem readItems_apart (ih : ReadApart fuel) (ascii : Ascii t)
    (apart : ThroughoutItems TextsApart items) (read : readItems (fuel + 1) items t = .ok (value,rest)) :
    Throughout TextsApart value ∧ rest <:+ t := by
  simp only [readItems] at read
  obtain ⟨⟨item,after⟩,isItem,next⟩ := bind_ok.mp read
  obtain ⟨itemApart,follows⟩ := ih.value t item after ascii isItem
  have more : ThroughoutItems TextsApart (items ++ [item]) := by
    rw [throughoutItems_iff] at apart ⊢
    intro other member
    rcases mem_append.mp member with old | new
    · exact apart other old
    · exact mem_singleton.mp new ▸ itemApart
  have skipped := (skip_suffix after).trans follows
  simp only at next
  split at next
  · rename_i c last isLast
    rw [isLast] at skipped
    have later := (suffix_cons c last).trans skipped
    split_ifs at next
    · cases next
      exact ⟨⟨trivial,more⟩,later⟩
    · have further := (skip_suffix last).trans later
      obtain ⟨whole,ends⟩ := ih.items _ _ _ _ (ascii.suffix further) more next
      exact ⟨whole,ends.trans further⟩
  · cases next

theorem readEntries_apart (ih : ReadApart fuel)
    (ascii : Ascii t) (apart : EntriesApart entries) (read : readEntries (fuel + 1) entries t = .ok (value,rest)) :
    Throughout TextsApart value ∧ rest <:+ t := by
  simp only [readEntries] at read
  split at read
  · rename_i quote t
    split at read
    · obtain ⟨⟨key,after⟩,isKey,next⟩ := bind_ok.mp read
      obtain ⟨keyApart,keyEnds,_⟩ := readText_apart (ascii.suffix (suffix_cons quote t)) isKey
      have afterKey := ((skip_suffix after).trans keyEnds).trans (suffix_cons quote t)
      simp only at next
      split at next
      · rename_i colon last isLast
        rw [isLast] at afterKey
        split at next
        · obtain ⟨⟨item,later⟩,isItem,more⟩ := bind_ok.mp next
          have atValue := ((skip_suffix last).trans (suffix_cons colon last)).trans afterKey
          obtain ⟨itemApart,itemEnds⟩ := ih.value _ item later (ascii.suffix atValue) isItem
          have put := putEntry_apart apart keyApart itemApart
          have afterValue := ((skip_suffix later).trans itemEnds).trans atValue
          simp only at more
          split at more
          · rename_i c final isFinal
            rw [isFinal] at afterValue
            have further := (suffix_cons c final).trans afterValue
            split_ifs at more
            · cases more
              exact ⟨object_apart put,further⟩
            · have skipped := (skip_suffix final).trans further
              obtain ⟨whole,ends⟩ := ih.entries _ _ _ _ (ascii.suffix skipped) put more
              exact ⟨whole,ends.trans skipped⟩
          · cases more
        · cases next
      · cases next
    · cases read
  · cases read

theorem readApart (fuel : Nat) : ReadApart fuel := by
  induction fuel with
  | zero => exact ⟨fun _ _ _ _ read => (nomatch read),fun _ _ _ _ _ _ read => (nomatch read),fun _ _ _ _ _ _ read => (nomatch read)⟩
  | succ fuel ih =>
    exact ⟨fun _ _ _ ascii read => readValue_apart ih ascii read,fun _ _ _ _ ascii apart read => readItems_apart ih ascii apart read,
      fun _ _ _ _ ascii apart read => readEntries_apart ih ascii apart read⟩

theorem loads_apart (ascii : Ascii t) (read : loads t = .ok value) : Throughout TextsApart value := by
  unfold loads at read
  split at read
  · cases read
  · obtain ⟨⟨first,rest⟩,isRead,same⟩ := bind_ok.mp read
    simp only at same
    split at same
    · cases same
      exact ((readApart _).value _ _ _ (ascii.suffix (skip_suffix t)) isRead).1
    · cases same

theorem loads_dumps_iff (blank : ∀ c ∈ separators.item ++ separators.key, c = 32)
    (proper : Throughout Proper value) (short : Throughout Short value) :
    loads (dumps separators value) = .ok value ↔ Throughout TextsApart value := by
  constructor
  · refine loads_apart ?_
    intro c member
    have printable := printable_dumps blank value proper c member
    exact Nat.lt_trans printable.2 (by decide)
  · intro apart
    refine JsonGrammar.loads_dumps separators ((writable_iff value).mpr ?_)
    exact (throughout_and value).mpr ⟨proper,(throughout_and value).mpr ⟨short,apart⟩⟩

theorem readText_length (read : readText fuel t = .ok (u,rest)) : u.length + rest.length < t.length := by
  induction fuel generalizing t u rest with
  | zero => cases read
  | succ fuel ih =>
    rcases readText_cases read with ⟨rfl,rfl⟩ | ⟨d,after,c,last,v,rfl,rfl,isRead,escaped⟩ | ⟨c,after,v,rfl,rfl,isRead⟩
    · simp
    · have shorter := ih isRead
      have follows : last.length ≤ after.length := by
        rcases escaped with ⟨_,isUnicode⟩ | ⟨_,_,rfl⟩
        · exact (unicodeEscape_some isUnicode).1.length_le
        · exact Nat.le_refl _
      simp only [length_cons]
      omega
    · have shorter := ih isRead
      simp only [length_cons]
      omega

theorem readItems_array (read : readItems fuel items t = .ok (value,rest)) : ∃ all, value = .array all := by
  induction fuel generalizing items t with
  | zero => cases read
  | succ fuel ih =>
    simp only [readItems] at read
    obtain ⟨_,_,next⟩ := bind_ok.mp read
    split at next
    · split_ifs at next
      · cases next
        exact ⟨_,rfl⟩
      · exact ih next
    · cases next

theorem readEntries_object (read : readEntries fuel entries t = .ok (value,rest)) : ∃ all, value = .object all := by
  induction fuel generalizing entries t with
  | zero => cases read
  | succ fuel ih =>
    simp only [readEntries] at read
    split at read
    · split at read
      · obtain ⟨_,_,next⟩ := bind_ok.mp read
        split at next
        · split at next
          · obtain ⟨_,_,more⟩ := bind_ok.mp next
            split at more
            · split_ifs at more
              · cases more
                exact ⟨_,rfl⟩
              · exact ih more
            · cases more
          · cases next
        · cases next
      · cases read
    · cases read

theorem readWord_kind (read : readWord t = some (value,rest)) : (∀ u, value ≠ .text u) ∧ ∀ found, value ≠ .object found := by
  obtain ⟨word,member,found⟩ := exists_of_findSome?_eq_some read
  obtain ⟨after,_,same⟩ := Option.map_eq_some_iff.mp found
  cases same
  simp only [words,mem_cons,not_mem_nil,or_false] at member
  rcases member with rfl | rfl | rfl | rfl | rfl | rfl
  all_goals exact ⟨fun _ => Json.noConfusion,fun _ => Json.noConfusion⟩

theorem readNumber_kind (read : readNumber t = .ok (value,rest)) : (∀ u, value ≠ .text u) ∧ ∀ found, value ≠ .object found := by
  unfold readNumber at read
  dsimp only at read
  split at read
  · cases read
  · split_ifs at read
    all_goals
      cases read
      exact ⟨fun _ => Json.noConfusion,fun _ => Json.noConfusion⟩

theorem loads_text_ne (read : loads t = .ok (.text u)) : u ≠ t := by
  rintro rfl
  unfold loads at read
  split at read
  · cases read
  · obtain ⟨⟨first,rest⟩,isRead,same⟩ := bind_ok.mp read
    simp only at same
    split at same
    · cases same
      have skipped := (skip_suffix u).length_le
      generalize skip u = v at isRead skipped
      cases v with
      | nil => cases isRead
      | cons c v =>
        rcases readValue_cases isRead with ⟨_,w,same,isText⟩ | ⟨_,_,_,_,⟨same,_⟩ | isArray⟩ | ⟨_,_,_,_,⟨same,_⟩ | isObject⟩ | found | isNumber
        · cases same
          have shorter := readText_length isText
          simp only [length_cons] at skipped
          omega
        · cases same
        · obtain ⟨_,same⟩ := readItems_array isArray
          cases same
        · cases same
        · obtain ⟨_,same⟩ := readEntries_object isObject
          cases same
        · exact (readWord_kind found).1 u rfl
        · exact (readNumber_kind isNumber).1 u rfl
    · cases same

/-- An object begins with its brace. -/
theorem readValue_brace {found : List (Text × Json)} (read : readValue fuel (c :: t) = .ok (.object found,rest)) : c = 123 := by
  cases fuel with
  | zero => cases read
  | succ fuel =>
    rcases readValue_cases read with ⟨_,_,same,_⟩ | ⟨_,_,_,_,⟨same,_⟩ | isArray⟩ | ⟨brace,_⟩ | isWord | isNumber
    · cases same
    · cases same
    · obtain ⟨_,same⟩ := readItems_array isArray
      cases same
    · exact brace
    · exact absurd rfl ((readWord_kind isWord).2 found)
    · exact absurd rfl ((readNumber_kind isNumber).2 found)

theorem atMost_total (t u : Text) : atMost t u ∨ atMost u t := by
  induction t generalizing u with
  | nil => exact .inl (by cases u <;> rfl)
  | cons c t ih =>
    cases u with
    | nil => exact .inr rfl
    | cons d u =>
      simp only [atMost,Bool.or_eq_true,Bool.and_eq_true,decide_eq_true_eq,beq_iff_eq]
      rcases Nat.lt_trichotomy c d with less | same | more
      · exact .inl (.inl less)
      · exact (ih u).imp (fun first => .inr ⟨same,first⟩) fun second => .inr ⟨same.symm,second⟩
      · exact .inr (.inl more)

theorem atMost_trans {v : Text} (first : atMost t u) (second : atMost u v) : atMost t v := by
  induction t generalizing u v with
  | nil => cases v <;> rfl
  | cons c t ih =>
    cases u with
    | nil => cases first
    | cons d u =>
      cases v with
      | nil => cases second
      | cons e v =>
        simp only [atMost,Bool.or_eq_true,Bool.and_eq_true,decide_eq_true_eq,beq_iff_eq] at first second ⊢
        rcases first with less | ⟨rfl,first⟩
        · rcases second with also | ⟨rfl,_⟩
          · exact .inl (Nat.lt_trans less also)
          · exact .inl less
        · rcases second with less | ⟨rfl,second⟩
          · exact .inl less
          · exact .inr ⟨rfl,ih first second⟩

theorem sortEntries_map (entries : List (Text × Json)) : sortEntries entries = entries.map fun entry => (entry.1,sortKeys entry.2) := by
  induction entries with
  | nil => rfl
  | cons entry rest ih => rw [sortEntries,ih,map_cons]
theorem insertionSort_idem (entries : List (Text × Json)) :
    (entries.insertionSort fun one other => atMost one.1 other.1).insertionSort (fun one other => atMost one.1 other.1) =
      entries.insertionSort fun one other => atMost one.1 other.1 := by
  have total : Std.Total fun one other : Text × Json => atMost one.1 other.1 = true := ⟨fun one other => atMost_total one.1 other.1⟩
  have trans : IsTrans (Text × Json) fun one other => atMost one.1 other.1 = true := ⟨fun _ _ _ => atMost_trans⟩
  exact (pairwise_insertionSort (fun one other : Text × Json => atMost one.1 other.1 = true) entries).insertionSort_eq

mutual

/-- Sorted keys stay as they are. -/
theorem sortKeys_sortKeys : ∀ value : Json, sortKeys (sortKeys value) = sortKeys value
  | .null => rfl
  | .bool _ => rfl
  | .integer _ => rfl
  | .float _ => rfl
  | .text _ => rfl
  | .array items => by
    rw [sortKeys,sortKeys,sortItems_sortItems items]
  | .object entries => by
    rw [sortKeys,sortKeys]
    have sorted : ∀ entry ∈ (sortEntries entries).insertionSort (fun one other => atMost one.1 other.1),
        (entry.1,sortKeys entry.2) = entry := by
      intro entry member
      have inside := (mem_insertionSort _).mp member
      exact sortEntries_sorted entries entry inside
    have same : sortEntries ((sortEntries entries).insertionSort fun one other => atMost one.1 other.1) =
        (sortEntries entries).insertionSort fun one other => atMost one.1 other.1 := by
      rw [sortEntries_map]
      exact (map_congr_left sorted).trans (map_id _)
    rw [same,insertionSort_idem]

theorem sortItems_sortItems : ∀ items : List Json, sortItems (sortItems items) = sortItems items
  | [] => rfl
  | item :: rest => by rw [sortItems,sortItems,sortKeys_sortKeys item,sortItems_sortItems rest]
theorem sortEntries_sorted : ∀ entries : List (Text × Json), ∀ entry ∈ sortEntries entries, (entry.1,sortKeys entry.2) = entry
  | [], entry, member => absurd member List.not_mem_nil
  | (key,value) :: rest, entry, member => by
    rcases List.mem_cons.mp member with rfl | later
    · rw [sortKeys_sortKeys value]
    · exact sortEntries_sorted rest entry later

end

mutual

/-- What does not depend on the order of keys holds throughout a value in any order. -/
theorem throughout_sortKeys {P : Json → Prop} (same : ∀ value, P (sortKeys value) ↔ P value) : ∀ value : Json,
    Throughout P (sortKeys value) ↔ Throughout P value
  | .null => Iff.rfl
  | .bool _ => Iff.rfl
  | .integer _ => Iff.rfl
  | .float _ => Iff.rfl
  | .text _ => Iff.rfl
  | .array items => by
    have here := same (.array items)
    rw [sortKeys] at here ⊢
    rw [Throughout,Throughout,here,throughout_sortItems same items]
  | .object entries => by
    have here := same (.object entries)
    rw [sortKeys] at here ⊢
    rw [Throughout,Throughout,here,throughoutEntries_iff]
    have perm := perm_insertionSort (fun one other : Text × Json => atMost one.1 other.1) (sortEntries entries)
    have inside : (∀ entry ∈ (sortEntries entries).insertionSort (fun one other => atMost one.1 other.1), Throughout P entry.2) ↔
        ThroughoutEntries P (sortEntries entries) := by
      rw [throughoutEntries_iff]
      exact forall_congr' fun entry => imp_congr perm.mem_iff Iff.rfl
    rw [inside,throughout_sortEntries same entries]

theorem throughout_sortItems {P : Json → Prop} (same : ∀ value, P (sortKeys value) ↔ P value) : ∀ items : List Json,
    ThroughoutItems P (sortItems items) ↔ ThroughoutItems P items
  | [] => Iff.rfl
  | item :: rest => by rw [sortItems,ThroughoutItems,ThroughoutItems,throughout_sortKeys same item,throughout_sortItems same rest]
theorem throughout_sortEntries {P : Json → Prop} (same : ∀ value, P (sortKeys value) ↔ P value) : ∀ entries : List (Text × Json),
    ThroughoutEntries P (sortEntries entries) ↔ ThroughoutEntries P entries
  | [] => Iff.rfl
  | (key,value) :: rest => by
    rw [sortEntries,ThroughoutEntries,ThroughoutEntries,throughout_sortKeys same value,throughout_sortEntries same rest]

end

theorem sorted_keys {sorted : List (Text × Json)} (same : sortKeys (.object entries) = .object sorted) :
    (sorted.map Prod.fst).Perm (entries.map Prod.fst) := by
  rw [sortKeys] at same
  cases same
  have perm := perm_insertionSort (fun one other : Text × Json => atMost one.1 other.1) (sortEntries entries)
  rw [← sortEntries_keys entries]
  exact perm.map Prod.fst

theorem textsApart_sortKeys (value : Json) : TextsApart (sortKeys value) ↔ TextsApart value := by
  cases value with
  | object entries =>
    cases sorted : sortKeys (.object entries) with
    | object all =>
      have perm := sorted_keys sorted
      simp only [TextsApart]
      constructor
      · intro apart entry member
        obtain ⟨other,isOther,same⟩ := mem_map.mp (perm.mem_iff.mpr (mem_map_of_mem member))
        exact same ▸ apart other isOther
      · intro apart entry member
        obtain ⟨other,isOther,same⟩ := mem_map.mp (perm.mem_iff.mp (mem_map_of_mem member))
        exact same ▸ apart other isOther
    | _ =>
      rw [sortKeys] at sorted
      cases sorted
  | _ => rfl

theorem proper_sortKeys (value : Json) : Proper (sortKeys value) ↔ Proper value := by
  cases value with
  | object entries =>
    cases sorted : sortKeys (.object entries) with
    | object all =>
      have perm := sorted_keys sorted
      simp only [Proper]
      rw [perm.nodup_iff]
      refine and_congr Iff.rfl ?_
      constructor
      · intro codePoints entry member
        obtain ⟨other,isOther,same⟩ := mem_map.mp (perm.mem_iff.mpr (mem_map_of_mem member))
        exact same ▸ codePoints other isOther
      · intro codePoints entry member
        obtain ⟨other,isOther,same⟩ := mem_map.mp (perm.mem_iff.mp (mem_map_of_mem member))
        exact same ▸ codePoints other isOther
    | _ =>
      rw [sortKeys] at sorted
      cases sorted
  | _ => rfl

theorem short_sortKeys (value : Json) : Short (sortKeys value) ↔ Short value := by
  cases value <;> rfl

theorem loads_sorted_iff (blank : ∀ c ∈ separators.item ++ separators.key, c = 32)
    (proper : Throughout Proper value) (short : Throughout Short value) :
    (∃ read, loads (dumps separators (sortKeys value)) = .ok read ∧ sortKeys read = sortKeys value) ↔ Throughout TextsApart value := by
  have properSorted := (throughout_sortKeys proper_sortKeys value).mpr proper
  have shortSorted := (throughout_sortKeys short_sortKeys value).mpr short
  rw [← throughout_sortKeys textsApart_sortKeys value]
  constructor
  · rintro ⟨read,isRead,same⟩
    rw [← same,throughout_sortKeys textsApart_sortKeys]
    refine loads_apart ?_ isRead
    intro c member
    exact Nat.lt_trans (printable_dumps blank _ properSorted c member).2 (by decide)
  · intro apart
    exact ⟨sortKeys value,(loads_dumps_iff blank properSorted shortSorted).mpr apart,sortKeys_sortKeys value⟩

end Codebot.JsonReadings
