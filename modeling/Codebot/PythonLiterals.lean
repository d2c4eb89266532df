import Codebot.Texts

/-!
How Python reads a string literal in double quotes, by the tokenizer and the decoding of escape sequences. A literal
that is written by putting a text between two quotes is read back as this text exactly if the text is `plain`
(`readLiteral_exact`, `readLiteral_plain`).
-/
namespace Codebot.PythonLiterals
open Texts List

def quote : Nat := '"'.toNat
def backslash : Nat := '\\'.toNat
def newline : Nat := '\n'.toNat
def carriageReturn : Nat := '\r'.toNat
def breaksLine (c : Nat) : Bool := c == newline || c == carriageReturn
def unreadable (c : Nat) : Bool := c == 0 || surrogate c
/-- The escape sequences of one character, with their values. -/
def simpleEscapes : List (Nat × Nat) :=
  [(backslash,backslash),('\''.toNat,'\''.toNat),(quote,quote),('a'.toNat,7),('b'.toNat,8),('f'.toNat,12),
    ('n'.toNat,10),('r'.toNat,13),('t'.toNat,9),('v'.toNat,11)]
def octalDigit (c : Nat) : Bool := between '0' '7' c
def hexDigit (c : Nat) : Option Nat :=
  if between '0' '9' c then some (c - '0'.toNat)
  else if between 'a' 'f' c then some (c - 'a'.toNat + 10)
  else if between 'A' 'F' c then some (c - 'A'.toNat + 10)
  else none
/-- The value of exactly so many hexadecimal digits. -/
def hexDigits : Nat → Nat → Text → Option (Nat × Text)
  | 0, value, t => some (value,t)
  | _ + 1, _, [] => none
  | count + 1, value, c :: t => (hexDigit c).bind fun digit => hexDigits count (16 * value + digit) t
/-- The value of at most so many octal digits. -/
def octalDigits : Nat → Nat → Text → Nat × Text
  | 0, value, t => (value,t)
  | _ + 1, value, [] => (value,[])
  | count + 1, value, c :: t =>
    if octalDigit c then octalDigits count (8 * value + (c - '0'.toNat)) t else (value,c :: t)

/-- The name between braces. -/
def braced : Text → Option (Text × Text)
  | [] => none
  | c :: t =>
    if c = '{'.toNat then
      match t.dropWhile (· != '}'.toNat) with
      | [] => none
      | _ :: rest => some (t.takeWhile (· != '}'.toNat),rest)
    else none

def beginsEscape (c : Nat) : Bool :=
  breaksLine c || (simpleEscapes.lookup c).isSome || octalDigit c || c == 'x'.toNat || c == 'u'.toNat ||
    c == 'U'.toNat || c == 'N'.toNat

/-- What an escape sequence stands for, after its backslash. `named` looks up the
    names of characters. A backslash before any other character stands for itself. -/
def escape (named : Text → Option Nat) : Text → Option (Text × Text)
  | [] => none
  | c :: t =>
    if c = newline then some ([],t)
    else if c = carriageReturn then some ([],(afterPrefix [newline] t).getD t)
    else if octalDigit c then
      match octalDigits 2 (c - '0'.toNat) t with
      | (value,rest) => some ([value],rest)
    else if c = 'x'.toNat then (hexDigits 2 0 t).map fun read => ([read.1],read.2)
    else if c = 'u'.toNat then (hexDigits 4 0 t).map fun read => ([read.1],read.2)
    else if c = 'U'.toNat then
      ((hexDigits 8 0 t).filter fun read => read.1 < 0x110000).map fun read => ([read.1],read.2)
    else if c = 'N'.toNat then
      (braced t).bind fun read => (named read.1).map fun value => ([value],read.2)
    else match simpleEscapes.lookup c with
      | some value => some ([value],t)
      | none => if unreadable c then none else some ([backslash,c],t)

def closes (long : Bool) (t : Text) : Option Text :=
  afterPrefix (if long then [quote,quote,quote] else [quote]) t

/-- The value of a literal up to its closing quotes, and what follows. A short
    literal ends on its line. -/
def body (named : Text → Option Nat) (long : Bool) : Nat → Text → Option (Text × Text)
  | 0, _ => none
  | fuel + 1, t =>
    match closes long t, t with
    | some rest, _ => some ([],rest)
    | none, [] => none
    | none, c :: t =>
      if c = backslash then
        (escape named t).bind fun escaped => (body named long fuel escaped.2).map fun read => (escaped.1 ++ read.1,read.2)
      else if unreadable c then none
      else if breaksLine c then
        if long then
          (body named long fuel (if c = carriageReturn then (afterPrefix [newline] t).getD t else t)).map
            fun read => (newline :: read.1,read.2)
        else none
      else (body named long fuel t).map fun read => (c :: read.1,read.2)

/-- The literal that a text begins with, and what follows it. Three quotes open a
    literal that may go over several lines. -/
def readLiteral (named : Text → Option Nat) (t : Text) : Option (Text × Text) :=
  match afterPrefix [quote,quote,quote] t, afterPrefix [quote] t with
  | some rest, _ => body named true (rest.length + 1) rest
  | none, some rest => body named false (rest.length + 1) rest
  | none, none => none
def plainCharacter (c : Nat) : Bool := c != quote && c != backslash && !breaksLine c && !unreadable c
/-- A text that is its own literal. -/
def plain : Text → Bool
  | [] => true
  | [c] => plainCharacter c
  | c :: d :: t =>
    if c = backslash then !beginsEscape d && !unreadable d && plain t else plainCharacter c && plain (d :: t)

variable {t : Text}

theorem hexDigits_length {count value : Nat} {read : Nat × Text} (digits : hexDigits count value t = some read) :
    read.2.length ≤ t.length := by
  induction count generalizing value t with
  | zero =>
    cases digits
    exact Nat.le_refl _
  | succ count ih =>
    cases t with
    | nil => cases digits
    | cons c t =>
      obtain ⟨digit,_,rest⟩ := Option.bind_eq_some_iff.mp digits
      have shorter := ih rest
      rw [length_cons]
      omega

theorem octalDigits_length (count value : Nat) (t : Text) : (octalDigits count value t).2.length ≤ t.length := by
  induction count generalizing value t with
  | zero => exact Nat.le_refl _
  | succ count ih =>
    cases t with
    | nil => exact Nat.le_refl _
    | cons c t =>
      simp only [octalDigits]
      split
      · have shorter := ih (8 * value + (c - '0'.toNat)) t
        rw [length_cons]
        omega
      · exact Nat.le_refl _

variable {rest : Text}
theorem afterPrefix_length {first : Text} (stripped : afterPrefix first t = some rest) :
    t.length = first.length + rest.length := by
  rw [afterPrefix_some.mp stripped,length_append]
theorem getD_length (first t : Text) : ((afterPrefix first t).getD t).length ≤ t.length := by
  cases stripped : afterPrefix first t with
  | none => exact Nat.le_refl _
  | some rest =>
    have longer := afterPrefix_length stripped
    simp only [Option.getD_some]
    omega

theorem braced_length {read : Text × Text} (isBraced : braced t = some read) : read.2.length ≤ t.length := by
  cases t with
  | nil => cases isBraced
  | cons c t =>
    simp only [braced] at isBraced
    split at isBraced
    · have shorter := (dropWhile_sublist (l := t) fun d => d != '}'.toNat).length_le
      split at isBraced
      · cases isBraced
      · rename_i same
        cases isBraced
        rw [same,length_cons] at shorter
        simp only [length_cons]
        omega
    · cases isBraced

variable {named : Text → Option Nat}

theorem escape_some {read : Text × Text} (escaped : escape named t = some read) :
    read.1.length + read.2.length ≤ t.length ∨
      ∃ c, t = c :: read.2 ∧ read.1 = [backslash,c] ∧ beginsEscape c = false ∧ unreadable c = false := by
  cases t with
  | nil => cases escaped
  | cons c t =>
    have one : ∀ value rest, rest.length ≤ t.length → read = ([value],rest) →
        read.1.length + read.2.length ≤ (c :: t).length := by
      rintro value rest shorter rfl
      simp only [length_cons,length_nil]
      omega
    have digits : ∀ (number : Option (Nat × Text)), (∀ value ∈ number, value.2.length ≤ t.length) →
        (number.map fun value => ([value.1],value.2)) = some read →
        read.1.length + read.2.length ≤ (c :: t).length := by
      intro number shorter isRead
      obtain ⟨value,isValue,rfl⟩ := Option.map_eq_some_iff.mp isRead
      exact one value.1 value.2 (shorter value isValue) rfl
    simp only [escape] at escaped
    split at escaped
    · cases escaped
      exact .inl (by simp)
    rename_i notNewline
    split at escaped
    · cases escaped
      have shorter := getD_length [newline] t
      exact .inl (by simp only [length_nil,length_cons]; omega)
    rename_i notReturn
    split at escaped
    · cases escaped
      exact .inl (one _ _ (octalDigits_length 2 _ t) rfl)
    rename_i notOctal
    split at escaped
    · exact .inl (digits _ (fun value isValue => hexDigits_length isValue) escaped)
    rename_i notX
    split at escaped
    · exact .inl (digits _ (fun value isValue => hexDigits_length isValue) escaped)
    rename_i notU
    split at escaped
    · exact .inl (digits _ (fun value isValue => hexDigits_length (Option.mem_filter_iff.mp isValue).1) escaped)
    rename_i notLongU
    split at escaped
    · obtain ⟨name,isBraced,found⟩ := Option.bind_eq_some_iff.mp escaped
      obtain ⟨value,_,rfl⟩ := Option.map_eq_some_iff.mp found
      exact .inl (one _ _ (braced_length isBraced) rfl)
    rename_i notN
    split at escaped
    · cases escaped
      exact .inl (one _ _ (Nat.le_refl _) rfl)
    · rename_i notSimple
      split at escaped
      · cases escaped
      · rename_i readable
        cases escaped
        refine .inr ⟨c,rfl,rfl,?_,by simpa using readable⟩
        simp only [beginsEscape,breaksLine,notSimple,Option.isSome_none,Bool.or_false,Bool.or_eq_false_iff,beq_eq_false_iff_ne]
        exact ⟨⟨⟨⟨⟨⟨notNewline,notReturn⟩,by simpa using notOctal⟩,notX⟩,notU⟩,notLongU⟩,notN⟩

theorem body_length {long : Bool} {fuel : Nat} {read : Text × Text} (isRead : body named long fuel t = some read) :
    read.1.length + read.2.length + (if long then 3 else 1) ≤ t.length := by
  induction fuel generalizing t read with
  | zero => cases isRead
  | succ fuel ih =>
    unfold body at isRead
    split at isRead
    · rename_i closed
      cases isRead
      have quotes := afterPrefix_length closed
      cases long <;> simp_all only [length_cons,length_nil,if_true,Bool.false_eq_true,if_false] <;> omega
    · cases isRead
    · rename_i c t _
      split at isRead
      · obtain ⟨escaped,isEscaped,rest⟩ := Option.bind_eq_some_iff.mp isRead
        obtain ⟨later,isLater,rfl⟩ := Option.map_eq_some_iff.mp rest
        have shorter := ih isLater
        have longer : escaped.1.length + escaped.2.length ≤ t.length + 1 := by
          rcases escape_some isEscaped with bound | ⟨d,same,value,_⟩
          · omega
          · rw [same,value]
            simp only [length_cons,length_nil]
            omega
        simp only [length_append,length_cons]
        omega
      · split at isRead
        · cases isRead
        · split at isRead
          · split at isRead
            · obtain ⟨later,isLater,rfl⟩ := Option.map_eq_some_iff.mp isRead
              have shorter := ih isLater
              have dropped : (if c = carriageReturn then (afterPrefix [newline] t).getD t else t).length ≤ t.length := by
                split
                · exact getD_length [newline] t
                · exact Nat.le_refl _
              simp only [length_cons]
              omega
            · cases isRead
          · obtain ⟨later,isLater,rfl⟩ := Option.map_eq_some_iff.mp isRead
            have shorter := ih isLater
            simp only [length_cons]
            omega

theorem plain_cons {c : Nat} (other : c ≠ backslash) : plain (c :: t) = (plainCharacter c && plain t) := by
  cases t with
  | nil => simp [plain]
  | cons d t => rw [plain,if_neg other]
theorem plain_escape (c : Nat) (t : Text) : plain (backslash :: c :: t) = (!beginsEscape c && !unreadable c && plain t) := by
  rw [plain,if_pos rfl]

theorem body_exact {fuel : Nat} {read : Text × Text}
    (isRead : body named false fuel t = some read) (tight : t.length ≤ read.1.length + read.2.length + 1) :
    t = read.1 ++ quote :: read.2 ∧ plain read.1 := by
  induction fuel generalizing t read with
  | zero => cases isRead
  | succ fuel ih =>
    unfold body at isRead
    split at isRead
    · rename_i closed
      cases isRead
      exact ⟨(@afterPrefix_some [quote] _ _).mp closed,rfl⟩
    · cases isRead
    · rename_i c t notClosed
      have notQuote : c ≠ quote := by
        rintro rfl
        cases t <;> simp [closes,afterPrefix] at notClosed
      split at isRead
      · rename_i isBackslash
        obtain ⟨escaped,isEscaped,rest⟩ := Option.bind_eq_some_iff.mp isRead
        obtain ⟨later,isLater,rfl⟩ := Option.map_eq_some_iff.mp rest
        have longer := body_length isLater
        simp only [length_append,length_cons,Bool.false_eq_true,if_false] at tight longer
        rcases escape_some isEscaped with bound | ⟨d,same,value,begins,readable⟩
        · omega
        · have tail : escaped.2.length ≤ later.1.length + later.2.length + 1 := by
            rw [same,value] at tight
            simp only [length_cons,length_nil] at tight
            omega
          obtain ⟨written,isPlain⟩ := ih isLater tail
          rw [isBackslash,same,value]
          refine ⟨?_,?_⟩
          · rw [written]
            rfl
          · have kept : plain (backslash :: d :: later.1) = true := by
              rw [plain_escape,begins,readable,isPlain]
              rfl
            exact kept
      · rename_i notBackslash
        split at isRead
        · cases isRead
        · rename_i readable
          split at isRead
          · cases isRead
          · rename_i sameLine
            obtain ⟨later,isLater,rfl⟩ := Option.map_eq_some_iff.mp isRead
            simp only [length_cons] at tight
            obtain ⟨written,isPlain⟩ := ih isLater (by omega)
            refine ⟨?_,?_⟩
            · rw [written]
              rfl
            · rw [plain_cons notBackslash,isPlain,Bool.and_true]
              simp [plainCharacter,notQuote,notBackslash,sameLine,readable]

theorem escape_kept (named : Text → Option Nat) {c : Nat} (begins : beginsEscape c = false) (readable : unreadable c = false)
    (t : Text) : escape named (c :: t) = some ([backslash,c],t) := by
  simp only [beginsEscape,breaksLine,Bool.or_eq_false_iff,beq_eq_false_iff_ne] at begins
  obtain ⟨⟨⟨⟨⟨⟨⟨notNewline,notReturn⟩,notSimple⟩,notOctal⟩,notX⟩,notU⟩,notLongU⟩,notN⟩ := begins
  rw [Option.isSome_eq_false_iff,Option.isNone_iff_eq_none] at notSimple
  simp only [escape,if_neg notNewline,if_neg notReturn,notOctal,Bool.false_eq_true,if_false,if_neg notX,if_neg notU,
    if_neg notLongU,if_neg notN,notSimple,readable]
theorem closes_quote (t : Text) : closes false (quote :: t) = some t := afterPrefix_append [quote] t
theorem closes_other {c : Nat} (other : c ≠ quote) (t : Text) : closes false (c :: t) = none := by
  simp only [closes,afterPrefix,Bool.false_eq_true,if_false,if_neg (Ne.symm other)]
theorem body_character (named : Text → Option Nat) {c : Nat} (isPlain : plainCharacter c) (t : Text) (fuel : Nat) :
    body named false (fuel + 1) (c :: t) = (body named false fuel t).map fun read => (c :: read.1,read.2) := by
  simp only [plainCharacter,Bool.and_eq_true,bne_iff_ne,Bool.not_eq_true'] at isPlain
  obtain ⟨⟨⟨notQuote,notBackslash⟩,sameLine⟩,readable⟩ := isPlain
  simp only [body,closes_other notQuote,if_neg notBackslash,readable,sameLine,Bool.false_eq_true,if_false]
theorem body_escape (named : Text → Option Nat) {c : Nat} (begins : beginsEscape c = false) (readable : unreadable c = false)
    (t : Text) (fuel : Nat) : body named false (fuel + 1) (backslash :: c :: t) =
      (body named false fuel t).map fun read => (backslash :: c :: read.1,read.2) := by
  have notQuote : backslash ≠ quote := by decide
  simp only [body,closes_other notQuote,if_true,escape_kept named begins readable,Option.bind_some]
  rfl

variable {value : Text}

theorem body_plain (named : Text → Option Nat) (isPlain : plain value) (rest : Text) {fuel : Nat}
    (enough : value.length < fuel) : body named false fuel (value ++ quote :: rest) = some (value,rest) := by
  obtain ⟨fuel,rfl⟩ := Nat.exists_eq_succ_of_ne_zero (Nat.ne_of_gt (Nat.lt_of_le_of_lt (Nat.zero_le _) enough))
  induction value using plain.induct generalizing fuel with
  | case1 => simp only [nil_append,body,closes_quote]
  | case2 c =>
    have isCharacter : plainCharacter c = true := isPlain
    simp only [length_cons,length_nil] at enough
    obtain ⟨more,rfl⟩ := Nat.exists_eq_succ_of_ne_zero (show fuel ≠ 0 by omega)
    rw [cons_append,nil_append,Nat.succ_eq_add_one,body_character named isCharacter]
    simp only [body,closes_quote,Option.map_some]
  | case3 d t ih =>
    rw [plain_escape,Bool.and_eq_true,Bool.and_eq_true,Bool.not_eq_true',Bool.not_eq_true'] at isPlain
    obtain ⟨⟨begins,readable⟩,tail⟩ := isPlain
    simp only [length_cons] at enough
    obtain ⟨more,rfl⟩ := Nat.exists_eq_succ_of_ne_zero (show fuel ≠ 0 by omega)
    have later := ih tail more (by omega)
    rw [cons_append,cons_append,Nat.succ_eq_add_one,body_escape named begins readable,later]
    rfl
  | case4 c d t other ih =>
    rw [plain_cons other,Bool.and_eq_true] at isPlain
    have enough : t.length + 2 < fuel + 1 := enough
    obtain ⟨more,rfl⟩ := Nat.exists_eq_succ_of_ne_zero (show fuel ≠ 0 by omega)
    have later := ih isPlain.2 more (show t.length + 1 < more + 1 by omega)
    rw [cons_append,Nat.succ_eq_add_one,body_character named isPlain.1,later]
    rfl

/-- A literal is longer than its value by its quotes, and only a plain one by no more than two. -/
theorem readLiteral_exact {read : Text × Text} (isRead : readLiteral named t = some read) :
    read.1.length + read.2.length + 2 ≤ t.length ∧
      (t.length ≤ read.1.length + read.2.length + 2 → t = quote :: (read.1 ++ quote :: read.2) ∧ plain read.1) := by
  unfold readLiteral at isRead
  split at isRead
  · rename_i isLong
    have quotes := afterPrefix_length isLong
    have longer := body_length isRead
    simp only [length_cons,length_nil,if_true] at quotes longer
    refine ⟨by omega,fun tight => ?_⟩
    omega
  · rename_i rest notLong isShort
    have quotes := afterPrefix_length isShort
    have longer := body_length isRead
    simp only [length_cons,length_nil,Bool.false_eq_true,if_false] at quotes longer
    refine ⟨by omega,fun tight => ?_⟩
    obtain ⟨written,isPlain⟩ := body_exact isRead (by omega)
    rw [afterPrefix_some.mp isShort,written]
    exact ⟨rfl,isPlain⟩
  · cases isRead

/-- A plain text between quotes is read back. -/
theorem readLiteral_plain (named : Text → Option Nat) (isPlain : plain value) (nonempty : value ≠ [])
    (rest : Text) : readLiteral named (quote :: (value ++ quote :: rest)) = some (value,rest) := by
  obtain ⟨c,t,rfl⟩ := exists_cons_of_ne_nil nonempty
  have notQuote : c ≠ quote := by
    rintro rfl
    cases t with
    | nil => cases isPlain
    | cons d t =>
      rw [plain,if_neg (by decide)] at isPlain
      cases isPlain
  have notLong : afterPrefix [quote,quote,quote] (quote :: (c :: t ++ quote :: rest)) = none := by
    simp only [afterPrefix,cons_append,if_true,if_neg (Ne.symm notQuote)]
  have isShort : afterPrefix [quote] (quote :: (c :: t ++ quote :: rest)) = some (c :: t ++ quote :: rest) :=
    afterPrefix_append [quote] _
  simp only [readLiteral,notLong,isShort]
  exact body_plain named isPlain rest (by simp only [length_append,length_cons]; omega)

/-- A part of a source: fixed text, a text between quotes, or a name. -/
inductive Piece
  | fixed (s : String)
  | literal (value : Text)
  | name (value : Text)
def Piece.render : Piece → Text
  | .fixed s => text s
  | .literal value => quote :: (value ++ [quote])
  | .name value => value
def source (pieces : List Piece) : Text := pieces.flatMap Piece.render
def namePart (c : Nat) : Bool := asciiLetter c || asciiDigit c || c == '_'.toNat || 128 ≤ c
/-- Python reads one part: the fixed text as it is, a literal with this value, or this whole name. -/
def Piece.read (named : Text → Option Nat) (t : Text) : Piece → Option Text
  | .fixed s => afterPrefix (text s) t
  | .literal value => ((readLiteral named t).filter fun read => read.1 = value).map Prod.snd
  | .name value => if t.takeWhile namePart = value then some (t.dropWhile namePart) else none
def reads (named : Text → Option Nat) : List Piece → Text → Bool
  | [], t => t.isEmpty
  | piece :: rest, t => (piece.read named t).any (reads named rest)
def Piece.good (next : List Piece) : Piece → Bool
  | .fixed _ => true
  | .literal value => plain value
  | .name value => value.all namePart && !((source next).head?.any namePart)
theorem source_cons (piece : Piece) (rest : List Piece) : source (piece :: rest) = piece.render ++ source rest := rfl

theorem read_exact {piece : Piece} (isRead : piece.read named t = some rest) :
    piece.render.length + rest.length ≤ t.length ∧
      (t.length ≤ piece.render.length + rest.length → ∀ value, piece = .literal value → plain value) := by
  cases piece with
  | fixed s =>
    have longer := afterPrefix_length isRead
    refine ⟨?_,by simp⟩
    simp only [Piece.render]
    omega
  | literal value =>
    obtain ⟨read,isFiltered,rfl⟩ := Option.map_eq_some_iff.mp isRead
    obtain ⟨isLiteral,same⟩ := Option.mem_filter_iff.mp isFiltered
    have same : read.1 = value := by simpa using same
    obtain ⟨longer,exact_⟩ := readLiteral_exact isLiteral
    simp only [Piece.render,length_cons,length_append,length_nil,← same]
    refine ⟨by omega,?_⟩
    rintro tight _ ⟨⟩
    exact (exact_ (by omega)).2
  | name value =>
    simp only [Piece.read] at isRead
    split at isRead
    · rename_i same
      cases isRead
      have parts := congrArg List.length (takeWhile_append_dropWhile (p := namePart) (l := t))
      rw [length_append,same] at parts
      exact ⟨by simp only [Piece.render]; omega,by simp⟩
    · cases isRead

variable {pieces : List Piece}

theorem reads_plain (isRead : reads named pieces t) :
    (source pieces).length ≤ t.length ∧
      (t.length ≤ (source pieces).length → ∀ value, .literal value ∈ pieces → plain value) := by
  induction pieces generalizing t with
  | nil => simp [source]
  | cons piece rest ih =>
    obtain ⟨later,isPiece,isRest⟩ := (Option.any_eq_true _ _).mp isRead
    obtain ⟨longer,exact_⟩ := read_exact isPiece
    obtain ⟨longerRest,exactRest⟩ := ih isRest
    rw [source_cons,length_append]
    refine ⟨by omega,?_⟩
    intro tight value member
    rcases mem_cons.mp member with same | later
    · exact exact_ (by omega) value same.symm
    · exact exactRest (by omega) value later

def readable : List Piece → Bool
  | [] => true
  | piece :: rest => piece.good rest && readable rest

theorem reads_source (named : Text → Option Nat) (good : readable pieces)
    (nonempty : ∀ value, .literal value ∈ pieces → value ≠ []) : reads named pieces (source pieces) := by
  induction pieces with
  | nil => rfl
  | cons piece rest ih =>
    rw [readable,Bool.and_eq_true] at good
    have later := ih good.2 fun value member => nonempty value (mem_cons_of_mem _ member)
    have isPiece : piece.read named (piece.render ++ source rest) = some (source rest) := by
      cases piece with
      | fixed s => exact afterPrefix_append (text s) (source rest)
      | literal value =>
        have isLiteral := readLiteral_plain named good.1 (nonempty value mem_cons_self) (source rest)
        have written : Piece.render (.literal value) ++ source rest = quote :: (value ++ quote :: source rest) := by
          simp [Piece.render]
        rw [written]
        simp [Piece.read,isLiteral]
      | name value =>
        simp only [Piece.good,Bool.and_eq_true,Bool.not_eq_true',Option.any_eq_false,all_eq_true] at good
        obtain ⟨⟨parts,ends⟩,_⟩ := good
        have stop : (source rest).takeWhile namePart = [] ∧ (source rest).dropWhile namePart = source rest := by
          cases later : source rest with
          | nil => exact ⟨rfl,rfl⟩
          | cons c t =>
            have other : namePart c = false := by simpa [later] using ends
            simp [other]
        simp only [Piece.read,Piece.render,takeWhile_append_of_pos parts,dropWhile_append_of_pos parts,
          stop.1,stop.2,append_nil,if_true]
    rw [source_cons,reads,isPiece]
    exact later

theorem reads_source_iff (named : Text → Option Nat) {pieces : List Piece}
    (nonempty : ∀ value, .literal value ∈ pieces → value ≠ [])
    (names : (∀ value, .literal value ∈ pieces → plain value) → readable pieces) :
    reads named pieces (source pieces) ↔ ∀ value, .literal value ∈ pieces → plain value :=
  ⟨fun isRead => (reads_plain isRead).2 (Nat.le_refl _),fun literals => reads_source named (names literals) nonempty⟩

end Codebot.PythonLiterals
