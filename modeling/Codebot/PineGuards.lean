import Codebot.NautilusStrategy
import Mathlib.Data.List.TakeWhile

/-!
The guard of Pine sources for local previews: its search for blocked calls in the source without comments and
literals, and its searches for entries and exits in the source as it stands. Comments are taken out without regard to
literals (`calls_seen`).
-/
namespace Codebot.PineGuards
open Texts NautilusStrategy List

def marked (first second : Nat) (t : Text) : Bool := t.head? == some first && t.tail.head? == some second
def blockEnd : Text → Option Nat
  | [] => none
  | c :: rest => if marked 42 47 (c :: rest) then some 2 else (blockEnd rest).map (· + 1)
/-- The length of a match of `/\*.*?\*/` at the start of the text. -/
def blockComment (t : Text) : Option Nat :=
  if marked 47 42 t then (blockEnd (t.drop 2)).map (· + 2) else none

/-- `re.sub` of block comments, where the first characters are yet to be left out. -/
def withoutBlocks : Nat → Text → Text
  | _, [] => []
  | skipped + 1, _ :: rest => withoutBlocks skipped rest
  | 0, c :: rest =>
    match blockComment (c :: rest) with
    | some length => withoutBlocks (length - 1) rest
    | none => c :: withoutBlocks 0 rest

/-- `re.sub` of `//.*`, in a comment or not. -/
def withoutLines : Bool → Text → Text
  | _, [] => []
  | true, c :: rest => if c = 10 then 10 :: withoutLines false rest else withoutLines true rest
  | false, c :: rest => if marked 47 47 (c :: rest) then withoutLines true rest else c :: withoutLines false rest
def stripPineComments (code : Text) : Text := withoutLines false (withoutBlocks 0 code)

/-- The loop of `_strip_pine_strings`, with its `quote` and `escaped`. -/
def stripPineStrings : Option Nat → Bool → Text → Text
  | _, _, [] => []
  | some quote, true, _ :: rest => 32 :: stripPineStrings (some quote) false rest
  | some quote, false, c :: rest =>
    if c = 92 then 32 :: stripPineStrings (some quote) true rest
    else if c = quote then c :: stripPineStrings none false rest
    else (if c = 10 then 10 else 32) :: stripPineStrings (some quote) false rest
  | none, escaped, c :: rest =>
    c :: stripPineStrings (if c = 39 ∨ c = 34 then some c else none) escaped rest

/-- The tables that `re` reads: Unicode's, and the characters of words. -/
structure Tables extends StableUnicode where
  word : Nat → Bool

section
variable (tables : Tables)

/-- `\bname\s*\(` at a place, after the character before it. -/
def callAt (name : Text) (previous : Option Nat) (t : Text) : Bool :=
  !previous.any tables.word &&
    (afterPrefix name t).any fun rest => (rest.dropWhile tables.space).head? == some 40
/-- `re.search` of a call. -/
def called (name : Text) : Option Nat → Text → Bool
  | _, [] => false
  | previous, c :: rest => callAt tables name previous (c :: rest) || called name (some c) rest
def blockedPatterns : List (String × Text) :=
  [("alert",text "alert"),("alertcondition",text "alertcondition"),("request_seed",text "request.seed"),
    ("request_security",text "request.security")]
def blocked (code : Text) : List String :=
  let loweredExecutableCode := tables.lower (stripPineStrings none false (stripPineComments code))
  (blockedPatterns.filter fun pattern => called tables pattern.2 none loweredExecutableCode).map Prod.fst
def hasStrategyEntry (code : Text) : Bool := called tables (text "strategy.entry") none code
def hasExitOrClose (code : Text) : Bool :=
  called tables (text "strategy.exit") none code || called tables (text "strategy.close") none code
def blockedCheck (code : Text) : Check :=
  validationCheck "pineforge_blocked_constructs" (blocked tables code).isEmpty
    (if (blocked tables code).isEmpty then "No blocked offline backtest constructs found."
      else "Blocked PineForge POC constructs: " ++ ", ".intercalate (blocked tables code))
def entryCheck (code : Text) : Check :=
  validationCheck "pineforge_strategy_entry" (hasStrategyEntry tables code)
    "PineForge POC requires at least one strategy.entry call."
def exitCheck (code : Text) : Check :=
  validationCheck "pineforge_exit_logic" (hasExitOrClose tables code)
    "PineForge POC requires strategy.exit or explicit strategy.close exit logic."

end

/-- Where a character of a Pine source stands. -/
inductive Place
  | code
  | comment
  | literal (quote : Nat)
  | escaped (quote : Nat)
def Place.isCode : Place → Bool
  | .code => true
  | _ => false
def Place.isLiteral : Place → Bool
  | .literal _ | .escaped _ => true
  | _ => false
/-- The place after the first character. -/
def Place.next : Place → Nat → Text → Place
  | .code, c, rest => if marked 47 47 (c :: rest) then .comment else if c = 39 ∨ c = 34 then .literal c else .code
  | .comment, c, _ => if c = 10 then .code else .comment
  | .literal quote, c, _ => if c = 92 then .escaped quote else if c = quote then .code else .literal quote
  | .escaped quote, _, _ => .literal quote
/-- What is executed of the first character: the values of literals are blank. -/
def Place.shown : Place → Nat → Text → Text
  | .code, c, rest => if marked 47 47 (c :: rest) then [] else [c]
  | .comment, c, _ => if c = 10 then [10] else []
  | .literal quote, c, _ => [if c = 92 then 32 else if c = quote then c else if c = 10 then 10 else 32]
  | .escaped _, _, _ => [32]
/-- The source without its comments and the values of its literals. -/
def executable : Place → Text → Text
  | _, [] => []
  | place, c :: rest => place.shown c rest ++ executable (place.next c rest) rest
/-- A block comment is opened and closed. -/
def blockClosed : Text → Bool
  | [] => false
  | c :: rest => (blockComment (c :: rest)).isSome || blockClosed rest
/-- A line comment's mark stands in a literal. -/
def literalMarked : Place → Text → Bool
  | _, [] => false
  | place, c :: rest => place.isLiteral && marked 47 47 (c :: rest) || literalMarked (place.next c rest) rest

variable (tables : Tables)
/-- A call begins in the code, or, the other way, in a comment or a literal. -/
def begins (inCode : Bool) (name : Text) : Option Nat → Place → Text → Bool
  | _, _, [] => false
  | previous, place, c :: rest =>
    place.isCode == inCode && callAt tables name previous (c :: rest) ||
      begins inCode name (some c) (place.next c rest) rest

/-- The checks see the calls that are executed. -/
structure CallsSeen (code : Text) : Prop where
  blocked : (blockedCheck tables code).status = .fail ↔
    ∃ pattern ∈ blockedPatterns, called tables pattern.2 none (tables.lower (executable .code code)) = true
  entry : (entryCheck tables code).status = .pass → called tables (text "strategy.entry") none (executable .code code) = true
  exit : (exitCheck tables code).status = .pass →
    called tables (text "strategy.exit") none (executable .code code) = true ∨
      called tables (text "strategy.close") none (executable .code code) = true

def tradeNames : List Text := [text "strategy.entry",text "strategy.exit",text "strategy.close"]
/-- No block comment is closed, no literal holds a line comment's mark, and an entry or an exit that is called in a
    comment or a literal is also called in the code. -/
structure Apart (code : Text) : Prop where
  blocks : blockClosed code = false
  marks : literalMarked .code code = false
  calls : ∀ name ∈ tradeNames,
    begins tables false name none .code code = true → begins tables true name none .code code = true

variable {tables} {t : Text}
theorem withoutBlocks_same (open_ : blockClosed t = false) : withoutBlocks 0 t = t := by
  induction t with
  | nil => rfl
  | cons c rest ih =>
    simp only [blockClosed,Bool.or_eq_false_iff,Option.isSome_eq_false_iff,Option.isNone_iff_eq_none] at open_
    simp only [withoutBlocks,open_.1,ih open_.2]
def Place.quote : Place → Option Nat
  | .literal quote | .escaped quote => some quote
  | _ => none
def Place.isEscaped : Place → Bool
  | .escaped _ => true
  | _ => false
def Place.isComment : Place → Bool
  | .comment => true
  | _ => false

/-- The two passes do what the lexer does, where no literal holds a mark. -/
theorem passes_executable {place : Place} (plain : literalMarked place t = false) :
    stripPineStrings place.quote place.isEscaped (withoutLines place.isComment t) = executable place t := by
  induction t generalizing place with
  | nil => cases place <;> rfl
  | cons c rest ih =>
    simp only [literalMarked,Bool.or_eq_false_iff] at plain
    rw [executable,← ih plain.2]
    cases place with
    | code =>
      simp only [Place.isComment,withoutLines,Place.shown,Place.next]
      split
      · rfl
      · simp only [Place.quote,Place.isEscaped,stripPineStrings]
        split <;> rfl
    | comment =>
      simp only [Place.isComment,withoutLines,Place.shown,Place.next]
      split <;> rfl
    | literal quote =>
      have unmarked : ¬ marked 47 47 (c :: rest) = true := by simpa [Place.isLiteral] using plain.1
      simp only [Place.isComment,withoutLines,if_neg unmarked,Place.shown,Place.next,Place.quote,Place.isEscaped,
        stripPineStrings]
      split
      · rfl
      · split <;> rfl
    | escaped quote =>
      have unmarked : ¬ marked 47 47 (c :: rest) = true := by simpa [Place.isLiteral] using plain.1
      simp only [Place.isComment,withoutLines,if_neg unmarked]
      rfl

theorem stripped_executable (blocks : blockClosed t = false) (marks : literalMarked .code t = false) :
    stripPineStrings none false (stripPineComments t) = executable .code t := by
  rw [stripPineComments,withoutBlocks_same blocks]
  exact passes_executable marks
/-- The characters that begin no comment and no literal. -/
def Plain (c : Nat) : Prop := c ≠ 47 ∧ c ≠ 39 ∧ c ≠ 34

theorem executable_plain {plain : Text} (isPlain : ∀ c ∈ plain, Plain c) :
    executable .code (plain ++ t) = plain ++ executable .code t := by
  induction plain with
  | nil => rfl
  | cons c plain ih =>
    obtain ⟨here,later⟩ := forall_mem_cons.mp isPlain
    have unmarked : ¬ marked 47 47 (c :: (plain ++ t)) = true := by simp [marked,here.1]
    have unquoted : ¬ (c = 39 ∨ c = 34) := not_or.mpr here.2
    simp only [cons_append,executable,Place.shown,Place.next,if_neg unmarked,if_neg unquoted,ih later]
    rfl

variable {name : Text} {previous : Option Nat}
theorem plain_space (c : Nat) (space : tables.space c = true) : Plain c := by
  refine ⟨?_,?_,?_⟩
  all_goals
    rintro rfl
    rw [tables.space_ascii _ (by decide)] at space
    revert space
    decide

/-- A call that begins in the code is executed. -/
theorem callAt_executable (isPlain : ∀ c ∈ name, Plain c) (here : callAt tables name previous t = true) :
    callAt tables name previous (executable .code t) = true := by
  simp only [callAt,Bool.and_eq_true,Option.any_eq_true,beq_iff_eq] at here ⊢
  obtain ⟨starts,rest,isRest,opened⟩ := here
  obtain ⟨after,isAfter⟩ := head?_eq_some_iff.mp opened
  have parts : t = name ++ (rest.takeWhile tables.space ++ ([40] ++ after)) := by
    rw [afterPrefix_some.mp isRest]
    exact congrArg _ (takeWhile_append_dropWhile.symm.trans (congrArg _ isAfter))
  have spaces : ∀ c ∈ rest.takeWhile tables.space, tables.space c = true := fun c member => mem_takeWhile_imp member
  have bracket : tables.space 40 = false := (tables.space_ascii 40 (by decide)).trans (by decide)
  refine ⟨starts,rest.takeWhile tables.space ++ ([40] ++ executable .code after),?_,?_⟩
  · rw [parts,executable_plain isPlain,executable_plain fun c member => plain_space c (spaces c member),
      executable_plain (show ∀ c ∈ [40], Plain c by simp [Plain]),afterPrefix_append]
  · rw [dropWhile_append_of_pos spaces,singleton_append,dropWhile_cons_of_neg (by simp [bracket])]
    rfl

theorem callAt_called (here : callAt tables name previous t = true) : called tables name previous t = true := by
  cases t with
  | nil =>
    simp only [callAt,Bool.and_eq_true,Option.any_eq_true,beq_iff_eq] at here
    obtain ⟨_,rest,isRest,opened⟩ := here
    obtain ⟨_,rfl⟩ := append_eq_nil_iff.mp (afterPrefix_some.mp isRest).symm
    cases opened
  | cons c rest => rw [called,here,Bool.true_or]

/-- A character is shown where the code goes on after it. -/
theorem shown_cases (place : Place) (c : Nat) (rest : Text) :
    place.shown c rest = [] ∧ (place.next c rest).isCode = false ∨
      ∃ d, place.shown c rest = [d] ∧ ((place.next c rest).isCode = true → d = c) := by
  cases place with
  | code =>
    simp only [Place.shown,Place.next]
    split
    · exact .inl ⟨rfl,rfl⟩
    · exact .inr ⟨c,rfl,fun _ => rfl⟩
  | comment =>
    simp only [Place.shown,Place.next]
    split
    · rename_i ended
      exact .inr ⟨10,rfl,fun _ => ended.symm⟩
    · exact .inl ⟨rfl,rfl⟩
  | literal quote =>
    refine .inr ⟨_,rfl,fun goesOn => ?_⟩
    simp only [Place.next] at goesOn
    split at goesOn
    · cases goesOn
    · split at goesOn
      · rename_i slash closed
        rw [if_neg slash,if_pos closed]
      · cases goesOn
  | escaped quote => exact .inr ⟨32,rfl,fun isCode => absurd isCode Bool.false_ne_true⟩

theorem begins_called (isPlain : ∀ c ∈ name, Plain c) {place : Place} {shown : Option Nat}
    (same : place.isCode = true → shown = previous) (begun : begins tables true name previous place t = true) :
    called tables name shown (executable place t) = true := by
  induction t generalizing previous place shown with
  | nil => cases begun
  | cons c rest ih =>
    simp only [begins,Bool.or_eq_true,Bool.and_eq_true,beq_iff_eq] at begun
    rcases begun with ⟨isCode,here⟩ | later
    · obtain rfl : place = .code := by cases place <;> first | rfl | cases isCode
      rw [same rfl]
      exact callAt_called (callAt_executable isPlain here)
    · rw [executable]
      rcases shown_cases place c rest with ⟨hidden,notCode⟩ | ⟨d,isShown,follows⟩
      · rw [hidden]
        exact ih (fun isCode => absurd (notCode.symm.trans isCode) Bool.false_ne_true) later
      · rw [isShown,singleton_append,called]
        have rest := @ih (some c) (place.next c rest) (some d) (fun isCode => congrArg some (follows isCode)) later
        rw [rest,Bool.or_true]

/-- Every call begins somewhere. -/
theorem called_begins {place : Place} (found : called tables name previous t = true) :
    begins tables true name previous place t = true ∨ begins tables false name previous place t = true := by
  induction t generalizing previous place with
  | nil => cases found
  | cons c rest ih =>
    simp only [called,Bool.or_eq_true] at found
    simp only [begins,Bool.or_eq_true,Bool.and_eq_true,beq_iff_eq]
    rcases found with here | later
    · cases isCode : place.isCode with
      | true => exact .inl (.inl ⟨rfl,here⟩)
      | false => exact .inr (.inl ⟨rfl,here⟩)
    · exact (ih later).imp .inr .inr

variable {code : Text}
theorem Apart.executed (apart : Apart tables code) (isName : name ∈ tradeNames)
    (found : called tables name none code = true) : called tables name none (executable .code code) = true := by
  have isPlain : ∀ name ∈ tradeNames, ∀ c ∈ name, c ≠ 47 ∧ c ≠ 39 ∧ c ≠ 34 := by decide +kernel
  exact begins_called (isPlain name isName) (fun _ => rfl) ((called_begins found).elim id (apart.calls name isName))
theorem passed_iff {name details : String} {condition : Bool} :
    (validationCheck name condition details).status = .pass ↔ condition = true := by
  cases condition <;> simp [validationCheck]
theorem failed_iff {name details : String} {condition : Bool} :
    (validationCheck name condition details).status = .fail ↔ condition = false := by
  cases condition <;> simp [validationCheck]

def asciiTables : Tables where
  toStableUnicode := stableAscii
  word c := asciiLetter c || asciiDigit c || c == 95
/-- The comment holds a quote, and the literal an escaped one. -/
def plainSource : Text := text "strategy.entry(\"a\\\"\") // \"alert(1)\nstrategy.exit('b')"
def markedSource : Text := text "plot(close, title=\"//\") alert(\"x\")"
end Codebot.PineGuards
