import Codebot.Texts

/-!
Regular expressions with the backtracking meaning of Python's `re`: a match is the first in order of preference at the
first position that has one. Patterns are read from their source text (`compile`). What a match consumes is at least
the width of its expression (`ends_width`).
-/
namespace Codebot.Regexes
open Texts List

/-- The tables of Unicode with those that only matching reads: the characters of words,
    and the simple lower case of a code point. -/
structure Alphabet extends Unicode where
  word : Nat → Bool
  lowerOne : Nat → Nat
def asciiAlphabet : Alphabet where
  toUnicode := ascii
  word c := asciiLetter c || asciiDigit c || c == 95
  lowerOne c := if asciiUpper c then c + 32 else c
/-- An item of a set. -/
inductive Item
  | code (c : Nat)
  | span (first last : Nat)
  | space
deriving DecidableEq

inductive Regex
  | empty
  | set (negated : Bool) (items : List Item)
  | any
  | seq (first second : Regex)
  | alt (first second : Regex)
  | many (body : Regex) (least : Nat) (most : Option Nat)
  | boundary
  | behind (items : List Item)
deriving DecidableEq

/-- An expression with its flag for case. -/
structure Pattern where
  regex : Regex
  ignoreCase : Bool
deriving DecidableEq
/-- A position in a text: what comes before it, backwards, and what comes after it. -/
structure Cursor where
  before : Text
  after : Text
deriving DecidableEq
private def escaped (c : Nat) : Item :=
  if c = 's'.toNat then .space else if c = 'n'.toNat then .code 10 else if c = 'r'.toNat then .code 13 else .code c

/-- The items of a set up to its closing bracket. -/
def readItems : Nat → Text → Option (List Item × Text)
  | 0, _ => none
  | _ + 1, [] => none
  | fuel + 1, c :: rest =>
    if c = ']'.toNat then some ([],rest)
    else if c = '\\'.toNat then
      match rest with
      | [] => none
      | d :: rest => (readItems fuel rest).map fun read => (escaped d :: read.1,read.2)
    else
      match rest with
      | dash :: last :: after =>
        if dash = '-'.toNat ∧ last ≠ ']'.toNat then
          (readItems fuel after).map fun read => (.span c last :: read.1,read.2)
        else (readItems fuel rest).map fun read => (.code c :: read.1,read.2)
      | _ => (readItems fuel rest).map fun read => (.code c :: read.1,read.2)

def readSet (fuel : Nat) (t : Text) : Option (Regex × Text) :=
  match t with
  | c :: rest =>
    if c = '^'.toNat then (readItems fuel rest).map fun read => (.set true read.1,read.2)
    else (readItems fuel t).map fun read => (.set false read.1,read.2)
  | [] => none
def readNumber (t : Text) : Nat × Text :=
  ((t.takeWhile asciiDigit).foldl (fun number digit => 10 * number + (digit - 48)) 0,t.dropWhile asciiDigit)

/-- The bounds of a repetition that are written after an expression. -/
def readBounds (t : Text) : Option ((Nat × Option Nat) × Text) :=
  match t with
  | c :: rest =>
    if c = '*'.toNat then some ((0,none),rest)
    else if c = '+'.toNat then some ((1,none),rest)
    else if c = '?'.toNat then some ((0,some 1),rest)
    else if c = '{'.toNat then
      match (readNumber rest).2 with
      | comma :: digit :: after =>
        if comma = ','.toNat then
          if digit = '}'.toNat then some (((readNumber rest).1,none),after)
          else
            match (readNumber (digit :: after)).2 with
            | _ :: after' => some (((readNumber rest).1,some (readNumber (digit :: after)).1),after')
            | [] => none
        else none
      | _ => none
    else none
  | [] => none

def repeated (read : Regex × Text) : Regex × Text :=
  match readBounds read.2 with
  | some (bounds,rest) => (.many read.1 bounds.1 bounds.2,rest)
  | none => read

mutual

/-- Alternatives, up to a closing bracket or the end. -/
def readAlternatives : Nat → Text → Option (Regex × Text)
  | 0, _ => none
  | fuel + 1, t => do
    let first ← readSequence fuel t
    match first.2 with
    | c :: rest =>
      if c = '|'.toNat then
        let second ← readAlternatives fuel rest
        some (.alt first.1 second.1,second.2)
      else some first
    | [] => some first

def readSequence : Nat → Text → Option (Regex × Text)
  | 0, _ => none
  | _ + 1, [] => some (.empty,[])
  | fuel + 1, c :: rest =>
    if c = ')'.toNat ∨ c = '|'.toNat then some (.empty,c :: rest)
    else do
      let atom ← readAtom fuel c rest
      let atom := repeated atom
      let tail ← readSequence fuel atom.2
      some (.seq atom.1 tail.1,tail.2)

def readAtom : Nat → Nat → Text → Option (Regex × Text)
  | 0, _, _ => none
  | fuel + 1, c, rest =>
    if c = '('.toNat then
      match afterPrefix (text "?<=[") rest with
      | some rest => do
        let items ← readItems fuel rest
        some (.behind items.1,items.2.drop 1)
      | none => do
        let group ← readAlternatives fuel ((afterPrefix (text "?:") rest).getD rest)
        some (group.1,group.2.drop 1)
    else if c = '['.toNat then readSet fuel rest
    else if c = '.'.toNat then some (.any,rest)
    else if c = '\\'.toNat then
      match rest with
      | [] => none
      | d :: rest => some (if d = 'b'.toNat then .boundary else .set false [escaped d],rest)
    else some (.set false [.code c],rest)

end

/-- `re.compile`: a pattern that is not read whole compiles to nothing. -/
def compile (ignoreCase : Bool) (pattern : Text) : Option Pattern :=
  let source := (afterPrefix (text "(?i)") pattern).getD pattern
  match readAlternatives (3 * source.length + 3) source with
  | some (regex,[]) => some ⟨regex,ignoreCase || source.length < pattern.length⟩
  | _ => none

section
variable (alphabet : Alphabet)

/-- Two characters that are one but for their case. The lower cases of `ı` and `ſ` are
    themselves, and yet they match `i` and `s`. -/
def sameLetter (c d : Nat) : Bool :=
  alphabet.lowerOne c = alphabet.lowerOne d || (alphabet.lowerOne c = 'i'.toNat && alphabet.lowerOne d = 0x131) ||
    (alphabet.lowerOne c = 's'.toNat && alphabet.lowerOne d = 0x17F)
def Item.holds (ignoreCase : Bool) (c : Nat) : Item → Bool
  | .code d => if ignoreCase then sameLetter alphabet d c else d = c
  | .span first last =>
    if ignoreCase then (List.range (last + 1 - first)).any fun step => sameLetter alphabet (first + step) c
    else first ≤ c && c ≤ last
  | .space => alphabet.space c
def holdsSome (ignoreCase : Bool) (items : List Item) (c : Nat) : Bool :=
  items.any fun item => item.holds alphabet ignoreCase c
def atBoundary (c : Cursor) : Bool := c.before.head?.any alphabet.word != c.after.head?.any alphabet.word
def Cursor.next (holds : Nat → Bool) : Cursor → List Cursor
  | ⟨before,x :: after⟩ => if holds x then [⟨x :: before,after⟩] else []
  | ⟨_,[]⟩ => []

/-- The ends of a repetition, more rounds before fewer. A round consumes. -/
def rounds (body : Cursor → List Cursor) : Nat → Nat → Option Nat → Cursor → List Cursor
  | 0, least, _, c => if least = 0 then [c] else []
  | fuel + 1, least, most, c =>
    (if most = some 0 then [] else
      ((body c).filter fun e => e.after.length < c.after.length).flatMap
        (rounds body fuel (least - 1) (most.map fun bound => bound - 1))) ++
      if least = 0 then [c] else []

/-- Where a match from the cursor can end, in order of preference. -/
def ends (ignoreCase : Bool) : Regex → Cursor → List Cursor
  | .empty, c => [c]
  | .set negated items, c => c.next fun x => holdsSome alphabet ignoreCase items x != negated
  | .any, c => c.next fun x => x != 10
  | .seq first second, c => (ends ignoreCase first c).flatMap fun e => ends ignoreCase second e
  | .alt first second, c => ends ignoreCase first c ++ ends ignoreCase second c
  | .many body least most, c => rounds (fun e => ends ignoreCase body e) c.after.length least most c
  | .boundary, c => if atBoundary alphabet c then [c] else []
  | .behind items, c => if c.before.head?.any (holdsSome alphabet ignoreCase items) then [c] else []

/-- `pattern.match` at the cursor. -/
def matchAt (p : Pattern) (c : Cursor) : Option Cursor := (ends alphabet p.ignoreCase p.regex c).head?
/-- The first match from the cursor on: its start and its end. -/
def searchFrom (p : Pattern) : Text → Text → Option (Cursor × Cursor)
  | before, [] => (matchAt alphabet p ⟨before,[]⟩).map fun e => (⟨before,[]⟩,e)
  | before, x :: after =>
    match matchAt alphabet p ⟨before,x :: after⟩ with
    | some e => some (⟨before,x :: after⟩,e)
    | none => searchFrom p (x :: before) after
def search (p : Pattern) (t : Text) : Option (Cursor × Cursor) := searchFrom alphabet p [] t
def span (first last : Cursor) : Text := first.after.take (first.after.length - last.after.length)
/-- `pattern.finditer`, for a pattern that has no empty match. -/
def matchesFrom (p : Pattern) : Nat → Cursor → List (Cursor × Cursor)
  | 0, _ => []
  | fuel + 1, c =>
    match searchFrom alphabet p c.before c.after with
    | some (first,last) => (first,last) :: matchesFrom p fuel last
    | none => []
def findAll (p : Pattern) (t : Text) : List (Cursor × Cursor) := matchesFrom alphabet p t.length ⟨[],t⟩
def consumedAt (p : Pattern) (c : Cursor) : Option Cursor :=
  (matchAt alphabet p c).filter fun e => e.after.length < c.after.length

def subFrom (p : Pattern) (replacement : Text) : Nat → Cursor → Text
  | 0, c => c.after
  | fuel + 1, c =>
    match c.after with
    | [] => []
    | x :: after =>
      match consumedAt alphabet p c with
      | some e => replacement ++ subFrom p replacement fuel e
      | none => x :: subFrom p replacement fuel ⟨x :: c.before,after⟩

/-- `pattern.sub`, for a pattern that has no empty match. -/
def sub (p : Pattern) (replacement t : Text) : Text := subFrom alphabet p replacement t.length ⟨[],t⟩

def splitFrom (p : Pattern) : Nat → Text → Cursor → List Text
  | 0, piece, c => [piece.reverse ++ c.after]
  | fuel + 1, piece, c =>
    match c.after with
    | [] => [piece.reverse]
    | x :: after =>
      match consumedAt alphabet p c with
      | some e => piece.reverse :: splitFrom p fuel [] e
      | none => splitFrom p fuel (x :: piece) ⟨x :: c.before,after⟩

/-- `pattern.split`, for a pattern that has no empty match. -/
def split (p : Pattern) (t : Text) : List Text := splitFrom alphabet p t.length [] ⟨[],t⟩

end

/-- What every match consumes at least. -/
def width : Regex → Nat
  | .empty => 0
  | .set _ _ => 1
  | .any => 1
  | .seq first second => width first + width second
  | .alt first second => min (width first) (width second)
  | .many body least _ => least * width body
  | .boundary => 0
  | .behind _ => 0

variable {alphabet : Alphabet}
variable {e : Cursor}

theorem next_after {holds : Nat → Bool} {c : Cursor} (member : e ∈ c.next holds) :
    e.after.length + 1 = c.after.length := by
  obtain ⟨before,after⟩ := c
  cases after with
  | nil => cases member
  | cons x after =>
    simp only [Cursor.next] at member
    split at member
    · rw [mem_singleton.mp member]
      rfl
    · cases member

variable {body : Cursor → List Cursor} {least : Nat} {most : Option Nat}

theorem rounds_width {w : Nat} (wide : ∀ c, ∀ e ∈ body c, e.after.length + w ≤ c.after.length) {fuel : Nat}
    {c : Cursor} (member : e ∈ rounds body fuel least most c) : e.after.length + least * w ≤ c.after.length := by
  have stays : ∀ {least : Nat} {c : Cursor}, e ∈ (if least = 0 then [c] else []) →
      e.after.length + least * w ≤ c.after.length := by
    intro least c member
    split at member
    · rename_i zero
      rw [mem_singleton.mp member,zero]
      simp
    · cases member
  induction fuel generalizing least most c with
  | zero => exact stays member
  | succ fuel ih =>
    rcases mem_append.mp member with more | done
    · split at more
      · cases more
      · obtain ⟨mid,isMid,later⟩ := mem_flatMap.mp more
        have first := wide c mid (mem_filter.mp isMid).1
        have rest := ih later
        cases least with
        | zero =>
          simp at rest ⊢
          omega
        | succ least =>
          rw [Nat.succ_mul]
          simp only [Nat.add_sub_cancel] at rest
          omega
    · exact stays done

variable {ignoreCase : Bool} {r : Regex}

/-- A match consumes at least the width of its expression. -/
theorem ends_width {c : Cursor} (member : e ∈ ends alphabet ignoreCase r c) :
    e.after.length + width r ≤ c.after.length := by
  induction r generalizing c e with
  | empty =>
    rw [mem_singleton.mp member]
    exact Nat.le_refl _
  | set negated items => exact Nat.le_of_eq (next_after member)
  | any => exact Nat.le_of_eq (next_after member)
  | seq first second ihFirst ihSecond =>
    obtain ⟨mid,isMid,later⟩ := mem_flatMap.mp member
    have one := ihFirst isMid
    have two := ihSecond later
    simp only [width]
    omega
  | alt first second ihFirst ihSecond =>
    rcases mem_append.mp member with one | two
    · have bound := ihFirst one
      simp only [width]
      omega
    · have bound := ihSecond two
      simp only [width]
      omega
  | many body least most ih => exact rounds_width (fun c e isEnd => ih isEnd) member
  | boundary =>
    simp only [ends] at member
    split at member
    · rw [mem_singleton.mp member]
      exact Nat.le_refl _
    · cases member
  | behind items =>
    simp only [ends] at member
    split at member
    · rw [mem_singleton.mp member]
      exact Nat.le_refl _
    · cases member

variable {p : Pattern}
theorem matchAt_short {c : Cursor} (short : c.after.length < width p.regex) : matchAt alphabet p c = none := by
  rw [matchAt,head?_eq_none_iff,eq_nil_iff_forall_not_mem]
  intro e member
  have wide := ends_width member
  omega

variable {after : Text}
theorem searchFrom_short {before : Text} (short : after.length < width p.regex) :
    searchFrom alphabet p before after = none := by
  induction after generalizing before with
  | nil => rw [searchFrom,matchAt_short short,Option.map_none]
  | cons x after ih =>
    rw [searchFrom,matchAt_short short]
    exact ih (Nat.lt_of_succ_lt short)

variable {replacement : Text}

theorem subFrom_short {fuel : Nat} {c : Cursor}
    (short : c.after.length < width p.regex) : subFrom alphabet p replacement fuel c = c.after := by
  induction fuel generalizing c with
  | zero => rfl
  | succ fuel ih =>
    obtain ⟨before,after⟩ := c
    cases after with
    | nil => rfl
    | cons x after =>
      have none : consumedAt alphabet p ⟨before,x :: after⟩ = none := by
        rw [consumedAt,matchAt_short short]
        rfl
      have rest := @ih ⟨x :: before,after⟩ (Nat.lt_of_succ_lt short)
      simp only [subFrom,none,rest]

variable {t : Text}
theorem sub_short (short : t.length < width p.regex) : sub alphabet p replacement t = t :=
  subFrom_short short
theorem consumedAt_shorter {c : Cursor} (consumed : consumedAt alphabet p c = some e) :
    e.after.length < c.after.length := by
  simpa using (Option.filter_eq_some_iff.mp consumed).2

theorem subFrom_length (small : replacement.length ≤ 1) {fuel : Nat} {c : Cursor} :
    (subFrom alphabet p replacement fuel c).length ≤ c.after.length := by
  induction fuel generalizing c with
  | zero => exact Nat.le_refl _
  | succ fuel ih =>
    obtain ⟨before,after⟩ := c
    cases after with
    | nil => exact Nat.le_refl _
    | cons x after =>
      simp only [subFrom]
      split
      · rename_i e consumed
        have shorter := consumedAt_shorter consumed
        have rest := @ih e
        rw [length_append]
        simp only at shorter ⊢
        omega
      · have rest := @ih ⟨x :: before,after⟩
        simpa using rest

theorem splitFrom_length {fuel : Nat} {piece part : Text} {c : Cursor}
    (member : part ∈ splitFrom alphabet p fuel piece c) : part.length ≤ piece.length + c.after.length := by
  induction fuel generalizing piece c with
  | zero =>
    have same := mem_singleton.mp member
    exact Nat.le_of_eq (by rw [same,length_append,length_reverse])
  | succ fuel ih =>
    obtain ⟨before,after⟩ := c
    cases after with
    | nil =>
      have same := mem_singleton.mp member
      exact Nat.le_of_eq (by rw [same,length_reverse]; rfl)
    | cons x after =>
      simp only [splitFrom] at member
      split at member
      · rename_i e consumed
        have shorter := consumedAt_shorter consumed
        rcases mem_cons.mp member with rfl | later
        · rw [length_reverse]
          omega
        · have rest := ih later
          simp only [length_nil] at rest
          omega
      · have rest := ih member
        simp only [length_cons] at rest ⊢
        omega

def Cursor.whole (c : Cursor) : Text := c.before.reverse ++ c.after

theorem next_whole {holds : Nat → Bool} {c : Cursor} (member : e ∈ c.next holds) : e.whole = c.whole := by
  obtain ⟨before,after⟩ := c
  cases after with
  | nil => cases member
  | cons x after =>
    simp only [Cursor.next] at member
    split at member
    · rw [mem_singleton.mp member]
      simp [Cursor.whole]
    · cases member

theorem rounds_whole (keeps : ∀ c, ∀ e ∈ body c, e.whole = c.whole) {fuel : Nat} {c : Cursor} (member : e ∈ rounds body fuel least most c) : e.whole = c.whole := by
  have stays : ∀ {least : Nat} {c : Cursor}, e ∈ (if least = 0 then [c] else []) → e.whole = c.whole := by
    intro least c member
    split at member
    · rw [mem_singleton.mp member]
    · cases member
  induction fuel generalizing least most c with
  | zero => exact stays member
  | succ fuel ih =>
    rcases mem_append.mp member with more | done
    · split at more
      · cases more
      · obtain ⟨mid,isMid,later⟩ := mem_flatMap.mp more
        exact (ih later).trans (keeps c mid (mem_filter.mp isMid).1)
    · exact stays done

theorem ends_whole {c : Cursor} (member : e ∈ ends alphabet ignoreCase r c) : e.whole = c.whole := by
  induction r generalizing c e with
  | empty => rw [mem_singleton.mp member]
  | set negated items => exact next_whole member
  | any => exact next_whole member
  | seq first second ihFirst ihSecond =>
    obtain ⟨mid,isMid,later⟩ := mem_flatMap.mp member
    exact (ihSecond later).trans (ihFirst isMid)
  | alt first second ihFirst ihSecond =>
    rcases mem_append.mp member with one | two
    · exact ihFirst one
    · exact ihSecond two
  | many body least most ih => exact rounds_whole (fun c e isEnd => ih isEnd) member
  | boundary =>
    simp only [ends] at member
    split at member
    · rw [mem_singleton.mp member]
    · cases member
  | behind items =>
    simp only [ends] at member
    split at member
    · rw [mem_singleton.mp member]
    · cases member

theorem matchAt_whole {c : Cursor} (found : matchAt alphabet p c = some e) : e.whole = c.whole :=
  ends_whole (mem_of_head? found)

variable {first last : Cursor}

theorem searchFrom_whole {before : Text} (found : searchFrom alphabet p before after = some (first,last)) :
    first.whole = before.reverse ++ after ∧ last.whole = before.reverse ++ after := by
  induction after generalizing before with
  | nil =>
    rw [searchFrom,Option.map_eq_some_iff] at found
    obtain ⟨e,isMatch,same⟩ := found
    cases same
    exact ⟨rfl,matchAt_whole isMatch⟩
  | cons x after ih =>
    rw [searchFrom] at found
    cases here : matchAt alphabet p ⟨before,x :: after⟩ with
    | some e =>
      rw [here] at found
      cases found
      exact ⟨rfl,matchAt_whole here⟩
    | none =>
      rw [here] at found
      have later := ih found
      simpa using later

theorem matchesFrom_whole {fuel : Nat} {c : Cursor} {found : Cursor × Cursor}
    (member : found ∈ matchesFrom alphabet p fuel c) : found.1.whole = c.whole ∧ found.2.whole = c.whole := by
  induction fuel generalizing c with
  | zero => cases member
  | succ fuel ih =>
    rw [matchesFrom] at member
    cases isFirst : searchFrom alphabet p c.before c.after with
    | none =>
      rw [isFirst] at member
      cases member
    | some spanned =>
      obtain ⟨first,last⟩ := spanned
      have ends := searchFrom_whole isFirst
      rw [isFirst] at member
      rcases mem_cons.mp member with rfl | later
      · exact ends
      · have rest := ih later
        rw [ends.2] at rest
        exact rest

theorem head?_findAll (wide : 0 < width p.regex) (t : Text) : (findAll alphabet p t).head? = search alphabet p t := by
  cases t with
  | nil =>
    rw [search,searchFrom_short (show [].length < _ from wide)]
    rfl
  | cons x t =>
    rw [findAll,search,length_cons,matchesFrom]
    cases searchFrom alphabet p [] (x :: t) with
    | none => rfl
    | some spanned => rfl

theorem span_eq (start : first.whole = t) (stop : last.whole = t) :
    span first last = (t.take last.before.length).drop first.before.length := by
  have total : first.before.length + first.after.length = last.before.length + last.after.length := by
    have same := congrArg List.length (start.trans stop.symm)
    simpa [Cursor.whole] using same
  have rest : first.after = t.drop first.before.length := by
    rw [← start,Cursor.whole,drop_left' length_reverse]
  have wide : first.after.length - last.after.length = last.before.length - first.before.length := by omega
  rw [span,wide,drop_take,rest]

end Codebot.Regexes
