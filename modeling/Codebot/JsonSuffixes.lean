import Codebot.JsonReadings

/-!
Where a written array or object begins in a text that ends with it. A scan of the text counts the brackets outside of
its texts (`scan`, `scan_dumps`, `scan_opposite`). No written array or object ends with another one
(`enclosed_suffix`).
-/
namespace Codebot.JsonSuffixes
open Texts JsonTexts JsonDumps JsonReadings List

/-- Where a scan stands: outside of a text, within one, or after a backslash of one. -/
inductive Place where
  | outside
  | inside
  | escaped
deriving DecidableEq
def opens (c : Nat) : Bool := c == 91 || c == 123
def closes (c : Nat) : Bool := c == 93 || c == 125

/-- One character further, with the number of open brackets. There is no backslash outside of a text,
and none before an opening bracket. -/
def step (c : Nat) : Place × Nat → Option (Place × Nat)
  | (.outside,depth) =>
    if c = 34 then some (.inside,depth)
    else if c = 92 then none
    else if opens c then some (.outside,depth + 1)
    else if closes c then (if depth = 0 then none else some (.outside,depth - 1))
    else some (.outside,depth)
  | (.inside,depth) => some (if c = 34 then .outside else if c = 92 then .escaped else .inside,depth)
  | (.escaped,depth) => if opens c then none else some (.inside,depth)

def scan : Text → Place × Nat → Option (Place × Nat)
  | [], state => some state
  | c :: t, state => (step c state).bind (scan t)
theorem scan_append (t u : Text) (state : Place × Nat) : scan (t ++ u) state = (scan t state).bind (scan u) := by
  induction t generalizing state with
  | nil => rfl
  | cons c t ih =>
    rw [cons_append,scan,scan,Option.bind_assoc]
    exact congrArg _ (funext ih)

variable {after : Place} {depth left : Nat} {place : Place}

theorem step_deeper {c : Nat} (more : Nat) (stepped : step c (place,depth) = some (after,left)) :
    step c (place,depth + more) = some (after,left + more) := by
  cases place with
  | outside =>
    simp only [step] at stepped ⊢
    by_cases quote : c = 34
    · rw [if_pos quote] at stepped ⊢
      cases stepped
      rfl
    by_cases backslash : c = 92
    · rw [if_neg quote,if_pos backslash] at stepped
      cases stepped
    rw [if_neg quote,if_neg backslash] at stepped ⊢
    by_cases opening : opens c = true
    · rw [if_pos opening] at stepped ⊢
      cases stepped
      rw [Nat.add_right_comm]
    rw [if_neg opening] at stepped ⊢
    by_cases closing : closes c = true
    · rw [if_pos closing] at stepped ⊢
      by_cases ground : depth = 0
      · rw [if_pos ground] at stepped
        cases stepped
      · rw [if_neg ground] at stepped
        cases stepped
        rw [if_neg (Nat.ne_of_gt (Nat.add_pos_left (Nat.pos_of_ne_zero ground) more)),Nat.sub_add_comm (Nat.pos_of_ne_zero ground)]
    · rw [if_neg closing] at stepped ⊢
      cases stepped
      rfl
  | inside =>
    cases stepped
    rfl
  | escaped =>
    simp only [step] at stepped ⊢
    by_cases opening : opens c = true
    · rw [if_pos opening] at stepped
      cases stepped
    · rw [if_neg opening] at stepped ⊢
      cases stepped
      rfl

variable {t : Text}

theorem scan_deeper (more : Nat) (scanned : scan t (place,depth) = some (after,left)) :
    scan t (place,depth + more) = some (after,left + more) := by
  induction t generalizing place depth with
  | nil =>
    cases scanned
    rfl
  | cons c t ih =>
    obtain ⟨⟨next,reached⟩,stepped,rest⟩ := Option.bind_eq_some_iff.mp scanned
    rw [scan,step_deeper more stepped,Option.bind_some]
    exact ih rest

def Opposite : Place → Place → Prop
  | .outside, .inside => True
  | .inside, .outside => True
  | _, _ => False

variable {other otherAfter : Place} {otherDepth otherLeft : Nat}

theorem step_opposite {c : Nat} (opposite : Opposite place other) (stepped : step c (place,depth) = some (after,left))
    (also : step c (other,otherDepth) = some (otherAfter,otherLeft)) : Opposite after otherAfter := by
  have turned : ∀ {depth left otherDepth otherLeft : Nat} {after otherAfter : Place}, step c (.outside,depth) = some (after,left) →
      step c (.inside,otherDepth) = some (otherAfter,otherLeft) →
      (after = .inside ∧ otherAfter = .outside) ∨ (after = .outside ∧ otherAfter = .inside) := by
    intro depth left otherDepth otherLeft after otherAfter outer inner
    simp only [step] at outer inner
    by_cases quote : c = 34
    · rw [if_pos quote] at outer inner
      cases outer
      cases inner
      exact .inl ⟨rfl,rfl⟩
    by_cases backslash : c = 92
    · rw [if_neg quote,if_pos backslash] at outer
      cases outer
    rw [if_neg quote,if_neg backslash] at outer inner
    cases inner
    refine .inr ⟨?_,rfl⟩
    split_ifs at outer
    all_goals cases outer
    all_goals rfl
  match place, other, opposite with
  | .outside, .inside, _ =>
    rcases turned stepped also with ⟨rfl,rfl⟩ | ⟨rfl,rfl⟩
    · trivial
    · trivial
  | .inside, .outside, _ =>
    rcases turned also stepped with ⟨rfl,rfl⟩ | ⟨rfl,rfl⟩
    · trivial
    · trivial

theorem scan_opposite (opposite : Opposite place other) (scanned : scan t (place,depth) = some (after,left))
    (also : scan t (other,otherDepth) = some (otherAfter,otherLeft)) : Opposite after otherAfter := by
  induction t generalizing place other depth otherDepth with
  | nil =>
    cases scanned
    cases also
    exact opposite
  | cons c t ih =>
    obtain ⟨⟨next,reached⟩,stepped,rest⟩ := Option.bind_eq_some_iff.mp scanned
    obtain ⟨⟨otherNext,otherReached⟩,otherStepped,otherRest⟩ := Option.bind_eq_some_iff.mp also
    exact ih (step_opposite opposite stepped otherStepped) rest otherRest

/-- A text within a bracket and its closing one. -/
structure Enclosed (t : Text) : Prop where
  parts : ∃ c body d, t = c :: (body ++ [d]) ∧ opens c ∧ closes d ∧ scan body (.outside,0) = some (.outside,0)
theorem step_opens {c : Nat} (opening : opens c) (depth : Nat) : step c (.outside,depth) = some (.outside,depth + 1) := by
  have noQuote : c ≠ 34 := fun quote => by simp [quote,opens] at opening
  have noBackslash : c ≠ 92 := fun backslash => by simp [backslash,opens] at opening
  rw [step,if_neg noQuote,if_neg noBackslash,if_pos opening]

theorem step_closes {c : Nat} (closing : closes c) (depth : Nat) : step c (.outside,depth + 1) = some (.outside,depth) := by
  have noQuote : c ≠ 34 := fun quote => by simp [quote,closes] at closing
  have noBackslash : c ≠ 92 := fun backslash => by simp [backslash,closes] at closing
  have noOpening : ¬opens c = true := by
    intro opening
    simp only [opens,closes,Bool.or_eq_true,beq_iff_eq] at opening closing
    omega
  rw [step,if_neg noQuote,if_neg noBackslash,if_neg noOpening,if_pos closing,if_neg (Nat.succ_ne_zero depth),Nat.add_sub_cancel]

theorem Enclosed.scan (enclosed : Enclosed t) (depth : Nat) :
    JsonSuffixes.scan t (.outside,depth) = some (.outside,depth) := by
  obtain ⟨c,body,d,rfl,opening,closing,inner⟩ := enclosed.parts
  have within := scan_deeper (depth + 1) inner
  rw [Nat.zero_add] at within
  rw [JsonSuffixes.scan,step_opens opening,Option.bind_some,scan_append,within,Option.bind_some,JsonSuffixes.scan,
    step_closes closing,Option.bind_some,JsonSuffixes.scan]

variable {first rest : Text}

theorem Enclosed.open (enclosed : Enclosed t) (split : first ++ rest = t) (begun : first ≠ []) (more : rest ≠ []) :
    ∃ place depth, JsonSuffixes.scan first (.outside,0) = some (place,depth + 1) := by
  obtain ⟨c,body,d,rfl,opening,closing,inner⟩ := enclosed.parts
  obtain ⟨e,first,rfl⟩ := exists_cons_of_ne_nil begun
  rw [cons_append] at split
  obtain ⟨rfl,within⟩ := List.cons.inj split
  obtain ⟨rest,last,rfl⟩ := (eq_nil_or_concat rest).resolve_left more
  rw [concat_eq_append,← append_assoc] at within
  obtain ⟨rfl,_⟩ := append_inj' within rfl
  rw [scan_append] at inner
  obtain ⟨⟨place,depth⟩,reached,_⟩ := Option.bind_eq_some_iff.mp inner
  have deeper := scan_deeper 1 reached
  rw [Nat.zero_add] at deeper
  refine ⟨place,depth,?_⟩
  rw [JsonSuffixes.scan,step_opens opening,Option.bind_some,deeper]

variable {u : Text}

/-- An enclosed text does not end with another one. -/
theorem enclosed_suffix (enclosed : Enclosed t) (outer : Enclosed u) (same : first ++ t = u) : first = [] := by
  by_contra begun
  obtain ⟨c,body,d,isText,opening,_,_⟩ := enclosed.parts
  have more : t ≠ [] := by
    rw [isText]
    exact cons_ne_nil _ _
  obtain ⟨place,depth,reached⟩ := outer.open same begun more
  have whole := outer.scan 0
  rw [← same,scan_append,reached,Option.bind_some] at whole
  cases place with
  | outside =>
    rw [enclosed.scan (depth + 1)] at whole
    cases whole
  | inside => exact scan_opposite (show Opposite .outside .inside from trivial) (enclosed.scan 0) whole
  | escaped =>
    rw [isText,JsonSuffixes.scan,step,if_pos opening] at whole
    cases whole

def Plain (c : Nat) : Prop := c ≠ 34 ∧ c ≠ 92 ∧ opens c = false ∧ closes c = false
instance (c : Nat) : Decidable (Plain c) := inferInstanceAs (Decidable (_ ∧ _))

theorem scan_plain (plain : ∀ c ∈ t, Plain c) (depth : Nat) : scan t (.outside,depth) = some (.outside,depth) := by
  induction t with
  | nil => rfl
  | cons c t ih =>
    obtain ⟨noQuote,noBackslash,noOpening,noClosing⟩ := plain c mem_cons_self
    have stepped : step c (.outside,depth) = some (.outside,depth) := by
      rw [step,if_neg noQuote,if_neg noBackslash,if_neg (ne_true_of_eq_false noOpening),if_neg (ne_true_of_eq_false noClosing)]
    rw [scan,stepped,Option.bind_some,ih fun d member => plain d (mem_cons_of_mem c member)]

theorem scan_inside (plain : ∀ c ∈ t, c ≠ 34 ∧ c ≠ 92) (depth : Nat) : scan t (.inside,depth) = some (.inside,depth) := by
  induction t with
  | nil => rfl
  | cons c t ih =>
    obtain ⟨noQuote,noBackslash⟩ := plain c mem_cons_self
    rw [scan,step,if_neg noQuote,if_neg noBackslash,Option.bind_some,ih fun d member => plain d (mem_cons_of_mem c member)]
theorem scan_letter {c : Nat} (noOpening : opens c = false) (t : Text) (depth : Nat) :
    scan (92 :: c :: t) (.inside,depth) = scan t (.inside,depth) := by
  rw [scan,step,if_neg (by decide),if_pos rfl,Option.bind_some,scan,step,if_neg (ne_true_of_eq_false noOpening),Option.bind_some]
theorem hexChar_plain (n : Nat) : Plain (hexChar (n % 16)) := by
  have all : ∀ digit < 16, Plain (hexChar digit) := by decide
  exact all _ (Nat.mod_lt n (by decide))
theorem scan_escapeUnit (n : Nat) (depth : Nat) : scan (escapeUnit n) (.inside,depth) = some (.inside,depth) := by
  rw [escapeUnit,scan_letter rfl,scan_inside]
  intro c member
  simp only [mem_cons,not_mem_nil,or_false] at member
  rcases member with rfl | rfl | rfl | rfl
  all_goals exact ⟨(hexChar_plain _).1,(hexChar_plain _).2.1⟩

theorem scan_escapeChar (c : Nat) (depth : Nat) : scan (escapeChar c) (.inside,depth) = some (.inside,depth) := by
  have letters : ∀ letter ∈ [34,92,47,98,102,110,114,116], opens letter = false := by decide
  have escaped := escapeChar_escaped c
  generalize escapeChar c = written at escaped ⊢
  cases escaped with
  | letter letter stands => rw [scan_letter (letters letter (letterEscape_letter stands)),scan]
  | plain _ noQuote noBackslash => exact scan_inside (fun d member => mem_singleton.mp member ▸ ⟨noQuote,noBackslash⟩) depth
  | unit => exact scan_escapeUnit c depth
  | pair => rw [scan_append,scan_escapeUnit,Option.bind_some,scan_escapeUnit]

theorem scan_dumpText (t : Text) (depth : Nat) : scan (dumpText t) (.outside,depth) = some (.outside,depth) := by
  have within : scan (t.flatMap escapeChar) (.inside,depth) = some (.inside,depth) := by
    induction t with
    | nil => rfl
    | cons c t ih => rw [flatMap_cons,scan_append,scan_escapeChar,Option.bind_some,ih]
  rw [dumpText,cons_append,scan,step,if_pos rfl,Option.bind_some,scan_append,within,Option.bind_some]
  rfl

theorem plain_number {c : Nat} (number : NumberChar c) : Plain c := by
  rcases number with digit | rfl | rfl | rfl | rfl
  · have bounds := digit_bounds digit
    refine ⟨by omega,by omega,?_,?_⟩
    · simp only [opens,Bool.or_eq_false_iff,beq_eq_false_iff_ne]
      omega
    · simp only [closes,Bool.or_eq_false_iff,beq_eq_false_iff_ne]
      omega
  all_goals decide

theorem plain_float {source : Text} (isFloat : FloatText source ∨ source ∈ specials) : ∀ c ∈ source, Plain c := by
  rcases isFloat with isFloat | special
  · exact fun c member => plain_number (float_chars isFloat c member)
  · have all : ∀ word ∈ specials, ∀ c ∈ word, Plain c := by decide
    exact all source special

variable {separators : Separators}

theorem scan_blank {blanks : Text} (blank : ∀ c ∈ blanks, c = 32) {mark : Nat} (plain : Plain mark) (t : Text) (depth : Nat) :
    scan (mark :: blanks ++ t) (.outside,depth) = scan t (.outside,depth) := by
  have all : ∀ c ∈ mark :: blanks, Plain c := by
    refine forall_mem_cons.mpr ⟨plain,?_⟩
    intro c member
    rw [blank c member]
    decide
  rw [scan_append,scan_plain all,Option.bind_some]

variable {body : Text}
theorem enclosed_array (scanned : scan body (.outside,0) = some (.outside,0)) : Enclosed (91 :: body ++ [93]) :=
  ⟨⟨91,body,93,rfl,rfl,rfl,scanned⟩⟩
theorem enclosed_object (scanned : scan body (.outside,0) = some (.outside,0)) : Enclosed (123 :: body ++ [125]) :=
  ⟨⟨123,body,125,rfl,rfl,rfl,scanned⟩⟩
theorem blank_parts (blank : ∀ c ∈ separators.item ++ separators.key, c = 32) :
    (∀ c ∈ separators.item, c = 32) ∧ ∀ c ∈ separators.key, c = 32 := forall_mem_append.mp blank

mutual

/-- A scan is after a written value where it was before it. -/
theorem scan_dumps (blank : ∀ c ∈ separators.item ++ separators.key, c = 32) : ∀ (value : Json), Throughout Proper value →
    ∀ depth, scan (dumps separators value) (.outside,depth) = some (.outside,depth)
  | .null, _, _ => by
    have plain : ∀ c ∈ text "null", Plain c := by decide
    exact scan_plain plain _
  | .bool true, _, _ => by
    have plain : ∀ c ∈ text "true", Plain c := by decide
    exact scan_plain plain _
  | .bool false, _, _ => by
    have plain : ∀ c ∈ text "false", Plain c := by decide
    exact scan_plain plain _
  | .integer n, _, depth => scan_plain (fun c member => plain_number (integer_chars n c member)) depth
  | .float _, isFloat, depth => scan_plain (plain_float isFloat) depth
  | .text t, _, depth => scan_dumpText t depth
  | .array items, proper, depth => by
    rw [dumps]
    exact (enclosed_array (scan_dumpItems blank items proper.2 0)).scan depth
  | .object entries, proper, depth => by
    rw [dumps]
    exact (enclosed_object (scan_dumpEntries blank entries proper.2 0)).scan depth

theorem scan_dumpItems (blank : ∀ c ∈ separators.item ++ separators.key, c = 32) : ∀ (items : List Json),
    ThroughoutItems Proper items → ∀ depth, scan (dumpItems separators items) (.outside,depth) = some (.outside,depth)
  | [], _, _ => rfl
  | [item], proper, depth => scan_dumps blank item proper.1 depth
  | item :: next :: rest, proper, depth => by
    rw [dumpItems,List.append_assoc,scan_append,scan_dumps blank item proper.1,Option.bind_some,
      scan_blank (blank_parts blank).1 (by decide),scan_dumpItems blank (next :: rest) proper.2]

theorem scan_dumpEntries (blank : ∀ c ∈ separators.item ++ separators.key, c = 32) : ∀ (entries : List (Text × Json)),
    ThroughoutEntries Proper entries → ∀ depth, scan (dumpEntries separators entries) (.outside,depth) = some (.outside,depth)
  | [], _, _ => rfl
  | [(key,value)], proper, depth => by
    rw [dumpEntries,List.append_assoc,scan_append,scan_dumpText,Option.bind_some,scan_blank (blank_parts blank).2 (by decide),
      scan_dumps blank value proper.1]
  | (key,value) :: next :: rest, proper, depth => by
    rw [dumpEntries,List.append_assoc,List.append_assoc,List.append_assoc,scan_append,scan_dumpText,Option.bind_some,
      scan_blank (blank_parts blank).2 (by decide),scan_append,scan_dumps blank value proper.1,Option.bind_some,
      scan_blank (blank_parts blank).1 (by decide),scan_dumpEntries blank (next :: rest) proper.2]

end

def Container : Json → Prop
  | .array _ => True
  | .object _ => True
  | _ => False

theorem dumps_enclosed (blank : ∀ c ∈ separators.item ++ separators.key, c = 32) {value : Json} (container : Container value)
    (proper : Throughout Proper value) : Enclosed (dumps separators value) := by
  match value, container, proper with
  | .array items, _, proper =>
    rw [dumps]
    exact enclosed_array (scan_dumpItems blank items proper.2 0)
  | .object entries, _, proper =>
    rw [dumps]
    exact enclosed_object (scan_dumpEntries blank entries proper.2 0)

theorem append_enclosed {other : Text} (enclosed : Enclosed t) (also : Enclosed u) (same : first ++ t = other ++ u) :
    first = other ∧ t = u := by
  rcases append_eq_append_iff.mp same with ⟨more,isOther,isFirst⟩ | ⟨more,isFirst,isOther⟩
  · have nothing := enclosed_suffix also enclosed isFirst.symm
    rw [nothing] at isOther isFirst
    exact ⟨(isOther.trans (append_nil first)).symm,isFirst⟩
  · have nothing := enclosed_suffix enclosed also isOther.symm
    rw [nothing] at isOther isFirst
    exact ⟨isFirst.trans (append_nil other),isOther.symm⟩

theorem dumpItems_injective {items others : List Json} {more : Text} (few : items.length = others.length)
    (plain : ∀ item ∈ items ++ others, 44 ∉ dumps compactSeparators item ∧ 93 ∉ dumps compactSeparators item)
    (same : dumpItems compactSeparators items ++ 93 :: rest = dumpItems compactSeparators others ++ 93 :: more) :
    items.map (dumps compactSeparators) = others.map (dumps compactSeparators) ∧ rest = more := by
  induction items generalizing others with
  | nil =>
    rw [length_eq_zero_iff.mp few.symm] at same ⊢
    exact ⟨rfl,(List.cons.inj same).2⟩
  | cons item items ih =>
    obtain ⟨other,others,rfl⟩ := exists_cons_of_length_eq_add_one few.symm
    have lengths : items.length = others.length := Nat.succ.inj few
    have left := plain item (mem_append_left _ mem_cons_self)
    have right := plain other (mem_append_right _ mem_cons_self)
    cases items with
    | nil =>
      rw [length_eq_zero_iff.mp lengths.symm] at same ⊢
      obtain ⟨one,after⟩ := before_mark left.2 right.2 same
      rw [map_singleton,map_singleton,one]
      exact ⟨rfl,after⟩
    | cons next items =>
      obtain ⟨otherNext,others,rfl⟩ := exists_cons_of_length_eq_add_one lengths.symm
      simp only [dumpItems,append_assoc,cons_append,compactSeparators,nil_append] at same
      obtain ⟨one,behind⟩ := before_mark left.1 right.1 same
      obtain ⟨all,after⟩ := ih lengths (fun item member => plain item (by
        rcases mem_append.mp member with first | second
        · exact mem_append_left _ (mem_cons_of_mem _ first)
        · exact mem_append_right _ (mem_cons_of_mem _ second))) behind
      rw [map_cons,one,all]
      exact ⟨rfl,after⟩

end Codebot.JsonSuffixes
