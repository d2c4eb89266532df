import Codebot.JsonReadings
import Mathlib.Data.List.TakeWhile

/-!
The JSON object in a text (`extract_json_object`). What stands in a fence, the whole text and the slice from the first
opening brace to the one that closes it are read in turn, and the first of them that is an object is the result
(`recovered_iff`).
-/
namespace Codebot.EmbeddedJson
open Texts JsonTexts JsonDumps JsonGrammar List

def fence : Text := [96,96,96]
/-- A letter in either case; a long `s` is one as well. -/
def letter (lower c : Nat) : Bool := c == lower || c + 32 == lower || (lower == 115 && c == 383)
/-- What comes after `(?:json)?`. -/
def afterMark : Text → Text
  | j :: s :: o :: n :: rest =>
    if letter 106 j && letter 115 s && letter 111 o && letter 110 n then rest else j :: s :: o :: n :: rest
  | t => t
/-- What `FENCED_JSON_RE` finds between its fences, stripped. -/
def fenced (unicode : Unicode) (t : Text) : Option Text := do
  let rest ← afterPrefix fence t
  let inside := afterMark rest
  if fence <:+ inside then some (strip unicode (inside.take (inside.length - 3))) else none

/-- The text up to the brace that closes the first one. -/
def sliceFrom : Int → Bool → Bool → Text → Option Text
  | _, _, _, [] => none
  | depth, true, escaped, c :: t =>
    if escaped then (sliceFrom depth true false t).map (c :: ·)
    else if c = '\\'.toNat then (sliceFrom depth true true t).map (c :: ·)
    else (sliceFrom depth (c ≠ '"'.toNat) false t).map (c :: ·)
  | depth, false, escaped, c :: t =>
    if c = '"'.toNat then (sliceFrom depth true escaped t).map (c :: ·)
    else if c = '{'.toNat then (sliceFrom (depth + 1) false escaped t).map (c :: ·)
    else if c = '}'.toNat then
      if depth - 1 = 0 then some [c] else (sliceFrom (depth - 1) false escaped t).map (c :: ·)
    else (sliceFrom depth false escaped t).map (c :: ·)

def balancedJsonObjectSlice (t : Text) : Option Text := sliceFrom 0 false false (t.dropWhile fun c => c ≠ '{'.toNat)
/-- The texts that are read, of a stripped text. -/
def candidates (unicode : Unicode) (stripped : Text) : List Text :=
  let found := (fenced unicode stripped).toList ++ [stripped]
  match balancedJsonObjectSlice stripped with
  | some balanced => if found.any fun candidate => candidate = balanced then found else found ++ [balanced]
  | none => found

/-- The first object; an integer of too many digits is no `JSONDecodeError`. -/
def firstObject : List Text → Except Failure (Option (List (Text × Json)))
  | [] => .ok none
  | candidate :: rest =>
    match loads candidate with
    | .ok (.object entries) => .ok (some entries)
    | .error .digits => .error .digits
    | _ => firstObject rest

def extractJsonObject (unicode : Unicode) (t : Text) : Except Failure (Option (List (Text × Json))) :=
  let stripped := strip unicode t
  if stripped = [] then .ok none else firstObject (candidates unicode stripped)
def Short (t : Text) : Prop := loads t ≠ .error .digits
def Passed (t : Text) : Prop :=
  ∀ depth > 0, ∀ rest, sliceFrom depth false false (t ++ rest) = (sliceFrom depth false false rest).map (t ++ ·)
def Quoted (t : Text) : Prop :=
  ∀ depth rest, sliceFrom depth true false (t ++ rest) = (sliceFrom depth true false rest).map (t ++ ·)
theorem passed_nil : Passed [] := by
  intro depth _ rest
  simp
theorem passed_append {t u : Text} (first : Passed t) (second : Passed u) : Passed (t ++ u) := by
  intro depth inside rest
  rw [append_assoc,first depth inside,second depth inside,Option.map_map]
  exact congrArg (Option.map · _) (funext fun slice => (append_assoc t u slice).symm)
theorem passed_plain {c : Nat} (plain : c ≠ 34 ∧ c ≠ 123 ∧ c ≠ 125) : Passed [c] := by
  intro depth _ rest
  rw [singleton_append,sliceFrom,if_neg (show ¬ c = '"'.toNat from plain.1),if_neg (show ¬ c = '{'.toNat from plain.2.1),
    if_neg (show ¬ c = '}'.toNat from plain.2.2)]
  rfl
theorem passed_all {t : Text} (plain : ∀ c ∈ t, c ≠ 34 ∧ c ≠ 123 ∧ c ≠ 125) : Passed t := by
  induction t with
  | nil => exact passed_nil
  | cons c t ih =>
    exact passed_append (passed_plain (plain c mem_cons_self)) (ih fun d member => plain d (mem_cons_of_mem c member))
theorem passed_blank {t : Text} (isBlank : Blank t) : Passed t := by
  refine passed_all fun c member => ?_
  have space := isBlank c member
  simp only [whitespace,Bool.or_eq_true,beq_iff_eq] at space
  omega
theorem quoted_append {t u : Text} (first : Quoted t) (second : Quoted u) : Quoted (t ++ u) := by
  intro depth rest
  rw [append_assoc,first depth,second depth,Option.map_map]
  exact congrArg (Option.map · _) (funext fun slice => (append_assoc t u slice).symm)
theorem quoted_plain {c : Nat} (noQuote : c ≠ 34) (noBackslash : c ≠ 92) : Quoted [c] := by
  intro depth rest
  have inside : (decide (c ≠ '"'.toNat)) = true := decide_eq_true noQuote
  rw [singleton_append,sliceFrom,if_neg Bool.false_ne_true,if_neg (show ¬ c = '\\'.toNat from noBackslash),inside]
  rfl
theorem quoted_escape (c : Nat) : Quoted [92,c] := by
  intro depth rest
  rw [cons_append,singleton_append,sliceFrom,if_neg Bool.false_ne_true,if_pos (show 92 = '\\'.toNat from rfl),sliceFrom,
    if_pos rfl,Option.map_map]
  rfl

theorem quoted_quad {quad : Text} {n : Nat} (isQuad : Quad quad n) : Quoted (92 :: 117 :: quad) := by
  obtain ⟨a,b,c,d,rfl⟩ := quad_parts isQuad
  have digits : ∀ c, (hexDigit c).isSome → c ≠ 34 ∧ c ≠ 92 := by
    rintro c isDigit
    constructor <;> rintro rfl <;> exact absurd isDigit (by decide)
  have read := isQuad.2
  simp only [hexQuad,Option.bind_eq_bind,Option.bind_eq_some_iff] at read
  obtain ⟨p,isP,q,isQ,r,isR,s,isS,_⟩ := read
  have each : ∀ {c m}, hexDigit c = some m → Quoted [c] := by
    intro c m isDigit
    have plain := digits c (by rw [isDigit]; rfl)
    exact quoted_plain plain.1 plain.2
  exact quoted_append (quoted_escape 117)
    (quoted_append (each isP) (quoted_append (each isQ) (quoted_append (each isR) (each isS))))

theorem quoted_characters {source value : Text} (characters : Characters source value) : Quoted source := by
  induction characters with
  | done =>
    intro depth rest
    simp
  | plain _ noQuote noBackslash _ ih => exact quoted_append (quoted_plain noQuote noBackslash) ih
  | letter _ _ ih => exact quoted_append (quoted_escape _) ih
  | unit isQuad _ _ ih => exact quoted_append (quoted_quad isQuad) ih
  | pair isQuad _ isSecond _ _ ih => exact quoted_append (quoted_append (quoted_quad isQuad) (quoted_quad isSecond)) ih

theorem passed_text {source value : Text} (characters : Characters source value) : Passed (34 :: source ++ [34]) := by
  intro depth _ rest
  have closing : sliceFrom depth true false (34 :: rest) = (sliceFrom depth false false rest).map (34 :: ·) := by
    rw [sliceFrom,if_neg Bool.false_ne_true,if_neg (by decide)]
    rfl
  rw [append_assoc,cons_append,singleton_append,sliceFrom,if_pos (show 34 = '"'.toNat from rfl),
    quoted_characters characters,closing,Option.map_map,Option.map_map]
  exact congrArg (Option.map · _) (funext fun slice => by simp)

theorem slice_open {body : Text} (passed : Passed body) {depth : Int} (inside : 0 ≤ depth) (rest : Text) :
    sliceFrom depth false false (123 :: body ++ 125 :: rest) =
      if depth = 0 then some (123 :: body ++ [125]) else (sliceFrom depth false false rest).map (123 :: body ++ [125] ++ ·) := by
  rw [cons_append,sliceFrom,if_neg (by decide),if_pos (show 123 = '{'.toNat from rfl),passed (depth + 1) (by omega),sliceFrom,
    if_neg (by decide),if_neg (by decide),if_pos (show 125 = '}'.toNat from rfl),Int.add_sub_cancel]
  by_cases ground : depth = 0
  · rw [if_pos ground,if_pos ground]
    rfl
  · rw [if_neg ground,if_neg ground,Option.map_map,Option.map_map]
    exact congrArg (Option.map · _) (funext fun slice => by simp)

theorem passed_object {body : Text} (passed : Passed body) : Passed (123 :: body ++ [125]) := by
  intro depth inside rest
  rw [append_assoc,singleton_append,slice_open passed (Int.le_of_lt inside),if_neg (by omega)]
theorem passed_word {word : Text} {value : Json} (member : (word,value) ∈ words) : Passed word := by
  have plain : ∀ entry ∈ words, ∀ c ∈ entry.1, c ≠ 34 ∧ c ≠ 123 ∧ c ≠ 125 := by
    rw [words_spelled]
    simp
  exact passed_all (plain _ member)

theorem passed_number (number : Number) : Passed number.source := by
  have digit : ∀ c, asciiDigit c → c ≠ 34 ∧ c ≠ 123 ∧ c ≠ 125 := by
    intro c isDigit
    have bounds := digit_bounds isDigit
    omega
  have minus : Passed number.minus := by
    rcases number.isMinus with same | same <;> rw [same]
    · exact passed_nil
    · exact passed_plain (by decide)
  have whole : Passed number.whole := passed_all fun c member => digit c (whole_digits number.isWhole c member)
  have fraction : Passed number.fraction := by
    rcases number.isFraction with same | ⟨c,t,same,first,all⟩ <;> rw [same]
    · exact passed_nil
    · exact passed_append (passed_plain (by decide)) (passed_append (passed_plain (digit c first)) (passed_all fun d member => digit d (all d member)))
  have exponent : Passed number.exponent := by
    rcases number.isExponent with same | ⟨mark,sign,c,t,same,isMark,isSign,first,all⟩ <;> rw [same]
    · exact passed_nil
    · have marked : Passed (mark :: sign) := by
        rcases isMark with rfl | rfl
        all_goals rcases isSign with rfl | rfl | rfl
        all_goals exact passed_all (by decide)
      exact passed_append marked (passed_append (passed_plain (digit c first)) (passed_all fun d member => digit d (all d member)))
  exact passed_append (passed_append (passed_append minus whole) fraction) exponent

theorem passed_mark {blank : Text} (isBlank : Blank blank) {mark : Nat} (plain : mark ≠ 34 ∧ mark ≠ 123 ∧ mark ≠ 125) {t : Text}
    (passed : Passed t) : Passed (blank ++ mark :: t) :=
  passed_append (passed_blank isBlank) (passed_append (passed_plain plain) passed)
theorem passed_entry {characters key blank after source : Text} (isKey : Characters characters key) (isBlank : Blank blank)
    (isAfter : Blank after) (passed : Passed source) : Passed (34 :: (characters ++ 34 :: (blank ++ 58 :: (after ++ source)))) := by
  have colon : 58 ≠ 34 ∧ 58 ≠ 123 ∧ 58 ≠ 125 := by decide
  have whole := passed_append (passed_text isKey) (passed_mark isBlank colon (passed_append (passed_blank isAfter) passed))
  simpa using whole

mutual

theorem passed_written : ∀ {t : Text} {value : Json}, Written t value → Passed t
  | _, _, .word member => passed_word member
  | _, _, .number number => passed_number number
  | _, _, .text characters => passed_text characters
  | _, _, .emptyArray isBlank =>
    passed_append (passed_append (passed_plain (by decide)) (passed_blank isBlank)) (passed_plain (by decide))
  | _, _, .array isBlank isBody =>
    passed_append (passed_append (passed_append (passed_plain (by decide)) (passed_blank isBlank)) (passed_items isBody)) (passed_plain (by decide))
  | _, _, .emptyObject isBlank => passed_object (passed_blank isBlank)
  | _, _, .object isBlank isBody => passed_object (passed_append (passed_blank isBlank) (passed_entries isBody))

theorem passed_items : ∀ {t : Text} {items : List Json}, Items t items → Passed t
  | _, _, .last written isBlank => passed_append (passed_written written) (passed_blank isBlank)
  | _, _, .more written isBlank isAfter isBody =>
    passed_append (passed_written written) (passed_mark isBlank (by decide) (passed_append (passed_blank isAfter) (passed_items isBody)))
theorem passed_entries : ∀ {t : Text} {found : List (Text × Json)}, Entries t found → Passed t
  | _, _, .last (.entry isKey isGap isBehind written) isBlank =>
    passed_append (passed_entry isKey isGap isBehind (passed_written written)) (passed_blank isBlank)
  | _, _, .more (.entry isKey isGap isBehind written) isBlank isAfter isBody =>
    passed_append (passed_entry isKey isGap isBehind (passed_written written))
      (passed_mark isBlank (by decide) (passed_append (passed_blank isAfter) (passed_entries isBody)))

end

/-- The braces of an object, with what the scan passes over between them. -/
theorem object_parts {t : Text} {entries : List (Text × Json)} (written : Written t (.object entries)) :
    ∃ body, t = 123 :: body ++ [125] ∧ Passed body := by
  rcases object_cases written with ⟨blank,isBlank,rfl,_⟩ | ⟨blank,body,found,isBlank,isBody,rfl,_⟩
  · exact ⟨blank,rfl,passed_blank isBlank⟩
  · exact ⟨blank ++ body,rfl,passed_append (passed_blank isBlank) (passed_entries isBody)⟩

theorem slice_object {before t : Text} (noBrace : 123 ∉ before) {entries : List (Text × Json)} (written : Written t (.object entries))
    (after : Text) : balancedJsonObjectSlice (before ++ t ++ after) = some t := by
  obtain ⟨body,rfl,passed⟩ := object_parts written
  have dropped : (before ++ (123 :: body ++ [125]) ++ after).dropWhile (fun c => c ≠ '{'.toNat) = 123 :: body ++ 125 :: after := by
    have all : ∀ c ∈ before, decide (c ≠ '{'.toNat) = true := by
      intro c member
      refine decide_eq_true fun same => ?_
      exact noBrace ((show c = 123 from same) ▸ member)
    rw [append_assoc,dropWhile_append_of_pos all]
    simp
  rw [balancedJsonObjectSlice,dropped,slice_open passed (Int.le_refl 0),if_pos rfl]

variable {unicode : StableUnicode} {before t after : Text} {entries found : List (Text × Json)}
theorem space_brace (unicode : StableUnicode) : unicode.space 123 = false ∧ unicode.space 125 = false ∧ unicode.space 96 = false := by
  refine ⟨?_,?_,?_⟩
  all_goals
    rw [unicode.space_ascii _ (by decide)]
    decide

theorem loads_brace {x : Text} (read : loads x = .ok (.object found)) :
    ∃ blank y behind, x = blank ++ 123 :: y ∧ Blank blank ∧ readValue (2 * x.length + 2) (123 :: y) = .ok (.object found,behind) := by
  unfold loads at read
  split_ifs at read with mark
  cases isRead : readValue (2 * x.length + 2) (skip x) with
  | error failure =>
    simp only [isRead,bind,Except.bind] at read
    cases read
  | ok value =>
    obtain ⟨value,behind⟩ := value
    simp only [isRead,bind,Except.bind] at read
    split_ifs at read with whole
    cases read
    cases skipped : skip x with
    | nil =>
      rw [skipped] at isRead
      cases isRead
    | cons c y =>
      rw [skipped] at isRead
      obtain rfl := JsonReadings.readValue_brace isRead
      refine ⟨x.takeWhile whitespace,y,behind,?_,fun c member => mem_takeWhile_imp member,isRead⟩
      rw [← skipped,skip,takeWhile_append_dropWhile]

theorem loads_object (written : Written t (.object entries)) : ∃ result, Outcome (.object entries) result ∧ loads t = result ∧
    ∀ fuel rest, t.length ≤ fuel → readValue fuel (t ++ rest) = result.map fun value => (value,rest) := by
  obtain ⟨result,outcome,reads⟩ := object_read written
  obtain ⟨body,isText,_⟩ := object_parts written
  refine ⟨result,outcome,?_,reads⟩
  have read := reads (2 * t.length + 2) [] (by omega)
  have unmarked : ¬ t.head? = some 0xFEFF := by
    rw [isText]
    rintro ⟨⟩
  have skipped : skip t = t := by
    rw [isText]
    exact skip_head (by decide)
  rw [append_nil] at read
  rw [loads,if_neg unmarked,skipped,read]
  cases result <;> rfl

theorem blank_brace {blank : Text} (isBlank : Blank blank) : 123 ∉ blank :=
  fun member => absurd (isBlank 123 member) (by decide)

theorem loads_around (noBrace : 123 ∉ before) (written : Written t (.object entries))
    (read : loads (before ++ t ++ after) = .ok (.object found)) : found = entries ∧ loads t = .ok (.object entries) := by
  obtain ⟨result,outcome,alone,reads⟩ := loads_object written
  obtain ⟨body,isText,_⟩ := object_parts written
  obtain ⟨blank,y,behind,split,isBlank,isRead⟩ := loads_brace read
  have marks : before ++ 123 :: (body ++ [125] ++ after) = blank ++ 123 :: y := by
    rw [← split,isText]
    simp
  obtain ⟨_,inside⟩ := before_mark noBrace (blank_brace isBlank) marks
  have here := reads (2 * (before ++ t ++ after).length + 2) after (by simp only [length_append]; omega)
  rw [isText,append_assoc] at here
  rw [← inside,isText,append_assoc] at isRead
  have same := here.symm.trans isRead
  rcases outcome with rfl | rfl
  · cases same
    exact ⟨rfl,alone⟩
  · cases same

def Around (t x : Text) : Prop := ∃ before after, x = before ++ t ++ after ∧ 123 ∉ before

theorem strip_split (unicode : Unicode) (t : Text) : ∃ first last, t = first ++ strip unicode t ++ last ∧
    (∀ c ∈ first, unicode.space c) ∧ ∀ c ∈ last, unicode.space c := by
  have front : t.takeWhile unicode.space ++ t.dropWhile unicode.space = t := takeWhile_append_dropWhile
  have back := congrArg List.reverse (takeWhile_append_dropWhile (p := unicode.space) (l := (t.dropWhile unicode.space).reverse))
  rw [reverse_append,reverse_reverse] at back
  have split : t = t.takeWhile unicode.space ++ strip unicode t ++
      ((t.dropWhile unicode.space).reverse.takeWhile unicode.space).reverse := by
    rw [strip,append_assoc,back,front]
  exact ⟨_,_,split,fun c member => mem_takeWhile_imp member,fun c member => mem_takeWhile_imp (mem_reverse.mp member)⟩

theorem around_middle {first x last : Text} (around : Around t (first ++ x ++ last)) (written : Written t (.object entries))
    (noFirst : 123 ∉ first) (noLast : 125 ∉ last) : Around t x := by
  obtain ⟨before,after,split,noBrace⟩ := around
  obtain ⟨body,isText,_⟩ := object_parts written
  have begins : ∃ more, before = first ++ more ∧ x ++ last = more ++ t ++ after := by
    rw [append_assoc,append_assoc] at split
    rcases append_eq_append_iff.mp split with ⟨more,isBefore,isRest⟩ | ⟨more,isFirst,isRest⟩
    · exact ⟨more,isBefore,by rw [isRest,append_assoc]⟩
    · cases more with
      | nil => exact ⟨[],by rw [isFirst,append_nil,append_nil],by simpa using isRest.symm⟩
      | cons c more =>
        rw [isText,cons_append,cons_append,cons_append] at isRest
        obtain ⟨rfl,_⟩ := List.cons.inj isRest
        exact absurd (isFirst ▸ mem_append_right _ mem_cons_self) noFirst
  obtain ⟨more,isBefore,isRest⟩ := begins
  have ends : ∃ rest, x = more ++ t ++ rest := by
    rcases append_eq_append_iff.mp isRest with ⟨rest,isBody,isLast⟩ | ⟨rest,isBody,isLast⟩
    · cases eq_nil_or_concat rest with
      | inl none_ =>
        rw [none_,append_nil] at isBody
        exact ⟨[],by rw [isBody,append_nil]⟩
      | inr some_ =>
        obtain ⟨rest,c,rfl⟩ := some_
        rw [isText,concat_eq_append,← append_assoc,← append_assoc] at isBody
        obtain ⟨_,same⟩ := append_inj' isBody rfl
        cases same
        exact absurd (isLast ▸ mem_append_left _ (by simp)) noLast
    · exact ⟨rest,isBody⟩
  obtain ⟨rest,isWhole⟩ := ends
  exact ⟨more,rest,isWhole,fun member => noBrace (isBefore ▸ mem_append_right _ member)⟩

theorem around_strip (around : Around t before) (written : Written t (.object entries)) : Around t (strip unicode.toUnicode before) := by
  obtain ⟨first,last,split,isFirst,isLast⟩ := strip_split unicode.toUnicode before
  rw [split] at around
  refine around_middle around written ?_ ?_
  · exact fun member => absurd (isFirst 123 member) (by rw [(space_brace unicode).1]; exact Bool.false_ne_true)
  · exact fun member => absurd (isLast 125 member) (by rw [(space_brace unicode).2.1]; exact Bool.false_ne_true)

theorem afterMark_split (t : Text) : ∃ mark, t = mark ++ afterMark t ∧ 123 ∉ mark := by
  unfold afterMark
  split
  · next j s o n rest =>
    split_ifs with isMark
    · refine ⟨[j,s,o,n],rfl,?_⟩
      have plain : ∀ lower ∈ [106,115,111,110], letter lower 123 = false := by decide
      simp only [Bool.and_eq_true] at isMark
      intro member
      simp only [mem_cons,not_mem_nil,or_false] at member
      rcases member with rfl | rfl | rfl | rfl
      · exact absurd isMark.1.1.1 (by decide)
      · exact absurd isMark.1.1.2 (by decide)
      · exact absurd isMark.1.2 (by decide)
      · exact absurd isMark.2 (by decide)
    · exact ⟨[],rfl,not_mem_nil⟩
  · exact ⟨[],rfl,not_mem_nil⟩

theorem around_fenced {x inside : Text} (around : Around t x) (written : Written t (.object entries))
    (isFenced : fenced unicode.toUnicode x = some inside) : Around t inside := by
  unfold fenced at isFenced
  simp only [Option.bind_eq_bind,Option.bind_eq_some_iff] at isFenced
  obtain ⟨rest,begins,isInside⟩ := isFenced
  split_ifs at isInside with closes
  cases isInside
  obtain ⟨mark,isRest,plain⟩ := afterMark_split rest
  obtain ⟨body,isBody⟩ := closes
  have isX := afterPrefix_some.mp begins
  rw [isX,isRest,← isBody,← append_assoc,← append_assoc] at around
  have middle := around_middle around written (by
    rw [mem_append,not_or]
    exact ⟨by decide,plain⟩) (by decide)
  have taken : (afterMark rest).take ((afterMark rest).length - 3) = body := by
    rw [← isBody,length_append]
    simp [fence]
  rw [taken]
  exact around_strip middle written

theorem candidates_split (unicode : StableUnicode) {stripped : Text} (slice : balancedJsonObjectSlice stripped = some t) :
    ∃ more, candidates unicode.toUnicode stripped = (fenced unicode.toUnicode stripped).toList ++ stripped :: more ∧
      (∀ x ∈ more, x = t) ∧ t ∈ candidates unicode.toUnicode stripped := by
  rw [candidates,slice]
  dsimp only
  split_ifs with found
  · obtain ⟨x,member,same⟩ := any_eq_true.mp found
    exact ⟨[],rfl,fun x member => absurd member not_mem_nil,of_decide_eq_true same ▸ member⟩
  · exact ⟨[t],by rw [append_assoc,singleton_append],fun x member => mem_singleton.mp member,
      mem_append_right _ (mem_singleton.mpr rfl)⟩

theorem firstObject_some {texts : List Text} (first : firstObject texts = .ok (some found)) :
    ∃ x ∈ texts, loads x = .ok (.object found) := by
  induction texts with
  | nil => cases first
  | cons x texts ih =>
    rw [firstObject] at first
    split at first
    · next isObject =>
      cases first
      exact ⟨x,mem_cons_self,isObject⟩
    · cases first
    · obtain ⟨y,member,isObject⟩ := ih first
      exact ⟨y,mem_cons_of_mem x member,isObject⟩

theorem firstObject_found {texts : List Text} (short : ∀ x ∈ texts, Short x)
    (same : ∀ x ∈ texts, ∀ found, loads x = .ok (.object found) → found = entries)
    (some_ : ∃ x ∈ texts, loads x = .ok (.object entries)) : firstObject texts = .ok (some entries) := by
  induction texts with
  | nil =>
    obtain ⟨x,member,_⟩ := some_
    exact absurd member not_mem_nil
  | cons x texts ih =>
    rw [firstObject]
    split
    · next found isObject => rw [same x mem_cons_self found isObject]
    · next isLong => exact absurd isLong (short x mem_cons_self)
    · next notObject _ =>
      refine ih (fun y member => short y (mem_cons_of_mem x member)) (fun y member => same y (mem_cons_of_mem x member)) ?_
      obtain ⟨y,member,isObject⟩ := some_
      rcases mem_cons.mp member with rfl | later
      · exact absurd isObject (notObject entries)
      · exact ⟨y,later,isObject⟩

theorem firstObject_long {x : Text} (long : ¬ Short x) (texts : List Text) : firstObject (x :: texts) = .error .digits := by
  rw [firstObject,not_not.mp long]

theorem short_fence {x inside : Text} (isFenced : fenced unicode.toUnicode x = some inside) : Short x := by
  unfold fenced at isFenced
  simp only [Option.bind_eq_bind,Option.bind_eq_some_iff] at isFenced
  obtain ⟨rest,begins,_⟩ := isFenced
  rw [afterPrefix_some.mp begins,fence]
  have noWord : readWord (96 :: 96 :: 96 :: rest) = none := by
    rw [readWord,words_spelled]
    simp [afterPrefix]
  have skipped : skip (96 :: 96 :: 96 :: rest) = 96 :: 96 :: 96 :: rest := skip_head (by decide)
  have read := readValue_noWord (show 96 ≠ 34 ∧ 96 ≠ 91 ∧ 96 ≠ 123 by decide) noWord (2 * (96 :: 96 :: 96 :: rest).length + 1)
  have noNumber : readNumber (96 :: 96 :: 96 :: rest) = .error .decode := rfl
  intro long
  rw [cons_append,cons_append,cons_append,nil_append,loads,if_neg (by simp),skipped,read,noNumber] at long
  cases long

def sampleObject : Text := text "\x7b\"a\": \"\x7d\\\"\"\x7d"

theorem sample_written : Written sampleObject (.object [(text "a",.text (text "\x7d\""))]) := by
  have key : Characters (text "a") (text "a") := .plain (by decide) (by decide) (by decide) .done
  have value : Characters (text "\x7d\\\"") (text "\x7d\"") := .plain (by decide) (by decide) (by decide) (.letter (by decide) .done)
  have blank : Blank [32] := by
    intro c member
    rw [mem_singleton.mp member]
    rfl
  exact @Written.object [] _ _ nofun (@Entries.last _ _ [] _ (@Entry.entry _ _ [] [32] _ _ key nofun blank (.text value)) nofun)

def ones (n : Nat) : Text := List.replicate n 49 ++ [123,125]

theorem loads_ones {n : Nat} (long : maxDigits < n) : loads (ones n) = .error .digits := by
  obtain ⟨m,rfl⟩ := Nat.exists_eq_succ_of_ne_zero (Nat.ne_of_gt (Nat.lt_of_le_of_lt (Nat.zero_le _) long))
  have begins : ones (m + 1) = 49 :: (List.replicate m 49 ++ [123,125]) := rfl
  have isWhole : Whole (List.replicate (m + 1) 49) :=
    .inr ⟨49,List.replicate m 49,rfl,by decide,by decide,fun d member => eq_of_mem_replicate member ▸ by decide⟩
  have stops : ∀ c ∈ [123,125].head?, asciiDigit c = false := by decide
  have noMinus : ([] : Text) = [] ∨ ([] : Text) = [45] := .inl rfl
  have value : readValue (2 * (ones (m + 1)).length + 1 + 1) (ones (m + 1)) = .error .digits := by
    have isLong : maxDigits < (List.replicate (m + 1) 49).length := by
      rw [length_replicate]
      exact long
    refine (readValue_number noMinus isWhole (2 * (ones (m + 1)).length + 1)).trans ?_
    refine (readNumber_parts noMinus isWhole stops).trans ?_
    rw [if_pos ⟨rfl,rfl⟩,if_pos isLong]
  have skipped : skip (ones (m + 1)) = ones (m + 1) := by
    rw [begins]
    exact skip_head (by decide)
  have unmarked : ¬ (ones (m + 1)).head? = some 0xFEFF := by
    rw [begins]
    simp
  rw [loads,if_neg unmarked,skipped,value]
  rfl

end Codebot.EmbeddedJson
