import Mathlib.Data.List.Basic

/-!
Texts as lists of code points, lone surrogates included, and the methods of a
text that split, join, replace and search. The tables of Unicode are a parameter
of the operations that need them.
-/
namespace Codebot.Texts
open List

abbrev Text := List Nat
def text (s : String) : Text := s.toList.map Char.toNat
theorem text_ofList (characters : List Char) : text (String.ofList characters) = characters.map Char.toNat := by
  rw [text,String.toList_ofList]
/-- The code points `first` to `last`. -/
def between (first last : Char) (c : Nat) : Bool := first.toNat ≤ c && c ≤ last.toNat
def asciiDigit (c : Nat) : Bool := between '0' '9' c
def asciiUpper (c : Nat) : Bool := between 'A' 'Z' c
def asciiLower (c : Nat) : Bool := between 'a' 'z' c
def asciiLetter (c : Nat) : Bool := asciiUpper c || asciiLower c
def surrogate (c : Nat) : Bool := 0xD800 ≤ c && c ≤ 0xDFFF
/-- The tables: the upper case of a code point, the lower case of a text, the value
    of a decimal digit, and the white space. -/
structure Unicode where
  upper : Nat → Text
  lower : Text → Text
  digit : Nat → Option Nat
  space : Nat → Bool
/-- The tables where they concern ASCII only. -/
def ascii : Unicode where
  upper c := [if asciiLower c then c - 32 else c]
  lower t := t.map fun c => if asciiUpper c then c + 32 else c
  digit c := if asciiDigit c then some (c - 48) else none
  space c := c == 32 || (9 ≤ c && c ≤ 13) || (28 ≤ c && c ≤ 31)
def upper (unicode : Unicode) (t : Text) : Text := t.flatMap unicode.upper
def strip (unicode : Unicode) (t : Text) : Text :=
  ((t.dropWhile unicode.space).reverse.dropWhile unicode.space).reverse
/-- `str.replace` of a text of one code point. -/
def replace (old : Nat) (new t : Text) : Text := t.flatMap fun c => if c = old then new else [c]
def afterPrefix : Text → Text → Option Text
  | [], t => some t
  | _ :: _, [] => none
  | c :: rest, d :: t => if c = d then afterPrefix rest t else none
def replaceFrom (old new : Text) : Nat → Text → Text
  | 0, t => t
  | _ + 1, [] => []
  | fuel + 1, c :: t =>
    match afterPrefix old (c :: t) with
    | some rest => new ++ replaceFrom old new fuel rest
    | none => c :: replaceFrom old new fuel t
/-- `str.replace` of a text that is not empty. -/
def replaceText (old new t : Text) : Text := replaceFrom old new t.length t
/-- What a file of the text reads as in text mode: a carriage return, also before a
    line feed, reads as a line feed. -/
def universalNewlines : Text → Text
  | [] => []
  | 13 :: 10 :: t => 10 :: universalNewlines t
  | 13 :: t => 10 :: universalNewlines t
  | c :: t => c :: universalNewlines t
def encodable (t : Text) : Bool := t.all fun c => !surrogate c
/-- `needle in t`. -/
def contains (needle : Text) : Text → Bool
  | [] => (afterPrefix needle []).isSome
  | c :: t => (afterPrefix needle (c :: t)).isSome || contains needle t
/-- `separator.join(parts)`. -/
def join (separator : Text) : List Text → Text
  | [] => []
  | [t] => t
  | t :: rest => t ++ separator ++ join separator rest
theorem join_cons (separator first next : Text) (rest : List Text) :
    join separator (first :: next :: rest) = first ++ separator ++ join separator (next :: rest) := rfl

theorem join_append (separator : Text) {first later : List Text} (some : first ≠ []) (more : later ≠ []) :
    join separator (first ++ later) = join separator first ++ separator ++ join separator later := by
  induction first with
  | nil => exact absurd rfl some
  | cons t rest ih =>
    obtain ⟨next,others,rfl⟩ := exists_cons_of_ne_nil more
    cases rest with
    | nil => rfl
    | cons second rest =>
      rw [cons_append,cons_append,join_cons,← cons_append,ih (cons_ne_nil _ _),join_cons]
      simp only [append_assoc]

theorem join_within (separator : Text) {parts whole : List Text} (inside : parts <:+: whole) :
    join separator parts <:+: join separator whole := by
  have grows : ∀ first later : List Text, join separator first <:+: join separator (first ++ later) ∧
      join separator later <:+: join separator (first ++ later) := by
    intro first later
    cases first with
    | nil => exact ⟨List.nil_infix,infix_rfl⟩
    | cons t rest =>
      cases later with
      | nil => rw [append_nil]; exact ⟨infix_rfl,List.nil_infix⟩
      | cons next others =>
        rw [join_append separator (cons_ne_nil _ _) (cons_ne_nil _ _),append_assoc]
        exact ⟨infix_append_left,(suffix_append _ _).isInfix.trans infix_append_right⟩
  obtain ⟨first,later,rfl⟩ := inside
  exact (grows first parts).2.trans (grows (first ++ parts) later).1

/-- A function of texts that goes through the separator goes through `join`. -/
theorem map_join {f : Text → Text} {separator : Text} (empty : f [] = [])
    (through : ∀ first second, f (first ++ separator ++ second) = f first ++ separator ++ f second) (parts : List Text) :
    f (join separator parts) = join separator (parts.map f) := by
  induction parts with
  | nil => exact empty
  | cons first rest ih =>
    cases rest with
    | nil => rfl
    | cons next rest => rw [join_cons,through,ih,map_cons,map_cons,map_cons,join_cons]

/-- `opaque_id`, with the digits that are drawn. -/
def opaqueId (kind hex : Text) : Text := kind ++ text "_" ++ hex
theorem opaqueId_injective (kind : Text) : Function.Injective (opaqueId kind) :=
  fun _ _ same => append_cancel_left same
@[simp] theorem afterPrefix_append (t rest : Text) : afterPrefix t (t ++ rest) = some rest := by
  induction t with
  | nil => cases rest <;> rfl
  | cons c t ih => simpa [afterPrefix] using ih

theorem afterPrefix_some {first t rest : Text} : afterPrefix first t = some rest ↔ t = first ++ rest := by
  constructor
  · intro stripped
    induction first generalizing t with
    | nil => simpa [afterPrefix] using stripped
    | cons c first ih =>
      cases t with
      | nil => cases stripped
      | cons d t =>
        simp only [afterPrefix] at stripped
        split at stripped
        · rename_i same
          rw [same,cons_append,ih stripped]
        · cases stripped
  · rintro rfl
    exact afterPrefix_append first rest

theorem contains_iff {needle t : Text} : contains needle t = true ↔ needle <:+: t := by
  have begins : ∀ {t : Text}, (afterPrefix needle t).isSome = true ↔ needle <+: t := by
    intro t
    rw [Option.isSome_iff_exists]
    exact exists_congr fun rest => afterPrefix_some.trans eq_comm
  induction t with
  | nil => rw [contains,begins,prefix_nil,infix_nil]
  | cons c t ih =>
    rw [contains,Bool.or_eq_true]
    exact (or_congr begins ih).trans infix_cons_iff.symm

theorem before_mark {mark : Nat} {t u rest other : Text} (first : mark ∉ t) (second : mark ∉ u)
    (same : t ++ mark :: rest = u ++ mark :: other) : t = u ∧ rest = other := by
  induction t generalizing u with
  | nil =>
    cases u with
    | nil => exact ⟨rfl,(List.cons.inj same).2⟩
    | cons d u =>
      cases same
      exact absurd mem_cons_self second
  | cons c t ih =>
    cases u with
    | nil =>
      cases same
      exact absurd mem_cons_self first
    | cons d u =>
      obtain ⟨rfl,more⟩ := List.cons.inj same
      obtain ⟨rfl,after⟩ := ih (fun member => first (mem_cons_of_mem c member)) (fun member => second (mem_cons_of_mem c member)) more
      exact ⟨rfl,after⟩

theorem replaceFrom_short {old new t : Text} {fuel : Nat} (short : t.length < old.length) :
    replaceFrom old new fuel t = t := by
  induction fuel generalizing t with
  | zero => rfl
  | succ fuel ih =>
    cases t with
    | nil => rfl
    | cons c t =>
      have absent : afterPrefix old (c :: t) = none := by
        rw [Option.eq_none_iff_forall_ne_some]
        intro rest found
        have lengths := congrArg List.length (afterPrefix_some.mp found)
        rw [length_append] at lengths
        omega
      rw [replaceFrom,absent]
      exact congrArg (c :: ·) (ih (Nat.lt_of_succ_lt short))

theorem replaceText_short {old new t : Text} (short : t.length < old.length) : replaceText old new t = t :=
  replaceFrom_short short
theorem strip_length (unicode : Unicode) (t : Text) : (strip unicode t).length ≤ t.length := by
  have front := (dropWhile_sublist unicode.space (l := t)).length_le
  have back := (dropWhile_sublist unicode.space (l := (t.dropWhile unicode.space).reverse)).length_le
  rw [strip,length_reverse]
  rw [length_reverse] at back
  omega

theorem return_notMem_universalNewlines (t : Text) : 13 ∉ universalNewlines t := by
  fun_induction universalNewlines t with
  | case1 => simp
  | case2 t ih => simpa using ih
  | case3 t other ih => simpa using ih
  | case4 c t notPair notReturn ih =>
    intro member
    rcases mem_cons.mp member with same | later
    · exact notReturn same.symm
    · exact ih later

theorem universalNewlines_eq_self {t : Text} : universalNewlines t = t ↔ 13 ∉ t := by
  constructor
  · intro same member
    rw [← same] at member
    exact return_notMem_universalNewlines t member
  · intro without
    fun_induction universalNewlines t with
    | case1 => rfl
    | case2 t ih => simp at without
    | case3 t other ih => simp at without
    | case4 c t notPair notReturn ih =>
      rw [ih fun later => without (mem_cons_of_mem c later)]

def Trimmed (unicode : Unicode) (t : Text) : Prop :=
  (∀ c ∈ t.head?, unicode.space c = false) ∧ ∀ c ∈ t.getLast?, unicode.space c = false
theorem dropWhile_head {space : Nat → Bool} {t : Text} (head : ∀ c ∈ t.head?, space c = false) :
    t.dropWhile space = t := by
  cases t with
  | nil => rfl
  | cons c t => simp [head c rfl]
theorem strip_trimmed {unicode : Unicode} {t : Text} (trimmed : Trimmed unicode t) : strip unicode t = t := by
  have back : ∀ c ∈ t.reverse.head?, unicode.space c = false := by
    rw [head?_reverse]
    exact trimmed.2
  rw [strip,dropWhile_head trimmed.1,dropWhile_head back,reverse_reverse]

theorem trimmed_strip (unicode : Unicode) (t : Text) : Trimmed unicode (strip unicode t) := by
  have ends : ∀ rest : Text, ∀ c ∈ (rest.dropWhile unicode.space).head?, unicode.space c = false := by
    intro rest c head
    have first := head?_dropWhile_not unicode.space rest
    rw [head] at first
    simpa using first
  refine ⟨?_,?_⟩
  · intro c head
    obtain ⟨kept,split⟩ := dropWhile_suffix unicode.space (l := (t.dropWhile unicode.space).reverse)
    rw [strip,head?_reverse] at head
    have last : c ∈ (t.dropWhile unicode.space).reverse.getLast? := by
      rw [← split,getLast?_append]
      simp [Option.mem_def.mp head]
    rw [getLast?_reverse] at last
    exact ends t c last
  · intro c last
    rw [strip,getLast?_reverse] at last
    exact ends _ c last

@[simp] theorem strip_strip (unicode : Unicode) (t : Text) : strip unicode (strip unicode t) = strip unicode t :=
  strip_trimmed (trimmed_strip unicode t)
theorem lower_spaced_ascii (first second : Text) :
    ascii.lower (first ++ text " " ++ second) = ascii.lower first ++ text " " ++ ascii.lower second := by
  simp only [ascii,map_append]
  rfl

/-- Tables with what Unicode promises of them. -/
structure StableUnicode extends Unicode where
  upper_ascii : ∀ c < 128, upper c = ascii.upper c
  lower_ascii : ∀ t : Text, (∀ c ∈ t, c < 128) → lower t = ascii.lower t
  space_ascii : ∀ c < 128, space c = ascii.space c
  upper_upper : ∀ c, (upper c).flatMap upper = upper c
  upper_some : ∀ c, upper c ≠ []
  upper_space : ∀ c, ∀ d ∈ upper c, space d = space c

/-- The tables where they concern ASCII only. -/
def stableAscii : StableUnicode where
  toUnicode := ascii
  upper_ascii _ _ := rfl
  lower_ascii _ _ := rfl
  space_ascii _ _ := rfl
  upper_upper c := by
    by_cases lower : asciiLower c
    · have above : asciiLower (c - 32) = false := by
        simp only [asciiLower,between,Bool.and_eq_true,decide_eq_true_eq] at lower ⊢
        simp at lower ⊢
        omega
      simp [ascii,lower,above]
    · simp [ascii,lower]
  upper_some c := by simp [ascii]
  upper_space c d upper := by
    have either : d = if asciiLower c then c - 32 else c := by simpa [ascii] using upper
    by_cases lower : asciiLower c
    · have bounds : 97 ≤ c ∧ c ≤ 122 := by simpa [asciiLower,between] using lower
      rw [either,if_pos lower,Bool.eq_iff_iff]
      simp only [ascii,Bool.or_eq_true,Bool.and_eq_true,beq_iff_eq,decide_eq_true_eq]
      omega
    · simp [either,lower]

theorem upper_upper (unicode : StableUnicode) (t : Text) :
    upper unicode.toUnicode (upper unicode.toUnicode t) = upper unicode.toUnicode t := by
  induction t with
  | nil => rfl
  | cons c t ih =>
    rw [upper,upper,flatMap_cons,flatMap_append,unicode.upper_upper]
    exact congrArg _ ih

theorem trimmed_upper {unicode : StableUnicode} {t : Text} (trimmed : Trimmed unicode.toUnicode t) :
    Trimmed unicode.toUnicode (upper unicode.toUnicode t) := by
  refine ⟨?_,?_⟩
  · cases t with
    | nil => simp [upper]
    | cons c t =>
      intro d head
      rw [upper,flatMap_cons,head?_append_of_ne_nil _ (unicode.upper_some c)] at head
      rw [unicode.upper_space c d (mem_of_mem_head? head)]
      exact trimmed.1 c rfl
  · rcases eq_nil_or_concat t with rfl | ⟨front,c,rfl⟩
    · simp [upper]
    · intro d last
      have some : d ∈ (unicode.upper c).getLast? := by
        rw [upper,concat_eq_append,flatMap_append,getLast?_append_of_ne_nil _ (by simpa using unicode.upper_some c)] at last
        simpa using last
      rw [unicode.upper_space c d (mem_of_mem_getLast? some)]
      exact trimmed.2 c (by simp)

/-- The upper case of a stripped text is stripped and in upper case. -/
theorem upper_strip (unicode : StableUnicode) (t : Text) :
    upper unicode.toUnicode (strip unicode.toUnicode (upper unicode.toUnicode (strip unicode.toUnicode t))) =
      upper unicode.toUnicode (strip unicode.toUnicode t) := by
  rw [strip_trimmed (trimmed_upper (trimmed_strip _ t)),upper_upper]

theorem strip_ascii (unicode : StableUnicode) {t : Text} (small : ∀ c ∈ t, c < 128) :
    strip unicode.toUnicode t = strip ascii t := by
  have drop : ∀ rest : Text, (∀ c ∈ rest, c < 128) →
      rest.dropWhile unicode.space = rest.dropWhile ascii.space := by
    intro rest small
    induction rest with
    | nil => rfl
    | cons c rest ih =>
      rw [dropWhile_cons,dropWhile_cons,unicode.space_ascii c (small c mem_cons_self),
        ih fun d later => small d (mem_cons_of_mem c later)]
  have front : ∀ c ∈ (t.dropWhile ascii.space).reverse, c < 128 := by
    intro c member
    exact small c ((dropWhile_sublist _).subset (mem_reverse.mp member))
  rw [strip,strip,drop t small,drop _ front]

end Codebot.Texts
