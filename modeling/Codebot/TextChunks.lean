import Codebot.Chunks
import Mathlib.Data.List.Infix

/-!
The chunks of an item of the knowledge index. The content is split at blank lines and headings, and its parts are put
together up to a size, each chunk after an overlap with the one before it (`Covers`, `chunks_complete_iff`).
`_chunk_text` drops what is behind the size.
-/
namespace Codebot.TextChunks
open Texts List
open Chunks (glue)

/-- The line ends of `str.splitlines`. -/
def lineEnd (c : Nat) : Bool :=
  (10 ≤ c && c ≤ 13) || (28 ≤ c && c ≤ 30) || c == 0x85 || c == 0x2028 || c == 0x2029
def splitlines : Text → List Text
  | [] => []
  | 13 :: 10 :: t => [] :: splitlines t
  | c :: t => if lineEnd c then [] :: splitlines t else glue [c] (splitlines t)
def rstrip (unicode : Unicode) (t : Text) : Text := (t.reverse.dropWhile unicode.space).reverse
def normalized (unicode : Unicode) (content : Text) : Text :=
  join [10] ((splitlines (strip unicode content)).map (rstrip unicode))
/-- `(?=##?\s+)`. -/
def headingAhead (unicode : Unicode) : Text → Bool
  | 35 :: 35 :: c :: _ => unicode.space c
  | 35 :: c :: _ => unicode.space c
  | _ => false

/-- `re.split(r"\n(?=##?\s+)|\n\n+", …)`, also from within the line feeds of a separator. -/
def splitParts (unicode : Unicode) : Bool → Text → List Text
  | _, [] => [[]]
  | within, c :: t =>
    if c = 10 then
      if within then splitParts unicode true t
      else if t.head? = some 10 then [] :: splitParts unicode true t
      else if headingAhead unicode t then [] :: splitParts unicode false t
      else glue [10] (splitParts unicode false t)
    else glue [c] (splitParts unicode false t)

/-- `re.match(r"^(#{1,3})\s+([^\n]+)", part)` of a stripped part: the number of its marks and its title. -/
def heading (unicode : Unicode) (part : Text) : Option (Nat × Text) :=
  let marks := (part.takeWhile (· == 35)).length
  let rest := part.dropWhile (· == 35)
  let title := rest.dropWhile unicode.space
  if 1 ≤ marks ∧ marks ≤ 3 ∧ rest.head?.any unicode.space ∧ title ≠ [] then
    some (marks,strip unicode (title.takeWhile (· != 10)))
  else none

def dashes : Bool → Text → Text
  | _, [] => []
  | after, c :: t =>
    if asciiLower c || asciiDigit c then c :: dashes false t
    else if after then dashes true t
    else 45 :: dashes true t
def slug (unicode : Unicode) (t : Text) : Text :=
  (((dashes false (unicode.lower t)).dropWhile (· == 45)).reverse.dropWhile (· == 45)).reverse
structure Section where
  text : Text
  sectionTitle : Text
  parentTitle : Text
  sectionPath : Text
  chunkKind : Text
deriving DecidableEq
def chunkSectionPayload (unicode : Unicode) (body sectionTitle parentTitle : Text) (sectionCounter : Nat) : Section where
  text := body
  sectionTitle := if sectionTitle = [] then text "overview" else sectionTitle
  parentTitle := if parentTitle ≠ [] then parentTitle else if sectionTitle ≠ [] then sectionTitle else text "overview"
  sectionPath := text (toString sectionCounter) ++ text "-" ++ slug unicode parentTitle ++ text "-" ++ slug unicode sectionTitle
  chunkKind := if sectionTitle = text "overview" then text "overview" else text "section"
/-- What the loop has read so far. -/
structure Reading where
  chunks : List Section
  current : Text
  currentTitle : Text
  parentTitle : Text
  sectionCounter : Nat
def start : Reading := ⟨[],[],text "overview",text "overview",0⟩

section
variable (unicode : Unicode) (maxChars overlapChars : Nat)

/-- The text read so far becomes a chunk. -/
def emit (r : Reading) : Reading :=
  { r with
    chunks := r.chunks ++ [chunkSectionPayload unicode r.current r.currentTitle r.parentTitle (r.sectionCounter + 1)]
    sectionCounter := r.sectionCounter + 1 }

/-- A heading ends the chunk before it. -/
def readHeading (r : Reading) (part : Text) : Reading :=
  match heading unicode part with
  | some (level,title) =>
    let closed := if r.current ≠ [] then { emit unicode r with current := [] } else r
    { closed with
      parentTitle := if level ≤ 2 then title else closed.parentTitle
      currentTitle := title }
  | none => r

/-- `current[-overlap_chars:].strip()`, if there is more than that. -/
def overlapOf (current : Text) : Text :=
  if overlapChars ≠ 0 ∧ overlapChars < current.length then strip unicode (current.drop (current.length - overlapChars)) else []
def behind (first second : Text) : Text := strip unicode (first ++ [10,10] ++ second)
def addPart (r : Reading) (part : Text) : Reading :=
  if r.current.length + part.length + 2 ≤ maxChars then { r with current := behind unicode r.current part }
  else if r.current ≠ [] then
    let overlap := overlapOf unicode overlapChars r.current
    { emit unicode r with
      current := if overlap ≠ [] then behind unicode overlap (part.take maxChars) else strip unicode (part.take maxChars) }
  else { r with current := strip unicode (part.take maxChars) }
def readPart (r : Reading) (piece : Text) : Reading :=
  let part := strip unicode piece
  if part = [] then r else addPart unicode maxChars overlapChars (readHeading unicode r part) part
def chunkText (content : Text) : List Section :=
  let whole := normalized unicode content
  if whole = [] then []
  else
    let r := (splitParts unicode false whole).foldl (readPart unicode maxChars overlapChars) start
    (if r.current ≠ [] then emit unicode r else r).chunks
def partsOf (pieces : List Text) : List Text := (pieces.map (strip unicode)).filter (· ≠ [])
def parts (content : Text) : List Text := partsOf unicode (splitParts unicode false (normalized unicode content))

end

/-- What may come before the parts of a chunk: nothing, or the end of the chunk before it. -/
def Repeated (overlapChars : Nat) (chunks : List Text) (lead : Text) : Prop :=
  lead = [] ∨ ∃ previous ∈ chunks.getLast?, ∃ overlap, overlap <:+ previous ∧ overlap.length ≤ overlapChars ∧
    lead = overlap ++ [10,10]
/-- Chunks that have the parts completely and in order, next to the overlap they repeat. -/
inductive Covers (overlapChars : Nat) : List Text → List Text → Prop
  | none : Covers overlapChars [] []
  | chunk {front group chunks : List Text} {lead : Text} (before : Covers overlapChars front chunks)
    (repeated : Repeated overlapChars chunks lead) :
    Covers overlapChars (front ++ group) (chunks ++ [lead ++ join [10,10] group])

section
variable (unicode : Unicode)

def visible (t : Text) : Text := t.filter fun c => !unicode.space c && !lineEnd c
@[simp] theorem visible_append (t u : Text) : visible unicode (t ++ u) = visible unicode t ++ visible unicode u :=
  filter_append t u
theorem visible_lineEnd {c : Nat} (ends : lineEnd c) (t : Text) : visible unicode (c :: t) = visible unicode t := by
  simp [visible,ends]

theorem visible_dropWhile (t : Text) : visible unicode (t.dropWhile unicode.space) = visible unicode t := by
  induction t with
  | nil => rfl
  | cons c t ih =>
    by_cases blank : unicode.space c
    · rw [dropWhile_cons_of_pos blank,ih]
      simp [visible,blank]
    · rw [dropWhile_cons_of_neg blank]

theorem visible_reverse (t : Text) : visible unicode t.reverse = (visible unicode t).reverse := filter_reverse
theorem visible_rstrip (t : Text) : visible unicode (rstrip unicode t) = visible unicode t := by
  rw [rstrip,visible_reverse,visible_dropWhile,visible_reverse,reverse_reverse]
theorem visible_strip (t : Text) : visible unicode (strip unicode t) = visible unicode t := by
  rw [← visible_dropWhile unicode t]
  exact visible_rstrip unicode _
theorem flatten_glue (first : Text) (pieces : List Text) : (glue first pieces).flatten = first ++ pieces.flatten := by
  cases pieces <;> simp [glue]
theorem visible_splitlines (t : Text) : visible unicode (splitlines t).flatten = visible unicode t := by
  fun_induction splitlines t with
  | case1 => rfl
  | case2 t ih =>
    rw [flatten_cons,nil_append,ih,visible_lineEnd unicode (by decide),visible_lineEnd unicode (by decide)]
  | case3 c t other ends ih => rw [flatten_cons,nil_append,ih,visible_lineEnd unicode ends]
  | case4 c t other inside ih => rw [flatten_glue,visible_append,ih,← visible_append,singleton_append]
theorem visible_join (lines : List Text) : visible unicode (join [10] lines) = visible unicode lines.flatten := by
  fun_induction join [10] lines with
  | case1 => rfl
  | case2 t => simp
  | case3 t rest more ih =>
    have feed : visible unicode [10] = [] := visible_lineEnd unicode (by decide) []
    simp only [visible_append,flatten_cons,ih,feed,append_nil]
theorem visible_each {change : Text → Text} (same : ∀ t, visible unicode (change t) = visible unicode t) (pieces : List Text) :
    visible unicode (pieces.map change).flatten = visible unicode pieces.flatten := by
  induction pieces with
  | nil => rfl
  | cons piece rest ih => rw [map_cons,flatten_cons,visible_append,same,ih,flatten_cons,visible_append]

theorem visible_splitParts (within : Bool) (t : Text) : visible unicode (splitParts unicode within t).flatten = visible unicode t := by
  have feed : ∀ t, visible unicode (10 :: t) = visible unicode t := visible_lineEnd unicode (by decide)
  fun_induction splitParts unicode within t with
  | case1 => rfl
  | case2 t ih => rw [ih,feed]
  | case3 within t outside blank ih => rw [flatten_cons,nil_append,ih,feed]
  | case4 within t outside single ahead ih => rw [flatten_cons,nil_append,ih,feed]
  | case5 within t outside single other ih => rw [flatten_glue,visible_append,ih,← visible_append,singleton_append]
  | case6 within c t other ih => rw [flatten_glue,visible_append,ih,← visible_append,singleton_append]

theorem flatten_filter (pieces : List Text) : (pieces.filter (· ≠ [])).flatten = pieces.flatten := by
  induction pieces with
  | nil => rfl
  | cons piece rest ih => cases piece <;> simp_all
/-- The parts have every character of the content that is not white space, in order. -/
theorem visible_parts (content : Text) : visible unicode (parts unicode content).flatten = visible unicode content := by
  rw [parts,partsOf,flatten_filter,visible_each unicode (visible_strip unicode),visible_splitParts,normalized,visible_join,
    visible_each unicode (visible_rstrip unicode),visible_splitlines,visible_strip]

end

section
variable {unicode : Unicode} {maxChars overlapChars : Nat} {Good : Text → Prop}

def Every (Good : Text → Prop) (r : Reading) : Prop := Good r.current ∧ ∀ chunk ∈ r.chunks, Good chunk.text

variable {r : Reading}
theorem every_emit (every : Every Good r) : ∀ chunk ∈ (emit unicode r).chunks, Good chunk.text := by
  intro chunk member
  rcases mem_append.mp member with earlier | last
  · exact every.2 chunk earlier
  · rw [mem_singleton.mp last]
    exact every.1

theorem every_heading {part : Text} (empty : Good []) (every : Every Good r) : Every Good (readHeading unicode r part) := by
  unfold readHeading
  split
  · by_cases current : r.current = []
    · rw [if_neg (not_not_intro current)]
      exact every
    · rw [if_pos current]
      exact ⟨empty,every_emit every⟩
  · exact every

theorem every_part {piece : Text} (empty : Good [])
    (fits : ∀ current part, Good current → current.length + part.length + 2 ≤ maxChars → Good (behind unicode current part))
    (alone : ∀ part : Text, Good (strip unicode (part.take maxChars)))
    (repeats : ∀ current part : Text, Good current → Good (behind unicode (overlapOf unicode overlapChars current) (part.take maxChars)))
    (every : Every Good r) : Every Good (readPart unicode maxChars overlapChars r piece) := by
  unfold readPart
  dsimp only
  split_ifs with blank
  · exact every
  have headed : Every Good (readHeading unicode r (strip unicode piece)) := every_heading empty every
  unfold addPart
  split_ifs with fit current
  · exact ⟨fits _ _ headed.1 fit,headed.2⟩
  · refine ⟨?_,every_emit headed⟩
    dsimp only
    split_ifs
    · exact repeats _ _ headed.1
    · exact alone _
  · exact ⟨alone _,headed.2⟩

theorem every_chunk (empty : Good [])
    (fits : ∀ current part, Good current → current.length + part.length + 2 ≤ maxChars → Good (behind unicode current part))
    (alone : ∀ part : Text, Good (strip unicode (part.take maxChars)))
    (repeats : ∀ current part : Text, Good current → Good (behind unicode (overlapOf unicode overlapChars current) (part.take maxChars)))
    (content : Text) : ∀ chunk ∈ chunkText unicode maxChars overlapChars content, Good chunk.text := by
  have run : ∀ (pieces : List Text) (r : Reading), Every Good r → Every Good (pieces.foldl (readPart unicode maxChars overlapChars) r) := by
    intro pieces
    induction pieces with
    | nil => exact fun r every => every
    | cons piece rest ih => exact fun r every => ih _ (every_part empty fits alone repeats every)
  have every := run (splitParts unicode false (normalized unicode content)) start ⟨empty,fun chunk member => nomatch member⟩
  unfold chunkText
  dsimp only
  split_ifs with none current
  · exact fun chunk member => nomatch member
  · exact every_emit every
  · exact every.2

end

theorem behind_length (unicode : Unicode) (first second : Text) :
    (behind unicode first second).length ≤ first.length + second.length + 2 := by
  have stripped := strip_length unicode (first ++ [10,10] ++ second)
  simp only [length_append,length_cons,length_nil] at stripped
  rw [behind]
  omega

theorem overlapOf_length (unicode : Unicode) (overlapChars : Nat) (current : Text) :
    (overlapOf unicode overlapChars current).length ≤ overlapChars := by
  unfold overlapOf
  split_ifs with longer
  · have stripped := strip_length unicode (current.drop (current.length - overlapChars))
    rw [length_drop] at stripped
    omega
  · exact Nat.zero_le _

theorem chunk_length (unicode : Unicode) (maxChars overlapChars : Nat) (content : Text) :
    ∀ chunk ∈ chunkText unicode maxChars overlapChars content, chunk.text.length ≤ maxChars + overlapChars + 2 := by
  have empty : ([] : Text).length ≤ maxChars + overlapChars + 2 := Nat.zero_le _
  refine @every_chunk unicode maxChars overlapChars (fun t => t.length ≤ maxChars + overlapChars + 2) empty ?_ ?_ ?_ content
  · intro current part _ fit
    have joined := behind_length unicode current part
    omega
  · intro part
    have stripped := strip_length unicode (part.take maxChars)
    have cut := length_take_le maxChars part
    omega
  · intro current part _
    have joined := behind_length unicode (overlapOf unicode overlapChars current) (part.take maxChars)
    have overlap := overlapOf_length unicode overlapChars current
    have cut := length_take_le maxChars part
    omega

section
variable {unicode : StableUnicode}

def Limited (unicode : Unicode) (n : Nat) (t : Text) : Prop :=
  ∀ piece, piece <:+: t → Trimmed unicode piece → ¬ [10,10] <:+: piece → piece.length ≤ n

variable {n : Nat}
variable {t : Text}
theorem limited_short (short : t.length ≤ n) : Limited unicode.toUnicode n t :=
  fun _ inside _ _ => inside.length_le.trans short
theorem Limited.within {u : Text} (limited : Limited unicode.toUnicode n t) (inside : u <:+: t) : Limited unicode.toUnicode n u :=
  fun piece isPiece => limited piece (isPiece.trans inside)
theorem feed_space (unicode : StableUnicode) : unicode.space 10 = true := unicode.space_ascii 10 (by decide)

variable {a : Text}

theorem suffix_blank {x : Text} (suffix : x <:+ a ++ [10,10]) : x = [] ∨ x = [10] ∨ [10,10] <:+ x := by
  have split : a ++ [10,10] = (a ++ [10]) ++ [10] := by simp
  rw [split,suffix_concat_iff] at suffix
  rcases suffix with none | ⟨front,rfl,inside⟩
  · exact .inl none
  rcases suffix_concat_iff.mp inside with rfl | ⟨front,rfl,_⟩
  · exact .inr (.inl rfl)
  · exact .inr (.inr ⟨front,by simp⟩)

theorem limited_blank {b : Text} (first : Limited unicode.toUnicode n a) (second : Limited unicode.toUnicode n b) :
    Limited unicode.toUnicode n (a ++ [10,10] ++ b) := by
  intro piece inside trimmed solid
  have starts : ∀ t, piece ≠ 10 :: t := by
    rintro t rfl
    have no := trimmed.1 10 rfl
    rw [feed_space] at no
    cases no
  have ends : ∀ t, piece ≠ t ++ [10] := by
    rintro t rfl
    have no := trimmed.2 10 (by simp)
    rw [feed_space] at no
    cases no
  rcases infix_append_iff.mp inside with early | late | ⟨x,y,rfl,suffix,isPrefix⟩
  · rcases infix_append_iff.mp early with inFirst | separator | ⟨x,y,rfl,suffix,isPrefix⟩
    · exact first piece inFirst trimmed solid
    · cases piece with
      | nil => exact Nat.zero_le n
      | cons c rest =>
        have feed : c ∈ [10,10] := separator.subset mem_cons_self
        simp only [mem_cons,not_mem_nil,or_false,or_self] at feed
        exact absurd (by rw [feed]) (starts rest)
    · rcases eq_nil_or_concat y with rfl | ⟨front,c,rfl⟩
      · rw [append_nil] at *
        exact first x suffix.isInfix trimmed solid
      · have feed : c ∈ [10,10] := isPrefix.subset (by simp)
        simp only [mem_cons,not_mem_nil,or_false,or_self] at feed
        exact absurd (by rw [feed,concat_eq_append,← append_assoc]) (ends (x ++ front))
  · exact second piece late trimmed solid
  · rcases suffix_blank suffix with rfl | rfl | blank
    · exact second _ isPrefix.isInfix trimmed solid
    · exact absurd rfl (starts y)
    · exact absurd (blank.isInfix.trans (prefix_append x y).isInfix) solid

theorem strip_inside (unicode : Unicode) (t : Text) : strip unicode t <:+: t := by
  have back : strip unicode t <+: t.dropWhile unicode.space := by
    rw [← reverse_suffix,strip,reverse_reverse]
    exact dropWhile_suffix _
  exact back.isInfix.trans (dropWhile_suffix _).isInfix
theorem overlapOf_inside (unicode : Unicode) (overlapChars : Nat) (current : Text) : overlapOf unicode overlapChars current <:+: current := by
  unfold overlapOf
  split_ifs
  · exact (strip_inside unicode _).trans (drop_suffix _ _).isInfix
  · exact nil_infix

theorem chunk_limited (maxChars overlapChars : Nat) (content : Text) :
    ∀ chunk ∈ chunkText unicode.toUnicode maxChars overlapChars content, Limited unicode.toUnicode maxChars chunk.text := by
  have cut : ∀ part : Text, (part.take maxChars).length ≤ maxChars := length_take_le maxChars
  refine every_chunk (limited_short (Nat.zero_le _)) ?_ ?_ ?_ content
  · intro current part _ fit
    exact limited_short ((behind_length unicode.toUnicode current part).trans fit)
  · exact fun part => (limited_short (cut part)).within (strip_inside _ _)
  · intro current part limited
    have joined := limited_blank (limited.within (overlapOf_inside unicode.toUnicode overlapChars current)) (limited_short (cut part))
    exact joined.within (strip_inside _ _)

end

section
variable {unicode : StableUnicode}

theorem glue_solid {c : Nat} {pieces : List Text} (solid : ∀ piece ∈ pieces, ¬ [10,10] <:+: piece)
    (starts : c = 10 → ∀ piece ∈ pieces.head?, piece.head? ≠ some 10) : ∀ piece ∈ glue [c] pieces, ¬ [10,10] <:+: piece := by
  intro piece member blank
  rcases Chunks.mem_glue member with ⟨head,isHead,rfl⟩ | later | ⟨_,rfl⟩
  · rcases infix_cons_iff.mp blank with first | inside
    · obtain ⟨isFeed,rest⟩ := cons_prefix_cons.mp first
      obtain ⟨u,follows⟩ := rest
      have begins : [10] ++ u = head := follows
      exact starts isFeed.symm head isHead (by rw [← begins]; rfl)
    · exact solid head (mem_of_mem_head? isHead) inside
  · exact solid piece later blank
  · have short := blank.length_le
    simp at short

theorem splitParts_starts {t : Text} (starts : t.head? ≠ some 10) :
    ∀ piece ∈ (splitParts unicode.toUnicode false t).head?, piece.head? ≠ some 10 := by
  cases t with
  | nil =>
    intro piece isHead
    rw [splitParts] at isHead
    cases isHead
    exact nofun
  | cons c t =>
    have other : c ≠ 10 := fun feed => starts (by rw [feed]; rfl)
    intro piece isHead
    rw [splitParts,if_neg other] at isHead
    cases pieces : splitParts unicode.toUnicode false t with
    | nil =>
      rw [pieces] at isHead
      cases isHead
      exact fun feed => other (Option.some.inj feed)
    | cons first rest =>
      rw [pieces] at isHead
      cases isHead
      exact fun feed => other (Option.some.inj feed)

theorem splitParts_solid (within : Bool) (t : Text) : ∀ piece ∈ splitParts unicode.toUnicode within t, ¬ [10,10] <:+: piece := by
  have empty : ¬ ([10,10] : Text) <:+: [] := by simp
  fun_induction splitParts unicode.toUnicode within t with
  | case1 => simp
  | case2 t ih => exact ih
  | case3 within t outside blank ih => exact forall_mem_cons.mpr ⟨empty,ih⟩
  | case4 within t outside single ahead ih => exact forall_mem_cons.mpr ⟨empty,ih⟩
  | case5 within t outside single other ih => exact glue_solid ih fun _ => splitParts_starts single
  | case6 within c t other ih => exact glue_solid ih fun feed => absurd feed other

structure Part (unicode : Unicode) (part : Text) : Prop where
  some : part ≠ []
  trimmed : Trimmed unicode part
  solid : ¬ [10,10] <:+: part

variable {content part : Text}
theorem parts_part (member : part ∈ parts unicode.toUnicode content) : Part unicode.toUnicode part := by
  obtain ⟨inside,isSome⟩ := mem_filter.mp member
  obtain ⟨piece,isPiece,rfl⟩ := mem_map.mp inside
  refine ⟨by simpa using isSome,trimmed_strip _ _,?_⟩
  exact fun blank => splitParts_solid false _ piece isPiece (blank.trans (strip_inside _ _))

variable {group : List Text} {separator : Text}
theorem infix_join (member : part ∈ group) : part <:+: join separator group := by
  obtain ⟨first,later,rfl⟩ := append_of_mem member
  exact @join_within separator [part] _ ⟨first,later,by simp⟩
theorem join_concat (some : group ≠ []) :
    join separator (group ++ [part]) = join separator group ++ separator ++ part :=
  join_append separator some (cons_ne_nil part [])

variable {read : List Text}

theorem Covers.inside {overlapChars : Nat} {chunks : List Text} (covers : Covers overlapChars read chunks) :
    ∀ part ∈ read, ∃ chunk ∈ chunks, part <:+: chunk := by
  induction covers with
  | none => exact fun part member => nomatch member
  | chunk before repeated ih =>
    intro part member
    rcases mem_append.mp member with earlier | inGroup
    · obtain ⟨chunk,isChunk,inside⟩ := ih part earlier
      exact ⟨chunk,mem_append_left _ isChunk,inside⟩
    · exact ⟨_,mem_append_right _ mem_cons_self,(infix_join inGroup).trans (suffix_append _ _).isInfix⟩

variable {overlapChars : Nat}
def texts (chunks : List Section) : List Text := chunks.map Section.text
/-- The chunks so far cover the parts but the last ones, which are in the current text. -/
structure Pending (unicode : Unicode) (overlapChars : Nat) (read : List Text) (r : Reading) : Prop where
  trimmed : Trimmed unicode r.current
  covered : ∃ front group lead, front ++ group = read ∧ Covers overlapChars front (texts r.chunks) ∧
    Repeated overlapChars (texts r.chunks) lead ∧ r.current = lead ++ join [10,10] group ∧
    (group = [] → lead = []) ∧ (r.current = [] → group = [])
theorem trimmed_nil (unicode : Unicode) : Trimmed unicode [] := ⟨nofun,nofun⟩
theorem texts_emit (unicode : Unicode) (r : Reading) : texts (emit unicode r).chunks = texts r.chunks ++ [r.current] := map_append

variable {r : Reading}
theorem Pending.emit (pending : Pending unicode.toUnicode overlapChars read r) :
    Covers overlapChars read (texts (emit unicode.toUnicode r).chunks) := by
  obtain ⟨front,group,lead,rfl,covers,repeated,current,_⟩ := pending.covered
  rw [texts_emit,current]
  exact .chunk covers repeated
theorem Pending.done (pending : Pending unicode.toUnicode overlapChars read r) (nothing : r.current = []) :
    Covers overlapChars read (texts r.chunks) := by
  obtain ⟨front,group,lead,rfl,covers,_,_,_,empty⟩ := pending.covered
  rw [empty nothing,append_nil]
  exact covers

theorem pending_heading (pending : Pending unicode.toUnicode overlapChars read r) :
    Pending unicode.toUnicode overlapChars read (readHeading unicode.toUnicode r part) := by
  unfold readHeading
  split
  · by_cases current : r.current = []
    · rw [if_neg (not_not_intro current)]
      exact ⟨pending.trimmed,pending.covered⟩
    · rw [if_pos current]
      exact ⟨trimmed_nil _,read,[],[],append_nil read,pending.emit,.inl rfl,rfl,fun _ => rfl,fun _ => rfl⟩
  · exact pending

theorem behind_nil (trimmed : Trimmed unicode.toUnicode part) : behind unicode.toUnicode [] part = part := by
  have stripped : behind unicode.toUnicode [] part = strip unicode.toUnicode part := by
    simp [behind,strip,feed_space]
  rw [stripped,strip_trimmed trimmed]

variable {current : Text}
theorem behind_eq (some : current ≠ []) (trimmed : Trimmed unicode.toUnicode current)
    (isPart : Part unicode.toUnicode part) : behind unicode.toUnicode current part = current ++ [10,10] ++ part := by
  refine strip_trimmed ⟨?_,?_⟩
  · rw [append_assoc,head?_append_of_ne_nil _ some]
    exact trimmed.1
  · rw [getLast?_append_of_ne_nil _ isPart.some]
    exact isPart.trimmed.2

theorem overlapOf_suffix (trimmed : Trimmed unicode.toUnicode current) :
    overlapOf unicode.toUnicode overlapChars current <:+ current := by
  unfold overlapOf
  split_ifs
  · refine List.IsSuffix.trans ?_ (drop_suffix (current.length - overlapChars) current)
    have kept := dropWhile_suffix unicode.space (l := current.drop (current.length - overlapChars))
    have inCurrent := kept.trans (drop_suffix _ _)
    have same : strip unicode.toUnicode (current.drop (current.length - overlapChars)) =
        (current.drop (current.length - overlapChars)).dropWhile unicode.space := by
      have ends : ∀ c ∈ ((current.drop (current.length - overlapChars)).dropWhile unicode.space).reverse.head?, unicode.space c = false := by
        intro c last
        rw [head?_reverse] at last
        obtain ⟨front,split⟩ := inCurrent
        refine trimmed.2 c ?_
        rw [← split,getLast?_append,Option.mem_def.mp last]
        rfl
      rw [strip,dropWhile_head ends,reverse_reverse]
    rw [same]
    exact kept
  · exact nil_suffix

theorem Pending.next {lead : Text} (covers : Covers overlapChars read (texts r.chunks))
    (isPart : Part unicode.toUnicode part) (repeated : Repeated overlapChars (texts r.chunks) lead)
    (trimmed : Trimmed unicode.toUnicode r.current) (current : r.current = lead ++ part) :
    Pending unicode.toUnicode overlapChars (read ++ [part]) r := by
  refine ⟨trimmed,read,[part],lead,rfl,covers,repeated,current,nofun,fun nothing => ?_⟩
  rw [current] at nothing
  exact absurd (append_eq_nil_iff.mp nothing).2 isPart.some

theorem pending_part {maxChars : Nat} (isPart : Part unicode.toUnicode part)
    (fits : part.length ≤ maxChars) (pending : Pending unicode.toUnicode overlapChars read r) :
    Pending unicode.toUnicode overlapChars (read ++ [part]) (addPart unicode.toUnicode maxChars overlapChars r part) := by
  unfold addPart
  by_cases nothing : r.current = []
  · have alone : Pending unicode.toUnicode overlapChars (read ++ [part]) { r with current := part } :=
      .next (pending.done nothing) isPart (.inl rfl) isPart.trimmed rfl
    split_ifs with fit some
    · rw [nothing,behind_nil isPart.trimmed]
      exact alone
    · exact absurd nothing some
    · rw [take_of_length_le fits,strip_trimmed isPart.trimmed]
      exact alone
  split_ifs with fit
  · obtain ⟨front,group,lead,rfl,covers,repeated,current,starts,_⟩ := pending.covered
    have joined := behind_eq nothing pending.trimmed isPart
    have inGroup : group ≠ [] := by
      rintro rfl
      rw [starts rfl] at current
      exact nothing current
    refine ⟨?_,front,group ++ [part],lead,(append_assoc ..).symm,covers,repeated,?_,?_,?_⟩
    · exact trimmed_strip _ _
    · dsimp only
      rw [joined,current,join_concat inGroup]
      simp only [append_assoc]
    · exact fun no => absurd (append_eq_nil_iff.mp no).1 inGroup
    · dsimp only
      intro no
      rw [joined] at no
      exact absurd (append_eq_nil_iff.mp no).2 isPart.some
  · dsimp only
    rw [take_of_length_le fits]
    have last : r.current ∈ (texts (emit unicode.toUnicode r).chunks).getLast? := by
      rw [texts_emit]
      simp
    split_ifs with overlap
    · have suffix : overlapOf unicode.toUnicode overlapChars r.current <:+ r.current := overlapOf_suffix pending.trimmed
      have ends : Trimmed unicode.toUnicode (overlapOf unicode.toUnicode overlapChars r.current) := by
        unfold overlapOf
        split_ifs
        · exact trimmed_strip _ _
        · exact trimmed_nil _
      have repeated : Repeated overlapChars (texts (emit unicode.toUnicode r).chunks) (overlapOf unicode.toUnicode overlapChars r.current ++ [10,10]) :=
        .inr ⟨r.current,last,_,suffix,overlapOf_length _ _ _,rfl⟩
      exact .next pending.emit isPart repeated (trimmed_strip _ _) (behind_eq overlap ends isPart)
    · exact .next pending.emit isPart (.inl rfl) (trimmed_strip _ _) (strip_trimmed isPart.trimmed)

theorem partsOf_cons (unicode : Unicode) (piece : Text) (rest : List Text) :
    partsOf unicode (piece :: rest) = (if strip unicode piece = [] then [] else [strip unicode piece]) ++ partsOf unicode rest := by
  simp only [partsOf,map_cons,filter_cons,decide_not,Bool.not_eq_true',decide_eq_false_iff_not]
  split_ifs <;> rfl

theorem pending_run {maxChars : Nat} : ∀ (pieces read : List Text) (r : Reading), (∀ part ∈ partsOf unicode.toUnicode pieces, Part unicode.toUnicode part) →
    (∀ part ∈ partsOf unicode.toUnicode pieces, part.length ≤ maxChars) → Pending unicode.toUnicode overlapChars read r →
    Pending unicode.toUnicode overlapChars (read ++ partsOf unicode.toUnicode pieces)
      (pieces.foldl (readPart unicode.toUnicode maxChars overlapChars) r) := by
  intro pieces
  induction pieces with
  | nil =>
    intro read r _ _ pending
    rw [show partsOf unicode.toUnicode [] = [] from rfl,append_nil]
    exact pending
  | cons piece rest ih =>
    intro read r areParts fit pending
    rw [partsOf_cons] at areParts fit ⊢
    rw [foldl_cons,readPart]
    split_ifs at areParts fit ⊢ with blank
    · exact ih read r areParts fit pending
    · rw [← append_assoc]
      refine ih _ _ (fun part later => areParts part (mem_append_right _ later)) (fun part later => fit part (mem_append_right _ later)) ?_
      exact pending_part (areParts _ mem_cons_self) (fit _ mem_cons_self) (pending_heading pending)

/-- The parts have all of the text but white space, the chunks have every part in order, and none is longer than the
    size and what it repeats. -/
structure Complete (unicode : Unicode) (maxChars overlapChars : Nat) (content : Text) : Prop where
  whole : visible unicode (parts unicode content).flatten = visible unicode content
  covers : Covers overlapChars (parts unicode content) (texts (chunkText unicode maxChars overlapChars content))
  bounded : ∀ chunk ∈ chunkText unicode maxChars overlapChars content, chunk.text.length ≤ maxChars + overlapChars + 2

theorem covers_parts {maxChars : Nat} (fit : ∀ part ∈ parts unicode.toUnicode content, part.length ≤ maxChars) :
    Covers overlapChars (parts unicode.toUnicode content) (texts (chunkText unicode.toUnicode maxChars overlapChars content)) := by
  have begins : Pending unicode.toUnicode overlapChars [] start :=
    ⟨trimmed_nil _,[],[],[],rfl,.none,.inl rfl,rfl,fun _ => rfl,fun _ => rfl⟩
  have run := @pending_run unicode overlapChars maxChars (splitParts unicode.toUnicode false (normalized unicode.toUnicode content)) []
    start (fun _ member => parts_part member) fit begins
  rw [nil_append] at run
  unfold chunkText
  dsimp only
  split_ifs with none current
  · have nothing : parts unicode.toUnicode content = [] := by
      rw [parts,none]
      rfl
    rw [nothing]
    exact .none
  · exact run.emit
  · exact run.done (not_not.mp current)

theorem parts_fit {maxChars : Nat} (complete : Complete unicode.toUnicode maxChars overlapChars content) :
    ∀ part ∈ parts unicode.toUnicode content, part.length ≤ maxChars := by
  intro part member
  obtain ⟨chunk,isChunk,inside⟩ := complete.covers.inside part member
  obtain ⟨stored,isStored,rfl⟩ := mem_map.mp isChunk
  have isPart := parts_part member
  exact chunk_limited maxChars overlapChars content stored isStored part inside isPart.trimmed isPart.solid

end

/-- The chunks of a content lose no text exactly if no part of it is longer than a chunk. -/
theorem chunks_complete_iff (unicode : StableUnicode) (maxChars overlapChars : Nat) (content : Text) :
    Complete unicode.toUnicode maxChars overlapChars content ↔ ∀ part ∈ parts unicode.toUnicode content, part.length ≤ maxChars :=
  ⟨parts_fit,fun fit => ⟨visible_parts _ content,covers_parts fit,chunk_length _ maxChars overlapChars content⟩⟩

variable {t : Text}

theorem splitlines_word (some : t ≠ []) (inside : ∀ c ∈ t, lineEnd c = false) : splitlines t = [t] := by
  induction t with
  | nil => exact absurd rfl some
  | cons c t ih =>
    have first := inside c mem_cons_self
    have other : c ≠ 13 := by
      rintro rfl
      cases first
    have step : splitlines (c :: t) = glue [c] (splitlines t) := by
      rw [splitlines]
      · rw [if_neg (by rw [first]; decide)]
      · exact fun _ isReturn _ => other isReturn
    rw [step]
    cases t with
    | nil => rfl
    | cons d t =>
      rw [ih (cons_ne_nil d t) fun e later => inside e (mem_cons_of_mem c later)]
      rfl

theorem parts_word {unicode : StableUnicode} (some : t ≠ []) (inside : ∀ c ∈ t, lineEnd c = false)
    (visible : ∀ c ∈ t, unicode.space c = false) : parts unicode.toUnicode t = [t] := by
  have trimmed : Trimmed unicode.toUnicode t :=
    ⟨fun c first => visible c (mem_of_mem_head? first),fun c last => visible c (mem_of_mem_getLast? last)⟩
  have right : rstrip unicode.toUnicode t = t := by
    rw [rstrip,dropWhile_head,reverse_reverse]
    intro c first
    exact visible c (mem_reverse.mp (mem_of_mem_head? first))
  have whole : normalized unicode.toUnicode t = t := by
    rw [normalized,strip_trimmed trimmed,splitlines_word some inside]
    exact right
  have piece : ∀ u : Text, (∀ c ∈ u, unicode.space c = false) → splitParts unicode.toUnicode false u = [u] := by
    intro u
    induction u with
    | nil => exact fun _ => rfl
    | cons c u ih =>
      intro visible
      have other : c ≠ 10 := by
        rintro rfl
        have no := visible 10 mem_cons_self
        rw [feed_space] at no
        cases no
      rw [splitParts,if_neg other,ih fun d later => visible d (mem_cons_of_mem c later)]
      rfl
  rw [parts,partsOf,whole,piece t visible,map_singleton,strip_trimmed trimmed]
  simp [some]

def longParagraph : Text := List.replicate 1201 97

theorem text_lost : ¬ Complete stableAscii.toUnicode 1200 120 longParagraph := by
  intro complete
  have isPart : parts stableAscii.toUnicode longParagraph = [longParagraph] := by
    refine parts_word (cons_ne_nil _ _) ?_ ?_
    all_goals
      intro c member
      rw [eq_of_mem_replicate member]
      rfl
  have short := parts_fit complete longParagraph (by rw [isPart]; exact mem_cons_self)
  rw [longParagraph,length_replicate] at short
  exact absurd short (by decide)

end Codebot.TextChunks
