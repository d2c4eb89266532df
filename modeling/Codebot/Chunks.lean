import Codebot.Texts

/-!
Texts that arrive in chunks. What is read between blank lines does not depend on where a text of
line feeds is cut, if a line feed before it does not count (`feed_eq`). A carriage return and the
line feed after it are one line end, but two where the cut is between them (`newlines_chunks`).
-/
namespace Codebot.Chunks
open Texts List

def glue (first : Text) : List Text → List Text
  | [] => [first]
  | part :: rest => (first ++ part) :: rest
/-- `split(/\n\n+/)`, also from within the line feeds of a separator. -/
def splitBlank : Bool → Text → List Text
  | _, [] => [[]]
  | true, c :: t => if c = 10 then splitBlank true t else glue [c] (splitBlank false t)
  | false, [c] => [[c]]
  | false, c :: d :: t => if c = 10 ∧ d = 10 then [] :: splitBlank true t else glue [c] (splitBlank false (d :: t))
theorem glue_ne_nil (first : Text) (parts : List Text) : glue first parts ≠ [] := by
  cases parts <;> exact cons_ne_nil _ _
theorem glue_glue (first second : Text) (parts : List Text) : glue first (glue second parts) = glue (first ++ second) parts := by
  cases parts with
  | nil => rfl
  | cons part rest => rw [glue,glue,glue,append_assoc]

theorem splitBlank_ne_nil : ∀ (after : Bool) (t : Text), splitBlank after t ≠ []
  | _, [] => List.cons_ne_nil _ _
  | true, c :: t => by
    unfold splitBlank
    split
    · exact splitBlank_ne_nil true t
    · exact glue_ne_nil _ _
  | false, [c] => List.cons_ne_nil _ _
  | false, c :: d :: t => by
    unfold splitBlank
    split
    · exact List.cons_ne_nil _ _
    · exact glue_ne_nil _ _

theorem splitBlank_visible {c : Nat} (visible : c ≠ 10) (after : Bool) (t : Text) :
    splitBlank after (c :: t) = glue [c] (splitBlank false t) := by
  cases after with
  | true => rw [splitBlank,if_neg visible]
  | false =>
    cases t with
    | nil => rfl
    | cons d t => rw [splitBlank,if_neg fun both => visible both.1]

variable {line : Text}

theorem splitBlank_line (oneLine : ∀ c ∈ line, c ≠ 10) (t : Text) :
    splitBlank false (line ++ t) = glue line (splitBlank false t) := by
  induction line with
  | nil =>
    cases parts : splitBlank false t with
    | nil => exact absurd parts (splitBlank_ne_nil false t)
    | cons part rest => simp [parts,glue]
  | cons c line ih =>
    rw [cons_append,splitBlank_visible (oneLine c mem_cons_self),ih fun d member => oneLine d (mem_cons_of_mem c member),
      glue_glue]
    rfl

theorem splitBlank_newline {d : Nat} (visible : d ≠ 10) (t : Text) :
    splitBlank false (10 :: d :: t) = glue [10] (splitBlank false (d :: t)) := by
  rw [splitBlank,if_neg fun both => visible both.2]
theorem splitBlank_blank (t : Text) : splitBlank false (10 :: 10 :: t) = [] :: splitBlank true t := by
  rw [splitBlank,if_pos ⟨rfl,rfl⟩]
/-- `parts.at(-1) ?? ""`. -/
def remaining (parts : List Text) : Text := parts.getLastD []

theorem splitBlank_single : ∀ {t part : Text}, splitBlank false t = [part] → part = t
  | [], _, single => (List.singleton_inj.mp single).symm
  | [c], _, single => (List.singleton_inj.mp single).symm
  | c :: d :: t, part, single => by
    unfold splitBlank at single
    split at single
    · exact absurd (List.cons.inj single).2 (splitBlank_ne_nil true t)
    · cases parts : splitBlank false (d :: t) with
      | nil => exact absurd parts (splitBlank_ne_nil false _)
      | cons first rest =>
        rw [parts,glue,List.cons.injEq] at single
        rw [← single.1,splitBlank_single (parts.trans (congrArg (first :: ·) single.2))]
        rfl

variable {parts : List Text}
theorem remaining_cons (part : Text) (more : parts ≠ []) : remaining (part :: parts) = remaining parts := by
  cases parts with
  | nil => exact absurd rfl more
  | cons second rest => rfl
theorem dropLast_cons (part : Text) (more : parts ≠ []) : (part :: parts).dropLast = part :: parts.dropLast := by
  cases parts with
  | nil => exact absurd rfl more
  | cons second rest => rfl
/-- What follows is split together with the last part, or is within its separator. -/
def Continues (after : Bool) (t u : Text) : Prop :=
  ∃ within : Bool, (within = true → remaining (splitBlank after t) = []) ∧
    splitBlank after (t ++ u) = (splitBlank after t).dropLast ++ splitBlank within (remaining (splitBlank after t) ++ u)

variable {t : Text}

theorem continues_visible {c : Nat} {after : Bool} {u : Text} (splits : ∀ v, splitBlank after (c :: (t ++ v)) = glue [c] (splitBlank false (t ++ v)))
    (again : splitBlank false (c :: (t ++ u)) = glue [c] (splitBlank false (t ++ u))) (rest : Continues false t u) : Continues after (c :: t) u := by
  have here : splitBlank after (c :: t) = glue [c] (splitBlank false t) := by simpa using splits []
  obtain ⟨within,empty,continued⟩ := rest
  cases parts : splitBlank false t with
  | nil => exact absurd parts (splitBlank_ne_nil false t)
  | cons part more =>
    cases more with
    | nil =>
      have whole := splitBlank_single parts
      refine ⟨false,Bool.noConfusion,?_⟩
      rw [here,parts,cons_append,splits,whole]
      exact again.symm
    | cons second more =>
      refine ⟨within,?_,?_⟩
      · rw [here,parts]
        rw [parts] at empty
        exact empty
      · rw [cons_append,splits,continued,here,parts]
        rfl

theorem splitBlank_append : ∀ (after : Bool) (t u : Text), Continues after t u
  | after, [], u => ⟨after,fun _ => by cases after <;> rfl,by cases after <;> rfl⟩
  | true, c :: t, u => by
    by_cases newline : c = 10
    · have skipped : ∀ v, splitBlank true (c :: v) = splitBlank true v := fun v => by rw [splitBlank,if_pos newline]
      obtain ⟨within,empty,continued⟩ := splitBlank_append true t u
      refine ⟨within,?_,?_⟩
      · rw [skipped]
        exact empty
      · rw [cons_append,skipped,skipped]
        exact continued
    · exact continues_visible (fun v => splitBlank_visible newline true _) (splitBlank_visible newline false _) (splitBlank_append false t u)
  | false, [c], u => ⟨false,Bool.noConfusion,rfl⟩
  | false, c :: d :: t, u => by
    by_cases blank : c = 10 ∧ d = 10
    · obtain ⟨rfl,rfl⟩ := blank
      obtain ⟨within,empty,continued⟩ := splitBlank_append true t u
      have more := splitBlank_ne_nil true t
      refine ⟨within,?_,?_⟩
      · rw [splitBlank_blank,remaining_cons _ more]
        exact empty
      · rw [cons_append,cons_append,splitBlank_blank,continued,splitBlank_blank,remaining_cons _ more,dropLast_cons _ more]
        rfl
    · have splits : ∀ v, splitBlank false (c :: (d :: t ++ v)) = glue [c] (splitBlank false (d :: t ++ v)) := by
        intro v
        rw [cons_append,splitBlank,if_neg blank]
      exact continues_visible splits (splits u) (splitBlank_append false (d :: t) u)

theorem mem_glue {first part : Text} (member : part ∈ glue first parts) :
    (∃ head ∈ parts.head?, part = first ++ head) ∨ part ∈ parts ∨ (parts = [] ∧ part = first) := by
  cases parts with
  | nil => exact .inr (.inr ⟨rfl,mem_singleton.mp member⟩)
  | cons head rest =>
    rcases mem_cons.mp member with rfl | later
    · exact .inl ⟨head,rfl,rfl⟩
    · exact .inr (.inl (mem_cons_of_mem head later))

theorem mem_glue_splitBlank {c : Nat} {part : Text} (inside : ∀ {part : Text}, part ∈ splitBlank false t → ∀ d ∈ part, d ∈ t)
    (member : part ∈ glue [c] (splitBlank false t)) : ∀ d ∈ part, d ∈ c :: t := by
  rcases mem_glue member with ⟨head,isHead,rfl⟩ | later | ⟨nothing,_⟩
  · intro d inPart
    rcases mem_cons.mp inPart with rfl | inHead
    · exact mem_cons_self
    · exact mem_cons_of_mem c (inside (mem_of_mem_head? isHead) d inHead)
  · exact fun d inPart => mem_cons_of_mem c (inside later d inPart)
  · exact absurd nothing (splitBlank_ne_nil false t)

theorem splitBlank_part : ∀ (after : Bool) (t : Text), ∀ part ∈ splitBlank after t, splitBlank false part = [part]
  | _, [], part, member => by
    rw [splitBlank,List.mem_singleton] at member
    rw [member]
    rfl
  | true, c :: t, part, member => by
    by_cases newline : c = 10
    · rw [splitBlank,if_pos newline] at member
      exact splitBlank_part true t part member
    · rw [splitBlank_visible newline] at member
      rcases mem_glue member with ⟨head,isHead,rfl⟩ | inside | ⟨nothing,_⟩
      · rw [List.cons_append,splitBlank_visible newline]
        exact congrArg (glue [c]) (splitBlank_part false t head (List.mem_of_mem_head? isHead))
      · exact splitBlank_part false t part inside
      · exact absurd nothing (splitBlank_ne_nil false t)
  | false, [c], part, member => by
    rw [splitBlank,List.mem_singleton] at member
    rw [member]
    rfl
  | false, c :: d :: t, part, member => by
    unfold splitBlank at member
    split at member
    · rcases List.mem_cons.mp member with rfl | later
      · rfl
      · exact splitBlank_part true t part later
    · rename_i noBlank
      rcases mem_glue member with ⟨head,isHead,rfl⟩ | inside | ⟨nothing,_⟩
      · have single := splitBlank_part false (d :: t) head (mem_of_mem_head? isHead)
        by_cases newline : c = 10
        · -- the first part begins with the character after the line feed
          have visible : d ≠ 10 := fun same => noBlank ⟨newline,same⟩
          rw [splitBlank_visible visible] at isHead
          obtain ⟨rest,rfl⟩ : ∃ rest, head = d :: rest := by
            cases parts : splitBlank false t with
            | nil => exact absurd parts (splitBlank_ne_nil false t)
            | cons first more =>
              rw [parts] at isHead
              exact ⟨first,(Option.some.inj isHead).symm⟩
          rw [newline,cons_append,nil_append,splitBlank_newline visible,single]
          rfl
        · rw [cons_append,splitBlank_visible newline]
          exact congrArg (glue [c]) single
      · exact splitBlank_part false (d :: t) part inside
      · exact absurd nothing (splitBlank_ne_nil false _)

theorem mem_splitBlank : ∀ {after : Bool} {t part : Text}, part ∈ splitBlank after t → ∀ c ∈ part, c ∈ t
  | _, [], part, member => by
    rw [splitBlank,List.mem_singleton] at member
    exact fun c inPart => member ▸ inPart
  | true, c :: t, part, member => by
    by_cases newline : c = 10
    · rw [splitBlank,if_pos newline] at member
      exact fun d inPart => List.mem_cons_of_mem c (mem_splitBlank member d inPart)
    · rw [splitBlank_visible newline] at member
      exact mem_glue_splitBlank (fun inside => mem_splitBlank inside) member
  | false, [c], part, member => by
    rw [splitBlank,List.mem_singleton] at member
    exact fun d inPart => member ▸ inPart
  | false, c :: d :: t, part, member => by
    unfold splitBlank at member
    split at member
    · rcases List.mem_cons.mp member with rfl | later
      · exact fun _ inPart => absurd inPart List.not_mem_nil
      · exact fun e inPart => List.mem_cons_of_mem c (List.mem_cons_of_mem d (mem_splitBlank later e inPart))
    · exact mem_glue_splitBlank (fun inside => mem_splitBlank inside) member

section
variable {Item : Type} {read : Text → List Item}

def readAll (read : Text → List Item) (t : Text) : List Item := (splitBlank false t).flatMap read
/-- One more chunk: the complete parts are read, the last one is kept. -/
def feed (read : Text → List Item) (state : Text × List Item) (chunk : Text) : Text × List Item :=
  let parts := splitBlank false (state.1 ++ chunk)
  (remaining parts,state.2 ++ parts.dropLast.flatMap read)
def feedAll (read : Text → List Item) (chunks : List Text) : List Item :=
  let state := chunks.foldl (feed read) ([],[])
  state.2 ++ read state.1
/-- In a part that is empty there is nothing, and a line feed before a part does not count. -/
structure Skips (read : Text → List Item) : Prop where
  empty : read [] = []
  newline : ∀ t, read (10 :: t) = read t

variable (skips : Skips read)
include skips

theorem readAll_within : ∀ t, (splitBlank true t).flatMap read = readAll read t
  | [] => rfl
  | c :: t => by
    by_cases newline : c = 10
    · subst newline
      rw [splitBlank,if_pos rfl,readAll]
      cases t with
      | nil => simp [splitBlank,skips.newline]
      | cons d t =>
        by_cases blank : d = 10
        · subst blank
          rw [splitBlank,if_pos rfl,splitBlank_blank,List.flatMap_cons,skips.empty,List.nil_append]
        · rw [splitBlank_newline blank,splitBlank_visible blank,splitBlank_visible blank,glue_glue]
          cases parts : splitBlank false t with
          | nil => exact absurd parts (splitBlank_ne_nil false t)
          | cons part rest =>
            simp only [glue,List.flatMap_cons,List.cons_append,List.nil_append,skips.newline]
    · rw [splitBlank_visible newline,readAll,splitBlank_visible newline]

theorem readAll_append (t u : Text) :
    readAll read (t ++ u) = (splitBlank false t).dropLast.flatMap read ++ readAll read (remaining (splitBlank false t) ++ u) := by
  obtain ⟨within,empty,continued⟩ := splitBlank_append false t u
  rw [readAll,continued,flatMap_append]
  cases within with
  | false => rfl
  | true => rw [empty rfl,nil_append,readAll_within skips]
theorem readAll_newline (t : Text) : readAll read (10 :: t) = readAll read t := by
  rw [← readAll_within skips,← readAll_within skips,splitBlank,if_pos rfl]
def Block (t : Text) : Prop := ∀ u, splitBlank false (t ++ u) = glue t (splitBlank false u)

omit skips in
theorem block_line {line : Text} (oneLine : ∀ c ∈ line, c ≠ 10) : Block line := splitBlank_line oneLine

omit skips in
theorem block_lines {first second : Text} {d : Nat} (isFirst : Block first) (visible : d ≠ 10) (isSecond : Block (d :: second)) :
    Block (first ++ 10 :: d :: second) := by
  intro u
  rw [append_assoc,isFirst,cons_append,cons_append,splitBlank_newline visible,← cons_append,isSecond,glue_glue,glue_glue,append_assoc]
  rfl

theorem readAll_block {block : Text} (isBlock : Block block) (t : Text) : readAll read (block ++ 10 :: 10 :: t) = read block ++ readAll read t := by
  rw [readAll,isBlock,splitBlank_blank,glue,flatMap_cons,append_nil,readAll_within skips]
theorem feed_step (state : Text × List Item) (chunk rest : Text) :
    (feed read state chunk).2 ++ readAll read ((feed read state chunk).1 ++ rest) = state.2 ++ readAll read (state.1 ++ (chunk ++ rest)) := by
  rw [feed,append_assoc,← readAll_append skips,append_assoc]
theorem feed_run (chunks : List Text) (state : Text × List Item) (rest : Text) :
    (chunks.foldl (feed read) state).2 ++ readAll read ((chunks.foldl (feed read) state).1 ++ rest) =
      state.2 ++ readAll read (state.1 ++ (chunks.flatten ++ rest)) := by
  induction chunks generalizing state with
  | nil => rfl
  | cons chunk chunks ih => rw [foldl_cons,ih,feed_step skips,flatten_cons,append_assoc]

omit skips in
theorem remaining_mem (t : Text) : remaining (splitBlank false t) ∈ splitBlank false t := by
  cases parts : splitBlank false t with
  | nil => exact absurd parts (splitBlank_ne_nil false t)
  | cons part rest =>
    rw [remaining,getLastD_cons]
    exact getLastD_mem_cons

omit skips in
theorem kept_part (chunks : List Text) {state : Text × List Item} (part : splitBlank false state.1 = [state.1]) :
    splitBlank false (chunks.foldl (feed read) state).1 = [(chunks.foldl (feed read) state).1] := by
  induction chunks generalizing state with
  | nil => exact part
  | cons chunk chunks ih => exact ih (splitBlank_part false _ _ (remaining_mem _))

/-- Where the text is cut does not matter. -/
theorem feed_eq (chunks : List Text) : feedAll read chunks = readAll read chunks.flatten := by
  have run := feed_run skips chunks ([],[]) []
  rw [append_nil,append_nil,nil_append,nil_append] at run
  rw [← run,feedAll]
  refine congrArg (_ ++ ·) ?_
  rw [readAll,kept_part chunks rfl,flatMap_singleton]

end

theorem newlines_visible {c : Nat} (visible : c ≠ 13) (t : Text) : universalNewlines (c :: t) = c :: universalNewlines t := by
  rw [universalNewlines]
  · exact fun _ same _ => visible same
  · exact visible
theorem universalNewlines_append (noReturn : 13 ∉ t) (u : Text) : universalNewlines (t ++ u) = t ++ universalNewlines u := by
  induction t with
  | nil => rfl
  | cons c t ih =>
    have visible : c ≠ 13 := fun same => noReturn (same ▸ mem_cons_self)
    rw [cons_append,newlines_visible visible,ih fun member => noReturn (mem_cons_of_mem c member)]
    rfl
def ends (position : Nat) : List Text → List Nat
  | [] => []
  | chunk :: rest => (position + chunk.length) :: ends (position + chunk.length) rest
/-- The line ends as line feeds, two for a carriage return and a line feed with a cut in between. -/
def cutLines (cut : Nat → Bool) : Nat → Text → Text
  | _, [] => []
  | position, 13 :: 10 :: t =>
    if cut (position + 1) then 10 :: 10 :: cutLines cut (position + 2) t else 10 :: cutLines cut (position + 2) t
  | position, 13 :: t => 10 :: cutLines cut (position + 1) t
  | position, c :: t => c :: cutLines cut (position + 1) t

variable {cut : Nat → Bool}
theorem cutLines_visible {c : Nat} (visible : c ≠ 13) (position : Nat) (t : Text) :
    cutLines cut position (c :: t) = c :: cutLines cut (position + 1) t := by
  rw [cutLines]
  · exact fun _ same _ => visible same
  · exact visible

theorem cutLines_return (alone : t.head? ≠ some 10) (position : Nat) :
    cutLines cut position (13 :: t) = 10 :: cutLines cut (position + 1) t := by
  cases t with
  | nil => rfl
  | cons c t =>
    rw [cutLines]
    rintro rest same
    cases same
    exact alone rfl

theorem cutLines_line (noReturn : 13 ∉ line) (position : Nat) (t : Text) :
    cutLines cut position (line ++ t) = line ++ cutLines cut (position + line.length) t := by
  induction line generalizing position with
  | nil => rfl
  | cons c line ih =>
    have visible : c ≠ 13 := fun same => noReturn (same ▸ mem_cons_self)
    rw [cons_append,cutLines_visible visible,ih fun member => noReturn (mem_cons_of_mem c member),length_cons,
      Nat.add_right_comm,Nat.add_assoc]
    rfl

theorem head_alone (alone : ∀ rest, t = 10 :: rest → False) : t.head? ≠ some 10 := by
  cases t with
  | nil => nofun
  | cons c t =>
    intro same
    cases same
    exact alone t rfl

theorem cutLines_congr {other : Nat → Bool} {position : Nat} (t : Text) (same : ∀ p, position < p → cut p = other p) :
    cutLines cut position t = cutLines other position t := by
  fun_induction cutLines cut position t with
  | case1 => rfl
  | case2 position t isCut ih =>
    rw [cutLines,← same (position + 1) (Nat.lt_succ_self position),if_pos isCut,ih fun p later => same p (Nat.lt_of_add_right_lt later)]
  | case3 position t notCut ih =>
    rw [cutLines,← same (position + 1) (Nat.lt_succ_self position),if_neg notCut,ih fun p later => same p (Nat.lt_of_add_right_lt later)]
  | case4 position t alone ih => rw [cutLines_return (head_alone alone),ih fun p later => same p (Nat.lt_of_add_right_lt later)]
  | case5 position c t _ visible ih => rw [cutLines_visible visible,ih fun p later => same p (Nat.lt_of_add_right_lt later)]

theorem cutLines_append {position : Nat} (whole : ∀ p, position < p → p < position + t.length → cut p = false)
    (isEnd : t ≠ [] → cut (position + t.length)) (u : Text) :
    cutLines cut position (t ++ u) = universalNewlines t ++ cutLines cut (position + t.length) u := by
  fun_induction universalNewlines t generalizing position with
  | case1 => rfl
  | case2 t ih =>
    have inside : cut (position + 1) = false := whole _ (Nat.lt_succ_self position) (by simp)
    have length : position + (13 :: 10 :: t).length = position + 2 + t.length := by simp only [length_cons]; omega
    rw [length] at whole isEnd ⊢
    rw [cons_append,cons_append,cutLines,if_neg (by rw [inside]; exact Bool.false_ne_true),
      ih (fun p low => whole p (by omega)) fun _ => isEnd (cons_ne_nil _ _)]
    rfl
  | case3 t alone ih =>
    have length : position + (13 :: t).length = position + 1 + t.length := by simp only [length_cons]; omega
    rw [length] at whole isEnd ⊢
    have rest := ih (fun p low => whole p (by omega)) fun _ => isEnd (cons_ne_nil _ _)
    by_cases feed : (t ++ u).head? = some 10
    · -- the line feed is the first character after the chunk, which ends with the carriage return
      cases t with
      | nil =>
        cases u with
        | nil => cases feed
        | cons d u =>
          cases feed
          have atEnd : cut (position + 1) := isEnd (cons_ne_nil _ _)
          rw [cons_append,nil_append,cutLines,if_pos atEnd,universalNewlines,length_nil,Nat.add_zero,
            cutLines_visible (by decide)]
          rfl
      | cons d t =>
        cases feed
        exact (alone t rfl).elim
    · rw [cons_append,cutLines_return feed,rest]
      rfl
  | case4 c t _ visible ih =>
    have length : position + (c :: t).length = position + 1 + t.length := by simp only [length_cons]; omega
    rw [length] at whole isEnd ⊢
    rw [cons_append,cutLines_visible visible,ih (fun p low => whole p (by omega)) fun _ => isEnd (cons_ne_nil _ _)]
    rfl

theorem ends_after {position p : Nat} {chunks : List Text} (member : p ∈ ends position chunks) : position ≤ p := by
  induction chunks generalizing position with
  | nil => cases member
  | cons chunk rest ih =>
    rcases mem_cons.mp member with rfl | later
    · exact Nat.le_add_right _ _
    · exact Nat.le_trans (Nat.le_add_right _ _) (ih later)
theorem cutLines_whole (position : Nat) (t : Text) : cutLines (fun _ => false) position t = universalNewlines t := by
  fun_induction universalNewlines t generalizing position with
  | case1 => rfl
  | case2 t ih => rw [cutLines,if_neg Bool.false_ne_true,ih]
  | case3 t alone ih => rw [cutLines_return (head_alone alone),ih]
  | case4 c t _ visible ih => rw [cutLines_visible visible,ih]

/-- The line ends of each chunk are those of the whole text, with its cuts. -/
theorem newlines_chunks (position : Nat) (chunks : List Text) :
    chunks.flatMap universalNewlines = cutLines (fun p => decide (p ∈ ends position chunks)) position chunks.flatten := by
  induction chunks generalizing position with
  | nil => rfl
  | cons chunk rest ih =>
    rw [flatMap_cons,flatten_cons,ih (position + chunk.length),cutLines_append]
    · refine congrArg (_ ++ ·) (cutLines_congr _ ?_)
      intro p later
      have differs : p ≠ position + chunk.length := Nat.ne_of_gt later
      simp only [ends,mem_cons,differs,false_or]
    · intro p low high
      simp only [ends,mem_cons,decide_eq_false_iff_not,not_or]
      exact ⟨Nat.ne_of_lt high,fun later => absurd (ends_after later) (Nat.not_le_of_lt high)⟩
    · intro _
      simp only [ends,mem_cons,true_or,decide_true]

end Codebot.Chunks
