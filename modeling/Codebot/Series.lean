import Mathlib.Data.List.Sort
import Mathlib.Data.List.Perm.Basic
import Mathlib.Data.List.DropRight

/-!
Series: items with a time, in ascending order and one for each time. A series is
made of any items by keeping the latest for each time (`series`); it is one of
another series where its items are (`series_eq`). Half-open spans of time cover a
series; what they leave out are their gaps (`gaps_cover`).
-/
namespace Codebot.Series
open List
universe u v
variable {Item : Type u} {Time : Type v} [LinearOrder Time] {time : Item → Time}
variable (time) in
def Ascending (items : List Item) : Prop := items.Pairwise fun a b => time a < time b

instance (items : List Item) : Decidable (Ascending time items) :=
  inferInstanceAs (Decidable (items.Pairwise fun a b => time a < time b))

variable (time) in
def within (first last : Time) (items : List Item) : List Item := items.filter fun item => first ≤ time item ∧ time item < last

variable (time) in
def put (items : List Item) (item : Item) : List Item :=
  if time item ∈ items.map time then items.map fun old => if time old = time item then item else old
  else items ++ [item]

variable (time) in
def ordered (items : List Item) : List Item := items.insertionSort fun a b => time a ≤ time b

variable (time) in
/-- The latest of the items for each time, ascending. -/
def series (items : List Item) : List Item := ordered time (items.foldl (put time) [])

variable {items : List Item}
variable {first : Time} {item : Item} {last : Time}
theorem mem_within : item ∈ within time first last items ↔ item ∈ items ∧ first ≤ time item ∧ time item < last := by
  simp [within]
theorem within_cons (inside : first ≤ time item ∧ time item < last) :
    within time first last (item :: items) = item :: within time first last items :=
  filter_cons_of_pos (decide_eq_true inside)
theorem mem_ordered {item : Item} : item ∈ ordered time items ↔ item ∈ items :=
  mem_insertionSort _

theorem ordered_append {last : Item} (latest : ∀ item ∈ items, time item ≤ time last) :
    ordered time (items ++ [last]) = ordered time items ++ [last] := by
  have inserted : ∀ (first : Item) (rest : List Item), time first ≤ time last →
      (rest ++ [last]).orderedInsert (fun a b => time a ≤ time b) first =
        rest.orderedInsert (fun a b => time a ≤ time b) first ++ [last] := by
    intro first rest before
    induction rest with
    | nil => simp [before]
    | cons next rest ih =>
      by_cases here : time first ≤ time next
      · simp [here]
      · simp [here,ih]
  induction items with
  | nil => rfl
  | cons first rest ih =>
    obtain ⟨here,later⟩ := forall_mem_cons.mp latest
    have step := inserted first (ordered time rest) here
    rw [← ih later] at step
    exact step

theorem Ascending.filter (ascending : Ascending time items) (p : Item → Bool) :
    Ascending time (items.filter p) := List.Pairwise.filter p ascending
theorem Ascending.times (ascending : Ascending time items) : (items.map time).Nodup := by
  rw [List.Nodup,pairwise_map]
  exact ascending.imp fun earlier => earlier.ne

variable {others : List Item}
theorem Ascending.ext (ascending : Ascending time items) (also : Ascending time others)
    (same : ∀ item, item ∈ items ↔ item ∈ others) : items = others := by
  have perm : items.Perm others :=
    (perm_ext_iff_of_nodup ascending.times.of_map also.times.of_map).mpr same
  refine List.Perm.eq_of_pairwise ?_ ascending also perm
  intro a b _ _ earlier later
  exact absurd (earlier.trans later) (lt_irrefl _)
theorem Ascending.injective (ascending : Ascending time items) {a b : Item} (isA : a ∈ items)
    (isB : b ∈ items) (same : time a = time b) : a = b :=
  inj_on_of_nodup_map ascending.times isA isB same
theorem ordered_sorted : (ordered time items).Pairwise fun a b => time a ≤ time b := by
  have : Std.Total fun a b : Item => time a ≤ time b := ⟨fun a b => le_total _ _⟩
  have : IsTrans Item fun a b => time a ≤ time b := ⟨fun a b c => le_trans⟩
  exact pairwise_insertionSort _ items
theorem ordered_ascending (distinct : (items.map time).Nodup) : Ascending time (ordered time items) := by
  have nodup : ((ordered time items).map time).Nodup := ((perm_insertionSort _ items).map time).nodup_iff.mpr distinct
  rw [List.Nodup,pairwise_map] at nodup
  exact (ordered_sorted.and nodup).imp fun both => lt_of_le_of_ne both.1 both.2

theorem put_members (injective : ∀ old ∈ items, time old = time item → old = item) :
    (∀ other, other ∈ put time items item ↔ other ∈ items ∨ other = item) ∧
      ((items.map time).Nodup → ((put time items item).map time).Nodup) := by
  unfold put
  by_cases known : time item ∈ items.map time
  · rw [if_pos known]
    obtain ⟨old,isOld,same⟩ := mem_map.mp known
    have isItem := injective old isOld same
    subst isItem
    have unchanged : (items.map fun other => if time other = time old then old else other) = items := by
      refine (map_congr_left ?_).trans (map_id items)
      intro other member
      split
      · rename_i same
        exact (injective other member same).symm
      · rfl
    rw [unchanged]
    refine ⟨?_,id⟩
    intro other
    constructor
    · exact .inl
    · rintro (member | rfl)
      · exact member
      · exact isOld
  · rw [if_neg known]
    refine ⟨fun other => by simp,?_⟩
    intro distinct
    rw [map_append]
    refine List.Nodup.append distinct (nodup_singleton _) ?_
    intro t member isItem
    rw [map_singleton,mem_singleton] at isItem
    exact known (isItem ▸ member)

theorem mem_series (member : item ∈ series time items) : item ∈ items := by
  have kept : ∀ (rest done : List Item), item ∈ rest.foldl (put time) done → item ∈ done ∨ item ∈ rest := by
    intro rest
    induction rest with
    | nil => exact fun done => .inl
    | cons next rest ih =>
      intro done isIn
      rcases ih (put time done next) isIn with before | later
      · rw [put] at before
        split at before
        · obtain ⟨old,isOld,same⟩ := mem_map.mp before
          split at same
          · exact .inr (same ▸ mem_cons_self)
          · exact .inl (same ▸ isOld)
        · rcases mem_append.mp before with old | isNext
          · exact .inl old
          · exact .inr (mem_singleton.mp isNext ▸ mem_cons_self)
      · exact .inr (mem_cons_of_mem _ later)
  rcases kept items [] (mem_ordered.mp member) with none | isItem
  · cases none
  · exact isItem

theorem series_some (some : items ≠ []) : series time items ≠ [] := by
  have kept : ∀ (rest done : List Item), done ≠ [] → rest.foldl (put time) done ≠ [] := by
    intro rest
    induction rest with
    | nil => exact fun done has => has
    | cons next rest ih =>
      intro done has
      apply ih
      rw [put]
      split
      · exact fun none => has (map_eq_nil_iff.mp none)
      · exact append_ne_nil_of_left_ne_nil has _
  obtain ⟨first,rest,rfl⟩ := exists_cons_of_ne_nil some
  intro none
  have isEmpty : (first :: rest).foldl (put time) [] = [] := by
    refine eq_nil_iff_forall_not_mem.mpr ?_
    intro item member
    have inSeries : item ∈ series time (first :: rest) := mem_ordered.mpr member
    rw [none] at inSeries
    cases inSeries
  exact kept rest [first] (cons_ne_nil _ _) isEmpty

theorem series_among {history : List Item} (ascending : Ascending time history) (among : ∀ item ∈ items, item ∈ history) :
    (∀ item, item ∈ series time items ↔ item ∈ items) ∧ Ascending time (series time items) := by
  have kept : ∀ (rest done : List Item), (∀ item ∈ rest, item ∈ history) → (∀ item ∈ done, item ∈ history) →
      (done.map time).Nodup → (∀ item, item ∈ rest.foldl (put time) done ↔ item ∈ done ∨ item ∈ rest) ∧
        ((rest.foldl (put time) done).map time).Nodup := by
    intro rest
    induction rest with
    | nil => exact fun done _ _ distinct => ⟨fun item => by simp,distinct⟩
    | cons next rest ih =>
      intro done isRest isDone distinct
      obtain ⟨members,stays⟩ := put_members fun old isOld =>
        ascending.injective (isDone old isOld) (isRest next mem_cons_self)
      have known : ∀ item ∈ put time done next, item ∈ history := by
        intro item member
        rcases (members item).mp member with old | rfl
        · exact isDone item old
        · exact isRest _ mem_cons_self
      obtain ⟨all,nodup⟩ := ih (put time done next) (fun item member => isRest item (mem_cons_of_mem _ member)) known
        (stays distinct)
      refine ⟨?_,nodup⟩
      intro item
      rw [foldl_cons,all,members,mem_cons,or_assoc]
  obtain ⟨members,distinct⟩ := kept items [] among (forall_mem_nil _) nodup_nil
  refine ⟨?_,ordered_ascending distinct⟩
  intro item
  rw [series,mem_ordered,members]
  simp

variable {history : List Item}
/-- The series of items that are those of a series. -/
theorem series_eq (ascending : Ascending time history)
    (same : ∀ item, item ∈ items ↔ item ∈ history) : series time items = history := by
  obtain ⟨members,ascends⟩ := series_among ascending fun item => (same item).mp
  exact ascends.ext ascending fun item => (members item).trans (same item)

theorem within_take (ascending : Ascending time items)
    (later : ∀ item ∈ items, first ≤ time item) {n : Nat} (enough : (within time first last items).length ≤ n) :
    within time first last (items.take n) = within time first last items := by
  induction items generalizing n with
  | nil => rw [take_nil]
  | cons item rest ih =>
    obtain ⟨earliest,ascends⟩ := pairwise_cons.mp ascending
    by_cases inside : time item < last
    · have isIn := And.intro (later item mem_cons_self) inside
      rw [within_cons isIn,length_cons] at enough
      obtain ⟨m,rfl⟩ := Nat.exists_eq_succ_of_ne_zero (Nat.ne_of_gt (Nat.lt_of_lt_of_le (Nat.succ_pos _) enough))
      rw [take_succ_cons,within_cons isIn,within_cons isIn]
      exact congrArg (item :: ·)
        (ih ascends (fun other member => later other (mem_cons_of_mem _ member)) (Nat.le_of_succ_le_succ enough))
    · have nothing : ∀ items' : List Item, (∀ other ∈ items', other ∈ item :: rest) → within time first last items' = [] := by
        intro items' sub
        refine filter_eq_nil_iff.mpr ?_
        intro other member
        simp only [decide_eq_true_eq,not_and,not_lt]
        intro _
        rcases mem_cons.mp (sub other member) with rfl | isRest
        · exact not_lt.mp inside
        · exact (not_lt.mp inside).trans (earliest other isRest).le
      rw [nothing _ fun other => id,nothing _ fun other member => mem_of_mem_take member]

/-- From a time on and before another. -/
structure Span (Time : Type v) where
  first : Time
  last : Time
deriving DecidableEq
def Span.Has (span : Span Time) (t : Time) : Prop := span.first ≤ t ∧ t < span.last
/-- What the spans, one after the other, leave out from a time on and before another. -/
def gaps (last : Time) : Time → List (Span Time) → List (Span Time)
  | cursor, [] => if cursor < last then [⟨cursor,last⟩] else []
  | cursor, span :: rest =>
    (if cursor < span.first then [⟨cursor,span.first⟩] else []) ++ gaps last (max cursor span.last) rest

theorem gaps_cover {last t : Time} {spans : List (Span Time)} {cursor : Time} (started : cursor ≤ t) (ends : t < last) :
    (∃ span ∈ spans, span.Has t) ∨ ∃ gap ∈ gaps last cursor spans, gap.Has t := by
  induction spans generalizing cursor with
  | nil =>
    refine .inr ⟨⟨cursor,last⟩,?_,started,ends⟩
    rw [gaps,if_pos (started.trans_lt ends)]
    exact mem_singleton_self _
  | cons span rest ih =>
    by_cases before : t < span.first
    · refine .inr ⟨⟨cursor,span.first⟩,mem_append_left _ ?_,started,before⟩
      rw [if_pos (started.trans_lt before)]
      exact mem_singleton_self _
    · by_cases inside : t < span.last
      · exact .inl ⟨span,mem_cons_self,not_lt.mp before,inside⟩
      · rcases ih (max_le started (not_lt.mp inside)) with ⟨other,member,has⟩ | ⟨gap,member,has⟩
        · exact .inl ⟨other,mem_cons_of_mem _ member,has⟩
        · exact .inr ⟨gap,mem_append_right _ member,has⟩

theorem gaps_between {spans : List (Span Time)} (inside : ∀ span ∈ spans, span.first ≤ last)
    {cursor : Time} (started : first ≤ cursor) :
    ∀ gap ∈ gaps last cursor spans, first ≤ gap.first ∧ gap.first < gap.last ∧ gap.last ≤ last := by
  induction spans generalizing cursor with
  | nil =>
    intro gap member
    rw [gaps] at member
    split at member
    · rename_i before
      rw [mem_singleton.mp member]
      exact ⟨started,before,le_refl _⟩
    · cases member
  | cons span rest ih =>
    intro gap member
    rcases mem_append.mp member with here | later
    · split at here
      · rename_i before
        rw [mem_singleton.mp here]
        exact ⟨started,before,inside span mem_cons_self⟩
      · cases here
    · exact ih (fun other member => inside other (mem_cons_of_mem _ member)) (started.trans (le_max_left _ _)) gap later

theorem put_known (known : time item ∈ items.map time) :
    put time items item = items.map fun old => if time old = time item then item else old := if_pos known
theorem put_fresh (fresh : time item ∉ items.map time) :
    put time items item = items ++ [item] := if_neg fresh

theorem put_perm (perm : items.Perm others) (item : Item) : (put time items item).Perm (put time others item) := by
  have same := (perm.map time).mem_iff (a := time item)
  by_cases known : time item ∈ items.map time
  · rw [put_known known,put_known (same.mp known)]
    exact perm.map _
  · rw [put_fresh known,put_fresh (fun listed => known (same.mpr listed))]
    exact perm.append_right _

theorem times_put (known : time item ∈ items.map time) : (put time items item).map time = items.map time := by
  rw [put_known known,map_map]
  apply map_congr_left
  intro old _
  by_cases same : time old = time item
  · simp [same]
  · simp [same]

theorem mem_put_iff {other : Item} :
    other ∈ put time items item ↔ other = item ∨ other ∈ items ∧ time other ≠ time item := by
  by_cases known : time item ∈ items.map time
  · obtain ⟨replaced,isReplaced,same⟩ := mem_map.mp known
    rw [put_known known,mem_map]
    constructor
    · rintro ⟨old,isOld,rfl⟩
      by_cases same : time old = time item
      · exact .inl (if_pos same)
      · rw [if_neg same]
        exact .inr ⟨isOld,same⟩
    · rintro (rfl | ⟨isOther,differs⟩)
      · exact ⟨replaced,isReplaced,if_pos same⟩
      · exact ⟨other,isOther,if_neg differs⟩
  · rw [put_fresh known,mem_append,mem_singleton]
    constructor
    · rintro (isOther | isItem)
      · exact .inr ⟨isOther,fun same => known (mem_map.mpr ⟨other,isOther,same⟩)⟩
      · exact .inl isItem
    · rintro (isItem | ⟨isOther,_⟩)
      · exact .inr isItem
      · exact .inl isOther

theorem nodup_put (distinct : (items.map time).Nodup) (item : Item) : ((put time items item).map time).Nodup := by
  by_cases known : time item ∈ items.map time
  · rwa [times_put known]
  · rw [put_fresh known,map_append]
    exact List.Nodup.append distinct (nodup_singleton _) (by simpa using known)

variable {news : List Item}
theorem mem_foldl_put (listed : item ∈ items)
    (others : ∀ other ∈ news, time other ≠ time item) : item ∈ news.foldl (put time) items := by
  induction news generalizing items with
  | nil => exact listed
  | cons first rest ih =>
    obtain ⟨here,later⟩ := forall_mem_cons.mp others
    exact ih (mem_put_iff.mpr (.inr ⟨listed,here.symm⟩)) later

theorem mem_foldl_put_known (known : ∀ a ∈ history, ∀ b ∈ history, time a = time b → a = b)
    (among : ∀ item ∈ items, item ∈ history) (alsoAmong : ∀ item ∈ news, item ∈ history) :
    item ∈ news.foldl (put time) items ↔ item ∈ items ∨ item ∈ news := by
  induction news generalizing items with
  | nil => simp
  | cons first rest ih =>
    obtain ⟨isFirst,later⟩ := forall_mem_cons.mp alsoAmong
    have members := (put_members fun old isOld same => known old (among old isOld) first isFirst same).1
    have stillAmong : ∀ item ∈ put time items first, item ∈ history := by
      intro item member
      rcases (members item).mp member with isItem | rfl
      · exact among item isItem
      · exact isFirst
    rw [foldl_cons,ih stillAmong later,members item,mem_cons,or_assoc]

theorem nodup_foldl_put (distinct : (items.map time).Nodup) (news : List Item) :
    ((news.foldl (put time) items).map time).Nodup := by
  induction news generalizing items with
  | nil => exact distinct
  | cons first rest ih => exact ih (nodup_put distinct first)

theorem of_mem_foldl_put (listed : item ∈ news.foldl (put time) items) : item ∈ items ∨ item ∈ news := by
  induction news generalizing items with
  | nil => exact .inl listed
  | cons first rest ih =>
    rcases ih listed with before | later
    · rcases mem_put_iff.mp before with isFirst | ⟨isItem,_⟩
      · exact .inr (isFirst ▸ mem_cons_self)
      · exact .inl isItem
    · exact .inr (mem_cons_of_mem _ later)

theorem mem_foldl_put_distinct (distinct : (news.map time).Nodup) :
    item ∈ news.foldl (put time) items ↔ item ∈ news ∨ item ∈ items ∧ time item ∉ news.map time := by
  induction news generalizing items with
  | nil => simp
  | cons first rest ih =>
    rw [map_cons,nodup_cons] at distinct
    rw [foldl_cons,ih distinct.2,mem_put_iff,mem_cons,map_cons,mem_cons,not_or]
    constructor
    · rintro (later | ⟨isFirst | ⟨before,differs⟩,none⟩)
      · exact .inl (.inr later)
      · exact .inl (.inl isFirst)
      · exact .inr ⟨before,differs,none⟩
    · rintro ((isFirst | later) | ⟨before,differs,none⟩)
      · exact .inr ⟨.inl isFirst,isFirst ▸ distinct.1⟩
      · exact .inl later
      · exact .inr ⟨.inr ⟨before,differs⟩,none⟩

theorem series_times {item : Item} (member : item ∈ items) : ∃ other ∈ series time items, time other = time item := by
  have kept : ∀ (rest done : List Item), time item ∈ done.map time ∨ item ∈ rest →
      time item ∈ (rest.foldl (put time) done).map time := by
    intro rest
    induction rest with
    | nil => exact fun done known => known.resolve_right (not_mem_nil)
    | cons next rest ih =>
      intro done known
      apply ih
      by_cases same : time next = time item
      · exact .inl (same ▸ mem_map_of_mem (mem_put_iff.mpr (.inl rfl)))
      · rcases known with before | isIn
        · obtain ⟨old,isOld,isTime⟩ := mem_map.mp before
          refine .inl (isTime ▸ mem_map_of_mem (mem_put_iff.mpr (.inr ⟨isOld,?_⟩)))
          exact fun isNext => same (isNext.symm.trans isTime)
        · rcases mem_cons.mp isIn with rfl | later
          · exact absurd rfl same
          · exact .inr later
  obtain ⟨other,isOther,same⟩ := mem_map.mp (kept items [] (.inr member))
  exact ⟨other,mem_ordered.mpr isOther,same⟩

theorem series_bounds {first last : Item} (isFirst : (series time items).head? = some first)
    (isLast : (series time items).getLast? = some last) (member : item ∈ items) :
    time first ≤ time item ∧ time item ≤ time last := by
  have distinct : ((items.foldl (put time) []).map time).Nodup :=
    nodup_foldl_put (by rw [map_nil]; exact nodup_nil) items
  have ascends : Ascending time (series time items) := ordered_ascending distinct
  obtain ⟨other,isOther,same⟩ := @series_times _ _ _ time items item member
  rw [← same]
  constructor
  · obtain ⟨rest,split⟩ := head?_eq_some_iff.mp isFirst
    rw [split] at ascends isOther
    rcases mem_cons.mp isOther with rfl | later
    · exact le_refl _
    · exact (rel_of_pairwise_cons ascends later).le
  · obtain ⟨before,split⟩ := getLast?_eq_some_iff.mp isLast
    rw [split] at ascends isOther
    rcases mem_append.mp isOther with earlier | isIt
    · exact ((pairwise_append.mp ascends).2.2 other earlier last mem_cons_self).le
    · rw [mem_singleton.mp isIt]

variable {p : Item → Bool}

theorem find_put_other
    (names : ∀ other, p other = true → time other ≠ time item) : (put time items item).find? p = items.find? p := by
  have missed : p item = false := by
    by_contra found
    exact names item (by simpa using found) rfl
  rw [put]
  split
  · rename_i known
    clear known
    induction items with
    | nil => rfl
    | cons first rest ih =>
      rw [map_cons,find?_cons,find?_cons,ih]
      by_cases same : time first = time item
      · have firstMissed : p first = false := by
          by_contra found
          exact names first (by simpa using found) same
        rw [if_pos same,missed,firstMissed]
      · rw [if_neg same]
  · rw [find?_append,find?_singleton,missed]
    simp

theorem find_put_same
    (names : ∀ other, p other = true ↔ time other = time item) : (put time items item).find? p = some item := by
  have found : p item = true := (names item).mpr rfl
  rw [put]
  split
  · rename_i known
    induction items with
    | nil => cases known
    | cons first rest ih =>
      rw [map_cons,find?_cons]
      by_cases same : time first = time item
      · rw [if_pos same,found]
      · have missed : p first = false := by
          by_contra isFirst
          exact same ((names first).mp (by simpa using isFirst))
        rw [if_neg same,missed]
        rw [map_cons,mem_cons] at known
        exact ih (known.resolve_left fun isFirst => same isFirst.symm)
  · rename_i fresh
    have none : items.find? p = Option.none := by
      apply find?_eq_none.mpr
      intro other listed isItem
      exact fresh (mem_map.mpr ⟨other,listed,(names other).mp isItem⟩)
    rw [find?_append,none,find?_singleton,found]
    rfl

/-- The same item stands under two keys that both tell the items apart. -/
theorem put_two_keys {Other : Type*} [LinearOrder Other] {key : Item → Other} {old : Item}
    (distinct : (items.map time).Nodup) (alsoDistinct : (items.map key).Nodup) (isOld : old ∈ items)
    (same : time old = time item) (alsoSame : key old = key item) : put time items item = put key items item := by
  rw [put_known (mem_map.mpr ⟨old,isOld,same⟩),put_known (mem_map.mpr ⟨old,isOld,alsoSame⟩)]
  apply map_congr_left
  intro other isOther
  have both : time other = time item ↔ key other = key item := by
    constructor
    · intro sameTime
      rw [inj_on_of_nodup_map distinct isOther isOld (sameTime.trans same.symm),alsoSame]
    · intro sameKey
      rw [inj_on_of_nodup_map alsoDistinct isOther isOld (sameKey.trans alsoSame.symm),same]
  simp only [both]

theorem foldl_put (known : ∀ item ∈ news, time item ∈ items.map time)
    (distinct : (news.map time).Nodup) : news.foldl (put time) items =
      items.map fun old => (news.find? fun item => decide (time item = time old)).getD old := by
  induction news generalizing items with
  | nil => simp
  | cons item rest ih =>
    obtain ⟨here,later⟩ := forall_mem_cons.mp known
    rw [map_cons,nodup_cons] at distinct
    rw [foldl_cons,ih (fun other listed => by rw [times_put here]; exact later other listed) distinct.2,put_known here,
      map_map]
    apply map_congr_left
    intro old _
    rw [Function.comp_apply,find?_cons]
    by_cases same : time old = time item
    · have none : rest.find? (fun other => decide (time other = time item)) = none := by
        apply find?_eq_none.mpr
        intro other listed found
        exact distinct.1 (mem_map.mpr ⟨other,listed,of_decide_eq_true found⟩)
      rw [if_pos same,none,same,decide_eq_true rfl]
      rfl
    · rw [if_neg same,decide_eq_false fun eq => same eq.symm]

variable (time) in
def EndsOrdered (count : Nat) (items : List Item) : Prop :=
  Ascending time (items.rtake count) ∧ ∀ before ∈ items.rdrop count, ∀ item ∈ items.rtake count, time before < time item
theorem rdrop_rtake (count : Nat) (items : List Item) : items.rdrop count ++ items.rtake count = items :=
  take_append_drop _ items
theorem ordered_perm (distinct : (items.map time).Nodup) (perm : items.Perm others) :
    ordered time items = ordered time others := by
  apply (ordered_ascending distinct).ext (ordered_ascending ((perm.map time).nodup_iff.mp distinct))
  intro item
  rw [mem_ordered,mem_ordered,perm.mem_iff]
theorem ordered_eq_iff (distinct : (items.map time).Nodup) : ordered time items = items ↔ Ascending time items := by
  constructor
  · intro same
    exact same ▸ ordered_ascending distinct
  · intro ascending
    exact (ordered_ascending distinct).ext ascending fun item => mem_ordered

theorem rtake_ordered_iff (distinct : (items.map time).Nodup) (count : Nat) :
    (ordered time items).rtake count = items.rtake count ↔ EndsOrdered time count items := by
  constructor
  · intro same
    have ascending := ordered_ascending distinct
    have perm : ((ordered time items).rdrop count).Perm (items.rdrop count) := by
      have whole : (ordered time items).Perm items := perm_insertionSort _ items
      rw [← rdrop_rtake count (ordered time items),same] at whole
      nth_rewrite 3 [← rdrop_rtake count items] at whole
      exact (perm_append_right_iff _).mp whole
    rw [← rdrop_rtake count (ordered time items),same,Ascending,pairwise_append] at ascending
    exact ⟨ascending.2.1,fun before isBefore => ascending.2.2 before (perm.mem_iff.mpr isBefore)⟩
  · rintro ⟨ascending,after⟩
    have split : ordered time items = ordered time (items.rdrop count) ++ items.rtake count := by
      apply (ordered_ascending distinct).ext
      · rw [Ascending,pairwise_append]
        refine ⟨ordered_ascending ?_,ascending,fun before isBefore => after before (mem_ordered.mp isBefore)⟩
        exact distinct.sublist ((take_sublist _ items).map time)
      · intro item
        rw [mem_ordered,mem_append,mem_ordered,← mem_append,rdrop_rtake]
    have length : (ordered time (items.rdrop count)).length = items.length - count := by
      rw [ordered,length_insertionSort,List.rdrop,length_take]
      omega
    have all : (ordered time items).length = items.length := length_insertionSort _ items
    rw [List.rtake,all,split,← length,drop_left]

theorem Ascending.nodup (ascending : Ascending time items) : items.Nodup := ascending.times.of_map

variable {count : Nat}

theorem mem_rtake_iff (ascending : Ascending time items) :
    item ∈ items.rtake count ↔ item ∈ items ∧ (items.filter fun other => time item < time other).length < count := by
  induction items with
  | nil => simp [List.rtake]
  | cons first rest ih =>
    obtain ⟨later,ascendingRest⟩ := pairwise_cons.mp ascending
    have first_later : (rest.filter fun other => time first < time other) = rest :=
      filter_eq_self.mpr fun other member => decide_eq_true (later other member)
    have few : (rest.filter fun other => time item < time other).length ≤ rest.length := length_filter_le _ _
    by_cases enough : count ≤ rest.length
    · have cut : (first :: rest).rtake count = rest.rtake count := by
        rw [List.rtake,List.rtake,length_cons,Nat.succ_sub enough,drop_succ_cons]
      rw [cut,ih ascendingRest,mem_cons]
      constructor
      · rintro ⟨member,counted⟩
        rw [filter_cons_of_neg (by simpa using le_of_lt (later item member))]
        exact ⟨.inr member,counted⟩
      · rintro ⟨rfl | member,counted⟩
        · rw [filter_cons_of_neg (by simp),first_later] at counted
          exact absurd enough (not_le.mpr counted)
        · rw [filter_cons_of_neg (by simpa using le_of_lt (later item member))] at counted
          exact ⟨member,counted⟩
    · have whole : (first :: rest).rtake count = first :: rest := by
        rw [List.rtake,length_cons,Nat.sub_eq_zero_of_le (not_le.mp enough),drop_zero]
      rw [whole]
      refine ⟨fun member => ⟨member,?_⟩,And.left⟩
      rcases mem_cons.mp member with rfl | isRest
      · rw [filter_cons_of_neg (by simp),first_later]
        exact not_le.mp enough
      · rw [filter_cons_of_neg (by simpa using le_of_lt (later item isRest))]
        exact lt_of_le_of_lt few (not_le.mp enough)

theorem filter_length_le (ascending : Ascending time items) (subset : ∀ item ∈ items, item ∈ others)
    (p : Item → Bool) : (items.filter p).length ≤ (others.filter p).length := by
  refine (subperm_of_subset (ascending.filter p).nodup ?_).length_le
  intro item member
  obtain ⟨isItem,holds⟩ := mem_filter.mp member
  exact mem_filter.mpr ⟨subset item isItem,holds⟩
theorem rtake_within (ascending : Ascending time items) (also : Ascending time others)
    (subset : ∀ item ∈ items, item ∈ others) (member : item ∈ items) (isLast : item ∈ others.rtake count) :
    item ∈ items.rtake count := by
  have counted := ((mem_rtake_iff also).mp isLast).2
  exact (mem_rtake_iff ascending).mpr ⟨member,lt_of_le_of_lt (filter_length_le ascending subset _) counted⟩

theorem rtake_between (ascending : Ascending time items) (also : Ascending time others)
    (subset : ∀ item ∈ items, item ∈ others) (keeps : ∀ item ∈ others.rtake count, item ∈ items) :
    items.rtake count = others.rtake count := by
  have suffix : ∀ all : List Item, Ascending time all → Ascending time (all.rtake count) :=
    fun all isAscending => isAscending.sublist (drop_sublist _ all)
  refine (suffix items ascending).ext (suffix others also) fun item => ⟨fun isLast => ?_,fun isLast => ?_⟩
  · obtain ⟨member,few⟩ := (mem_rtake_iff ascending).mp isLast
    by_contra early
    have split := rdrop_rtake count others
    have isEarly : item ∈ others.rdrop count := by
      rcases mem_append.mp (split.symm ▸ subset item member) with isEarly | isLate
      · exact isEarly
      · exact absurd isLate early
    have after : ∀ last ∈ others.rtake count, time item < time last := by
      rw [← split] at also
      exact (pairwise_append.mp also).2.2 item isEarly
    have full : (others.rtake count).length = count := by
      have some := length_pos_of_mem isEarly
      rw [List.rdrop,length_take] at some
      rw [List.rtake,length_drop]
      omega
    -- All of the last items are later.
    have many : (others.rtake count).length ≤ (items.filter fun other => time item < time other).length := by
      refine (subperm_of_subset (suffix others also).nodup ?_).length_le
      intro last isLast
      exact mem_filter.mpr ⟨keeps last isLast,decide_eq_true (after last isLast)⟩
    exact absurd (full ▸ many) (not_le.mpr few)
  · exact rtake_within ascending also subset (keeps item isLast) isLast

theorem Ascending.later {before after : List Item} (ascending : Ascending time (before ++ item :: after)) :
    (before ++ item :: after).filter (fun other => time item < time other) = after := by
  obtain ⟨_,afterItem,earlier⟩ := pairwise_append.mp ascending
  obtain ⟨later,_⟩ := pairwise_cons.mp afterItem
  have none : before.filter (fun other => time item < time other) = [] := by
    apply filter_eq_nil_iff.mpr
    intro other member isLater
    exact lt_asymm (earlier other member item mem_cons_self) (of_decide_eq_true isLater)
  have all : after.filter (fun other => time item < time other) = after :=
    filter_eq_self.mpr fun other member => decide_eq_true (later other member)
  rw [filter_append,none,nil_append,filter_cons_of_neg (by simp),all]

theorem foldl_max_range' (count : Nat) : (List.range' 1 count).foldl max 0 = count := by
  induction count with
  | zero => rfl
  | succ count ih =>
    rw [range'_1_concat,foldl_append,ih]
    simp [Nat.add_comm]

end Codebot.Series
