import Codebot.Series

/-!
Pages of items in the order of their positions. A page begins after a position and holds so many
items; it is read with one item more, which tells whether others follow, and names its last item
then. The pages that one follows from the first hold all items, each once and in order
(`follow_whole`).
-/
namespace Codebot.KeysetPages
open Series List
universe u v w
variable {Item : Type u} {Key : Type v} [LinearOrder Key] {Cursor : Type w}

/-- The first items, and the last of them if others follow. -/
def cut (limit : Nat) (found : List Item) : List Item × Option Item :=
  let page := found.take (limit + 1)
  let items := page.take limit
  (items,if limit < page.length then items.getLast? else none)
/-- The page after a position. -/
def page (position : Item → Key) (limit : Nat) (after : Option Key) (items : List Item) : List Item × Option Item :=
  cut limit (ordered position (items.filter fun item => after.all fun bound => bound < position item))

/-- The pages from one on, each of which is listed by what the one before it names. -/
def follow (list : Option Cursor → Option (List Item × Option Cursor)) : Nat → Option Cursor → Option (List (List Item))
  | 0,_ => none
  | fuel + 1,after =>
    (list after).bind fun page =>
      match page.2 with
      | none => some [page.1]
      | some next => (follow list fuel (some next)).map (page.1 :: ·)

/-- After the first of all items, a list gives the page of the others. -/
def Lists (encode : Item → Cursor) (limit : Nat) (all : List Item) (list : Option Cursor → Option (List Item × Option Cursor)) : Prop :=
  ∀ before rest, all = before ++ rest → list (before.getLast?.map encode) = some ((cut limit rest).1,(cut limit rest).2.map encode)

theorem cut_eq (limit : Nat) (found : List Item) :
    cut limit found = (found.take limit,if limit < found.length then (found.take limit).getLast? else none) := by
  have items : (found.take (limit + 1)).take limit = found.take limit := by
    rw [take_take,Nat.min_eq_left (Nat.le_succ limit)]
  have more : limit < (found.take (limit + 1)).length ↔ limit < found.length := by
    rw [length_take]
    omega
  simp only [cut,items,more]

variable {position : Item → Key} {items : List Item}

theorem page_eq (distinct : (items.map position).Nodup) {before rest : List Item}
    (split : ordered position items = before ++ rest) (limit : Nat) :
    page position limit (before.getLast?.map position) items = cut limit rest := by
  have ascending := ordered_ascending distinct
  have filtered : ordered position (items.filter fun item => (before.getLast?.map position).all fun bound => bound < position item) =
      (ordered position items).filter fun item => (before.getLast?.map position).all fun bound => bound < position item := by
    refine (ordered_ascending ?_).ext (ascending.filter _) ?_
    · exact distinct.sublist (filter_sublist.map position)
    · intro item
      rw [mem_ordered,mem_filter,mem_filter,mem_ordered]
  rw [page,filtered,split]
  rw [split] at ascending
  rcases eq_nil_or_concat before with rfl | ⟨first,last,rfl⟩
  · simp
  · rw [concat_eq_append,append_assoc,singleton_append] at ascending ⊢
    rw [getLast?_append_of_ne_nil first (cons_ne_nil last []),getLast?_singleton,Option.map_some]
    simp only [Option.all_some]
    rw [ascending.later]

/-- The pages from a place on hold the items after it, however they are listed. -/
theorem follow_whole {encode : Item → Cursor} {limit : Nat} (pos : 0 < limit) {all : List Item} {fuel : Nat}
    {before rest : List Item} (split : all = before ++ rest) (enough : rest.length < fuel) :
    ∃ pages, (∀ list, Lists encode limit all list → follow list fuel (before.getLast?.map encode) = some pages) ∧
      pages.flatten = rest ∧ ∀ page ∈ pages, page.length ≤ limit := by
  induction fuel generalizing before rest with
  | zero => cases enough
  | succ fuel ih =>
    have short : (rest.take limit).length ≤ limit := length_take_le limit rest
    by_cases more : limit < rest.length
    · have full : rest.take limit ≠ [] := by
        intro none
        have length := congrArg List.length none
        rw [length_take,length_nil] at length
        omega
      have last : (before ++ rest.take limit).getLast? = (rest.take limit).getLast? := getLast?_append_of_ne_nil _ full
      have next : all = (before ++ rest.take limit) ++ rest.drop limit := by
        rw [split,append_assoc,take_append_drop]
      have fewer : (rest.drop limit).length < fuel := by
        rw [length_drop]
        omega
      obtain ⟨pages,followed,whole,each⟩ := ih next fewer
      rw [last,getLast?_eq_some_getLast full] at followed
      refine ⟨rest.take limit :: pages,?_,?_,?_⟩
      · intro list lists
        rw [follow,lists before rest split,cut_eq,if_pos more,getLast?_eq_some_getLast full]
        dsimp only [Option.bind_some,Option.map_some]
        have others := followed list lists
        rw [Option.map_some] at others
        rw [others,Option.map_some]
      · rw [flatten_cons,whole,take_append_drop]
      · exact forall_mem_cons.mpr ⟨short,each⟩
    · refine ⟨[rest.take limit],?_,?_,?_⟩
      · intro list lists
        rw [follow,lists before rest split,cut_eq,if_neg more]
        rfl
      · rw [flatten_cons,flatten_nil,append_nil,take_of_length_le (Nat.not_lt.mp more)]
      · exact forall_mem_cons.mpr ⟨short,nofun⟩

end Codebot.KeysetPages
