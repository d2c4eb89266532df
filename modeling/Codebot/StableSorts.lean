import Mathlib.Data.List.Sort
import Mathlib.Data.List.Find

/-!
Stable sorts. What a sort by a total order puts first is the first of the least items
(`head?_insertionSort`), and items that are equal in the order stay as they are listed
(`filter_insertionSort`).
-/
namespace Codebot.StableSorts
open List
universe u
variable {Item : Type u} {r : Item → Item → Prop}
variable {items : List Item} {p : Item → Bool}

theorem find?_narrow {q : Item → Bool} {item : Item} (narrower : ∀ other ∈ items, p other → q other)
    (found : items.find? q = some item) (ofKind : p item) : items.find? p = some item := by
  induction items with
  | nil => cases found
  | cons first rest ih =>
    obtain ⟨here,later⟩ := forall_mem_cons.mp narrower
    rw [find?_cons] at found ⊢
    cases isFirst : q first with
    | true =>
      rw [isFirst] at found
      cases found
      rw [ofKind]
    | false =>
      rw [isFirst] at found
      have notKind : p first = false := by
        cases isKind : p first with
        | true => exact absurd (here isKind) (by rw [isFirst]; exact Bool.false_ne_true)
        | false => rfl
      rw [notKind]
      exact ih later found

theorem find?_filter_kept {q : Item → Bool} (kept : ∀ item ∈ items, q item → p item) :
    (items.filter p).find? q = items.find? q := by
  rw [find?_filter]
  apply find?_congr
  intro item listed
  cases ofKind : q item with
  | true => simp [kept item listed ofKind]
  | false => simp

theorem find?_sorted {item other : Item} (sorted : items.Pairwise r)
    (refl : ∀ item, r item item) (found : items.find? p = some item) (listed : other ∈ items) (ofKind : p other) : r item other := by
  obtain ⟨_,before,after,rfl,none⟩ := find?_eq_some_iff_append.mp found
  rcases mem_append.mp listed with isBefore | isAfter
  · have differs := none other isBefore
    rw [ofKind] at differs
    cases differs
  · rcases mem_cons.mp isAfter with rfl | isLater
    · exact refl other
    · exact rel_of_pairwise_cons (pairwise_append.mp sorted).2.1 isLater

variable [DecidableRel r]

theorem head?_insertionSort [Std.Total r] [IsTrans Item r] (items : List Item) :
    (items.insertionSort r).head? = items.find? fun item => ∀ other ∈ items, r item other := by
  induction items with
  | nil => rfl
  | cons first rest ih =>
    have refl : ∀ item, r item item := fun item => (Std.Total.total item item).elim id id
    rw [insertionSort_cons,find?_cons]
    cases sorted : rest.insertionSort r with
    | nil =>
      have none : rest = [] := eq_nil_of_length_eq_zero (by rw [← length_insertionSort r,sorted,length_nil])
      subst none
      simp [refl]
    | cons least later =>
      rw [sorted,head?_cons] at ih
      have isLeast := ih.symm
      have below : ∀ other ∈ rest, r least other := by simpa using find?_some isLeast
      have listed := mem_of_find?_eq_some isLeast
      by_cases before : r first least
      · have belowAll : ∀ other ∈ first :: rest, r first other := by
          intro other isOther
          rcases mem_cons.mp isOther with rfl | isRest
          · exact refl other
          · exact trans_of r before (below other isRest)
        rw [orderedInsert_cons_of_le r later before,decide_eq_true belowAll]
        rfl
      · have notLeast : ¬∀ other ∈ first :: rest, r first other := fun all => before (all least (mem_cons_of_mem _ listed))
        rw [orderedInsert_of_not_le r later before,decide_eq_false notLeast]
        refine (find?_narrow ?_ isLeast (decide_eq_true ?_)).symm
        · intro other _ all
          exact decide_eq_true fun item isRest => of_decide_eq_true all item (mem_cons_of_mem _ isRest)
        · intro other isOther
          rcases mem_cons.mp isOther with rfl | isRest
          · exact (Std.Total.total least other).resolve_right before
          · exact below other isRest

theorem filter_orderedInsert {item : Item} (tied : ∀ other ∈ items, p item → p other → r item other) :
    (items.orderedInsert r item).filter p = (item :: items).filter p := by
  induction items with
  | nil => rfl
  | cons first rest ih =>
    obtain ⟨here,later⟩ := forall_mem_cons.mp tied
    by_cases before : r item first
    · rw [orderedInsert_cons_of_le r rest before]
    · rw [orderedInsert_of_not_le r rest before,filter_cons,ih later]
      have apart : ¬(p item ∧ p first) := fun both => before (here both.1 both.2)
      cases isItem : p item with
      | false =>
        rw [filter_cons,isItem,filter_cons,isItem,filter_cons]
        simp
      | true =>
        have notFirst : p first = false := by
          cases isFirst : p first with
          | true => exact absurd ⟨isItem,isFirst⟩ apart
          | false => rfl
        simp [isItem,notFirst]

theorem filter_insertionSort (tied : ∀ item ∈ items, ∀ other ∈ items, p item → p other → r item other) :
    (items.insertionSort r).filter p = items.filter p := by
  induction items with
  | nil => rfl
  | cons first rest ih =>
    rw [insertionSort_cons,filter_orderedInsert,filter_cons,ih,filter_cons]
    · exact fun item isItem other isOther => tied item (mem_cons_of_mem _ isItem) other (mem_cons_of_mem _ isOther)
    · exact fun other isOther => tied first mem_cons_self other (mem_cons_of_mem _ ((mem_insertionSort r).mp isOther))

theorem find?_insertionSort (tied : ∀ item ∈ items, ∀ other ∈ items, p item → p other → r item other) :
    (items.insertionSort r).find? p = items.find? p := by
  rw [← head?_filter,← head?_filter,filter_insertionSort tied]
end Codebot.StableSorts
