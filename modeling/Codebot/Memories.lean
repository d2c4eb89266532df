import Mathlib.Data.List.Dedup
import Mathlib.Data.List.Perm.Subperm

/-!
A memory of the last keys that were taken up, with a bound on their number: a queue
without duplicates that is asked for a key, and to which a key that is not in it is
appended, the oldest leaving it.
-/
namespace Codebot.Memories
open List
universe u v
variable {Key : Type u} {Item : Type v}

def recent (bound : Nat) (keys : List Key) : List Key := keys.drop (keys.length - bound)
def remember (bound : Nat) (memory : List Key) (key : Key) : List Key := recent bound (memory ++ [key])
theorem recent_length (bound : Nat) (keys : List Key) : (recent bound keys).length ≤ bound := by
  rw [recent,length_drop]
  omega

variable {keys : List Key}
theorem recent_few {bound : Nat} (few : keys.length ≤ bound) : recent bound keys = keys := by
  have nothing : keys.length - bound = 0 := by omega
  rw [recent,nothing,drop_zero]
theorem recent_append (bound : Nat) (keys more : List Key) : recent bound (recent bound keys ++ more) = recent bound (keys ++ more) := by
  simp only [recent,length_append,length_drop]
  rw [← drop_append_of_le_length (Nat.sub_le _ _),drop_drop]
  congr 1
  omega

variable [DecidableEq Key]
def unknown (key : Item → Key) (keys : List Key) (items : List Item) : List Item := items.filter fun item => key item ∉ keys

variable {items : List Item}
theorem unknown_all {key : Item → Key} (fresh : ∀ item ∈ items, key item ∉ keys) : unknown key keys items = items :=
  filter_eq_self.mpr fun item member => decide_eq_true (fresh item member)
theorem unknown_nothing {key : Item → Key} (known : ∀ item ∈ items, key item ∈ keys) : unknown key keys items = [] :=
  filter_eq_nil_iff.mpr fun item member absent => of_decide_eq_true absent (known item member)

/-- The memory after it was asked for the keys of the items in turn, and the items whose
    key was new. -/
def takeUp (bound : Nat) (key : Item → Key) : List Key → List Item → List Key × List Item
  | memory, [] => (memory,[])
  | memory, item :: rest =>
    if key item ∈ memory then takeUp bound key memory rest
    else ((takeUp bound key (remember bound memory (key item)) rest).1,
      item :: (takeUp bound key (remember bound memory (key item)) rest).2)

variable {bound : Nat} {key : Item → Key} {memory : List Key}
variable {item : Item} {rest : List Item}
theorem takeUp_known (known : key item ∈ memory) :
    takeUp bound key memory (item :: rest) = takeUp bound key memory rest := by
  rw [takeUp,if_pos known]
theorem takeUp_new (new : key item ∉ memory) :
    takeUp bound key memory (item :: rest) =
      ((takeUp bound key (remember bound memory (key item)) rest).1,
        item :: (takeUp bound key (remember bound memory (key item)) rest).2) := by
  rw [takeUp,if_neg new]

theorem takeUp_sublist (items : List Item) : (takeUp bound key memory items).2.Sublist items := by
  induction items generalizing memory with
  | nil => exact List.Sublist.refl []
  | cons item rest ih =>
    by_cases known : key item ∈ memory
    · rw [takeUp_known known]
      exact ih.cons item
    · rw [takeUp_new known]
      exact ih.cons_cons item

theorem takeUp_all_known (known : ∀ item ∈ items, key item ∈ memory) :
    takeUp bound key memory items = (memory,[]) := by
  induction items with
  | nil => rfl
  | cons item rest ih =>
    rw [takeUp_known (known item mem_cons_self)]
    exact ih fun other member => known other (mem_cons_of_mem _ member)
theorem takeUp_known_append (known : ∀ item ∈ items, key item ∈ memory) :
    takeUp bound key memory (items ++ rest) = takeUp bound key memory rest := by
  induction items with
  | nil => rfl
  | cons item items ih =>
    rw [cons_append,takeUp_known (known item mem_cons_self)]
    exact ih fun other member => known other (mem_cons_of_mem _ member)

theorem takeUp_memory (fits : memory.length ≤ bound) (items : List Item) :
    (takeUp bound key memory items).1 = recent bound (memory ++ (takeUp bound key memory items).2.map key) := by
  induction items generalizing memory with
  | nil => simp [takeUp,recent_few fits]
  | cons item rest ih =>
    by_cases known : key item ∈ memory
    · rw [takeUp_known known]
      exact ih fits
    · rw [takeUp_new known]
      simp only [map_cons]
      have fitsAfter : (remember bound memory (key item)).length ≤ bound := recent_length bound _
      rw [ih fitsAfter]
      generalize (takeUp bound key (remember bound memory (key item)) rest).2 = fresh
      rw [remember,recent_append,append_assoc,singleton_append]

theorem takeUp_fresh (fresh : ∀ item ∈ items, key item ∉ memory) (distinct : (items.map key).Nodup) :
    (takeUp bound key memory items).2 = items := by
  induction items generalizing memory with
  | nil => rfl
  | cons item rest ih =>
    rw [map_cons,nodup_cons] at distinct
    have later : ∀ other ∈ rest, key other ∉ remember bound memory (key item) := by
      intro other member known
      rcases mem_append.mp (mem_of_mem_drop known) with old | isItem
      · exact fresh other (mem_cons_of_mem item member) old
      · rw [mem_singleton] at isItem
        exact distinct.1 (isItem ▸ mem_map_of_mem member)
    rw [takeUp_new (fresh item mem_cons_self),ih later distinct.2]

theorem takeUp_distinct (distinct : (memory ++ items.map key).Nodup) : (takeUp bound key memory items).2 = items := by
  refine takeUp_fresh ?_ distinct.of_append_right
  intro item member known
  exact absurd (mem_map_of_mem member) (disjoint_of_nodup_append distinct known)

/-- Of items with distinct keys the first were taken up; a part that begins before, with none that is forgotten, is new
    from there on. -/
theorem takeUp_part (distinct : (items.map key).Nodup) {t low high : Nat} (begins : low ≤ t)
    (near : t ≤ low + bound) (inside : t ≤ items.length) :
    takeUp bound key (recent bound ((items.take t).map key)) ((items.take high).drop low) =
      (recent bound ((items.take (max t high)).map key),(items.take high).drop t) := by
  have window : ∀ item ∈ (items.take t).drop low, key item ∈ recent bound ((items.take t).map key) := by
    intro item member
    have later : ((items.take t).map key).length - bound ≤ low := by
      rw [length_map,length_take]
      omega
    rw [recent,← map_drop]
    exact mem_map_of_mem ((drop_sublist_drop_left _ later).subset member)
  by_cases done : high ≤ t
  · have known : ∀ item ∈ (items.take high).drop low, key item ∈ recent bound ((items.take t).map key) := by
      intro item member
      exact window item (((take_sublist_take_left done).drop low).subset member)
    have nothing : (items.take high).drop t = [] := by
      rw [drop_eq_nil_iff,length_take]
      omega
    rw [takeUp_all_known known,nothing,Nat.max_eq_left done]
  · have begin : items.take t = (items.take high).take t := by rw [take_take,Nat.min_eq_left (by omega)]
    have split : (items.take high).drop low = (items.take t).drop low ++ (items.take high).drop t := by
      conv_lhs => rw [← take_append_drop t (items.take high)]
      rw [← begin,drop_append_of_le_length]
      rw [length_take]
      omega
    have whole : items.take high = items.take t ++ (items.take high).drop t := by
      rw [begin,take_append_drop]
    have distinctHigh : ((items.take t).map key ++ ((items.take high).drop t).map key).Nodup := by
      rw [← map_append,← whole]
      exact distinct.sublist ((take_sublist _ _).map key)
    have remembered : (recent bound ((items.take t).map key) ++ ((items.take high).drop t).map key).Nodup :=
      distinctHigh.sublist (List.Sublist.append (drop_sublist _ _) (List.Sublist.refl _))
    have fresh : (takeUp bound key _ _).2 = _ := takeUp_distinct remembered
    rw [split,takeUp_known_append window,Nat.max_eq_right (by omega)]
    refine Prod.ext ?_ fresh
    rw [takeUp_memory (recent_length bound _),fresh,recent_append,← map_append,← whole]

theorem mem_takeUp_memory {k : Key} (member : k ∈ (takeUp bound key memory items).1) :
    k ∈ memory ∨ k ∈ (takeUp bound key memory items).2.map key := by
  induction items generalizing memory with
  | nil => exact .inl member
  | cons item rest ih =>
    by_cases known : key item ∈ memory
    · rw [takeUp_known known] at member ⊢
      exact ih member
    · rw [takeUp_new known] at member ⊢
      rcases ih member with old | new
      · rcases mem_append.mp (mem_of_mem_drop old) with before | here
        · exact .inl before
        · exact .inr (by rw [mem_singleton.mp here]; exact mem_cons_self)
      · exact .inr (mem_cons_of_mem _ new)

theorem takeUp_covers (member : item ∈ items) :
    key item ∈ memory ∨ key item ∈ (takeUp bound key memory items).2.map key := by
  induction items generalizing memory with
  | nil => cases member
  | cons first rest ih =>
    by_cases known : key first ∈ memory
    · rw [takeUp_known known]
      rcases mem_cons.mp member with rfl | later
      · exact .inl known
      · exact ih later
    · rw [takeUp_new known]
      rcases mem_cons.mp member with rfl | later
      · exact .inr mem_cons_self
      · rcases ih later with remembered | new
        · rcases mem_append.mp (mem_of_mem_drop remembered) with before | here
          · exact .inl before
          · exact .inr (by rw [mem_singleton.mp here]; exact mem_cons_self)
        · exact .inr (mem_cons_of_mem _ new)

theorem takeUp_within {taken : List Key} (few : keys.length ≤ bound)
    (among : ∀ item ∈ items, key item ∈ keys) (old : List Key) (foreign : ∀ item ∈ items, key item ∉ old)
    (distinct : taken.Nodup) (takenAmong : taken ⊆ keys) :
    (taken ++ (takeUp bound key (old ++ taken) items).2.map key).Nodup ∧
      (∃ rest, (takeUp bound key (old ++ taken) items).1 = rest ++ (taken ++ (takeUp bound key (old ++ taken) items).2.map key)) ∧
      ∀ item ∈ items, key item ∈ taken ++ (takeUp bound key (old ++ taken) items).2.map key := by
  induction items generalizing taken old with
  | nil =>
    refine ⟨?_,⟨old,?_⟩,?_⟩
    · simpa [takeUp] using distinct
    · simp [takeUp]
    · exact fun item member => nomatch member
  | cons item rest ih =>
    have foreignLater : ∀ other ∈ rest, key other ∉ old := fun other member => foreign other (mem_cons_of_mem _ member)
    have amongLater : ∀ other ∈ rest, key other ∈ keys := fun other member => among other (mem_cons_of_mem _ member)
    by_cases known : key item ∈ old ++ taken
    · rw [takeUp_known known]
      obtain ⟨once,shape,all⟩ := ih amongLater old foreignLater distinct takenAmong
      refine ⟨once,shape,?_⟩
      intro other member
      rcases mem_cons.mp member with rfl | later
      · rcases mem_append.mp known with isOld | isTaken
        · exact absurd isOld (foreign other mem_cons_self)
        · exact mem_append_left _ isTaken
      · exact all other later
    · rw [takeUp_new known]
      have isNew : key item ∉ taken := fun member => known (mem_append_right _ member)
      have more : (taken ++ [key item]).Nodup :=
        nodup_append'.mpr ⟨distinct,nodup_singleton _,disjoint_singleton.mpr isNew⟩
      have moreAmong : taken ++ [key item] ⊆ keys := by
        intro k member
        rcases mem_append.mp member with before | here
        · exact takenAmong before
        · rw [mem_singleton.mp here]
          exact among item mem_cons_self
      have length : (taken ++ [key item]).length ≤ bound :=
        Nat.le_trans (subperm_of_subset more moreAmong).length_le few
      have remembered : remember bound (old ++ taken) (key item) =
          old.drop ((old ++ taken).length + 1 - bound) ++ (taken ++ [key item]) := by
        have shorter : (old ++ taken).length + 1 - bound ≤ old.length := by
          simp only [length_append,length_singleton] at length ⊢
          omega
        have total : (old ++ (taken ++ [key item])).length = (old ++ taken).length + 1 := by simp [Nat.add_assoc]
        rw [remember,recent,append_assoc,total,drop_append_of_le_length shorter]
      rw [remembered]
      have stillForeign : ∀ other ∈ rest, key other ∉ old.drop ((old ++ taken).length + 1 - bound) :=
        fun other member inOld => foreignLater other member (mem_of_mem_drop inOld)
      obtain ⟨once,⟨front,shape⟩,all⟩ := ih amongLater _ stillForeign more moreAmong
      simp only [map_cons]
      rw [append_assoc,singleton_append] at once shape all
      refine ⟨once,⟨front,shape⟩,?_⟩
      intro other member
      rcases mem_cons.mp member with rfl | later
      · exact mem_append_right _ mem_cons_self
      · exact all other later

theorem takeUp_batch (few : (items.map key).dedup.length ≤ bound) (new : ∀ item ∈ items, key item ∉ memory) :
    ((takeUp bound key memory items).2.map key).Nodup ∧
      (∀ item ∈ items, key item ∈ (takeUp bound key memory items).2.map key) ∧
      ∀ item ∈ items, key item ∈ (takeUp bound key memory items).1 := by
  have among : ∀ item ∈ items, key item ∈ (items.map key).dedup :=
    fun item member => mem_dedup.mpr (mem_map_of_mem member)
  obtain ⟨once,⟨front,shape⟩,all⟩ := takeUp_within few among memory new nodup_nil (nil_subset _)
  rw [append_nil,nil_append] at shape
  rw [append_nil,nil_append] at once
  simp only [append_nil,nil_append] at all
  refine ⟨once,all,?_⟩
  intro item member
  rw [shape]
  exact mem_append_right _ (all item member)

end Codebot.Memories
