import Mathlib.Data.List.Nodup
import Mathlib.Data.List.Perm.Subperm

/-!
Tables of rows with a numeric primary key, kept as lists. An update by primary
key changes every row with the key and no other row; the lookups after an update
or an insertion are those before it, except at the key.
-/
namespace Codebot.Tables
open List
universe u

/-- Rows with a primary key. -/
class Keyed (Row : Type u) where
  key : Row → Nat

variable {Row : Type u} [Keyed Row]
open Keyed (key)
/-- `SELECT ... WHERE id = key`. -/
def find (rows : List Row) (id : Nat) : Option Row := rows.find? fun row => key row == id
/-- `UPDATE ... WHERE id = key`. -/
def update (rows : List Row) (id : Nat) (change : Row → Row) : List Row :=
  rows.map fun row => if key row = id then change row else row
/-- `UPDATE ... WHERE id IN (keys)`. -/
def updateAll (rows : List Row) (ids : List Nat) (change : Row → Row) : List Row :=
  rows.map fun row => if key row ∈ ids then change row else row

variable {id : Nat} {row : Row} {rows : List Row}
theorem find_key (found : find rows id = some row) : key row = id := by
  simpa using find?_some found
theorem find_mem (found : find rows id = some row) : row ∈ rows :=
  mem_of_find?_eq_some found

variable {change : Row → Row}

theorem find_map (keeps : ∀ row, key (change row) = key row) (id : Nat) :
    find (rows.map change) id = (find rows id).map change := by
  induction rows with
  | nil => rfl
  | cons row rest ih =>
    simp only [find,map_cons,find?_cons,keeps] at ih ⊢
    by_cases same : key row = id
    · simp [same]
    · have other : (key row == id) = false := by simpa using same
      simp [other,ih]

theorem find_update (keeps : ∀ row, key (change row) = key row) (other : Nat) : find (update rows id change) other =
      if other = id then (find rows other).map change else find rows other := by
  rw [update,find_map (by intro row; split <;> simp [keeps])]
  cases found : find rows other with
  | none => simp
  | some row =>
    have keyed := find_key found
    by_cases same : other = id
    · simp [keyed,same]
    · simp [keyed,same]

variable {ids : List Nat}

theorem find_updateAll
    (keeps : ∀ row, key (change row) = key row) (other : Nat) : find (updateAll rows ids change) other =
      if other ∈ ids then (find rows other).map change else find rows other := by
  rw [updateAll,find_map (by intro row; split <;> simp [keeps])]
  cases found : find rows other with
  | none => simp
  | some row =>
    have keyed := find_key found
    by_cases listed : other ∈ ids
    · simp [keyed,listed]
    · simp [keyed,listed]

theorem find_append (rows : List Row) (row : Row) (id : Nat) :
    find (rows ++ [row]) id = (find rows id).or (if key row = id then some row else none) := by
  rw [find,find?_append]
  by_cases same : key row = id
  · simp [find,same]
  · simp [find,same]
theorem find_append_fresh (fresh : find rows (key row) = none) (id : Nat) :
    find (rows ++ [row]) id = if id = key row then some row else find rows id := by
  rw [find_append]
  by_cases same : id = key row
  · subst same
    simp [fresh]
  · simp [same,Ne.symm same]
theorem find_none : find rows id = none ↔ id ∉ rows.map key := by
  simp [find]

theorem find_of_mem (distinct : (rows.map key).Nodup) (member : row ∈ rows) : find rows (key row) = some row := by
  induction rows with
  | nil => cases member
  | cons head rest ih =>
    rw [map_cons,nodup_cons] at distinct
    rcases mem_cons.mp member with rfl | later
    · simp [find]
    · have other : key head ≠ key row := by
        intro same
        exact distinct.1 (same ▸ mem_map_of_mem later)
      have tail := ih distinct.2 later
      simpa [find,other] using tail

theorem keys_map (keeps : ∀ row, key (change row) = key row) : (rows.map change).map key = rows.map key := by
  simp [keeps]
theorem keys_update (keeps : ∀ row, key (change row) = key row) : (update rows id change).map key = rows.map key :=
  keys_map (by intro row; split <;> simp [keeps])
theorem keys_updateAll
    (keeps : ∀ row, key (change row) = key row) : (updateAll rows ids change).map key = rows.map key :=
  keys_map (by intro row; split <;> simp [keeps])
theorem distinct_append (distinct : (rows.map key).Nodup)
    (fresh : ∀ other ∈ rows, key other ≠ key row) : ((rows ++ [row]).map key).Nodup := by
  have apart : key row ∉ rows.map key := by
    intro member
    obtain ⟨other,isOther,same⟩ := mem_map.mp member
    exact fresh other isOther same
  simpa using List.Nodup.concat apart distinct

/-- Where the keys are distinct, an update changes the count of a property by the one row. -/
theorem countP_update {rows : List Row} (distinct : (rows.map key).Nodup) {id : Nat} {row : Row}
    (found : find rows id = some row) {change : Row → Row} {p : Row → Bool} (before : p row = false) :
    (update rows id change).countP p = rows.countP p + if p (change row) then 1 else 0 := by
  induction rows with
  | nil => cases found
  | cons head rest ih =>
    rw [map_cons,nodup_cons] at distinct
    by_cases same : key head = id
    · have isHead : head = row := by simpa [find,same] using found
      subst isHead
      have others : update rest id change = rest := by
        refine (map_congr_left fun other member => if_neg ?_).trans (map_id _)
        intro again
        exact distinct.1 (same.trans again.symm ▸ mem_map_of_mem member)
      have cons : update (head :: rest) id change = change head :: update rest id change := by simp [update,same]
      rw [cons,others,countP_cons,countP_cons,before]
      simp
    · have tail : find rest id = some row := by simpa [find,same] using found
      have cons : update (head :: rest) id change = head :: update rest id change := by simp [update,same]
      rw [cons,countP_cons,countP_cons,ih distinct.2 tail]
      omega

theorem forall_update (distinct : (rows.map key).Nodup)
    (found : find rows id = some row) {p : Row → Prop} (all : ∀ other ∈ rows, p other) :
    (∀ other ∈ update rows id change, p other) ↔ p (change row) := by
  constructor
  · intro after
    refine after (change row) (mem_map.mpr ⟨row,find_mem found,?_⟩)
    rw [if_pos (find_key found)]
  · intro changed other member
    obtain ⟨before,isBefore,rfl⟩ := mem_map.mp member
    split
    · rename_i same
      have here := find_of_mem distinct isBefore
      rw [same,found] at here
      cases here
      exact changed
    · exact all before isBefore

theorem countP_le {others : List Row} (distinct : (rows.map key).Nodup) {p q : Row → Bool}
    (among : ∀ row ∈ rows, p row → ∃ other ∈ others, key other = key row ∧ q other) :
    rows.countP p ≤ others.countP q := by
  have part : ((rows.filter p).map key).Nodup := distinct.sublist (filter_sublist.map key)
  have subset : (rows.filter p).map key ⊆ (others.filter q).map key := by
    intro id member
    obtain ⟨row,listed,rfl⟩ := mem_map.mp member
    obtain ⟨member,holds⟩ := mem_filter.mp listed
    obtain ⟨other,isOther,same,holds⟩ := among row member holds
    exact mem_map.mpr ⟨other,mem_filter.mpr ⟨isOther,holds⟩,same⟩
  have shorter := (part.subperm subset).length_le
  simpa [countP_eq_length_filter] using shorter

end Codebot.Tables
