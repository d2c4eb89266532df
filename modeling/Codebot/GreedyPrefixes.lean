import Mathlib.Algebra.BigOperators.Group.List.Basic
import Mathlib.Algebra.GroupWithZero.Nat

/-!
Items with a cost, taken from the front of a list as long as they fit a limit. What is taken is the
longest prefix that fits.
-/
namespace Codebot.GreedyPrefixes
universe u
variable {Item : Type u}

def fitting (cost : Item → Nat) (limit used : Nat) : List Item → List Item
  | [] => []
  | item :: rest => if limit < used + cost item then [] else item :: fitting cost limit (used + cost item) rest
def total (cost : Item → Nat) (items : List Item) : Nat := (items.map cost).sum

variable {cost : Item → Nat} {limit used : Nat} {items : List Item}
@[simp] theorem total_cons (item : Item) : total cost (item :: items) = cost item + total cost items := by
  simp [total]
@[simp] theorem total_append (others : List Item) : total cost (items ++ others) = total cost items + total cost others := by
  simp [total]
@[simp] theorem total_reverse : total cost items.reverse = total cost items := by
  simp [total]

theorem fitting_prefix : fitting cost limit used items <+: items := by
  induction items generalizing used with
  | nil => exact List.nil_prefix
  | cons item rest ih =>
    rw [fitting]
    split
    · exact List.nil_prefix
    · exact (List.prefix_cons_inj item).mpr ih

theorem fitting_fits (within : used ≤ limit) : used + total cost (fitting cost limit used items) ≤ limit := by
  induction items generalizing used with
  | nil => exact within
  | cons item rest ih =>
    rw [fitting]
    split
    · exact within
    · rename_i fits
      rw [total_cons,← Nat.add_assoc]
      exact ih (Nat.le_of_not_lt fits)

theorem fitting_longest {front : List Item} (isFront : front <+: items) (fits : used + total cost front ≤ limit) :
    front <+: fitting cost limit used items := by
  induction items generalizing used front with
  | nil => exact isFront
  | cons item rest ih =>
    rcases List.prefix_cons_iff.mp isFront with rfl | ⟨others,rfl,isPrefix⟩
    · exact List.nil_prefix
    · rw [total_cons,← Nat.add_assoc] at fits
      rw [fitting,if_neg (by omega)]
      exact (List.prefix_cons_inj item).mpr (ih isPrefix fits)

end Codebot.GreedyPrefixes
