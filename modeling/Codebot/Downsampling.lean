import Mathlib.Data.Rat.Floor

/-!
A long curve is shown by some of its points, at positions rounded from a rational step. In exact arithmetic a
step is at least one, so that no two positions round to one, and the first and the last point are hit
(`ends_kept`).
-/
namespace Codebot.Downsampling
open List

/-- `Math.round`. -/
def mathRound (x : ℚ) : Int := ⌊x + 1 / 2⌋

variable {Item : Type}
def item (items : List Item) (index : Int) : Option Item := if index < 0 then none else items[index.toNat]?
def picked (items : List Item) (step : ℚ) (count : Int) : List (Option Item) :=
  (List.range count.toNat).map fun index : Nat => item items (mathRound (index * step))
def downsampleEquity (points : List Item) (maxPoints : Int) : List (Option Item) :=
  if points.length ≤ maxPoints ∨ maxPoints ≤ 0 then points.map some
  else picked points (((points.length : ℚ) - 1) / max 1 ((maxPoints : ℚ) - 1)) maxPoints
def sampleItems (items : List Item) (maxItems : Int) : List (Option Item) :=
  if items.length ≤ maxItems ∨ maxItems ≤ 0 then items.map some
  else if maxItems = 1 then [item items (items.length - 1)]
  else picked items (((items.length : ℚ) - 1) / ((maxItems : ℚ) - 1)) maxItems
/-- A sample of the items: so many, in their order, with the first and the last. -/
def Samples (items : List Item) (count : Int) (sample : List (Option Item)) : Prop :=
  ∃ positions : List Nat, positions.Pairwise (· < ·) ∧ (∀ position ∈ positions, position < items.length) ∧
    positions.length = count ∧ sample = positions.map (items[·]?) ∧ 0 ∈ positions ∧ items.length - 1 ∈ positions
theorem mathRound_nonneg {x : ℚ} (nonneg : 0 ≤ x) : 0 ≤ mathRound x := Int.floor_nonneg.mpr (by linarith)
theorem mathRound_natCast (n : Nat) : mathRound n = n := by
  rw [mathRound,Int.floor_eq_iff]
  constructor
  · push_cast
    linarith
  · push_cast
    linarith
/-- Numbers one apart round to different integers. -/
theorem mathRound_lt {x y : ℚ} (apart : x + 1 ≤ y) : mathRound x < mathRound y := by
  have later : mathRound x + 1 = ⌊x + 1 / 2 + 1⌋ := (Int.floor_add_one _).symm
  have floors : ⌊x + 1 / 2 + 1⌋ ≤ ⌊y + 1 / 2⌋ := Int.floor_le_floor (by linarith)
  rw [mathRound] at later ⊢
  rw [mathRound]
  omega

theorem picked_samples {items : List Item} {count : Int} (two : 2 ≤ count) (long : count < items.length) :
    Samples items count (picked items (((items.length : ℚ) - 1) / ((count : ℚ) - 1)) count) := by
  obtain ⟨last,rfl⟩ : ∃ last : Nat, count = last + 1 := ⟨(count - 1).toNat,by omega⟩
  obtain ⟨final,isLength⟩ : ∃ final : Nat, items.length = final + 1 := ⟨items.length - 1,by omega⟩
  have wide : (last : ℚ) ≤ final := by
    rw [isLength] at long
    exact_mod_cast (by omega : last ≤ final)
  have positive : (0 : ℚ) < last := by exact_mod_cast (by omega : 0 < last)
  have isStep : ((items.length : ℚ) - 1) / (((last : Int) + 1 : Int) - 1 : ℚ) = final / last := by
    rw [isLength]
    push_cast
    rw [add_sub_cancel_right,add_sub_cancel_right]
  rw [isStep]
  generalize isRate : (final : ℚ) / last = step
  have unit : 1 ≤ step := isRate ▸ (one_le_div positive).mpr wide
  have exact : last * step = final := by
    rw [← isRate]
    field_simp
  have isCount : ((last : Int) + 1).toNat = last + 1 := by omega
  have nonneg : ∀ index : Nat, 0 ≤ mathRound (index * step) := fun index =>
    mathRound_nonneg (mul_nonneg (Nat.cast_nonneg index) (by linarith))
  have increasing : ∀ {a b : Nat}, a < b → mathRound (a * step) < mathRound (b * step) := by
    intro a b before
    apply mathRound_lt
    have next : (a : ℚ) + 1 ≤ b := by exact_mod_cast before
    nlinarith
  have isLast : mathRound (last * step) = final := by rw [exact,mathRound_natCast]
  refine ⟨(List.range (last + 1)).map fun index : Nat => (mathRound (index * step)).toNat,?_,?_,by simp,?_,?_,?_⟩
  · rw [pairwise_map]
    refine pairwise_lt_range.imp ?_
    intro a b before
    have less := increasing before
    have first := nonneg a
    omega
  · intro position member
    obtain ⟨index,inRange,rfl⟩ := mem_map.mp member
    have bound : mathRound (index * step) ≤ mathRound (last * step) := by
      rcases Nat.lt_or_eq_of_le (Nat.lt_succ_iff.mp (mem_range.mp inRange)) with before | rfl
      · exact (increasing before).le
      · exact le_refl _
    have first := nonneg index
    omega
  · rw [picked,isCount,map_map]
    apply map_congr_left
    intro index _
    rw [item,if_neg (not_lt.mpr (nonneg index))]
    rfl
  · refine mem_map.mpr ⟨0,mem_range.mpr (Nat.succ_pos last),?_⟩
    rw [Nat.cast_zero,zero_mul,← Nat.cast_zero,mathRound_natCast]
    rfl
  · refine mem_map.mpr ⟨last,mem_range.mpr (Nat.lt_succ_self last),?_⟩
    rw [isLast]
    omega

/-- With a maximum of two or more points a curve is shown as it is where it is short enough, and otherwise by a sample
    of exactly so many. -/
theorem ends_kept (items : List Item) (maximum : Int) (two : 2 ≤ maximum) :
    (items.length ≤ maximum → downsampleEquity items maximum = items.map some ∧ sampleItems items maximum = items.map some) ∧
      (maximum < items.length →
        Samples items maximum (downsampleEquity items maximum) ∧ Samples items maximum (sampleItems items maximum)) := by
  constructor
  · exact fun short => ⟨if_pos (.inl short),if_pos (.inl short)⟩
  · intro long
    have thinned : ¬ (items.length ≤ maximum ∨ maximum ≤ 0) := by omega
    have wide : max 1 ((maximum : ℚ) - 1) = maximum - 1 := by
      apply max_eq_right
      have : (2 : ℚ) ≤ maximum := by exact_mod_cast two
      linarith
    constructor
    · rw [downsampleEquity,if_neg thinned,wide]
      exact picked_samples two long
    · rw [sampleItems,if_neg thinned,if_neg (by omega)]
      exact picked_samples two long

/-- Two of five points, and five of five. -/
theorem five_points_sampled :
    (downsampleEquity [1,2,3,4,5] 5 = [1,2,3,4,5].map some ∧ sampleItems [1,2,3,4,5] 5 = [1,2,3,4,5].map some) ∧
      Samples [1,2,3,4,5] 2 (downsampleEquity [1,2,3,4,5] 2) ∧ Samples [1,2,3,4,5] 2 (sampleItems [1,2,3,4,5] 2) :=
  ⟨(ends_kept [1,2,3,4,5] 5 (by decide)).1 (by decide),(ends_kept [1,2,3,4,5] 2 (by decide)).2 (by decide)⟩

end Codebot.Downsampling
