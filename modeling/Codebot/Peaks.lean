import Mathlib.Algebra.Order.Field.Basic
import Mathlib.Tactic.Linarith

/-!
Values with their running peaks. The largest fall from the peak, measured by the last peak, is the
deepest of the relative falls exactly if none before the last peak is deeper than all those from
it (`fall_by_last_peak_iff`).
-/
namespace Codebot.Peaks
open List
universe u
variable {Value : Type u}

section
variable [LinearOrder Value]

theorem foldl_max_le_iff {values : List Value} {start bound : Value} :
    values.foldl max start ≤ bound ↔ start ≤ bound ∧ ∀ value ∈ values, value ≤ bound := by
  induction values generalizing start with
  | nil => simp
  | cons value values ih => rw [foldl_cons,ih,max_le_iff,forall_mem_cons,and_assoc]
theorem start_le_foldl_max (values : List Value) (start : Value) : start ≤ values.foldl max start :=
  (foldl_max_le_iff.mp (le_refl _)).1
theorem le_foldl_max {values : List Value} {start value : Value} (listed : value ∈ values) : value ≤ values.foldl max start :=
  (foldl_max_le_iff.mp (le_refl _)).2 value listed

theorem foldl_max_attained (values : List Value) (start : Value) :
    values.foldl max start = start ∨ values.foldl max start ∈ values := by
  induction values generalizing start with
  | nil => exact .inl rfl
  | cons value values ih =>
    rw [foldl_cons]
    rcases ih (max start value) with isStart | later
    · rcases max_choice start value with isFirst | isSecond
      · exact .inl (isStart.trans isFirst)
      · exact .inr (mem_cons.mpr (.inl (isStart.trans isSecond)))
    · exact .inr (mem_cons_of_mem _ later)

def withPeaks : Value → List Value → List (Value × Value)
  | _, [] => []
  | peak, value :: values => (max peak value,value) :: withPeaks (max peak value) values

variable {point : Value × Value}

theorem value_le_peak {values : List Value} {peak : Value} (listed : point ∈ withPeaks peak values) :
    point.2 ≤ point.1 := by
  induction values generalizing peak with
  | nil => cases listed
  | cons value values ih =>
    rcases mem_cons.mp listed with rfl | later
    · exact le_max_right _ _
    · exact ih later

theorem peak_le_last {values : List Value} {peak : Value} (listed : point ∈ withPeaks peak values) :
    point.1 ≤ values.foldl max peak := by
  induction values generalizing peak with
  | nil => cases listed
  | cons value values ih =>
    rcases mem_cons.mp listed with rfl | later
    · exact start_le_foldl_max values _
    · exact ih later

theorem value_listed {values : List Value} {peak : Value} (listed : point ∈ withPeaks peak values) :
    point.2 ∈ values := by
  induction values generalizing peak with
  | nil => cases listed
  | cons value values ih =>
    rcases mem_cons.mp listed with rfl | later
    · exact mem_cons_self
    · exact mem_cons_of_mem _ (ih later)

theorem last_peak {values : List Value} (some : values ≠ []) (peak : Value) :
    ∃ point ∈ withPeaks peak values, point.1 = values.foldl max peak := by
  induction values generalizing peak with
  | nil => exact absurd rfl some
  | cons value values ih =>
    cases values with
    | nil => exact ⟨(max peak value,value),mem_cons_self,rfl⟩
    | cons next rest =>
      obtain ⟨point,listed,isLast⟩ := ih (cons_ne_nil _ _) (max peak value)
      exact ⟨point,mem_cons_of_mem _ listed,isLast⟩
end

section
variable [Field Value] [LinearOrder Value] {values : List Value} {peak : Value}

def relative (point : Value × Value) : Value := (point.1 - point.2) / point.1
def deepest (peak : Value) (values : List Value) : Value := ((withPeaks peak values).map relative).foldl max 0
def largestFall (peak : Value) (values : List Value) : Value :=
  ((withPeaks peak values).map fun point => point.1 - point.2).foldl max 0

variable {point : Value × Value}
theorem peak_positive (positive : ∀ value ∈ values, 0 < value) (listed : point ∈ withPeaks peak values) : 0 < point.1 :=
  (positive _ (value_listed listed)).trans_le (value_le_peak listed)
theorem relative_le_deepest (listed : point ∈ withPeaks peak values) :
    relative point ≤ deepest peak values := le_foldl_max (mem_map_of_mem listed)
theorem fall_le_largest (listed : point ∈ withPeaks peak values) :
    point.1 - point.2 ≤ largestFall peak values := le_foldl_max (mem_map.mpr ⟨point,listed,rfl⟩)
theorem last_positive (some : values ≠ []) (positive : ∀ value ∈ values, 0 < value) : 0 < values.foldl max peak := by
  obtain ⟨point,listed,isLast⟩ := last_peak some peak
  exact isLast ▸ peak_positive positive listed

variable [IsStrictOrderedRing Value]
theorem relative_nonneg (positive : ∀ value ∈ values, 0 < value)
    (listed : point ∈ withPeaks peak values) : 0 ≤ relative point :=
  div_nonneg (sub_nonneg.mpr (value_le_peak listed)) (peak_positive positive listed).le

/-- The deepest relative fall is that of a point. -/
theorem deepest_attained (some : values ≠ []) (positive : ∀ value ∈ values, 0 < value) :
    ∃ point ∈ withPeaks peak values, relative point = deepest peak values := by
  rcases foldl_max_attained ((withPeaks peak values).map relative) 0 with isZero | isFall
  · obtain ⟨point,listed,_⟩ := last_peak some peak
    refine ⟨point,listed,le_antisymm (relative_le_deepest listed) ?_⟩
    rw [deepest,isZero]
    exact relative_nonneg positive listed
  · obtain ⟨point,listed,isDeepest⟩ := mem_map.mp isFall
    exact ⟨point,listed,isDeepest⟩

def LateDeepest (peak : Value) (values : List Value) : Prop :=
  ∀ early ∈ withPeaks peak values, ∃ late ∈ withPeaks peak values,
    late.1 = values.foldl max peak ∧ relative early ≤ relative late
instance : Decidable (LateDeepest peak values) :=
  inferInstanceAs (Decidable (∀ early ∈ withPeaks peak values, ∃ late ∈ withPeaks peak values,
    late.1 = values.foldl max peak ∧ relative early ≤ relative late))

theorem largest_div_le (positive : ∀ value ∈ values, 0 < value) (some : values ≠ []) :
    largestFall peak values / values.foldl max peak ≤ deepest peak values := by
  rw [div_le_iff₀ (last_positive some positive)]
  refine foldl_max_le_iff.mpr ⟨?_,?_⟩
  · exact mul_nonneg (start_le_foldl_max _ _) (last_positive some positive).le
  · rintro fall isFall
    obtain ⟨point,listed,rfl⟩ := mem_map.mp isFall
    have here := peak_positive positive listed
    calc point.1 - point.2 = relative point * point.1 := (div_mul_cancel₀ _ here.ne').symm
      _ ≤ deepest peak values * point.1 := mul_le_mul_of_nonneg_right (relative_le_deepest listed) here.le
      _ ≤ deepest peak values * values.foldl max peak :=
        mul_le_mul_of_nonneg_left (peak_le_last listed) (start_le_foldl_max _ _)

theorem fall_by_last_peak_iff (some : values ≠ []) (positive : ∀ value ∈ values, 0 < value) :
    largestFall peak values / values.foldl max peak = deepest peak values ↔ LateDeepest peak values := by
  have last := @last_positive _ _ _ values peak some positive
  constructor
  · intro same early isEarly
    have below : relative early ≤ largestFall peak values / values.foldl max peak := same ▸ relative_le_deepest isEarly
    rcases foldl_max_attained ((withPeaks peak values).map fun point => point.1 - point.2) 0 with isZero | isFall
    · obtain ⟨late,isLate,isLast⟩ := last_peak some peak
      refine ⟨late,isLate,isLast,below.trans ?_⟩
      rw [largestFall,isZero,zero_div]
      exact relative_nonneg positive isLate
    · obtain ⟨late,isLate,isLargest⟩ := mem_map.mp isFall
      have isLargest : late.1 - late.2 = largestFall peak values := isLargest
      have here := peak_positive positive isLate
      -- a fall from a lower peak would be relatively deeper
      have deeper : (late.1 - late.2) / late.1 ≤ (late.1 - late.2) / values.foldl max peak := by
        rw [isLargest,same,← isLargest]
        exact relative_le_deepest isLate
      rcases (sub_nonneg.mpr (value_le_peak isLate)).eq_or_lt with none | falls
      · obtain ⟨point,listed,isLast⟩ := last_peak some peak
        refine ⟨point,listed,isLast,below.trans ?_⟩
        rw [← isLargest,← none,zero_div]
        exact relative_nonneg positive listed
      · have reached : values.foldl max peak ≤ late.1 := by
          rw [div_le_div_iff₀ here last] at deeper
          exact le_of_mul_le_mul_left deeper falls
        have isLast : late.1 = values.foldl max peak := le_antisymm (peak_le_last isLate) reached
        refine ⟨late,isLate,isLast,?_⟩
        rw [← isLargest,← isLast] at below
        exact below
  · intro late
    apply le_antisymm (largest_div_le positive some)
    refine foldl_max_le_iff.mpr ⟨div_nonneg (start_le_foldl_max _ _) last.le,?_⟩
    rintro fall isFall
    obtain ⟨early,isEarly,rfl⟩ := mem_map.mp isFall
    obtain ⟨point,listed,isLast,deeper⟩ := late early isEarly
    refine deeper.trans ?_
    rw [relative,isLast]
    apply div_le_div_of_nonneg_right _ last.le
    exact isLast ▸ fall_le_largest listed
end
end Codebot.Peaks
