import Codebot.TradeMetrics

/-!
The dashboard and the report of a backtest. The dashboard counts every trade, at its absolute pnl, the report the
equity curve, where a percentage stands for a missing absolute pnl, and for the win rate the percentages only
(`figures_agree_iff`).
-/
namespace Codebot.DashboardMetrics
open TradeMetrics List

def percentageOnly (trade : NormalizedTrade) : ℚ :=
  if trade.pnlCost.isNone then trade.pnlPercentage.getD 0 else 0
/-- The dashboard and the report show the same net profit and the same win rate. -/
def FiguresAgree (engine : Engine) (initialCapital backtestDays : ℚ) (trades : List NormalizedTrade) : Prop :=
  let curve := buildEquityCurve initialCapital trades
  let stats := tradeSegmentStats engine trades initialCapital backtestDays (some curve)
  let metrics := buildMetrics engine initialCapital trades curve
  stats.netProfit = metrics.pnlAbsolute ∧ stats.winRate = metrics.winRate
instance (engine : Engine) (initialCapital backtestDays : ℚ) (trades : List NormalizedTrade) :
    Decidable (FiguresAgree engine initialCapital backtestDays trades) := inferInstanceAs (Decidable (_ ∧ _))
def winners (trades : List NormalizedTrade) : Nat := trades.countP fun trade => 0 < trade.pnlCost.getD 0
def withPercentage (trades : List NormalizedTrade) : Nat := (trades.filterMap (·.pnlPercentage)).length
def positivePercentages (trades : List NormalizedTrade) : Nat := (trades.filterMap (·.pnlPercentage)).countP (0 < ·)

theorem curve_last (initialCapital : ℚ) (trades : List NormalizedTrade) (first : EquityPoint) (index : Nat) (peak : ℚ) :
    ((first :: curveFrom initialCapital index first.equity peak trades).getLast?.map (·.equity)) =
      some (first.equity + (trades.map (curvePnl initialCapital)).sum) := by
  induction trades generalizing first index peak with
  | nil => simp [curveFrom]
  | cons trade trades ih =>
    rw [curveFrom,getLast?_cons_cons,map_cons,sum_cons,← add_assoc]
    exact ih ⟨_,_,first.equity + curvePnl initialCapital trade,_,_⟩ _ _

theorem absolute_pnl (engine : Engine) (initialCapital : ℚ) (trades : List NormalizedTrade) :
    (buildMetrics (exactly engine) initialCapital trades (buildEquityCurve initialCapital trades)).pnlAbsolute =
      (trades.map (curvePnl initialCapital)).sum := by
  have last := curve_last initialCapital trades ⟨0,none,initialCapital,0,0⟩ 0 initialCapital
  simp only [buildMetrics,buildEquityCurve,last,exactly_roundMetric,Option.getD_some]
  exact add_sub_cancel_left _ _

theorem curvePnl_eq (engine : Engine) (initialCapital : ℚ) (trade : NormalizedTrade) :
    curvePnl initialCapital trade = tradePnl (exactly engine) trade + initialCapital / 100 * percentageOnly trade := by
  rw [curvePnl,tradePnl,exactly_roundMetric,percentageOnly]
  cases trade.pnlCost with
  | some cost => simp
  | none =>
    cases trade.pnlPercentage with
    | none => simp
    | some percentage =>
      simp only [Option.getD_none,Option.getD_some,Option.isNone_none,if_true]
      ring

theorem curve_sum (engine : Engine) (initialCapital : ℚ) (trades : List NormalizedTrade) :
    (trades.map (curvePnl initialCapital)).sum = (trades.map (tradePnl (exactly engine))).sum +
      initialCapital / 100 * (trades.map percentageOnly).sum := by
  induction trades with
  | nil => simp
  | cons trade trades ih =>
    rw [map_cons,sum_cons,ih,curvePnl_eq engine,map_cons,sum_cons,map_cons,sum_cons]
    ring

theorem net_profit_iff (engine : Engine) (initialCapital backtestDays : ℚ) (trades : List NormalizedTrade)
    (equityCurve : Option (List EquityPoint)) :
    (tradeSegmentStats (exactly engine) trades initialCapital backtestDays equityCurve).netProfit =
        (buildMetrics (exactly engine) initialCapital trades (buildEquityCurve initialCapital trades)).pnlAbsolute ↔
      initialCapital = 0 ∨ (trades.map percentageOnly).sum = 0 := by
  rw [absolute_pnl,curve_sum engine]
  change (trades.map (tradePnl (exactly engine))).sum = _ ↔ _
  rw [left_eq_add,mul_eq_zero,div_eq_zero_iff]
  simp

def share (part whole : Nat) : Option ℚ := if whole = 0 then none else some ((part : ℚ) / whole * 100)

theorem share_eq_iff {part whole other counted : Nat} : share part whole = share other counted ↔
    (whole = 0 ↔ counted = 0) ∧ (whole ≠ 0 → part * counted = other * whole) := by
  unfold share
  by_cases none : whole = 0
  · by_cases noneToo : counted = 0
    · simp [none,noneToo]
    · simp [none,noneToo]
  · by_cases noneToo : counted = 0
    · simp [none,noneToo]
    · have here : (whole : ℚ) ≠ 0 := Nat.cast_ne_zero.mpr none
      have there : (counted : ℚ) ≠ 0 := Nat.cast_ne_zero.mpr noneToo
      rw [if_neg none,if_neg noneToo,Option.some_inj,mul_left_inj' (by norm_num),div_eq_div_iff here there]
      simp only [none,noneToo,true_and,ne_eq,not_false_eq_true,true_implies]
      exact_mod_cast Iff.rfl

theorem shown_win_rate (engine : Engine) (initialCapital backtestDays : ℚ) (trades : List NormalizedTrade)
    (equityCurve : Option (List EquityPoint)) :
    (tradeSegmentStats (exactly engine) trades initialCapital backtestDays equityCurve).winRate =
      share (winners trades) trades.length := by
  have counted : ((trades.map (tradePnl (exactly engine))).filter (0 < ·)).length = winners trades := by
    rw [← countP_eq_length_filter,countP_map]
    rfl
  rw [share,← counted,← length_map (tradePnl (exactly engine))]
  rfl

theorem reported_win_rate (engine : Engine) (initialCapital : ℚ) (trades : List NormalizedTrade)
    (equityCurve : List EquityPoint) :
    (buildMetrics (exactly engine) initialCapital trades equityCurve).winRate =
      share (positivePercentages trades) (withPercentage trades) := by
  rw [share,positivePercentages,countP_eq_length_filter]
  rfl

/-- The figures agree exactly if the percentages that stand alone add up to 0 and both shares of winners are one. -/
theorem figures_agree_iff (engine : Engine) (initialCapital backtestDays : ℚ) (trades : List NormalizedTrade) :
    FiguresAgree (exactly engine) initialCapital backtestDays trades ↔
      (initialCapital = 0 ∨ (trades.map percentageOnly).sum = 0) ∧
        (trades = [] ∨ 0 < withPercentage trades ∧
          winners trades * withPercentage trades = positivePercentages trades * trades.length) := by
  have shares : share (winners trades) trades.length = share (positivePercentages trades) (withPercentage trades) ↔
      trades = [] ∨ 0 < withPercentage trades ∧
        winners trades * withPercentage trades = positivePercentages trades * trades.length := by
    rw [share_eq_iff]
    by_cases none : trades = []
    · subst none
      simp [withPercentage]
    · have counted : trades.length ≠ 0 := fun empty => none (eq_nil_of_length_eq_zero empty)
      simp only [none,counted,false_iff,ne_eq,not_false_eq_true,true_implies,false_or,Nat.pos_iff_ne_zero]
  rw [FiguresAgree,net_profit_iff,shown_win_rate,reported_win_rate,shares]

def halfReported : List NormalizedTrade := [⟨none,some 5,none,none⟩,⟨some (-20),none,none,none⟩]

theorem halfReported_differs :
    ((tradeSegmentStats (exactly fourPlacesEngine) halfReported 1000 30 (some (buildEquityCurve 1000 halfReported))).netProfit,
        (tradeSegmentStats (exactly fourPlacesEngine) halfReported 1000 30 (some (buildEquityCurve 1000 halfReported))).winRate) =
      (-20,some 0) ∧
    ((buildMetrics (exactly fourPlacesEngine) 1000 halfReported (buildEquityCurve 1000 halfReported)).pnlAbsolute,
        (buildMetrics (exactly fourPlacesEngine) 1000 halfReported (buildEquityCurve 1000 halfReported)).winRate) =
      (30,some 100) ∧
    ¬FiguresAgree (exactly fourPlacesEngine) 1000 30 halfReported := by
  decide +kernel
end Codebot.DashboardMetrics
