import Codebot.TradeMetrics
import Codebot.Peaks

/-!
The drawdown percentage of the dashboard. The report has the deepest relative fall of the equity from its running
peak, the dashboard the largest absolute fall as a part of the last peak (`max_drawdown_pct_iff`).
-/
namespace Codebot.Drawdowns
open TradeMetrics Peaks List

def equitiesFrom : ℚ → List ℚ → List ℚ
  | _, [] => []
  | equity, pnl :: pnls => (equity + pnl) :: equitiesFrom (equity + pnl) pnls
/-- The equities whose drawdown the dashboard has: those of the curve, or those of the trades from
    the initial capital on where there is no curve. -/
def shownEquities (engine : Engine) (trades : List NormalizedTrade) (initialCapital : ℚ) :
    Option (List EquityPoint) → List ℚ
  | some (point :: points) => (point :: points).map (·.equity)
  | _ => initialCapital :: equitiesFrom initialCapital (trades.map (tradePnl engine))
/-- The curves that the worker builds: of the points of the runner, or of the trades. -/
inductive Built (engine : Engine) (initialCapital : ℚ) : List EquityPoint → Prop
  | runner {points : List RawEquityPoint} {curve : List EquityPoint}
      (normalized : normalizeRunnerEquityCurve engine points initialCapital = some curve) : Built engine initialCapital curve
  | trades (trades : List NormalizedTrade) : Built engine initialCapital (buildEquityCurve initialCapital trades)
/-- The percentage is the largest of the relative falls from the running peak, which starts from
    the initial capital. -/
def DeepestPct (initialCapital : ℚ) (equities : List ℚ) (percentage : ℚ) : Prop :=
  IsGreatest {pct | ∃ point ∈ withPeaks initialCapital equities, (point.1 - point.2) / point.1 * 100 = pct} percentage

theorem deepestPct_iff {initialCapital : ℚ} {equities : List ℚ} (some : equities ≠ [])
    (positive : ∀ equity ∈ equities, 0 < equity) (percentage : ℚ) :
    DeepestPct initialCapital equities percentage ↔ percentage = deepest initialCapital equities * 100 := by
  have greatest : DeepestPct initialCapital equities (deepest initialCapital equities * 100) := by
    constructor
    · obtain ⟨point,listed,isDeepest⟩ := deepest_attained some positive
      exact ⟨point,listed,congrArg (· * 100) isDeepest⟩
    · rintro _ ⟨point,listed,rfl⟩
      exact mul_le_mul_of_nonneg_right (relative_le_deepest listed) (by norm_num)
  constructor
  · intro also
    exact also.unique greatest
  · rintro rfl
    exact greatest

theorem foldl_fallen (equities : List ℚ) (peak maxDrawdown : ℚ) : equities.foldl fallen (peak,maxDrawdown) =
    (equities.foldl max peak,((withPeaks peak equities).map fun point => point.1 - point.2).foldl max maxDrawdown) := by
  induction equities generalizing peak maxDrawdown with
  | nil => rfl
  | cons equity equities ih => exact ih _ _
theorem foldl_traded (pnls : List ℚ) (equity : ℚ) (state : ℚ × ℚ) :
    (pnls.foldl traded (equity,state)).2 = (equitiesFrom equity pnls).foldl fallen state := by
  induction pnls generalizing equity state with
  | nil => rfl
  | cons pnl pnls ih => exact ih _ _

theorem maxDrawdownPct_eq (engine : Engine) (trades : List NormalizedTrade) (initialCapital backtestDays : ℚ)
    (equityCurve : Option (List EquityPoint)) :
    (tradeSegmentStats engine trades initialCapital backtestDays equityCurve).maxDrawdownPct =
      (drawdownOf engine ((shownEquities engine trades initialCapital equityCurve).foldl fallen (initialCapital,0))).percentage := by
  have start : fallen (initialCapital,0) initialCapital = (initialCapital,0) := by simp [fallen]
  have ofTrades : tradeDrawdown engine (trades.map (tradePnl engine)) initialCapital = drawdownOf engine
      ((initialCapital :: equitiesFrom initialCapital (trades.map (tradePnl engine))).foldl fallen (initialCapital,0)) := by
    rw [tradeDrawdown,foldl_traded,foldl_cons,start]
  cases equityCurve with
  | none => exact congrArg Drawdown.percentage ofTrades
  | some points =>
    cases points with
    | nil => exact congrArg Drawdown.percentage ofTrades
    | cons point points =>
      rw [shownEquities,foldl_map]
      rfl

theorem shown_some (engine : Engine) (trades : List NormalizedTrade) (initialCapital : ℚ)
    (equityCurve : Option (List EquityPoint)) : shownEquities engine trades initialCapital equityCurve ≠ [] := by
  unfold shownEquities
  split
  · simp
  · simp

variable {curve : List EquityPoint} {engine : Engine}

theorem runner_drawdowns {initialCapital : ℚ} {points : List RawEquityPoint} {index : Nat} {previousEquity peak : ℚ}
    (normalized : normalizeFrom (exactly engine) initialCapital index previousEquity peak points = some curve) :
    curve.map (·.drawdownPct) = (withPeaks peak (curve.map (·.equity))).map fun point => drawdownPct point.1 point.2 := by
  induction points generalizing index previousEquity peak curve with
  | nil =>
    cases normalized
    rfl
  | cons point points ih =>
    obtain ⟨timestamp,_,later⟩ := Option.bind_eq_some_iff.mp normalized
    obtain ⟨rest,isRest,isCurve⟩ := Option.bind_eq_some_iff.mp later
    cases isCurve
    exact congrArg (_ :: ·) (ih isRest)

theorem curve_drawdowns (initialCapital : ℚ) (trades : List NormalizedTrade) (index : Nat) (equity peak : ℚ) :
    (curveFrom initialCapital index equity peak trades).map (·.drawdownPct) =
      (withPeaks peak ((curveFrom initialCapital index equity peak trades).map (·.equity))).map
        fun point => drawdownPct point.1 point.2 := by
  induction trades generalizing index equity peak with
  | nil => rfl
  | cons trade trades ih => exact congrArg (_ :: ·) (ih _ _ _)

theorem built_drawdowns {initialCapital : ℚ}
    (built : Built (exactly engine) initialCapital curve) : curve.map (·.drawdownPct) =
      (withPeaks initialCapital (curve.map (·.equity))).map fun point => drawdownPct point.1 point.2 := by
  cases built with
  | runner normalized => exact runner_drawdowns normalized
  | trades trades =>
    have first : drawdownPct (max initialCapital initialCapital) initialCapital = 0 := by simp [drawdownPct]
    have later := curve_drawdowns initialCapital trades 0 initialCapital initialCapital
    rw [buildEquityCurve,map_cons,map_cons,withPeaks,map_cons,first,max_self]
    exact congrArg (_ :: ·) later

theorem foldl_max_scaled (values : List ℚ) (start : ℚ) :
    (values.map (· * 100)).foldl max (start * 100) = values.foldl max start * 100 := by
  induction values generalizing start with
  | nil => rfl
  | cons value values ih =>
    rw [map_cons,foldl_cons,foldl_cons,← max_mul_of_nonneg _ _ (by norm_num : (0 : ℚ) ≤ 100)]
    exact ih _

theorem maxDrawdown_eq {initialCapital : ℚ}
    (built : Built (exactly engine) initialCapital curve) (positive : ∀ equity ∈ curve.map (·.equity), 0 < equity)
    (trades : List NormalizedTrade) : (buildMetrics (exactly engine) initialCapital trades curve).maxDrawdown =
      deepest initialCapital (curve.map (·.equity)) * 100 := by
  have falls : curve.map (·.drawdownPct) =
      ((withPeaks initialCapital (curve.map (·.equity))).map relative).map (· * 100) := by
    rw [built_drawdowns built,map_map]
    apply map_congr_left
    intro point listed
    exact if_neg (not_le.mpr (peak_positive positive listed))
  have scaled := foldl_max_scaled ((withPeaks initialCapital (curve.map (·.equity))).map relative) 0
  rw [← falls,zero_mul] at scaled
  exact scaled

/-- The two percentages are one, for a curve of the same equities, exactly if the deepest fall is at the last peak. -/
theorem max_drawdown_pct_iff (engine : Engine) (trades reported : List NormalizedTrade) (initialCapital backtestDays : ℚ)
    (equityCurve : Option (List EquityPoint)) (curve : List EquityPoint) (built : Built (exactly engine) initialCapital curve)
    (same : curve.map (·.equity) = shownEquities (exactly engine) trades initialCapital equityCurve)
    (positive : ∀ equity ∈ curve.map (·.equity), 0 < equity) :
    (DeepestPct initialCapital (curve.map (·.equity))
        (tradeSegmentStats (exactly engine) trades initialCapital backtestDays equityCurve).maxDrawdownPct ∧
      (tradeSegmentStats (exactly engine) trades initialCapital backtestDays equityCurve).maxDrawdownPct =
        (buildMetrics (exactly engine) initialCapital reported curve).maxDrawdown) ↔
      LateDeepest initialCapital (curve.map (·.equity)) := by
  have some : curve.map (·.equity) ≠ [] := same ▸ shown_some _ trades initialCapital equityCurve
  have shown : (tradeSegmentStats (exactly engine) trades initialCapital backtestDays equityCurve).maxDrawdownPct =
      largestFall initialCapital (curve.map (·.equity)) / (curve.map (·.equity)).foldl max initialCapital * 100 := by
    rw [maxDrawdownPct_eq,← same,foldl_fallen]
    exact if_neg (not_le.mpr (last_positive some positive))
  rw [deepestPct_iff some positive,maxDrawdown_eq built positive,and_self,shown,mul_left_inj' (by norm_num)]
  exact fall_by_last_peak_iff some positive

def ofPnl (pnl : ℚ) : NormalizedTrade := ⟨some pnl,none,none,none⟩
def halved : List EquityPoint := buildEquityCurve 100 [ofPnl (-50),ofPnl 150,ofPnl (-20)]

theorem halved_quarter :
    (tradeSegmentStats (exactly fourPlacesEngine) [] 100 30 (some halved)).maxDrawdownPct = 25 ∧
    (buildMetrics (exactly fourPlacesEngine) 100 [] halved).maxDrawdown = 50 ∧
    ¬(DeepestPct 100 (halved.map (·.equity))
        (tradeSegmentStats (exactly fourPlacesEngine) [] 100 30 (some halved)).maxDrawdownPct ∧
      (tradeSegmentStats (exactly fourPlacesEngine) [] 100 30 (some halved)).maxDrawdownPct =
        (buildMetrics (exactly fourPlacesEngine) 100 [] halved).maxDrawdown) := by
  have quarter : (tradeSegmentStats (exactly fourPlacesEngine) [] 100 30 (some halved)).maxDrawdownPct = 25 := by
    decide +kernel
  have half : (buildMetrics (exactly fourPlacesEngine) 100 [] halved).maxDrawdown = 50 := by decide +kernel
  refine ⟨quarter,half,?_⟩
  rw [quarter,half]
  intro both
  exact absurd both.2 (by decide)

/-- A fall from the last peak is shown as it is, also without a curve. -/
theorem late_fall :
    DeepestPct 100 ((buildEquityCurve 100 [ofPnl 100,ofPnl (-50)]).map (·.equity))
        (tradeSegmentStats (exactly fourPlacesEngine) [ofPnl 100,ofPnl (-50)] 100 30 none).maxDrawdownPct ∧
      (tradeSegmentStats (exactly fourPlacesEngine) [ofPnl 100,ofPnl (-50)] 100 30 none).maxDrawdownPct =
        (buildMetrics (exactly fourPlacesEngine) 100 [] (buildEquityCurve 100 [ofPnl 100,ofPnl (-50)])).maxDrawdown :=
  (max_drawdown_pct_iff fourPlacesEngine [ofPnl 100,ofPnl (-50)] [] 100 30 none
    (buildEquityCurve 100 [ofPnl 100,ofPnl (-50)]) (.trades _) (by decide +kernel) (by decide +kernel)).mpr (by decide +kernel)
end Codebot.Drawdowns
