import Mathlib.Data.Rat.Floor
import Codebot.Texts

/-!
The figures that the worker makes of the trades and the equity curve of a backtest: the metrics of
its report (`buildMetrics`) and the figures of its dashboard (`tradeSegmentStats`). The numbers
are rational; how they are rounded is a parameter, and arithmetic without rounding is `exactly`.
-/
namespace Codebot.TradeMetrics
open Texts

/-- What the figures need of the engine of the worker. -/
structure Engine where
  roundMetric : ℚ → ℚ
  power : ℚ → ℚ → ℚ
  sqrt : ℚ → ℚ
  space : Nat → Bool
  number : Text → Option ℚ
  toISOString : ℚ → Option Text

/-- The engine without rounding of the figures. -/
def exactly (engine : Engine) : Engine := { engine with roundMetric := id }
@[simp] theorem exactly_roundMetric (engine : Engine) (value : ℚ) : (exactly engine).roundMetric value = value := rfl
def fourPlaces (value : ℚ) : ℚ := (⌊value * 10000 + 1 / 2⌋ : ℤ) / 10000

/-- An engine that rounds as the worker does, with no power but the first, roots of 0 and 1, and neither
    numbers nor dates in texts. -/
def fourPlacesEngine : Engine where
  roundMetric := fourPlaces
  power base _ := base
  sqrt value := value
  space c := c = 32
  number _ := none
  toISOString _ := none

/-- A field of a record that the runner has printed. -/
inductive Field
  | absent
  | number (value : ℚ)
  | text (value : Text)
  | other
deriving DecidableEq
/-- `??` -/
def Field.orElse : Field → Field → Field
  | .absent, later => later
  | value, _ => value
def numberOrNull (engine : Engine) : Field → Option ℚ
  | .number value => some value
  | .text value => if value.all engine.space then none else engine.number value
  | _ => none
def stringOrNull (engine : Engine) : Field → Option Text
  | .text value => if value.all engine.space then none else some value
  | _ => none
/-- The fields of a trade that the figures read. -/
structure NormalizedTrade where
  pnlCost : Option ℚ
  pnlPercentage : Option ℚ
  closedAt : Option Text
  durationBars : Option ℚ
deriving DecidableEq
structure EquityPoint where
  index : ℚ
  timestamp : Option Text
  equity : ℚ
  pnlCost : ℚ
  drawdownPct : ℚ
deriving DecidableEq

/-- The fields of a point of the runner that the worker reads. -/
structure RawEquityPoint where
  index : Field
  timestamp : Field
  time : Field
  timeMs : Field
  equity : Field
  value : Field

structure BacktestMetrics where
  pnlAbsolute : ℚ
  pnlPercentage : ℚ
  maxDrawdown : ℚ
  tradeCount : Nat
  winRate : Option ℚ
  sharpe : Option ℚ
  sortino : Option ℚ

structure TradeSegmentStats where
  closedTrades : Nat
  winningTrades : Nat
  losingTrades : Nat
  winRate : Option ℚ
  netProfit : ℚ
  grossProfit : ℚ
  grossLoss : ℚ
  profitFactor : Option ℚ
  cagr : Option ℚ
  averagePnl : Option ℚ
  averagePnlPerDay : Option ℚ
  averagePnlPerWeek : Option ℚ
  averageWinningTrade : Option ℚ
  averageLosingTrade : Option ℚ
  largestWinningTrade : Option ℚ
  largestLosingTrade : Option ℚ
  maxDrawdown : ℚ
  maxDrawdownPct : ℚ
  avgTradeDurationBars : Option ℚ
  avgWinningTradeDurationBars : Option ℚ
  avgLosingTradeDurationBars : Option ℚ
  avgTradesPerDay : Option ℚ
  avgTradesPerWeek : Option ℚ
  longestTradeBars : Option ℚ
  shortestTradeBars : Option ℚ
  longestWinningStreak : Nat
  longestLosingStreak : Nat

def drawdownPct (peak equity : ℚ) : ℚ := if peak ≤ 0 then 0 else (peak - equity) / peak * 100
/-- An instant of a point, unless it has no date: then the curve raises. -/
def timestampToIso (engine : Engine) (value : Field) : Option (Option Text) :=
  match numberOrNull engine value with
  | none => some (stringOrNull engine value)
  | some timestamp => (engine.toISOString timestamp).map some

/-- The points from one on, with its position, the equity before it and the peak so far. -/
def normalizeFrom (engine : Engine) (initialCapital : ℚ) : Nat → ℚ → ℚ → List RawEquityPoint → Option (List EquityPoint)
  | _, _, _, [] => some []
  | index, previousEquity, peak, point :: points => do
    let equity := (numberOrNull engine (point.equity.orElse point.value)).getD previousEquity
    let pnlCost := if index = 0 then equity - initialCapital else equity - previousEquity
    let timestamp ← timestampToIso engine ((point.timestamp.orElse point.time).orElse point.timeMs)
    let rest ← normalizeFrom engine initialCapital (index + 1) equity (max peak equity) points
    some ({
      index := (numberOrNull engine point.index).getD index
      timestamp := timestamp
      equity := equity
      pnlCost := engine.roundMetric pnlCost
      drawdownPct := engine.roundMetric (drawdownPct (max peak equity) equity) } :: rest)

def normalizeRunnerEquityCurve (engine : Engine) (points : List RawEquityPoint) (initialCapital : ℚ) :
    Option (List EquityPoint) :=
  normalizeFrom engine initialCapital 0 initialCapital initialCapital points
def curvePnl (initialCapital : ℚ) (trade : NormalizedTrade) : ℚ :=
  trade.pnlCost.getD (match trade.pnlPercentage with
    | none => 0
    | some percentage => initialCapital * (percentage / 100))

/-- The points of the trades from one on, with its position, the equity before it and the peak so far. -/
def curveFrom (initialCapital : ℚ) : Nat → ℚ → ℚ → List NormalizedTrade → List EquityPoint
  | _, _, _, [] => []
  | index, equity, peak, trade :: trades =>
    let pnlCost := curvePnl initialCapital trade
    let after := equity + pnlCost
    { index := index + 1
      timestamp := trade.closedAt
      equity := after
      pnlCost := pnlCost
      drawdownPct := drawdownPct (max peak after) after } ::
        curveFrom initialCapital (index + 1) after (max peak after) trades

def buildEquityCurve (initialCapital : ℚ) (trades : List NormalizedTrade) : List EquityPoint :=
  { index := 0, timestamp := none, equity := initialCapital, pnlCost := 0, drawdownPct := 0 } ::
    curveFrom initialCapital 0 initialCapital initialCapital trades

def ratioMetric (engine : Engine) (values : List ℚ) (downsideOnly : Bool) : Option ℚ :=
  if values.length < 2 then none
  else
    let selected := if downsideOnly then values.filter (· < 0) else values
    if selected.length < 2 then none
    else
      let mean : ℚ := selected.sum / selected.length
      let variance : ℚ := (selected.map fun value => (value - mean) ^ 2).sum / ((selected.length : ℚ) - 1)
      let deviation := engine.sqrt variance
      if deviation = 0 then none else some (engine.roundMetric (mean / deviation))

/-- The curve is not empty: the worker builds one of the trades where the runner has none. -/
def buildMetrics (engine : Engine) (initialCapital : ℚ) (trades : List NormalizedTrade) (equityCurve : List EquityPoint) :
    BacktestMetrics :=
  let pnlAbsolute := ((equityCurve.getLast?).map (·.equity)).getD 0 - initialCapital
  let returns := trades.filterMap (·.pnlPercentage)
  let wins := (returns.filter (0 < ·)).length
  { pnlAbsolute := engine.roundMetric pnlAbsolute
    pnlPercentage := engine.roundMetric (if initialCapital = 0 then 0 else pnlAbsolute / initialCapital * 100)
    maxDrawdown := engine.roundMetric ((equityCurve.map (·.drawdownPct)).foldl max 0)
    tradeCount := trades.length
    winRate := if returns.length = 0 then none else some (engine.roundMetric ((wins : ℚ) / returns.length * 100))
    sharpe := ratioMetric engine returns false
    sortino := ratioMetric engine returns true }

def tradePnl (engine : Engine) (trade : NormalizedTrade) : ℚ := engine.roundMetric (trade.pnlCost.getD 0)
def average (engine : Engine) (values : List ℚ) : Option ℚ :=
  if values.length = 0 then none else some (engine.roundMetric (values.sum / values.length))
def cagrPercent (engine : Engine) (initialCapital netProfit days : ℚ) : Option ℚ :=
  if initialCapital ≤ 0 ∨ days ≤ 0 then none
  else
    let endingCapital := initialCapital + netProfit
    if endingCapital ≤ 0 then none
    else some (engine.roundMetric (engine.power (endingCapital / initialCapital) (365 / days) * 100 - 100))
def streak (holds : ℚ → Bool) : Nat × Nat → ℚ → Nat × Nat
  | (current,longest), value => if holds value then (current + 1,max longest (current + 1)) else (0,longest)
def longestStreak (values : List ℚ) (holds : ℚ → Bool) : Nat := (values.foldl (streak holds) (0,0)).2
structure Drawdown where
  absolute : ℚ
  percentage : ℚ
deriving DecidableEq
def fallen : ℚ × ℚ → ℚ → ℚ × ℚ
  | (peak,maxDrawdown), equity => (max peak equity,max maxDrawdown (max peak equity - equity))
def drawdownOf (engine : Engine) : ℚ × ℚ → Drawdown
  | (peak,maxDrawdown) =>
    ⟨engine.roundMetric maxDrawdown,if peak ≤ 0 then 0 else engine.roundMetric (maxDrawdown / peak * 100)⟩
def equityDrawdown (engine : Engine) (equityCurve : List EquityPoint) (initialCapital : ℚ) : Drawdown :=
  drawdownOf engine (equityCurve.foldl (fun state point => fallen state point.equity) (initialCapital,0))
def traded : ℚ × ℚ × ℚ → ℚ → ℚ × ℚ × ℚ
  | (equity,state), pnl => (equity + pnl,fallen state (equity + pnl))
def tradeDrawdown (engine : Engine) (pnlValues : List ℚ) (initialCapital : ℚ) : Drawdown :=
  drawdownOf engine (pnlValues.foldl traded (initialCapital,initialCapital,0)).2
/-- `Math.max` and `Math.min` of values of which there are some. -/
def largest : List ℚ → Option ℚ
  | [] => none
  | value :: values => some (values.foldl max value)
def smallest : List ℚ → Option ℚ
  | [] => none
  | value :: values => some (values.foldl min value)
def perDays (engine : Engine) (backtestDays value days : ℚ) : Option ℚ :=
  if backtestDays ≤ 0 then none else some (engine.roundMetric (value / (backtestDays / days)))

def tradeSegmentStats (engine : Engine) (trades : List NormalizedTrade) (initialCapital backtestDays : ℚ)
    (equityCurve : Option (List EquityPoint)) : TradeSegmentStats :=
  let pnlValues := trades.map (tradePnl engine)
  let winners := pnlValues.filter (0 < ·)
  let losers := pnlValues.filter (· < 0)
  let grossProfit := engine.roundMetric winners.sum
  let grossLoss := engine.roundMetric |losers.sum|
  let netProfit := engine.roundMetric pnlValues.sum
  let durations := trades.filterMap (·.durationBars)
  let winningDurations := (trades.filter fun trade => 0 < tradePnl engine trade).filterMap (·.durationBars)
  let losingDurations := (trades.filter fun trade => tradePnl engine trade < 0).filterMap (·.durationBars)
  let drawdown := match equityCurve with
    | some (point :: points) => equityDrawdown engine (point :: points) initialCapital
    | _ => tradeDrawdown engine pnlValues initialCapital
  { closedTrades := trades.length
    winningTrades := winners.length
    losingTrades := losers.length
    winRate := if pnlValues.length = 0 then none else some (engine.roundMetric ((winners.length : ℚ) / pnlValues.length * 100))
    netProfit := netProfit
    grossProfit := grossProfit
    grossLoss := grossLoss
    profitFactor := if grossLoss = 0 then none else some (engine.roundMetric (grossProfit / grossLoss))
    cagr := cagrPercent engine initialCapital netProfit backtestDays
    averagePnl := average engine pnlValues
    averagePnlPerDay := perDays engine backtestDays netProfit 1
    averagePnlPerWeek := perDays engine backtestDays netProfit 7
    averageWinningTrade := average engine winners
    averageLosingTrade := average engine losers
    largestWinningTrade := (largest winners).map engine.roundMetric
    largestLosingTrade := (smallest losers).map engine.roundMetric
    maxDrawdown := drawdown.absolute
    maxDrawdownPct := drawdown.percentage
    avgTradeDurationBars := average engine durations
    avgWinningTradeDurationBars := average engine winningDurations
    avgLosingTradeDurationBars := average engine losingDurations
    avgTradesPerDay := perDays engine backtestDays trades.length 1
    avgTradesPerWeek := perDays engine backtestDays trades.length 7
    longestTradeBars := (largest durations).map engine.roundMetric
    shortestTradeBars := (smallest durations).map engine.roundMetric
    longestWinningStreak := longestStreak pnlValues (0 < ·)
    longestLosingStreak := longestStreak pnlValues (· < 0) }
end Codebot.TradeMetrics
