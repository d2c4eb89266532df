import Codebot.Texts

/-!
The config of a backtest preview: the fields that a tool call or a stored plan gives, the defaults under them, and the
reading that every preview goes through, which may be repeated (`normalize_config`, `normalize_userFacing`).
-/
namespace Codebot.BacktestConfigs
open Texts

/-- What the reading takes from its runtime: the tables of Unicode, `float`, and
    `datetime.fromisoformat(value).timestamp()`. -/
structure Runtime extends StableUnicode where
  float : Rat → Option Rat
  timestamp : Text → Option Rat
  float_float : ∀ number double, float number = some double → float double = some double

structure BacktestConfig where
  engine : Text
  exchange : Text
  symbol : Text
  timeframe : Text
  candleTimeframe : Text
  start : Text
  endAt : Text
  initialCapital : Rat
  feeBps : Rat
  slippageBps : Rat
  dataSource : Text
deriving DecidableEq

/-- A config as a dictionary, where fields may be missing. -/
structure ConfigFields where
  engine : Option Text
  exchange : Option Text
  symbol : Option Text
  timeframe : Option Text
  candleTimeframe : Option Text
  start : Option Text
  endAt : Option Text
  initialCapital : Option Rat
  feeBps : Option Rat
  slippageBps : Option Rat
  dataSource : Option Text
deriving DecidableEq

def enginePineforge : Text := text "pineforge"
def backtestEngines : List Text := [enginePineforge]
def ohlcvDefaultExchange : Text := text "binance"
def ohlcvExchanges : List Text := [text "binance",text "bybit",text "okx",text "kraken"]
def executableTimeframes : List Text := [text "1m",text "3m",text "5m",text "15m",text "30m",text "1h"]
def maxCostBps : Rat := 1000
def publicReadonlyCache : Text := text "public-readonly-cache"
def backtestDefaultEngine : Text := enginePineforge

def backtestDefaultConfig : BacktestConfig where
  engine := enginePineforge
  exchange := ohlcvDefaultExchange
  symbol := text "BTC/USDT"
  timeframe := text "1h"
  candleTimeframe := text "1m"
  start := text "2024-01-01"
  endAt := text "2024-12-31"
  initialCapital := 10000
  feeBps := 10
  slippageBps := 5
  dataSource := publicReadonlyCache

/-- The dictionary of a config. -/
def BacktestConfig.fields (c : BacktestConfig) : ConfigFields where
  engine := some c.engine
  exchange := some c.exchange
  symbol := some c.symbol
  timeframe := some c.timeframe
  candleTimeframe := some c.candleTimeframe
  start := some c.start
  endAt := some c.endAt
  initialCapital := some c.initialCapital
  feeBps := some c.feeBps
  slippageBps := some c.slippageBps
  dataSource := some c.dataSource

def userFacingBacktestConfig (c : BacktestConfig) : ConfigFields := { c.fields with engine := none, dataSource := none }

/-- The fields over the defaults. -/
def overDefaults (d : ConfigFields) : BacktestConfig where
  engine := d.engine.getD backtestDefaultConfig.engine
  exchange := d.exchange.getD backtestDefaultConfig.exchange
  symbol := d.symbol.getD backtestDefaultConfig.symbol
  timeframe := d.timeframe.getD backtestDefaultConfig.timeframe
  candleTimeframe := d.candleTimeframe.getD backtestDefaultConfig.candleTimeframe
  start := d.start.getD backtestDefaultConfig.start
  endAt := d.endAt.getD backtestDefaultConfig.endAt
  initialCapital := d.initialCapital.getD backtestDefaultConfig.initialCapital
  feeBps := d.feeBps.getD backtestDefaultConfig.feeBps
  slippageBps := d.slippageBps.getD backtestDefaultConfig.slippageBps
  dataSource := d.dataSource.getD backtestDefaultConfig.dataSource

/-- `value or fallback`. -/
def orElse (value fallback : Text) : Text := if value = [] then fallback else value
/-- The schema of a config. -/
def schemaAccepts (c : BacktestConfig) : Bool :=
  c.engine ∈ backtestEngines && c.exchange ∈ ohlcvExchanges && (1 ≤ c.symbol.length && c.symbol.length ≤ 64) &&
    c.timeframe ∈ executableTimeframes && c.candleTimeframe = text "1m" && 1 ≤ c.start.length &&
    1 ≤ c.endAt.length && 0 < c.initialCapital && (0 ≤ c.feeBps && c.feeBps ≤ maxCostBps) &&
    (0 ≤ c.slippageBps && c.slippageBps ≤ maxCostBps) && c.dataSource = publicReadonlyCache
def parseBacktestDatetime (rt : Runtime) (value : Text) : Option Rat :=
  rt.timestamp (replace ('Z'.toNat) (text "+00:00") value)
/-- The checks after the schema: a printable symbol, and an end after the start. -/
def checksAccept (rt : Runtime) (c : BacktestConfig) : Bool :=
  c.symbol.all (fun character => 32 ≤ character) &&
    match parseBacktestDatetime rt c.start, parseBacktestDatetime rt c.endAt with
    | some start, some endAt => start < endAt
    | _, _ => false

/-- The reading of a config; `enabled` is the environment's switch for the engine. -/
def normalizeBacktestConfig (rt : Runtime) (enabled : Bool) (config : ConfigFields) : Option BacktestConfig :=
  let merged := overDefaults config
  let engine := rt.lower (strip rt.toUnicode (orElse merged.engine backtestDefaultEngine))
  if engine = enginePineforge ∧ enabled = false then none else do
    let initialCapital ← rt.float merged.initialCapital
    let feeBps ← rt.float merged.feeBps
    let slippageBps ← rt.float merged.slippageBps
    let normalized : BacktestConfig :=
      { engine
        exchange := rt.lower (strip rt.toUnicode (orElse merged.exchange ohlcvDefaultExchange))
        symbol := upper rt.toUnicode (strip rt.toUnicode merged.symbol)
        timeframe := rt.lower (strip rt.toUnicode merged.timeframe)
        candleTimeframe := rt.lower (strip rt.toUnicode (orElse merged.candleTimeframe (text "1m")))
        start := strip rt.toUnicode merged.start
        endAt := strip rt.toUnicode merged.endAt
        initialCapital
        feeBps
        slippageBps
        dataSource := publicReadonlyCache }
    if schemaAccepts normalized && checksAccept rt normalized then some normalized else none

/-- A config that its reading does not change. -/
structure Settled (rt : Runtime) (c : BacktestConfig) : Prop where
  symbol : upper rt.toUnicode (strip rt.toUnicode c.symbol) = c.symbol
  start : strip rt.toUnicode c.start = c.start
  endAt : strip rt.toUnicode c.endAt = c.endAt
  initialCapital : rt.float c.initialCapital = some c.initialCapital
  feeBps : rt.float c.feeBps = some c.feeBps
  slippageBps : rt.float c.slippageBps = some c.slippageBps
  schema : schemaAccepts c = true
  checks : checksAccept rt c = true

theorem lower_strip_name (rt : Runtime) {name : Text} (small : ∀ c ∈ name, c < 128)
    (plain : ascii.lower (strip ascii name) = name) : rt.lower (strip rt.toUnicode name) = name := by
  have stripped : ∀ c ∈ strip ascii name, c < 128 := by
    intro c member
    have front := (List.dropWhile_sublist _).subset (List.mem_reverse.mp member)
    exact small c ((List.dropWhile_sublist _).subset (List.mem_reverse.mp front))
  rw [strip_ascii rt.toStableUnicode small,rt.lower_ascii _ stripped,plain]
private theorem engine_kept (rt : Runtime) : rt.lower (strip rt.toUnicode enginePineforge) = enginePineforge :=
  lower_strip_name rt (by decide) (by decide)
private theorem exchange_kept (rt : Runtime) {exchange : Text} (known : exchange ∈ ohlcvExchanges) :
    rt.lower (strip rt.toUnicode (orElse exchange ohlcvDefaultExchange)) = exchange := by
  have plain : ∀ name ∈ ohlcvExchanges, name ≠ [] ∧ (∀ c ∈ name, c < 128) ∧ ascii.lower (strip ascii name) = name := by
    decide
  obtain ⟨named,small,same⟩ := plain exchange known
  rw [orElse,if_neg named]
  exact lower_strip_name rt small same
private theorem timeframe_kept (rt : Runtime) {timeframe : Text} (known : timeframe ∈ executableTimeframes) :
    rt.lower (strip rt.toUnicode timeframe) = timeframe := by
  have plain : ∀ name ∈ executableTimeframes, (∀ c ∈ name, c < 128) ∧ ascii.lower (strip ascii name) = name := by
    decide
  exact lower_strip_name rt (plain timeframe known).1 (plain timeframe known).2
private theorem candle_kept (rt : Runtime) :
    rt.lower (strip rt.toUnicode (orElse (text "1m") (text "1m"))) = text "1m" :=
  lower_strip_name rt (by decide) (by decide)

variable {c : BacktestConfig}
theorem schema_names (accepted : schemaAccepts c = true) :
    c.engine = enginePineforge ∧ c.exchange ∈ ohlcvExchanges ∧ c.timeframe ∈ executableTimeframes ∧
      c.candleTimeframe = text "1m" ∧ c.dataSource = publicReadonlyCache := by
  simp only [schemaAccepts,backtestEngines,Bool.and_eq_true,decide_eq_true_eq,List.mem_singleton] at accepted
  obtain ⟨⟨⟨⟨⟨⟨⟨⟨⟨⟨engine,exchange⟩,-⟩,timeframe⟩,candle⟩,-⟩,-⟩,-⟩,-⟩,-⟩,source⟩ := accepted
  exact ⟨engine,exchange,timeframe,candle,source⟩

variable {config : ConfigFields} {enabled : Bool} {rt : Runtime}

theorem settled_normalize
    (read : normalizeBacktestConfig rt enabled config = some c) : enabled = true ∧ Settled rt c := by
  simp only [normalizeBacktestConfig] at read
  split at read
  · cases read
  · rename_i switched
    obtain ⟨capital,isCapital,read⟩ := Option.bind_eq_some_iff.mp read
    obtain ⟨fee,isFee,read⟩ := Option.bind_eq_some_iff.mp read
    obtain ⟨slippage,isSlippage,read⟩ := Option.bind_eq_some_iff.mp read
    split at read
    · rename_i accepted
      rw [Bool.and_eq_true] at accepted
      have engine := (schema_names accepted.1).1
      cases read
      refine ⟨?_,?_⟩
      · cases enabled with
        | true => rfl
        | false => exact absurd ⟨engine,rfl⟩ switched
      · exact ⟨upper_strip rt.toStableUnicode _,strip_strip _ _,strip_strip _ _,rt.float_float _ _ isCapital,
          rt.float_float _ _ isFee,rt.float_float _ _ isSlippage,accepted.1,accepted.2⟩
    · cases read

theorem normalize_settled (settled : Settled rt c)
    (same : ∃ source, overDefaults config = { c with dataSource := source }) :
    normalizeBacktestConfig rt true config = some c := by
  obtain ⟨source,merged⟩ := same
  obtain ⟨engine,exchange,timeframe,candle,source⟩ := schema_names settled.schema
  have engineKept : rt.lower (strip rt.toUnicode (orElse c.engine backtestDefaultEngine)) = c.engine := by
    rw [engine]
    exact engine_kept rt
  have candleKept : rt.lower (strip rt.toUnicode (orElse c.candleTimeframe (text "1m"))) = c.candleTimeframe := by
    rw [candle]
    exact candle_kept rt
  simp only [normalizeBacktestConfig,merged,engineKept,candleKept,exchange_kept rt exchange,
    timeframe_kept rt timeframe,settled.symbol,settled.start,settled.endAt,settled.initialCapital,settled.feeBps,
    settled.slippageBps,← source]
  simp [settled.schema,settled.checks]

/-- A config that was read is read as it is. -/
theorem normalize_config (read : normalizeBacktestConfig rt enabled config = some c) (again : Bool) :
    normalizeBacktestConfig rt again c.fields = if again then some c else none := by
  have settled := (settled_normalize read).2
  cases again with
  | true => exact normalize_settled settled ⟨c.dataSource,rfl⟩
  | false =>
    rcases Option.eq_none_or_eq_some (normalizeBacktestConfig rt false c.fields) with none | ⟨other,some⟩
    · exact none
    · cases (settled_normalize some).1

/-- A config that was read is read back from the fields that the user is shown. -/
theorem normalize_userFacing (read : normalizeBacktestConfig rt enabled config = some c) (again : Bool) :
    normalizeBacktestConfig rt again (userFacingBacktestConfig c) = if again then some c else none := by
  have settled := (settled_normalize read).2
  cases again with
  | true =>
    have engine := (schema_names settled.schema).1
    refine normalize_settled settled ⟨publicReadonlyCache,?_⟩
    simp [overDefaults,userFacingBacktestConfig,BacktestConfig.fields,backtestDefaultConfig,← engine]
  | false =>
    rcases Option.eq_none_or_eq_some (normalizeBacktestConfig rt false (userFacingBacktestConfig c)) with none | ⟨other,some⟩
    · exact none
    · cases (settled_normalize some).1

end Codebot.BacktestConfigs
