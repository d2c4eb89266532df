import Codebot.BacktestConfigs
import Codebot.Dates

/-!
One config for the server and the worker. The server reads a config before it queues a backtest
(`normalizeBacktestConfig`), the worker reads the config of the job once more (`normalizedConfig`).
A queued config is read alike exactly if it is `Shared` (`configs_agree_iff`).
-/
namespace Codebot.WorkerConfigs
open Texts List Timeframes BacktestConfigs Dates

/-- The white space of `str.strip`. -/
def pythonSpace (c : Nat) : Bool :=
  (9 ≤ c && c ≤ 13) || (28 ≤ c && c ≤ 32) || c ∈ [0x85,0xA0,0x1680,0x2028,0x2029,0x202F,0x205F,0x3000] ||
    (0x2000 ≤ c && c ≤ 0x200A)

/-- The two processes: the tables of Unicode, their time zone, the nearest doubles, and the dates that only the engine
    reads. -/
structure Processes where
  unicode : StableUnicode
  space : ∀ c, unicode.space c = pythonSpace c
  float : Rat → Option Rat
  float_float : ∀ number double, float number = some double → float double = some double
  zone : Zone
  double : Int → Rat
  double_mono : ∀ first second, first ≤ second → double first ≤ double second
  otherDate : Text → Option Int

/-- The server's part of them. -/
def Processes.runtime (processes : Processes) : Runtime where
  toStableUnicode := processes.unicode
  float := processes.float
  timestamp value := ((fromisoformat value).bind (Datetime.timestamp processes.zone)).map processes.double
  float_float := processes.float_float
def maxCandlesPerJob : Int := 1578240

/-- The errors of `normalizedConfig` but those for numbers that are not finite, which no queued
    config has. -/
inductive ConfigError
  | symbol
  | timeframe (timeframe : Text)
  | candleTimeframe (timeframe : Text)
  | initialCapital
  | feeBps
  | slippageBps
  | start (value : Text)
  | endAt (value : Text)
  | order
  | candleLimit (estimated : Int)
  | exchange (requested : Text)
deriving DecidableEq

def ConfigError.message : ConfigError → Text
  | .symbol => text "Invalid backtest symbol"
  | .timeframe value => text "Unsupported backtest timeframe for semantic preview: " ++ value
  | .candleTimeframe value => text "Unsupported backtest candle_timeframe for semantic preview: " ++ value
  | .initialCapital => text "Invalid backtest initial_capital: must be positive"
  | .feeBps => text "Invalid backtest fee_bps: must be between 0 and 1000"
  | .slippageBps => text "Invalid backtest slippage_bps: must be between 0 and 1000"
  | .start value => text "Invalid backtest start date: " ++ value
  | .endAt value => text "Invalid backtest end date: " ++ value
  | .order => text "Backtest end must be after start"
  | .candleLimit estimated =>
    text "Backtest candle limit exceeded: " ++ text (toString estimated) ++ text " > " ++ text (toString maxCandlesPerJob)
  | .exchange requested =>
    text "Unsupported backtest exchange: " ++ requested ++ text ". Allowed exchanges: " ++ join (text ", ") ohlcvExchanges

/-- The config that the worker runs. Its dates are instants in milliseconds. -/
structure WorkerConfig where
  engine : Text
  exchange : Text
  symbol : Text
  timeframe : Text
  candleTimeframe : Text
  start : Int
  endAt : Int
  initialCapital : Rat
  feeBps : Rat
  slippageBps : Rat
  dataSource : Text
deriving DecidableEq

section
variable (processes : Processes)

def normalizeExchange (value : Text) : Option Text :=
  let normalized := processes.unicode.lower (trim value)
  if ohlcvExchanges.contains normalized then some normalized else none
def configExchange (config : BacktestConfig) : Option Text :=
  if trim config.exchange = [] then some ohlcvDefaultExchange else normalizeExchange processes config.exchange
/-- `Math.ceil((end - start) / timeframeToMs(candleTimeframe))`. -/
def estimatedCandles (candleTimeframe : Text) (start endAt : Int) : Int :=
  (endAt - start + timeframeToMs candleTimeframe - 1) / timeframeToMs candleTimeframe

def normalizedConfig (config : BacktestConfig) : Except ConfigError WorkerConfig :=
  let symbol := upper processes.unicode.toUnicode (trim config.symbol)
  let timeframe := normalizeTimeframe config.timeframe
  let candleTimeframe := normalizeTimeframe config.candleTimeframe
  if symbol = [] ∨ symbol.any (· < 32) then .error .symbol
  else if !executableTimeframes.contains timeframe then .error (.timeframe timeframe)
  else if candleTimeframe ≠ text "1m" then .error (.candleTimeframe candleTimeframe)
  else if config.initialCapital ≤ 0 then .error .initialCapital
  else if config.feeBps < 0 ∨ maxCostBps < config.feeBps then .error .feeBps
  else if config.slippageBps < 0 ∨ maxCostBps < config.slippageBps then .error .slippageBps
  else
    match dateParse processes.zone processes.otherDate config.start,dateParse processes.zone processes.otherDate config.endAt with
    | none,_ => .error (.start config.start)
    | some _,none => .error (.endAt config.endAt)
    | some start,some endAt =>
      if endAt ≤ start then .error .order
      else if maxCandlesPerJob < estimatedCandles candleTimeframe start endAt then
        .error (.candleLimit (estimatedCandles candleTimeframe start endAt))
      else
        match configExchange processes config with
        | none => .error (.exchange config.exchange)
        | some exchange =>
          .ok { engine := config.engine
                exchange
                symbol
                timeframe
                candleTimeframe
                start
                endAt
                initialCapital := config.initialCapital
                feeBps := config.feeBps
                slippageBps := config.slippageBps
                dataSource := config.dataSource }

/-- The worker accepts a config and reads the same from it as the server. -/
def Agrees (config : BacktestConfig) : Prop :=
  ∃ read, normalizedConfig processes config = .ok read ∧
    instant processes.zone config.start = some (read.start * 1000) ∧
    instant processes.zone config.endAt = some (read.endAt * 1000) ∧ read.symbol = config.symbol ∧
    read.exchange = config.exchange ∧ read.timeframe = config.timeframe ∧ read.candleTimeframe = config.candleTimeframe
/-- The byte order mark is white space for `trim` only. -/
def byteOrderMark : Nat := 0xFEFF

/-- No byte order mark ends the symbol, both read the dates alike, and the interval has no more minutes than a job may
    have candles. -/
structure Shared (config : BacktestConfig) : Prop where
  head : config.symbol.head? ≠ some byteOrderMark
  last : config.symbol.getLast? ≠ some byteOrderMark
  start : SameDate processes.zone processes.otherDate config.start
  endAt : SameDate processes.zone processes.otherDate config.endAt
  range : ∀ start ∈ instant processes.zone config.start, ∀ endAt ∈ instant processes.zone config.endAt,
    endAt - start ≤ maxCandlesPerJob * 60000000
end

variable {processes : Processes} {config : BacktestConfig}
theorem trimmed_space {c : Nat} (space : trimmed c = true) : pythonSpace c = true ∨ c = byteOrderMark := by
  simp only [trimmed,pythonSpace,byteOrderMark,Bool.or_eq_true,Bool.and_eq_true,decide_eq_true_eq,mem_cons,
    not_mem_nil,or_false] at space ⊢
  omega

theorem upper_length (unicode : StableUnicode) (t : Text) : t.length ≤ (upper unicode.toUnicode t).length := by
  induction t with
  | nil => exact Nat.zero_le _
  | cons c t ih =>
    have positive := length_pos_iff.mpr (unicode.upper_some c)
    rw [upper,flatMap_cons,length_append,length_cons]
    rw [upper] at ih
    omega

theorem upper_fixed {unicode : StableUnicode} {t : Text} (fixed : upper unicode.toUnicode t = t) :
    ∀ c ∈ t, unicode.upper c = [c] := by
  induction t with
  | nil => exact fun c member => absurd member not_mem_nil
  | cons c t ih =>
    have split : unicode.upper c ++ upper unicode.toUnicode t = c :: t := by
      rw [upper,flatMap_cons] at fixed
      exact fixed
    have longer := upper_length unicode t
    have lengths := congrArg List.length split
    rw [length_append,length_cons] at lengths
    have positive := length_pos_iff.mpr (unicode.upper_some c)
    obtain ⟨d,isOne⟩ := length_eq_one_iff.mp (show (unicode.upper c).length = 1 by omega)
    rw [isOne,singleton_append] at split
    obtain ⟨rfl,later⟩ := List.cons.inj split
    intro other member
    rcases mem_cons.mp member with rfl | member
    · exact isOne
    · exact ih later other member

theorem symbol_kept_iff (settled : Settled processes.runtime config) :
    upper processes.unicode.toUnicode (trim config.symbol) = config.symbol ↔
      config.symbol.head? ≠ some byteOrderMark ∧ config.symbol.getLast? ≠ some byteOrderMark := by
  have python : Trimmed processes.unicode.toUnicode config.symbol := by
    have stripped := trimmed_upper (trimmed_strip processes.unicode.toUnicode config.symbol)
    rw [show upper processes.unicode.toUnicode (strip processes.unicode.toUnicode config.symbol) = config.symbol from
      settled.symbol] at stripped
    exact stripped
  have fixed : upper processes.unicode.toUnicode config.symbol = config.symbol := by
    have again := settled.symbol
    change upper processes.unicode.toUnicode (strip processes.unicode.toUnicode config.symbol) = config.symbol at again
    rw [strip_trimmed python] at again
    exact again
  constructor
  · intro kept
    have among : ∀ c ∈ trim config.symbol, c ∈ config.symbol := by
      intro c member
      have front := (dropWhile_sublist _).subset (mem_reverse.mp member)
      exact (dropWhile_sublist _).subset (mem_reverse.mp front)
    have same : upper processes.unicode.toUnicode (trim config.symbol) = trim config.symbol := by
      have each := upper_fixed fixed
      have flat : ∀ t : Text, (∀ c ∈ t, processes.unicode.upper c = [c]) → t.flatMap processes.unicode.upper = t := by
        intro t single
        induction t with
        | nil => rfl
        | cons c t ih =>
          rw [flatMap_cons,single c mem_cons_self,ih fun d member => single d (mem_cons_of_mem c member)]
          rfl
      exact flat _ fun c member => each c (among c member)
    have ends := trimmed_strip { ascii with space := trimmed } config.symbol
    rw [show strip { ascii with space := trimmed } config.symbol = config.symbol from same.symm.trans kept] at ends
    exact ⟨fun head => absurd (ends.1 _ head) (by decide),fun last => absurd (ends.2 _ last) (by decide)⟩
  · rintro ⟨head,last⟩
    have kept : trim config.symbol = config.symbol := by
      apply strip_trimmed
      refine ⟨?_,?_⟩
      · intro c isHead
        by_contra space
        rcases trimmed_space (Bool.of_not_eq_false space) with isSpace | rfl
        · have notSpace := python.1 c isHead
          rw [processes.space,isSpace] at notSpace
          cases notSpace
        · exact head isHead
      · intro c isLast
        by_contra space
        rcases trimmed_space (Bool.of_not_eq_false space) with isSpace | rfl
        · have notSpace := python.2 c isLast
          rw [processes.space,isSpace] at notSpace
          cases notSpace
        · exact last isLast
    rw [kept]
    exact fixed

theorem timeframe_kept {timeframe : Text} (known : timeframe ∈ executableTimeframes) : normalizeTimeframe timeframe = timeframe := by
  have each : ∀ name ∈ executableTimeframes, normalizeTimeframe name = name := by decide
  exact each timeframe known

theorem exchange_kept (known : config.exchange ∈ ohlcvExchanges) : configExchange processes config = some config.exchange := by
  have each : ∀ name ∈ ohlcvExchanges, trim name = name ∧ name ≠ [] ∧ (∀ c ∈ name, c < 128) ∧ ascii.lower name = name := by
    decide
  obtain ⟨isTrimmed,named,small,isLower⟩ := each config.exchange known
  have normalized : processes.unicode.lower (trim config.exchange) = config.exchange := by
    rw [isTrimmed,processes.unicode.lower_ascii _ small,isLower]
  rw [configExchange,if_neg (by rw [isTrimmed]; exact named),normalizeExchange]
  simp only [normalized,contains_iff_mem.mpr known,if_true]

theorem timeframeToMs_minute : timeframeToMs (text "1m") = 60000 := by decide

theorem normalizedConfig_settled (settled : Settled processes.runtime config) :
    normalizedConfig processes config =
      if upper processes.unicode.toUnicode (trim config.symbol) = [] ∨
          (upper processes.unicode.toUnicode (trim config.symbol)).any (· < 32) then .error .symbol
      else
        match dateParse processes.zone processes.otherDate config.start,
            dateParse processes.zone processes.otherDate config.endAt with
        | none,_ => .error (.start config.start)
        | some _,none => .error (.endAt config.endAt)
        | some start,some endAt =>
          if endAt ≤ start then .error .order
          else if maxCandlesPerJob < estimatedCandles (text "1m") start endAt then
            .error (.candleLimit (estimatedCandles (text "1m") start endAt))
          else
            .ok ⟨config.engine,config.exchange,upper processes.unicode.toUnicode (trim config.symbol),config.timeframe,
              text "1m",start,endAt,config.initialCapital,config.feeBps,config.slippageBps,config.dataSource⟩ := by
  obtain ⟨_,exchange,timeframe,candle,_⟩ := schema_names settled.schema
  have numbers := settled.schema
  simp only [schemaAccepts,Bool.and_eq_true,decide_eq_true_eq] at numbers
  obtain ⟨⟨⟨⟨⟨⟨⟨⟨⟨⟨-,-⟩,-⟩,-⟩,-⟩,-⟩,-⟩,capital⟩,fee⟩,slippage⟩,-⟩ := numbers
  have isMinute : normalizeTimeframe (text "1m") = text "1m" := by decide
  simp only [normalizedConfig,timeframe_kept timeframe,candle,isMinute,exchange_kept exchange,
    contains_iff_mem.mpr timeframe,Bool.not_true,Bool.false_eq_true,not_true,ne_eq,if_false,not_le.mpr capital,not_lt.mpr fee.1,not_lt.mpr fee.2,not_lt.mpr slippage.1,not_lt.mpr slippage.2,or_self]

theorem instants_some (settled : Settled processes.runtime config) :
    ∃ start endAt, instant processes.zone config.start = some start ∧ instant processes.zone config.endAt = some endAt ∧
      start < endAt := by
  have checks := settled.checks
  have reads : ∀ value, parseBacktestDatetime processes.runtime value =
      (instant processes.zone value).map processes.double := fun value => rfl
  simp only [checksAccept,reads,Bool.and_eq_true] at checks
  cases isStart : instant processes.zone config.start with
  | none => simp [isStart] at checks
  | some start =>
    cases isEnd : instant processes.zone config.endAt with
    | none => simp [isStart,isEnd] at checks
    | some endAt =>
      simp only [isStart,isEnd,Option.map_some,decide_eq_true_eq] at checks
      refine ⟨start,endAt,rfl,rfl,?_⟩
      by_contra late
      exact absurd checks.2 (not_lt.mpr (processes.double_mono _ _ (not_lt.mp late)))

theorem estimatedCandles_le {start endAt : Int} :
    ¬maxCandlesPerJob < estimatedCandles (text "1m") start endAt ↔
      endAt * 1000 - start * 1000 ≤ maxCandlesPerJob * 60000000 := by
  rw [estimatedCandles,timeframeToMs_minute,maxCandlesPerJob]
  omega

theorem symbol_proper (settled : Settled processes.runtime config) :
    ¬(config.symbol = [] ∨ config.symbol.any (· < 32)) := by
  have long := settled.schema
  have printable := settled.checks
  simp only [schemaAccepts,Bool.and_eq_true,decide_eq_true_eq] at long
  simp only [checksAccept,Bool.and_eq_true,all_eq_true,decide_eq_true_eq] at printable
  obtain ⟨⟨⟨⟨⟨⟨⟨⟨⟨⟨-,-⟩,nonempty⟩,-⟩,-⟩,-⟩,-⟩,-⟩,-⟩,-⟩,-⟩ := long
  rintro (nothing | control)
  · rw [nothing] at nonempty
    exact absurd nonempty.1 (by decide)
  · obtain ⟨c,member,small⟩ := any_eq_true.mp control
    exact absurd (printable.1 c member) (by simpa using small)

/-- The worker takes a queued config and reads the same from it as the server exactly if the config
    is shared. -/
theorem configs_agree_iff (processes : Processes) {enabled : Bool} {fields : ConfigFields} {config : BacktestConfig}
    (queued : normalizeBacktestConfig processes.runtime enabled fields = some config) :
    Agrees processes config ↔ Shared processes config := by
  have settled := (settled_normalize queued).2
  obtain ⟨start,endAt,isStart,isEnd,before⟩ := instants_some settled
  have startAgrees := instants_agree_iff processes.otherDate isStart
  have endAgrees := instants_agree_iff processes.otherDate isEnd
  obtain ⟨_,_,_,candle,_⟩ := schema_names settled.schema
  constructor
  · rintro ⟨read,isRead,startSame,endSame,symbolSame,-,-,-⟩
    rw [isStart] at startSame
    rw [isEnd] at endSame
    rw [normalizedConfig_settled settled] at isRead
    split at isRead
    · cases isRead
    · split at isRead
      · cases isRead
      · cases isRead
      · rename_i workerStart workerEnd readStart readEnd
        split at isRead
        · cases isRead
        · split at isRead
          · cases isRead
          · rename_i enough
            cases isRead
            obtain ⟨head,last⟩ := (symbol_kept_iff settled).mp symbolSame
            have isFirst := Option.some.inj startSame
            have isLast := Option.some.inj endSame
            refine ⟨head,last,startAgrees.mp ⟨_,readStart,isFirst⟩,endAgrees.mp ⟨_,readEnd,isLast⟩,?_⟩
            rw [isStart,isEnd,isFirst,isLast]
            rintro _ ⟨⟩ _ ⟨⟩
            exact estimatedCandles_le.mp enough
  · intro shared
    obtain ⟨workerStart,readStart,rfl⟩ := startAgrees.mpr shared.start
    obtain ⟨workerEnd,readEnd,rfl⟩ := endAgrees.mpr shared.endAt
    have kept := (symbol_kept_iff settled).mpr ⟨shared.head,shared.last⟩
    have enough := estimatedCandles_le.mpr (shared.range _ isStart _ isEnd)
    have ordered : ¬workerEnd ≤ workerStart := by omega
    refine ⟨⟨config.engine,config.exchange,config.symbol,config.timeframe,text "1m",workerStart,workerEnd,
      config.initialCapital,config.feeBps,config.slippageBps,config.dataSource⟩,?_,isStart,isEnd,rfl,rfl,rfl,candle.symm⟩
    rw [normalizedConfig_settled settled,kept,if_neg (symbol_proper settled),readStart,readEnd]
    dsimp only
    rw [if_neg ordered,if_neg enough]

/-- The ASCII tables with all the white space of Python. -/
def spacedAscii : StableUnicode where
  toUnicode := { ascii with space := pythonSpace }
  upper_ascii := stableAscii.upper_ascii
  lower_ascii := stableAscii.lower_ascii
  space_ascii c small := by
    have few : ∀ c < 128, pythonSpace c = ascii.space c := by decide
    exact few c small
  upper_upper := stableAscii.upper_upper
  upper_some := stableAscii.upper_some
  upper_space c d upper := by
    have either : d = if asciiLower c then c - 32 else c := by simpa [ascii] using upper
    by_cases lower : asciiLower c
    · have bounds : 97 ≤ c ∧ c ≤ 122 := by simpa [asciiLower,between] using lower
      have few : ∀ c < 123, 97 ≤ c → pythonSpace (c - 32) = pythonSpace c := by decide
      rw [either,if_pos lower]
      exact few c (by omega) bounds.1
    · simp [either,lower]

theorem doubles_kept (number double : Rat) (_ : some number = some double) : some double = some double := rfl

/-- Processes in a zone of one offset. The engine reads no other dates. -/
def processesAt (offset : Int) (within : -86400 < offset ∧ offset < 86400) : Processes where
  unicode := spacedAscii
  space _ := rfl
  float := some
  float_float := doubles_kept
  zone := ⟨fun _ => offset,fun _ => true,fun _ => within⟩
  double micros := micros
  double_mono _ _ le := Int.cast_le.mpr le
  otherDate _ := none

def atUtc : Processes := processesAt 0 (by decide)
def sevenHoursAhead : Processes := processesAt 25200 (by decide)
def fiveYears : BacktestConfig := { backtestDefaultConfig with start := text "2020-01-01" }

/-- At UTC the default config is shared. -/
theorem configs_agree_sample :
    normalizeBacktestConfig atUtc.runtime true backtestDefaultConfig.fields = some backtestDefaultConfig ∧
      Agrees atUtc backtestDefaultConfig := by
  have queued : normalizeBacktestConfig atUtc.runtime true backtestDefaultConfig.fields = some backtestDefaultConfig := by
    decide +kernel
  refine ⟨queued,(configs_agree_iff atUtc queued).mpr ?_⟩
  have isStart : instant atUtc.zone backtestDefaultConfig.start = some 1704067200000000 := by decide +kernel
  have isEnd : instant atUtc.zone backtestDefaultConfig.endAt = some 1735603200000000 := by decide +kernel
  have startForm : isoForm backtestDefaultConfig.start = some ⟨2024,1,1,none⟩ := by decide +kernel
  have endForm : isoForm backtestDefaultConfig.endAt = some ⟨2024,12,31,none⟩ := by decide +kernel
  refine ⟨by decide,by decide,?_,?_,?_⟩
  · simp only [SameDate,startForm]
    rfl
  · simp only [SameDate,endForm]
    rfl
  · rw [isStart,isEnd]
    rintro _ ⟨⟩ _ ⟨⟩
    decide

/-- Seven hours ahead of UTC, the worker begins seven hours after the start that was approved. At
    UTC, the worker refuses five years that the server queued. -/
theorem queued_configs_differ :
    (normalizeBacktestConfig sevenHoursAhead.runtime true backtestDefaultConfig.fields = some backtestDefaultConfig ∧
      instant sevenHoursAhead.zone backtestDefaultConfig.start = some 1704042000000000 ∧
      dateParse sevenHoursAhead.zone sevenHoursAhead.otherDate backtestDefaultConfig.start = some 1704067200000 ∧
      ¬Agrees sevenHoursAhead backtestDefaultConfig) ∧
    normalizeBacktestConfig atUtc.runtime true fiveYears.fields = some fiveYears ∧
      normalizedConfig atUtc fiveYears = .error (.candleLimit 2629440) ∧ ¬Agrees atUtc fiveYears := by
  have server : instant sevenHoursAhead.zone backtestDefaultConfig.start = some 1704042000000000 := by decide +kernel
  have worker : dateParse sevenHoursAhead.zone sevenHoursAhead.otherDate backtestDefaultConfig.start = some 1704067200000 := by
    decide +kernel
  have run : (normalizedConfig sevenHoursAhead backtestDefaultConfig).toOption.map (·.start) = some 1704067200000 := by
    decide +kernel
  have refused : normalizedConfig atUtc fiveYears = .error (.candleLimit 2629440) := by decide +kernel
  refine ⟨⟨by decide +kernel,server,worker,?_⟩,by decide +kernel,refused,?_⟩
  · rintro ⟨read,isRead,isStart,-⟩
    rw [isRead] at run
    rw [server] at isStart
    simp only [Except.toOption,Option.map_some,Option.some.injEq] at run isStart
    omega
  · rintro ⟨read,isRead,-⟩
    rw [refused] at isRead
    cases isRead

end Codebot.WorkerConfigs
