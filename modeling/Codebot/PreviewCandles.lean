import Codebot.CachedSegments
import Codebot.FeedQuality
import Codebot.WorkerConfigs

/-!
The candles that a preview hands to the runner. The worker asks the cache for as many steps as the range of the config
has, from its start on, so that the last step may lie past the end; what the cache returns is not checked against the
end (`no_look_past_end_iff`).
-/
namespace Codebot.PreviewCandles
open Texts Timeframes Series CandleFetches CandleCache BacktestConfigs List WorkerConfigs
open FeedQuality (OhlcvQualityReport scan accepted_counts scan_whole)

/-- `BACKTEST_WORKER_CANDLE_CACHE_VERSION`. -/
inductive CacheVersion
  | chunkV1
  | rangeV2
deriving DecidableEq

/-- What the name of a chunk is made of. -/
structure ChunkKey where
  exchange : Text
  symbol : Text
  exchangeSymbol : Text
  timeframe : Text
  rangeStart : Int
  rangeEnd : Int
  since : Int
  limit : Int
deriving DecidableEq

/-- The two caches on the disk of the worker. -/
structure Cache (Price : Type) where
  ranges : Store Price
  chunk : ChunkKey → File Price
structure Worker (Price : Type) extends Settings Price where
  chunkTooLarge : ChunkKey → List (Candle Price) → Bool
  gapWarnRatio : ℚ
  maxBars : Nat

variable {Price : Type}
variable {candles : List (Candle Price)}
theorem slice_within {startMs endMs : Int} {candle : Candle Price}
    (listed : candle ∈ sliceAndDedupeCandles candles startMs endMs) : startMs ≤ candle.timestamp ∧ candle.timestamp < endMs :=
  (mem_within.mp (mem_series listed)).2

variable [LinearOrder Price]
/-- What `preloadExecutionCandles` asks the cache for. -/
def preloadRequest (config : WorkerConfig) (exchangeSymbol : Text) : Request where
  symbol := config.symbol
  dataset := ⟨config.exchange,exchangeSymbol,config.candleTimeframe⟩
  since := config.start
  limit := estimatedCandles config.candleTimeframe config.start config.endAt
def chunkKey (config : WorkerConfig) (request : Request) : ChunkKey :=
  ⟨config.exchange,config.symbol,request.dataset.exchangeSymbol,request.dataset.timeframe,config.start,config.endAt,
    request.since,request.limit⟩

/-- `getOrFillPublicCandleCacheV1`: the candles, or `none` where it raises. -/
def getOrFillPublicCandleCacheV1 (worker : Worker Price) (provider : Provider Price) (cache : Cache Price) (key : ChunkKey)
    (request : Request) : Option (List (Candle Price)) :=
  match cache.chunk key with
  | .candles candles => some candles
  | .fieldless => none
  | .missing | .unparsable | .other =>
    let candles := fetchPublicCandles provider worker.maxCandlesPerFetch request.dataset request.stepMs request.since
      request.limit.toNat
    if worker.chunkTooLarge key candles then none else some candles

def preloadExecutionCandles (worker : Worker Price) (version : CacheVersion) (provider : Provider Price) (cache : Cache Price)
    (config : WorkerConfig) (exchangeSymbol : Text) : Option (List (Candle Price)) :=
  let request := preloadRequest config exchangeSymbol
  match version with
  | .chunkV1 => getOrFillPublicCandleCacheV1 worker provider cache (chunkKey config request) request
  | .rangeV2 => (getOrFillPublicCandleCacheV2 worker.toSettings provider cache.ranges request).2

/-- The candles of the preview that the runner is given, unless the preview fails before. -/
def runnerCandles (worker : Worker Price) (version : CacheVersion) (provider : Provider Price) (cache : Cache Price)
    (config : WorkerConfig) (exchangeSymbol : Text) : Option (List (Candle Price)) :=
  match preloadExecutionCandles worker version provider cache config exchangeSymbol with
  | none => none
  | some candles =>
    match FeedQuality.validateOhlcvFeed worker.gapWarnRatio candles config.candleTimeframe config.start config.endAt with
    | .error _ => none
    | .ok _ => if worker.maxBars < candles.length then none else some candles

variable (Price) in
/-- Whatever is cached, the runner is given candles of the range of the config only. -/
def NoLookPastEnd (version : CacheVersion) (config : WorkerConfig) : Prop :=
  ∀ (worker : Worker Price) (provider : Provider Price) (cache : Cache Price) (exchangeSymbol : Text) (candles : List (Candle Price)),
    runnerCandles worker version provider cache config exchangeSymbol = some candles →
      ∀ candle ∈ candles, config.start ≤ candle.timestamp ∧ candle.timestamp < config.endAt
def EndsInTime (config : WorkerConfig) : Prop :=
  config.start % 60000 = 0 ∨ 0 < config.endAt % 60000 ∧ config.endAt % 60000 ≤ config.start % 60000
instance (config : WorkerConfig) : Decidable (EndsInTime config) := inferInstanceAs (Decidable (_ ∨ _))

variable {coverage : RangeCoverageResult Price} {store : Store Price}

theorem coverage_within {dataset : Dataset} {stepMs : Nat} {requested : Span Int} (read : readRangeCacheCoverage store dataset stepMs requested = some coverage) :
    ∀ candle ∈ coverage.candles, requested.first ≤ candle.timestamp ∧ candle.timestamp < requested.last := by
  unfold readRangeCacheCoverage at read
  split at read
  · cases read
    simp
  · obtain ⟨reads,_,rfl⟩ := Option.map_eq_some_iff.mp read
    exact fun candle => slice_within

variable {provider : Provider Price} {request : Request} {settings : Settings Price}

theorem fill_within
    (filled : (fetchAndStoreMissingRangeSegments settings provider store request coverage).2 = some candles) :
    ∀ candle ∈ candles, request.requested.first ≤ candle.timestamp ∧ candle.timestamp < request.requested.last := by
  unfold fetchAndStoreMissingRangeSegments at filled
  split at filled
  · cases filled
  · split at filled
    · cases filled
    · cases filled
      exact fun candle => slice_within

theorem cache_within (given : (getOrFillPublicCandleCacheV2 settings provider store request).2 = some candles) :
    ∀ candle ∈ candles, request.requested.first ≤ candle.timestamp ∧ candle.timestamp < request.requested.last := by
  unfold getOrFillPublicCandleCacheV2 at given
  split at given
  · cases given
  · rename_i existing isExisting
    split at given
    · cases given
      exact coverage_within isExisting
    · split at given
      · cases given
      · rename_i winner isWinner
        split at given
        · cases given
          cases isWinner
          exact coverage_within isExisting
        · exact fill_within given

theorem minute : timeframeToMs (text "1m") = 60000 := by decide +kernel

variable {config : WorkerConfig}

theorem normalized_range {processes : Processes} {source : BacktestConfig}
    (normalized : normalizedConfig processes source = .ok config) :
    config.candleTimeframe = text "1m" ∧ config.start < config.endAt := by
  unfold normalizedConfig at normalized
  dsimp only at normalized
  split_ifs at normalized
  rename_i isMinute _ _ _
  split at normalized
  · cases normalized
  · cases normalized
  · split_ifs at normalized
    rename_i order _
    split at normalized
    · cases normalized
    · cases normalized
      exact ⟨not_not.mp isMinute,not_le.mp order⟩

theorem requested_range (isMinute : config.candleTimeframe = text "1m")
    (order : config.start < config.endAt) (exchangeSymbol : Text) :
    (preloadRequest config exchangeSymbol).stepMs = 60000 ∧
      (preloadRequest config exchangeSymbol).limit = (config.endAt - config.start + 59999) / 60000 ∧
      (preloadRequest config exchangeSymbol).requested.first = config.start ∧
      (preloadRequest config exchangeSymbol).requested.last =
        config.start + (config.endAt - config.start + 59999) / 60000 * 60000 := by
  have step : (preloadRequest config exchangeSymbol).stepMs = 60000 := by
    rw [Request.stepMs,preloadRequest,isMinute,minute]
  have limit : (preloadRequest config exchangeSymbol).limit = (config.endAt - config.start + 59999) / 60000 := by
    change estimatedCandles config.candleTimeframe config.start config.endAt = _
    rw [isMinute,estimatedCandles,minute]
    omega
  refine ⟨step,limit,rfl,?_⟩
  rw [Request.requested,step,limit]
  have first : (preloadRequest config exchangeSymbol).since = config.start := rfl
  rw [first]
  push_cast
  omega

theorem runner_within {worker : Worker Price} {cache : Cache Price}
    {exchangeSymbol : Text} (isMinute : config.candleTimeframe = text "1m") (order : config.start < config.endAt)
    (given : runnerCandles worker .rangeV2 provider cache config exchangeSymbol = some candles) :
    ∀ candle ∈ candles, candle.timestamp % 60000 = 0 ∧ config.start ≤ candle.timestamp ∧
      candle.timestamp < config.start + (config.endAt - config.start + 59999) / 60000 * 60000 := by
  obtain ⟨_,_,first,last⟩ := requested_range isMinute order exchangeSymbol
  unfold runnerCandles at given
  split at given
  · cases given
  · rename_i preloaded isPreloaded
    split at given
    · cases given
    · rename_i report accepted
      split at given
      · cases given
      · cases given
        obtain ⟨_,opening,rest,gaps,rfl,scanned,_⟩ := accepted_counts accepted
        rw [isMinute,minute] at scanned
        obtain ⟨_,_,aligned,_⟩ := scan_whole scanned
        intro candle listed
        have inRange := cache_within isPreloaded candle listed
        rw [first,last] at inRange
        exact ⟨Int.emod_eq_zero_of_dvd (aligned candle listed),inRange⟩

section
variable [Inhabited Price]

def flat (timestamp : Int) : Candle Price := ⟨timestamp,default,default,default,default,default⟩
theorem flat_valid (timestamp : Int) (aligned : timestamp % 60000 = 0) : validCandle 60000 (flat timestamp : Candle Price) = true := by
  simp [validCandle,flat,aligned]
theorem default_fetches : 0 < 1000 := by decide

/-- A worker with the default limits, which refuses no size. -/
def anyWorker : Worker Price where
  policy := .monthly
  maxCandlesPerFetch := 1000
  fetches := default_fetches
  maxCandlesPerJob := 1578240
  tooLarge _ _ := false
  chunkTooLarge _ _ := false
  gapWarnRatio := 1 / 1000
  maxBars := 1000000

def oneCandle (timestamp : Int) : Provider Price where
  history _ := [flat timestamp]
  ascending _ := List.pairwise_singleton _ _
  rows _ := 1000

variable {config : WorkerConfig}

theorem single_given (isMinute : config.candleTimeframe = text "1m") (order : config.start < config.endAt)
    {version : CacheVersion} {provider : Provider Price} {cache : Cache Price} {exchangeSymbol : Text} {timestamp : Int}
    (aligned : timestamp % 60000 = 0)
    (preloaded : preloadExecutionCandles anyWorker version provider cache config exchangeSymbol = some [flat timestamp]) :
    runnerCandles anyWorker version provider cache config exchangeSymbol = some [flat timestamp] := by
  have feed : validFeed 60000 [(flat timestamp : Candle Price)] = true := by
    rw [validFeed,all_cons,flat_valid timestamp aligned]
    simp
  have valid : CandleCache.validateOhlcvFeed [(flat timestamp : Candle Price)] (1,.minute) config.start config.endAt = .valid := by
    rw [CandleCache.validateOhlcvFeed,if_neg (not_le.mpr order),if_neg (by simp)]
    exact if_pos feed
  have read : amountUnit (normalizeTimeframe config.candleTimeframe) = some (1,.minute) := by
    rw [isMinute]
    decide +kernel
  obtain ⟨report,accepted⟩ := (FeedQuality.accepted_iff_valid (1 / 1000) [(flat timestamp : Candle Price)] read (by decide)
    config.start config.endAt).mpr valid
  rw [runnerCandles,preloaded]
  simp only [anyWorker,accepted]
  rfl

theorem chunk_past_end (isMinute : config.candleTimeframe = text "1m")
    (order : config.start < config.endAt) : ¬NoLookPastEnd Price .chunkV1 config := by
  intro never
  let timestamp := (config.endAt + 59999) / 60000 * 60000
  let cache : Cache Price := ⟨⟨fun _ => none,fun _ => .missing⟩,fun _ => .missing⟩
  obtain ⟨step,_,_,_⟩ := requested_range isMinute order []
  have fetched : fetchPublicCandles (oneCandle timestamp : Provider Price) 1000 (preloadRequest config []).dataset
      (preloadRequest config []).stepMs (preloadRequest config []).since (preloadRequest config []).limit.toNat = [flat timestamp] := by
    have onward : (preloadRequest config []).since ≤ timestamp := by
      change config.start ≤ timestamp
      omega
    have rest : ((oneCandle timestamp : Provider Price).history (preloadRequest config []).dataset).filter
        (fun candle => (preloadRequest config []).since ≤ candle.timestamp) = [flat timestamp] := by
      apply filter_eq_self.mpr
      intro candle listed
      rw [mem_singleton.mp listed]
      exact decide_eq_true onward
    have pages := @fetchPages_full _ (oneCandle timestamp) (preloadRequest config []).dataset (preloadRequest config []).stepMs 1000
      (max 1 (preloadRequest config []).limit.toNat)
      (by rw [step]; decide) (by decide) (pairwise_singleton _ _) (Nat.min_le_left _ _)
      (max 1 (preloadRequest config []).limit.toNat) (preloadRequest config []).since [] [flat timestamp] (by simp) (Nat.zero_le _)
      rest (by simp)
    rw [fetchPublicCandles,pages,nil_append,take_of_length_le]
    exact Nat.le_max_left _ _
  have preloaded : preloadExecutionCandles anyWorker .chunkV1 (oneCandle timestamp) cache config [] = some [flat timestamp] := by
    simp only [preloadExecutionCandles,getOrFillPublicCandleCacheV1,cache]
    exact congrArg some fetched
  have past := never anyWorker (oneCandle timestamp) cache [] [flat timestamp]
    (single_given isMinute order (by omega) preloaded) (flat timestamp) mem_cons_self
  have early : timestamp < config.endAt := past.2
  omega

/-- The segment that two candles of an earlier fetch are written as. -/
def twoCandles (symbol : Text) (dataset : Dataset) (first last : Int) : RangeCacheSegment Price where
  rangeStart := first
  rangeEnd := last + 60000
  stepMs := 60000
  storageKey := ⟨symbol,dataset,first,last + 60000,[flat first,flat last]⟩
  checksum := [flat first,flat last]
  candleCount := 2

/-- A store in which only these are cached. -/
def storeOf (symbol : Text) (dataset : Dataset) (first last : Int) : Store Price where
  index key := if key = indexKey dataset then some ⟨dataset,[twoCandles symbol dataset first last]⟩ else none
  file key := if key = (twoCandles symbol dataset first last).storageKey then .candles [flat first,flat last] else .missing

variable {dataset : Dataset}
variable {first last : Int} {symbol : Text}

theorem two_read (aligned : first % 60000 = 0) (alsoAligned : last % 60000 = 0)
    (order : first < last) : readRangeCacheSegment (storeOf symbol dataset first last : Store Price)
      (twoCandles symbol dataset first last) = some (some [flat first,flat last]) := by
  have feed : validFeed 60000 [(flat first : Candle Price),flat last] = true := by
    rw [validFeed,all_cons,all_cons,flat_valid first aligned,flat_valid last alsoAligned]
    simp [flat,order]
  have valid : CandleCache.validateOhlcvFeed [(flat first : Candle Price),flat last] (timeframeFromStepMs 60000) first (last + 60000) =
      .valid := by
    rw [CandleCache.validateOhlcvFeed,if_neg (by omega),if_neg (by simp)]
    exact if_pos feed
  have file : (storeOf symbol dataset first last : Store Price).file (twoCandles symbol dataset first last).storageKey =
      .candles [flat first,flat last] := if_pos rfl
  rw [readRangeCacheSegment,file]
  simp only [twoCandles,ne_eq,not_true_eq_false,if_false,valid]

variable {requested : Span Int}

theorem two_selected (before : first ≤ requested.first)
    (proper : requested.first < requested.last) (after : requested.last ≤ last + 60000) :
    selectRangeCacheSegments [(twoCandles symbol dataset first last : RangeCacheSegment Price)] 60000 requested =
      [twoCandles symbol dataset first last] := by
  have among : candidates [(twoCandles symbol dataset first last : RangeCacheSegment Price)] 60000 requested =
      [twoCandles symbol dataset first last] := by
    have overlaps : requested.first < last + 60000 ∧ first < requested.last := ⟨by omega,by omega⟩
    simp [candidates,twoCandles,overlaps]
  have covers : first ≤ requested.first ∧ requested.first < last + 60000 := ⟨before,by omega⟩
  rw [selectRangeCacheSegments,among]
  simp [selectFrom,firstOfKeys,twoCandles,covers,not_le.mpr proper]

theorem two_covered (aligned : first % 60000 = 0)
    (alsoAligned : last % 60000 = 0) (before : first < requested.first) (started : requested.first ≤ last)
    (ends : last < requested.last) (after : requested.last ≤ last + 60000) :
    readRangeCacheCoverage (storeOf symbol dataset first last : Store Price) dataset 60000 requested =
      some ⟨true,[flat last],[]⟩ := by
  have index : (storeOf symbol dataset first last : Store Price).index (indexKey dataset) =
      some ⟨dataset,[twoCandles symbol dataset first last]⟩ := if_pos rfl
  have sliced : sliceAndDedupeCandles [(flat first : Candle Price),flat last] requested.first requested.last = [flat last] := by
    have isWithin : within (·.timestamp) requested.first requested.last [(flat first : Candle Price),flat last] = [flat last] := by
      simp [within,flat,before,started,ends]
    rw [sliceAndDedupeCandles,isWithin]
    rfl
  have again : sliceAndDedupeCandles [(flat last : Candle Price)] requested.first requested.last = [flat last] := by
    have isWithin : within (·.timestamp) requested.first requested.last [(flat last : Candle Price)] = [flat last] := by
      simp [within,flat,started,ends]
    rw [sliceAndDedupeCandles,isWithin]
    rfl
  have used : coveredBy requested ((twoCandles symbol dataset first last : RangeCacheSegment Price),some [flat first,flat last]) =
      some (requested,[flat last]) := by
    have overlaps : ¬((twoCandles symbol dataset first last : RangeCacheSegment Price).rangeEnd ≤ requested.first ∨
        requested.last ≤ (twoCandles symbol dataset first last : RangeCacheSegment Price).rangeStart) := by
      simp only [twoCandles]
      omega
    have whole : (⟨max first requested.first,min (last + 60000) requested.last⟩ : Span Int) = requested := by
      rw [max_eq_right before.le,min_eq_right after]
    simp only [coveredBy,sliced]
    rw [if_neg overlaps]
    simp only [isEmpty_cons,Bool.false_eq_true,if_false,Option.some.injEq,Prod.mk.injEq,and_true]
    exact whole
  have none : missingIntervalsForCoverage requested [requested] = [] := by
    have proper : requested.first < requested.last := by omega
    simp [missingIntervalsForCoverage,proper,ordered,gaps]
  rw [readRangeCacheCoverage,index]
  simp only [two_selected before.le (by omega) after,readSegments,two_read aligned alsoAligned (by omega),Option.map_some,
    filterMap_cons,used,filterMap_nil,map_cons,map_nil,none,flatMap_cons,flatMap_nil,append_nil,
    again,isEmpty_nil]

theorem range_past_end (isMinute : config.candleTimeframe = text "1m")
    (order : config.start < config.endAt) (late : ¬EndsInTime config) : ¬NoLookPastEnd Price .rangeV2 config := by
  intro never
  rw [EndsInTime] at late
  let first := config.start / 60000 * 60000
  let last := (config.endAt + 59999) / 60000 * 60000
  let request := preloadRequest config []
  obtain ⟨step,_,isFirst,isLast⟩ := requested_range isMinute order []
  let cache : Cache Price := ⟨storeOf config.symbol request.dataset first last,fun _ => .missing⟩
  have covered : readRangeCacheCoverage cache.ranges request.dataset request.stepMs request.requested =
      some ⟨true,[flat last],[]⟩ := by
    rw [show request.stepMs = 60000 from step]
    apply two_covered
    · omega
    · omega
    · rw [isFirst]
      omega
    · rw [isFirst]
      omega
    · rw [isLast]
      omega
    · rw [isLast]
      omega
  have preloaded : preloadExecutionCandles anyWorker .rangeV2 (oneCandle last) cache config [] = some [flat last] := by
    change (getOrFillPublicCandleCacheV2 anyWorker.toSettings (oneCandle last) cache.ranges request).2 = _
    rw [getOrFillPublicCandleCacheV2,covered]
    rfl
  have past := never anyWorker (oneCandle last) cache [] [flat last] (single_given isMinute order (by omega) preloaded)
    (flat last) mem_cons_self
  have early : last < config.endAt := past.2
  omega

/-- The runner is given no candle out of its range exactly if the cache is that of ranges and the end is not later
    within its minute than the start. -/
theorem no_look_past_end_iff (processes : Processes) (source : BacktestConfig) (config : WorkerConfig) (version : CacheVersion)
    (normalized : normalizedConfig processes source = .ok config) :
    NoLookPastEnd Price version config ↔ version = .rangeV2 ∧ EndsInTime config := by
  obtain ⟨isMinute,order⟩ := normalized_range normalized
  constructor
  · intro never
    cases version with
    | chunkV1 => exact absurd never (chunk_past_end isMinute order)
    | rangeV2 => exact ⟨rfl,not_not.mp fun late => range_past_end isMinute order late never⟩
  · rintro ⟨rfl,inTime⟩ worker provider cache exchangeSymbol candles given candle listed
    obtain ⟨aligned,started,ended⟩ := runner_within isMinute order given candle listed
    rw [EndsInTime] at inTime
    refine ⟨started,?_⟩
    omega
end

def halfMinuteConfig : BacktestConfig :=
  { backtestDefaultConfig with start := text "2024-01-01T00:00:30Z", endAt := text "2024-01-01T00:03:00Z" }

def halfMinute : WorkerConfig where
  engine := halfMinuteConfig.engine
  exchange := halfMinuteConfig.exchange
  symbol := halfMinuteConfig.symbol
  timeframe := halfMinuteConfig.timeframe
  candleTimeframe := text "1m"
  start := 1704067230000
  endAt := 1704067380000
  initialCapital := halfMinuteConfig.initialCapital
  feeBps := halfMinuteConfig.feeBps
  slippageBps := halfMinuteConfig.slippageBps
  dataSource := halfMinuteConfig.dataSource

/-- A candle of the very end is given to the runner. -/
theorem halfMinute_past_end : normalizedConfig atUtc halfMinuteConfig = .ok halfMinute ∧ ¬NoLookPastEnd Int .rangeV2 halfMinute :=
  ⟨by decide +kernel,range_past_end rfl (by decide) (by decide)⟩
/-- From midnight on, none is. -/
theorem wholeMinutes_in_range : NoLookPastEnd Int .rangeV2 { halfMinute with start := 1704067200000 } :=
  (no_look_past_end_iff atUtc { halfMinuteConfig with start := text "2024-01-01T00:00:00Z" } _ .rangeV2 (by decide +kernel)).mpr
    (by decide)
end Codebot.PreviewCandles
