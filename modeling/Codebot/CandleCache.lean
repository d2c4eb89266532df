import Codebot.Raising
import Codebot.Timeframes
import Codebot.CandleFetches
import Mathlib.Algebra.Ring.Nat

/-!
The candle cache of the backtest worker: a manifest for each dataset names segments, the files of the segments have
the candles. A request reads what they cover of its range, fetches the rest and writes it as new segments. A checksum
and the name of a file are written as what they hash.
-/
namespace Codebot.CandleCache
open Texts Timeframes Raising Series CandleFetches

/-- `BACKTEST_WORKER_CACHE_SEGMENT_POLICY`. -/
inductive SegmentPolicy
  | monthly
  | legacyMerge
deriving DecidableEq

/-- What the key of a segment is made of. -/
structure StorageKey (Price : Type) where
  symbol : Text
  dataset : Dataset
  rangeStart : Int
  rangeEnd : Int
  checksum : List (Candle Price)
deriving DecidableEq

structure RangeCacheSegment (Price : Type) where
  rangeStart : Int
  rangeEnd : Int
  stepMs : Nat
  storageKey : StorageKey Price
  checksum : List (Candle Price)
  candleCount : Nat
deriving DecidableEq

/-- A manifest, with the dataset that it was last written for. -/
structure RangeCacheIndex (Price : Type) where
  dataset : Dataset
  segments : List (RangeCacheSegment Price)
deriving DecidableEq

/-- The file of a segment: none, no JSON, JSON without a list of candles or without fields at all, or its candles. -/
inductive File (Price : Type)
  | missing
  | unparsable
  | other
  | fieldless
  | candles (candles : List (Candle Price))
deriving DecidableEq

abbrev IndexKey := Text × Text × Text
/-- `rangeCacheDataset`. -/
def indexKey (dataset : Dataset) : IndexKey := (dataset.exchange,pathToken dataset.exchangeSymbol,pathToken dataset.timeframe)
structure Store (Price : Type) where
  index : IndexKey → Option (RangeCacheIndex Price)
  file : StorageKey Price → File Price
/-- The limits of the worker; which contents exceed the size limit of a segment is given. -/
structure Settings (Price : Type) where
  policy : SegmentPolicy
  maxCandlesPerFetch : Nat
  fetches : 0 < maxCandlesPerFetch
  maxCandlesPerJob : Nat
  tooLarge : StorageKey Price → List (Candle Price) → Bool
structure Request where
  symbol : Text
  dataset : Dataset
  since : Int
  limit : Int
def Request.stepMs (request : Request) : Nat := timeframeToMs request.dataset.timeframe
/-- `requestedRange`. -/
def Request.requested (request : Request) : Span Int :=
  ⟨request.since,request.since + (max 1 request.limit.toNat : Nat) * request.stepMs⟩
structure RangeCoverageResult (Price : Type) where
  complete : Bool
  candles : List (Candle Price)
  missingIntervals : List (Span Int)
deriving DecidableEq
/-- The outcome of `validateOhlcvFeed`: it raises over the range or over the feed, or it does not. -/
inductive FeedCheck
  | invalidRange
  | invalidFeed
  | valid
deriving DecidableEq
/-- The outcome of `writeRangeCacheSegment`. -/
inductive WriteResult (Price : Type)
  | written (segment : RangeCacheSegment Price)
  | sizeExceeded
  | raised
deriving DecidableEq

variable {Price : Type}
def sliceAndDedupeCandles (candles : List (Candle Price)) (startMs endMs : Int) : List (Candle Price) :=
  series (·.timestamp) (within (·.timestamp) startMs endMs candles)
def missingIntervalsForCoverage (requested : Span Int) (intervals : List (Span Int)) : List (Span Int) :=
  let relevant := intervals.filter fun item => requested.first < item.last ∧ item.first < requested.last
  let clipped := (ordered (·.first) relevant).map fun item => ⟨max item.first requested.first,min item.last requested.last⟩
  (gaps requested.last requested.first clipped).filter fun interval => interval.first < interval.last
/-- The segments that may cover a part of the range, the earlier and among these the longer first. -/
def candidates (segments : List (RangeCacheSegment Price)) (stepMs : Nat) (requested : Span Int) :
    List (RangeCacheSegment Price) :=
  ((segments.filter fun segment => segment.stepMs = stepMs).filter fun segment =>
    requested.first < segment.rangeEnd ∧ segment.rangeStart < requested.last).insertionSort fun a b =>
      a.rangeStart < b.rangeStart ∨ a.rangeStart = b.rangeStart ∧ b.rangeEnd ≤ a.rangeEnd

/-- The selection of segments, each at most once. -/
def selectFrom (candidates : List (RangeCacheSegment Price)) (last : Int) : Nat → Int → List (RangeCacheSegment Price)
  | 0, _ => []
  | count + 1, cursor =>
    if last ≤ cursor then []
    else
      let covering := ((candidates.filter fun item => item.rangeStart ≤ cursor ∧ cursor < item.rangeEnd).insertionSort fun a b =>
        b.rangeEnd < a.rangeEnd ∨ a.rangeEnd = b.rangeEnd ∧ a.rangeStart ≤ b.rangeStart).head?
      match covering.or (candidates.find? fun item => cursor < item.rangeStart) with
      | none => []
      | some next => next :: selectFrom candidates last count (min next.rangeEnd last)

/-- `cacheFetchWindows` by months. -/
def monthWindows (last : Int) : Nat → Int → List (Span Int)
  | 0, _ => []
  | months + 1, cursor =>
    if last ≤ cursor then []
    else
      let endMs := min last (nextUtcMonthStart cursor)
      (if cursor < endMs then [⟨cursor,endMs⟩] else []) ++ monthWindows last months endMs

def cacheFetchWindows (policy : SegmentPolicy) (stepMs : Nat) (interval : Span Int) : List (Span Int) :=
  if policy ≠ .monthly ∨ stepMs ≠ 60000 then [interval]
  else monthWindows interval.last (interval.last - interval.first).toNat interval.first
def rangeCacheSegmentCovers (outer inner : RangeCacheSegment Price) : Bool :=
  outer.stepMs = inner.stepMs && outer.rangeStart ≤ inner.rangeStart && inner.rangeEnd ≤ outer.rangeEnd

/-- The groups of segments of which each begins where the one before it ends. -/
def contiguousGroups : List (RangeCacheSegment Price) → List (List (RangeCacheSegment Price))
  | [] => []
  | segment :: rest =>
    match contiguousGroups rest with
    | (next :: group) :: groups =>
      if segment.rangeEnd = next.rangeStart then (segment :: next :: group) :: groups
      else [segment] :: (next :: group) :: groups
    | groups => [segment] :: groups

section
variable [LinearOrder Price]

/-- The candle begins on a step and its prices are well formed. -/
def validCandle (stepMs : Nat) (candle : Candle Price) : Bool :=
  candle.timestamp % stepMs = 0 && max candle.openPrice candle.close ≤ candle.high &&
    candle.low ≤ min candle.openPrice candle.close
def validFeed (stepMs : Nat) (candles : List (Candle Price)) : Bool :=
  decide (candles.Pairwise fun a b => a.timestamp < b.timestamp) && candles.all (validCandle stepMs)
def validateOhlcvFeed (candles : List (Candle Price)) (timeframe : Nat × TimeUnit) (startMs endMs : Int) : FeedCheck :=
  if endMs ≤ startMs then .invalidRange
  else if candles.isEmpty then .invalidFeed
  else if validFeed (timeframe.1 * timeframe.2.ms) candles then .valid else .invalidFeed

/-- `readRangeCacheSegment`, with `none` outside where it raises. -/
def readRangeCacheSegment (store : Store Price) (segment : RangeCacheSegment Price) : Option (Option (List (Candle Price))) :=
  match store.file segment.storageKey with
  | .missing | .unparsable | .other => some none
  | .fieldless => none
  | .candles candles =>
    if candles ≠ segment.checksum then some none
    else
      match validateOhlcvFeed candles (timeframeFromStepMs segment.stepMs) segment.rangeStart segment.rangeEnd with
      | .valid => some (some candles)
      | .invalidFeed => some none
      | .invalidRange => none

/-- The segments without those of a key that was seen. -/
def firstOfKeys (seen : List (StorageKey Price)) : List (RangeCacheSegment Price) → List (RangeCacheSegment Price)
  | [] => []
  | segment :: rest =>
    if segment.storageKey ∈ seen then firstOfKeys seen rest
    else segment :: firstOfKeys (segment.storageKey :: seen) rest
def selectRangeCacheSegments (segments : List (RangeCacheSegment Price)) (stepMs : Nat) (requested : Span Int) :
    List (RangeCacheSegment Price) :=
  let among := candidates segments stepMs requested
  firstOfKeys [] (selectFrom among requested.last among.length requested.first)

/-- The reads of the selected segments. -/
def readSegments (store : Store Price) :
    List (RangeCacheSegment Price) → Option (List (RangeCacheSegment Price × Option (List (Candle Price))))
  | [] => some []
  | segment :: rest =>
    match readRangeCacheSegment store segment with
    | none => none
    | some read => (readSegments store rest).map ((segment,read) :: ·)

/-- What a read gives of the range: an interval that it covers and its candles there. -/
def coveredBy (requested : Span Int) (read : RangeCacheSegment Price × Option (List (Candle Price))) :
    Option (Span Int × List (Candle Price)) :=
  if read.1.rangeEnd ≤ requested.first ∨ requested.last ≤ read.1.rangeStart then none
  else
    match read.2 with
    | none => none
    | some candles =>
      let sliced := sliceAndDedupeCandles candles requested.first requested.last
      if sliced.isEmpty then none
      else some (⟨max read.1.rangeStart requested.first,min read.1.rangeEnd requested.last⟩,sliced)

def readRangeCacheCoverage (store : Store Price) (dataset : Dataset) (stepMs : Nat) (requested : Span Int) :
    Option (RangeCoverageResult Price) :=
  match store.index (indexKey dataset) with
  | none => some ⟨false,[],[requested]⟩
  | some index =>
    (readSegments store (selectRangeCacheSegments index.segments stepMs requested)).map fun reads =>
      let used := reads.filterMap (coveredBy requested)
      let missing := missingIntervalsForCoverage requested (used.map (·.1))
      ⟨missing.isEmpty,sliceAndDedupeCandles (used.flatMap (·.2)) requested.first requested.last,missing⟩

def writeRangeCacheSegment (settings : Settings Price) (store : Store Price) (symbol : Text) (dataset : Dataset) (stepMs : Nat)
    (candles : List (Candle Price)) : Store Price × WriteResult Price :=
  let normalized := series (·.timestamp) candles
  match normalized.head?, normalized.getLast? with
  | some first, some last =>
    let rangeStart := first.timestamp
    let rangeEnd := last.timestamp + stepMs
    match validateOhlcvFeed normalized (timeframeFromStepMs stepMs) rangeStart rangeEnd with
    | .valid =>
      let storageKey : StorageKey Price := ⟨symbol,dataset,rangeStart,rangeEnd,normalized⟩
      if settings.tooLarge storageKey normalized then (store,.sizeExceeded)
      else ({ store with file := Function.update store.file storageKey (.candles normalized) },
        .written ⟨rangeStart,rangeEnd,stepMs,storageKey,normalized,normalized.length⟩)
    | _ => (store,.raised)
  | _, _ => (store,.raised)

def pruneCoveredRangeCacheSegments (stepMs : Nat) (segments : List (RangeCacheSegment Price))
    (newSegment : RangeCacheSegment Price) : List (RangeCacheSegment Price) :=
  (((segments.filter fun item => item.storageKey ≠ newSegment.storageKey) ++ [newSegment]).filter fun item =>
    item.stepMs = stepMs && (item.storageKey = newSegment.storageKey || !rangeCacheSegmentCovers newSegment item)).insertionSort
      fun a b => a.rangeStart < b.rangeStart ∨ a.rangeStart = b.rangeStart ∧ a.rangeEnd ≤ b.rangeEnd

/-- The reads of the segments of a group, up to one that gives nothing. -/
def readGroup (store : Store Price) : List (RangeCacheSegment Price) → Option (Option (List (Candle Price)))
  | [] => some (some [])
  | segment :: rest =>
    match readRangeCacheSegment store segment with
    | none => none
    | some none => some none
    | some (some candles) => (readGroup store rest).map fun read => read.map (candles ++ ·)

def mergeContiguousRangeCacheGroup (settings : Settings Price) (symbol : Text) (dataset : Dataset) (stepMs : Nat)
    (store : Store Price) (group : List (RangeCacheSegment Price)) : Store Price × Option (List (RangeCacheSegment Price)) :=
  if group.length < 2 ∨ settings.maxCandlesPerJob < (group.map (·.candleCount)).sum then (store,some group)
  else
    match readGroup store group with
    | none => (store,none)
    | some none => (store,some group)
    | some (some candles) =>
      match writeRangeCacheSegment settings store symbol dataset stepMs candles with
      | (written,.written segment) => (written,some [segment])
      | (written,.sizeExceeded) => (written,some group)
      | (written,.raised) => (written,none)

def compactRangeCacheSegments (settings : Settings Price) (symbol : Text) (dataset : Dataset) (stepMs : Nat)
    (store : Store Price) (segments : List (RangeCacheSegment Price)) : Store Price × Option (List (RangeCacheSegment Price)) :=
  let sorted := ordered (·.rangeStart) (segments.filter fun segment => segment.stepMs = stepMs)
  match settings.policy with
  | .monthly => (store,some sorted)
  | .legacyMerge =>
    let merged := forEach (mergeContiguousRangeCacheGroup settings symbol dataset stepMs) store (contiguousGroups sorted)
    (merged.1,merged.2.map (ordered (·.rangeStart)))

/-- `upsertRangeCacheSegments`, and whether it returns. -/
def upsertRangeCacheSegments (settings : Settings Price) (symbol : Text) (dataset : Dataset) (stepMs : Nat)
    (store : Store Price) (newSegments : List (RangeCacheSegment Price)) : Store Price × Bool :=
  if newSegments.isEmpty then (store,true)
  else
    let existing := ((store.index (indexKey dataset)).map (·.segments)).getD []
    let pruned := newSegments.foldl (pruneCoveredRangeCacheSegments stepMs) existing
    match compactRangeCacheSegments settings symbol dataset stepMs store pruned with
    | (compacted,none) => (compacted,false)
    | (compacted,some segments) =>
      ({ compacted with index := Function.update compacted.index (indexKey dataset) (some ⟨dataset,segments⟩) },true)

/-- The candles of a window are written, if there are any. -/
def storeWindow (settings : Settings Price) (symbol : Text) (dataset : Dataset) (stepMs : Nat) (store : Store Price)
    (fetched : Span Int × List (Candle Price)) :
    Store Price × Option (List (RangeCacheSegment Price × List (Candle Price))) :=
  if fetched.2.isEmpty then (store,some [])
  else
    match writeRangeCacheSegment settings store symbol dataset stepMs fetched.2 with
    | (written,.written segment) => (written,some [(segment,fetched.2)])
    | (written,_) => (written,none)

/-- The fetches of the windows, the earlier first. -/
def fetchWindows (settings : Settings Price) (provider : Provider Price) (dataset : Dataset) (stepMs : Nat)
    (missing : List (Span Int)) : List (Span Int × List (Candle Price)) :=
  ordered (·.1.first) ((missing.flatMap (cacheFetchWindows settings.policy stepMs)).map fun window =>
    (window,sliceAndDedupeCandles (fetchPublicCandles provider settings.maxCandlesPerFetch dataset stepMs window.first
      (windowLimit stepMs window.first window.last)) window.first window.last))

def fetchAndStoreMissingRangeSegments (settings : Settings Price) (provider : Provider Price) (store : Store Price)
    (request : Request) (coverage : RangeCoverageResult Price) : Store Price × Option (List (Candle Price)) :=
  match forEach (storeWindow settings request.symbol request.dataset request.stepMs) store
      (fetchWindows settings provider request.dataset request.stepMs coverage.missingIntervals) with
  | (filled,none) => (filled,none)
  | (filled,some stored) =>
    match upsertRangeCacheSegments settings request.symbol request.dataset request.stepMs filled (stored.map (·.1)) with
    | (last,false) => (last,none)
    | (last,true) => (last,some (sliceAndDedupeCandles (coverage.candles ++ stored.flatMap (·.2)) request.requested.first
        request.requested.last))

/-- `getOrFillPublicCandleCacheV2`: the candles, or `none` where it raises. -/
def getOrFillPublicCandleCacheV2 (settings : Settings Price) (provider : Provider Price) (store : Store Price)
    (request : Request) : Store Price × Option (List (Candle Price)) :=
  match readRangeCacheCoverage store request.dataset request.stepMs request.requested with
  | none => (store,none)
  | some existing =>
    if existing.complete then (store,some existing.candles)
    else
      -- With the lock held the coverage is read again.
      match readRangeCacheCoverage store request.dataset request.stepMs request.requested with
      | none => (store,none)
      | some winner =>
        if winner.complete then (store,some winner.candles)
        else fetchAndStoreMissingRangeSegments settings provider store request winner

end

end Codebot.CandleCache
