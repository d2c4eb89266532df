import Codebot.CandleCache

/-!
What the segments of a manifest give of a range of a history that they are faithful
to: candles of the history, and all that the missing intervals do not have
(`coverage_spec`). The windows of a missing interval have all of it (`windows_cover`).
-/
namespace Codebot.CachedSegments
open Timeframes Series CandleFetches CandleCache List

variable {Price : Type}
/-- The segment has the candles of the history in its range. -/
structure Faithful (history : List (Candle Price)) (segment : RangeCacheSegment Price) : Prop where
  range : segment.rangeStart < segment.rangeEnd
  checksum : segment.checksum = within (·.timestamp) segment.rangeStart segment.rangeEnd history

variable {candles history : List (Candle Price)}

theorem slice_among (ascending : Ascending (·.timestamp) history)
    (among : ∀ candle ∈ candles, candle ∈ history) (startMs endMs : Int) :
    (∀ candle, candle ∈ sliceAndDedupeCandles candles startMs endMs ↔
      candle ∈ candles ∧ startMs ≤ candle.timestamp ∧ candle.timestamp < endMs) ∧
      Ascending (·.timestamp) (sliceAndDedupeCandles candles startMs endMs) := by
  obtain ⟨members,ascends⟩ := @series_among _ _ _ _ (within (·.timestamp) startMs endMs candles) _ ascending
    fun candle member => among candle (mem_within.mp member).1
  exact ⟨fun candle => (members candle).trans mem_within,ascends⟩

theorem slice_eq (ascending : Ascending (·.timestamp) history) {startMs endMs : Int}
    (same : ∀ candle, startMs ≤ candle.timestamp → candle.timestamp < endMs → (candle ∈ candles ↔ candle ∈ history)) :
    sliceAndDedupeCandles candles startMs endMs = within (·.timestamp) startMs endMs history := by
  refine series_eq (ascending.filter _) ?_
  intro candle
  rw [mem_within,mem_within]
  exact ⟨fun both => ⟨(same candle both.2.1 both.2.2).mp both.1,both.2⟩,fun both => ⟨(same candle both.2.1 both.2.2).mpr both.1,both.2⟩⟩

variable {segment : RangeCacheSegment Price} {stepMs : Nat}
theorem mem_candidates {segments : List (RangeCacheSegment Price)} {requested : Span Int} (member : segment ∈ candidates segments stepMs requested) : segment ∈ segments :=
  (mem_filter.mp (mem_filter.mp ((mem_insertionSort _).mp member)).1).1

variable {cursor last : Int}

theorem mem_selectFrom {among : List (RangeCacheSegment Price)} {count : Nat} (member : segment ∈ selectFrom among last count cursor) : segment ∈ among := by
  induction count generalizing cursor with
  | zero => cases member
  | succ count ih =>
    rw [selectFrom] at member
    split at member
    · cases member
    · dsimp only at member
      split at member
      · cases member
      · rename_i next isNext
        rcases mem_cons.mp member with rfl | later
        · rcases Option.or_eq_some_iff.mp isNext with covering | ⟨_,found⟩
          · have first := mem_of_head? covering
            exact (mem_filter.mp ((mem_insertionSort _).mp first)).1
          · exact mem_of_find?_eq_some found
        · exact ih later

section
variable [LinearOrder Price]
variable {segments : List (RangeCacheSegment Price)}
variable {segment : RangeCacheSegment Price}

theorem mem_firstOfKeys {seen : List (StorageKey Price)} (member : segment ∈ firstOfKeys seen segments) : segment ∈ segments := by
  induction segments generalizing seen with
  | nil => exact member
  | cons next rest ih =>
    rw [firstOfKeys] at member
    split at member
    · exact mem_cons_of_mem _ (ih member)
    · rcases mem_cons.mp member with rfl | later
      · exact mem_cons_self
      · exact mem_cons_of_mem _ (ih later)

theorem mem_selected {stepMs : Nat} {requested : Span Int}
    {segment : RangeCacheSegment Price} (member : segment ∈ selectRangeCacheSegments segments stepMs requested) :
    segment ∈ segments :=
  mem_candidates (mem_selectFrom (mem_firstOfKeys member))

variable {store : Store Price}

theorem readSegments_some
    {reads : List (RangeCacheSegment Price × Option (List (Candle Price)))} (returned : readSegments store segments = some reads) :
    ∀ read ∈ reads, read.1 ∈ segments ∧ readRangeCacheSegment store read.1 = some read.2 := by
  induction segments generalizing reads with
  | nil =>
    cases returned
    exact forall_mem_nil _
  | cons segment rest ih =>
    rw [readSegments] at returned
    split at returned
    · cases returned
    · rename_i candles isRead
      obtain ⟨others,later,rfl⟩ := Option.map_eq_some_iff.mp returned
      intro read member
      rcases mem_cons.mp member with rfl | isOther
      · exact ⟨mem_cons_self,isRead⟩
      · exact ⟨mem_cons_of_mem _ (ih later read isOther).1,(ih later read isOther).2⟩

theorem read_candles {candles : List (Candle Price)}
    (returned : readRangeCacheSegment store segment = some (some candles)) :
    candles = segment.checksum ∧
      validateOhlcvFeed candles (timeframeFromStepMs segment.stepMs) segment.rangeStart segment.rangeEnd = .valid := by
  rw [readRangeCacheSegment] at returned
  split at returned
  · cases returned
  · cases returned
  · cases returned
  · cases returned
  · split at returned
    · cases returned
    · rename_i matching
      split at returned
      · rename_i valid
        cases returned
        exact ⟨not_not.mp matching,valid⟩
      · cases returned
      · cases returned

/-- What a request reads of a manifest of faithful segments: candles of the range, and all of
    the range that no missing interval has. -/
structure Covers (history : List (Candle Price)) (requested : Span Int) (coverage : RangeCoverageResult Price) : Prop where
  among : ∀ candle ∈ coverage.candles, candle ∈ history
  ascending : Ascending (·.timestamp) coverage.candles
  inside : ∀ candle ∈ coverage.candles, requested.first ≤ candle.timestamp ∧ candle.timestamp < requested.last
  rest : ∀ candle ∈ history, requested.first ≤ candle.timestamp → candle.timestamp < requested.last →
    candle ∈ coverage.candles ∨ ∃ interval ∈ coverage.missingIntervals, interval.Has candle.timestamp
  complete : coverage.complete → coverage.missingIntervals = []
  between : ∀ interval ∈ coverage.missingIntervals, requested.first ≤ interval.first ∧ interval.last ≤ requested.last

theorem missing_cover {requested : Span Int} {intervals : List (Span Int)} {t : Int} (started : requested.first ≤ t)
    (ends : t < requested.last) :
    (∃ interval ∈ intervals, interval.Has t) ∨ ∃ missing ∈ missingIntervalsForCoverage requested intervals, missing.Has t := by
  unfold missingIntervalsForCoverage
  rcases @gaps_cover _ _ requested.last t ((ordered (·.first) (intervals.filter fun item =>
      requested.first < item.last ∧ item.first < requested.last)).map fun item =>
        (⟨max item.first requested.first,min item.last requested.last⟩ : Span Int)) requested.first started ends with
    ⟨span,member,has⟩ | ⟨gap,member,has⟩
  · obtain ⟨interval,isInterval,rfl⟩ := mem_map.mp member
    refine .inl ⟨interval,(mem_filter.mp (mem_ordered.mp isInterval)).1,?_,?_⟩
    · exact (le_max_left _ _).trans has.1
    · exact has.2.trans_le (min_le_left _ _)
  · refine .inr ⟨gap,mem_filter.mpr ⟨member,?_⟩,has⟩
    exact decide_eq_true (has.1.trans_lt has.2)

variable {requested : Span Int}

theorem missing_between (proper : requested.first ≤ requested.last) {intervals : List (Span Int)} :
    ∀ missing ∈ missingIntervalsForCoverage requested intervals,
      requested.first ≤ missing.first ∧ missing.last ≤ requested.last := by
  intro missing member
  have isGap := (mem_filter.mp member).1
  have clipped : ∀ span ∈ (ordered (·.first) (intervals.filter fun item =>
      requested.first < item.last ∧ item.first < requested.last)).map fun item =>
        (⟨max item.first requested.first,min item.last requested.last⟩ : Span Int), span.first ≤ requested.last := by
    intro span isSpan
    obtain ⟨interval,isInterval,rfl⟩ := mem_map.mp isSpan
    have overlaps := of_decide_eq_true (mem_filter.mp (mem_ordered.mp isInterval)).2
    exact max_le overlaps.2.le proper
  obtain ⟨starts,_,ends⟩ := gaps_between clipped (le_refl requested.first) missing isGap
  exact ⟨starts,ends⟩

variable {history : List (Candle Price)}

theorem coveredBy_faithful (ascending : Ascending (·.timestamp) history) {read : RangeCacheSegment Price × Option (List (Candle Price))} (faithful : Faithful history read.1)
    (isRead : readRangeCacheSegment store read.1 = some read.2) {covered : Span Int × List (Candle Price)}
    (covers : coveredBy requested read = some covered) :
    (∀ candle ∈ covered.2, candle ∈ history) ∧ ∀ candle ∈ history, requested.first ≤ candle.timestamp →
      candle.timestamp < requested.last → covered.1.Has candle.timestamp → candle ∈ covered.2 := by
  unfold coveredBy at covers
  split at covers
  · cases covers
  · split at covers
    · cases covers
    · rename_i candles isCandles
      rw [isCandles] at isRead
      have same : candles = within (·.timestamp) read.1.rangeStart read.1.rangeEnd history :=
        (read_candles isRead).1.trans faithful.checksum
      have among : ∀ candle ∈ candles, candle ∈ history := fun candle member => (mem_within.mp (same ▸ member)).1
      obtain ⟨members,_⟩ := slice_among ascending among requested.first requested.last
      dsimp only at covers
      split at covers
      · cases covers
      · cases covers
        refine ⟨fun candle member => among candle ((members candle).mp member).1,?_⟩
        intro candle isCandle starts ends has
        refine (members candle).mpr ⟨?_,starts,ends⟩
        rw [same]
        exact mem_within.mpr ⟨isCandle,(le_max_left _ _).trans has.1,has.2.trans_le (min_le_left _ _)⟩

theorem coverage_spec (ascending : Ascending (·.timestamp) history)
    {dataset : Dataset} (faithful : ∀ index, store.index (indexKey dataset) = some index → ∀ segment ∈ index.segments,
      Faithful history segment) {stepMs : Nat} (proper : requested.first ≤ requested.last) {coverage : RangeCoverageResult Price}
    (returned : readRangeCacheCoverage store dataset stepMs requested = some coverage) : Covers history requested coverage := by
  unfold readRangeCacheCoverage at returned
  split at returned
  · cases returned
    refine ⟨forall_mem_nil _,List.Pairwise.nil,forall_mem_nil _,?_,fun complete => (nomatch complete),?_⟩
    · exact fun candle _ starts ends => .inr ⟨requested,mem_singleton_self _,starts,ends⟩
    · intro interval member
      rw [mem_singleton.mp member]
      exact ⟨le_refl _,le_refl _⟩
  · rename_i index isIndex
    obtain ⟨reads,isReads,rfl⟩ := Option.map_eq_some_iff.mp returned
    have each : ∀ read ∈ reads, Faithful history read.1 ∧ readRangeCacheSegment store read.1 = some read.2 := by
      intro read member
      obtain ⟨selected,isRead⟩ := readSegments_some isReads read member
      exact ⟨faithful index isIndex read.1 (mem_selected selected),isRead⟩
    have among : ∀ candle ∈ (reads.filterMap (coveredBy requested)).flatMap (·.2), candle ∈ history := by
      intro candle member
      obtain ⟨covered,isCovered,inCovered⟩ := mem_flatMap.mp member
      obtain ⟨read,isRead,covers⟩ := mem_filterMap.mp isCovered
      exact (coveredBy_faithful ascending (each read isRead).1 (each read isRead).2 covers).1 candle inCovered
    obtain ⟨members,ascends⟩ := slice_among ascending among requested.first requested.last
    refine ⟨?_,ascends,?_,?_,?_,missing_between proper⟩
    · exact fun candle member => among candle ((members candle).mp member).1
    · exact fun candle member => ((members candle).mp member).2
    · intro candle isCandle starts ends
      rcases @missing_cover requested ((reads.filterMap (coveredBy requested)).map (·.1)) _ starts ends with
        ⟨interval,isInterval,has⟩ | missing
      · obtain ⟨covered,isCovered,rfl⟩ := mem_map.mp isInterval
        obtain ⟨read,isRead,covers⟩ := mem_filterMap.mp isCovered
        have inCovered := (coveredBy_faithful ascending (each read isRead).1 (each read isRead).2 covers).2 candle isCandle starts ends has
        exact .inl ((members candle).mpr ⟨mem_flatMap.mpr ⟨covered,isCovered,inCovered⟩,starts,ends⟩)
      · exact .inr missing
    · exact fun complete => isEmpty_iff.mp complete
end

variable {months : Nat}

theorem months_cover {t : Int} (ends : t < last) (enough : (last - cursor).toNat ≤ months)
    (started : cursor ≤ t) : ∃ window ∈ monthWindows last months cursor, window.Has t := by
  induction months generalizing cursor with
  | zero => omega
  | succ months ih =>
    have later := nextUtcMonthStart_after cursor
    rw [monthWindows,if_neg (by omega)]
    dsimp only
    rw [if_pos (by omega)]
    by_cases now : t < min last (nextUtcMonthStart cursor)
    · exact ⟨_,mem_append_left _ (mem_singleton_self _),started,now⟩
    · obtain ⟨window,member,has⟩ := @ih (min last (nextUtcMonthStart cursor)) (by omega) (by omega)
      exact ⟨window,mem_append_right _ member,has⟩

theorem months_between {first : Int} (started : first ≤ cursor) :
    ∀ window ∈ monthWindows last months cursor, first ≤ window.first ∧ window.last ≤ last := by
  induction months generalizing cursor with
  | zero => exact forall_mem_nil _
  | succ months ih =>
    intro window member
    rw [monthWindows] at member
    split at member
    · cases member
    · dsimp only at member
      have later := nextUtcMonthStart_after cursor
      rcases mem_append.mp member with here | next
      · split at here
        · rw [mem_singleton.mp here]
          exact ⟨started,min_le_left _ _⟩
        · cases here
      · refine ih ?_ window next
        omega

/-- The windows of an interval have all of it. -/
theorem windows_cover {policy : SegmentPolicy} {stepMs : Nat} {interval : Span Int} {t : Int} (has : interval.Has t) :
    ∃ window ∈ cacheFetchWindows policy stepMs interval, window.Has t := by
  unfold cacheFetchWindows
  split
  · exact ⟨interval,mem_singleton_self _,has⟩
  · exact months_cover has.2 (le_refl _) has.1

theorem windows_between {policy : SegmentPolicy} {interval : Span Int} :
    ∀ window ∈ cacheFetchWindows policy stepMs interval, interval.first ≤ window.first ∧ window.last ≤ interval.last := by
  unfold cacheFetchWindows
  split
  · intro window member
    rw [mem_singleton.mp member]
    exact ⟨le_refl _,le_refl _⟩
  · exact months_between (le_refl _)

end Codebot.CachedSegments
