import Codebot.CachedSegments

/-!
Updates of a manifest and the segments that they keep. An update drops a segment where
another of the same step covers it, and a merge puts one segment in the place of those
whose candles it has. So each segment that is written as a fetch writes it is kept or
covered by a later one (`pruned_kept`, `merge_kept`).
-/
namespace Codebot.SegmentCovers
open Texts Series CandleFetches CandleCache CachedSegments List

variable {Price : Type}
/-- The range of the segment is that of its key, and its candles are there at both ends. -/
structure Written (stepMs : Nat) (segment : RangeCacheSegment Price) : Prop where
  step : segment.stepMs = stepMs
  keyStart : segment.storageKey.rangeStart = segment.rangeStart
  keyEnd : segment.storageKey.rangeEnd = segment.rangeEnd
  first : ∃ candle ∈ segment.checksum, candle.timestamp = segment.rangeStart
  last : ∃ candle ∈ segment.checksum, candle.timestamp + stepMs = segment.rangeEnd
def Kept (stepMs : Nat) (others : List (RangeCacheSegment Price)) (segment : RangeCacheSegment Price) : Prop :=
  ∃ other ∈ others, Written stepMs other ∧ rangeCacheSegmentCovers other segment = true
def AllKept (stepMs : Nat) (segments others : List (RangeCacheSegment Price)) : Prop :=
  ∀ segment ∈ segments, Written stepMs segment → Kept stepMs others segment

variable {stepMs : Nat} {segments others : List (RangeCacheSegment Price)}
theorem covers_iff {outer inner : RangeCacheSegment Price} : rangeCacheSegmentCovers outer inner = true ↔
    outer.stepMs = inner.stepMs ∧ outer.rangeStart ≤ inner.rangeStart ∧ inner.rangeEnd ≤ outer.rangeEnd := by
  simp [rangeCacheSegmentCovers,and_assoc]
theorem covers_trans {a b c : RangeCacheSegment Price} (first : rangeCacheSegmentCovers a b = true)
    (second : rangeCacheSegmentCovers b c = true) : rangeCacheSegmentCovers a c = true := by
  obtain ⟨step,starts,ends⟩ := covers_iff.mp first
  obtain ⟨step',starts',ends'⟩ := covers_iff.mp second
  exact covers_iff.mpr ⟨step.trans step',starts.trans starts',ends'.trans ends⟩

variable {segment : RangeCacheSegment Price}
theorem kept_of_mem (member : segment ∈ others) (written : Written stepMs segment) : Kept stepMs others segment :=
  ⟨segment,member,written,covers_iff.mpr ⟨rfl,le_refl _,le_refl _⟩⟩
theorem allKept_subset (among : ∀ segment ∈ segments, segment.stepMs = stepMs → segment ∈ others) :
    AllKept stepMs segments others :=
  fun segment member written => kept_of_mem (among segment member written.step) written
theorem allKept_refl (segments : List (RangeCacheSegment Price)) : AllKept stepMs segments segments :=
  allKept_subset fun _ member _ => member
theorem kept_trans (kept : Kept stepMs segments segment)
    (all : AllKept stepMs segments others) : Kept stepMs others segment := by
  obtain ⟨other,isOther,written,covers⟩ := kept
  obtain ⟨last,isLast,writtenLast,coversOther⟩ := all other isOther written
  exact ⟨last,isLast,writtenLast,covers_trans coversOther covers⟩
theorem allKept_trans {last : List (RangeCacheSegment Price)} (first : AllKept stepMs segments others)
    (second : AllKept stepMs others last) : AllKept stepMs segments last :=
  fun segment member written => kept_trans (first segment member written) second

variable {first second : List (RangeCacheSegment Price)}
theorem allKept_append (one : AllKept stepMs first others)
    (two : AllKept stepMs second others) : AllKept stepMs (first ++ second) others :=
  fun segment member => (mem_append.mp member).elim (one segment) (two segment)
theorem allKept_congr {first' second' : List (RangeCacheSegment Price)} (one : AllKept stepMs first first')
    (two : AllKept stepMs second second') : AllKept stepMs (first ++ second) (first' ++ second') :=
  allKept_append (allKept_trans one (allKept_subset fun _ member _ => mem_append_left _ member))
    (allKept_trans two (allKept_subset fun _ member _ => mem_append_right _ member))

theorem contiguousGroups_flatten (segments : List (RangeCacheSegment Price)) :
    (contiguousGroups segments).flatten = segments := by
  induction segments with
  | nil => rfl
  | cons segment rest ih =>
    rw [contiguousGroups]
    split
    · rename_i next group groups isGroups
      rw [isGroups] at ih
      split
      · simpa using ih
      · simpa using ih
    · simpa using ih

section
variable [LinearOrder Price]
variable {segment : RangeCacheSegment Price}

theorem mem_prune {new : RangeCacheSegment Price} : segment ∈ pruneCoveredRangeCacheSegments stepMs segments new ↔
    ((segment ∈ segments ∧ segment.storageKey ≠ new.storageKey) ∨ segment = new) ∧ segment.stepMs = stepMs ∧
      (segment.storageKey = new.storageKey ∨ rangeCacheSegmentCovers new segment = false) := by
  simp [pruneCoveredRangeCacheSegments]
  tauto

theorem prune_kept {new : RangeCacheSegment Price} (written : Written stepMs new) :
    AllKept stepMs (segments ++ [new]) (pruneCoveredRangeCacheSegments stepMs segments new) := by
  have isNew : new ∈ pruneCoveredRangeCacheSegments stepMs segments new := mem_prune.mpr ⟨.inr rfl,written.step,.inl rfl⟩
  intro segment member isWritten
  rcases mem_append.mp member with old | same
  · by_cases sameKey : segment.storageKey = new.storageKey
    · refine ⟨new,isNew,written,covers_iff.mpr ⟨written.step.trans isWritten.step.symm,?_,?_⟩⟩
      · rw [← written.keyStart,← isWritten.keyStart,sameKey]
      · rw [← written.keyEnd,← isWritten.keyEnd,sameKey]
    · by_cases covers : rangeCacheSegmentCovers new segment = true
      · exact ⟨new,isNew,written,covers⟩
      · exact kept_of_mem (mem_prune.mpr ⟨.inl ⟨old,sameKey⟩,isWritten.step,.inr (Bool.not_eq_true _ ▸ covers)⟩) isWritten
  · exact kept_of_mem (mem_singleton.mp same ▸ isNew) isWritten

theorem pruned_kept {new : List (RangeCacheSegment Price)} (written : ∀ segment ∈ new, Written stepMs segment) :
    AllKept stepMs (segments ++ new) (new.foldl (pruneCoveredRangeCacheSegments stepMs) segments) := by
  induction new generalizing segments with
  | nil =>
    rw [append_nil]
    exact allKept_refl segments
  | cons first rest ih =>
    obtain ⟨here,later⟩ := forall_mem_cons.mp written
    have unchanged : AllKept stepMs rest rest := allKept_refl rest
    have next := allKept_congr (@prune_kept _ stepMs segments _ first here) unchanged
    rw [append_assoc,singleton_append] at next
    exact allKept_trans next (ih later)

variable {dataset : Dataset} {settings : Settings Price}
variable {candles : List (Candle Price)} {next store : Store Price} {symbol : Text}

theorem write_index {result : WriteResult Price}
    (wrote : writeRangeCacheSegment settings store symbol dataset stepMs candles = (next,result)) : next.index = store.index := by
  unfold writeRangeCacheSegment at wrote
  dsimp only at wrote
  split at wrote
  · split at wrote
    · split at wrote
      · cases wrote
        rfl
      · cases wrote
        rfl
    · cases wrote
      rfl
  · cases wrote
    rfl

theorem write_written
    (wrote : writeRangeCacheSegment settings store symbol dataset stepMs candles = (next,.written segment)) :
    Written stepMs segment ∧
      ∀ candle ∈ candles, segment.rangeStart ≤ candle.timestamp ∧ candle.timestamp + stepMs ≤ segment.rangeEnd := by
  unfold writeRangeCacheSegment at wrote
  dsimp only at wrote
  split at wrote
  · rename_i first last isFirst isLast
    split at wrote
    · split at wrote
      · cases wrote
      · cases wrote
        refine ⟨⟨rfl,rfl,rfl,⟨first,mem_of_head? isFirst,rfl⟩,⟨last,mem_of_getLast? isLast,rfl⟩⟩,?_⟩
        intro candle member
        obtain ⟨starts,ends⟩ := series_bounds isFirst isLast member
        exact ⟨starts,by dsimp only; omega⟩
    · cases wrote
  · cases wrote

variable {group : List (RangeCacheSegment Price)}

theorem readGroup_candles (read : readGroup store group = some (some candles)) :
    ∀ segment ∈ group, ∀ candle ∈ segment.checksum, candle ∈ candles := by
  induction group generalizing candles with
  | nil => exact forall_mem_nil _
  | cons segment rest ih =>
    rw [readGroup] at read
    split at read
    · cases read
    · cases read
    · rename_i first isFirst
      obtain ⟨later,isLater,joined⟩ := Option.map_eq_some_iff.mp read
      obtain ⟨more,rfl,rfl⟩ := Option.map_eq_some_iff.mp joined
      have same := (read_candles isFirst).1
      intro other member candle isCandle
      rcases mem_cons.mp member with rfl | isRest
      · exact mem_append_left _ (same ▸ isCandle)
      · exact mem_append_right _ (ih isLater other isRest candle isCandle)

theorem merge_index {result : Option (List (RangeCacheSegment Price))}
    (ran : mergeContiguousRangeCacheGroup settings symbol dataset stepMs store group = (next,result)) :
    next.index = store.index := by
  unfold mergeContiguousRangeCacheGroup at ran
  split at ran
  · cases ran
    rfl
  · split at ran
    · cases ran
      rfl
    · cases ran
      rfl
    · split at ran
      · rename_i wrote
        cases ran
        exact write_index wrote
      · rename_i wrote
        cases ran
        exact write_index wrote
      · rename_i wrote
        cases ran
        exact write_index wrote

/-- A merge leaves a group as it is or covers all of it. -/
theorem merge_kept {merged : List (RangeCacheSegment Price)}
    (ran : mergeContiguousRangeCacheGroup settings symbol dataset stepMs store group = (next,some merged)) :
    AllKept stepMs group merged := by
  unfold mergeContiguousRangeCacheGroup at ran
  split at ran
  · cases ran
    exact allKept_refl _
  · split at ran
    · cases ran
    · cases ran
      exact allKept_refl _
    · rename_i candles isRead
      split at ran
      · rename_i written segment wrote
        cases ran
        obtain ⟨isWritten,inside⟩ := write_written wrote
        intro other member otherWritten
        have candlesOf := readGroup_candles isRead other member
        obtain ⟨first,isFirst,starts⟩ := otherWritten.first
        obtain ⟨last,isLast,ends⟩ := otherWritten.last
        refine ⟨segment,mem_singleton_self _,isWritten,covers_iff.mpr ⟨?_,?_,?_⟩⟩
        · exact isWritten.step.trans otherWritten.step.symm
        · exact starts ▸ (inside first (candlesOf first isFirst)).1
        · exact ends ▸ (inside last (candlesOf last isLast)).2
      · cases ran
        exact allKept_refl _
      · cases ran

variable {fetched : Span Int × List (Candle Price)}

theorem storeWindow_index {result : Option (List (RangeCacheSegment Price × List (Candle Price)))}
    (ran : storeWindow settings symbol dataset stepMs store fetched = (next,result)) : next.index = store.index := by
  unfold storeWindow at ran
  split at ran
  · cases ran
    rfl
  · split at ran
    · rename_i wrote
      cases ran
      exact write_index wrote
    · rename_i wrote
      cases ran
      exact write_index wrote

theorem storeWindow_written {stored : List (RangeCacheSegment Price × List (Candle Price))}
    (ran : storeWindow settings symbol dataset stepMs store fetched = (next,some stored)) :
    ∀ entry ∈ stored, Written stepMs entry.1 := by
  unfold storeWindow at ran
  split at ran
  · cases ran
    exact forall_mem_nil _
  · split at ran
    · rename_i written segment wrote
      cases ran
      intro entry member
      rw [mem_singleton.mp member]
      exact (write_written wrote).1
    · cases ran

end
end Codebot.SegmentCovers
