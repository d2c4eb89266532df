import Codebot.CacheFills
import Codebot.StableSorts

/-!
The stored candles and what a request reads of them. The segments are selected by their intervals, so that a segment
speaks for all of its interval, and a new segment takes the place of those that it covers, whatever candles they have
(`no_candle_lost_iff`).
-/
namespace Codebot.StoredCandles
open Texts Series CandleFetches CandleCache List CachedSegments SegmentCovers StableSorts
open CacheFills (segmentsOf)

variable {Price : Type}

/-- A segment as it is written: its key has all that it is made of, and its candles lie in its interval. -/
structure Named (stepMs : Nat) (segment : RangeCacheSegment Price) : Prop where
  step : segment.stepMs = stepMs
  range : segment.rangeStart < segment.rangeEnd
  keyStart : segment.storageKey.rangeStart = segment.rangeStart
  keyEnd : segment.storageKey.rangeEnd = segment.rangeEnd
  keyChecksum : segment.storageKey.checksum = segment.checksum
  candleCount : segment.candleCount = segment.checksum.length
  inside : ∀ candle ∈ segment.checksum, segment.rangeStart ≤ candle.timestamp ∧ candle.timestamp < segment.rangeEnd

def sameInterval (segment other : RangeCacheSegment Price) : Bool :=
  segment.rangeStart = other.rangeStart && segment.rangeEnd = other.rangeEnd
/-- No other segment has more than its interval, and it is the first with this interval. -/
structure Foremost (segments : List (RangeCacheSegment Price)) (segment : RangeCacheSegment Price) : Prop where
  first : segments.find? (sameInterval · segment) = some segment
  widest : ∀ other ∈ segments, other.rangeStart ≤ segment.rangeStart → segment.rangeEnd ≤ other.rangeEnd →
    sameInterval other segment = true
/-- The segment that is selected at a time. -/
def choice (among : List (RangeCacheSegment Price)) (cursor : Int) : Option (RangeCacheSegment Price) :=
  ((among.filter fun item => item.rangeStart ≤ cursor ∧ cursor < item.rangeEnd).insertionSort fun a b =>
    b.rangeEnd < a.rangeEnd ∨ a.rangeEnd = b.rangeEnd ∧ a.rangeStart ≤ b.rangeStart).head?.or
      (among.find? fun item => cursor < item.rangeStart)

section
variable [LinearOrder Price]

def Holds (store : Store Price) (segment : RangeCacheSegment Price) (candle : Candle Price) : Prop :=
  ∃ candles, readRangeCacheSegment store segment = some (some candles) ∧ candle ∈ candles
def Stored (store : Store Price) (segments : List (RangeCacheSegment Price)) (candle : Candle Price) : Prop :=
  ∃ segment ∈ segments, Holds store segment candle
/-- Of every range, the stored candles are returned. -/
def CoverageExact (store : Store Price) (dataset : Dataset) (stepMs : Nat) : Prop :=
  ∀ (requested : Span Int) (coverage : RangeCoverageResult Price),
    readRangeCacheCoverage store dataset stepMs requested = some coverage → ∀ candle,
      candle ∈ coverage.candles ↔ Stored store (segmentsOf store dataset) candle ∧ requested.Has candle.timestamp
def prunedOnUpsert (stepMs : Nat) (segments new : List (RangeCacheSegment Price)) : List (RangeCacheSegment Price) :=
  new.foldl (pruneCoveredRangeCacheSegments stepMs) segments
/-- The stored candles stay stored when the segments are written to the manifest. -/
def PruningKeeps (store : Store Price) (dataset : Dataset) (stepMs : Nat) (new : List (RangeCacheSegment Price)) : Prop :=
  ∀ candle, Stored store (segmentsOf store dataset) candle →
    Stored store (prunedOnUpsert stepMs (segmentsOf store dataset) new) candle
/-- Each foremost segment that can be read has the stored candles of its interval. -/
def Solid (store : Store Price) (segments : List (RangeCacheSegment Price)) : Prop :=
  ∀ segment, Foremost segments segment → ∀ read, readRangeCacheSegment store segment = some read →
    ∀ candle, Stored store segments candle → segment.rangeStart ≤ candle.timestamp → candle.timestamp < segment.rangeEnd →
      ∃ candles, read = some candles ∧ candle ∈ candles
/-- A segment that no new one covers, or a new one that no later one covers. -/
def Uncovered (segments new : List (RangeCacheSegment Price)) (segment : RangeCacheSegment Price) : Prop :=
  segment ∈ segments ∧ (∀ later ∈ new, rangeCacheSegmentCovers later segment = false) ∨
    ∃ before after, new = before ++ segment :: after ∧ ∀ later ∈ after, rangeCacheSegmentCovers later segment = false
/-- The candles of each readable segment that a new one covers are in uncovered segments. -/
def Replaced (store : Store Price) (segments new : List (RangeCacheSegment Price)) : Prop :=
  ∀ segment ∈ segments, (∃ later ∈ new, rangeCacheSegmentCovers later segment = true) → ∀ candle, Holds store segment candle →
    ∃ other, Uncovered segments new other ∧ Holds store other candle
end

variable {stepMs : Nat}
variable {other segment : RangeCacheSegment Price}

theorem named_eq (named : Named stepMs segment) (alsoNamed : Named stepMs other)
    (sameKey : segment.storageKey = other.storageKey) : segment = other := by
  have starts : segment.rangeStart = other.rangeStart := by rw [← named.keyStart,sameKey,alsoNamed.keyStart]
  have ends : segment.rangeEnd = other.rangeEnd := by rw [← named.keyEnd,sameKey,alsoNamed.keyEnd]
  have checksum : segment.checksum = other.checksum := by rw [← named.keyChecksum,sameKey,alsoNamed.keyChecksum]
  have step : segment.stepMs = other.stepMs := named.step.trans alsoNamed.step.symm
  have count : segment.candleCount = other.candleCount := by rw [named.candleCount,checksum,alsoNamed.candleCount]
  cases segment
  cases other
  simp only at starts ends checksum step count sameKey
  simp only [starts,ends,checksum,step,count,sameKey]

section
variable [LinearOrder Price]
variable {segment : RangeCacheSegment Price}

theorem mem_prune_named {segments : List (RangeCacheSegment Price)} {new : RangeCacheSegment Price}
    (named : ∀ other ∈ segments, Named stepMs other) (newNamed : Named stepMs new) :
    segment ∈ pruneCoveredRangeCacheSegments stepMs segments new ↔
      segment = new ∨ segment ∈ segments ∧ rangeCacheSegmentCovers new segment = false := by
  rw [mem_prune]
  constructor
  · rintro ⟨⟨listed,differs⟩ | isNew,_,kept⟩
    · exact .inr ⟨listed,kept.resolve_left differs⟩
    · exact .inl isNew
  · rintro (rfl | ⟨listed,apart⟩)
    · exact ⟨.inr rfl,newNamed.step,.inl rfl⟩
    · by_cases sameKey : segment.storageKey = new.storageKey
      · exact ⟨.inr (named_eq (named segment listed) newNamed sameKey),(named segment listed).step,.inl sameKey⟩
      · exact ⟨.inl ⟨listed,sameKey⟩,(named segment listed).step,.inr apart⟩

theorem mem_prunedOnUpsert {segments new : List (RangeCacheSegment Price)}
    (named : ∀ other ∈ segments, Named stepMs other) (newNamed : ∀ other ∈ new, Named stepMs other) :
    segment ∈ prunedOnUpsert stepMs segments new ↔ Uncovered segments new segment := by
  induction new generalizing segments with
  | nil => simp [prunedOnUpsert,Uncovered]
  | cons first rest ih =>
    obtain ⟨here,later⟩ := forall_mem_cons.mp newNamed
    have prunedNamed : ∀ other ∈ pruneCoveredRangeCacheSegments stepMs segments first, Named stepMs other := by
      intro other listed
      rcases (mem_prune_named named here).mp listed with rfl | ⟨old,_⟩
      · exact here
      · exact named other old
    have pruned := ih prunedNamed later
    rw [prunedOnUpsert] at pruned ⊢
    rw [foldl_cons,pruned,Uncovered,mem_prune_named named here,Uncovered,forall_mem_cons]
    constructor
    · rintro (⟨rfl | ⟨listed,apart⟩,uncovered⟩ | ⟨before,after,rfl,uncovered⟩)
      · exact .inr ⟨[],rest,rfl,uncovered⟩
      · exact .inl ⟨listed,apart,uncovered⟩
      · exact .inr ⟨first :: before,after,rfl,uncovered⟩
    · rintro (⟨listed,apart,uncovered⟩ | ⟨before,after,split,uncovered⟩)
      · exact .inl ⟨.inr ⟨listed,apart⟩,uncovered⟩
      · cases before with
        | nil =>
          cases split
          exact .inl ⟨.inl rfl,uncovered⟩
        | cons _ before =>
          cases split
          exact .inr ⟨before,after,rfl,uncovered⟩

end

theorem sameInterval_iff : sameInterval segment other = true ↔
    segment.rangeStart = other.rangeStart ∧ segment.rangeEnd = other.rangeEnd := by
  simp [sameInterval]
def Before (a b : RangeCacheSegment Price) : Prop :=
  a.rangeStart < b.rangeStart ∨ a.rangeStart = b.rangeStart ∧ b.rangeEnd ≤ a.rangeEnd
instance : DecidableRel (@Before Price) := fun _ _ => inferInstanceAs (Decidable (_ ∨ _))
theorem candidates_sorted {segments : List (RangeCacheSegment Price)} {requested : Span Int} :
    (candidates segments stepMs requested).Pairwise Before := by
  have : Std.Total (@Before Price) := ⟨fun a b => by simp only [Before]; omega⟩
  have : IsTrans (RangeCacheSegment Price) Before := ⟨fun a b c => by simp only [Before]; omega⟩
  exact pairwise_insertionSort Before _
theorem mem_candidates_iff {segments : List (RangeCacheSegment Price)} (named : ∀ segment ∈ segments, Named stepMs segment)
    {requested : Span Int} {segment : RangeCacheSegment Price} : segment ∈ candidates segments stepMs requested ↔
      segment ∈ segments ∧ requested.first < segment.rangeEnd ∧ segment.rangeStart < requested.last := by
  rw [candidates,mem_insertionSort,mem_filter,mem_filter,decide_eq_true_iff,decide_eq_true_iff]
  exact ⟨fun both => ⟨both.1.1,both.2⟩,fun both => ⟨⟨both.1,(named segment both.1).step⟩,both.2⟩⟩
theorem candidates_range {segments : List (RangeCacheSegment Price)} (named : ∀ segment ∈ segments, Named stepMs segment)
    {requested : Span Int} : ∀ segment ∈ candidates segments stepMs requested, segment.rangeStart < segment.rangeEnd :=
  fun segment listed => (named segment ((mem_candidates_iff named).mp listed).1).range

theorem find?_candidates {segments : List (RangeCacheSegment Price)} (named : ∀ segment ∈ segments, Named stepMs segment)
    {requested : Span Int} (isCandidate : segment ∈ candidates segments stepMs requested) :
    (candidates segments stepMs requested).find? (sameInterval · segment) = segments.find? (sameInterval · segment) := by
  obtain ⟨_,starts,ends⟩ := (mem_candidates_iff named).mp isCandidate
  rw [candidates,find?_insertionSort,find?_filter_kept,find?_filter_kept]
  · exact fun other listed _ => decide_eq_true (named other listed).step
  · intro other _ same
    have interval := sameInterval_iff.mp same
    exact decide_eq_true (by omega)
  · intro item _ other _ isSame alsoSame
    have interval := sameInterval_iff.mp isSame
    have also := sameInterval_iff.mp alsoSame
    omega

/-- What is selected at a time: the first of an interval that no candidate has more than. -/
structure Chosen (among : List (RangeCacheSegment Price)) (cursor : Int) (segment : RangeCacheSegment Price) : Prop where
  listed : segment ∈ among
  first : among.find? (sameInterval · segment) = some segment
  widest : ∀ other ∈ among, other.rangeStart ≤ segment.rangeStart → segment.rangeEnd ≤ other.rangeEnd →
    sameInterval other segment = true
  ends : cursor < segment.rangeEnd
  furthest : ∀ other ∈ among, other.rangeStart ≤ cursor → cursor < other.rangeEnd → other.rangeEnd ≤ segment.rangeEnd
  reaches : ∀ other ∈ among, ∀ t, cursor ≤ t → other.rangeStart ≤ t → t < other.rangeEnd → segment.rangeStart ≤ t

variable {cursor : Int}

theorem choice_some {among : List (RangeCacheSegment Price)} (sorted : among.Pairwise Before)
    (ranges : ∀ segment ∈ among, segment.rangeStart < segment.rangeEnd)
    (chosen : choice among cursor = some segment) : Chosen among cursor segment := by
  let before (a b : RangeCacheSegment Price) : Prop :=
    b.rangeEnd < a.rangeEnd ∨ a.rangeEnd = b.rangeEnd ∧ a.rangeStart ≤ b.rangeStart
  have : Std.Total before := ⟨fun a b => by simp only [before]; omega⟩
  have : IsTrans (RangeCacheSegment Price) before := ⟨fun a b c => by simp only [before]; omega⟩
  have first := @head?_insertionSort _ before _ _ _ (among.filter fun item => item.rangeStart ≤ cursor ∧ cursor < item.rangeEnd)
  rcases Option.or_eq_some_iff.mp chosen with covering | ⟨none,found⟩
  · have isFirst := first.symm.trans covering
    obtain ⟨listed,inside⟩ := mem_filter.mp (mem_of_find?_eq_some isFirst)
    have covers := of_decide_eq_true inside
    have least : ∀ other ∈ among, other.rangeStart ≤ cursor → cursor < other.rangeEnd → before segment other := by
      intro other isOther starts ends
      have all := find?_some isFirst
      exact of_decide_eq_true all other (mem_filter.mpr ⟨isOther,decide_eq_true ⟨starts,ends⟩⟩)
    refine ⟨listed,?_,?_,covers.2,?_,?_⟩
    · rw [← @find?_filter_kept _ among fun item => item.rangeStart ≤ cursor ∧ cursor < item.rangeEnd]
      · refine find?_narrow ?_ isFirst (sameInterval_iff.mpr ⟨rfl,rfl⟩)
        intro other isOther same
        have interval := sameInterval_iff.mp same
        refine decide_eq_true fun item isItem => ?_
        obtain ⟨among,covered⟩ := mem_filter.mp isItem
        have wins := least item among (of_decide_eq_true covered).1 (of_decide_eq_true covered).2
        simp only [before] at wins ⊢
        omega
      · intro other _ same
        have interval := sameInterval_iff.mp same
        exact decide_eq_true (by omega)
    · intro other isOther starts ends
      have wins := least other isOther (by omega) (by omega)
      simp only [before] at wins
      exact sameInterval_iff.mpr (by omega)
    · intro other isOther starts ends
      have wins := least other isOther starts ends
      simp only [before] at wins
      omega
    · intro other _ t after _ _
      omega
  · have missed : ∀ other ∈ among, ¬(other.rangeStart ≤ cursor ∧ cursor < other.rangeEnd) := by
      have empty := eq_nil_of_length_eq_zero ((length_insertionSort _ _).symm.trans
        (congrArg List.length (head?_eq_none_iff.mp none)))
      exact fun other isOther both => filter_eq_nil_iff.mp empty other isOther (decide_eq_true both)
    have isAfter : cursor < segment.rangeStart := by simpa using find?_some found
    have listed := mem_of_find?_eq_some found
    have earliest : ∀ other ∈ among, cursor < other.rangeStart → Before segment other :=
      fun other isOther later => find?_sorted sorted (fun item => .inr ⟨rfl,le_refl _⟩) found isOther (decide_eq_true later)
    have proper := ranges segment listed
    refine ⟨listed,?_,?_,by omega,fun other isOther starts ends => absurd ⟨starts,ends⟩ (missed other isOther),?_⟩
    · refine find?_narrow ?_ found (sameInterval_iff.mpr ⟨rfl,rfl⟩)
      intro other _ same
      have interval := sameInterval_iff.mp same
      exact decide_eq_true (by omega)
    · intro other isOther starts ends
      have uncovered := missed other isOther
      have wins := earliest other isOther (by omega)
      simp only [Before] at wins
      exact sameInterval_iff.mpr (by omega)
    · intro other isOther t after starts ends
      have uncovered := missed other isOther
      have wins := earliest other isOther (by omega)
      simp only [Before] at wins
      omega

theorem choice_none {among : List (RangeCacheSegment Price)} (nothing : choice among cursor = none) :
    ∀ segment ∈ among, ∀ t, cursor ≤ t → ¬(segment.rangeStart ≤ t ∧ t < segment.rangeEnd) := by
  rw [choice,Option.or_eq_none_iff] at nothing
  have empty := eq_nil_of_length_eq_zero ((length_insertionSort _ _).symm.trans
    (congrArg List.length (head?_eq_none_iff.mp nothing.1)))
  intro segment listed t after inside
  have missed := filter_eq_nil_iff.mp empty segment listed
  have notAfter := find?_eq_none.mp nothing.2 segment listed
  simp only [decide_eq_true_eq] at missed notAfter
  omega

theorem fewer_after {among : List (RangeCacheSegment Price)} {next : RangeCacheSegment Price} (listed : next ∈ among)
    (ends : cursor < next.rangeEnd) : (among.filter fun item => next.rangeEnd < item.rangeEnd).length <
      (among.filter fun item => cursor < item.rangeEnd).length := by
  have split : (among.filter fun item => next.rangeEnd < item.rangeEnd) =
      (among.filter fun item => cursor < item.rangeEnd).filter fun item => next.rangeEnd < item.rangeEnd := by
    rw [filter_filter]
    apply filter_congr
    intro item _
    simp only [decide_eq_decide,← Bool.decide_and]
    omega
  rw [split]
  apply length_filter_lt_length_iff_exists.mpr
  refine ⟨next,mem_filter.mpr ⟨listed,decide_eq_true ends⟩,?_⟩
  simp

theorem selectFrom_succ (among : List (RangeCacheSegment Price)) (last : Int) (count : Nat) (cursor : Int) :
    selectFrom among last (count + 1) cursor =
      if last ≤ cursor then []
      else
        match choice among cursor with
        | none => []
        | some next => next :: selectFrom among last count (min next.rangeEnd last) := rfl

section
variable {among : List (RangeCacheSegment Price)} (sorted : among.Pairwise Before)
  (ranges : ∀ segment ∈ among, segment.rangeStart < segment.rangeEnd)
variable {count : Nat} {cursor last : Int} {segment : RangeCacheSegment Price}

include sorted ranges

theorem selected_chosen
    (selected : segment ∈ selectFrom among last count cursor) : ∃ at_, Chosen among at_ segment := by
  induction count generalizing cursor with
  | zero => cases selected
  | succ count ih =>
    rw [selectFrom_succ] at selected
    split at selected
    · cases selected
    · split at selected
      · cases selected
      · rename_i next isNext
        rcases mem_cons.mp selected with rfl | later
        · exact ⟨cursor,choice_some sorted ranges isNext⟩
        · exact ih later

theorem selected_cover {t : Int} (listed : segment ∈ among)
    (starts : segment.rangeStart ≤ t) (ends : t < segment.rangeEnd) (inTime : t < last)
    (started : cursor ≤ t) (enough : (among.filter fun item => cursor < item.rangeEnd).length ≤ count) :
    ∃ other ∈ selectFrom among last count cursor, other.rangeStart ≤ t ∧ t < other.rangeEnd := by
  induction count generalizing cursor with
  | zero =>
    have none := eq_nil_of_length_eq_zero (Nat.le_zero.mp enough)
    exact absurd (decide_eq_true (started.trans_lt ends)) (filter_eq_nil_iff.mp none segment listed)
  | succ count ih =>
    rw [selectFrom_succ,if_neg (by omega)]
    cases isNext : choice among cursor with
    | none => exact absurd ⟨starts,ends⟩ (choice_none isNext segment listed t started)
    | some next =>
      have chosen := choice_some sorted ranges isNext
      by_cases here : t < next.rangeEnd
      · exact ⟨next,mem_cons_self,chosen.reaches segment listed t started starts ends,here⟩
      · have fewer := fewer_after chosen.listed chosen.ends
        obtain ⟨other,selected,has⟩ := @ih (min next.rangeEnd last) (by omega) (by
          rw [min_eq_left (by omega)]
          omega)
        exact ⟨other,mem_cons_of_mem _ selected,has⟩
end

theorem firstOfKeys_key [LinearOrder Price] {selected : List (RangeCacheSegment Price)} {seen : List (StorageKey Price)} (listed : segment ∈ selected) (fresh : segment.storageKey ∉ seen) :
    ∃ kept ∈ firstOfKeys seen selected, kept.storageKey = segment.storageKey := by
  induction selected generalizing seen with
  | nil => cases listed
  | cons next rest ih =>
    rw [firstOfKeys]
    by_cases same : next.storageKey = segment.storageKey
    · rw [if_neg (same ▸ fresh)]
      exact ⟨next,mem_cons_self,same⟩
    · have isRest := (mem_cons.mp listed).resolve_left fun isNext => same (congrArg _ isNext.symm)
      split
      · exact ih isRest fresh
      · obtain ⟨kept,isKept,isSame⟩ := ih isRest fun seenNow => (mem_cons.mp seenNow).elim (fun now => same now.symm) fresh
        exact ⟨kept,mem_cons_of_mem _ isKept,isSame⟩

section
variable [LinearOrder Price] {segments : List (RangeCacheSegment Price)} (named : ∀ segment ∈ segments, Named stepMs segment)
variable {segment : RangeCacheSegment Price}

include named

theorem selected_foremost {requested : Span Int}
    (selected : segment ∈ selectRangeCacheSegments segments stepMs requested) :
    Foremost segments segment ∧ requested.first < segment.rangeEnd ∧ segment.rangeStart < requested.last := by
  obtain ⟨_,chosen⟩ := selected_chosen candidates_sorted (candidates_range named) (mem_firstOfKeys selected)
  obtain ⟨listed,starts,ends⟩ := (mem_candidates_iff named).mp chosen.listed
  refine ⟨⟨?_,?_⟩,starts,ends⟩
  · rw [← find?_candidates named chosen.listed]
    exact chosen.first
  · intro other isOther before after
    exact chosen.widest other ((mem_candidates_iff named).mpr ⟨isOther,by omega,by omega⟩) before after

theorem firstOfKeys_kept {selected : List (RangeCacheSegment Price)} (among : ∀ segment ∈ selected, segment ∈ segments) (listed : segment ∈ selected) : segment ∈ firstOfKeys [] selected := by
  obtain ⟨kept,isKept,same⟩ := firstOfKeys_key listed not_mem_nil
  have isListed := among kept (mem_firstOfKeys isKept)
  rwa [← named_eq (named kept isListed) (named segment (among segment listed)) same]

variable {t : Int}

theorem selected_at {requested : Span Int} (listed : segment ∈ segments)
    (starts : segment.rangeStart ≤ t) (ends : t < segment.rangeEnd) (inRange : requested.Has t) :
    ∃ other ∈ selectRangeCacheSegments segments stepMs requested, other.rangeStart ≤ t ∧ t < other.rangeEnd := by
  have isCandidate := (@mem_candidates_iff _ _ _ named requested _).mpr ⟨listed,inRange.1.trans_lt ends,
    starts.trans_lt inRange.2⟩
  obtain ⟨other,selected,has⟩ := selected_cover candidates_sorted (candidates_range named) isCandidate starts ends inRange.2
    inRange.1 (length_filter_le _ _)
  refine ⟨other,firstOfKeys_kept named ?_ selected,has⟩
  exact fun segment isSelected => mem_candidates (mem_selectFrom isSelected)

theorem foremost_alone (foremost : Foremost segments segment)
    (starts : segment.rangeStart ≤ t) (ends : t < segment.rangeEnd) :
    selectRangeCacheSegments segments stepMs ⟨segment.rangeStart,t + 1⟩ = [segment] := by
  have listed := mem_of_find?_eq_some foremost.first
  have isCandidate := (@mem_candidates_iff _ _ _ named ⟨segment.rangeStart,t + 1⟩ _).mpr
    ⟨listed,by dsimp only; omega,by dsimp only; omega⟩
  have isFirst := (find?_candidates named isCandidate).trans foremost.first
  rw [selectRangeCacheSegments]
  cases length : (candidates segments stepMs ⟨segment.rangeStart,t + 1⟩).length with
  | zero =>
    rw [eq_nil_of_length_eq_zero length] at isCandidate
    cases isCandidate
  | succ count =>
    dsimp only
    rw [selectFrom_succ,if_neg (by omega)]
    cases isNext : choice (candidates segments stepMs ⟨segment.rangeStart,t + 1⟩) segment.rangeStart with
    | none => exact absurd ⟨le_refl _,by omega⟩ (choice_none isNext segment isCandidate segment.rangeStart (le_refl _))
    | some next =>
      have chosen := choice_some candidates_sorted (candidates_range named) isNext
      have before := chosen.reaches segment isCandidate segment.rangeStart (le_refl _) (le_refl _) (by omega)
      have after := chosen.furthest segment isCandidate (le_refl _) (by omega)
      have isListed := ((mem_candidates_iff named).mp chosen.listed).1
      have interval := sameInterval_iff.mp (foremost.widest next isListed before after)
      have same : (sameInterval · segment) = (sameInterval · next) := by
        funext other
        rw [sameInterval,sameInterval,interval.1,interval.2]
      rw [same,chosen.first] at isFirst
      cases isFirst
      have done : selectFrom (candidates segments stepMs ⟨segment.rangeStart,t + 1⟩) (t + 1) count
          (min segment.rangeEnd (t + 1)) = [] := by
        cases count with
        | zero => rfl
        | succ count => rw [selectFrom_succ,if_pos (by omega)]
      dsimp only
      rw [done]
      rfl
end

section
variable {store : Store Price} {dataset : Dataset} {requested : Span Int}

def gathered (requested : Span Int) (reads : List (RangeCacheSegment Price × Option (List (Candle Price)))) :
    List (Candle Price) := (reads.filterMap (coveredBy requested)).flatMap (·.2)

variable {candle : Candle Price} {reads : List (RangeCacheSegment Price × Option (List (Candle Price)))}

theorem of_mem_gathered
    (listed : candle ∈ gathered requested reads) : ∃ read ∈ reads, ∃ candles, read.2 = some candles ∧ candle ∈ candles := by
  obtain ⟨covered,isCovered,inCovered⟩ := mem_flatMap.mp listed
  obtain ⟨read,isRead,covers⟩ := mem_filterMap.mp isCovered
  refine ⟨read,isRead,?_⟩
  unfold coveredBy at covers
  split at covers
  · cases covers
  · split at covers
    · cases covers
    · rename_i candles isCandles
      dsimp only at covers
      split at covers
      · cases covers
      · cases covers
        exact ⟨candles,isCandles,(mem_within.mp (mem_series inCovered)).1⟩

variable {candles : List (Candle Price)} {segment : RangeCacheSegment Price}

theorem mem_gathered (isRead : (segment,some candles) ∈ reads) (ascending : Ascending (·.timestamp) candles)
    (starts : requested.first < segment.rangeEnd) (ends : segment.rangeStart < requested.last)
    (listed : candle ∈ candles) (inRange : requested.Has candle.timestamp) : candle ∈ gathered requested reads := by
  have sliced := ((slice_among ascending (fun _ => id) requested.first requested.last).1 candle).mpr ⟨listed,inRange⟩
  have some : (sliceAndDedupeCandles candles requested.first requested.last).isEmpty = false := by
    rw [isEmpty_eq_false_iff]
    exact ne_nil_of_mem sliced
  have covers : coveredBy requested (segment,.some candles) =
      .some (⟨max segment.rangeStart requested.first,min segment.rangeEnd requested.last⟩,
        sliceAndDedupeCandles candles requested.first requested.last) := by
    rw [coveredBy,if_neg (by dsimp only; omega)]
    dsimp only
    rw [if_neg (by rw [some]; exact Bool.false_ne_true)]
  exact mem_flatMap.mpr ⟨_,mem_filterMap.mpr ⟨_,isRead,covers⟩,sliced⟩

variable [LinearOrder Price]

theorem readSegments_all {segments : List (RangeCacheSegment Price)} (returned : readSegments store segments = some reads) :
    ∀ segment ∈ segments, ∃ read, (segment,read) ∈ reads := by
  induction segments generalizing reads with
  | nil => exact forall_mem_nil _
  | cons first rest ih =>
    rw [readSegments] at returned
    split at returned
    · cases returned
    · obtain ⟨others,later,rfl⟩ := Option.map_eq_some_iff.mp returned
      intro segment listed
      rcases mem_cons.mp listed with rfl | isRest
      · exact ⟨_,mem_cons_self⟩
      · obtain ⟨read,isRead⟩ := ih later segment isRest
        exact ⟨read,mem_cons_of_mem _ isRead⟩

theorem read_ascending
    (read : readRangeCacheSegment store segment = some (some candles)) : Ascending (·.timestamp) candles := by
  have valid := (read_candles read).2
  rw [validateOhlcvFeed] at valid
  split_ifs at valid with _ _ isFeed
  rw [validFeed,Bool.and_eq_true] at isFeed
  exact of_decide_eq_true isFeed.1

variable {coverage : RangeCoverageResult Price}

theorem coverage_candles (returned : readRangeCacheCoverage store dataset stepMs requested = some coverage) :
    ∃ reads, readSegments store (selectRangeCacheSegments (segmentsOf store dataset) stepMs requested) = some reads ∧
      coverage.candles = sliceAndDedupeCandles (gathered requested reads) requested.first requested.last := by
  unfold readRangeCacheCoverage at returned
  rw [segmentsOf]
  split at returned
  · rename_i none
    cases returned
    rw [none]
    exact ⟨[],rfl,rfl⟩
  · rename_i index isIndex
    obtain ⟨reads,isReads,rfl⟩ := Option.map_eq_some_iff.mp returned
    rw [isIndex]
    exact ⟨reads,isReads,rfl⟩

theorem coverage_stored (returned : readRangeCacheCoverage store dataset stepMs requested = some coverage)
    (listed : candle ∈ coverage.candles) : Stored store (segmentsOf store dataset) candle ∧ requested.Has candle.timestamp := by
  obtain ⟨reads,isReads,same⟩ := coverage_candles returned
  rw [same] at listed
  obtain ⟨isGathered,inRange⟩ := mem_within.mp (mem_series listed)
  obtain ⟨read,isRead,candles,isCandles,isListed⟩ := of_mem_gathered isGathered
  obtain ⟨selected,reading⟩ := readSegments_some isReads read isRead
  rw [isCandles] at reading
  exact ⟨⟨read.1,mem_selected selected,candles,reading,isListed⟩,inRange⟩

variable (named : ∀ segment ∈ segmentsOf store dataset, Named stepMs segment)
include named

theorem coverage_exact (solid : Solid store (segmentsOf store dataset)) : CoverageExact store dataset stepMs := by
  intro requested coverage returned candle
  refine ⟨coverage_stored returned,?_⟩
  rintro ⟨stored,inRange⟩
  obtain ⟨reads,isReads,same⟩ := coverage_candles returned
  have holds : ∀ other ∈ selectRangeCacheSegments (segmentsOf store dataset) stepMs requested, ∀ candle,
      Stored store (segmentsOf store dataset) candle → other.rangeStart ≤ candle.timestamp → candle.timestamp < other.rangeEnd →
        ∃ candles, (other,some candles) ∈ reads ∧ readRangeCacheSegment store other = some (some candles) ∧ candle ∈ candles := by
    intro other selected candle stored starts ends
    obtain ⟨read,isRead⟩ := readSegments_all isReads other selected
    have reading := (readSegments_some isReads _ isRead).2
    obtain ⟨candles,rfl,listed⟩ := solid other (selected_foremost named selected).1 read reading candle stored starts ends
    exact ⟨candles,isRead,reading,listed⟩
  have inside : ∀ segment ∈ segmentsOf store dataset, ∀ candles, readRangeCacheSegment store segment = some (some candles) →
      ∀ candle ∈ candles, segment.rangeStart ≤ candle.timestamp ∧ candle.timestamp < segment.rangeEnd := by
    intro segment listed candles read candle isCandle
    exact (named segment listed).inside candle ((read_candles read).1 ▸ isCandle)
  obtain ⟨segment,listed,candles,reading,isCandle⟩ := stored
  obtain ⟨starts,ends⟩ := inside segment listed candles reading candle isCandle
  obtain ⟨other,selected,begins,stops⟩ := selected_at named listed starts ends inRange
  obtain ⟨others,isRead,otherReading,isOther⟩ := holds other selected candle ⟨segment,listed,candles,reading,isCandle⟩ begins stops
  obtain ⟨_,overlaps⟩ := selected_foremost named selected
  have isGathered := mem_gathered isRead (read_ascending otherReading) overlaps.1 overlaps.2 isOther inRange
  rw [same]
  -- What is returned for this time is of a segment that has both candles, so that they are one.
  obtain ⟨winner,isWinner,sameTime⟩ := @series_times _ _ _ (fun candle : Candle Price => candle.timestamp) _ _
    (mem_within.mpr ⟨isGathered,inRange⟩)
  have won : Stored store (segmentsOf store dataset) winner ∧ requested.Has winner.timestamp :=
    coverage_stored returned (same ▸ isWinner)
  obtain ⟨again,_,againReading,isWinnerToo⟩ := holds other selected winner won.1 (sameTime ▸ begins) (sameTime ▸ stops)
  rw [otherReading] at againReading
  cases againReading
  have one := (read_ascending otherReading).injective isWinnerToo isOther sameTime
  exact one ▸ isWinner

theorem solid_of_exact (exact : CoverageExact store dataset stepMs) : Solid store (segmentsOf store dataset) := by
  intro segment foremost read reading candle stored starts ends
  let requested : Span Int := ⟨segment.rangeStart,candle.timestamp + 1⟩
  have alone := foremost_alone named foremost starts ends
  have reads : readSegments store (selectRangeCacheSegments (segmentsOf store dataset) stepMs requested) =
      some [(segment,read)] := by
    rw [alone,readSegments,reading]
    rfl
  have returns : ∃ coverage, readRangeCacheCoverage store dataset stepMs requested = some coverage := by
    unfold readRangeCacheCoverage
    split
    · exact ⟨_,rfl⟩
    · rename_i index isIndex
      rw [segmentsOf,isIndex] at reads
      exact ⟨_,congrArg (Option.map _) reads⟩
  obtain ⟨coverage,returned⟩ := returns
  obtain ⟨others,isOthers,same⟩ := coverage_candles returned
  rw [reads] at isOthers
  cases isOthers
  have listed := (exact requested coverage returned candle).mpr ⟨stored,starts,by dsimp only [requested]; omega⟩
  rw [same] at listed
  obtain ⟨one,isOne,candles,isCandles,isListed⟩ := of_mem_gathered (mem_within.mp (mem_series listed)).1
  rw [mem_singleton.mp isOne] at isCandles
  exact ⟨candles,isCandles,isListed⟩

theorem pruning_keeps_iff {new : List (RangeCacheSegment Price)} (newNamed : ∀ segment ∈ new, Named stepMs segment) :
    PruningKeeps store dataset stepMs new ↔ Replaced store (segmentsOf store dataset) new := by
  constructor
  · intro keeps segment listed _ candle holds
    obtain ⟨other,isLeft,also⟩ := keeps candle ⟨segment,listed,holds⟩
    exact ⟨other,(mem_prunedOnUpsert named newNamed).mp isLeft,also⟩
  · rintro replaced candle ⟨segment,listed,holds⟩
    by_cases covered : ∃ later ∈ new, rangeCacheSegmentCovers later segment = true
    · obtain ⟨other,uncovered,also⟩ := replaced segment listed covered candle holds
      exact ⟨other,(mem_prunedOnUpsert named newNamed).mpr uncovered,also⟩
    · refine ⟨segment,(mem_prunedOnUpsert named newNamed).mpr (.inl ⟨listed,?_⟩),holds⟩
      intro later isNew
      rw [← Bool.not_eq_true]
      exact fun covers => covered ⟨later,isNew,covers⟩

/-- No stored candle is lost exactly if the segments are solid and the covered ones replaced. -/
theorem no_candle_lost_iff {new : List (RangeCacheSegment Price)} (newNamed : ∀ segment ∈ new, Named stepMs segment) :
    CoverageExact store dataset stepMs ∧ PruningKeeps store dataset stepMs new ↔
      Solid store (segmentsOf store dataset) ∧ Replaced store (segmentsOf store dataset) new := by
  rw [pruning_keeps_iff named newNamed]
  exact ⟨fun both => ⟨solid_of_exact named both.1,both.2⟩,fun both => ⟨coverage_exact named both.1,both.2⟩⟩
end
def minute (number : Int) : Candle Nat := ⟨60000 * number,1,1,1,1,1⟩
def minuteSegment (first last : Int) (candles : List (Candle Nat)) : RangeCacheSegment Nat :=
  ⟨60000 * first,60000 * last,60000,⟨text "BTC/USDT",⟨text "binance",text "BTC/USDT",text "1m"⟩,60000 * first,60000 * last,candles⟩,
    candles,candles.length⟩
def minuteStore (segments : List (RangeCacheSegment Nat)) : Store Nat where
  index _ := some ⟨⟨text "binance",text "BTC/USDT",text "1m"⟩,segments⟩
  file key := .candles key.checksum
def minuteProvider (candles : List (Candle Nat)) (ascending : Ascending (·.timestamp) candles) : Provider Nat :=
  ⟨fun _ => candles,fun _ => ascending,fun _ => 10⟩
theorem some_fetches : 0 < 1000 := by decide
/-- The store after a request for minutes. -/
def filled (provider : Provider Nat) (store : Store Nat) (first limit : Int) : Store Nat :=
  (getOrFillPublicCandleCacheV2 ⟨.monthly,1000,some_fetches,100000,fun _ _ => false⟩ provider store
    ⟨text "BTC/USDT",⟨text "binance",text "BTC/USDT",text "1m"⟩,60000 * first,limit⟩).1
/-- A provider without the second of three minutes is asked for them, and one that has it for this minute. -/
def nestedStore : Store Nat :=
  filled (minuteProvider [minute 0,minute 1,minute 2] (by decide))
    (filled (minuteProvider [minute 0,minute 2] (by decide)) ⟨fun _ => none,fun _ => .missing⟩ 0 3) 1 1

theorem nested_hole :
    let dataset : Dataset := ⟨text "binance",text "BTC/USDT",text "1m"⟩
    let holed := minuteSegment 0 3 [minute 0,minute 2]
    let nested := minuteSegment 1 2 [minute 1]
    ¬CoverageExact nestedStore dataset 60000 ∧ ¬PruningKeeps (minuteStore [nested]) dataset 60000 [holed] := by
  intro dataset holed nested
  constructor
  · intro exact
    have returned : readRangeCacheCoverage nestedStore dataset 60000 ⟨0,180000⟩ = some ⟨true,[minute 0,minute 2],[]⟩ := by
      decide +kernel
    have segments : segmentsOf nestedStore dataset = [holed,nested] := by decide +kernel
    have reading : readRangeCacheSegment nestedStore nested = some (some [minute 1]) := by decide +kernel
    have stored : Stored nestedStore (segmentsOf nestedStore dataset) (minute 1) := by
      rw [segments]
      exact ⟨nested,mem_cons_of_mem _ mem_cons_self,_,reading,mem_singleton_self _⟩
    have listed := (exact _ _ returned (minute 1)).mpr ⟨stored,by decide,by decide⟩
    revert listed
    decide
  · intro keeps
    have reading : readRangeCacheSegment (minuteStore [nested]) nested = some (some [minute 1]) := by decide +kernel
    obtain ⟨segment,isLeft,candles,left,listed⟩ := keeps (minute 1) ⟨nested,mem_cons_self,_,reading,mem_singleton_self _⟩
    have pruned : prunedOnUpsert 60000 (segmentsOf (minuteStore [nested]) dataset) [holed] = [holed] := by decide +kernel
    rw [pruned] at isLeft
    rw [mem_singleton.mp isLeft] at left
    rw [(read_candles left).1] at listed
    revert listed
    decide

theorem first_minute_replaced :
    let dataset : Dataset := ⟨text "binance",text "BTC/USDT",text "1m"⟩
    let first := minuteSegment 0 1 [minute 0]
    let both := minuteSegment 0 2 [minute 0,minute 1]
    CoverageExact (minuteStore [first]) dataset 60000 ∧ PruningKeeps (minuteStore [first]) dataset 60000 [both] := by
  intro dataset first both
  have named : ∀ segment ∈ segmentsOf (minuteStore [first]) dataset, Named 60000 segment := by
    intro segment listed
    rw [mem_singleton.mp listed]
    exact ⟨rfl,by decide,rfl,rfl,rfl,rfl,by decide⟩
  have newNamed : ∀ segment ∈ [both], Named 60000 segment := by
    intro segment listed
    rw [mem_singleton.mp listed]
    exact ⟨rfl,by decide,rfl,rfl,rfl,rfl,by decide⟩
  refine (no_candle_lost_iff named newNamed).mpr ⟨?_,?_⟩
  · rintro segment foremost read reading candle ⟨other,listed,candles,otherReading,isCandle⟩ _ _
    have isSegment := mem_of_find?_eq_some foremost.first
    rw [mem_singleton.mp isSegment] at reading
    rw [mem_singleton.mp listed,reading] at otherReading
    exact ⟨candles,Option.some.inj otherReading,isCandle⟩
  · rintro segment listed _ candle ⟨candles,reading,isCandle⟩
    rw [mem_singleton.mp listed] at reading
    rw [(read_candles reading).1] at isCandle
    have bothReading : readRangeCacheSegment (minuteStore [first]) both = some (some [minute 0,minute 1]) := by decide +kernel
    refine ⟨both,.inr ⟨[],[],rfl,forall_mem_nil _⟩,_,bothReading,?_⟩
    rw [mem_singleton.mp isCandle]
    exact mem_cons_self
end Codebot.StoredCandles
