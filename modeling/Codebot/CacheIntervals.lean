import Codebot.StoredCandles

/-!
The intervals that the candle cache works with: the segments that are selected for a request, what they leave missing,
and the months by which one-minute candles are fetched (`intervals_exact`). A segment that ends before it begins can
hold the selection for ever.
-/
namespace Codebot.CacheIntervals
open Series Timeframes CandleCache CachedSegments StoredCandles List

variable {Price : Type}
/-- The loop of `selectRangeCacheSegments`, where it ends. -/
inductive Selects (among : List (RangeCacheSegment Price)) (last : Int) : Int → List (RangeCacheSegment Price) → Prop
  | reached {cursor} (ends : last ≤ cursor) : Selects among last cursor []
  | exhausted {cursor} (before : cursor < last) (nothing : choice among cursor = none) : Selects among last cursor []
  | chosen {cursor next rest} (before : cursor < last) (isNext : choice among cursor = some next)
      (later : Selects among last (min next.rangeEnd last) rest) : Selects among last cursor (next :: rest)
/-- The loop of `cacheFetchWindows`, where it ends. -/
inductive Fetches (last : Int) : Int → List (Span Int) → Prop
  | reached {cursor} (ends : last ≤ cursor) : Fetches last cursor []
  | window {cursor rest} (before : cursor < last) (later : Fetches last (min last (nextUtcMonthStart cursor)) rest) :
      Fetches last cursor
        ((if cursor < min last (nextUtcMonthStart cursor) then [⟨cursor,min last (nextUtcMonthStart cursor)⟩] else []) ++ rest)
def RangeHas (segment : RangeCacheSegment Price) (t : Int) : Prop := segment.rangeStart ≤ t ∧ t < segment.rangeEnd
def Apart (intervals : List (Span Int)) : Prop :=
  intervals.Pairwise (fun a b => a.last < b.first) ∧ ∀ interval ∈ intervals, interval.first < interval.last
/-- The windows follow each other from a time to the last. -/
def Tiles (last : Int) : Int → List (Span Int) → Prop
  | cursor, [] => last ≤ cursor
  | cursor, window :: rest => window.first = cursor ∧ window.first < window.last ∧ window.last ≤ last ∧ Tiles last window.last rest
def MonthStart (t : Int) : Prop :=
  ∃ (year : Int) (month : Nat), month < 12 ∧ t = (dayFromYear year + daysBeforeMonth (leapDay year) month) * msPerDay
def OfMonth (last : Int) (window : Span Int) : Prop :=
  (∀ t, MonthStart t → ¬ (window.first < t ∧ t < window.last)) ∧ (window.last = last ∨ MonthStart window.last)

theorem selects {among : List (RangeCacheSegment Price)} (sorted : among.Pairwise Before)
    (ranges : ∀ segment ∈ among, segment.rangeStart < segment.rangeEnd) {last : Int} {count : Nat} {cursor : Int}
    (enough : (among.filter fun item => cursor < item.rangeEnd).length ≤ count) :
    Selects among last cursor (selectFrom among last count cursor) := by
  induction count generalizing cursor with
  | zero =>
    by_cases ends : last ≤ cursor
    · exact .reached ends
    · refine .exhausted (not_le.mp ends) ?_
      by_contra some
      obtain ⟨next,isNext⟩ := Option.ne_none_iff_exists'.mp some
      have chosen := choice_some sorted ranges isNext
      have none := eq_nil_of_length_eq_zero (Nat.le_zero.mp enough)
      exact filter_eq_nil_iff.mp none next chosen.listed (decide_eq_true chosen.ends)
  | succ count ih =>
    rw [selectFrom_succ]
    split
    · rename_i ends
      exact .reached ends
    · rename_i before
      cases isNext : choice among cursor with
      | none => exact .exhausted (not_le.mp before) isNext
      | some next =>
        have chosen := choice_some sorted ranges isNext
        have fewer := fewer_after chosen.listed chosen.ends
        refine .chosen (not_le.mp before) isNext ?_
        by_cases short : next.rangeEnd ≤ last
        · rw [min_eq_left short]
          exact ih (by omega)
        · rw [min_eq_right (by omega)]
          cases count with
          | zero => exact .reached (le_refl last)
          | succ count =>
            rw [selectFrom_succ,if_pos (le_refl last)]
            exact .reached (le_refl last)

section
variable [LinearOrder Price] {segments : List (RangeCacheSegment Price)} {stepMs : Nat} {requested : Span Int}

theorem selected_iff (proper : ∀ segment ∈ segments, segment.rangeStart < segment.rangeEnd)
    (keyed : ∀ segment ∈ segments, ∀ other ∈ segments, segment.storageKey = other.storageKey →
      segment.rangeStart = other.rangeStart ∧ segment.rangeEnd = other.rangeEnd) {t : Int} (inRange : requested.Has t) :
    (∃ segment ∈ selectRangeCacheSegments segments stepMs requested, RangeHas segment t) ↔
      ∃ segment ∈ candidates segments stepMs requested, RangeHas segment t := by
  constructor
  · rintro ⟨segment,selected,has⟩
    exact ⟨segment,mem_selectFrom (mem_firstOfKeys selected),has⟩
  · rintro ⟨segment,isCandidate,starts,ends⟩
    obtain ⟨other,selected,has⟩ := selected_cover candidates_sorted (fun segment listed => proper segment (mem_candidates listed))
      isCandidate starts ends inRange.2 inRange.1 (length_filter_le _ _)
    obtain ⟨kept,isKept,same⟩ := firstOfKeys_key selected not_mem_nil
    have interval := keyed kept (mem_selected isKept) other (mem_candidates (mem_selectFrom selected)) same
    refine ⟨kept,isKept,?_⟩
    unfold RangeHas
    omega

end

theorem gaps_past {last cursor : Int} (past : last ≤ cursor) {spans : List (Span Int)}
    (started : ∀ span ∈ spans, span.first ≤ cursor) : gaps last cursor spans = [] := by
  induction spans generalizing cursor with
  | nil => exact if_neg (not_lt.mpr past)
  | cons span rest ih =>
    obtain ⟨here,others⟩ := forall_mem_cons.mp started
    rw [gaps,if_neg (not_lt.mpr here)]
    exact ih (past.trans (le_max_left _ _)) fun other member => (others other member).trans (le_max_left _ _)

/-- The gaps of spans in order are apart, and have nothing of a span. -/
theorem gaps_apart {last : Int} {spans : List (Span Int)} (sorted : spans.Pairwise fun a b => a.first ≤ b.first)
    (proper : ∀ span ∈ spans, span.first < span.last) (inside : ∀ span ∈ spans, span.first ≤ last) {cursor : Int} :
    Apart (gaps last cursor spans) ∧ ∀ gap ∈ gaps last cursor spans, ∀ t, gap.Has t → ∀ span ∈ spans, ¬ span.Has t := by
  induction spans generalizing cursor with
  | nil =>
    refine ⟨?_,fun _ _ _ _ _ none => (nomatch none)⟩
    rw [gaps]
    split
    · rename_i before
      exact ⟨pairwise_singleton _ _,fun gap member => by rw [mem_singleton.mp member]; exact before⟩
    · exact ⟨List.Pairwise.nil,forall_mem_nil _⟩
  | cons span rest ih =>
    obtain ⟨after,sorted⟩ := pairwise_cons.mp sorted
    obtain ⟨isProper,proper⟩ := forall_mem_cons.mp proper
    obtain ⟨isInside,inside⟩ := forall_mem_cons.mp inside
    obtain ⟨apart,outside⟩ := @ih sorted proper inside (max cursor span.last)
    have later := gaps_between inside (le_refl (max cursor span.last))
    have afterSpan : ∀ gap ∈ gaps last (max cursor span.last) rest, span.last ≤ gap.first :=
      fun gap member => (le_max_right _ _).trans (later gap member).1
    rw [gaps]
    split
    · rename_i before
      refine ⟨⟨pairwise_cons.mpr ⟨fun gap member => isProper.trans_le (afterSpan gap member),apart.1⟩,
        forall_mem_cons.mpr ⟨before,apart.2⟩⟩,?_⟩
      rw [singleton_append]
      intro gap member t has other isOther
      rcases mem_cons.mp member with rfl | member
      · have notBefore : span.first ≤ other.first := by
          rcases mem_cons.mp isOther with rfl | isRest
          · exact le_refl _
          · exact after other isRest
        exact fun inOther => absurd (has.2.trans_le (notBefore.trans inOther.1)) (lt_irrefl t)
      · rcases mem_cons.mp isOther with rfl | isRest
        · exact fun inSpan => absurd ((inSpan.2.trans_le (afterSpan gap member)).trans_le has.1) (lt_irrefl t)
        · exact outside gap member t has other isRest
    · refine ⟨apart,?_⟩
      intro gap member t has other isOther
      rcases mem_cons.mp isOther with rfl | isRest
      · exact fun inSpan => absurd ((inSpan.2.trans_le (afterSpan gap member)).trans_le has.1) (lt_irrefl t)
      · exact outside gap member t has other isRest

theorem missing_exact (requested : Span Int) {intervals : List (Span Int)} (proper : ∀ interval ∈ intervals, interval.first < interval.last) :
    Apart (missingIntervalsForCoverage requested intervals) ∧
      ∀ t, (∃ missing ∈ missingIntervalsForCoverage requested intervals, missing.Has t) ↔
        requested.Has t ∧ ∀ interval ∈ intervals, ¬ interval.Has t := by
  let relevant := intervals.filter fun item => requested.first < item.last ∧ item.first < requested.last
  let clipped := (ordered (·.first) relevant).map fun item =>
    (⟨max item.first requested.first,min item.last requested.last⟩ : Span Int)
  have isMissing : missingIntervalsForCoverage requested intervals =
      (gaps requested.last requested.first clipped).filter fun interval => interval.first < interval.last := rfl
  have relevant_iff : ∀ {interval}, interval ∈ ordered (·.first) relevant ↔
      interval ∈ intervals ∧ requested.first < interval.last ∧ interval.first < requested.last := by
    intro interval
    rw [mem_ordered,mem_filter,decide_eq_true_iff]
  by_cases some : requested.first < requested.last
  · have inside : ∀ span ∈ clipped, span.first ≤ requested.last := by
      intro span member
      obtain ⟨interval,isRelevant,rfl⟩ := mem_map.mp member
      exact max_le (relevant_iff.mp isRelevant).2.2.le some.le
    have isProper : ∀ span ∈ clipped, span.first < span.last := by
      intro span member
      obtain ⟨interval,isRelevant,rfl⟩ := mem_map.mp member
      obtain ⟨listed,ends,starts⟩ := relevant_iff.mp isRelevant
      have ofInterval := proper interval listed
      dsimp only
      omega
    have sorted : clipped.Pairwise fun a b => a.first ≤ b.first :=
      pairwise_map.mpr (ordered_sorted.imp fun less => max_le_max_right _ less)
    obtain ⟨apart,outside⟩ := @gaps_apart requested.last clipped sorted isProper inside requested.first
    rw [filter_eq_self.mpr fun gap member => decide_eq_true (apart.2 gap member)] at isMissing
    rw [isMissing]
    refine ⟨apart,fun t => ⟨?_,?_⟩⟩
    · rintro ⟨gap,member,has⟩
      have between := gaps_between inside (le_refl requested.first) gap member
      have inRange : requested.Has t := ⟨between.1.trans has.1,has.2.trans_le between.2.2⟩
      refine ⟨inRange,fun interval listed inInterval => ?_⟩
      have isRelevant := relevant_iff.mpr ⟨listed,inRange.1.trans_lt inInterval.2,inInterval.1.trans_lt inRange.2⟩
      exact outside gap member t has _ (mem_map_of_mem isRelevant)
        ⟨max_le inInterval.1 inRange.1,lt_min inInterval.2 inRange.2⟩
    · rintro ⟨inRange,uncovered⟩
      rw [← isMissing]
      rcases missing_cover inRange.1 inRange.2 with ⟨interval,listed,has⟩ | missing
      · exact absurd has (uncovered interval listed)
      · exact missing
  · have none : missingIntervalsForCoverage requested intervals = [] := by
      rw [isMissing,gaps_past (not_lt.mp some)]
      · rfl
      · intro span member
        obtain ⟨interval,isRelevant,rfl⟩ := mem_map.mp member
        exact max_le ((relevant_iff.mp isRelevant).2.2.le.trans (not_lt.mp some)) (le_refl _)
    rw [none]
    refine ⟨⟨List.Pairwise.nil,forall_mem_nil _⟩,fun t => iff_of_false ?_ ?_⟩
    · exact fun ⟨_,member,_⟩ => (nomatch member)
    · exact fun ⟨inRange,_⟩ => some (inRange.1.trans_lt inRange.2)

theorem day_in_month {leap day : Int} (started : 0 ≤ day) : daysBeforeMonth leap (monthFromDay leap day) ≤ day := by
  unfold monthFromDay
  cases found : (List.range 11).find? fun month => day < daysBeforeMonth leap (month + 1) with
  | none =>
    have missed := find?_eq_none.mp found 10 (by decide)
    simpa using missed
  | some month =>
    cases month with
    | zero => exact started
    | succ month =>
      obtain ⟨_,_,missed⟩ := find?_range_eq_some.mp found
      have last := missed month (Nat.lt_succ_self month)
      simpa using last

theorem monthFromDay_lt (leap day : Int) : monthFromDay leap day < 12 := by
  unfold monthFromDay
  cases found : (List.range 11).find? fun month => day < daysBeforeMonth leap (month + 1) with
  | none => decide
  | some month =>
    have listed := mem_range.mp (mem_of_find?_eq_some found)
    exact listed.trans (by decide)
theorem daysBeforeMonth_step {leap : Int} (nonneg : 0 ≤ leap) :
    ∀ month, daysBeforeMonth leap month ≤ daysBeforeMonth leap (month + 1)
  | 0 | 1 | 2 | 3 | 4 | 5 | 6 | 7 | 8 | 9 | 10 | 11 => by
    simp only [daysBeforeMonth]
    omega
  | _ + 12 => le_refl (365 + leap)
theorem daysBeforeMonth_mono {leap : Int} (nonneg : 0 ≤ leap) {month later : Nat} (before : month ≤ later) :
    daysBeforeMonth leap month ≤ daysBeforeMonth leap later := by
  induction before with
  | refl => exact le_refl _
  | step _ ih => exact ih.trans (daysBeforeMonth_step nonneg _)
theorem dayFromYear_mono {year later : Int} (before : year ≤ later) : dayFromYear year ≤ dayFromYear later := by
  unfold dayFromYear
  omega
theorem dayFromYear_next (year : Int) : dayFromYear (year + 1) = dayFromYear year + 365 + leapDay year := by
  unfold leapDay
  omega

/-- From the year 100 on, the next month start is the first one after a time. -/
theorem nextUtcMonthStart_least {t : Int} (modern : dayFromYear 100 * msPerDay ≤ t) :
    MonthStart (nextUtcMonthStart t) ∧ ∀ other, MonthStart other → t < other → nextUtcMonthStart t ≤ other := by
  obtain ⟨started,ends⟩ := yearFromDay_between (t / msPerDay)
  unfold nextUtcMonthStart dateUtc
  dsimp only
  have isDay : t / msPerDay * msPerDay ≤ t ∧ t < (t / msPerDay + 1) * msPerDay := by
    unfold msPerDay
    omega
  have century : dayFromYear 100 ≤ t / msPerDay := by
    unfold msPerDay at modern ⊢
    omega
  generalize t / msPerDay = day at *
  generalize yearFromDay day = year at *
  have late : 100 ≤ year := by
    by_contra early
    have before := dayFromYear_mono (show year + 1 ≤ 100 by omega)
    omega
  rw [if_neg (by omega)]
  have yearEnds := dayFromYear_next year
  have isMonth := monthFromDay_lt (leapDay year) (day - dayFromYear year)
  have inMonth : daysBeforeMonth (leapDay year) (monthFromDay (leapDay year) (day - dayFromYear year)) ≤ day - dayFromYear year :=
    day_in_month (by omega)
  generalize monthFromDay (leapDay year) (day - dayFromYear year) = month at *
  constructor
  · by_cases december : month = 11
    · subst december
      exact ⟨year + 1,0,by decide,by rw [yearEnds]; simp only [daysBeforeMonth]; rw [add_zero,add_assoc]⟩
    · exact ⟨year,month + 1,by omega,rfl⟩
  · rintro _ ⟨otherYear,otherMonth,few,rfl⟩ after
    have whole : daysBeforeMonth (leapDay otherYear) otherMonth ≤ 365 + leapDay otherYear :=
      daysBeforeMonth_mono (leapDay_nonneg otherYear) (show otherMonth ≤ 12 by omega)
    have nonneg := daysBeforeMonth_nonneg (leapDay_nonneg otherYear) otherMonth
    have later : day < dayFromYear otherYear + daysBeforeMonth (leapDay otherYear) otherMonth := by
      unfold msPerDay at *
      omega
    have reached : dayFromYear year + daysBeforeMonth (leapDay year) (month + 1) ≤
        dayFromYear otherYear + daysBeforeMonth (leapDay otherYear) otherMonth := by
      rcases lt_trichotomy otherYear year with earlier | rfl | afterYear
      · have before := dayFromYear_mono (show otherYear + 1 ≤ year by omega)
        have ends := dayFromYear_next otherYear
        omega
      · have next : month + 1 ≤ otherMonth := by
          by_contra notNext
          have before := daysBeforeMonth_mono (leapDay_nonneg otherYear) (show otherMonth ≤ month by omega)
          omega
        have before := daysBeforeMonth_mono (leapDay_nonneg otherYear) next
        omega
      · have after := dayFromYear_mono (show year + 1 ≤ otherYear by omega)
        have before : daysBeforeMonth (leapDay year) (month + 1) ≤ 365 + leapDay year :=
          daysBeforeMonth_mono (leapDay_nonneg year) (show month + 1 ≤ 12 by omega)
        omega
    exact Int.mul_le_mul_of_nonneg_right reached (show (0 : Int) ≤ msPerDay by decide)

theorem fetches {last : Int} {months : Nat} {cursor : Int} (enough : (last - cursor).toNat ≤ months) :
    Fetches last cursor (monthWindows last months cursor) := by
  induction months generalizing cursor with
  | zero => exact .reached (by omega)
  | succ months ih =>
    have later := nextUtcMonthStart_after cursor
    rw [monthWindows]
    split
    · rename_i ends
      exact .reached ends
    · rename_i before
      exact .window (not_le.mp before) (ih (by omega))

theorem months_tile {last : Int} {months : Nat} {cursor : Int} (enough : (last - cursor).toNat ≤ months)
    (modern : dayFromYear 100 * msPerDay ≤ cursor) : Tiles last cursor (monthWindows last months cursor) ∧
      ∀ window ∈ monthWindows last months cursor, OfMonth last window := by
  induction months generalizing cursor with
  | zero => exact ⟨show last ≤ cursor by omega,forall_mem_nil _⟩
  | succ months ih =>
    have later := nextUtcMonthStart_after cursor
    obtain ⟨isStart,least⟩ := nextUtcMonthStart_least modern
    rw [monthWindows]
    split
    · rename_i ends
      exact ⟨ends,forall_mem_nil _⟩
    · rename_i before
      dsimp only
      rw [if_pos (by omega),singleton_append]
      obtain ⟨tiles,ofMonths⟩ := @ih (min last (nextUtcMonthStart cursor)) (by omega) (by omega)
      refine ⟨⟨rfl,by dsimp only; omega,min_le_left _ _,tiles⟩,forall_mem_cons.mpr ⟨⟨?_,?_⟩,ofMonths⟩⟩
      · intro t isMonth inside
        have after := least t isMonth inside.1
        dsimp only at inside
        omega
      · dsimp only
        rcases le_total last (nextUtcMonthStart cursor) with short | long
        · exact .inl (min_eq_left short)
        · rw [min_eq_right long]
          exact .inr isStart

/-- What is selected, what is missing, and the windows in which it is fetched. -/
theorem intervals_exact [LinearOrder Price] {segments : List (RangeCacheSegment Price)}
    (proper : ∀ segment ∈ segments, segment.rangeStart < segment.rangeEnd)
    (keyed : ∀ segment ∈ segments, ∀ other ∈ segments, segment.storageKey = other.storageKey →
      segment.rangeStart = other.rangeStart ∧ segment.rangeEnd = other.rangeEnd) (stepMs : Nat) (requested : Span Int) :
    (∃ chosen, Selects (candidates segments stepMs requested) requested.last requested.first chosen ∧
        selectRangeCacheSegments segments stepMs requested = firstOfKeys [] chosen) ∧
      (∀ t, requested.Has t → ((∃ segment ∈ selectRangeCacheSegments segments stepMs requested, RangeHas segment t) ↔
        ∃ segment ∈ candidates segments stepMs requested, RangeHas segment t)) ∧
      (∀ intervals : List (Span Int), (∀ interval ∈ intervals, interval.first < interval.last) →
        Apart (missingIntervalsForCoverage requested intervals) ∧
          ∀ t, (∃ missing ∈ missingIntervalsForCoverage requested intervals, missing.Has t) ↔
            requested.Has t ∧ ∀ interval ∈ intervals, ¬ interval.Has t) ∧
      ∀ (policy : SegmentPolicy) (interval : Span Int),
        if policy = .monthly ∧ stepMs = 60000 then
          Fetches interval.last interval.first (cacheFetchWindows policy stepMs interval) ∧
            (dayFromYear 100 * msPerDay ≤ interval.first →
              Tiles interval.last interval.first (cacheFetchWindows policy stepMs interval) ∧
                ∀ window ∈ cacheFetchWindows policy stepMs interval, OfMonth interval.last window)
        else cacheFetchWindows policy stepMs interval = [interval] := by
  refine ⟨⟨_,selects candidates_sorted ?_ (length_filter_le _ _),rfl⟩,fun t inRange => selected_iff proper keyed inRange,
    fun intervals properly => missing_exact requested properly,fun policy interval => ?_⟩
  · exact fun segment listed => proper segment (mem_candidates listed)
  · split
    · rename_i monthly
      have isMonths : cacheFetchWindows policy stepMs interval =
          monthWindows interval.last (interval.last - interval.first).toNat interval.first :=
        if_neg (not_or.mpr ⟨not_not_intro monthly.1,not_not_intro monthly.2⟩)
      rw [isMonths]
      exact ⟨fetches (le_refl _),months_tile (le_refl _)⟩
    · rename_i whole
      exact if_pos (not_and_or.mp whole)

def bareSegment (rangeStart rangeEnd : Int) : RangeCacheSegment Int :=
  ⟨rangeStart,rangeEnd,60000,⟨[],⟨[],[],[]⟩,rangeStart,rangeEnd,[]⟩,[],0⟩
theorem hour_exact : ∃ chosen, Selects (candidates [bareSegment 0 3600000] 60000 ⟨0,7200000⟩) 7200000 0 chosen :=
  (@intervals_exact Int _ [bareSegment 0 3600000] (by decide) (by decide) 60000 ⟨0,7200000⟩).1.imp fun _ both => both.1

/-- A segment from 50 to 20 is selected again and again. -/
theorem selection_endless : ¬ ∀ (segments : List (RangeCacheSegment Int)) (stepMs : Nat) (requested : Span Int),
    ∃ chosen, Selects (candidates segments stepMs requested) requested.last requested.first chosen := by
  intro ends
  obtain ⟨chosen,selected⟩ := ends [bareSegment 50 20] 60000 ⟨0,100⟩
  have among : candidates [bareSegment 50 20] 60000 ⟨0,100⟩ = [bareSegment 50 20] := by decide
  rw [among] at selected
  have isNext : ∀ cursor ≤ (20 : Int), choice [bareSegment 50 20] cursor = some (bareSegment 50 20) := by
    intro cursor early
    have after : cursor < (bareSegment 50 20).rangeStart := early.trans_lt (by decide)
    have missed : ¬ ((bareSegment 50 20).rangeStart ≤ cursor ∧ cursor < (bareSegment 50 20).rangeEnd) :=
      fun inside => absurd (inside.1.trans_lt after) (lt_irrefl _)
    rw [choice,filter_cons_of_neg (by simpa using missed),find?_cons_of_pos (by simpa using after)]
    rfl
  have never : ∀ {cursor chosen}, Selects [bareSegment 50 20] 100 cursor chosen → cursor ≤ 20 → False := by
    intro cursor chosen selected
    induction selected with
    | reached ends => omega
    | exhausted before nothing => exact fun early => absurd (nothing.symm.trans (isNext _ early)) (by simp)
    | chosen before isOther later ih =>
      intro early
      cases isOther.symm.trans (isNext _ early)
      exact ih (by decide)
  exact never selected (by decide)

end Codebot.CacheIntervals
