import Codebot.Runs
import Codebot.CachedSegments

/-!
Runs of requests to the candle cache, between which the files of segments are damaged. Each request gives the candles
of the provider in its range, on the conditions of `requests_transparent`.
-/
namespace Codebot.CacheTransparency
open Texts Timeframes Runs Raising Series CandleFetches CandleCache List Function CachedSegments

variable {Price : Type}

/-! ### Writing a segment -/

/-- The manifests are the same, and no file loses its fields. -/
structure Keeps (store next : Store Price) : Prop where
  index : next.index = store.index
  file : ∀ key, store.file key ≠ .fieldless → next.file key ≠ .fieldless
theorem Keeps.refl (store : Store Price) : Keeps store store := ⟨rfl,fun _ => id⟩

variable {next store : Store Price}
theorem Keeps.trans {mid : Store Price} (first : Keeps store mid) (second : Keeps mid next) : Keeps store next :=
  ⟨second.index.trans first.index,fun key has => second.file key (first.file key has)⟩
/-- Faithful, of the step, and with a file that can be read. -/
structure Usable (history : List (Candle Price)) (stepMs : Nat) (store : Store Price) (segment : RangeCacheSegment Price) : Prop where
  faithful : Faithful history segment
  step : segment.stepMs = stepMs
  file : store.file segment.storageKey ≠ .fieldless

variable {history : List (Candle Price)} {segment : RangeCacheSegment Price} {stepMs : Nat}
theorem Usable.keeps
    (usable : Usable history stepMs store segment) (keeps : Keeps store next) : Usable history stepMs next segment :=
  ⟨usable.faithful,usable.step,keeps.file _ usable.file⟩

variable {endMs startMs : Int}

theorem within_hull (positive : 0 < stepMs)
    (ascending : Ascending (·.timestamp) history) (spaced : Spaced stepMs history)
    {first last : Candle Price} (isFirst : (within (·.timestamp) startMs endMs history).head? = some first)
    (isLast : (within (·.timestamp) startMs endMs history).getLast? = some last) :
    first.timestamp < last.timestamp + stepMs ∧ within (·.timestamp) startMs endMs history =
      within (·.timestamp) first.timestamp (last.timestamp + stepMs) history := by
  have ascends : Ascending (·.timestamp) (within (·.timestamp) startMs endMs history) := ascending.filter _
  have fromFirst : ∀ candle ∈ within (·.timestamp) startMs endMs history, first.timestamp ≤ candle.timestamp := by
    intro candle member
    obtain ⟨rest,split⟩ := head?_eq_some_iff.mp isFirst
    rw [split] at ascends member
    rcases mem_cons.mp member with rfl | later
    · exact le_refl _
    · exact ((pairwise_cons.mp ascends).1 candle later).le
  have toLast : ∀ candle ∈ within (·.timestamp) startMs endMs history, candle.timestamp ≤ last.timestamp := by
    intro candle member
    obtain ⟨before,split⟩ := getLast?_eq_some_iff.mp isLast
    rw [split] at ascends member
    rcases mem_append.mp member with earlier | isLast
    · exact ((pairwise_append.mp ascends).2.2 candle earlier last (mem_singleton_self _)).le
    · rw [mem_singleton.mp isLast]
  obtain ⟨firstIn,firstStarts,_⟩ := mem_within.mp (mem_of_head? isFirst)
  obtain ⟨lastIn,_,lastEnds⟩ := mem_within.mp (mem_of_getLast? isLast)
  have forward := toLast first (mem_of_head? isFirst)
  refine ⟨by omega,ascends.ext (ascending.filter _) ?_⟩
  intro candle
  constructor
  · intro member
    have starts := fromFirst candle member
    have ends := toLast candle member
    exact mem_within.mpr ⟨(mem_within.mp member).1,starts,by omega⟩
  · intro member
    obtain ⟨isCandle,starts,ends⟩ := mem_within.mp member
    refine mem_within.mpr ⟨isCandle,by omega,?_⟩
    by_contra beyond
    -- A candle after the last is at least a step after it.
    have order := pairwise_iff_getElem.mp spaced
    obtain ⟨i,inI,isI⟩ := mem_iff_getElem.mp lastIn
    obtain ⟨j,inJ,isJ⟩ := mem_iff_getElem.mp isCandle
    rcases Nat.lt_trichotomy i j with before | same | after
    · have apart := order i j inI inJ before
      rw [isI,isJ] at apart
      omega
    · subst same
      rw [isI] at isJ
      rw [isJ] at lastEnds
      omega
    · have sooner := pairwise_iff_getElem.mp ascending j i inJ inI after
      rw [isI,isJ] at sooner
      dsimp only at sooner
      omega

/-! ### Contiguous segments -/

def Contiguous (group : List (RangeCacheSegment Price)) : Prop := group.IsChain fun a b => a.rangeEnd = b.rangeStart

theorem contiguous_range {rest : List (RangeCacheSegment Price)} (contiguous : Contiguous (segment :: rest))
    (faithful : ∀ other ∈ segment :: rest, Faithful history other) :
    ∃ stop, segment.rangeStart < stop ∧ ∀ candle, candle ∈ (segment :: rest).flatMap (·.checksum) ↔
      candle ∈ history ∧ segment.rangeStart ≤ candle.timestamp ∧ candle.timestamp < stop := by
  induction rest generalizing segment with
  | nil =>
    have here := faithful segment mem_cons_self
    refine ⟨segment.rangeEnd,here.range,?_⟩
    intro candle
    rw [flatMap_singleton,here.checksum,mem_within]
  | cons next rest ih =>
    obtain ⟨touches,chain⟩ := isChain_cons_cons.mp contiguous
    have here := faithful segment mem_cons_self
    obtain ⟨stop,after,members⟩ := ih chain fun other member => faithful other (mem_cons_of_mem _ member)
    have range := here.range
    refine ⟨stop,by omega,?_⟩
    intro candle
    rw [flatMap_cons,mem_append,members,here.checksum,mem_within]
    constructor
    · rintro (⟨isCandle,starts,ends⟩ | ⟨isCandle,starts,ends⟩)
      · exact ⟨isCandle,starts,by omega⟩
      · exact ⟨isCandle,by omega,ends⟩
    · rintro ⟨isCandle,starts,ends⟩
      by_cases now : candle.timestamp < segment.rangeEnd
      · exact .inl ⟨isCandle,starts,now⟩
      · exact .inr ⟨isCandle,by omega,ends⟩

theorem contiguousGroups_spec (segments : List (RangeCacheSegment Price)) :
    ∀ group ∈ contiguousGroups segments, Contiguous group ∧ ∀ segment ∈ group, segment ∈ segments := by
  induction segments with
  | nil => exact forall_mem_nil _
  | cons segment rest ih =>
    have alone : Contiguous [segment] ∧ ∀ other ∈ [segment], other ∈ segment :: rest :=
      ⟨.singleton _,fun other member => mem_singleton.mp member ▸ mem_cons_self⟩
    have before : ∀ group ∈ contiguousGroups rest, Contiguous group ∧ ∀ other ∈ group, other ∈ segment :: rest :=
      fun group member => ⟨(ih group member).1,fun other isOther => mem_cons_of_mem _ ((ih group member).2 other isOther)⟩
    intro group member
    rw [contiguousGroups] at member
    split at member
    · rename_i next others groups isGroups
      rw [isGroups] at before
      split at member
      · rename_i touches
        rcases mem_cons.mp member with rfl | later
        · obtain ⟨chain,among⟩ := before (next :: others) mem_cons_self
          refine ⟨isChain_cons_cons.mpr ⟨touches,chain⟩,?_⟩
          intro other isOther
          rcases mem_cons.mp isOther with rfl | inNext
          · exact mem_cons_self
          · exact among other inNext
        · exact before group (mem_cons_of_mem _ later)
      · rcases mem_cons.mp member with rfl | later
        · exact alone
        · exact before group later
    · rcases mem_cons.mp member with rfl | later
      · exact alone
      · exact before group later

/-! ### The windows -/

theorem within_empty (empty : endMs ≤ startMs) (candles : List (Candle Price)) :
    within (·.timestamp) startMs endMs candles = [] := by
  refine filter_eq_nil_iff.mpr ?_
  intro candle _
  simp only [decide_eq_true_eq]
  omega

theorem windowLimit_le {stepMs limit : Nat} (positive : 0 < stepMs) {first last : Int} (short : last - first ≤ limit * stepMs) :
    windowLimit stepMs first last ≤ max 1 limit := by
  have few : (last - first + stepMs - 1) / stepMs < (limit : Int) + 1 := by
    refine Int.ediv_lt_of_lt_mul (by omega) ?_
    rw [Int.add_mul,Int.one_mul]
    omega
  rw [windowLimit]
  omega

theorem window_fetch {provider : Provider Price} {maxPerFetch : Nat} (some : 0 < maxPerFetch) {dataset : Dataset}
    {limit : Nat} (spaced : Spaced stepMs (provider.history dataset)) {since : Int}
    (complete : Complete provider maxPerFetch dataset since (since + (max 1 limit : Nat) * stepMs) limit) {window : Span Int}
    (starts : since ≤ window.first) (ends : window.last ≤ since + (max 1 limit : Nat) * stepMs) :
    sliceAndDedupeCandles (fetchPublicCandles provider maxPerFetch dataset stepMs window.first
        (windowLimit stepMs window.first window.last)) window.first window.last =
      within (·.timestamp) window.first window.last (provider.history dataset) := by
  have ascending := provider.ascending dataset
  by_cases empty : window.last ≤ window.first
  · rw [within_empty empty,sliceAndDedupeCandles,within_empty empty]
    rfl
  have positive : 0 < stepMs := by
    refine Nat.pos_of_ne_zero ?_
    rintro rfl
    simp only [Int.natCast_zero,Int.mul_zero] at ends
    omega
  have shorter : windowLimit stepMs window.first window.last ≤ max 1 limit := by
    have := windowLimit_le positive (show window.last - window.first ≤ (max 1 limit : Nat) * stepMs by omega)
    omega
  have windowComplete : Complete provider maxPerFetch dataset window.first window.last
      (windowLimit stepMs window.first window.last) := by
    rcases complete with full | few
    · exact .inl (by omega)
    · refine .inr (le_trans (List.Sublist.length_le ?_) few)
      refine monotone_filter_right _ ?_
      intro candle inWindow
      have := of_decide_eq_true inWindow
      exact decide_eq_true (by omega)
  have enough := within_windowLimit positive spaced (show window.first < window.last by omega)
  rw [sliceAndDedupeCandles,within_fetch positive some spaced windowComplete (by omega)]
  exact series_eq (ascending.filter _) fun candle => Iff.rfl

/-! ### Sound manifests -/

/-- The segments of every manifest are faithful to the history of its dataset. -/
def Sound (provider : Provider Price) (store : Store Price) : Prop :=
  ∀ key index, store.index key = some index → ∀ segment ∈ index.segments,
    Faithful (provider.history index.dataset) segment ∧ segment.stepMs = timeframeToMs index.dataset.timeframe
def initial : Store Price := ⟨fun _ => none,fun _ => .missing⟩
theorem sound_initial (provider : Provider Price) : Sound provider initial := by
  intro key index found
  cases found

/-! ### Valid feeds -/

section
variable [LinearOrder Price]
variable {candles : List (Candle Price)} {endMs startMs : Int} {stepMs : Nat}

theorem validateOhlcvFeed_valid (minutes : stepMs % 60000 = 0) (range : startMs < endMs) (some : candles ≠ [])
    (ascending : Ascending (·.timestamp) candles) (valid : ∀ candle ∈ candles, validCandle stepMs candle) :
    validateOhlcvFeed candles (timeframeFromStepMs stepMs) startMs endMs = .valid := by
  have isFeed : validFeed ((timeframeFromStepMs stepMs).1 * (timeframeFromStepMs stepMs).2.ms) candles = true := by
    rw [timeframeFromStepMs_ms minutes,validFeed,Bool.and_eq_true]
    exact ⟨decide_eq_true ascending,all_eq_true.mpr valid⟩
  rw [validateOhlcvFeed,if_neg (by omega),if_neg (by rw [List.isEmpty_iff]; exact some),if_pos isFeed]

theorem valid_candles (minutes : stepMs % 60000 = 0)
    (valid : validateOhlcvFeed candles (timeframeFromStepMs stepMs) startMs endMs = .valid) :
    candles ≠ [] ∧ ∀ candle ∈ candles, validCandle stepMs candle := by
  rw [validateOhlcvFeed,timeframeFromStepMs_ms minutes] at valid
  split at valid
  · cases valid
  · split at valid
    · cases valid
    · rename_i some
      split at valid
      · rename_i isFeed
        rw [validFeed,Bool.and_eq_true] at isFeed
        exact ⟨fun none => some (List.isEmpty_iff.mpr none),all_eq_true.mp isFeed.2⟩
      · cases valid

theorem write_spec {settings : Settings Price} {store : Store Price} {symbol : Text} {dataset : Dataset} {stepMs : Nat}
    {history : List (Candle Price)} (positive : 0 < stepMs) (minutes : stepMs % 60000 = 0)
    (ascending : Ascending (·.timestamp) history) (spaced : Spaced stepMs history) {candles : List (Candle Price)}
    {startMs endMs : Int} (isSeries : series (·.timestamp) candles = within (·.timestamp) startMs endMs history)
    (some : candles ≠ []) (valid : ∀ candle ∈ candles, validCandle stepMs candle) :
    ∃ next result, writeRangeCacheSegment settings store symbol dataset stepMs candles = (next,result) ∧ Keeps store next ∧
      ((∃ segment, result = .written segment ∧ Usable history stepMs next segment) ∨
        result = .sizeExceeded ∧ ∃ key, settings.tooLarge key (series (·.timestamp) candles) = true) := by
  have ascends : Ascending (·.timestamp) (series (·.timestamp) candles) := isSeries ▸ ascending.filter _
  have among : ∀ candle, candle ∈ series (·.timestamp) candles → candle ∈ candles := fun candle member => mem_series member
  have someSeries : series (·.timestamp) candles ≠ [] := series_some some
  obtain ⟨first,isFirst⟩ : ∃ first, (series (·.timestamp) candles).head? = Option.some first :=
    Option.ne_none_iff_exists'.mp fun none => someSeries (head?_eq_none_iff.mp none)
  obtain ⟨last,isLast⟩ : ∃ last, (series (·.timestamp) candles).getLast? = Option.some last :=
    Option.ne_none_iff_exists'.mp fun none => someSeries (getLast?_eq_none_iff.mp none)
  obtain ⟨range,hull⟩ := within_hull positive ascending spaced (isSeries ▸ isFirst) (isSeries ▸ isLast)
  have isValid := validateOhlcvFeed_valid minutes range someSeries ascends fun candle member => valid candle (among candle member)
  let storageKey : StorageKey Price := ⟨symbol,dataset,first.timestamp,last.timestamp + stepMs,series (·.timestamp) candles⟩
  unfold writeRangeCacheSegment
  simp only [isFirst,isLast,isValid]
  by_cases large : settings.tooLarge storageKey (series (·.timestamp) candles)
  · rw [if_pos large]
    exact ⟨store,_,rfl,.refl store,.inr ⟨rfl,storageKey,large⟩⟩
  · rw [if_neg large]
    refine ⟨_,_,rfl,⟨rfl,?_⟩,.inl ⟨_,rfl,⟨range,isSeries.trans hull⟩,rfl,?_⟩⟩
    · intro key has
      dsimp only
      by_cases same : key = storageKey
      · rw [same,update_self]
        exact fun fieldless => nomatch fieldless
      · rw [update_of_ne same]
        exact has
    · dsimp only
      rw [update_self]
      exact fun fieldless => nomatch fieldless

/-! ### Reading -/

variable {history : List (Candle Price)} {segment : RangeCacheSegment Price} {store : Store Price}

theorem read_usable (minutes : stepMs % 60000 = 0) (usable : Usable history stepMs store segment) :
    ∃ read, readRangeCacheSegment store segment = some read ∧ ∀ candles, read = some candles →
      candles = segment.checksum ∧ candles ≠ [] ∧ ∀ candle ∈ candles, validCandle stepMs candle := by
  have returns : readRangeCacheSegment store segment ≠ none := by
    unfold readRangeCacheSegment
    split
    · exact fun none => nomatch none
    · exact fun none => nomatch none
    · exact fun none => nomatch none
    · rename_i fieldless
      exact absurd fieldless usable.file
    · split
      · exact fun none => nomatch none
      · split
        · exact fun none => nomatch none
        · exact fun none => nomatch none
        · rename_i invalid
          have range := usable.faithful.range
          rw [validateOhlcvFeed,if_neg (by omega)] at invalid
          split at invalid
          · cases invalid
          · split at invalid <;> cases invalid
  obtain ⟨read,isRead⟩ := Option.ne_none_iff_exists'.mp returns
  refine ⟨read,isRead,?_⟩
  rintro candles rfl
  obtain ⟨same,valid⟩ := read_candles isRead
  rw [usable.step] at valid
  exact ⟨same,valid_candles minutes valid⟩

theorem readSegments_usable (minutes : stepMs % 60000 = 0)
    {segments : List (RangeCacheSegment Price)} (usable : ∀ segment ∈ segments, Usable history stepMs store segment) :
    ∃ reads, readSegments store segments = some reads := by
  induction segments with
  | nil => exact ⟨[],rfl⟩
  | cons segment rest ih =>
    obtain ⟨read,isRead,_⟩ := read_usable minutes (usable segment mem_cons_self)
    obtain ⟨reads,isReads⟩ := ih fun other member => usable other (mem_cons_of_mem _ member)
    exact ⟨(segment,read) :: reads,by rw [readSegments,isRead]; dsimp only; rw [isReads]; rfl⟩

variable {group : List (RangeCacheSegment Price)}

theorem readGroup_usable (minutes : stepMs % 60000 = 0) (usable : ∀ segment ∈ group, Usable history stepMs store segment) :
    ∃ read, readGroup store group = some read ∧ ∀ candles, read = some candles →
      candles = group.flatMap (·.checksum) ∧ (group ≠ [] → candles ≠ []) ∧ ∀ candle ∈ candles, validCandle stepMs candle := by
  induction group with
  | nil =>
    refine ⟨some [],rfl,?_⟩
    rintro candles isEmpty
    cases isEmpty
    exact ⟨rfl,fun some => absurd rfl some,forall_mem_nil _⟩
  | cons segment rest ih =>
    obtain ⟨read,isRead,gives⟩ := read_usable minutes (usable segment mem_cons_self)
    obtain ⟨later,isLater,givesLater⟩ := ih fun other member => usable other (mem_cons_of_mem _ member)
    rw [readGroup,isRead]
    cases read with
    | none => exact ⟨none,rfl,fun candles none => nomatch none⟩
    | some first =>
      obtain ⟨isFirst,someFirst,validFirst⟩ := gives first rfl
      dsimp only
      rw [isLater]
      refine ⟨later.map (first ++ ·),rfl,?_⟩
      intro candles isCandles
      obtain ⟨more,rfl,rfl⟩ := Option.map_eq_some_iff.mp isCandles
      obtain ⟨isMore,_,validMore⟩ := givesLater more rfl
      refine ⟨by rw [isFirst,isMore]; rfl,fun _ => append_ne_nil_of_left_ne_nil someFirst _,?_⟩
      intro candle member
      rcases mem_append.mp member with before | after
      · exact validFirst candle before
      · exact validMore candle after

/-! ### Merging segments -/

/-- What the steps of one request need of its history. -/
structure Steps (history : List (Candle Price)) (stepMs : Nat) : Prop where
  positive : 0 < stepMs
  minutes : stepMs % 60000 = 0
  ascending : Ascending (·.timestamp) history
  spaced : Spaced stepMs history

variable {settings : Settings Price}

theorem merge_spec {symbol : Text} {dataset : Dataset} (steps : Steps history stepMs) (contiguous : Contiguous group)
    (usable : ∀ segment ∈ group, Usable history stepMs store segment) :
    ∃ next merged, mergeContiguousRangeCacheGroup settings symbol dataset stepMs store group = (next,some merged) ∧
      Keeps store next ∧ ∀ segment ∈ merged, Usable history stepMs next segment := by
  have unmerged : ∃ next merged, (store,some group) = (next,some merged) ∧ Keeps store next ∧
      ∀ segment ∈ merged, Usable history stepMs next segment := ⟨store,group,rfl,.refl store,usable⟩
  unfold mergeContiguousRangeCacheGroup
  by_cases alone : group.length < 2 ∨ settings.maxCandlesPerJob < (group.map (·.candleCount)).sum
  · rw [if_pos alone]
    exact unmerged
  rw [if_neg alone]
  obtain ⟨read,isRead,gives⟩ := readGroup_usable steps.minutes usable
  rw [isRead]
  cases read with
  | none => exact unmerged
  | some candles =>
    obtain ⟨rfl,isSome,valid⟩ := gives candles rfl
    cases group with
    | nil => exact absurd (.inl (by simp)) alone
    | cons segment rest =>
      obtain ⟨stop,_,members⟩ := contiguous_range contiguous fun other member => (usable other member).faithful
      have isSeries : series (·.timestamp) ((segment :: rest).flatMap (·.checksum)) =
          within (·.timestamp) segment.rangeStart stop history :=
        series_eq (steps.ascending.filter _) fun candle => (members candle).trans mem_within.symm
      obtain ⟨next,result,wrote,keeps,outcome⟩ := write_spec steps.positive steps.minutes steps.ascending steps.spaced
        isSeries (isSome (cons_ne_nil _ _)) valid
      dsimp only
      rw [wrote]
      rcases outcome with ⟨merged,rfl,isUsable⟩ | ⟨rfl,_⟩
      · refine ⟨next,[merged],rfl,keeps,?_⟩
        intro other member
        rw [mem_singleton.mp member]
        exact isUsable
      · exact ⟨next,segment :: rest,rfl,keeps,fun other member => (usable other member).keeps keeps⟩

/-! ### The manifest -/

theorem mem_pruned {new existing : List (RangeCacheSegment Price)}
    (member : segment ∈ new.foldl (pruneCoveredRangeCacheSegments stepMs) existing) : segment ∈ existing ∨ segment ∈ new := by
  induction new generalizing existing with
  | nil => exact .inl member
  | cons next rest ih =>
    rcases ih member with pruned | later
    · have among := (mem_filter.mp ((mem_insertionSort _).mp pruned)).1
      rcases mem_append.mp among with old | isNext
      · exact .inl (mem_filter.mp old).1
      · exact .inr (mem_singleton.mp isNext ▸ mem_cons_self)
    · exact .inr (mem_cons_of_mem _ later)

theorem compact_spec {settings : Settings Price} {symbol : Text} {dataset : Dataset} {stepMs : Nat}
    {history : List (Candle Price)} (steps : Steps history stepMs) {store : Store Price}
    {segments : List (RangeCacheSegment Price)} (usable : ∀ segment ∈ segments, Usable history stepMs store segment) :
    ∃ next compacted, compactRangeCacheSegments settings symbol dataset stepMs store segments = (next,some compacted) ∧
      Keeps store next ∧ ∀ segment ∈ compacted, Usable history stepMs next segment := by
  have sorted : ∀ segment ∈ ordered (·.rangeStart) (segments.filter fun segment => segment.stepMs = stepMs),
      Usable history stepMs store segment :=
    fun segment member => usable segment (mem_filter.mp (mem_ordered.mp member)).1
  unfold compactRangeCacheSegments
  dsimp only
  split
  · exact ⟨store,_,rfl,.refl store,sorted⟩
  · let groups := contiguousGroups (ordered (·.rangeStart) (segments.filter fun segment => segment.stepMs = stepMs))
    have each : ∀ group ∈ groups, Contiguous group ∧ ∀ segment ∈ group, Usable history stepMs store segment := by
      intro group member
      obtain ⟨contiguous,among⟩ := contiguousGroups_spec _ group member
      exact ⟨contiguous,fun segment isIn => sorted segment (among segment isIn)⟩
    let running (_ : List (List (RangeCacheSegment Price))) (state : Store Price) (results : List (RangeCacheSegment Price)) :
        Prop := Keeps store state ∧ ∀ segment ∈ results, Usable history stepMs state segment
    have merges : ∀ {done group after state mid result}, groups = done ++ group :: after → Keeps store state →
        mergeContiguousRangeCacheGroup settings symbol dataset stepMs state group = (mid,result) →
        ∃ merged, result = some merged ∧ Keeps state mid ∧ ∀ segment ∈ merged, Usable history stepMs mid segment := by
      intro done group after state mid result split keeps ran
      obtain ⟨contiguous,isUsable⟩ := each group (split ▸ mem_append_right _ mem_cons_self)
      obtain ⟨next,merged,spec,kept,fine⟩ :=
        merge_spec steps contiguous fun segment member => (isUsable segment member).keeps keeps
      rw [spec] at ran
      cases ran
      exact ⟨merged,rfl,kept,fine⟩
    have rule := @forEach_rule _ _ _ (mergeContiguousRangeCacheGroup settings symbol dataset stepMs) running (fun _ _ _ => False)
      groups ?_ ?_ store ⟨.refl store,forall_mem_nil _⟩
    · obtain ⟨last,results,looped,keeps,fine⟩ := rule.resolve_right fun ⟨_,_,_,_,_,_,fails⟩ => fails
      rw [looped]
      refine ⟨last,_,rfl,keeps,?_⟩
      exact fun segment member => fine segment (mem_ordered.mp member)
    · rintro done group after state results mid first split ⟨keeps,fine⟩ ran
      obtain ⟨merged,isMerged,kept,isUsable⟩ := merges split keeps ran
      cases isMerged
      refine ⟨keeps.trans kept,?_⟩
      intro segment member
      rcases mem_append.mp member with old | new
      · exact (fine segment old).keeps kept
      · exact isUsable segment new
    · rintro done group after state results mid split ⟨keeps,_⟩ ran
      obtain ⟨merged,isMerged,_⟩ := merges split keeps ran
      cases isMerged

theorem upsert_spec {settings : Settings Price} {symbol : Text} {dataset : Dataset} {stepMs : Nat}
    {history : List (Candle Price)} {store : Store Price}
    (existing : ∀ index, store.index (indexKey dataset) = some index → ∀ segment ∈ index.segments,
      Usable history stepMs store segment)
    {new : List (RangeCacheSegment Price)} (steps : new ≠ [] → Steps history stepMs)
    (usable : ∀ segment ∈ new, Usable history stepMs store segment) :
    ∃ next, upsertRangeCacheSegments settings symbol dataset stepMs store new = (next,true) ∧
      (next.index = store.index ∨ ∃ segments, next.index = Function.update store.index (indexKey dataset) (some ⟨dataset,segments⟩) ∧
        ∀ segment ∈ segments, Faithful history segment ∧ segment.stepMs = stepMs) := by
  unfold upsertRangeCacheSegments
  by_cases nothing : new.isEmpty
  · rw [if_pos nothing]
    exact ⟨store,rfl,.inl rfl⟩
  rw [if_neg nothing]
  have pruned : ∀ segment ∈ new.foldl (pruneCoveredRangeCacheSegments stepMs)
      (((store.index (indexKey dataset)).map (·.segments)).getD []), Usable history stepMs store segment := by
    intro segment member
    rcases mem_pruned member with old | isNew
    · cases found : store.index (indexKey dataset) with
      | none =>
        rw [found] at old
        cases old
      | some index =>
        rw [found] at old
        exact existing index found segment old
    · exact usable segment isNew
  obtain ⟨next,segments,compacted,keeps,fine⟩ := @compact_spec _ _ settings symbol dataset _ _
    (steps fun none => nothing (List.isEmpty_iff.mpr none)) _ _ pruned
  dsimp only
  rw [compacted]
  refine ⟨_,rfl,.inr ⟨segments,by rw [← keeps.index],?_⟩⟩
  exact fun segment member => ⟨(fine segment member).faithful,(fine segment member).step⟩

/-! ### Writing the windows -/

theorem storeWindows_spec {settings : Settings Price} {symbol : Text} {dataset : Dataset} {stepMs : Nat}
    {history : List (Candle Price)} {store : Store Price} {fetched : List (Span Int × List (Candle Price))}
    (steps : ∀ fetch ∈ fetched, fetch.2 ≠ [] → Steps history stepMs)
    (isWithin : ∀ fetch ∈ fetched, fetch.2 = within (·.timestamp) fetch.1.first fetch.1.last history)
    (valid : ∀ fetch ∈ fetched, ∀ candle ∈ fetch.2, validCandle stepMs candle)
    (fits : ∀ fetch ∈ fetched, ∀ key, settings.tooLarge key (series (·.timestamp) fetch.2) = false) :
    ∃ last stored, forEach (storeWindow settings symbol dataset stepMs) store fetched = (last,some stored) ∧ Keeps store last ∧
      (∀ entry ∈ stored, Usable history stepMs last entry.1) ∧ stored.flatMap (·.2) = fetched.flatMap (·.2) ∧
      (stored ≠ [] → Steps history stepMs) := by
  let running (done : List (Span Int × List (Candle Price))) (state : Store Price)
      (stored : List (RangeCacheSegment Price × List (Candle Price))) : Prop :=
    Keeps store state ∧ (∀ entry ∈ stored, Usable history stepMs state entry.1) ∧ stored.flatMap (·.2) = done.flatMap (·.2) ∧
      (stored ≠ [] → Steps history stepMs)
  have each : ∀ {fetch state mid result}, fetch ∈ fetched → storeWindow settings symbol dataset stepMs state fetch = (mid,result) →
      ∃ stored, result = some stored ∧ Keeps state mid ∧ (∀ entry ∈ stored, Usable history stepMs mid entry.1) ∧
        stored.flatMap (·.2) = fetch.2 ∧ (stored ≠ [] → Steps history stepMs) := by
    intro fetch state mid result member ran
    unfold storeWindow at ran
    by_cases empty : fetch.2.isEmpty
    · rw [if_pos empty] at ran
      cases ran
      exact ⟨[],rfl,.refl state,forall_mem_nil _,(List.isEmpty_iff.mp empty).symm,fun some => absurd rfl some⟩
    · rw [if_neg empty] at ran
      have some : fetch.2 ≠ [] := fun none => empty (List.isEmpty_iff.mpr none)
      have needs := steps fetch member some
      have isSeries : series (·.timestamp) fetch.2 = within (·.timestamp) fetch.1.first fetch.1.last history := by
        rw [isWithin fetch member]
        exact series_eq (needs.ascending.filter _) fun candle => Iff.rfl
      obtain ⟨next,written,wrote,keeps,outcome⟩ := @write_spec _ _ settings state symbol dataset _ _ needs.positive needs.minutes
        needs.ascending needs.spaced _ _ _ isSeries some (valid fetch member)
      rw [wrote] at ran
      rcases outcome with ⟨segment,rfl,usable⟩ | ⟨_,key,large⟩
      · cases ran
        refine ⟨_,rfl,keeps,?_,flatMap_singleton _ _,fun _ => needs⟩
        intro entry isEntry
        rw [mem_singleton.mp isEntry]
        exact usable
      · rw [fits fetch member key] at large
        cases large
  have rule := @forEach_rule _ _ _ (storeWindow settings symbol dataset stepMs) running (fun _ _ _ => False) fetched ?_ ?_ store
    ⟨.refl store,forall_mem_nil _,rfl,fun some => absurd rfl some⟩
  · obtain ⟨last,stored,looped,ends⟩ := rule.resolve_right fun ⟨_,_,_,_,_,_,fails⟩ => fails
    exact ⟨last,stored,looped,ends⟩
  · rintro done fetch after state stored mid first split ⟨keeps,usable,candles,needs⟩ ran
    obtain ⟨more,isMore,kept,fine,same,needsMore⟩ := each (split ▸ mem_append_right _ mem_cons_self) ran
    cases isMore
    refine ⟨keeps.trans kept,?_,?_,?_⟩
    · intro entry member
      rcases mem_append.mp member with old | new
      · exact (usable entry old).keeps kept
      · exact fine entry new
    · rw [flatMap_append,candles,same,flatMap_append,flatMap_singleton]
    · intro some
      by_cases none : first = []
      · rw [none,append_nil] at some
        exact needs some
      · exact needsMore none
  · rintro done fetch after state stored mid split _ ran
    obtain ⟨more,isMore,_⟩ := each (split ▸ mem_append_right _ mem_cons_self) ran
    cases isMore

/-! ### Requests -/

def expected (provider : Provider Price) (request : Request) : List (Candle Price) :=
  within (·.timestamp) request.requested.first request.requested.last (provider.history request.dataset)
/-- The fetch of the request without a cache. -/
def uncached (settings : Settings Price) (provider : Provider Price) (request : Request) : List (Candle Price) :=
  fetchPublicCandles provider settings.maxCandlesPerFetch request.dataset request.stepMs request.since request.limit.toNat

/-- The manifest at the path is of the dataset of the request, with no file without fields; the candles of the provider
    are valid and a step apart, its pages full, and no segment too large. -/
structure Clean (settings : Settings Price) (provider : Provider Price) (store : Store Price) (request : Request) : Prop where
  matching : ∀ index, store.index (indexKey request.dataset) = some index → index.dataset = request.dataset
  readable : ∀ index, store.index (indexKey request.dataset) = some index → ∀ segment ∈ index.segments,
    store.file segment.storageKey ≠ .fieldless
  spaced : Spaced request.stepMs (provider.history request.dataset)
  valid : ∀ candle ∈ expected provider request, validCandle request.stepMs candle
  complete : Complete provider settings.maxCandlesPerFetch request.dataset request.requested.first request.requested.last
    request.limit.toNat
  fits : ∀ key candles, (∀ candle ∈ candles, candle ∈ expected provider request) → settings.tooLarge key candles = false

/-- The request gives the candles of the provider in its range, once each and ascending. -/
def Transparent (settings : Settings Price) (provider : Provider Price) (store : Store Price) (request : Request) : Prop :=
  ∃ candles, (getOrFillPublicCandleCacheV2 settings provider store request).2 = some candles ∧
    candles = expected provider request ∧ Ascending (·.timestamp) candles ∧
    (candles = uncached settings provider request ↔
      ∀ candle ∈ uncached settings provider request, candle.timestamp < request.requested.last)
theorem requested_proper (request : Request) : request.requested.first ≤ request.requested.last := by
  have : (0 : Int) ≤ (max 1 request.limit.toNat : Nat) * request.stepMs :=
    Int.mul_nonneg (Int.natCast_nonneg _) (Int.natCast_nonneg _)
  simp only [Request.requested]
  omega

variable {provider : Provider Price}

theorem Clean.usable {request : Request}
    (clean : Clean settings provider store request) (sound : Sound provider store) :
    ∀ index, store.index (indexKey request.dataset) = some index → ∀ segment ∈ index.segments,
      Usable (provider.history request.dataset) request.stepMs store segment := by
  intro index found segment member
  obtain ⟨faithful,step⟩ := sound _ index found segment member
  rw [clean.matching index found] at faithful step
  exact ⟨faithful,step,clean.readable index found segment member⟩

theorem Clean.coverage {request : Request}
    (clean : Clean settings provider store request) (sound : Sound provider store) :
    ∃ coverage, readRangeCacheCoverage store request.dataset request.stepMs request.requested = some coverage ∧
      Covers (provider.history request.dataset) request.requested coverage := by
  have usable := clean.usable sound
  have returns : ∃ coverage, readRangeCacheCoverage store request.dataset request.stepMs request.requested = some coverage := by
    unfold readRangeCacheCoverage
    cases found : store.index (indexKey request.dataset) with
    | none => exact ⟨_,rfl⟩
    | some index =>
      obtain ⟨reads,isReads⟩ := readSegments_usable (timeframeToMs_minutes _) fun segment member =>
        usable index found segment (@mem_selected _ _ index.segments request.stepMs request.requested segment member)
      dsimp only
      rw [isReads]
      exact ⟨_,rfl⟩
  obtain ⟨coverage,isCoverage⟩ := returns
  exact ⟨coverage,isCoverage,coverage_spec (provider.ascending _)
    (fun index found segment member => (usable index found segment member).faithful) (requested_proper request) isCoverage⟩

theorem Clean.fetched {request : Request}
    (clean : Clean settings provider store request) {coverage : RangeCoverageResult Price}
    (covers : Covers (provider.history request.dataset) request.requested coverage) :
    let fetched := fetchWindows settings provider request.dataset request.stepMs coverage.missingIntervals
    (∀ fetch ∈ fetched, fetch.2 = within (·.timestamp) fetch.1.first fetch.1.last (provider.history request.dataset) ∧
        ∀ candle ∈ fetch.2, candle ∈ expected provider request) ∧
      ∀ interval ∈ coverage.missingIntervals, ∀ candle ∈ provider.history request.dataset, interval.Has candle.timestamp →
        candle ∈ fetched.flatMap (·.2) := by
  intro fetched
  have isFetch : ∀ fetch, fetch ∈ fetched ↔ ∃ window, (∃ interval ∈ coverage.missingIntervals,
      window ∈ cacheFetchWindows settings.policy request.stepMs interval) ∧
      (window,sliceAndDedupeCandles (fetchPublicCandles provider settings.maxCandlesPerFetch request.dataset request.stepMs
        window.first (windowLimit request.stepMs window.first window.last)) window.first window.last) = fetch := by
    intro fetch
    show fetch ∈ fetchWindows settings provider request.dataset request.stepMs coverage.missingIntervals ↔ _
    rw [fetchWindows,mem_ordered,mem_map]
    simp only [mem_flatMap]
  have windows : ∀ window interval, interval ∈ coverage.missingIntervals →
      window ∈ cacheFetchWindows settings.policy request.stepMs interval →
      request.since ≤ window.first ∧ window.last ≤ request.requested.last := by
    intro window interval isMissing isWindow
    obtain ⟨starts,ends⟩ := covers.between interval isMissing
    obtain ⟨later,sooner⟩ := windows_between window isWindow
    exact ⟨starts.trans later,sooner.trans ends⟩
  constructor
  · intro fetch member
    obtain ⟨window,⟨interval,isMissing,isWindow⟩,rfl⟩ := (isFetch fetch).mp member
    obtain ⟨starts,ends⟩ := windows window interval isMissing isWindow
    have same := window_fetch settings.fetches clean.spaced clean.complete starts ends
    refine ⟨same,?_⟩
    dsimp only
    rw [same]
    intro candle inWindow
    obtain ⟨isCandle,after,before⟩ := mem_within.mp inWindow
    exact mem_within.mpr ⟨isCandle,starts.trans after,before.trans_le ends⟩
  · intro interval isMissing candle isCandle has
    obtain ⟨window,isWindow,inWindow⟩ := @windows_cover settings.policy request.stepMs interval _ has
    obtain ⟨starts,ends⟩ := windows window interval isMissing isWindow
    refine mem_flatMap.mpr ⟨_,(isFetch _).mpr ⟨window,⟨interval,isMissing,isWindow⟩,rfl⟩,?_⟩
    dsimp only
    rw [window_fetch settings.fetches clean.spaced clean.complete starts ends]
    exact mem_within.mpr ⟨isCandle,inWindow.1,inWindow.2⟩

theorem request_spec {request : Request}
    (clean : Clean settings provider store request) (sound : Sound provider store) :
    ∃ next, getOrFillPublicCandleCacheV2 settings provider store request = (next,some (expected provider request)) ∧
      Sound provider next := by
  have ascending := provider.ascending request.dataset
  obtain ⟨coverage,isCoverage,covers⟩ := clean.coverage sound
  rw [getOrFillPublicCandleCacheV2]
  simp only [isCoverage]
  by_cases complete : coverage.complete
  · rw [if_pos complete]
    have same : coverage.candles = expected provider request := by
      refine covers.ascending.ext (ascending.filter _) ?_
      intro candle
      constructor
      · exact fun member => mem_within.mpr ⟨covers.among candle member,covers.inside candle member⟩
      · intro member
        obtain ⟨isCandle,starts,ends⟩ := mem_within.mp member
        rcases covers.rest candle isCandle starts ends with isIn | ⟨interval,isMissing,_⟩
        · exact isIn
        · rw [covers.complete complete] at isMissing
          cases isMissing
    rw [same]
    exact ⟨store,rfl,sound⟩
  rw [if_neg complete]
  obtain ⟨isWithin,cover⟩ := clean.fetched covers
  generalize isFetched : fetchWindows settings provider request.dataset request.stepMs coverage.missingIntervals = fetched
    at isWithin cover
  have steps : ∀ fetch ∈ fetched, fetch.2 ≠ [] → Steps (provider.history request.dataset) request.stepMs := by
    intro fetch member some
    obtain ⟨candle,isIn⟩ := exists_mem_of_ne_nil _ some
    obtain ⟨_,after,before⟩ := mem_within.mp ((isWithin fetch member).2 candle isIn)
    refine ⟨?_,timeframeToMs_minutes _,ascending,clean.spaced⟩
    refine Nat.pos_of_ne_zero ?_
    intro zero
    simp only [Request.requested,zero,Int.natCast_zero,Int.mul_zero] at after before
    omega
  obtain ⟨filled,stored,looped,keeps,usable,candles,needs⟩ := @storeWindows_spec _ _ settings request.symbol request.dataset
    request.stepMs _ store fetched steps (fun fetch member => (isWithin fetch member).1)
    (fun fetch member candle isIn => clean.valid candle ((isWithin fetch member).2 candle isIn))
    (fun fetch member key => clean.fits key _ fun candle isIn => (isWithin fetch member).2 candle (mem_series isIn))
  have before : ∀ index, filled.index (indexKey request.dataset) = some index → ∀ segment ∈ index.segments,
      Usable (provider.history request.dataset) request.stepMs filled segment := by
    intro index found segment member
    rw [keeps.index] at found
    exact (clean.usable sound index found segment member).keeps keeps
  obtain ⟨next,updated,manifest⟩ := @upsert_spec _ _ settings request.symbol request.dataset request.stepMs _ filled before
    (stored.map (·.1)) (fun some => needs fun none => some (by rw [none]; rfl)) (by
      intro segment member
      obtain ⟨entry,isEntry,rfl⟩ := mem_map.mp member
      exact usable entry isEntry)
  refine ⟨next,?_,?_⟩
  · rw [if_neg complete,fetchAndStoreMissingRangeSegments]
    rw [isFetched,looped]
    dsimp only
    rw [updated]
    dsimp only
    have same : sliceAndDedupeCandles (coverage.candles ++ stored.flatMap (·.2)) request.requested.first request.requested.last =
        expected provider request := by
      refine slice_eq ascending ?_
      intro candle starts ends
      rw [mem_append,candles]
      constructor
      · rintro (isIn | isFetched)
        · exact covers.among candle isIn
        · obtain ⟨fetch,member,isIn⟩ := mem_flatMap.mp isFetched
          exact (mem_within.mp ((isWithin fetch member).2 candle isIn)).1
      · intro isCandle
        rcases covers.rest candle isCandle starts ends with isIn | ⟨interval,isMissing,has⟩
        · exact .inl isIn
        · exact .inr (cover interval isMissing candle isCandle has)
    rw [same]
  · intro key index found segment member
    rcases manifest with same | ⟨segments,update,faithful⟩
    · rw [same,keeps.index] at found
      exact sound key index found segment member
    · rw [update] at found
      by_cases here : key = indexKey request.dataset
      · subst here
        rw [update_self] at found
        cases found
        exact faithful segment member
      · rw [update_of_ne here,keeps.index] at found
        exact sound key index found segment member

theorem uncached_spec {request : Request} (clean : Clean settings provider store request) :
    expected provider request = uncached settings provider request ↔
      ∀ candle ∈ uncached settings provider request, candle.timestamp < request.requested.last := by
  have same : within (·.timestamp) request.requested.first request.requested.last (uncached settings provider request) =
      expected provider request := by
    by_cases positive : 0 < request.stepMs
    · have long : request.requested.first < request.requested.last := by
        have : (1 : Int) ≤ (max 1 request.limit.toNat : Nat) * request.stepMs := by
          exact_mod_cast Nat.mul_pos (Nat.lt_of_lt_of_le Nat.zero_lt_one (le_max_left _ _)) positive
        simp only [Request.requested]
        omega
      have few := within_windowLimit positive clean.spaced long
      have short : windowLimit request.stepMs request.requested.first request.requested.last ≤ max 1 request.limit.toNat := by
        have := @windowLimit_le request.stepMs (max 1 request.limit.toNat) positive request.requested.first request.requested.last
          (by simp only [Request.requested]; omega)
        omega
      exact within_fetch positive settings.fetches clean.spaced clean.complete (few.trans short)
    · have empty : request.requested.last ≤ request.requested.first := by
        simp only [Request.requested,Nat.eq_zero_of_not_pos positive,Int.natCast_zero,Int.mul_zero]
        omega
      rw [expected,within_empty empty,within_empty empty]
  constructor
  · intro isSame candle member
    rw [← isSame] at member
    exact (mem_within.mp member).2.2
  · intro before
    rw [← same]
    refine filter_eq_self.mpr ?_
    intro candle member
    exact decide_eq_true ⟨fetchPages_since (le_refl _) (forall_mem_nil _) candle member,before candle member⟩

/-! ### Every run -/

inductive Label (Price : Type)
  | request (request : Request)
  /-- A file is removed or corrupted. -/
  | damage (key : StorageKey Price) (file : File Price)
def step (settings : Settings Price) (provider : Provider Price) (store : Store Price) : Label Price → Option (Store Price)
  | .request request => some (getOrFillPublicCandleCacheV2 settings provider store request).1
  | .damage key file => some { store with file := Function.update store.file key file }
def CleanStep (settings : Settings Price) (provider : Provider Price) (store : Store Price) : Label Price → Prop
  | .request request => Clean settings provider store request
  | .damage _ _ => True
def TransparentStep (settings : Settings Price) (provider : Provider Price) (store : Store Price) : Label Price → Prop
  | .request request => Transparent settings provider store request
  | .damage _ _ => True

variable {label : Label Price}

theorem sound_step {next : Store Price} (sound : Sound provider store) (clean : CleanStep settings provider store label)
    (stepped : step settings provider store label = some next) : Sound provider next := by
  cases label with
  | request request =>
    obtain ⟨after,answered,sounds⟩ := request_spec clean sound
    rw [step,answered] at stepped
    cases stepped
    exact sounds
  | damage key file =>
    cases stepped
    exact sound

theorem transparent_step (sound : Sound provider store) (clean : CleanStep settings provider store label) :
    TransparentStep settings provider store label := by
  cases label with
  | request request =>
    obtain ⟨after,answered,_⟩ := request_spec clean sound
    exact ⟨_,congrArg Prod.snd answered,rfl,(provider.ascending _).filter _,uncached_spec clean⟩
  | damage key file => trivial

/-- In a clean run every request is transparent. -/
theorem requests_transparent (settings : Settings Price) (provider : Provider Price) (labels : List (Label Price))
    (clean : Meets (step settings provider) (CleanStep settings provider) initial labels) :
    Meets (step settings provider) (TransparentStep settings provider) initial labels :=
  meets_mono (fun _ _ _ sound clean stepped => sound_step sound clean stepped)
    (fun _ _ sound clean => transparent_step sound clean) (sound_initial provider) clean
end
def minuteDataset (exchangeSymbol : Text) : Dataset := ⟨text "binance",exchangeSymbol,text "1m"⟩
/-- Two candles of one symbol, and two of the others. -/
def sampleHistory (dataset : Dataset) : List (Candle Nat) :=
  if dataset.exchangeSymbol = text "BTC/USDT" then [⟨0,10,12,9,11,5⟩,⟨60000,11,13,10,12,6⟩]
  else [⟨0,70,72,69,71,1⟩,⟨60000,71,73,70,72,1⟩]
def sampleProvider : Provider Nat where
  history := sampleHistory
  ascending dataset := by
    unfold sampleHistory
    split <;> decide
  rows _ := 1000
def sampleSettings : Settings Nat := ⟨.monthly,1000,Nat.succ_pos _,1578240,fun _ _ => false⟩
def sampleRequest (exchangeSymbol : Text) (limit : Int) : Request := ⟨exchangeSymbol,minuteDataset exchangeSymbol,0,limit⟩
def filled : Store Nat :=
  (getOrFillPublicCandleCacheV2 sampleSettings sampleProvider initial (sampleRequest (text "BTC/USDT") 1)).1
def filledKey : StorageKey Nat :=
  ⟨text "BTC/USDT",minuteDataset (text "BTC/USDT"),0,60000,[⟨0,10,12,9,11,5⟩]⟩

/-- A request for one candle; its file is removed, and two candles are requested. -/
theorem requests_transparent_sample :
    (filled.file filledKey = .candles [⟨0,10,12,9,11,5⟩] ∧ sampleHistory (minuteDataset (text "BTC/USDT")) ≠ []) ∧
      Meets (step sampleSettings sampleProvider) (TransparentStep sampleSettings sampleProvider) initial
        [.request (sampleRequest (text "BTC/USDT") 1),.damage filledKey .missing,.request (sampleRequest (text "BTC/USDT") 2)] := by
  refine ⟨by decide,requests_transparent sampleSettings sampleProvider _ ?_⟩
  have isOf : ∃ index, filled.index (indexKey (minuteDataset (text "BTC/USDT"))) = some index ∧
      index.dataset = minuteDataset (text "BTC/USDT") ∧ ∀ segment ∈ index.segments, segment.storageKey = filledKey :=
    ⟨_,rfl,by decide,by decide⟩
  obtain ⟨index,isIndex,dataset,keys⟩ := isOf
  refine ⟨⟨fun index found => (nomatch found),fun index found => (nomatch found),by decide,by decide,.inl (by decide),
    fun _ _ _ => rfl⟩,?_⟩
  rintro mid ran
  cases ran
  refine ⟨trivial,?_⟩
  rintro mid ran
  cases ran
  refine ⟨⟨?_,?_,by decide,by decide,.inl (by decide),fun _ _ _ => rfl⟩,fun _ _ => trivial⟩
  · intro found isFound
    cases isIndex.symm.trans isFound
    exact dataset
  · intro found isFound segment member
    cases isIndex.symm.trans isFound
    rw [keys segment member]
    dsimp only
    rw [update_self]
    exact fun fieldless => nomatch fieldless

/-- Two symbols whose paths are the same. -/
theorem manifests_collide : ¬ ∀ (settings : Settings Nat) (provider : Provider Nat) (labels : List (Label Nat)),
    Meets (step settings provider) (TransparentStep settings provider) initial labels := by
  intro holds
  have meets := holds sampleSettings sampleProvider
    [.request (sampleRequest (text "BTC/USDT") 1),.request (sampleRequest (text "BTC:USDT") 1)]
  obtain ⟨candles,answered,isExpected,_⟩ := (meets.2 _ rfl).1
  rw [isExpected] at answered
  exact absurd answered (by decide +kernel)

end Codebot.CacheTransparency
