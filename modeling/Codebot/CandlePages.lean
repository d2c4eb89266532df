import Codebot.CandleFetches
import Codebot.Loops

/-!
Fetches from a provider whose pages are capped and may have rows that read as no candle. A fetch takes a page that is
shorter than it asked for to be the last (`fetches_all_iff`).
-/
namespace Codebot.CandlePages
open Series CandleFetches Loops List

variable {Price : Type}
/-- A row of the provider, whose numbers are finite or not. -/
inductive Row (Price : Type)
  | wellFormed (candle : Candle Price)
  | malformed (timestamp : Int)
def Row.timestamp : Row Price → Int
  | .wellFormed candle => candle.timestamp
  | .malformed timestamp => timestamp
def Row.candle : Row Price → Option (Candle Price)
  | .wellFormed candle => some candle
  | .malformed _ => none
def candles (rows : List (Row Price)) : List (Candle Price) := rows.filterMap Row.candle
def since (cursor : Int) (rows : List (Row Price)) : List (Row Price) := rows.filter fun row => cursor ≤ row.timestamp

/-- A provider answers with its earliest rows from a time on, no more than its cap, `none` for what reads as no candle.
    -/
structure Provider (Price : Type) where
  rows : List (Row Price)
  ascending : Ascending Row.timestamp rows
  cap : Nat
  least : 2 ≤ cap
  fetchOHLCV : Int → Nat → List (Option (Candle Price))
  answers : ∀ cursor limit, (fetchOHLCV cursor limit).filterMap id = candles ((since cursor rows).take (min limit cap))

/-- `MAX_CANDLES_PER_FETCH` and the step of the timeframe. -/
structure Settings where
  maxPerFetch : Nat
  fetches : 0 < maxPerFetch
  stepMs : Nat
  steps : 0 < stepMs
structure FetchState (Price : Type) where
  cursor : Int
  candles : List (Candle Price)

/-- A round of the loop of `fetchPublicCandles`. -/
def fetchRound (settings : Settings) (fetchOHLCV : Int → Nat → List (Option (Candle Price))) (requestedLimit : Nat)
    (state : FetchState Price) : Round (FetchState Price) Empty :=
  if requestedLimit ≤ state.candles.length then .left state
  else
    let batchLimit := min settings.maxPerFetch (requestedLimit - state.candles.length)
    let batch := ((fetchOHLCV state.cursor batchLimit).filterMap id).filter fun candle => state.cursor ≤ candle.timestamp
    match batch.getLast? with
    | none => .left state
    | some last =>
      let nextCursor := last.timestamp + settings.stepMs
      if nextCursor ≤ state.cursor then .left ⟨state.cursor,pushNew state.candles batch⟩
      else if batch.length < batchLimit then .left ⟨nextCursor,pushNew state.candles batch⟩
      else .again ⟨nextCursor,pushNew state.candles batch⟩

/-- `fetchPublicCandles`, on so many rounds; `none` where they are too few. -/
def fetchPublicCandles (settings : Settings) (fetchOHLCV : Int → Nat → List (Option (Candle Price))) (start : Int) (limit : Nat)
    (rounds : Nat) : Option (List (Candle Price)) :=
  match loop (fetchRound settings fetchOHLCV (max 1 limit)) rounds ⟨start,[]⟩ with
  | some (.ok last) => some last.candles
  | _ => none
def wanted (limit : Nat) (rows : List (Row Price)) : List (Candle Price) := (candles rows).take limit
/-- The fetch ends, with all candles from its start on up to its limit, ascending and each once. -/
def FetchesAll (settings : Settings) (provider : Provider Price) (start : Int) (limit : Nat) : Prop :=
  ∃ rounds fetched, fetchPublicCandles settings provider.fetchOHLCV start limit rounds = some fetched ∧
    fetched = wanted (max 1 limit) (since start provider.rows) ∧ Ascending (·.timestamp) fetched
def page (settings : Settings) (cap limit : Nat) (rows : List (Row Price)) : List (Candle Price) :=
  candles (rows.take (min (min settings.maxPerFetch limit) cap))

/-- The pages have all that is wanted: the page has it, or it is full, nothing wanted is within a step after it, and the
    pages from there on have the rest. -/
inductive Paged (settings : Settings) (cap : Nat) : Nat → List (Row Price) → Prop
  | all {limit : Nat} {rows : List (Row Price)} (whole : page settings cap limit rows = wanted limit rows) :
      Paged settings cap limit rows
  | next {limit : Nat} {rows : List (Row Price)} {last : Candle Price}
      (full : (page settings cap limit rows).length = min settings.maxPerFetch limit)
      (isLast : (page settings cap limit rows).getLast? = some last)
      (apart : ∀ candle ∈ wanted limit rows, last.timestamp < candle.timestamp →
        last.timestamp + settings.stepMs ≤ candle.timestamp)
      (rest : Paged settings cap (limit - min settings.maxPerFetch limit) (since (last.timestamp + settings.stepMs) rows)) :
      Paged settings cap limit rows

theorem candles_append (rows later : List (Row Price)) : candles (rows ++ later) = candles rows ++ candles later :=
  filterMap_append

variable {rows : List (Row Price)}

theorem mem_candles {candle : Candle Price} : candle ∈ candles rows ↔ .wellFormed candle ∈ rows := by
  rw [candles,mem_filterMap]
  constructor
  · rintro ⟨row,listed,isCandle⟩
    cases row with
    | wellFormed other =>
      cases isCandle
      exact listed
    | malformed timestamp => cases isCandle
  · intro listed
    exact ⟨_,listed,rfl⟩

theorem candles_ascending (ascending : Ascending Row.timestamp rows) : Ascending (·.timestamp) (candles rows) := by
  refine List.Pairwise.filterMap _ ?_ ascending
  intro row other before candle isCandle later isLater
  cases row with
  | malformed timestamp => cases isCandle
  | wellFormed first =>
    cases other with
    | malformed timestamp => cases isLater
    | wellFormed second =>
      cases isCandle
      cases isLater
      exact before

theorem candles_since (cursor : Int) (rows : List (Row Price)) :
    candles (since cursor rows) = (candles rows).filter fun candle => cursor ≤ candle.timestamp := by
  induction rows with
  | nil => rfl
  | cons row rows ih =>
    cases row with
    | malformed timestamp =>
      rw [since,filter_cons]
      split
      · exact ih
      · exact ih
    | wellFormed candle =>
      rw [since,filter_cons]
      by_cases after : cursor ≤ candle.timestamp
      · simp only [Row.timestamp,after,decide_true,if_true,candles,filterMap_cons,Row.candle,filter_cons]
        exact congrArg (candle :: ·) ih
      · simp only [Row.timestamp,after,decide_false,candles,filterMap_cons,Row.candle,filter_cons]
        exact ih

variable {cursor : Int}

theorem since_since {later : Int} (after : cursor ≤ later) (rows : List (Row Price)) :
    since later (since cursor rows) = since later rows := by
  rw [since,since,filter_filter]
  apply filter_congr
  intro row _
  by_cases isLater : later ≤ row.timestamp
  · simp [isLater,after.trans isLater]
  · simp [isLater]

theorem page_prefix (settings : Settings) (cap limit : Nat) (rows : List (Row Price)) :
    ∃ rest, candles rows = page settings cap limit rows ++ rest :=
  ⟨candles (rows.drop (min (min settings.maxPerFetch limit) cap)),by rw [page,← candles_append,take_append_drop]⟩
theorem page_length (settings : Settings) (cap limit : Nat) (rows : List (Row Price)) :
    (page settings cap limit rows).length ≤ min settings.maxPerFetch limit := by
  refine (length_filterMap_le _ _).trans ?_
  rw [length_take]
  omega
theorem page_wanted (settings : Settings) (cap limit : Nat) (rows : List (Row Price)) :
    page settings cap limit rows <+: wanted limit rows := by
  obtain ⟨rest,whole⟩ := page_prefix settings cap limit rows
  have within := page_length settings cap limit rows
  rw [wanted,whole,take_append,take_of_length_le (by omega)]
  exact prefix_append _ _

section
variable {settings : Settings} {provider : Provider Price}

theorem batch_eq (cursor : Int) (limit : Nat) :
    ((provider.fetchOHLCV cursor (min settings.maxPerFetch limit)).filterMap id).filter (fun candle => cursor ≤ candle.timestamp) =
      page settings provider.cap limit (since cursor provider.rows) := by
  rw [provider.answers,page]
  apply filter_eq_self.mpr
  intro candle listed
  have among := mem_of_mem_take (mem_candles.mp listed)
  exact (mem_filter.mp among).2

variable {cursor : Int} {limit : Nat}
theorem page_since {candle : Candle Price}
    (listed : candle ∈ page settings provider.cap limit (since cursor provider.rows)) : cursor ≤ candle.timestamp := by
  rw [← batch_eq] at listed
  exact of_decide_eq_true (mem_filter.mp listed).2
theorem page_ascending (cursor : Int) (limit : Nat) :
    Ascending (·.timestamp) (page settings provider.cap limit (since cursor provider.rows)) := by
  obtain ⟨rest,whole⟩ := page_prefix settings provider.cap limit (since cursor provider.rows)
  have ascending := candles_ascending (provider.ascending.filter (cursor ≤ ·.timestamp))
  rw [← since,whole] at ascending
  exact (pairwise_append.mp ascending).1

theorem push_page {cursor : Int} {limit : Nat} {earlier : List (Candle Price)} (ascending : Ascending (·.timestamp) earlier)
    (before : ∀ candle ∈ earlier, candle.timestamp < cursor) :
    Ascending (·.timestamp) (earlier ++ page settings provider.cap limit (since cursor provider.rows)) ∧
      pushNew earlier (page settings provider.cap limit (since cursor provider.rows)) =
        earlier ++ page settings provider.cap limit (since cursor provider.rows) := by
  have both : Ascending (·.timestamp) (earlier ++ page settings provider.cap limit (since cursor provider.rows)) :=
    pairwise_append.mpr ⟨ascending,page_ascending cursor limit,fun candle isEarlier other isPage =>
      (before candle isEarlier).trans_le (page_since isPage)⟩
  exact ⟨both,pushNew_distinct both.times⟩

variable {earlier : List (Candle Price)}
theorem round_none (some : 0 < limit) (none : page settings provider.cap limit (since cursor provider.rows) = []) :
    fetchRound settings provider.fetchOHLCV (earlier.length + limit) ⟨cursor,earlier⟩ = .left ⟨cursor,earlier⟩ := by
  rw [fetchRound,if_neg (by simp; omega)]
  simp only [Nat.add_sub_cancel_left,batch_eq,none,getLast?_nil]

theorem round_some {last : Candle Price} (some : 0 < limit)
    (isLast : (page settings provider.cap limit (since cursor provider.rows)).getLast? = .some last) :
    fetchRound settings provider.fetchOHLCV (earlier.length + limit) ⟨cursor,earlier⟩ =
      if (page settings provider.cap limit (since cursor provider.rows)).length < min settings.maxPerFetch limit then
        .left ⟨last.timestamp + settings.stepMs,pushNew earlier (page settings provider.cap limit (since cursor provider.rows))⟩
      else .again ⟨last.timestamp + settings.stepMs,pushNew earlier (page settings provider.cap limit (since cursor provider.rows))⟩ := by
  have onward := page_since (mem_of_getLast? isLast)
  have step := settings.steps
  rw [fetchRound,if_neg (by simp; omega)]
  simp only [Nat.add_sub_cancel_left,batch_eq,isLast]
  rw [if_neg (by omega)]
end

theorem take_since {rest : List (Candle Price)} (ascending : Ascending (·.timestamp) rest) {count : Nat}
    (after : ∀ candle ∈ rest.take count, cursor ≤ candle.timestamp) :
    (rest.filter fun candle => cursor ≤ candle.timestamp).take count = rest.take count := by
  cases count with
  | zero => rw [take_zero,take_zero]
  | succ count =>
    cases rest with
    | nil => rfl
    | cons first later =>
      have here := after first mem_cons_self
      rw [filter_eq_self.mpr]
      intro candle listed
      apply decide_eq_true
      rcases mem_cons.mp listed with rfl | isLater
      · exact here
      · exact here.trans ((pairwise_cons.mp ascending).1 candle isLater).le

section
variable {settings : Settings} {provider : Provider Price}
variable {cursor : Int} {last : Candle Price} {limit : Nat}

theorem candle_le_last {candle : Candle Price}
    (isLast : (page settings provider.cap limit (since cursor provider.rows)).getLast? = some last)
    (listed : candle ∈ page settings provider.cap limit (since cursor provider.rows)) : candle.timestamp ≤ last.timestamp := by
  have ascending := @page_ascending _ settings provider cursor limit
  obtain ⟨before,isBefore⟩ := getLast?_eq_some_iff.mp isLast
  rw [isBefore] at ascending listed
  rcases mem_append.mp listed with isEarlier | isLast
  · exact ((pairwise_append.mp ascending).2.2 candle isEarlier last (mem_singleton_self _)).le
  · rw [mem_singleton.mp isLast]

theorem after_page (isLast : (page settings provider.cap limit (since cursor provider.rows)).getLast? = some last) :
    ∃ rest, candles (since cursor provider.rows) = page settings provider.cap limit (since cursor provider.rows) ++ rest ∧
      Ascending (·.timestamp) rest ∧ (∀ candle ∈ rest, last.timestamp < candle.timestamp) ∧
      candles (since (last.timestamp + settings.stepMs) (since cursor provider.rows)) =
        rest.filter fun candle => last.timestamp + settings.stepMs ≤ candle.timestamp := by
  obtain ⟨rest,whole⟩ := page_prefix settings provider.cap limit (since cursor provider.rows)
  have ascending := candles_ascending (provider.ascending.filter (cursor ≤ ·.timestamp))
  rw [← since,whole] at ascending
  obtain ⟨_,later,apart⟩ := pairwise_append.mp ascending
  have listed := mem_of_getLast? isLast
  have step := settings.steps
  refine ⟨rest,whole,later,fun candle isRest => apart last listed candle isRest,?_⟩
  rw [candles_since,whole,filter_append,filter_eq_nil_iff.mpr,nil_append]
  intro candle isPage
  rw [decide_eq_true_eq,not_le]
  have upTo := candle_le_last isLast isPage
  omega

theorem short_paged {cap limit : Nat} {rows : List (Row Price)}
    (short : (page settings cap limit rows).length < min settings.maxPerFetch limit) :
    page settings cap limit rows = wanted limit rows ↔ Paged settings cap limit rows := by
  constructor
  · exact .all
  · rintro (whole | ⟨full,_,_,_⟩)
    · exact whole
    · omega

theorem full_paged {found : List (Candle Price)}
    (full : (page settings provider.cap limit (since cursor provider.rows)).length = min settings.maxPerFetch limit)
    (isLast : (page settings provider.cap limit (since cursor provider.rows)).getLast? = some last)
    (after : ∀ candle ∈ found, last.timestamp + settings.stepMs ≤ candle.timestamp)
    (pagedLater : found = wanted (limit - min settings.maxPerFetch limit) (since (last.timestamp + settings.stepMs) provider.rows) ↔
      Paged settings provider.cap (limit - min settings.maxPerFetch limit) (since (last.timestamp + settings.stepMs) provider.rows)) :
    page settings provider.cap limit (since cursor provider.rows) ++ found = wanted limit (since cursor provider.rows) ↔
      Paged settings provider.cap limit (since cursor provider.rows) := by
  obtain ⟨rest,whole,ascending,later,isSince⟩ := after_page isLast
  have step := settings.steps
  have onward := page_since (mem_of_getLast? isLast)
  rw [since_since (by omega)] at isSince
  have isWanted : wanted limit (since cursor provider.rows) =
      page settings provider.cap limit (since cursor provider.rows) ++ rest.take (limit - min settings.maxPerFetch limit) := by
    rw [wanted,whole,take_append,take_of_length_le (by omega),full]
  have isLater : wanted (limit - min settings.maxPerFetch limit) (since (last.timestamp + settings.stepMs) provider.rows) =
      (rest.filter fun candle => last.timestamp + settings.stepMs ≤ candle.timestamp).take (limit - min settings.maxPerFetch limit) := by
    rw [wanted,isSince]
  have apart : (∀ candle ∈ wanted limit (since cursor provider.rows), last.timestamp < candle.timestamp →
      last.timestamp + settings.stepMs ≤ candle.timestamp) → ∀ candle ∈ rest.take (limit - min settings.maxPerFetch limit),
        last.timestamp + settings.stepMs ≤ candle.timestamp := by
    intro apart candle listed
    exact apart candle (isWanted ▸ mem_append_right _ listed) (later candle (mem_of_mem_take listed))
  rw [isWanted,append_cancel_left_eq]
  constructor
  · rintro rfl
    refine .next full isLast ?_ ?_
    · intro candle listed isAfter
      rw [isWanted] at listed
      rcases mem_append.mp listed with isPage | isRest
      · have upTo := candle_le_last isLast isPage
        omega
      · exact after candle isRest
    · rw [since_since (by omega)]
      apply pagedLater.mp
      rw [isLater,take_since ascending after]
  · rintro (all | ⟨_,isLastToo,spaced,paged⟩)
    · rw [isWanted,self_eq_append_right] at all
      rw [all]
      have none : wanted (limit - min settings.maxPerFetch limit) (since (last.timestamp + settings.stepMs) provider.rows) = [] := by
        rw [isLater,take_since ascending (by rw [all]; simp),all]
      have noPage := page_wanted settings provider.cap (limit - min settings.maxPerFetch limit)
        (since (last.timestamp + settings.stepMs) provider.rows)
      rw [none,prefix_nil] at noPage
      rw [pagedLater.mpr (.all (noPage.trans none.symm)),none]
    · rw [isLast] at isLastToo
      cases isLastToo
      rw [since_since (by omega)] at paged
      rw [pagedLater.mpr paged,isLater,take_since ascending (apart spaced)]
end

section
variable (settings : Settings) (provider : Provider Price)

theorem run_paged (limit : Nat) {cursor : Int} {earlier : List (Candle Price)} (ascending : Ascending (·.timestamp) earlier)
    (before : ∀ candle ∈ earlier, candle.timestamp < cursor) {rounds : Nat} (enough : limit < rounds) :
    ∃ last found, loop (fetchRound settings provider.fetchOHLCV (earlier.length + limit)) rounds ⟨cursor,earlier⟩ = some (.ok last) ∧
      last.candles = earlier ++ found ∧ (∀ candle ∈ found, cursor ≤ candle.timestamp) ∧
      (found = wanted limit (since cursor provider.rows) ↔ Paged settings provider.cap limit (since cursor provider.rows)) := by
  induction limit using Nat.strong_induction_on generalizing cursor earlier rounds with
  | h limit ih =>
  obtain ⟨rounds,rfl⟩ : ∃ rest, rounds = rest + 1 := ⟨rounds - 1,by omega⟩
  have positive := settings.fetches
  have short := @short_paged _ settings provider.cap limit (since cursor provider.rows)
  rw [loop]
  rcases Nat.eq_zero_or_pos limit with rfl | some
  · have noPage : page settings provider.cap 0 (since cursor provider.rows) = [] :=
      prefix_nil.mp (page_wanted settings provider.cap 0 (since cursor provider.rows))
    rw [fetchRound,if_pos (by simp)]
    exact ⟨_,[],rfl,(append_nil _).symm,by simp,fun _ => .all noPage,fun _ => rfl⟩
  · cases isLast : (page settings provider.cap limit (since cursor provider.rows)).getLast? with
    | none =>
      have noPage := getLast?_eq_none_iff.mp isLast
      rw [round_none some noPage]
      refine ⟨_,[],rfl,(append_nil _).symm,by simp,?_⟩
      rw [← noPage]
      apply short
      rw [noPage,length_nil]
      omega
    | some last =>
      obtain ⟨both,isPushed⟩ := @push_page _ settings _ _ limit _ ascending before
      rw [round_some some isLast,isPushed]
      by_cases isShort : (page settings provider.cap limit (since cursor provider.rows)).length < min settings.maxPerFetch limit
      · rw [if_pos isShort]
        exact ⟨_,_,rfl,rfl,fun _ => page_since,short isShort⟩
      · rw [if_neg isShort]
        have full := le_antisymm (page_length settings provider.cap limit (since cursor provider.rows)) (not_lt.mp isShort)
        have step := settings.steps
        have onward := page_since (mem_of_getLast? isLast)
        have passed : ∀ candle ∈ earlier ++ page settings provider.cap limit (since cursor provider.rows),
            candle.timestamp < last.timestamp + settings.stepMs := by
          intro candle listed
          rcases mem_append.mp listed with isEarlier | isPage
          · have old := before candle isEarlier
            omega
          · have upTo := candle_le_last isLast isPage
            omega
        obtain ⟨ended,found,ends,isEnded,after,paged⟩ := ih (limit - min settings.maxPerFetch limit) (by omega) both passed
          (by omega : limit - min settings.maxPerFetch limit < rounds)
        have whole : (earlier ++ page settings provider.cap limit (since cursor provider.rows)).length +
            (limit - min settings.maxPerFetch limit) = earlier.length + limit := by
          rw [length_append,full]
          omega
        rw [whole] at ends
        refine ⟨ended,page settings provider.cap limit (since cursor provider.rows) ++ found,ends,?_,?_,?_⟩
        · rw [isEnded,append_assoc]
        · intro candle listed
          rcases mem_append.mp listed with isPage | isFound
          · exact page_since isPage
          · have later := after candle isFound
            omega
        · exact full_paged full isLast after paged

variable {rounds : Nat}

theorem fetch_run (start : Int) (limit : Nat) (enough : max 1 limit < rounds) :
    ∃ fetched, fetchPublicCandles settings provider.fetchOHLCV start limit rounds = some fetched ∧
      (fetched = wanted (max 1 limit) (since start provider.rows) ↔
        Paged settings provider.cap (max 1 limit) (since start provider.rows)) := by
  obtain ⟨last,found,ends,isLast,_,paged⟩ := @run_paged _ settings provider (max 1 limit) start []
    List.Pairwise.nil (by simp) _ enough
  rw [length_nil,Nat.zero_add] at ends
  rw [nil_append] at isLast
  exact ⟨found,by rw [fetchPublicCandles,ends,← isLast],paged⟩

theorem fetch_unique {settings : Settings} {fetchOHLCV : Int → Nat → List (Option (Candle Price))} {start : Int} {limit more : Nat}
    {fetched others : List (Candle Price)} (isFetched : fetchPublicCandles settings fetchOHLCV start limit rounds = some fetched)
    (isOthers : fetchPublicCandles settings fetchOHLCV start limit more = some others) : fetched = others := by
  unfold fetchPublicCandles at isFetched isOthers
  split at isFetched
  · rename_i last ends
    cases isFetched
    split at isOthers
    · rename_i other alsoEnds
      cases isOthers
      have both := loop_more ends (Nat.le_max_left _ more)
      rw [loop_more alsoEnds (Nat.le_max_right rounds _)] at both
      cases both
      rfl
    · cases isOthers
  · cases isFetched

/-- A fetch ends with all the candles that are wanted, ascending and each once, exactly if the pages of
    the rows have them. -/
theorem fetches_all_iff (start : Int) (limit : Nat) :
    FetchesAll settings provider start limit ↔ Paged settings provider.cap (max 1 limit) (since start provider.rows) := by
  obtain ⟨fetched,isFetched,paged⟩ := fetch_run settings provider start limit (Nat.lt_succ_self (max 1 limit))
  constructor
  · rintro ⟨rounds,others,isOthers,isWanted,_⟩
    apply paged.mp
    rw [← isWanted]
    exact fetch_unique isFetched isOthers
  · intro isPaged
    refine ⟨_,fetched,isFetched,paged.mpr isPaged,?_⟩
    rw [paged.mpr isPaged]
    have ascending := candles_ascending (provider.ascending.filter (start ≤ ·.timestamp))
    exact ascending.sublist (take_sublist _ _)
end

def threeCandles : List (Row Int) := [0,60000,120000].map fun timestamp => .wellFormed ⟨timestamp,5,5,5,5,1⟩
def ofRows (rows : List (Row Int)) (ascending : Ascending Row.timestamp rows) : Provider Int where
  rows := rows
  ascending := ascending
  cap := 2
  least := le_refl 2
  fetchOHLCV cursor limit := ((since cursor rows).take (min limit 2)).map Row.candle
  answers cursor limit := by rw [List.filterMap_map]; rfl
def pagesOfTwo : Provider Int := ofRows threeCandles (by decide)
def minutes : Settings where
  maxPerFetch := 1000
  fetches := by decide
  stepMs := 60000
  steps := by decide

theorem pagesOfTwo_cut : (fetchPublicCandles minutes pagesOfTwo.fetchOHLCV 0 3 4).map (·.map (·.timestamp)) = some [0,60000] ∧
    (wanted 3 (since 0 pagesOfTwo.rows)).map (·.timestamp) = [0,60000,120000] ∧ ¬FetchesAll minutes pagesOfTwo 0 3 := by
  have two : (fetchPublicCandles minutes pagesOfTwo.fetchOHLCV 0 3 4).map (·.map (·.timestamp)) = some [0,60000] := by decide +kernel
  have three : (wanted 3 (since 0 pagesOfTwo.rows)).map (·.timestamp) = [0,60000,120000] := by decide +kernel
  refine ⟨two,three,?_⟩
  rintro ⟨rounds,fetched,isFetched,rfl,_⟩
  cases run : fetchPublicCandles minutes pagesOfTwo.fetchOHLCV 0 3 4 with
  | none =>
    rw [run] at two
    cases two
  | some others =>
    rw [run,fetch_unique run isFetched] at two
    exact absurd (three.symm.trans (Option.some.inj two)) (by decide)
end Codebot.CandlePages
