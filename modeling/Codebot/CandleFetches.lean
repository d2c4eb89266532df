import Codebot.Series
import Codebot.Texts
import Mathlib.Algebra.Order.Group.Int
import Mathlib.Data.Int.Basic

/-!
Candles and the provider that the backtest worker fetches them from. The provider
has one history for each dataset and answers with its earliest candles from a time
on; it may answer with fewer than it is asked for (`rows`). A fetch asks page by
page until it has enough (`within_fetch`).
-/
namespace Codebot.CandleFetches
open Texts Series List

structure Candle (Price : Type) where
  timestamp : Int
  openPrice : Price
  high : Price
  low : Price
  close : Price
  volume : Price
deriving DecidableEq

/-- What the history depends on. -/
structure Dataset where
  exchange : Text
  exchangeSymbol : Text
  timeframe : Text
deriving DecidableEq
structure Provider (Price : Type) where
  history : Dataset → List (Candle Price)
  ascending : ∀ dataset, Ascending (·.timestamp) (history dataset)
  rows : Dataset → Nat

variable {Price : Type}
def Provider.fetchOHLCV (provider : Provider Price) (dataset : Dataset) (since : Int) (limit : Nat) : List (Candle Price) :=
  ((provider.history dataset).filter fun candle => since ≤ candle.timestamp).take (min limit (provider.rows dataset))
/-- The candles of a page whose timestamps were not seen are added. -/
def pushNew (candles batch : List (Candle Price)) : List (Candle Price) :=
  batch.foldl (fun candles candle =>
    if candle.timestamp ∈ candles.map (·.timestamp) then candles else candles ++ [candle]) candles

/-- The loop of `fetchPublicCandles`, of so many pages at most. -/
def fetchPages (fetchOHLCV : Int → Nat → List (Candle Price)) (stepMs maxPerFetch requestedLimit : Nat) :
    Nat → Int → List (Candle Price) → List (Candle Price)
  | 0, _, candles => candles
  | pages + 1, cursor, candles =>
    if requestedLimit ≤ candles.length then candles
    else
      let batchLimit := min maxPerFetch (requestedLimit - candles.length)
      let batch := (fetchOHLCV cursor batchLimit).filter fun candle => cursor ≤ candle.timestamp
      match batch.getLast? with
      | none => candles
      | some last =>
        if last.timestamp + stepMs ≤ cursor || batch.length < batchLimit then pushNew candles batch
        else fetchPages fetchOHLCV stepMs maxPerFetch requestedLimit pages (last.timestamp + stepMs) (pushNew candles batch)

def fetchPublicCandles (provider : Provider Price) (maxPerFetch : Nat) (dataset : Dataset) (stepMs : Nat) (since : Int)
    (limit : Nat) : List (Candle Price) :=
  fetchPages (provider.fetchOHLCV dataset) stepMs maxPerFetch (max 1 limit) (max 1 limit) since []
def Spaced (stepMs : Nat) (candles : List (Candle Price)) : Prop :=
  candles.Pairwise fun a b => a.timestamp + (stepMs : Int) ≤ b.timestamp
instance (stepMs : Nat) (candles : List (Candle Price)) : Decidable (Spaced stepMs candles) :=
  inferInstanceAs (Decidable (candles.Pairwise fun a b => a.timestamp + (stepMs : Int) ≤ b.timestamp))

theorem pushNew_distinct {candles batch : List (Candle Price)} (distinct : ((candles ++ batch).map (·.timestamp)).Nodup) :
    pushNew candles batch = candles ++ batch := by
  induction batch generalizing candles with
  | nil => exact (append_nil _).symm
  | cons candle rest ih =>
    have new : candle.timestamp ∉ candles.map (·.timestamp) := by
      intro known
      rw [map_append,nodup_append'] at distinct
      exact distinct.2.2 known mem_cons_self
    rw [append_cons] at distinct ⊢
    rw [← ih distinct,pushNew,foldl_cons,if_neg new]
    rfl

theorem mem_pushNew {candles batch : List (Candle Price)} {candle : Candle Price} (member : candle ∈ pushNew candles batch) :
    candle ∈ candles ∨ candle ∈ batch := by
  induction batch generalizing candles with
  | nil => exact .inl member
  | cons next rest ih =>
    rw [pushNew,foldl_cons] at member
    rcases ih member with before | later
    · split at before
      · exact .inl before
      · rcases mem_append.mp before with old | isNext
        · exact .inl old
        · exact .inr (mem_singleton.mp isNext ▸ mem_cons_self)
    · exact .inr (mem_cons_of_mem _ later)

theorem fetchPages_since {fetchOHLCV : Int → Nat → List (Candle Price)} {stepMs maxPerFetch limit pages : Nat} {since cursor : Int}
    (started : since ≤ cursor) {candles : List (Candle Price)} (onward : ∀ candle ∈ candles, since ≤ candle.timestamp) :
    ∀ candle ∈ fetchPages fetchOHLCV stepMs maxPerFetch limit pages cursor candles, since ≤ candle.timestamp := by
  induction pages generalizing cursor candles with
  | zero => exact onward
  | succ pages ih =>
    rw [fetchPages]
    split
    · exact onward
    · dsimp only
      split
      · exact onward
      · rename_i last isLast
        have inBatch : ∀ candle ∈ (fetchOHLCV cursor (min maxPerFetch (limit - candles.length))).filter (cursor ≤ ·.timestamp),
            cursor ≤ candle.timestamp := fun candle member => of_decide_eq_true (mem_filter.mp member).2
        have pushed : ∀ candle ∈ pushNew candles
            ((fetchOHLCV cursor (min maxPerFetch (limit - candles.length))).filter (cursor ≤ ·.timestamp)),
            since ≤ candle.timestamp := by
          intro candle member
          rcases mem_pushNew member with old | new
          · exact onward candle old
          · exact started.trans (inBatch candle new)
        split
        · exact pushed
        · have atCursor := inBatch last (mem_of_getLast? isLast)
          exact ih (by omega) pushed

theorem later_pages {candles rest : List (Candle Price)} {stepMs count : Nat} {cursor : Int}
    (isRest : candles.filter (cursor ≤ ·.timestamp) = rest) (spaced : Spaced stepMs rest) (positive : 0 < stepMs)
    {last : Candle Price} (isLast : (rest.take count).getLast? = some last) :
    candles.filter (last.timestamp + stepMs ≤ ·.timestamp) = rest.drop count := by
  obtain ⟨page,isPage⟩ := getLast?_eq_some_iff.mp isLast
  have split : rest = page ++ last :: rest.drop count := by
    conv_lhs => rw [← take_append_drop count rest,isPage,append_assoc,singleton_append]
  have isCursor : cursor ≤ last.timestamp := by
    have member : last ∈ candles.filter (cursor ≤ ·.timestamp) := by
      rw [isRest,split]
      exact mem_append_right _ mem_cons_self
    exact of_decide_eq_true (mem_filter.mp member).2
  have twice : candles.filter (last.timestamp + stepMs ≤ ·.timestamp) = rest.filter (last.timestamp + stepMs ≤ ·.timestamp) := by
    rw [← isRest,filter_filter]
    refine filter_congr ?_
    intro candle _
    rw [Bool.eq_iff_iff]
    simp only [Bool.and_eq_true,decide_eq_true_eq]
    omega
  have spaces := spaced
  rw [split,Spaced,pairwise_append,pairwise_cons] at spaces
  obtain ⟨_,⟨after,_⟩,before⟩ := spaces
  rw [twice]
  conv_lhs => rw [split]
  rw [filter_append,filter_cons]
  have noPage : page.filter (last.timestamp + stepMs ≤ ·.timestamp) = [] := by
    refine filter_eq_nil_iff.mpr ?_
    intro candle member
    have earlier := before candle member last mem_cons_self
    simp only [decide_eq_true_eq]
    omega
  have noLast : decide (last.timestamp + stepMs ≤ last.timestamp) = false := by
    rw [decide_eq_false_iff_not]
    omega
  rw [noPage,noLast,if_neg Bool.false_ne_true,nil_append]
  exact filter_eq_self.mpr fun candle member => decide_eq_true (after candle member)

theorem Spaced.filter {stepMs : Nat} {candles : List (Candle Price)} (spaced : Spaced stepMs candles)
    (p : Candle Price → Bool) : Spaced stepMs (candles.filter p) := List.Pairwise.filter p spaced

theorem fetchPages_full {provider : Provider Price} {dataset : Dataset} {stepMs maxPerFetch limit : Nat} (positive : 0 < stepMs)
    (some : 0 < maxPerFetch) (spaced : Spaced stepMs (provider.history dataset))
    (full : min maxPerFetch limit ≤ provider.rows dataset) :
    ∀ (pages : Nat) (cursor : Int) (candles rest : List (Candle Price)), limit ≤ candles.length + pages →
      candles.length ≤ limit → (provider.history dataset).filter (cursor ≤ ·.timestamp) = rest →
      ((candles ++ rest).map (·.timestamp)).Nodup →
      fetchPages (provider.fetchOHLCV dataset) stepMs maxPerFetch limit pages cursor candles = (candles ++ rest).take limit := by
  intro pages
  induction pages with
  | zero =>
    intro cursor candles rest enough few _ _
    rw [fetchPages,take_append_of_le_length (by omega),take_of_length_le few]
  | succ pages ih =>
    intro cursor candles rest enough few isRest distinct
    rw [fetchPages]
    by_cases done : limit ≤ candles.length
    · rw [if_pos done,take_append_of_le_length done,take_of_length_le few]
    rw [if_neg done]
    let batchLimit := min maxPerFetch (limit - candles.length)
    have batch : (provider.fetchOHLCV dataset cursor batchLimit).filter (cursor ≤ ·.timestamp) = rest.take batchLimit := by
      have answered : provider.fetchOHLCV dataset cursor batchLimit = rest.take batchLimit := by
        rw [Provider.fetchOHLCV,isRest,Nat.min_eq_left (by omega)]
      rw [answered]
      refine filter_eq_self.mpr ?_
      intro candle member
      have inRest := mem_of_mem_take member
      rw [← isRest] at inRest
      exact (mem_filter.mp inRest).2
    dsimp only
    rw [batch]
    have pushed : pushNew candles (rest.take batchLimit) = candles ++ rest.take batchLimit := by
      refine pushNew_distinct (distinct.sublist ?_)
      exact ((take_sublist _ _).append_left _).map _
    cases isLast : (rest.take batchLimit).getLast? with
    | none =>
      have noRest : rest = [] := by
        rcases take_eq_nil_iff.mp (getLast?_eq_none_iff.mp isLast) with nothing | empty
        · omega
        · exact empty
      rw [noRest,append_nil,take_of_length_le few]
    | some last =>
      dsimp only
      rw [pushed]
      have isCursor : cursor ≤ last.timestamp := by
        have member := mem_of_mem_take (mem_of_getLast? isLast)
        rw [← isRest] at member
        exact of_decide_eq_true (mem_filter.mp member).2
      have moves : decide (last.timestamp + stepMs ≤ cursor) = false := by
        rw [decide_eq_false_iff_not]
        omega
      rw [moves,Bool.false_or]
      by_cases short : (rest.take batchLimit).length < batchLimit
      · rw [if_pos (decide_eq_true short)]
        rw [length_take] at short
        have all : rest.take batchLimit = rest := take_of_length_le (by omega)
        rw [all,take_of_length_le (by rw [length_append]; omega)]
      · rw [if_neg (by rw [decide_eq_true_iff]; exact short)]
        rw [length_take] at short
        have spacedRest : Spaced stepMs rest := isRest ▸ spaced.filter _
        have next := ih (last.timestamp + stepMs) (candles ++ rest.take batchLimit) (rest.drop batchLimit)
          (by rw [length_append,length_take]; omega) (by rw [length_append,length_take]; omega)
          (later_pages isRest spacedRest positive isLast)
          (by rw [append_assoc,take_append_drop]; exact distinct)
        rw [next,append_assoc,take_append_drop]

theorem fetchPages_short {provider : Provider Price} {dataset : Dataset} {stepMs maxPerFetch limit : Nat}
    (short : provider.rows dataset < min maxPerFetch limit) (pages : Nat) (since : Int) :
    fetchPages (provider.fetchOHLCV dataset) stepMs maxPerFetch limit (pages + 1) since [] =
      ((provider.history dataset).filter (since ≤ ·.timestamp)).take (provider.rows dataset) := by
  let rest := (provider.history dataset).filter (since ≤ ·.timestamp)
  have batch : (provider.fetchOHLCV dataset since (min maxPerFetch (limit - 0))).filter (since ≤ ·.timestamp) =
      rest.take (provider.rows dataset) := by
    rw [Provider.fetchOHLCV,Nat.sub_zero,Nat.min_eq_right (Nat.le_of_lt short)]
    refine filter_eq_self.mpr ?_
    intro candle member
    exact (mem_filter.mp (mem_of_mem_take member)).2
  rw [fetchPages,if_neg (by rw [length_nil]; omega)]
  dsimp only [length_nil]
  rw [batch]
  have pushed : pushNew [] (rest.take (provider.rows dataset)) = rest.take (provider.rows dataset) := by
    refine pushNew_distinct ?_
    rw [nil_append]
    exact ((provider.ascending dataset).filter _).times.sublist ((take_sublist _ _).map _)
  cases isLast : (rest.take (provider.rows dataset)).getLast? with
  | none => exact (getLast?_eq_none_iff.mp isLast).symm
  | some last =>
    dsimp only
    have comesShort : decide ((rest.take (provider.rows dataset)).length < min maxPerFetch (limit - 0)) = true := by
      rw [decide_eq_true_iff,length_take]
      omega
    rw [comesShort,Bool.or_true,if_pos rfl,pushed]

/-- Every page of a fetch of so many candles is full, or the range needs no more than one
    that is not. -/
def Complete (provider : Provider Price) (maxPerFetch : Nat) (dataset : Dataset) (first last : Int) (limit : Nat) : Prop :=
  min maxPerFetch (max 1 limit) ≤ provider.rows dataset ∨
    (within (·.timestamp) first last (provider.history dataset)).length ≤ provider.rows dataset

/-- A fetch from the start of a range has all candles of the range. -/
theorem within_fetch {provider : Provider Price} {maxPerFetch : Nat} {dataset : Dataset} {stepMs limit : Nat}
    {first last : Int} (positive : 0 < stepMs) (some : 0 < maxPerFetch) (spaced : Spaced stepMs (provider.history dataset))
    (complete : Complete provider maxPerFetch dataset first last limit)
    (enough : (within (·.timestamp) first last (provider.history dataset)).length ≤ max 1 limit) :
    within (·.timestamp) first last (fetchPublicCandles provider maxPerFetch dataset stepMs first limit) =
      within (·.timestamp) first last (provider.history dataset) := by
  let rest := (provider.history dataset).filter (first ≤ ·.timestamp)
  have ascending : Ascending (·.timestamp) rest := (provider.ascending dataset).filter _
  have later : ∀ candle ∈ rest, first ≤ candle.timestamp := fun candle member => of_decide_eq_true (mem_filter.mp member).2
  have same : within (·.timestamp) first last rest = within (·.timestamp) first last (provider.history dataset) := by
    rw [within,filter_filter,within]
    refine filter_congr ?_
    intro candle _
    rw [Bool.eq_iff_iff]
    simp only [Bool.and_eq_true,decide_eq_true_eq]
    omega
  have taken : ∃ n, (within (·.timestamp) first last rest).length ≤ n ∧
      fetchPublicCandles provider maxPerFetch dataset stepMs first limit = rest.take n := by
    by_cases full : min maxPerFetch (max 1 limit) ≤ provider.rows dataset
    · refine ⟨max 1 limit,by rw [same]; exact enough,?_⟩
      have pages := fetchPages_full positive some spaced full (max 1 limit) first [] rest (by simp) (Nat.zero_le _) rfl
        (by rw [nil_append]; exact ascending.times)
      rwa [nil_append] at pages
    · refine ⟨provider.rows dataset,by rw [same]; exact complete.resolve_left full,?_⟩
      obtain ⟨pages,isLimit⟩ := Nat.exists_eq_succ_of_ne_zero (show max 1 limit ≠ 0 by omega)
      rw [fetchPublicCandles]
      conv_lhs => arg 5; rw [isLimit]
      exact fetchPages_short (Nat.lt_of_not_le full) pages first
  obtain ⟨n,few,isTake⟩ := taken
  rw [isTake,within_take ascending later few,same]

def windowLimit (stepMs : Nat) (first last : Int) : Nat := max 1 ((last - first + stepMs - 1) / stepMs).toNat

theorem spaced_length {stepMs : Nat} {candles : List (Candle Price)} (spaced : Spaced stepMs candles)
    {first last : Int} (near : first < last + stepMs)
    (inside : ∀ candle ∈ candles, first ≤ candle.timestamp ∧ candle.timestamp < last) :
    (candles.length : Int) * stepMs < last - first + stepMs := by
  induction candles generalizing first with
  | nil =>
    simp only [length_nil,Int.natCast_zero,Int.zero_mul]
    omega
  | cons candle rest ih =>
    obtain ⟨after,spaces⟩ := pairwise_cons.mp spaced
    obtain ⟨starts,ends⟩ := inside candle mem_cons_self
    have later := @ih spaces (candle.timestamp + stepMs) (by omega)
      (fun other member => ⟨after other member,(inside other (mem_cons_of_mem _ member)).2⟩)
    rw [length_cons,Int.natCast_succ,Int.add_mul,Int.one_mul]
    omega

theorem within_windowLimit {stepMs : Nat} (positive : 0 < stepMs) {candles : List (Candle Price)} (spaced : Spaced stepMs candles)
    {first last : Int} (some : first < last) :
    (within (·.timestamp) first last candles).length ≤ windowLimit stepMs first last := by
  have few := spaced_length (spaced.filter fun candle => first ≤ candle.timestamp ∧ candle.timestamp < last)
    (show first < last + stepMs by omega) (fun candle member => (mem_within.mp member).2)
  have counted : ((within (·.timestamp) first last candles).length : Int) ≤ (last - first + stepMs - 1) / stepMs := by
    rw [Int.le_ediv_iff_mul_le (by omega)]
    exact Int.le_sub_one_of_lt few
  rw [windowLimit]
  omega

end Codebot.CandleFetches
