import Codebot.TradeMetrics
import Codebot.Series

/-!
The trades of a backtest that the worker stores under a label: the 25 of lowest pnl as losers, the
25 of highest pnl as winners and the first 50 as samples. Where a trade is of two kinds it is a
winner, so that up to 25 trades have no loser among them (`labels_right_iff`).
-/
namespace Codebot.IndexedTrades
open TradeMetrics Series List

inductive Bucket
  | topLoser
  | topWinner
  | sample
deriving DecidableEq
/-- An entry of the map of the selected trades. -/
structure Selected where
  index : Nat
  bucket : Bucket
  trade : NormalizedTrade
deriving DecidableEq
def pnl (trade : NormalizedTrade) : ℚ := trade.pnlCost.getD 0
def ranked (trades : List NormalizedTrade) : List (NormalizedTrade × Nat) :=
  trades.zipIdx.insertionSort fun a b => pnl a.1 ≤ pnl b.1
def labelled (bucket : Bucket) (item : NormalizedTrade × Nat) : Selected := ⟨item.2,bucket,item.1⟩
def losers (trades : List NormalizedTrade) : List Selected := ((ranked trades).take 25).map (labelled .topLoser)
def winners (trades : List NormalizedTrade) : List Selected := ((ranked trades).rtake 25).reverse.map (labelled .topWinner)
def putFresh (selected : List Selected) (item : Selected) : List Selected :=
  if item.index ∈ selected.map (·.index) then selected else put (·.index) selected item
def ranks (trades : List NormalizedTrade) : List Selected :=
  (winners trades).foldl (put (·.index)) ((losers trades).foldl (put (·.index)) [])
def selectedTrades (trades : List NormalizedTrade) : List Selected :=
  ordered (·.index) (((trades.take 50).zipIdx.map (labelled .sample)).foldl putFresh (ranks trades))
def indexedTrades (trades : List NormalizedTrade) : List (Bucket × NormalizedTrade) :=
  (selectedTrades trades).map fun item => (item.bucket,item.trade)

/-- Every index is selected once, with its own trade, and the labels of the lowest and of the
    highest pnl are right where the two differ. -/
structure LabelsRight (trades : List NormalizedTrade) : Prop where
  once : ((selectedTrades trades).map (·.index)).Nodup
  own : ∀ item ∈ selectedTrades trades, trades[item.index]? = some item.trade
  lowest : (∃ one ∈ trades, ∃ other ∈ trades, pnl one ≠ pnl other) →
    ∃ item ∈ indexedTrades trades, item.1 = .topLoser ∧ ∀ other ∈ trades, pnl item.2 ≤ pnl other
  highest : (∃ one ∈ trades, ∃ other ∈ trades, pnl one ≠ pnl other) →
    ∃ item ∈ indexedTrades trades, item.1 = .topWinner ∧ ∀ other ∈ trades, pnl other ≤ pnl item.2

variable {trades : List NormalizedTrade}
theorem mem_ranked {item : NormalizedTrade × Nat} : item ∈ ranked trades ↔ trades[item.2]? = some item.1 := by
  rw [ranked,mem_insertionSort,mem_zipIdx_iff_getElem?]
theorem length_ranked (trades : List NormalizedTrade) : (ranked trades).length = trades.length := by
  rw [ranked,length_insertionSort,length_zipIdx]
theorem ranked_indices (trades : List NormalizedTrade) : ((ranked trades).map (·.2)).Nodup := by
  have perm := (perm_insertionSort (fun a b : NormalizedTrade × Nat => pnl a.1 ≤ pnl b.1) trades.zipIdx).map (·.2)
  apply perm.nodup_iff.mpr
  rw [show trades.zipIdx.map (·.2) = List.range' 0 trades.length from zipIdx_map_snd 0 trades]
  exact nodup_range'
theorem ranked_pairwise (trades : List NormalizedTrade) : (ranked trades).Pairwise fun a b => pnl a.1 ≤ pnl b.1 := by
  have total : Std.Total fun a b : NormalizedTrade × Nat => pnl a.1 ≤ pnl b.1 := ⟨fun a b => le_total _ _⟩
  have transitive : IsTrans (NormalizedTrade × Nat) fun a b => pnl a.1 ≤ pnl b.1 := ⟨fun _ _ _ => le_trans⟩
  exact pairwise_insertionSort _ _
theorem ranked_trades {trade : NormalizedTrade} (listed : trade ∈ trades) :
    ∃ item ∈ ranked trades, item.1 = trade := by
  obtain ⟨index,found⟩ := getElem?_of_mem listed
  exact ⟨(trade,index),mem_ranked.mpr found,rfl⟩
theorem indices_labelled (bucket : Bucket) (items : List (NormalizedTrade × Nat)) :
    (items.map (labelled bucket)).map (·.index) = items.map (·.2) := by
  simp [labelled]
theorem losers_indices (trades : List NormalizedTrade) : ((losers trades).map (·.index)).Nodup := by
  rw [losers,indices_labelled]
  exact (ranked_indices trades).sublist ((take_sublist _ _).map _)
theorem winners_indices (trades : List NormalizedTrade) : ((winners trades).map (·.index)).Nodup := by
  rw [winners,indices_labelled,map_reverse,nodup_reverse]
  exact (ranked_indices trades).sublist ((drop_sublist _ _).map _)

variable {item : Selected}
theorem mem_ranks :
    item ∈ ranks trades ↔ item ∈ winners trades ∨ item ∈ losers trades ∧ item.index ∉ (winners trades).map (·.index) := by
  rw [ranks,mem_foldl_put_distinct (winners_indices trades),mem_foldl_put_distinct (losers_indices trades)]
  simp

variable {selected : List Selected}

theorem mem_putFresh {other : Selected} :
    other ∈ putFresh selected item ↔ other ∈ selected ∨ other = item ∧ item.index ∉ selected.map (·.index) := by
  rw [putFresh]
  split
  · rename_i known
    exact ⟨.inl,fun either => either.resolve_right fun isNew => isNew.2 known⟩
  · rename_i fresh
    rw [put_fresh fresh,mem_append,mem_singleton,and_iff_left fresh]

theorem putFresh_indices (once : (selected.map (·.index)).Nodup) (item : Selected) :
    ((putFresh selected item).map (·.index)).Nodup := by
  rw [putFresh]
  split
  · exact once
  · exact nodup_put once item

theorem sampled_members {samples selected : List Selected} (once : (selected.map (·.index)).Nodup) :
    (∀ item ∈ selected, item ∈ samples.foldl putFresh selected) ∧
      (∀ item ∈ samples.foldl putFresh selected, item ∈ selected ∨ item ∈ samples) ∧
      ((samples.foldl putFresh selected).map (·.index)).Nodup := by
  induction samples generalizing selected with
  | nil => exact ⟨fun _ => id,fun _ => .inl,once⟩
  | cons first rest ih =>
    obtain ⟨kept,among,distinct⟩ := ih (putFresh_indices once first)
    refine ⟨fun item listed => kept item (mem_putFresh.mpr (.inl listed)),?_,distinct⟩
    intro item listed
    rcases among item listed with before | later
    · rcases mem_putFresh.mp before with isOld | ⟨isFirst,_⟩
      · exact .inl isOld
      · exact .inr (isFirst ▸ mem_cons_self)
    · exact .inr (mem_cons_of_mem _ later)

theorem ranks_indices (trades : List NormalizedTrade) : ((ranks trades).map (·.index)).Nodup :=
  nodup_foldl_put (nodup_foldl_put (by simp) _) _
theorem ranked_selected (listed : item ∈ ranks trades) : item ∈ selectedTrades trades := by
  rw [selectedTrades,mem_ordered]
  exact (sampled_members (ranks_indices trades)).1 item listed

theorem selected_cases (listed : item ∈ selectedTrades trades) :
    item ∈ ranks trades ∨ item.bucket = .sample ∧ trades[item.index]? = some item.trade := by
  rw [selectedTrades,mem_ordered] at listed
  rcases (sampled_members (ranks_indices trades)).2.1 item listed with isRank | isSample
  · exact .inl isRank
  · obtain ⟨sample,isTaken,rfl⟩ := mem_map.mp isSample
    refine .inr ⟨rfl,?_⟩
    have found := mem_zipIdx_iff_getElem?.mp isTaken
    rw [getElem?_take] at found
    split at found
    · exact found
    · cases found

theorem selected_indices (trades : List NormalizedTrade) : ((selectedTrades trades).map (·.index)).Nodup := by
  have once := (@sampled_members ((trades.take 50).zipIdx.map (labelled .sample)) _ (ranks_indices trades)).2.2
  exact ((perm_insertionSort _ _).map _).nodup_iff.mpr once
theorem rank_own (listed : item ∈ ranks trades) : trades[item.index]? = some item.trade := by
  rcases mem_ranks.mp listed with isWinner | ⟨isLoser,_⟩
  · obtain ⟨ranked,isRanked,rfl⟩ := mem_map.mp isWinner
    exact mem_ranked.mp (mem_of_mem_drop (mem_reverse.mp isRanked))
  · obtain ⟨ranked,isRanked,rfl⟩ := mem_map.mp isLoser
    exact mem_ranked.mp (mem_of_mem_take isRanked)
theorem selected_own (listed : item ∈ selectedTrades trades) : trades[item.index]? = some item.trade := by
  rcases selected_cases listed with isRank | ⟨_,found⟩
  · exact rank_own isRank
  · exact found
theorem all_winners (few : trades.length ≤ 25) {item : NormalizedTrade × Nat}
    (listed : item ∈ ranked trades) : labelled .topWinner item ∈ winners trades := by
  have whole : (ranked trades).rtake 25 = ranked trades := by
    rw [List.rtake,length_ranked,Nat.sub_eq_zero_of_le few,drop_zero]
  rw [winners,whole]
  exact mem_map_of_mem (mem_reverse.mpr listed)

theorem no_loser (few : trades.length ≤ 25) (listed : item ∈ selectedTrades trades) : item.bucket ≠ .topLoser := by
  intro isLoser
  rcases selected_cases listed with isRank | ⟨isSample,_⟩
  · rcases mem_ranks.mp isRank with isWinner | ⟨isLabelled,none⟩
    · obtain ⟨ranked,_,rfl⟩ := mem_map.mp isWinner
      cases isLoser
    · obtain ⟨lost,isLost,rfl⟩ := mem_map.mp isLabelled
      exact none (mem_map.mpr ⟨_,all_winners few (mem_of_mem_take isLost),rfl⟩)
  · rw [isSample] at isLoser
    cases isLoser

theorem lowest_labelled (many : 25 < trades.length) :
    ∃ item ∈ indexedTrades trades, item.1 = .topLoser ∧ ∀ other ∈ trades, pnl item.2 ≤ pnl other := by
  have pairwise := ranked_pairwise trades
  have distinct := ranked_indices trades
  have enough := length_ranked trades
  cases ranks : ranked trades with
  | nil =>
    rw [ranks,length_nil] at enough
    omega
  | cons first rest =>
    rw [ranks] at pairwise distinct enough
    have isLoser : labelled .topLoser first ∈ losers trades := by
      rw [losers,ranks]
      exact mem_map_of_mem mem_cons_self
    have noWinner : first.2 ∉ (winners trades).map (·.index) := by
      rw [winners,indices_labelled,map_reverse,mem_reverse,ranks,List.rtake,enough]
      obtain ⟨before,isBefore⟩ : ∃ before, trades.length - 25 = before + 1 := ⟨trades.length - 26,by omega⟩
      rw [isBefore,drop_succ_cons]
      intro later
      obtain ⟨item,isItem,same⟩ := mem_map.mp later
      exact (nodup_cons.mp distinct).1 (mem_map.mpr ⟨item,mem_of_mem_drop isItem,same⟩)
    refine ⟨(.topLoser,first.1),?_,rfl,?_⟩
    · exact mem_map.mpr ⟨_,ranked_selected (mem_ranks.mpr (.inr ⟨isLoser,noWinner⟩)),rfl⟩
    · intro other listed
      obtain ⟨item,isItem,rfl⟩ := ranked_trades listed
      rw [ranks] at isItem
      rcases mem_cons.mp isItem with rfl | later
      · exact le_refl _
      · exact (pairwise_cons.mp pairwise).1 item later

theorem highest_labelled (some : trades ≠ []) :
    ∃ item ∈ indexedTrades trades, item.1 = .topWinner ∧ ∀ other ∈ trades, pnl other ≤ pnl item.2 := by
  have pairwise := pairwise_reverse.mpr (ranked_pairwise trades)
  cases ranks : (ranked trades).reverse with
  | nil =>
    have none : trades.length = 0 := by rw [← length_ranked,← length_reverse,ranks,length_nil]
    exact absurd (eq_nil_of_length_eq_zero none) some
  | cons last before =>
    rw [ranks] at pairwise
    have isWinner : labelled .topWinner last ∈ winners trades := by
      rw [winners,rtake_eq_reverse_take_reverse,reverse_reverse,ranks]
      exact mem_map_of_mem mem_cons_self
    refine ⟨(.topWinner,last.1),?_,rfl,?_⟩
    · exact mem_map.mpr ⟨_,ranked_selected (mem_ranks.mpr (.inl isWinner)),rfl⟩
    · intro other listed
      obtain ⟨item,isItem,rfl⟩ := ranked_trades listed
      rw [← mem_reverse,ranks] at isItem
      rcases mem_cons.mp isItem with rfl | later
      · exact le_refl _
      · exact (pairwise_cons.mp pairwise).1 item later

/-- The labels are right exactly of more than 25 trades, or where no two trades differ in pnl. -/
theorem labels_right_iff (trades : List NormalizedTrade) : LabelsRight trades ↔
    25 < trades.length ∨ ∀ one ∈ trades, ∀ other ∈ trades, pnl one = pnl other := by
  constructor
  · intro right
    by_contra neither
    obtain ⟨few,differ⟩ := not_or.mp neither
    push Not at few differ
    obtain ⟨item,listed,isLoser,_⟩ := right.lowest differ
    obtain ⟨selected,isSelected,rfl⟩ := mem_map.mp listed
    exact no_loser few isSelected isLoser
  · intro condition
    have many : (∃ one ∈ trades, ∃ other ∈ trades, pnl one ≠ pnl other) → 25 < trades.length := by
      rintro ⟨one,isOne,other,isOther,differ⟩
      exact condition.resolve_right fun same => differ (same one isOne other isOther)
    refine ⟨selected_indices trades,fun item => selected_own,?_,?_⟩
    · intro differ
      exact lowest_labelled (many differ)
    · rintro ⟨one,isOne,_⟩
      exact highest_labelled (ne_nil_of_mem isOne)

/-- Two trades, of which the one that loses is stored as a winner. -/
theorem two_winners : ¬LabelsRight [⟨some (-5),none,none,none⟩,⟨some 7,none,none,none⟩] ∧
    indexedTrades [⟨some (-5),none,none,none⟩,⟨some 7,none,none,none⟩] =
      [(.topWinner,⟨some (-5),none,none,none⟩),(.topWinner,⟨some 7,none,none,none⟩)] := by
  have stored : indexedTrades [⟨some (-5),none,none,none⟩,⟨some 7,none,none,none⟩] =
      [(.topWinner,⟨some (-5),none,none,none⟩),(.topWinner,⟨some 7,none,none,none⟩)] := by decide +kernel
  refine ⟨?_,stored⟩
  intro right
  obtain ⟨item,listed,isLoser,_⟩ := right.lowest
    ⟨_,mem_cons_self,_,mem_cons_of_mem _ mem_cons_self,by decide +kernel⟩
  rw [stored] at listed
  simp only [mem_cons,not_mem_nil,or_false] at listed
  rcases listed with rfl | rfl
  · cases isLoser
  · cases isLoser
end Codebot.IndexedTrades
