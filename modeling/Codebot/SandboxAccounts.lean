import Codebot.PaperSessions
import Mathlib.Algebra.BigOperators.Group.List.Basic
import Mathlib.Algebra.Order.Field.Basic
import Mathlib.Tactic.NormNum
import Mathlib.Tactic.Ring

/-!
The account of a paper session over any number of fills, in exact arithmetic. It holds the quantity of a `Position` at
its average price, and what it realized is the profit of the closed quantities; so cash and position together are
worth what the account started with and gained (`accounts_balance`).
-/
namespace Codebot.SandboxAccounts
open PaperSessions

variable {Amount : Type} [Field Amount] [LinearOrder Amount]
def unrealizedPnl (account : NautilusSandboxAccount Amount) : Amount :=
  if account.netQuantity ≤ 0 then 0 else (account.lastPrice - account.averageEntryPrice) * account.netQuantity
def equity (account : NautilusSandboxAccount Amount) : Amount := account.cashBalance + account.netQuantity * account.lastPrice
def opened (startingBalance : Amount) : NautilusSandboxAccount Amount := ⟨startingBalance,0,0,0,0⟩
/-- The arguments of `apply_fill`. -/
structure Fill (Amount : Type) [Zero Amount] [LT Amount] where
  side : Side
  quantity : Amount
  price : Amount
  quantity_pos : 0 < quantity
  price_pos : 0 < price
def applyFills (account : NautilusSandboxAccount Amount) (fills : List (Fill Amount)) : NautilusSandboxAccount Amount :=
  fills.foldl (fun account fill => account.applyFill fill.side fill.quantity fill.price) account
def marked (account : NautilusSandboxAccount Amount) (price : Amount) : NautilusSandboxAccount Amount :=
  { account with lastPrice := price }
/-- A quantity and what it cost. -/
structure Position (Amount : Type) where
  quantity : Amount
  cost : Amount

namespace Position

def flat : Position Amount := ⟨0,0⟩
def averagePrice (position : Position Amount) : Amount := position.cost / position.quantity
def closed (position : Position Amount) (quantity : Amount) : Amount := min quantity position.quantity
/-- A purchase adds to the cost, and a sale takes the closed quantity out at its average price. -/
def after (position : Position Amount) (fill : Fill Amount) : Position Amount :=
  match fill.side with
  | .buy => ⟨position.quantity + fill.quantity,position.cost + fill.price * fill.quantity⟩
  | .sell =>
    ⟨position.quantity - position.closed fill.quantity,
      position.cost - position.averagePrice * position.closed fill.quantity⟩
def profit (position : Position Amount) (fill : Fill Amount) : Amount :=
  match fill.side with
  | .buy => 0
  | .sell => (fill.price - position.averagePrice) * position.closed fill.quantity
def afterAll (position : Position Amount) (fills : List (Fill Amount)) : Position Amount := fills.foldl after position
def profits (position : Position Amount) : List (Fill Amount) → List Amount
  | [] => []
  | fill :: fills => position.profit fill :: profits (position.after fill) fills
/-- Nothing is held without a cost. -/
structure Sound (position : Position Amount) : Prop where
  quantity_nonneg : 0 ≤ position.quantity
  cost_pos_iff : 0 < position.cost ↔ 0 < position.quantity
  cost_flat : position.quantity = 0 → position.cost = 0
theorem sound_flat : (flat : Position Amount).Sound := ⟨le_refl 0,Iff.rfl,fun _ => rfl⟩

variable {position : Position Amount}
theorem averagePrice_mul (sound : position.Sound) : position.averagePrice * position.quantity = position.cost := by
  by_cases holds : position.quantity = 0
  · rw [holds,sound.cost_flat holds,mul_zero]
  · exact div_mul_cancel₀ position.cost holds
theorem sold_cost (sound : position.Sound) (closing : Amount) :
    position.cost - position.averagePrice * closing = position.averagePrice * (position.quantity - closing) := by
  rw [mul_sub,averagePrice_mul sound]

variable [IsStrictOrderedRing Amount]

theorem averagePrice_pos_iff (sound : position.Sound) : 0 < position.averagePrice ↔ 0 < position.quantity := by
  constructor
  · intro positive
    refine lt_of_le_of_ne sound.quantity_nonneg ?_
    intro flat
    rw [averagePrice,← flat,div_zero] at positive
    exact lt_irrefl 0 positive
  · intro holds
    exact div_pos (sound.cost_pos_iff.mpr holds) holds

theorem averagePrice_eq_zero_iff (sound : position.Sound) : position.averagePrice = 0 ↔ position.quantity = 0 := by
  constructor
  · intro free
    refine le_antisymm (not_lt.mp ?_) sound.quantity_nonneg
    intro holds
    exact ne_of_gt ((averagePrice_pos_iff sound).mpr holds) free
  · intro flat
    rw [averagePrice,flat,div_zero]

theorem sound_at {price quantity : Amount} (nonneg : 0 ≤ quantity) (priced : 0 < quantity → 0 < price) :
    (⟨quantity,price * quantity⟩ : Position Amount).Sound := by
  refine ⟨nonneg,⟨?_,fun held => mul_pos (priced held) held⟩,?_⟩
  · intro cost
    refine lt_of_le_of_ne nonneg ?_
    rintro rfl
    exact lt_irrefl 0 (mul_zero price ▸ cost)
  · rintro rfl
    exact mul_zero price

theorem sound_after (sound : position.Sound) (fill : Fill Amount) : (position.after fill).Sound := by
  unfold after
  cases fill.side with
  | buy =>
    have more : 0 < fill.price * fill.quantity := mul_pos fill.price_pos fill.quantity_pos
    have paid : 0 ≤ position.cost := by
      by_cases holds : 0 < position.quantity
      · exact le_of_lt (sound.cost_pos_iff.mpr holds)
      · exact ge_of_eq (sound.cost_flat (le_antisymm (not_lt.mp holds) sound.quantity_nonneg))
    have held : 0 < position.quantity + fill.quantity := add_pos_of_nonneg_of_pos sound.quantity_nonneg fill.quantity_pos
    have cost : 0 < position.cost + fill.price * fill.quantity := add_pos_of_nonneg_of_pos paid more
    exact ⟨le_of_lt held,⟨fun _ => held,fun _ => cost⟩,fun flat => absurd flat (ne_of_gt held)⟩
  | sell =>
    have left : 0 ≤ position.quantity - position.closed fill.quantity := sub_nonneg.mpr (min_le_right _ _)
    simp only [sold_cost sound]
    refine sound_at left ?_
    intro some
    have fewer : position.quantity - position.closed fill.quantity ≤ position.quantity :=
      sub_le_self _ (le_min (le_of_lt fill.quantity_pos) sound.quantity_nonneg)
    exact (averagePrice_pos_iff sound).mpr (lt_of_lt_of_le some fewer)

theorem sound_afterAll (sound : position.Sound) (fills : List (Fill Amount)) : (position.afterAll fills).Sound := by
  induction fills generalizing position with
  | nil => exact sound
  | cons fill fills ih => exact ih (sound_after sound fill)

end Position

/-- The account holds the position, and its cash is what it started with and gained, less the
    cost of the position. -/
structure Holds (startingBalance : Amount) (account : NautilusSandboxAccount Amount) (position : Position Amount) :
    Prop where
  quantity : account.netQuantity = position.quantity
  average : account.averageEntryPrice = position.averagePrice
  cash : account.cashBalance + position.cost = startingBalance + account.realizedPnl

omit [LinearOrder Amount] in
theorem holds_opened (startingBalance : Amount) : Holds startingBalance (opened startingBalance) .flat := by
  refine ⟨rfl,?_,rfl⟩
  exact (div_zero 0).symm

variable [IsStrictOrderedRing Amount]
variable {account : NautilusSandboxAccount Amount} {position : Position Amount} {startingBalance : Amount}

theorem holds_applyFill
    (sound : position.Sound) (holds : Holds startingBalance account position) (fill : Fill Amount) :
    let next := account.applyFill fill.side fill.quantity fill.price
    Holds startingBalance next (position.after fill) ∧ next.realizedPnl = account.realizedPnl + position.profit fill := by
  obtain ⟨quantity,average,cash⟩ := holds
  unfold NautilusSandboxAccount.applyFill Position.after Position.profit Position.closed
  cases fill.side with
  | buy =>
    have held : position.quantity + fill.quantity ≠ 0 :=
      ne_of_gt (add_pos_of_nonneg_of_pos sound.quantity_nonneg fill.quantity_pos)
    refine ⟨⟨?_,?_,?_⟩,(add_zero _).symm⟩
    · simp only [quantity]
    · simp only [quantity,average,Position.averagePrice_mul sound]
      rw [if_pos held]
      rfl
    · simp only
      rw [← cash]
      ring
  | sell =>
    have left : 0 ≤ position.quantity - min fill.quantity position.quantity := sub_nonneg.mpr (min_le_right _ _)
    simp only [quantity,average,max_eq_right left]
    refine ⟨⟨rfl,?_,?_⟩,trivial⟩
    · rw [Position.sold_cost sound,Position.averagePrice]
      split
      · rename_i flat
        rw [flat]
        exact (div_zero _).symm
      · rename_i some
        exact (mul_div_cancel_right₀ _ some).symm
    · simp only
      rw [show account.cashBalance = startingBalance + account.realizedPnl - position.cost from eq_sub_of_add_eq cash]
      ring

theorem holds_applyFills
    (sound : position.Sound) (holds : Holds startingBalance account position) (fills : List (Fill Amount)) :
    Holds startingBalance (applyFills account fills) (position.afterAll fills) ∧
      (applyFills account fills).realizedPnl = account.realizedPnl + (position.profits fills).sum := by
  induction fills generalizing account position with
  | nil => exact ⟨holds,(add_zero _).symm⟩
  | cons fill fills ih =>
    obtain ⟨held,realized⟩ := holds_applyFill sound holds fill
    obtain ⟨last,total⟩ := ih (Position.sound_after sound fill) held
    refine ⟨last,?_⟩
    calc (applyFills account (fill :: fills)).realizedPnl
        = (account.applyFill fill.side fill.quantity fill.price).realizedPnl + ((position.after fill).profits fills).sum := total
      _ = account.realizedPnl + position.profit fill + ((position.after fill).profits fills).sum := by rw [realized]
      _ = account.realizedPnl + (position.profits (fill :: fills)).sum := by
        rw [Position.profits,List.sum_cons,add_assoc]

/-- What the account says of itself at a price of the market. -/
structure Balanced (startingBalance : Amount) (account : NautilusSandboxAccount Amount) : Prop where
  cash : account.cashBalance + account.averageEntryPrice * account.netQuantity = startingBalance + account.realizedPnl
  equity : equity account = startingBalance + account.realizedPnl + unrealizedPnl account
  long : 0 ≤ account.netQuantity
  flat : account.averageEntryPrice = 0 ↔ account.netQuantity = 0

theorem balanced_of_holds (sound : position.Sound) (holds : Holds startingBalance account position) (price : Amount) :
    Balanced startingBalance (marked account price) := by
  obtain ⟨quantity,average,cash⟩ := holds
  have balance : account.cashBalance + position.averagePrice * position.quantity = startingBalance + account.realizedPnl := by
    rw [Position.averagePrice_mul sound,cash]
  refine ⟨?_,?_,?_,?_⟩
  · simp only [marked,quantity,average]
    exact balance
  · simp only [SandboxAccounts.equity,unrealizedPnl,marked,quantity,average]
    rw [← balance]
    split
    · rename_i notLong
      rw [le_antisymm notLong sound.quantity_nonneg]
      ring
    · ring
  · simp only [marked,quantity]
    exact sound.quantity_nonneg
  · simp only [marked,quantity,average]
    exact Position.averagePrice_eq_zero_iff sound

/-- After any fills and at any price the account balances, its average is that of the position
    held, and it realized the profits of the closed quantities. -/
theorem accounts_balance (startingBalance : Amount) (fills : List (Fill Amount)) (price : Amount) :
    let account := applyFills (opened startingBalance) fills
    Balanced startingBalance (marked account price) ∧
      account.netQuantity = (Position.flat.afterAll fills).quantity ∧
      account.averageEntryPrice = (Position.flat.afterAll fills).averagePrice ∧
      account.realizedPnl = (Position.flat.profits fills).sum := by
  intro account
  obtain ⟨holds,realized⟩ := holds_applyFills Position.sound_flat (holds_opened startingBalance) fills
  have sound := Position.sound_afterAll Position.sound_flat fills
  refine ⟨balanced_of_holds sound holds price,holds.quantity,holds.average,?_⟩
  rw [realized]
  exact zero_add _

def oversold : List (Fill ℚ) :=
  [⟨.buy,2,10,by norm_num,by norm_num⟩,⟨.buy,2,14,by norm_num,by norm_num⟩,⟨.sell,5,15,by norm_num,by norm_num⟩]
theorem oversold_balances : Balanced 100 (marked (applyFills (opened 100) oversold) 20) ∧
    (applyFills (opened 100) oversold).realizedPnl = 12 := by
  obtain ⟨balanced,_,_,realized⟩ := accounts_balance (100 : ℚ) oversold 20
  refine ⟨balanced,?_⟩
  rw [realized]
  norm_num [oversold,Position.profits,Position.profit,Position.after,Position.closed,Position.averagePrice,Position.flat]

end Codebot.SandboxAccounts
