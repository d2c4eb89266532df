import Mathlib.Data.List.Lex
import Codebot.TradeMetrics
import Codebot.Series

/-!
The results of the months of a backtest. A month is given what its last point has more than its
first, so that no month is given what changes from the last point of one to the first of the next.
The months of an ordered curve add up to its whole change less that (`months_add_up`).
-/
namespace Codebot.MonthlyReturns
open TradeMetrics Series Texts List

/-- An entry of the map of the months. -/
structure MonthPoints where
  month : Text
  first : EquityPoint
  last : EquityPoint
deriving DecidableEq
structure MonthlyReturn where
  month : Text
  pnlCost : ℚ
  returnPct : ℚ
deriving DecidableEq
def monthOf (point : EquityPoint) : Option Text :=
  match point.timestamp with
  | none | some [] => none
  | some timestamp => some (timestamp.take 7)
/-- The months after a point of a month. -/
def putPoint (byMonth : List MonthPoints) (month : Text) (point : EquityPoint) : List MonthPoints :=
  let existing := byMonth.find? fun points => points.month = month
  put (·.month) byMonth ⟨month,(existing.map (·.first)).getD point,point⟩
def addPoint (byMonth : List MonthPoints) (point : EquityPoint) : List MonthPoints :=
  match monthOf point with
  | none => byMonth
  | some month => putPoint byMonth month point
def monthlyReturn (engine : Engine) (value : MonthPoints) : MonthlyReturn where
  month := value.month
  pnlCost := engine.roundMetric (value.last.equity - value.first.equity)
  returnPct := if value.first.equity = 0 then 0
    else engine.roundMetric ((value.last.equity - value.first.equity) / value.first.equity * 100)
def monthlyReturns (engine : Engine) (points : List EquityPoint) : List MonthlyReturn :=
  (points.foldl addPoint []).map (monthlyReturn engine)
def dated (points : List EquityPoint) : List (Text × EquityPoint) :=
  points.filterMap fun point => (monthOf point).map fun month => (month,point)
def Ordered (points : List EquityPoint) : Prop := (points.filterMap (·.timestamp)).Pairwise (· ≤ ·)
instance (points : List EquityPoint) : Decidable (Ordered points) :=
  inferInstanceAs (Decidable ((points.filterMap (·.timestamp)).Pairwise (· ≤ ·)))
/-- What the equity changes from the last point of a month to the first of the next. -/
def betweenMonths : Text × EquityPoint → List (Text × EquityPoint) → ℚ
  | _, [] => 0
  | before, after :: rest =>
    (if before.1 = after.1 then 0 else after.2.equity - before.2.equity) + betweenMonths after rest
/-- That, with the changes before the first point of a month and after the last. -/
def uncounted (first last : EquityPoint) (points : List EquityPoint) : ℚ :=
  match dated points with
  | [] => last.equity - first.equity
  | opening :: rest =>
    (opening.2.equity - first.equity) + betweenMonths opening rest +
      (last.equity - ((opening :: rest).getLast (List.cons_ne_nil _ _)).2.equity)

theorem take_mono {one other : Text} (before : one ≤ other) (count : Nat) : one.take count ≤ other.take count := by
  rcases lt_or_eq_of_le before with lower | same
  · have lexicographic : List.Lex (· < ·) one other := lower
    clear before lower
    induction lexicographic generalizing count with
    | nil =>
      cases count with
      | zero => exact le_refl _
      | succ count => exact le_of_lt List.Lex.nil
    | @cons c rest later _ ih =>
      cases count with
      | zero => exact le_refl _
      | succ count => exact cons_le_cons c (ih count)
    | @rel c rest d later below =>
      cases count with
      | zero => exact le_refl _
      | succ count => exact le_of_lt (List.Lex.rel below)
  · rw [same]

theorem dated_cons (point : EquityPoint) (points : List EquityPoint) :
    dated (point :: points) = ((monthOf point).map fun month => (month,point)).toList ++ dated points := by
  rw [dated,filterMap_cons]
  cases monthOf point <;> rfl

theorem monthOf_some {point : EquityPoint} {month : Text} (found : monthOf point = some month) :
    ∃ timestamp, point.timestamp = some timestamp ∧ month = timestamp.take 7 := by
  unfold monthOf at found
  split at found
  · cases found
  · cases found
  · rename_i timestamp _ isTime
    exact ⟨timestamp,isTime,(Option.some.inj found).symm⟩

theorem months_ascend {points : List EquityPoint} (ordered : Ordered points) :
    (dated points).Pairwise fun one other => one.1 ≤ other.1 := by
  induction points with
  | nil => exact List.Pairwise.nil
  | cons point points ih =>
    have later : Ordered points := List.Pairwise.sublist ((sublist_cons_self _ _).filterMap _) ordered
    rw [dated_cons]
    cases found : monthOf point with
    | none => exact ih later
    | some month =>
      obtain ⟨timestamp,isTime,rfl⟩ := monthOf_some found
      refine pairwise_cons.mpr ⟨?_,ih later⟩
      intro other isOther
      obtain ⟨next,isNext,isDated⟩ := mem_filterMap.mp isOther
      obtain ⟨month,isMonth,rfl⟩ := Option.map_eq_some_iff.mp isDated
      obtain ⟨after,isAfter,rfl⟩ := monthOf_some isMonth
      rw [Ordered,filterMap_cons,isTime] at ordered
      exact take_mono ((pairwise_cons.mp ordered).1 after (mem_filterMap.mpr ⟨next,isNext,isAfter⟩)) 7

def total (byMonth : List MonthPoints) : ℚ := (byMonth.map fun value => value.last.equity - value.first.equity).sum
theorem total_append (byMonth : List MonthPoints) (value : MonthPoints) :
    total (byMonth ++ [value]) = total byMonth + (value.last.equity - value.first.equity) := by
  rw [total,map_append,sum_append,map_singleton,sum_singleton]
  rfl
theorem foldl_dated (points : List EquityPoint) (byMonth : List MonthPoints) :
    points.foldl addPoint byMonth = (dated points).foldl (fun byMonth point => putPoint byMonth point.1 point.2) byMonth := by
  induction points generalizing byMonth with
  | nil => rfl
  | cons point points ih =>
    rw [foldl_cons,ih,dated_cons,addPoint]
    cases monthOf point <;> rfl

theorem putPoint_same {before : List MonthPoints} {current : MonthPoints} (point : EquityPoint)
    (earlier : ∀ value ∈ before, value.month < current.month) :
    putPoint (before ++ [current]) current.month point = before ++ [{ current with last := point }] := by
  have others : ∀ value ∈ before, value.month ≠ current.month := fun value listed => (earlier value listed).ne
  have found : (before ++ [current]).find? (fun points => points.month = current.month) = some current := by
    rw [find?_append,find?_eq_none.mpr (by simpa using others)]
    simp
  rw [putPoint,found,put_known (by simp),map_append]
  refine congrArg₂ _ ?_ (by simp)
  exact (map_congr_left fun value listed => if_neg (others value listed)).trans (map_id' _)

theorem putPoint_later {byMonth : List MonthPoints} {month : Text} (point : EquityPoint)
    (earlier : ∀ value ∈ byMonth, value.month < month) :
    putPoint byMonth month point = byMonth ++ [⟨month,point,point⟩] := by
  have others : ∀ value ∈ byMonth, value.month ≠ month := fun value listed => (earlier value listed).ne
  have fresh : month ∉ byMonth.map (·.month) := by
    rintro known
    obtain ⟨value,listed,same⟩ := mem_map.mp known
    exact others value listed same
  have none : byMonth.find? (fun points => points.month = month) = none := find?_eq_none.mpr (by simpa using others)
  rw [putPoint,none,put_fresh fresh]
  rfl

theorem total_from {points : List (Text × EquityPoint)} {before : List MonthPoints} {current : MonthPoints}
    (earlier : ∀ value ∈ before, value.month < current.month)
    (ascend : ((current.month,current.last) :: points).Pairwise fun one other => one.1 ≤ other.1) :
    total (points.foldl (fun byMonth point => putPoint byMonth point.1 point.2) (before ++ [current])) +
        betweenMonths (current.month,current.last) points =
      total (before ++ [current]) +
        ((((current.month,current.last) :: points).getLast (List.cons_ne_nil _ _)).2.equity - current.last.equity) := by
  induction points generalizing before current with
  | nil => simp [betweenMonths]
  | cons point points ih =>
    obtain ⟨month,point⟩ := point
    obtain ⟨later,rest⟩ := pairwise_cons.mp ascend
    have next := later (month,point) mem_cons_self
    rw [foldl_cons,betweenMonths,getLast_cons_cons]
    by_cases same : current.month = month
    · subst same
      have step := @ih before { current with last := point } earlier rest
      rw [putPoint_same point earlier,if_pos rfl]
      rw [total_append] at step ⊢
      linarith
    · have below : current.month < month := lt_of_le_of_ne next same
      have opened : ∀ value ∈ before ++ [current], value.month < month := by
        intro value listed
        rcases mem_append.mp listed with isBefore | isCurrent
        · exact (earlier value isBefore).trans below
        · rw [mem_singleton.mp isCurrent]
          exact below
      have step := @ih (before ++ [current]) ⟨month,point,point⟩ opened rest
      rw [putPoint_later point opened,if_neg same]
      rw [total_append (before ++ [current])] at step
      linarith

theorem total_monthlyReturns (engine : Engine) (points : List EquityPoint) :
    ((monthlyReturns (exactly engine) points).map (·.pnlCost)).sum = total (points.foldl addPoint []) := by
  rw [monthlyReturns,map_map]
  rfl

theorem months_total (engine : Engine) {first : EquityPoint} {rest : List EquityPoint} (ordered : Ordered (first :: rest)) :
    ((monthlyReturns (exactly engine) (first :: rest)).map (·.pnlCost)).sum +
        uncounted first ((first :: rest).getLast (List.cons_ne_nil _ _)) (first :: rest) =
      ((first :: rest).getLast (List.cons_ne_nil _ _)).equity - first.equity := by
  have ascend := months_ascend ordered
  rw [total_monthlyReturns,foldl_dated,uncounted]
  cases isDated : dated (first :: rest) with
  | nil => simp [total]
  | cons opening later =>
    rw [isDated] at ascend
    have opened : putPoint [] opening.1 opening.2 = [] ++ [⟨opening.1,opening.2,opening.2⟩] :=
      putPoint_later opening.2 (by simp)
    have run := @total_from _ [] ⟨opening.1,opening.2,opening.2⟩ (by simp) ascend
    rw [foldl_cons,opened]
    rw [total_append] at run
    have none : total [] = 0 := rfl
    simp only at run ⊢
    linarith

/-- The months add up to the change of the whole curve exactly if what no month is given is 0. -/
theorem months_add_up (engine : Engine) (first : EquityPoint) (rest : List EquityPoint) (ordered : Ordered (first :: rest)) :
    ((monthlyReturns (exactly engine) (first :: rest)).map (·.pnlCost)).sum =
        ((first :: rest).getLast (List.cons_ne_nil _ _)).equity - first.equity ↔
      uncounted first ((first :: rest).getLast (List.cons_ne_nil _ _)) (first :: rest) = 0 := by
  have whole := months_total engine ordered
  constructor
  · intro same
    linarith
  · intro none
    linarith

/-- A curve that rises by 20 from January to February. -/
def overNewMonth : EquityPoint × List EquityPoint :=
  (⟨0,some (text "2026-01-05"),100,0,0⟩,
    [⟨1,some (text "2026-01-31"),110,10,0⟩,⟨2,some (text "2026-02-02"),130,20,0⟩,⟨3,some (text "2026-02-27"),125,-5,0⟩])

theorem overNewMonth_lost : Ordered (overNewMonth.1 :: overNewMonth.2) ∧
    ((monthlyReturns (exactly fourPlacesEngine) (overNewMonth.1 :: overNewMonth.2)).map (·.pnlCost)).sum = 5 ∧
    ((overNewMonth.1 :: overNewMonth.2).getLast (List.cons_ne_nil _ _)).equity - overNewMonth.1.equity = 25 ∧
    ((monthlyReturns (exactly fourPlacesEngine) (overNewMonth.1 :: overNewMonth.2)).map (·.pnlCost)).sum ≠
      ((overNewMonth.1 :: overNewMonth.2).getLast (List.cons_ne_nil _ _)).equity - overNewMonth.1.equity := by
  have sum : ((monthlyReturns (exactly fourPlacesEngine) (overNewMonth.1 :: overNewMonth.2)).map (·.pnlCost)).sum = 5 := by
    decide +kernel
  have change : ((overNewMonth.1 :: overNewMonth.2).getLast (cons_ne_nil _ _)).equity - overNewMonth.1.equity = 25 := by
    decide +kernel
  refine ⟨by decide +kernel,sum,change,?_⟩
  rw [sum,change]
  decide

/-- Within January, nothing is lost. -/
theorem january_adds_up :
    ((monthlyReturns (exactly fourPlacesEngine) [overNewMonth.1,⟨1,some (text "2026-01-31"),110,10,0⟩]).map (·.pnlCost)).sum =
      ([overNewMonth.1,⟨1,some (text "2026-01-31"),110,10,0⟩].getLast (List.cons_ne_nil _ _)).equity - overNewMonth.1.equity :=
  (months_add_up fourPlacesEngine overNewMonth.1 [⟨1,some (text "2026-01-31"),110,10,0⟩] (by decide +kernel)).mpr
    (by decide +kernel)
end Codebot.MonthlyReturns
