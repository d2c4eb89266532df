import Mathlib.Data.Option.Basic

/-!
A store of counters that may have a time to live. Counting at a key that is absent makes a
counter without one; it is given by a command of its own. A counter that has not been given
one is there for ever (`live_lasting`).
-/
namespace Codebot.ExpiringCounters
universe u
variable {Key : Type u}

/-- How often was counted, and the moment from which the counter is no longer there. -/
structure Counter where
  count : Nat
  deadline : Option Nat
deriving DecidableEq
abbrev Store (Key : Type u) := Key → Option Counter
def Counter.alive (now : Nat) (counter : Counter) : Bool :=
  match counter.deadline with
  | none => true
  | some deadline => now < deadline
def live (now : Nat) (store : Store Key) (key : Key) : Option Counter :=
  (store key).filter (Counter.alive now)
def incremented (now : Nat) (store : Store Key) (key : Key) : Counter :=
  match live now store key with
  | none => ⟨1,none⟩
  | some counter => { counter with count := counter.count + 1 }

section
variable [DecidableEq Key]

/-- `INCR`, with its answer. -/
def incr (now : Nat) (store : Store Key) (key : Key) : Nat × Store Key :=
  ((incremented now store key).count,Function.update store key (some (incremented now store key)))
def expire (now : Nat) (store : Store Key) (key : Key) (seconds : Nat) : Store Key :=
  match live now store key with
  | none => store
  | some counter => Function.update store key (some { counter with deadline := some (now + seconds) })
end

variable {now seconds : Nat} {store : Store Key} {key other : Key} {counter : Counter}
theorem live_some : live now store key = some counter ↔ store key = some counter ∧ counter.alive now = true := by
  rw [live,Option.filter_eq_some_iff]
theorem live_lasting (stored : store key = some counter) (lasting : counter.deadline = none) :
    live now store key = some counter := by
  refine live_some.mpr ⟨stored,?_⟩
  rw [Counter.alive,lasting]
theorem incremented_absent (absent : live now store key = none) : incremented now store key = ⟨1,none⟩ := by
  rw [incremented,absent]
theorem incremented_live (here : live now store key = some counter) :
    incremented now store key = { counter with count := counter.count + 1 } := by
  rw [incremented,here]

variable [DecidableEq Key]
@[simp] theorem incr_self : (incr now store key).2 key = some (incremented now store key) := Function.update_self ..
theorem incr_other (differs : other ≠ key) : (incr now store key).2 other = store other := Function.update_of_ne differs ..
theorem expire_live (here : live now store key = some counter) :
    expire now store key seconds = Function.update store key (some { counter with deadline := some (now + seconds) }) := by
  rw [expire,here]
theorem expire_absent (absent : live now store key = none) : expire now store key seconds = store := by
  rw [expire,absent]
theorem expire_other (differs : other ≠ key) : expire now store key seconds other = store other := by
  cases here : live now store key with
  | none => rw [expire_absent here]
  | some counter =>
    rw [expire_live here]
    exact Function.update_of_ne differs ..

theorem expire_count : (expire now store key seconds other).map Counter.count = (store other).map Counter.count := by
  by_cases same : other = key
  · subst same
    cases here : live now store other with
    | none => rw [expire_absent here]
    | some counter =>
      rw [expire_live here,Function.update_self,(live_some.mp here).1]
      rfl
  · rw [expire_other same]

end Codebot.ExpiringCounters
