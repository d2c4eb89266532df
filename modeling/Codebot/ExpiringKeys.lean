import Mathlib.Data.Option.Basic

/-!
A store of keys that have a time to live. A key that has run out is as absent for every
command, though nobody has removed it. The commands are those with which leases are taken:
reading a key, setting one that is absent and giving one that is present another time to live.
-/
namespace Codebot.ExpiringKeys
universe u v
variable {Key : Type u} {Value : Type v}

/-- A value, and the last moment at which it is there. -/
structure Entry (Value : Type v) where
  value : Value
  deadline : Nat
deriving DecidableEq
abbrev Store (Key : Type u) (Value : Type v) := Key → Option (Entry Value)
def live (now : Nat) (store : Store Key Value) (key : Key) : Option (Entry Value) :=
  (store key).filter fun entry => now ≤ entry.deadline
def get (now : Nat) (store : Store Key Value) (key : Key) : Option Value :=
  (live now store key).map Entry.value

section
variable [DecidableEq Key]

/-- `SET` with `NX` and a time to live, which answers with nothing where the key is present. -/
def setNx (now : Nat) (store : Store Key Value) (key : Key) (value : Value) (duration : Nat) : Option (Store Key Value) :=
  if (live now store key).isNone then some (Function.update store key (some ⟨value,now + duration⟩)) else none
/-- `EXPIRE`, which answers with nothing where the key is absent. -/
def expire (now : Nat) (store : Store Key Value) (key : Key) (duration : Nat) : Option (Store Key Value) :=
  (live now store key).map fun entry => Function.update store key (some { entry with deadline := now + duration })
end

variable {now duration : Nat} {store after : Store Key Value} {key other : Key} {value : Value} {entry : Entry Value}
theorem live_some : live now store key = some entry ↔ store key = some entry ∧ now ≤ entry.deadline := by
  simp [live,Option.filter_eq_some_iff]

section
variable [DecidableEq Key]

theorem live_update (kept : now ≤ entry.deadline) :
    live now (Function.update store key (some entry)) other = if other = key then some entry else live now store other := by
  by_cases same : other = key
  · rw [if_pos same,same]
    exact live_some.mpr ⟨Function.update_self _ _ _,kept⟩
  · rw [if_neg same,live,live,Function.update_of_ne same]
theorem setNx_some : setNx now store key value duration = some after ↔
    live now store key = none ∧ after = Function.update store key (some ⟨value,now + duration⟩) := by
  unfold setNx
  cases live now store key with
  | none => simp [eq_comm]
  | some entry => simp
theorem live_setNx (set_ : setNx now store key value duration = some after) :
    live now store key = none ∧
      ∀ other, live now after other = if other = key then some ⟨value,now + duration⟩ else live now store other := by
  obtain ⟨absent,rfl⟩ := setNx_some.mp set_
  exact ⟨absent,fun other => live_update (Nat.le_add_right now duration)⟩
theorem live_expire (renewed : expire now store key duration = some after) :
    ∃ entry, live now store key = some entry ∧
      ∀ other, live now after other =
        if other = key then some { entry with deadline := now + duration } else live now store other := by
  obtain ⟨entry,present,rfl⟩ := Option.map_eq_some_iff.mp renewed
  exact ⟨entry,present,fun other => live_update (Nat.le_add_right now duration)⟩

end

end Codebot.ExpiringKeys
