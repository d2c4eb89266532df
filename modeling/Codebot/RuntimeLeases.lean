import Codebot.NautilusRuntimes

/-!
Claims of the lease of a Nautilus runtime. The in-memory call tests the lease only, the SQL statement also requires a
paper runtime that is to run and has not ended (`claims_agree_iff`).
-/
namespace Codebot.RuntimeLeases
open NautilusRuntimes (RuntimeState DesiredState terminal)

/-- `RUNTIME_MODES`. -/
inductive RuntimeMode
  | backtest | paper | live
deriving DecidableEq

/-- The columns of a runtime that a claim reads or writes, and the kill switch. -/
structure RuntimeRecord where
  mode : RuntimeMode
  desiredState : DesiredState
  state : RuntimeState
  killSwitchActive : Bool
  workerId : Option Nat
  leaseUntil : Option Int
  generation : Int
  startedAt : Option Int
  updatedAt : Int
deriving DecidableEq

/-- `claim_nautilus_runtime_lease` of the in-memory repository, with the record that it leaves. -/
def claimInMemory (runtime : RuntimeRecord) (workerId : Nat) (leaseSeconds current : Int) : Option RuntimeRecord :=
  let leaseActive := runtime.leaseUntil.any (current ≤ ·)
  if leaseActive && runtime.workerId != some workerId then none
  else
    let generation := if runtime.workerId = some workerId then runtime.generation else runtime.generation + 1
    some { runtime with
      workerId := some workerId
      leaseUntil := some (current + leaseSeconds)
      generation
      state := if runtime.state = .requested then .provisioning else runtime.state
      startedAt := some (runtime.startedAt.getD current)
      updatedAt := current }

/-- The `WHERE` of the SQL claim, on which a comparison with a null column is not true. -/
def found (runtime : RuntimeRecord) (workerId : Nat) (current : Int) : Bool :=
  runtime.mode == .paper && runtime.desiredState == .running && !(runtime.state == .stopped || runtime.state == .failed) &&
    (runtime.workerId == some workerId || runtime.leaseUntil.isNone || runtime.leaseUntil.any (· < current))

/-- `claim_nautilus_runtime_lease` of the SQL repository, on a row that is not locked. -/
def claimInSql (runtime : RuntimeRecord) (workerId : Nat) (leaseSeconds current : Int) : Option RuntimeRecord :=
  if !found runtime workerId current then none
  else
    let generation := if runtime.workerId = some workerId then runtime.generation else runtime.generation + 1
    let leased := { runtime with workerId := some workerId, leaseUntil := some (current + leaseSeconds), generation }
    let started := if leased.state = .requested then { leased with state := .provisioning } else leased
    some { started with startedAt := some (started.startedAt.getD current), updatedAt := current }

def Free (runtime : RuntimeRecord) (workerId : Nat) (current : Int) : Prop :=
  runtime.workerId = some workerId ∨ ∀ until_, runtime.leaseUntil = some until_ → until_ < current
def Runnable (runtime : RuntimeRecord) : Prop :=
  runtime.mode = .paper ∧ runtime.desiredState = .running ∧ terminal runtime.state = false
def Fences (before after : RuntimeRecord) : Prop :=
  before.generation ≤ after.generation ∧ (before.workerId ≠ after.workerId → before.generation < after.generation)

/-- The record of a granted claim. -/
def granted (runtime : RuntimeRecord) (workerId : Nat) (leaseSeconds current : Int) : RuntimeRecord :=
  { runtime with
    workerId := some workerId
    leaseUntil := some (current + leaseSeconds)
    generation := if runtime.workerId = some workerId then runtime.generation else runtime.generation + 1
    state := if runtime.state = .requested then .provisioning else runtime.state
    startedAt := some (runtime.startedAt.getD current)
    updatedAt := current }

variable {runtime : RuntimeRecord} {workerId : Nat} {leaseSeconds current : Int}

theorem not_free_iff : ¬ Free runtime workerId current ↔
    runtime.leaseUntil.any (current ≤ ·) = true ∧ runtime.workerId ≠ some workerId := by
  unfold Free
  cases lease : runtime.leaseUntil with
  | none => simp
  | some until_ =>
    simp only [Option.some.injEq,forall_eq',Option.any_some,decide_eq_true_eq]
    constructor
    · intro held
      exact ⟨by by_contra expired; exact held (.inr (by omega)),fun own => held (.inl own)⟩
    · rintro ⟨active,other⟩ (own | expired)
      · exact other own
      · omega

theorem claimInMemory_eq [Decidable (Free runtime workerId current)] :
    claimInMemory runtime workerId leaseSeconds current =
      if Free runtime workerId current then some (granted runtime workerId leaseSeconds current) else none := by
  unfold claimInMemory
  by_cases free : Free runtime workerId current
  · rw [if_pos free,if_neg]
    · rfl
    · rw [Bool.and_eq_true,bne_iff_ne]
      exact fun held => not_free_iff.mpr held free
  · obtain ⟨active,other⟩ := not_free_iff.mp free
    rw [if_neg free,if_pos]
    rw [Bool.and_eq_true,bne_iff_ne]
    exact ⟨active,other⟩

theorem found_iff : found runtime workerId current = true ↔ Runnable runtime ∧ Free runtime workerId current := by
  unfold found Runnable Free terminal
  cases lease : runtime.leaseUntil with
  | none => simp [and_assoc]
  | some until_ => simp [and_assoc]

theorem claimInSql_eq [Decidable (Runnable runtime ∧ Free runtime workerId current)] :
    claimInSql runtime workerId leaseSeconds current =
      if Runnable runtime ∧ Free runtime workerId current then some (granted runtime workerId leaseSeconds current)
      else none := by
  unfold claimInSql
  by_cases isFound : found runtime workerId current
  · rw [if_pos (found_iff.mp isFound),isFound]
    by_cases requested : runtime.state = .requested
    · simp [granted,requested]
    · simp [granted,requested]
  · rw [if_neg (fun runs => isFound (found_iff.mpr runs))]
    simp [isFound]

theorem granted_fences : Fences runtime (granted runtime workerId leaseSeconds current) := by
  unfold Fences granted
  by_cases own : runtime.workerId = some workerId
  · rw [if_pos own]
    exact ⟨le_refl _,fun changed => absurd own changed⟩
  · rw [if_neg own]
    dsimp only
    exact ⟨by omega,fun _ => by omega⟩

/-- The repositories agree on a claim, and what either grants fences the former owner. -/
def Agree (runtime : RuntimeRecord) (workerId : Nat) (leaseSeconds current : Int) : Prop :=
  claimInMemory runtime workerId leaseSeconds current = claimInSql runtime workerId leaseSeconds current ∧
    (∀ after, claimInMemory runtime workerId leaseSeconds current = some after → Fences runtime after) ∧
    ∀ after, claimInSql runtime workerId leaseSeconds current = some after → Fences runtime after

/-- They agree exactly where the lease is another worker's or the runtime is a paper runtime
    that is to run and has not ended. -/
theorem claims_agree_iff (runtime : RuntimeRecord) (workerId : Nat) (leaseSeconds current : Int) :
    Agree runtime workerId leaseSeconds current ↔ (Free runtime workerId current → Runnable runtime) := by
  classical
  unfold Agree
  rw [claimInMemory_eq,claimInSql_eq]
  have fences : ∀ (condition : Prop) [Decidable condition] (after : RuntimeRecord),
      (if condition then some (granted runtime workerId leaseSeconds current) else none) = some after → Fences runtime after := by
    intro condition _ after isGranted
    split at isGranted
    · cases isGranted
      exact granted_fences
    · cases isGranted
  constructor
  · rintro ⟨same,_⟩ free
    rw [if_pos free] at same
    by_contra ended
    rw [if_neg fun runs => ended runs.1] at same
    cases same
  · intro runs
    refine ⟨?_,fences _,fences _⟩
    by_cases free : Free runtime workerId current
    · rw [if_pos free,if_pos ⟨runs free,free⟩]
    · rw [if_neg free,if_neg fun both => free both.2]

def stoppedRuntime : RuntimeRecord := ⟨.paper,.stopping,.stopped,false,none,none,1,some 0,0⟩
/-- In memory a stopped runtime is leased again. -/
theorem stopped_leased_in_memory :
    ¬ ∀ (runtime : RuntimeRecord) (workerId : Nat) (leaseSeconds current : Int), Agree runtime workerId leaseSeconds current := by
  intro agree
  have same := (agree stoppedRuntime 0 60 10).1
  revert same
  decide

end Codebot.RuntimeLeases
