import Codebot.ExpiringKeys
import Codebot.Runs
import Mathlib.Tactic.SplitIfs

/-!
The leases of the market-data streams. A collector reads the owner of a stream, and either gives the lease another
time to live, if it is its own, or sets it, if there is none. Between the two commands the lease can run out and be
taken (`one_collector_iff`).
-/
namespace Codebot.StreamLeases
open ExpiringKeys
open Runs (run Meets)
set_option linter.unusedSectionVars false
variable {Collector Stream : Type}

/-- What a collector does next: the streams that are still to be reconciled, and the command
    of `acquire_stream_lease` that is to come. -/
inductive Phase (Stream : Type)
  | sleeping
  | reconciling (streams : List Stream)
  | expiring (stream : Stream) (streams : List Stream)
  | setting (stream : Stream) (streams : List Stream)
  | polling
deriving DecidableEq

/-- A collector. It takes the streams of `owned` for its own. -/
structure Worker (Stream : Type) where
  phase : Phase Stream
  leaseSeconds : Nat
  owned : List Stream
/-- Redis with its clock in milliseconds, and the collectors. -/
structure State (Collector Stream : Type) where
  clock : Nat
  leases : Store Stream Collector
  workers : Collector → Worker Stream
inductive Label (Collector Stream : Type)
  | elapse (milliseconds : Nat)
  | pollOnce (collector : Collector) (streams : List Stream) (leaseSeconds : Nat)
  | command (collector : Collector)
  | poll (collector : Collector)
  | crash (collector : Collector)
def initial (clock : Nat) (leases : Store Stream Collector) : State Collector Stream where
  clock
  leases
  workers _ := ⟨.sleeping,0,[]⟩

section
variable [DecidableEq Collector]

def State.put (s : State Collector Stream) (c : Collector) (worker : Worker Stream) : State Collector Stream :=
  { s with workers := Function.update s.workers c worker }
def State.enter (s : State Collector Stream) (c : Collector) (phase : Phase Stream) : State Collector Stream :=
  s.put c { s.workers c with phase }
/-- `acquire_stream_lease` answers with true. -/
def State.acquired (s : State Collector Stream) (c : Collector) (stream : Stream) (rest : List Stream) :
    State Collector Stream :=
  s.put c { s.workers c with phase := .reconciling rest, owned := (s.workers c).owned ++ [stream] }
def State.duration (s : State Collector Stream) (c : Collector) : Nat := (s.workers c).leaseSeconds * 1000

variable [DecidableEq Stream]

/-- The next command of `reconcile_desired_subscriptions`. -/
def command (s : State Collector Stream) (c : Collector) : Option (State Collector Stream) :=
  match (s.workers c).phase with
  | .reconciling [] => some (s.enter c .polling)
  | .reconciling (stream :: rest) =>
    match get s.clock s.leases stream with
    | some owner => some (s.enter c (if owner = c then .expiring stream rest else .reconciling rest))
    | none => some (s.enter c (.setting stream rest))
  | .expiring stream rest =>
    match expire s.clock s.leases stream (s.duration c) with
    | some leases => some ({ s with leases }.acquired c stream rest)
    | none => some (s.enter c (.setting stream rest))
  | .setting stream rest =>
    match setNx s.clock s.leases stream c (s.duration c) with
    | some leases => some ({ s with leases }.acquired c stream rest)
    | none => some (s.enter c (.reconciling rest))
  | _ => none

/-- A collector that crashes starts anew. A lease duration that is not positive is an error. -/
def step (s : State Collector Stream) : Label Collector Stream → Option (State Collector Stream)
  | .elapse milliseconds => some { s with clock := s.clock + milliseconds }
  | .pollOnce c streams leaseSeconds =>
    if (s.workers c).phase = .sleeping ∧ 0 < leaseSeconds then some (s.put c ⟨.reconciling streams,leaseSeconds,[]⟩) else none
  | .command c => command s c
  | .poll c => if (s.workers c).phase = .polling then some (s.put c { s.workers c with phase := .sleeping, owned := [] }) else none
  | .crash c => some (s.put c { s.workers c with phase := .sleeping, owned := [] })

def State.Owns (s : State Collector Stream) (c : Collector) (stream : Stream) : Prop :=
  stream ∈ (s.workers c).owned ∧ get s.clock s.leases stream = some c
def OneOwner (s : State Collector Stream) : Prop :=
  ∀ stream c d, s.Owns c stream → s.Owns d stream → c = d
def Label.collector : Label Collector Stream → Option Collector
  | .elapse _ => none
  | .pollOnce c _ _ => some c
  | .command c => some c
  | .poll c => some c
  | .crash c => some c
/-- The collector extends no lease of another one. -/
def Spares (s : State Collector Stream) (label : Label Collector Stream) (t : State Collector Stream) : Prop :=
  ∀ c, label.collector = some c → ∀ stream lease extended, live s.clock s.leases stream = some lease → lease.value ≠ c →
    live t.clock t.leases stream = some extended → extended.value = lease.value → extended.deadline ≤ lease.deadline
/-- Where a collector renews a lease, it is its own, or one that does not end before its renewal does. -/
def RenewsOwn (s : State Collector Stream) (label : Label Collector Stream) : Prop :=
  ∀ c stream rest lease, label = .command c → (s.workers c).phase = .expiring stream rest →
    live s.clock s.leases stream = some lease → lease.value = c ∨ s.clock + s.duration c ≤ lease.deadline

variable {s t : State Collector Stream} {label : Label Collector Stream} {c : Collector}
theorem one_owner (s : State Collector Stream) : OneOwner s := by
  rintro stream c d ⟨-,stored⟩ ⟨-,also⟩
  exact Option.some.inj (stored.symm.trans also)
@[simp] theorem enter_phase (s : State Collector Stream) (c : Collector) (phase : Phase Stream) :
    ((s.enter c phase).workers c).phase = phase := by
  simp [State.enter,State.put]
@[simp] theorem acquired_phase (s : State Collector Stream) (c : Collector) (stream : Stream) (rest : List Stream) :
    ((s.acquired c stream rest).workers c).phase = .reconciling rest := by
  simp [State.acquired,State.put]
theorem put_others (s : State Collector Stream) (c : Collector) (worker : Worker Stream) {d : Collector} (differs : d ≠ c) :
    (s.put c worker).workers d = s.workers d := Function.update_of_ne differs _ _

theorem command_cases (done : command s c = some t) : t.clock = s.clock ∧ (∀ d, d ≠ c → t.workers d = s.workers d) ∧
    ((t.leases = s.leases ∧ ∀ stream rest, (t.workers c).phase = .expiring stream rest → get s.clock s.leases stream = some c) ∨
      (∃ stream rest, (s.workers c).phase = .setting stream rest ∧ (t.workers c).phase = .reconciling rest ∧
        setNx s.clock s.leases stream c (s.duration c) = some t.leases) ∨
      ∃ stream rest, (s.workers c).phase = .expiring stream rest ∧ (t.workers c).phase = .reconciling rest ∧
        expire s.clock s.leases stream (s.duration c) = some t.leases) := by
  unfold command at done
  split at done
  · cases done
    exact ⟨rfl,fun d differs => put_others s c _ differs,.inl ⟨rfl,by simp⟩⟩
  · rename_i stream rest _
    split at done
    · rename_i owner stored
      cases done
      refine ⟨rfl,fun d differs => put_others s c _ differs,.inl ⟨rfl,?_⟩⟩
      intro other later phase
      rw [enter_phase] at phase
      split_ifs at phase with own
      · cases phase
        exact own ▸ stored
    · cases done
      exact ⟨rfl,fun d differs => put_others s c _ differs,.inl ⟨rfl,by simp⟩⟩
  · rename_i stream rest phase
    split at done
    · rename_i leases renewed
      cases done
      exact ⟨rfl,fun d differs => put_others _ c _ differs,
        .inr (.inr ⟨stream,rest,phase,acquired_phase _ c stream rest,renewed⟩)⟩
    · cases done
      exact ⟨rfl,fun d differs => put_others s c _ differs,.inl ⟨rfl,by simp⟩⟩
  · rename_i stream rest phase
    split at done
    · rename_i leases granted
      cases done
      exact ⟨rfl,fun d differs => put_others _ c _ differs,
        .inr (.inl ⟨stream,rest,phase,acquired_phase _ c stream rest,granted⟩)⟩
    · cases done
      exact ⟨rfl,fun d differs => put_others s c _ differs,.inl ⟨rfl,by simp⟩⟩
  · cases done

theorem leases_same (stepped : step s label = some t) (still : ∀ c, label ≠ .command c) : t.leases = s.leases := by
  cases label with
  | elapse milliseconds =>
    cases stepped
    rfl
  | pollOnce c streams leaseSeconds =>
    obtain ⟨-,same⟩ := Option.ite_none_right_eq_some.mp stepped
    cases same
    rfl
  | command c => exact absurd rfl (still c)
  | poll c =>
    obtain ⟨-,same⟩ := Option.ite_none_right_eq_some.mp stepped
    cases same
    rfl
  | crash c =>
    cases stepped
    rfl

theorem spares_of_same (leases : t.leases = s.leases) : Spares s label t := by
  rintro c - stream lease extended present - later -
  have stored := (live_some.mp later).1
  rw [leases,(live_some.mp present).1] at stored
  cases stored
  exact Nat.le_refl _

theorem spares_iff : (∀ t, step s label = some t → Spares s label t) ↔ RenewsOwn s label := by
  constructor
  · rintro spares c stream rest lease rfl phase present
    by_contra neither
    obtain ⟨other,longer⟩ := not_or.mp neither
    have renewed : expire s.clock s.leases stream (s.duration c) =
        some (Function.update s.leases stream (some { lease with deadline := s.clock + s.duration c })) := by
      rw [expire,present]
      rfl
    have stepped : step s (.command c) = some (State.acquired
        { s with leases := Function.update s.leases stream (some { lease with deadline := s.clock + s.duration c }) } c stream rest) := by
      rw [step,command,phase]
      simp only [renewed]
    apply longer
    refine spares _ stepped c rfl stream lease { lease with deadline := s.clock + s.duration c } present other ?_ rfl
    exact live_some.mpr ⟨Function.update_self _ _ _,Nat.le_add_right _ _⟩
  · intro renews t stepped
    by_cases still : ∀ c, label ≠ .command c
    · exact spares_of_same (leases_same stepped still)
    · obtain ⟨c,commanded⟩ := not_forall.mp still
      obtain rfl := not_not.mp commanded
      obtain ⟨clock,-,⟨same,-⟩ | ⟨stream,rest,-,-,granted⟩ | ⟨stream,rest,phase,-,renewed⟩⟩ := command_cases stepped
      · exact spares_of_same same
      · obtain ⟨absent,all⟩ := live_setNx granted
        rintro d - other lease extended present - later -
        rw [clock,all other] at later
        have differs : other ≠ stream := by
          rintro rfl
          rw [absent] at present
          cases present
        rw [if_neg differs,present] at later
        cases later
        exact Nat.le_refl _
      · obtain ⟨entry,there,all⟩ := live_expire renewed
        rintro d ⟨⟩ other lease extended present foreign later -
        rw [clock,all other] at later
        by_cases same : other = stream
        · rw [if_pos same] at later
          cases later
          subst same
          rcases renews _ other rest lease rfl phase present with own | shorter
          · exact absurd own foreign
          · exact shorter
        · rw [if_neg same,present] at later
          cases later
          exact Nat.le_refl _

/-- No stream has two owners, and nobody extends a lease of another one exactly if each renewal is of an own lease, or
    of one that ends no earlier. -/
theorem one_collector_iff {clock : Nat} {leases : Store Stream Collector} {labels : List (Label Collector Stream)} :
    ((∀ before after t, labels = before ++ after → run step (initial clock leases) before = some t → OneOwner t) ∧
      ∀ before label after s t, labels = before ++ label :: after → run step (initial clock leases) before = some s →
        step s label = some t → Spares s label t) ↔ Meets step RenewsOwn (initial clock leases) labels := by
  have owners : ∀ before after t, labels = before ++ after → run step (initial clock leases) before = some t → OneOwner t :=
    fun _ _ t _ _ => one_owner t
  rw [and_iff_right owners]
  exact Runs.each_iff fun s label => spares_iff

/-- The first collector reads its lease, which runs out and is taken by the second one before the renewal. -/
theorem lease_of_other_extended : ¬ ∀ (labels : List (Label Bool Unit)) before label after s t, labels = before ++ label :: after →
    run step (initial 0 fun _ => none) before = some s → step s label = some t → Spares s label t := by
  intro all
  have spares := all _ [.pollOnce true [()] 30,.command true,.command true,.command true,.poll true,
    .pollOnce true [()] 30,.command true,.elapse 30001,.pollOnce false [()] 30,.command false,.command false,.elapse 1]
    (.command true) [] _ _ rfl rfl rfl
  have shorter := spares true rfl () ⟨false,60001⟩ ⟨false,60002⟩ (by decide) (by decide) (by decide) rfl
  exact absurd shorter (by decide)

end

end Codebot.StreamLeases
