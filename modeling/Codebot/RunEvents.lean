import Codebot.Runs
import Mathlib.Data.List.Range

/-!
The events of one run and the programs that append them: `appendEvent` of the worker, one statement without a lock,
its `persistArtifacts`, a transaction, and `append_run_events` of the server, which lock the row of the run. Reads see
what is committed (`sequences_gapless`, `appends_succeed_iff`).
-/
namespace Codebot.RunEvents
open Runs List

structure RunEvent where
  sequence : Nat
  type : String
deriving DecidableEq
/-- The program of an append. The server has made that many attempts before. -/
inductive Source
  | statement
  | artifacts
  | server (attempt : Nat)
deriving DecidableEq

/-- What a writer has done of its append. -/
inductive Phase
  | idle
  /-- It waits for the lock of the run. `persistArtifacts` has inserted its artifacts. -/
  | waiting (source : Source) (types : List String)
  | locked (source : Source) (types : List String)
  /-- It has read the largest number. -/
  | numbered (source : Source) (events : List RunEvent)
  /-- Its rows are in the table, uncommitted. -/
  | inserted (source : Source) (events : List RunEvent)
deriving DecidableEq

variable {writers : Nat}
/-- The committed rows in the order of their commits, and the writers whose appends failed with a
    violation of the constraint. -/
structure Table (writers : Nat) where
  stored : List RunEvent
  failed : List (Fin writers)
  phase : Fin writers → Phase

inductive Label (writers : Nat)
  /-- `appendEvent` begins its statement and reads the largest number. -/
  | append (w : Fin writers) (type : String)
  /-- `persistArtifacts` begins and inserts that many artifacts. -/
  | persist (w : Fin writers) (count : Nat)
  /-- `append_run_events` is called. -/
  | call (w : Fin writers) (types : List String)
  | lock (w : Fin writers)
  | number (w : Fin writers)
  | insert (w : Fin writers)
  | commit (w : Fin writers)
  /-- The transaction is rolled back: a deadlock, a lost connection or another error. -/
  | abort (w : Fin writers)
deriving DecidableEq

/-- `max(sequence)`, or zero. -/
def lastSequence (events : List RunEvent) : Nat := events.foldl (fun largest event => max largest event.sequence) 0
def numberedFrom (last : Nat) : List String → List RunEvent
  | [] => []
  | type :: types => ⟨last + 1,type⟩ :: numberedFrom (last + 1) types
def Phase.exclusive : Phase → Bool
  | .idle | .waiting _ _ => false
  | .locked _ _ => true
  | .numbered source _ | .inserted source _ => source != .statement
def Phase.shares : Phase → Bool
  | .waiting .artifacts _ => true
  | _ => false
def Phase.uncommitted : Phase → List RunEvent
  | .inserted _ events => events
  | _ => []
def sharable (table : Table writers) (w : Fin writers) : Prop := ∀ v, v ≠ w → (table.phase v).exclusive = false
def free (table : Table writers) (w : Fin writers) : Prop :=
  ∀ v, v ≠ w → (table.phase v).exclusive = false ∧ (table.phase v).shares = false
def collides (events others : List RunEvent) : Prop := ∃ event ∈ events, ∃ other ∈ others, event.sequence = other.sequence
instance (table : Table writers) (w : Fin writers) : Decidable (sharable table w) := Nat.decidableForallFin _
instance (table : Table writers) (w : Fin writers) : Decidable (free table w) := Nat.decidableForallFin _
instance (events others : List RunEvent) : Decidable (collides events others) :=
  inferInstanceAs (Decidable (∃ event ∈ events, ∃ other ∈ others, event.sequence = other.sequence))
def blocked (table : Table writers) (w : Fin writers) (events : List RunEvent) : Prop :=
  ∃ v, v ≠ w ∧ collides events (table.phase v).uncommitted
instance (table : Table writers) (w : Fin writers) (events : List RunEvent) : Decidable (blocked table w events) :=
  Nat.decidableExistsFin _
def Table.put (table : Table writers) (w : Fin writers) (phase : Phase) : Table writers :=
  { table with phase := Function.update table.phase w phase }

/-- A violation of the constraint ends a statement or a transaction of the worker. The server rolls
    back and tries again, twice at most. -/
def violated (table : Table writers) (w : Fin writers) (source : Source) (events : List RunEvent) : Table writers :=
  match source with
  | .server attempt =>
    if 2 ≤ attempt then { table.put w .idle with failed := table.failed ++ [w] }
    else table.put w (.waiting (.server (attempt + 1)) (events.map (·.type)))
  | _ => { table.put w .idle with failed := table.failed ++ [w] }

def step (table : Table writers) : Label writers → Option (Table writers)
  | .append w type =>
    if table.phase w = .idle then some (table.put w (.numbered .statement (numberedFrom (lastSequence table.stored) [type])))
    else none
  | .persist w count =>
    if table.phase w = .idle ∧ 0 < count ∧ sharable table w then
      some (table.put w (.waiting .artifacts (List.replicate count "artifact.created")))
    else none
  | .call w types => if table.phase w = .idle ∧ types ≠ [] then some (table.put w (.waiting (.server 0) types)) else none
  | .lock w =>
    match table.phase w with
    | .waiting source types => if free table w then some (table.put w (.locked source types)) else none
    | _ => none
  | .number w =>
    match table.phase w with
    | .locked source types => some (table.put w (.numbered source (numberedFrom (lastSequence table.stored) types)))
    | _ => none
  | .insert w =>
    match table.phase w with
    | .numbered source events =>
      if blocked table w events then none
      else if collides events table.stored then some (violated table w source events)
      else some (table.put w (.inserted source events))
    | _ => none
  | .commit w =>
    match table.phase w with
    | .inserted _ events =>
      if sharable table w then some { table.put w .idle with stored := table.stored ++ events } else none
    | _ => none
  | .abort w => if table.phase w = .idle then none else some (table.put w .idle)

def initial (writers : Nat) : Table writers := ⟨[],[],fun _ => .idle⟩
def Gapless (table : Table writers) : Prop := table.stored.map (·.sequence) = List.range' 1 table.stored.length
def Phase.statementEvents : Phase → List RunEvent
  | .numbered .statement events => events
  | _ => []
/-- When a statement inserts its row, the largest number in the table is still the one that it
    read: no other writer has committed in between. -/
def Undisturbed (table : Table writers) : Label writers → Prop
  | .insert w => ∀ event ∈ (table.phase w).statementEvents, event.sequence = lastSequence table.stored + 1
  | _ => True
instance (table : Table writers) : ∀ label, Decidable (Undisturbed table label)
  | .insert w => inferInstanceAs
      (Decidable (∀ event ∈ (table.phase w).statementEvents, event.sequence = lastSequence table.stored + 1))
  | .append _ _ | .persist _ _ | .call _ _ | .lock _ | .number _ | .commit _ | .abort _ => .isTrue trivial
theorem numberedFrom_sequences (last : Nat) (types : List String) :
    (numberedFrom last types).map (·.sequence) = List.range' (last + 1) types.length := by
  induction types generalizing last with
  | nil => rfl
  | cons type types ih => rw [numberedFrom,map_cons,ih,length_cons,range'_succ]

variable {events : List RunEvent}

theorem lastSequence_gapless (gapless : events.map (·.sequence) = List.range' 1 events.length) :
    lastSequence events = events.length := by
  have range : ∀ count, (List.range' 1 count).foldl max 0 = count := by
    intro count
    induction count with
    | zero => rfl
    | succ count ih =>
      rw [range'_concat,foldl_append,ih]
      simp
      omega
  have mapped : lastSequence events = (events.map (·.sequence)).foldl max 0 := by
    rw [foldl_map]
    rfl
  rw [mapped,gapless,range]

variable {count first : Nat}

theorem collides_iff {stored : List RunEvent} {total : Nat} (positive : 0 < first)
    (numbers : events.map (·.sequence) = List.range' first count) (known : stored.map (·.sequence) = List.range' 1 total) :
    collides events stored ↔ 0 < count ∧ first ≤ total := by
  have both : collides events stored ↔ ∃ number, number ∈ events.map (·.sequence) ∧ number ∈ stored.map (·.sequence) := by
    constructor
    · rintro ⟨event,isEvent,other,isOther,same⟩
      exact ⟨event.sequence,mem_map_of_mem isEvent,same ▸ mem_map_of_mem isOther⟩
    · rintro ⟨number,isEvent,isOther⟩
      obtain ⟨event,member,rfl⟩ := mem_map.mp isEvent
      obtain ⟨other,isKnown,same⟩ := mem_map.mp isOther
      exact ⟨event,member,other,isKnown,same.symm⟩
  rw [both,numbers,known]
  simp only [mem_range'_1]
  constructor
  · rintro ⟨number,new,old⟩
    omega
  · rintro ⟨nonempty,below⟩
    exact ⟨first,by omega,by omega⟩

theorem collides_first {others : List RunEvent} {other : Nat} (here : 0 < count) (there : 0 < other)
    (numbers : events.map (·.sequence) = List.range' first count)
    (others_ : others.map (·.sequence) = List.range' first other) : collides events others := by
  have isFirst : first ∈ events.map (·.sequence) := by rw [numbers,mem_range'_1]; omega
  have alsoFirst : first ∈ others.map (·.sequence) := by rw [others_,mem_range'_1]; omega
  obtain ⟨event,isEvent,same⟩ := mem_map.mp isFirst
  obtain ⟨event',isOther,same'⟩ := mem_map.mp alsoFirst
  exact ⟨event,isEvent,event',isOther,same.trans same'.symm⟩

/-- Rows that are to be inserted have consecutive numbers, those of a lock's holder the next ones.
    Rows in the table that are not committed have the next ones. -/
def Fits (total : Nat) : Phase → Prop
  | .idle => True
  | .waiting source types | .locked source types => types ≠ [] ∧ source ≠ .statement
  | .numbered source events => events ≠ [] ∧
      ∃ first, events.map (·.sequence) = List.range' first events.length ∧ 0 < first ∧ first ≤ total + 1 ∧ (source ≠ .statement → first = total + 1) ∧ (source = .statement → events.length = 1)
  | .inserted _ events => events ≠ [] ∧ events.map (·.sequence) = List.range' (total + 1) events.length

structure Sound (table : Table writers) : Prop where
  gapless : Gapless table
  fits : ∀ w, Fits table.stored.length (table.phase w)
  alone : ∀ w, (table.phase w).exclusive → free table w
  single : ∀ w, (table.phase w).uncommitted ≠ [] → ∀ v, v ≠ w → (table.phase v).uncommitted = []
@[simp] theorem put_writer (table : Table writers) (w : Fin writers) (phase : Phase) : (table.put w phase).phase w = phase :=
  Function.update_self ..

variable {w : Fin writers}
theorem put_other (table : Table writers) {v : Fin writers} (other : v ≠ w) (phase : Phase) :
    (table.put w phase).phase v = table.phase v := Function.update_of_ne other ..

variable {table : Table writers}
variable {phase : Phase}

theorem sound_put (sound : Sound table)
    (fits : Fits table.stored.length phase) (exclusive : phase.exclusive → free table w)
    (shares : phase.shares → sharable table w)
    (alone : phase.uncommitted ≠ [] → ∀ v, v ≠ w → (table.phase v).uncommitted = []) : Sound (table.put w phase) := by
  refine ⟨sound.gapless,?_,?_,?_⟩
  · intro v
    by_cases same : v = w
    · subst same
      rw [put_writer]
      exact fits
    · rw [put_other table same]
      exact sound.fits v
  · intro v isExclusive u other
    by_cases same : v = w
    · subst same
      rw [put_writer] at isExclusive
      rw [put_other table other]
      exact exclusive isExclusive u other
    · rw [put_other table same] at isExclusive
      by_cases self : u = w
      · subst self
        rw [put_writer]
        have held := sound.alone v isExclusive u other
        refine ⟨?_,?_⟩
        · by_contra taken
          have none := (exclusive (Bool.of_not_eq_false taken) v same).1
          rw [none] at isExclusive
          cases isExclusive
        · by_contra shared
          have none := shares (Bool.of_not_eq_false shared) v same
          rw [none] at isExclusive
          cases isExclusive
      · rw [put_other table self]
        exact sound.alone v isExclusive u other
  · intro v rows u other
    by_cases same : v = w
    · subst same
      rw [put_writer] at rows
      rw [put_other table other]
      exact alone rows u other
    · rw [put_other table same] at rows
      by_cases self : u = w
      · subst self
        rw [put_writer]
        by_contra more
        exact rows (alone more v same)
      · rw [put_other table self]
        exact sound.single v rows u other

theorem sound_quiet (sound : Sound table)
    (fits : Fits table.stored.length phase) (open_ : phase.exclusive = false) (unshared : phase.shares = false)
    (nothing : phase.uncommitted = []) : Sound (table.put w phase) := by
  refine sound_put sound fits ?_ ?_ ?_
  · intro exclusive
    rw [open_] at exclusive
    cases exclusive
  · intro shares
    rw [unshared] at shares
    cases shares
  · intro rows
    exact absurd nothing rows

theorem sound_failed (sound : Sound table) (failed : List (Fin writers)) :
    Sound { table with failed := failed } := ⟨sound.gapless,sound.fits,sound.alone,sound.single⟩
theorem types_nonempty (nonempty : events ≠ []) : events.map (·.type) ≠ [] := by
  simpa using nonempty

theorem sound_violated (sound : Sound table) (w : Fin writers) (source : Source) (nonempty : events ≠ []) : Sound (violated table w source events) := by
  have idle : Sound (table.put w .idle) := sound_quiet sound trivial rfl rfl rfl
  unfold violated
  split
  · split
    · exact sound_failed idle _
    · exact sound_quiet sound ⟨types_nonempty nonempty,fun same => by cases same⟩ rfl rfl rfl
  · exact sound_failed idle _

variable {source : Source}

theorem not_collides_iff (sound : Sound table) (phase : table.phase w = .numbered source events) :
    ¬collides events table.stored ↔ events.map (·.sequence) = List.range' (table.stored.length + 1) events.length := by
  have fits := sound.fits w
  rw [phase] at fits
  obtain ⟨nonempty,first,numbers,positive,next,_⟩ := fits
  have count := length_pos_iff.mpr nonempty
  rw [collides_iff positive numbers sound.gapless,numbers]
  constructor
  · intro above
    rw [show first = table.stored.length + 1 by omega]
  · intro same
    have isNext : first ∈ List.range' (table.stored.length + 1) events.length := by
      rw [← same,mem_range'_1]
      omega
    rw [mem_range'_1] at isNext
    omega

theorem inserted_alone (sound : Sound table)
    (nonempty : events ≠ []) (numbers : events.map (·.sequence) = List.range' (table.stored.length + 1) events.length)
    (unblocked : ¬blocked table w events) : ∀ v, v ≠ w → (table.phase v).uncommitted = [] := by
  intro v other
  cases isPhase : table.phase v with
  | inserted source rows =>
    have fits := sound.fits v
    rw [isPhase] at fits
    have collision := collides_first (length_pos_iff.mpr nonempty) (length_pos_iff.mpr fits.1) numbers fits.2
    exact absurd ⟨v,other,by rw [isPhase]; exact collision⟩ unblocked
  | _ => rfl

theorem sound_commit (sound : Sound table) (phase : table.phase w = .inserted source events) (share : sharable table w) :
    Sound { table.put w .idle with stored := table.stored ++ events } := by
  have fits := sound.fits w
  rw [phase] at fits
  obtain ⟨nonempty,numbers⟩ := fits
  have quiet : Sound (table.put w .idle) := sound_quiet sound trivial rfl rfl rfl
  have alone : ∀ v, v ≠ w → (table.phase v).uncommitted = [] := sound.single w (by rw [phase]; exact nonempty)
  refine ⟨?_,?_,quiet.alone,quiet.single⟩
  · show (table.stored ++ events).map (·.sequence) = List.range' 1 (table.stored ++ events).length
    rw [map_append,sound.gapless,numbers,length_append,Nat.add_comm table.stored.length 1,range'_append_1]
  · intro v
    show Fits (table.stored ++ events).length ((table.put w .idle).phase v)
    by_cases same : v = w
    · subst same
      rw [put_writer]
      trivial
    · rw [put_other table same]
      have others := sound.fits v
      have unlocked := share v same
      have nothing := alone v same
      cases isPhase : table.phase v with
      | idle => trivial
      | waiting source types | locked source types =>
        rw [isPhase] at others
        exact others
      | inserted source rows =>
        rw [isPhase] at others nothing
        exact absurd nothing others.1
      | numbered source rows =>
        rw [isPhase] at others unlocked
        obtain ⟨filled,first,isFirst,positive,next,_,one⟩ := others
        refine ⟨filled,first,isFirst,positive,?_,?_,one⟩
        · rw [length_append]
          omega
        · intro other
          simp [Phase.exclusive,other] at unlocked

theorem numberedFrom_length (last : Nat) (types : List String) : (numberedFrom last types).length = types.length := by
  have lengths := congrArg List.length (numberedFrom_sequences last types)
  simpa using lengths

theorem fits_numbered (sound : Sound table) {types : List String}
    (nonempty : types ≠ []) (one : source = .statement → types.length = 1) :
    Fits table.stored.length (.numbered source (numberedFrom (lastSequence table.stored) types)) := by
  have count := length_pos_iff.mpr nonempty
  refine ⟨?_,table.stored.length + 1,?_,by omega,by omega,fun _ => rfl,?_⟩
  · apply length_pos_iff.mp
    rw [numberedFrom_length]
    exact count
  · rw [numberedFrom_sequences,numberedFrom_length,lastSequence_gapless sound.gapless]
  · rw [numberedFrom_length]
    exact one

variable {label : Label writers} {next : Table writers}

theorem sound_step (sound : Sound table) (stepped : step table label = some next) : Sound next := by
  cases label with
  | append w type =>
    simp only [step] at stepped
    by_cases isIdle : table.phase w = .idle
    · rw [if_pos isIdle] at stepped
      cases stepped
      exact sound_quiet sound (fits_numbered sound (cons_ne_nil _ _) (fun _ => rfl)) rfl rfl rfl
    · rw [if_neg isIdle] at stepped
      cases stepped
  | persist w count =>
    simp only [step] at stepped
    by_cases ready : table.phase w = .idle ∧ 0 < count ∧ sharable table w
    · rw [if_pos ready] at stepped
      cases stepped
      have nonempty : List.replicate count "artifact.created" ≠ [] := by
        rw [Ne,replicate_eq_nil_iff]
        omega
      exact sound_put sound ⟨nonempty,by decide⟩ (fun taken => absurd taken Bool.false_ne_true) (fun _ => ready.2.2)
        (fun rows => absurd rfl rows)
    · rw [if_neg ready] at stepped
      cases stepped
  | call w types =>
    simp only [step] at stepped
    by_cases ready : table.phase w = .idle ∧ types ≠ []
    · rw [if_pos ready] at stepped
      cases stepped
      exact sound_quiet sound ⟨ready.2,by decide⟩ rfl rfl rfl
    · rw [if_neg ready] at stepped
      cases stepped
  | lock w =>
    simp only [step] at stepped
    cases isPhase : table.phase w with
    | waiting source types =>
      simp only [isPhase] at stepped
      by_cases isFree : free table w
      · rw [if_pos isFree] at stepped
        cases stepped
        have fits := sound.fits w
        rw [isPhase] at fits
        exact sound_put sound fits (fun _ => isFree) (fun shared => absurd shared Bool.false_ne_true)
          (fun rows => absurd rfl rows)
      · rw [if_neg isFree] at stepped
        cases stepped
    | _ => simp [isPhase] at stepped
  | number w =>
    simp only [step] at stepped
    cases isPhase : table.phase w with
    | locked source types =>
      simp only [isPhase,Option.some.injEq] at stepped
      subst stepped
      have fits := sound.fits w
      rw [isPhase] at fits
      have held := sound.alone w (by rw [isPhase]; rfl)
      exact sound_put sound (fits_numbered sound fits.1 fun same => absurd same fits.2) (fun _ => held)
        (fun shared => absurd shared Bool.false_ne_true) (fun rows => absurd rfl rows)
    | _ => simp [isPhase] at stepped
  | insert w =>
    simp only [step] at stepped
    cases isPhase : table.phase w with
    | numbered source events =>
      simp only [isPhase] at stepped
      have fits := sound.fits w
      rw [isPhase] at fits
      by_cases waits : blocked table w events
      · rw [if_pos waits] at stepped
        cases stepped
      · rw [if_neg waits] at stepped
        by_cases collision : collides events table.stored
        · rw [if_pos collision] at stepped
          cases stepped
          exact sound_violated sound w source fits.1
        · rw [if_neg collision] at stepped
          cases stepped
          have numbers := (not_collides_iff sound isPhase).mp collision
          refine sound_put sound ⟨fits.1,numbers⟩ ?_ (fun shared => absurd shared Bool.false_ne_true)
            (fun _ => inserted_alone sound fits.1 numbers waits)
          intro exclusive
          exact sound.alone w (by rw [isPhase]; exact exclusive)
    | _ => simp [isPhase] at stepped
  | commit w =>
    simp only [step] at stepped
    cases isPhase : table.phase w with
    | inserted source events =>
      simp only [isPhase] at stepped
      by_cases share : sharable table w
      · rw [if_pos share] at stepped
        cases stepped
        exact sound_commit sound isPhase share
      · rw [if_neg share] at stepped
        cases stepped
    | _ => simp [isPhase] at stepped
  | abort w =>
    simp only [step] at stepped
    by_cases isIdle : table.phase w = .idle
    · rw [if_pos isIdle] at stepped
      cases stepped
    · rw [if_neg isIdle] at stepped
      cases stepped
      exact sound_quiet sound trivial rfl rfl rfl

theorem sound_initial : Sound (initial writers) :=
  ⟨rfl,fun _ => trivial,fun _ taken => absurd taken Bool.false_ne_true,fun _ rows => absurd rfl rows⟩
/-- In every run, after every commit, the numbers are gapless. -/
theorem sequences_gapless {labels : List (Label writers)}
    (ran : run step (initial writers) labels = some table) : Gapless table :=
  (reachable_keeps (fun _ _ _ => sound_step) sound_initial ⟨labels,ran⟩).gapless
theorem locked_succeeds (sound : Sound table) (phase : table.phase w = .numbered source events) (locked : source ≠ .statement) :
    ¬collides events table.stored := by
  have fits := sound.fits w
  rw [phase] at fits
  obtain ⟨nonempty,first,numbers,_,_,next,_⟩ := fits
  rw [not_collides_iff sound phase,numbers,next locked]

theorem statement_succeeds_iff (sound : Sound table) (phase : table.phase w = .numbered .statement events) :
    ¬collides events table.stored ↔ ∀ event ∈ events, event.sequence = lastSequence table.stored + 1 := by
  have fits := sound.fits w
  rw [phase] at fits
  obtain ⟨_,first,numbers,_,_,_,one⟩ := fits
  obtain ⟨event,rfl⟩ := length_eq_one_iff.mp (one rfl)
  rw [not_collides_iff sound phase,lastSequence_gapless sound.gapless]
  simp

theorem blocked_undisturbed (sound : Sound table)
    (phase : table.phase w = .numbered .statement events) (waits : blocked table w events) :
    ∀ event ∈ events, event.sequence = lastSequence table.stored + 1 := by
  have fits := sound.fits w
  rw [phase] at fits
  obtain ⟨_,first,numbers,_,next,_,one⟩ := fits
  obtain ⟨event,rfl⟩ := length_eq_one_iff.mp (one rfl)
  obtain ⟨v,other,mine,isMine,row,isRow,same⟩ := waits
  obtain rfl := mem_singleton.mp isMine
  cases isPhase : table.phase v with
  | inserted source rows =>
    have others := sound.fits v
    rw [isPhase] at others isRow
    have among : row.sequence ∈ rows.map (·.sequence) := mem_map_of_mem isRow
    rw [others.2,mem_range'_1] at among
    have isFirst : mine.sequence = first := by simpa using numbers
    rintro event member
    obtain rfl := mem_singleton.mp member
    rw [lastSequence_gapless sound.gapless]
    omega
  | _ =>
    rw [isPhase] at isRow
    cases isRow

theorem violated_fails (table : Table writers) (w : Fin writers) (events : List RunEvent) :
    (violated table w .statement events).failed ≠ [] := by
  simp [violated]

theorem quiet_step (quiet : ∀ w, label ≠ .insert w)
    (stepped : step table label = some next) : next.failed = table.failed := by
  cases label with
  | insert w => exact absurd rfl (quiet w)
  | append w type | persist w count | call w types | abort w =>
    simp only [step] at stepped
    split at stepped <;> cases stepped
    rfl
  | number w =>
    simp only [step] at stepped
    split at stepped <;> cases stepped
    rfl
  | lock w | commit w =>
    simp only [step] at stepped
    split at stepped
    · split at stepped <;> cases stepped
      rfl
    · cases stepped

theorem succeeds_step_iff (sound : Sound table) (unfailed : table.failed = []) (label : Label writers) :
    (∀ next, step table label = some next → next.failed = []) ↔ Undisturbed table label := by
  by_cases quiet : ∀ w, label ≠ .insert w
  · refine iff_of_true ?_ ?_
    · intro next stepped
      rw [quiet_step quiet stepped,unfailed]
    · cases label with
      | insert w => exact absurd rfl (quiet w)
      | _ => trivial
  · obtain ⟨w,rfl⟩ : ∃ w, label = .insert w := by
      by_contra other
      exact quiet fun w same => other ⟨w,same⟩
    simp only [Undisturbed,step]
    cases isPhase : table.phase w with
    | numbered source events =>
      by_cases isStatement : source = .statement
      · subst isStatement
        simp only [Phase.statementEvents]
        by_cases waits : blocked table w events
        · refine iff_of_true ?_ (blocked_undisturbed sound isPhase waits)
          intro next stepped
          rw [if_pos waits] at stepped
          cases stepped
        · rw [← statement_succeeds_iff sound isPhase]
          simp only [if_neg waits]
          by_cases collision : collides events table.stored
          · refine iff_of_false ?_ (not_not.mpr collision)
            intro all
            exact violated_fails table w events (all _ (if_pos collision))
          · refine iff_of_true ?_ collision
            intro next stepped
            rw [if_neg collision] at stepped
            cases stepped
            exact unfailed
      · have safe := locked_succeeds sound isPhase isStatement
        have quietEvents : (Phase.numbered source events).statementEvents = [] := by
          cases source with
          | statement => exact absurd rfl isStatement
          | _ => rfl
        refine iff_of_true ?_ ?_
        · intro next stepped
          simp only [if_neg safe] at stepped
          split at stepped <;> cases stepped
          exact unfailed
        · rw [quietEvents]
          exact fun event member => absurd member not_mem_nil
    | _ =>
      refine iff_of_true ?_ ?_
      · intro next stepped
        cases stepped
      · exact fun event member => absurd member not_mem_nil

/-- No append fails and the numbers are those from one on, in every state of exactly the runs whose
    statements insert the number after the largest one. -/
theorem appends_succeed_iff (labels : List (Label writers)) :
    (∀ before after table, labels = before ++ after → run step (initial writers) before = some table →
        table.failed = [] ∧ Gapless table) ↔ Meets step Undisturbed (initial writers) labels := by
  have succeeds : (∀ before after table, labels = before ++ after → run step (initial writers) before = some table →
      table.failed = []) ↔ Meets step Undisturbed (initial writers) labels :=
    holds_iff (fun _ _ _ => sound_step) (fun _ label sound unfailed => succeeds_step_iff sound unfailed label) sound_initial rfl
  rw [← succeeds]
  constructor
  · intro all before after table split ran
    exact (all before after table split ran).1
  · intro all before after table split ran
    exact ⟨all before after table split ran,sequences_gapless ran⟩

def twoStatements (first second : Fin writers) : List (Label writers) :=
  [.append first "backtest.heartbeat",.append second "backtest.heartbeat",.insert first,.commit first,.insert second]
/-- The second append fails. -/
theorem append_collides : ∃ table, run step (initial 2) (twoStatements 0 1) = some table ∧ table.failed = [1] := by
  exact ⟨_,rfl,rfl⟩

end Codebot.RunEvents
