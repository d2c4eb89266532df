import Codebot.Runs
import Mathlib.Data.List.Sort
import Mathlib.Data.List.Range
import Mathlib.Data.List.Perm.Subperm

/-!
The events of one Nautilus runtime and their sequence numbers. The in-memory repository numbers an event by the length
of the list, the SQL repository by the largest number in the table; a retention job deletes old heartbeats. Readers
page with `after_sequence` (`numbers_final_iff`).
-/
namespace Codebot.RuntimeEvents
open Runs List Function

/-- The in-memory repository or the SQL repository. -/
inductive Repository
  | memory
  | sql
deriving DecidableEq

/-- An event; `id` counts the events that were appended before it. -/
structure Event where
  id : Nat
  sequence : Nat
  heartbeat : Bool
  createdAt : Nat
  idempotencyKey : Option Nat
deriving DecidableEq

structure Input where
  heartbeat : Bool
  idempotencyKey : Option Nat
deriving DecidableEq

/-- A call of the SQL repository between its reads and its commit. -/
inductive Call
  | idle
  /-- The next number, the events without an entry of their key, and the time. -/
  | appending (sequence : Nat) (inputs : List Input) (createdAt : Nat)
  /-- The events that the retention job is to delete. -/
  | cleaning (ids : List Nat)
deriving DecidableEq

/-- A client that pages through the events: it began after that many events, and has seen
    these. -/
structure Reader where
  since : Nat
  afterSequence : Nat
  seen : List Nat
deriving DecidableEq
/-- The table, and the numbers that were ever given, oldest first. -/
structure Store (calls readers : Nat) where
  now : Nat
  events : List Event
  given : List Nat
  call : Fin calls → Call
  reader : Fin readers → Reader

inductive Label (calls readers : Nat)
  | tick (amount : Nat)
  /-- Events that are appended under the lock of the in-memory repository. -/
  | append (inputs : List Input)
  /-- A transaction reads the largest number and looks up the keys. -/
  | load (c : Fin calls) (inputs : List Input)
  | commit (c : Fin calls)
  /-- `cleanup_nautilus_heartbeat_events`, or its select. -/
  | cleanup (cutoff maxSamples : Nat)
  | select (c : Fin calls) (cutoff maxSamples : Nat)
  /-- A client starts to read after so many events. -/
  | begin (r : Fin readers) (since : Nat)
  /-- `list_nautilus_runtime_events`. -/
  | page (r : Fin readers) (limit : Nat)
deriving DecidableEq

def known (events : List Event) (input : Input) : Bool :=
  input.idempotencyKey.any fun key => events.any fun event => event.idempotencyKey == some key
/-- `func.max(sequence)`. -/
def lastSequence (events : List Event) : Nat := events.foldl (fun largest event => max largest event.sequence) 0
def heartbeats (events : List Event) : List Event :=
  (events.filter (·.heartbeat)).insertionSort fun a b =>
    b.createdAt < a.createdAt ∨ (a.createdAt = b.createdAt ∧ b.sequence ≤ a.sequence)
/-- The events that the retention deletes. -/
def expired (events : List Event) (cutoff maxSamples : Nat) : List Nat :=
  let keepIds := ((heartbeats events).take maxSamples).map (·.id)
  (events.filter fun event => event.heartbeat && !(event.id ∈ keepIds && cutoff ≤ event.createdAt)).map (·.id)
def remove (events : List Event) (ids : List Nat) : List Event := events.filter fun event => event.id ∉ ids
/-- The new events of a transaction, with consecutive numbers. -/
def numbered (id sequence createdAt : Nat) : List Input → List Event
  | [] => []
  | input :: rest =>
    ⟨id,sequence,input.heartbeat,createdAt,input.idempotencyKey⟩ :: numbered (id + 1) (sequence + 1) createdAt rest
def unique (events : List Event) : Bool :=
  (events.map (·.sequence)).Nodup && (events.filterMap (·.idempotencyKey)).Nodup
/-- `_bounded_nautilus_limit`. -/
def boundedLimit (limit : Nat) : Nat := min 500 (max 1 limit)
/-- `list_nautilus_runtime_events`: the in-memory list as it is, the SQL table by number. -/
def listEvents (repository : Repository) (events : List Event) (afterSequence limit : Nat) : List Event :=
  let later := events.filter fun event => afterSequence < event.sequence
  match repository with
  | .memory => later.take (boundedLimit limit)
  | .sql => (later.insertionSort fun a b => a.sequence ≤ b.sequence).take (boundedLimit limit)

variable {calls readers : Nat}
/-- `_append_nautilus_runtime_event_locked`. -/
def appendLocked (store : Store calls readers) (input : Input) : Store calls readers :=
  if known store.events input then store
  else
    let event : Event := ⟨store.given.length,store.events.length + 1,input.heartbeat,store.now,input.idempotencyKey⟩
    { store with events := store.events ++ [event], given := store.given ++ [event.sequence] }
/-- A transaction that appends commits, unless it violates a constraint. -/
def insert (store : Store calls readers) (sequence : Nat) (inputs : List Input) (createdAt : Nat) : Store calls readers :=
  let new := numbered store.given.length sequence createdAt inputs
  if unique (store.events ++ new) then
    { store with events := store.events ++ new, given := store.given ++ new.map (·.sequence) }
  else store
def Store.put (store : Store calls readers) (c : Fin calls) (call : Call) : Store calls readers :=
  { store with call := Function.update store.call c call }
/-- The reader has the page. -/
def Reader.read (reader : Reader) (page : List Event) : Reader :=
  { reader with
    afterSequence := (page.getLast?.map (·.sequence)).getD reader.afterSequence
    seen := reader.seen ++ page.map (·.id) }

def step (repository : Repository) (store : Store calls readers) : Label calls readers → Option (Store calls readers)
  | .tick amount => some { store with now := store.now + amount }
  | .append inputs => if repository = .memory then some (inputs.foldl appendLocked store) else none
  | .load c inputs =>
    if repository = .sql ∧ store.call c = .idle then
      some (store.put c (.appending (lastSequence store.events + 1) (inputs.filter fun input => !known store.events input) store.now))
    else none
  | .commit c =>
    match store.call c with
    | .idle => none
    | .appending sequence inputs createdAt => some ((insert store sequence inputs createdAt).put c .idle)
    | .cleaning ids => some ({ store with events := remove store.events ids }.put c .idle)
  | .cleanup cutoff maxSamples =>
    if repository = .memory then some { store with events := remove store.events (expired store.events cutoff maxSamples) }
    else none
  | .select c cutoff maxSamples =>
    if repository = .sql ∧ store.call c = .idle then some (store.put c (.cleaning (expired store.events cutoff maxSamples)))
    else none
  | .begin r since =>
    if since ≤ store.given.length then
      some { store with
        reader := Function.update store.reader r ⟨since,((store.given.take since).getLast?).getD 0,[]⟩ }
    else none
  | .page r limit =>
    let page := listEvents repository store.events (store.reader r).afterSequence limit
    some { store with reader := Function.update store.reader r ((store.reader r).read page) }

def initial (calls readers : Nat) : Store calls readers := ⟨0,[],[],fun _ => .idle,fun _ => ⟨0,0,[]⟩⟩
/-- The numbers increase in the order of the events, no reader sees an event twice, and what is in the table it has seen
    or is still to see. -/
structure Faithful (store : Store calls readers) : Prop where
  increasing : store.given.Pairwise (· < ·)
  once : ∀ r, (store.reader r).seen.Nodup
  complete : ∀ r, ∀ event ∈ store.events, (store.reader r).since ≤ event.id → event.id ∉ (store.reader r).seen →
    (store.reader r).afterSequence < event.sequence
def NumbersFinal (repository : Repository) (store : Store calls readers) (label : Label calls readers) : Prop :=
  ∀ next, step repository store label = some next → Faithful next

/-- No number is given that belonged to an event that was cleaned up. -/
def Unexpired (repository : Repository) (store : Store calls readers) : Label calls readers → Prop
  | .append inputs => repository = .memory →
      (∀ input ∈ inputs, known store.events input) ∨ store.events.length = store.given.length
  | .commit c =>
    match store.call c with
    | .appending sequence inputs createdAt =>
      inputs = [] ∨ ¬ unique (store.events ++ numbered store.given.length sequence createdAt inputs) ∨
        ∀ number ∈ store.given, sequence ≤ number → number ∈ store.events.map (·.sequence)
    | _ => True
  | _ => True

/-- The numbers are those from one on, each event has the number of its place, and the
    events stand in the table in their order. -/
structure Sound (store : Store calls readers) : Prop where
  given : store.given = List.range' 1 store.given.length
  placed : ∀ event ∈ store.events, event.sequence = event.id + 1 ∧ event.id < store.given.length
  ordered : store.events.Pairwise fun a b => a.id < b.id
  read : ∀ c sequence inputs createdAt, store.call c = .appending sequence inputs createdAt →
    0 < sequence ∧ sequence ≤ store.given.length + 1
  behind : ∀ r, (store.reader r).afterSequence ≤ store.given.length ∧
    (∀ id ∈ (store.reader r).seen, id < (store.reader r).afterSequence)

theorem numbered_sequences (id sequence createdAt : Nat) (inputs : List Input) :
    (numbered id sequence createdAt inputs).map (·.sequence) = List.range' sequence inputs.length := by
  induction inputs generalizing id sequence with
  | nil => rfl
  | cons input rest ih => rw [numbered,map_cons,ih,length_cons,range'_succ]
theorem numbered_ids (id sequence createdAt : Nat) (inputs : List Input) :
    (numbered id sequence createdAt inputs).map (·.id) = List.range' id inputs.length := by
  induction inputs generalizing id sequence with
  | nil => rfl
  | cons input rest ih => rw [numbered,map_cons,ih,length_cons,range'_succ]

variable {createdAt id : Nat} {inputs : List Input}

theorem numbered_placed {event : Event} (member : event ∈ numbered id (id + 1) createdAt inputs) :
    event.sequence = event.id + 1 ∧ id ≤ event.id ∧ event.id < id + inputs.length := by
  induction inputs generalizing id with
  | nil => cases member
  | cons input rest ih =>
    rcases mem_cons.mp member with rfl | later
    · simp
    · obtain ⟨same,low,high⟩ := ih later
      simp only [length_cons]
      omega

/-- A store with new events. -/
def extend (store : Store calls readers) (sequence : Nat) (inputs : List Input) (createdAt : Nat) : Store calls readers :=
  { store with
    events := store.events ++ numbered store.given.length sequence createdAt inputs
    given := store.given ++ (numbered store.given.length sequence createdAt inputs).map (·.sequence) }

theorem increasing_append {n sequence count : Nat} :
    (List.range' 1 n ++ List.range' sequence count).Pairwise (· < ·) ↔ n = 0 ∨ count = 0 ∨ n < sequence := by
  rw [pairwise_append]
  constructor
  · rintro ⟨_,_,below⟩
    by_cases none : n = 0
    · exact .inl none
    by_cases nothing : count = 0
    · exact .inr (.inl nothing)
    refine .inr (.inr (below n ?_ sequence ?_))
    · rw [mem_range'_1]
      omega
    · rw [mem_range'_1]
      omega
  · intro above
    refine ⟨pairwise_lt_range',pairwise_lt_range',?_⟩
    intro a isOld b isNew
    rw [mem_range'_1] at isOld isNew
    omega

variable {store : Store calls readers}

theorem extend_faithful (sound : Sound store) (faithful : Faithful store) (inputs : List Input)
    (createdAt : Nat) : Faithful (extend store (store.given.length + 1) inputs createdAt) := by
  refine ⟨?_,faithful.once,?_⟩
  · simp only [extend]
    rw [numbered_sequences,sound.given,increasing_append]
    simp only [length_range']
    omega
  · intro r event member since unseen
    rcases mem_append.mp member with old | new
    · exact faithful.complete r event old since unseen
    · obtain ⟨placed,later,_⟩ := numbered_placed new
      have behind : (store.reader r).afterSequence ≤ store.given.length := (sound.behind r).1
      show (store.reader r).afterSequence < event.sequence
      omega

theorem extend_sound (sound : Sound store) (inputs : List Input) (createdAt : Nat) :
    Sound (extend store (store.given.length + 1) inputs createdAt) := by
  have length : (extend store (store.given.length + 1) inputs createdAt).given.length = store.given.length + inputs.length := by
    simp [extend,numbered_sequences]
  refine ⟨?_,?_,?_,?_,?_⟩
  · rw [length]
    simp only [extend]
    rw [numbered_sequences]
    conv_lhs => rw [sound.given]
    rw [length_range',Nat.add_comm,range'_append_1]
  · intro event member
    rw [length]
    rcases mem_append.mp member with old | new
    · obtain ⟨placed,below⟩ := sound.placed event old
      exact ⟨placed,by omega⟩
    · obtain ⟨placed,_,below⟩ := numbered_placed new
      exact ⟨placed,below⟩
  · refine pairwise_append.mpr ⟨sound.ordered,?_,?_⟩
    · have ids := numbered_ids store.given.length (store.given.length + 1) createdAt inputs
      have increasing : ((numbered store.given.length (store.given.length + 1) createdAt inputs).map (·.id)).Pairwise (· < ·) := by
        rw [ids]
        exact pairwise_lt_range'
      exact pairwise_map.mp increasing
    · intro old isOld new isNew
      have below := (sound.placed old isOld).2
      have above := (numbered_placed isNew).2.1
      omega
  · intro c sequence waiting at_ phase
    obtain ⟨positive,bounded⟩ := sound.read c sequence waiting at_ phase
    rw [length]
    exact ⟨positive,by omega⟩
  · intro r
    obtain ⟨behind,seen⟩ := sound.behind r
    rw [length]
    exact ⟨Nat.le_trans behind (Nat.le_add_right _ _),seen⟩

theorem appendLocked_known
    (all : ∀ input ∈ inputs, known store.events input) : inputs.foldl appendLocked store = store := by
  induction inputs with
  | nil => rfl
  | cons input rest ih =>
    obtain ⟨first,later⟩ := forall_mem_cons.mp all
    rw [foldl_cons,appendLocked,if_pos first,ih later]

theorem appendLocked_given (store : Store calls readers) (inputs : List Input) :
    store.given <+: (inputs.foldl appendLocked store).given := by
  induction inputs generalizing store with
  | nil => exact prefix_rfl
  | cons input rest ih =>
    refine List.IsPrefix.trans ?_ (ih (appendLocked store input))
    unfold appendLocked
    split
    · exact prefix_rfl
    · exact prefix_append _ _

theorem appendLocked_sound (sound : Sound store) (faithful : Faithful store)
    (full : store.events.length = store.given.length) (input : Input) :
    Sound (appendLocked store input) ∧ Faithful (appendLocked store input) ∧
      (appendLocked store input).events.length = (appendLocked store input).given.length := by
  by_cases isKnown : known store.events input
  · rw [appendLocked,if_pos isKnown]
    exact ⟨sound,faithful,full⟩
  · have extended : appendLocked store input = extend store (store.given.length + 1) [input] store.now := by
      rw [appendLocked,if_neg isKnown,full]
      rfl
    rw [extended]
    refine ⟨extend_sound sound _ _,extend_faithful sound faithful _ _,?_⟩
    simp [extend,numbered,full]

theorem append_sound (sound : Sound store) (faithful : Faithful store)
    (full : store.events.length = store.given.length) (inputs : List Input) :
    Sound (inputs.foldl appendLocked store) ∧ Faithful (inputs.foldl appendLocked store) := by
  induction inputs generalizing store with
  | nil => exact ⟨sound,faithful⟩
  | cons input rest ih =>
    obtain ⟨nextSound,nextFaithful,nextFull⟩ := appendLocked_sound sound faithful full input
    exact ih nextSound nextFaithful nextFull

theorem events_length (sound : Sound store) : store.events.length ≤ store.given.length := by
  have ids : (store.events.map (·.id)).Nodup :=
    pairwise_map.mpr (sound.ordered.imp fun before => Nat.ne_of_lt before)
  have among : store.events.map (·.id) ⊆ List.range store.given.length := by
    intro id member
    obtain ⟨event,isEvent,rfl⟩ := mem_map.mp member
    exact mem_range.mpr (sound.placed event isEvent).2
  simpa using (subperm_of_subset ids among).length_le

theorem append_repeats (sound : Sound store)
    (new : ¬ ∀ input ∈ inputs, known store.events input) (fewer : store.events.length < store.given.length) :
    ¬ (inputs.foldl appendLocked store).given.Pairwise (· < ·) := by
  induction inputs with
  | nil => exact fun _ => new fun _ member => absurd member not_mem_nil
  | cons input rest ih =>
    by_cases isKnown : known store.events input
    · rw [foldl_cons,appendLocked,if_pos isKnown]
      exact ih fun all => new (forall_mem_cons.mpr ⟨isKnown,all⟩)
    · intro increasing
      have first : (store.given ++ [store.events.length + 1]).Pairwise (· < ·) := by
        have started := appendLocked_given (appendLocked store input) rest
        rw [appendLocked,if_neg isKnown] at started
        rw [foldl_cons,appendLocked,if_neg isKnown] at increasing
        exact increasing.sublist started.sublist
      rw [sound.given] at first
      have above := (@increasing_append store.given.length (store.events.length + 1) 1).mp first
      omega

variable {events : List Event} {sequence : Nat}
theorem not_unique (given : inputs ≠ [])
    (taken : sequence ∈ events.map (·.sequence)) : ¬ unique (events ++ numbered id sequence createdAt inputs) := by
  intro isUnique
  obtain ⟨input,rest,rfl⟩ := exists_cons_of_ne_nil given
  simp only [unique,Bool.and_eq_true,decide_eq_true_eq,map_append,nodup_append] at isUnique
  exact isUnique.1.2.2 sequence taken sequence (by simp [numbered]) rfl

variable {c : Fin calls}

theorem insert_faithful_iff (sound : Sound store) (faithful : Faithful store) (phase : store.call c = .appending sequence inputs createdAt) :
    Faithful (insert store sequence inputs createdAt) ↔
      inputs = [] ∨ ¬ unique (store.events ++ numbered store.given.length sequence createdAt inputs) ∨
        ∀ number ∈ store.given, sequence ≤ number → number ∈ store.events.map (·.sequence) := by
  obtain ⟨positive,bounded⟩ := sound.read c sequence inputs createdAt phase
  by_cases isUnique : unique (store.events ++ numbered store.given.length sequence createdAt inputs)
  · have written : insert store sequence inputs createdAt = extend store sequence inputs createdAt := by
      simp only [insert,isUnique,if_true]
      rfl
    rw [written]
    constructor
    · intro after
      have increasing := after.increasing
      simp only [extend] at increasing
      rw [numbered_sequences,sound.given,increasing_append] at increasing
      rcases increasing with nothing | empty | above
      · refine .inr (.inr ?_)
        rw [eq_nil_of_length_eq_zero nothing]
        exact fun _ member => absurd member not_mem_nil
      · exact .inl (eq_nil_of_length_eq_zero empty)
      · refine .inr (.inr ?_)
        intro number member low
        rw [sound.given,mem_range'_1] at member
        omega
    · rintro (rfl | conflict | present)
      · have same : extend store sequence [] createdAt = store := by simp [extend,numbered]
        rwa [same]
      · exact absurd isUnique conflict
      · by_cases empty : inputs = []
        · subst empty
          have same : extend store sequence [] createdAt = store := by simp [extend,numbered]
          rwa [same]
        have next : sequence = store.given.length + 1 := by
          by_contra other
          have given : sequence ∈ store.given := by
            rw [sound.given,mem_range'_1]
            omega
          exact not_unique empty (present sequence given (Nat.le_refl _)) isUnique
        rw [next]
        exact extend_faithful sound faithful inputs createdAt
  · have same : insert store sequence inputs createdAt = store := if_neg isUnique
    rw [same]
    exact iff_of_true faithful (.inr (.inl isUnique))

theorem lastSequence_le {bound : Nat} (below : ∀ event ∈ events, event.sequence ≤ bound) :
    lastSequence events ≤ bound := by
  unfold lastSequence
  have each : ∀ start, start ≤ bound → events.foldl (fun largest event => max largest event.sequence) start ≤ bound := by
    induction events with
    | nil => exact fun _ small => small
    | cons event rest ih =>
      obtain ⟨first,later⟩ := forall_mem_cons.mp below
      exact fun start small => ih later _ (Nat.max_le.mpr ⟨small,first⟩)
  exact each 0 (Nat.zero_le _)

theorem remove_sound (sound : Sound store) (ids : List Nat) :
    Sound { store with events := remove store.events ids } where
  given := sound.given
  placed event member := sound.placed event (mem_filter.mp member).1
  ordered := sound.ordered.sublist filter_sublist
  read := sound.read
  behind := sound.behind
theorem remove_faithful (faithful : Faithful store) (ids : List Nat) :
    Faithful { store with events := remove store.events ids } where
  increasing := faithful.increasing
  once := faithful.once
  complete r event member := faithful.complete r event (mem_filter.mp member).1
theorem sequences_ordered (sound : Sound store) : store.events.Pairwise fun a b => a.sequence < b.sequence := by
  refine sound.ordered.imp_of_mem ?_
  intro a b isA isB before
  rw [(sound.placed a isA).1,(sound.placed b isB).1]
  omega

variable {repository : Repository}

theorem listEvents_eq (sound : Sound store) (afterSequence limit : Nat) :
    listEvents repository store.events afterSequence limit =
      (store.events.filter fun event => afterSequence < event.sequence).take (boundedLimit limit) := by
  cases repository with
  | memory => rfl
  | sql =>
    have sorted : (store.events.filter fun event => afterSequence < event.sequence).Pairwise
        fun a b => a.sequence ≤ b.sequence :=
      ((sequences_ordered sound).sublist filter_sublist).imp Nat.le_of_lt
    simp only [listEvents]
    rw [sorted.insertionSort_eq]

theorem listEvents_page (sound : Sound store) {afterSequence limit : Nat}
    {page : List Event} (isPage : listEvents repository store.events afterSequence limit = page) :
    (∀ event ∈ page, event ∈ store.events ∧ afterSequence < event.sequence) ∧
      page.Pairwise (fun a b => a.sequence < b.sequence) ∧
      ∀ event ∈ store.events, afterSequence < event.sequence → event ∉ page → ∀ earlier ∈ page, earlier.sequence < event.sequence := by
  rw [listEvents_eq sound] at isPage
  have ordered : (store.events.filter fun event => afterSequence < event.sequence).Pairwise fun a b => a.sequence < b.sequence :=
    (sequences_ordered sound).sublist filter_sublist
  subst isPage
  refine ⟨?_,ordered.sublist (take_sublist _ _),?_⟩
  · intro event member
    simpa using mem_filter.mp (mem_of_mem_take member)
  · intro event member later absent earlier isEarlier
    have listed : event ∈ store.events.filter fun event => afterSequence < event.sequence :=
      mem_filter.mpr ⟨member,by simpa using later⟩
    rw [← take_append_drop (boundedLimit limit) (store.events.filter _),mem_append] at listed
    rw [← take_append_drop (boundedLimit limit) (store.events.filter _),pairwise_append] at ordered
    exact ordered.2.2 earlier isEarlier event (listed.resolve_left absent)

theorem read_afterSequence {reader : Reader} {page : List Event} (ordered : page.Pairwise fun a b => a.sequence < b.sequence)
    (later : ∀ event ∈ page, reader.afterSequence < event.sequence) :
    reader.afterSequence ≤ (reader.read page).afterSequence ∧
      (∀ event ∈ page, event.sequence ≤ (reader.read page).afterSequence) ∧
      ((reader.read page).afterSequence = reader.afterSequence ∨
        ∃ event ∈ page, (reader.read page).afterSequence = event.sequence) := by
  rcases eq_nil_or_concat page with rfl | ⟨front,last,rfl⟩
  · exact ⟨Nat.le_refl _,fun _ member => absurd member not_mem_nil,.inl rfl⟩
  · have position : (reader.read (front ++ [last])).afterSequence = last.sequence := by simp [Reader.read]
    have isLast : last ∈ front ++ [last] := by simp
    rw [concat_eq_append] at *
    rw [position]
    refine ⟨Nat.le_of_lt (later last isLast),?_,.inr ⟨last,isLast,rfl⟩⟩
    intro event member
    rcases mem_append.mp member with inFront | same
    · exact Nat.le_of_lt ((pairwise_append.mp ordered).2.2 event inFront last mem_cons_self)
    · rw [mem_singleton.mp same]

variable {next : Store calls readers}

theorem page_keeps (sound : Sound store) (faithful : Faithful store)
    (r : Fin readers) (limit : Nat) (stepped : step repository store (.page r limit) = some next) :
    Sound next ∧ Faithful next := by
  simp only [step,Option.some.injEq] at stepped
  generalize isPage : listEvents repository store.events (store.reader r).afterSequence limit = page at stepped
  obtain ⟨inside,ordered,after⟩ := listEvents_page sound isPage
  obtain ⟨further,passed,position⟩ := read_afterSequence ordered fun event member => (inside event member).2
  obtain ⟨behind,seen⟩ := sound.behind r
  subst stepped
  constructor
  · refine ⟨sound.given,sound.placed,sound.ordered,sound.read,?_⟩
    intro other
    simp only [update_apply]
    split
    · constructor
      · rcases position with same | ⟨event,member,same⟩
        · rw [same]
          exact behind
        · rw [same]
          obtain ⟨placed,below⟩ := sound.placed event (inside event member).1
          omega
      · intro id member
        rcases mem_append.mp member with old | new
        · exact Nat.lt_of_lt_of_le (seen id old) further
        · obtain ⟨event,isEvent,rfl⟩ := mem_map.mp new
          have placed := (sound.placed event (inside event isEvent).1).1
          have bound := passed event isEvent
          omega
    · exact sound.behind other
  · refine ⟨faithful.increasing,?_,?_⟩
    · intro other
      simp only [update_apply]
      split
      · refine nodup_append.mpr ⟨faithful.once r,?_,?_⟩
        · refine pairwise_map.mpr (ordered.imp_of_mem ?_)
          intro a b isA isB before same
          rw [(sound.placed a (inside a isA).1).1,(sound.placed b (inside b isB).1).1,same] at before
          exact Nat.lt_irrefl _ before
        · intro id old id' new same
          obtain ⟨event,isEvent,rfl⟩ := mem_map.mp new
          have low := seen id old
          obtain ⟨isInside,later⟩ := inside event isEvent
          have placed := (sound.placed event isInside).1
          omega
      · exact faithful.once other
    · intro other event member
      simp only [update_apply]
      split
      · intro since unseen
        simp only [Reader.read,mem_append,not_or] at unseen
        have later := faithful.complete r event member since unseen.1
        have absent : event ∉ page := fun isPage => unseen.2 (mem_map_of_mem isPage)
        rcases position with same | ⟨earlier,isEarlier,same⟩
        · rw [same]
          exact later
        · rw [same]
          exact after event member later absent earlier isEarlier
      · exact faithful.complete other event member

theorem begin_keeps (sound : Sound store) (faithful : Faithful store)
    (r : Fin readers) (since : Nat) (stepped : step repository store (.begin r since) = some next) :
    Sound next ∧ Faithful next := by
  simp only [step] at stepped
  split at stepped <;> cases stepped
  rename_i bounded
  have position : ((store.given.take since).getLast?).getD 0 = since := by
    rw [getLast?_take]
    cases since with
    | zero => rfl
    | succ since =>
      have place : store.given[since]? = some (since + 1) := by
        rw [sound.given,getElem?_range' (by omega)]
        simp [Nat.add_comm]
      simp [place]
  constructor
  · refine ⟨sound.given,sound.placed,sound.ordered,sound.read,?_⟩
    intro other
    simp only [update_apply]
    split
    · exact ⟨Nat.le_trans (Nat.le_of_eq position) bounded,fun _ member => absurd member not_mem_nil⟩
    · exact sound.behind other
  · refine ⟨faithful.increasing,?_,?_⟩
    · intro other
      simp only [update_apply]
      split
      · exact nodup_nil
      · exact faithful.once other
    · intro other event member
      simp only [update_apply]
      split
      · intro after _
        have placed := (sound.placed event member).1
        simp only [position] at after ⊢
        omega
      · exact faithful.complete other event member

theorem sound_put (sound : Sound store) (c : Fin calls) (call : Call)
    (bounded : ∀ sequence inputs createdAt, call = .appending sequence inputs createdAt →
      0 < sequence ∧ sequence ≤ store.given.length + 1) : Sound (store.put c call) := by
  refine ⟨sound.given,sound.placed,sound.ordered,?_,sound.behind⟩
  intro d sequence inputs createdAt phase
  simp only [Store.put,update_apply] at phase
  split at phase
  · exact bounded sequence inputs createdAt phase
  · exact sound.read d sequence inputs createdAt phase

theorem faithful_put {call : Call} : Faithful (store.put c call) ↔ Faithful store :=
  ⟨fun after => ⟨after.increasing,after.once,after.complete⟩,fun before => ⟨before.increasing,before.once,before.complete⟩⟩

theorem sound_step {label : Label calls readers}
    (sound : Sound store) (faithful : Faithful store) (final : NumbersFinal repository store label)
    (stepped : step repository store label = some next) : Sound next := by
  have after := final next stepped
  cases label with
  | tick amount =>
    cases stepped
    exact ⟨sound.given,sound.placed,sound.ordered,sound.read,sound.behind⟩
  | append inputs =>
    simp only [step] at stepped
    split at stepped <;> cases stepped
    by_cases all : ∀ input ∈ inputs, known store.events input
    · rw [appendLocked_known all]
      exact sound
    · rcases Nat.lt_or_ge store.events.length store.given.length with fewer | full
      · exact absurd after.increasing (append_repeats sound all fewer)
      · exact (append_sound sound faithful (Nat.le_antisymm (events_length sound) full) inputs).1
  | load c inputs =>
    simp only [step] at stepped
    split at stepped <;> cases stepped
    refine sound_put sound c _ ?_
    intro sequence waiting createdAt same
    cases same
    refine ⟨Nat.succ_pos _,Nat.succ_le_succ (lastSequence_le ?_)⟩
    intro event member
    obtain ⟨placed,below⟩ := sound.placed event member
    omega
  | commit c =>
    simp only [step] at stepped
    split at stepped
    · cases stepped
    · rename_i sequence inputs createdAt phase
      cases stepped
      have idle : ∀ sequence inputs createdAt, Call.idle = .appending sequence inputs createdAt →
          0 < sequence ∧ sequence ≤ (insert store sequence inputs createdAt).given.length + 1 := by
        intro _ _ _ same
        cases same
      refine sound_put ?_ c .idle (by intro _ _ _ same; cases same)
      obtain ⟨positive,bounded⟩ := sound.read c sequence inputs createdAt phase
      have kept := (insert_faithful_iff sound faithful phase).mp (faithful_put.mp after)
      by_cases isUnique : unique (store.events ++ numbered store.given.length sequence createdAt inputs)
      · have written : insert store sequence inputs createdAt = extend store sequence inputs createdAt := by
          simp only [insert,isUnique,if_true]
          rfl
        rw [written]
        by_cases empty : inputs = []
        · subst empty
          have same : extend store sequence [] createdAt = store := by simp [extend,numbered]
          rwa [same]
        · have present := (kept.resolve_left empty).resolve_left (fun conflict => conflict isUnique)
          have isNext : sequence = store.given.length + 1 := by
            by_contra other
            have given : sequence ∈ store.given := by
              rw [sound.given,mem_range'_1]
              omega
            exact not_unique empty (present sequence given (Nat.le_refl _)) isUnique
          rw [isNext]
          exact extend_sound sound inputs createdAt
      · have same : insert store sequence inputs createdAt = store := if_neg isUnique
        rwa [same]
    · cases stepped
      exact sound_put (remove_sound sound _) c .idle (by intro _ _ _ same; cases same)
  | cleanup cutoff maxSamples =>
    simp only [step] at stepped
    split at stepped <;> cases stepped
    exact remove_sound sound _
  | select c cutoff maxSamples =>
    simp only [step] at stepped
    split at stepped <;> cases stepped
    exact sound_put sound c _ (by intro _ _ _ same; cases same)
  | begin r since => exact (begin_keeps sound faithful r since stepped).1
  | page r limit => exact (page_keeps sound faithful r limit stepped).1

theorem numbers_step_iff (sound : Sound store) (faithful : Faithful store) (label : Label calls readers) :
    NumbersFinal repository store label ↔ Unexpired repository store label := by
  cases label with
  | tick amount =>
    refine iff_of_true ?_ trivial
    intro next stepped
    cases stepped
    exact ⟨faithful.increasing,faithful.once,faithful.complete⟩
  | append inputs =>
    cases repository with
    | sql =>
      refine iff_of_true ?_ ?_
      · intro next stepped
        cases stepped
      · intro isMemory
        cases isMemory
    | memory =>
      constructor
      · intro final _
        by_cases all : ∀ input ∈ inputs, known store.events input
        · exact .inl all
        · rcases Nat.lt_or_ge store.events.length store.given.length with fewer | full
          · exact absurd (final _ rfl).increasing (append_repeats sound all fewer)
          · exact .inr (Nat.le_antisymm (events_length sound) full)
      · intro unexpired next stepped
        cases stepped
        rcases unexpired rfl with all | full
        · rw [appendLocked_known all]
          exact faithful
        · exact (append_sound sound faithful full inputs).2
  | load c inputs =>
    refine iff_of_true ?_ trivial
    intro next stepped
    simp only [step] at stepped
    split at stepped <;> cases stepped
    exact faithful_put.mpr faithful
  | commit c =>
    simp only [NumbersFinal,step,Unexpired]
    cases phase : store.call c with
    | idle => simp
    | appending sequence inputs createdAt =>
      simp only [Option.some_inj,forall_eq',faithful_put]
      exact insert_faithful_iff sound faithful phase
    | cleaning ids =>
      simp only [Option.some_inj,forall_eq',faithful_put]
      exact iff_of_true (remove_faithful faithful ids) trivial
  | cleanup cutoff maxSamples =>
    refine iff_of_true ?_ trivial
    intro next stepped
    simp only [step] at stepped
    split at stepped <;> cases stepped
    exact remove_faithful faithful _
  | select c cutoff maxSamples =>
    refine iff_of_true ?_ trivial
    intro next stepped
    simp only [step] at stepped
    split at stepped <;> cases stepped
    exact faithful_put.mpr faithful
  | begin r since => exact iff_of_true (fun next stepped => (begin_keeps sound faithful r since stepped).2) trivial
  | page r limit => exact iff_of_true (fun next stepped => (page_keeps sound faithful r limit stepped).2) trivial

theorem sound_initial : Sound (initial calls readers) where
  given := rfl
  placed _ member := absurd member not_mem_nil
  ordered := List.Pairwise.nil
  read _ _ _ _ same := by cases same
  behind _ := ⟨Nat.le_refl _,fun _ member => absurd member not_mem_nil⟩
theorem faithful_initial : Faithful (initial calls readers) where
  increasing := List.Pairwise.nil
  once _ := nodup_nil
  complete _ _ member := absurd member not_mem_nil

/-- In every run the numbers identify the events for ever, exactly if no number is given
    that belonged to an event that was cleaned up. -/
theorem numbers_final_iff (repository : Repository) (labels : List (Label calls readers)) :
    Meets (step repository) (NumbersFinal repository) (initial calls readers) labels ↔
      Meets (step repository) (Unexpired repository) (initial calls readers) labels := by
  refine @meets_iff _ _ _ _ (fun store => Sound store ∧ Faithful store) _ ?_ ?_ _ ⟨sound_initial,faithful_initial⟩ labels
  · rintro store label next ⟨sound,faithful⟩ final stepped
    exact ⟨sound_step sound faithful final stepped,final next stepped⟩
  · rintro store label ⟨sound,faithful⟩
    exact numbers_step_iff sound faithful label

local instance oneCall : @NeZero Nat Zero.ofOfNat0 1 := @NeZero.mk Nat Zero.ofOfNat0 1 (Nat.succ_ne_zero 0)

def signalAfterCleanup : List (Label 0 0) := [.append [⟨true,none⟩,⟨false,none⟩],.cleanup 0 0,.append [⟨false,none⟩]]
def heartbeatCleanedUp : List (Label 1 0) :=
  [.load 0 [⟨true,none⟩],.commit 0,.select 0 0 0,.commit 0,.load 0 [⟨false,none⟩],.commit 0]
theorem run_increasing {labels : List (Label calls readers)}
    (final : Meets (step repository) (NumbersFinal repository) (initial calls readers) labels)
    (reached : run (step repository) (initial calls readers) labels = some store) : store.given.Pairwise (· < ·) :=
  (run_keeps (fun _ _ next _ stays stepped => stays next stepped) faithful_initial final reached).increasing

/-- In memory the second signal gets the number of the first, in the SQL table that of
    the heartbeat. -/
theorem numbers_not_final :
    (¬ ∀ (calls readers : Nat) (labels : List (Label calls readers)),
      Meets (step .memory) (NumbersFinal .memory) (initial calls readers) labels) ∧
    ¬ ∀ (calls readers : Nat) (labels : List (Label calls readers)),
      Meets (step .sql) (NumbersFinal .sql) (initial calls readers) labels := by
  constructor
  · intro always
    obtain ⟨store,reached,repeated⟩ : ∃ store, run (step .memory) (initial 0 0) signalAfterCleanup = some store ∧
        ¬ store.given.Pairwise (· < ·) := ⟨_,rfl,by decide⟩
    exact repeated (run_increasing (always 0 0 signalAfterCleanup) reached)
  · intro always
    obtain ⟨store,reached,repeated⟩ : ∃ store, run (step .sql) (initial 1 0) heartbeatCleanedUp = some store ∧
        ¬ store.given.Pairwise (· < ·) := ⟨_,rfl,by decide⟩
    exact repeated (run_increasing (always 1 0 heartbeatCleanedUp) reached)

end Codebot.RuntimeEvents
