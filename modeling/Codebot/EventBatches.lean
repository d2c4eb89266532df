import Codebot.Peaks
import Mathlib.Data.List.Nodup

/-!
Batches of events that the worker of a runtime appends. The in-memory repository appends one event after the other,
each of which the next one finds; the SQL repository looks all keys up in the table as it is, so that a new key that
comes twice breaks the constraint (`batchesAlike_iff`).
-/
namespace Codebot.EventBatches
open List

structure Runtime where
  id : Nat
  ownerUserId : Nat
  workspaceId : Nat
  workerId : Option Nat
deriving DecidableEq

variable {Kind Key Payload : Type}
structure EventInput (Kind Key Payload : Type) where
  type : Kind
  payload : Option Payload
  idempotencyKey : Option Key
deriving DecidableEq

/-- An event of a runtime. The opaque ids are numbered as they are drawn. -/
structure RuntimeEvent (Kind Key Payload : Type) extends EventInput Kind Key Payload where
  id : Nat
  runtimeId : Nat
  ownerUserId : Nat
  workspaceId : Nat
  sequence : Nat
  createdAt : Int
deriving DecidableEq

def made (runtime : Runtime) (id sequence : Nat) (now : Int) (input : EventInput Kind Key Payload) : RuntimeEvent Kind Key Payload :=
  { input with id, runtimeId := runtime.id, ownerUserId := runtime.ownerUserId, workspaceId := runtime.workspaceId, sequence, createdAt := now }
def lastSequence (events : List (RuntimeEvent Kind Key Payload)) : Nat := events.foldl (fun largest event => max largest event.sequence) 0
def keys (events : List (RuntimeEvent Kind Key Payload)) : List Key := events.filterMap (·.idempotencyKey)
/-- The unique constraints of the events of a runtime. -/
structure Unique (events : List (RuntimeEvent Kind Key Payload)) : Prop where
  sequences : (events.map (·.sequence)).Nodup
  keys : (keys events).Nodup

variable [DecidableEq Key]
instance (events : List (RuntimeEvent Kind Key Payload)) : Decidable (Unique events) :=
  decidable_of_iff ((events.map (·.sequence)).Nodup ∧ (keys events).Nodup) ⟨fun both => ⟨both.1,both.2⟩,fun unique => ⟨unique.sequences,unique.keys⟩⟩
/-- The event of a key that is given. -/
def existing (events : List (RuntimeEvent Kind Key Payload)) (key : Option Key) : Option (RuntimeEvent Kind Key Payload) :=
  key.bind fun key => events.find? fun event => event.idempotencyKey == some key
/-- What a call returns, and the events of the runtime after it. -/
structure Answer (Kind Key Payload : Type) where
  returned : Option (List (RuntimeEvent Kind Key Payload))
  stored : List (RuntimeEvent Kind Key Payload)
deriving DecidableEq

/-- `_append_nautilus_runtime_event_locked`, for one input after the other: the events, and the list after them. -/
def appendLocked (runtime : Runtime) (now : Int) : Nat → List (RuntimeEvent Kind Key Payload) → List (EventInput Kind Key Payload) →
    List (RuntimeEvent Kind Key Payload) × List (RuntimeEvent Kind Key Payload)
  | _,stored,[] => ([],stored)
  | id,stored,input :: rest =>
    match existing stored input.idempotencyKey with
    | some event => (event :: (appendLocked runtime now id stored rest).1,(appendLocked runtime now id stored rest).2)
    | none =>
      let event := made runtime id (stored.length + 1) now input
      (event :: (appendLocked runtime now (id + 1) (stored ++ [event]) rest).1,(appendLocked runtime now (id + 1) (stored ++ [event]) rest).2)

def leased (runtime : Option Runtime) (workerId : Nat) : Option Runtime :=
  runtime.filter fun runtime => runtime.workerId == some workerId
/-- When a call or an attempt is made, and the next id. -/
structure Moment where
  now : Int
  id : Nat

/-- `append_nautilus_runtime_events_for_worker` in memory. -/
def appendInMemory (runtime : Option Runtime) (workerId : Nat) (moment : Moment) (stored : List (RuntimeEvent Kind Key Payload))
    (events : List (EventInput Kind Key Payload)) : Answer Kind Key Payload :=
  match leased runtime workerId with
  | none => ⟨none,stored⟩
  | some runtime =>
    let appended := appendLocked runtime moment.now moment.id stored events
    ⟨some appended.1,appended.2⟩

/-- The records of a session, and those of them that it adds. The table is read as it was. -/
def records (runtime : Runtime) (now : Int) (stored : List (RuntimeEvent Kind Key Payload)) : Nat → Nat → List (EventInput Kind Key Payload) →
    List (RuntimeEvent Kind Key Payload) × List (RuntimeEvent Kind Key Payload)
  | _,_,[] => ([],[])
  | id,nextSequence,input :: rest =>
    match existing stored input.idempotencyKey with
    | some event => (event :: (records runtime now stored id nextSequence rest).1,(records runtime now stored id nextSequence rest).2)
    | none =>
      let event := made runtime id nextSequence now input
      (event :: (records runtime now stored (id + 1) (nextSequence + 1) rest).1,
        event :: (records runtime now stored (id + 1) (nextSequence + 1) rest).2)

/-- A session that commits, or breaks a constraint. -/
def attempt (runtime : Runtime) (stored : List (RuntimeEvent Kind Key Payload)) (events : List (EventInput Kind Key Payload)) (moment : Moment) :
    Option (Answer Kind Key Payload) :=
  let session := records runtime moment.now stored moment.id (lastSequence stored + 1) events
  if Unique (stored ++ session.2) then some ⟨some session.1,stored ++ session.2⟩ else none
/-- `append_nautilus_runtime_events_for_worker` in SQL: three attempts. -/
def appendInSql (runtime : Option Runtime) (workerId : Nat) (moments : Fin 3 → Moment) (stored : List (RuntimeEvent Kind Key Payload))
    (events : List (EventInput Kind Key Payload)) : Answer Kind Key Payload :=
  match leased runtime workerId with
  | none => ⟨none,stored⟩
  | some runtime => ([moments 0,moments 1,moments 2].findSome? (attempt runtime stored events)).getD ⟨none,stored⟩
/-- The first input of each key that is not among these, and each input without a key. -/
def firsts : List Key → List (EventInput Kind Key Payload) → List (EventInput Kind Key Payload)
  | _,[] => []
  | known,input :: rest =>
    match input.idempotencyKey with
    | none => input :: firsts known rest
    | some key => if key ∈ known then firsts known rest else input :: firsts (known ++ [key]) rest
/-- Both answer and store alike, and of a batch that is taken the first event of every new key is stored. -/
structure Alike (before : List (RuntimeEvent Kind Key Payload)) (events : List (EventInput Kind Key Payload)) (sql memory : Answer Kind Key Payload) :
    Prop where
  returned : sql.returned = memory.returned
  stored : sql.stored = memory.stored
  news : memory.returned.isSome →
    sql.stored.map (·.toEventInput) = before.map (·.toEventInput) ++ firsts (keys before) events
/-- The inputs that no stored event answers. -/
def fresh (stored : List (RuntimeEvent Kind Key Payload)) (events : List (EventInput Kind Key Payload)) : List (EventInput Kind Key Payload) :=
  events.filter fun input => (existing stored input.idempotencyKey).isNone
def freshKeys (stored : List (RuntimeEvent Kind Key Payload)) (events : List (EventInput Kind Key Payload)) : List Key :=
  (fresh stored events).filterMap (·.idempotencyKey)
def Once (stored : List (RuntimeEvent Kind Key Payload)) (events : List (EventInput Kind Key Payload)) : Prop := (freshKeys stored events).Nodup
instance (stored : List (RuntimeEvent Kind Key Payload)) (events : List (EventInput Kind Key Payload)) : Decidable (Once stored events) :=
  inferInstanceAs (Decidable (freshKeys stored events).Nodup)

variable {stored done : List (RuntimeEvent Kind Key Payload)} {events : List (EventInput Kind Key Payload)} {runtime : Runtime} {now : Int}

omit [DecidableEq Key] in
theorem le_lastSequence {event : RuntimeEvent Kind Key Payload} (member : event ∈ stored) : event.sequence ≤ lastSequence stored := by
  have folded : lastSequence stored = (stored.map (·.sequence)).foldl max 0 := (foldl_map ..).symm
  rw [folded]
  exact Peaks.le_foldl_max (mem_map_of_mem member)

omit [DecidableEq Key] in
@[simp] theorem keys_append (events others : List (RuntimeEvent Kind Key Payload)) : keys (events ++ others) = keys events ++ keys others :=
  filterMap_append ..

theorem existing_isNone {key : Option Key} : (existing stored key).isNone ↔ ∀ given ∈ key, given ∉ keys stored := by
  cases key with
  | none => simp [existing]
  | some key => simp [existing,keys]

theorem existing_append {key : Option Key} (apart : ∀ given ∈ key, given ∉ keys done) :
    existing (stored ++ done) key = existing stored key := by
  cases key with
  | none => rfl
  | some key =>
    have missed : done.find? (fun event => event.idempotencyKey == some key) = none := by
      apply find?_eq_none.mpr
      intro event member found
      exact apart key rfl (mem_filterMap.mpr ⟨event,member,eq_of_beq found⟩)
    simp [existing,find?_append,missed]

theorem mem_freshKeys {key : Key} : key ∈ freshKeys stored events ↔ key ∉ keys stored ∧ some key ∈ events.map (·.idempotencyKey) := by
  simp only [freshKeys,fresh,mem_filterMap,mem_filter,mem_map,existing_isNone]
  constructor
  · rintro ⟨input,⟨member,apart⟩,isKey⟩
    exact ⟨apart key isKey,input,member,isKey⟩
  · rintro ⟨apart,input,member,isKey⟩
    refine ⟨input,⟨member,?_⟩,isKey⟩
    intro given isGiven
    rw [isKey,Option.mem_some_iff] at isGiven
    exact isGiven ▸ apart

theorem fresh_cons (input : EventInput Kind Key Payload) : fresh stored (input :: events) =
    if (existing stored input.idempotencyKey).isNone then input :: fresh stored events else fresh stored events :=
  filter_cons ..

variable (stored runtime now) in
theorem records_added (id next : Nat) (events : List (EventInput Kind Key Payload)) :
    (records runtime now stored id next events).2.map (·.toEventInput) = fresh stored events ∧
      (records runtime now stored id next events).2.map (·.sequence) = List.range' next (records runtime now stored id next events).2.length := by
  induction events generalizing id next with
  | nil => exact ⟨rfl,rfl⟩
  | cons input rest ih =>
    rw [fresh_cons,records]
    cases found : existing stored input.idempotencyKey with
    | some event => exact ih id next
    | none =>
      obtain ⟨inputs,sequences⟩ := ih (id + 1) (next + 1)
      refine ⟨?_,?_⟩
      · simp [inputs,made]
      · simp [sequences,made,range'_succ]

variable (stored runtime now) in
theorem keys_records (id next : Nat) (events : List (EventInput Kind Key Payload)) :
    keys (records runtime now stored id next events).2 = freshKeys stored events := by
  rw [freshKeys,← (records_added stored runtime now id next events).1,filterMap_map]
  rfl

theorem unique_iff (unique : Unique stored) (id : Nat) (events : List (EventInput Kind Key Payload)) :
    Unique (stored ++ (records runtime now stored id (lastSequence stored + 1) events).2) ↔ Once stored events := by
  have names := keys_records stored runtime now id (lastSequence stored + 1) events
  constructor
  · intro committed
    have nodup := committed.keys
    rw [keys_append,names] at nodup
    exact (nodup_append.mp nodup).2.1
  · intro once
    refine ⟨?_,?_⟩
    · rw [map_append,(records_added ..).2]
      refine List.Nodup.append unique.sequences nodup_range' ?_
      intro sequence isStored isNew
      obtain ⟨event,member,rfl⟩ := mem_map.mp isStored
      have small := le_lastSequence member
      have large := (mem_range'_1.mp isNew).1
      omega
    · rw [keys_append,names]
      refine List.Nodup.append unique.keys once ?_
      intro key isStored isFresh
      exact (mem_freshKeys.mp isFresh).1 isStored

variable (stored runtime now) in
theorem records_same_iff (id next other : Nat) (events : List (EventInput Kind Key Payload)) :
    records runtime now stored id next events = records runtime now stored id other events ↔ fresh stored events = [] ∨ next = other := by
  constructor
  · intro same
    by_cases none : fresh stored events = []
    · exact .inl none
    · have inputs := (records_added stored runtime now id next events).1
      have sequences := (records_added stored runtime now id next events).2
      have others := (records_added stored runtime now id other events).2
      rw [same] at inputs sequences
      rw [sequences] at others
      obtain ⟨count,isCount⟩ : ∃ count, (records runtime now stored id other events).2.length = count + 1 := by
        apply Nat.exists_eq_succ_of_ne_zero
        intro isEmpty
        rw [← inputs,eq_nil_of_length_eq_zero isEmpty] at none
        exact none rfl
      rw [isCount,range'_succ,range'_succ] at others
      exact .inr (List.cons.inj others).1
  · rintro (none | rfl)
    · induction events with
      | nil => rfl
      | cons input rest ih =>
        rw [fresh_cons] at none
        split at none
        · cases none
        · rename_i answered
          rw [records,records]
          cases found : existing stored input.idempotencyKey with
          | some event => simp [ih none]
          | none => exact absurd (found ▸ rfl) answered
    · rfl

omit [DecidableEq Key] in
theorem keys_made (id next : Nat) (input : EventInput Kind Key Payload) :
    keys [made runtime id next now input] = input.idempotencyKey.toList := by
  cases given : input.idempotencyKey <;> simp [keys,made,given]

theorem freshKeys_cons {input : EventInput Kind Key Payload} (new : existing stored input.idempotencyKey = none) :
    freshKeys stored (input :: events) = input.idempotencyKey.toList ++ freshKeys stored events := by
  rw [freshKeys,fresh_cons,new,Option.isNone_none,if_pos rfl]
  cases given : input.idempotencyKey <;> simp [given,freshKeys]

theorem appendLocked_news (runtime : Runtime) (now : Int) (id : Nat) (stored : List (RuntimeEvent Kind Key Payload)) (events : List (EventInput Kind Key Payload)) :
    (appendLocked runtime now id stored events).2.map (·.toEventInput) =
      stored.map (·.toEventInput) ++ firsts (keys stored) events := by
  induction events generalizing id stored with
  | nil => exact (append_nil _).symm
  | cons input rest ih =>
    rw [appendLocked,firsts]
    cases found : existing stored input.idempotencyKey with
    | some event =>
      cases given : input.idempotencyKey with
      | none =>
        rw [given] at found
        cases found
      | some key =>
        have known : key ∈ keys stored := by
          by_contra apart
          have none : (existing stored input.idempotencyKey).isNone := by
            rw [existing_isNone,given]
            intro other isKey
            exact Option.mem_some_iff.mp isKey ▸ apart
          rw [found] at none
          cases none
        dsimp only
        rw [if_pos known,ih]
    | none =>
      have apart := existing_isNone.mp (Option.isNone_iff_eq_none.mpr found)
      dsimp only
      rw [ih,map_append,keys_append,keys_made,append_assoc]
      cases given : input.idempotencyKey with
      | none => simp [made]
      | some key =>
        rw [given] at apart
        dsimp only
        rw [if_neg (apart key rfl)]
        simp [made]

theorem appendLocked_records (id : Nat) (once : Once stored events) (apart : ∀ key ∈ keys done, key ∉ freshKeys stored events) :
    appendLocked runtime now id (stored ++ done) events =
      ((records runtime now stored id ((stored ++ done).length + 1) events).1,
        stored ++ done ++ (records runtime now stored id ((stored ++ done).length + 1) events).2) := by
  induction events generalizing id done with
  | nil => simp [appendLocked,records]
  | cons input rest ih =>
    rw [appendLocked,records]
    cases found : existing stored input.idempotencyKey with
    | some event =>
      have also : existing (stored ++ done) input.idempotencyKey = some event := by
        cases given : input.idempotencyKey with
        | none =>
          rw [given] at found
          cases found
        | some key =>
          rw [given] at found
          simp only [existing,Option.bind_some] at found
          simp [existing,find?_append,found]
      have same : freshKeys stored (input :: rest) = freshKeys stored rest := by
        rw [freshKeys,fresh_cons,found]
        rfl
      rw [Once,same] at once
      rw [same] at apart
      rw [also]
      dsimp only
      rw [ih id once apart]
    | none =>
      have split : freshKeys stored (input :: rest) = _ := freshKeys_cons found
      rw [Once,split,nodup_append] at once
      rw [split] at apart
      have new : existing (stored ++ done) input.idempotencyKey = none := by
        rw [existing_append,found]
        intro key isKey isDone
        exact apart key isDone (mem_append_left _ (Option.mem_toList.mpr isKey))
      have later : ∀ key ∈ keys (done ++ [made runtime id ((stored ++ done).length + 1) now input]), key ∉ freshKeys stored rest := by
        intro key member isFresh
        rw [keys_append,keys_made,mem_append] at member
        rcases member with isDone | isKey
        · exact apart key isDone (mem_append_right _ isFresh)
        · exact once.2.2 key isKey key isFresh rfl
      have next := ih (id + 1) once.2.1 later
      rw [← append_assoc,@List.length_append _ (stored ++ done),length_singleton] at next
      rw [new]
      dsimp only
      rw [next,append_assoc (stored ++ done)]
      rfl

theorem appendLocked_once (runtime : Runtime) (now : Int) (id : Nat) (once : Once stored events) :
    appendLocked runtime now id stored events =
      ((records runtime now stored id (stored.length + 1) events).1,
        stored ++ (records runtime now stored id (stored.length + 1) events).2) := by
  have none : ∀ key ∈ keys ([] : List (RuntimeEvent Kind Key Payload)), key ∉ freshKeys stored events := nofun
  have whole := @appendLocked_records _ _ _ _ stored [] events runtime now id once none
  rwa [append_nil] at whole

section Repositories
variable {holder : Option Runtime} {workerId : Nat} {moments : Fin 3 → Moment}

theorem appendInMemory_taken (taken : leased holder workerId = some runtime) (once : Once stored events) (moment : Moment) :
    appendInMemory holder workerId moment stored events =
      ⟨some (records runtime moment.now stored moment.id (stored.length + 1) events).1,
        stored ++ (records runtime moment.now stored moment.id (stored.length + 1) events).2⟩ := by
  have whole := appendLocked_once runtime moment.now moment.id once
  rw [appendInMemory,taken]
  dsimp only
  rw [whole]

theorem appendInSql_taken (unique : Unique stored) (taken : leased holder workerId = some runtime) :
    appendInSql holder workerId moments stored events =
      if Once stored events then
        ⟨some (records runtime (moments 0).now stored (moments 0).id (lastSequence stored + 1) events).1,
          stored ++ (records runtime (moments 0).now stored (moments 0).id (lastSequence stored + 1) events).2⟩
      else ⟨none,stored⟩ := by
  have attempted : ∀ moment, attempt runtime stored events moment =
      if Once stored events then
        some ⟨some (records runtime moment.now stored moment.id (lastSequence stored + 1) events).1,
          stored ++ (records runtime moment.now stored moment.id (lastSequence stored + 1) events).2⟩
      else none := by
    intro moment
    rw [attempt]
    simp only [unique_iff unique]
  rw [appendInSql,taken]
  dsimp only
  by_cases once : Once stored events
  · rw [findSome?_cons,attempted,if_pos once,if_pos once]
    rfl
  · simp [attempted,if_neg once]

/-- The repositories store a batch alike exactly if the worker does not have the runtime, or no new key comes twice, and
    the numbers are those of the events. -/
theorem batchesAlike_iff (unique : Unique stored) (holder : Option Runtime) (workerId : Nat) (moments : Fin 3 → Moment)
    (events : List (EventInput Kind Key Payload)) :
    Alike stored events (appendInSql holder workerId moments stored events)
        (appendInMemory holder workerId (moments 0) stored events) ↔
      leased holder workerId = none ∨ Once stored events ∧ (fresh stored events = [] ∨ lastSequence stored = stored.length) := by
  cases taken : leased holder workerId with
  | none =>
    rw [appendInSql,appendInMemory,taken]
    exact ⟨fun _ => .inl rfl,fun _ => ⟨rfl,rfl,nofun⟩⟩
  | some runtime =>
    rw [appendInSql_taken unique taken]
    by_cases once : Once stored events
    · rw [if_pos once,appendInMemory_taken taken once]
      have news := appendLocked_news runtime (moments 0).now (moments 0).id stored events
      rw [appendLocked_once runtime (moments 0).now (moments 0).id once] at news
      have same := records_same_iff stored runtime (moments 0).now (moments 0).id (lastSequence stored + 1) (stored.length + 1) events
      rw [Nat.succ_inj] at same
      constructor
      · intro alike
        exact .inr ⟨once,same.mp (Prod.ext (Option.some.inj alike.returned) (append_cancel_left alike.stored))⟩
      · rintro (nobody | ⟨_,numbers⟩)
        · cases nobody
        · rw [same.mpr numbers]
          exact ⟨rfl,rfl,fun _ => news⟩
    · rw [if_neg once,appendInMemory,taken]
      constructor
      · intro alike
        cases alike.returned
      · rintro (nobody | ⟨isOnce,_⟩)
        · cases nobody
        · exact absurd isOnce once

end Repositories

/-- A batch with a stored key and a new one. -/
theorem storedKey_alike :
    let runtime : Runtime := ⟨0,1,2,some 3⟩
    let input : EventInput Unit Nat Unit := ⟨(),none,some 7⟩
    let stored := (appendInMemory (some runtime) 3 ⟨4,0⟩ [] [input]).stored
    let events := [input,⟨(),none,some 8⟩,input]
    Unique stored ∧ Alike stored events (appendInSql (some runtime) 3 (fun _ => ⟨5,1⟩) stored events)
      (appendInMemory (some runtime) 3 ⟨5,1⟩ stored events) := by
  have unique : Unique (appendInMemory (some ⟨0,1,2,some 3⟩) 3 ⟨4,0⟩ [] [(⟨(),none,some 7⟩ : EventInput Unit Nat Unit)]).stored := by
    decide
  exact ⟨unique,(batchesAlike_iff unique (some ⟨0,1,2,some 3⟩) 3 (fun _ => ⟨5,1⟩) _).mpr (.inr (by decide))⟩

/-- A batch with a new key twice, in memory two events stored and three returned, is refused by the SQL repository with the event after them. -/
theorem repeatedKey_dropped :
    let runtime : Runtime := ⟨0,1,2,some 3⟩
    let input : EventInput Unit Nat Unit := ⟨(),none,some 7⟩
    let events := [input,input,⟨(),none,none⟩]
    let sql := appendInSql (some runtime) 3 (fun _ => ⟨5,0⟩) [] events
    let memory := appendInMemory (some runtime) 3 ⟨5,0⟩ [] events
    ¬ Alike [] events sql memory ∧ sql.returned = none ∧ sql.stored = [] ∧
      memory.stored = [made runtime 0 1 5 input,made runtime 1 2 5 ⟨(),none,none⟩] := by
  refine ⟨?_,by decide,by decide,by decide⟩
  intro alike
  exact absurd alike.returned (by decide)

end Codebot.EventBatches
