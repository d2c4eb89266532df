import Codebot.EventBatches
import Codebot.JsonTexts
import Codebot.NautilusRuntimes

/-!
Heartbeats of a runtime in the two repositories. Each call counts a heartbeat, also one with the key of an earlier
call. Where an event is due but stored already under the key, the in-memory repository takes the call for the last
event and the SQL repository does not (`alike_iff`).
-/
namespace Codebot.RuntimeHeartbeats
open Texts JsonTexts List
open NautilusRuntimes (RuntimeState EventType winding)
open EventBatches (Runtime RuntimeEvent made existing lastSequence keys Unique)

/-- A `dict`. -/
abbrev Payload := List (Text × Json)

variable {Key : Type}

/-- What a heartbeat reads and writes of the record of a runtime. Times are in microseconds. -/
structure Record where
  runtime : Runtime
  state : RuntimeState
  killSwitchActive : Bool
  lastHeartbeatAt : Option Int
  heartbeatCount : Nat
  heartbeatMetrics : Option Payload
  lastHeartbeatEventAt : Option Int
  updatedAt : Int

/-- The record and the events of the runtime. -/
structure Store (Key : Type) where
  record : Record
  events : List (RuntimeEvent EventType Key Payload)

/-- A call for the runtime, and the id that is drawn next. -/
structure Call (Key : Type) where
  userId : Nat
  workspaceId : Nat
  now : Int
  payload : Option Payload
  idempotencyKey : Option Key
  id : Nat

/-- `NautilusHeartbeatRecord`. -/
structure Heartbeat (Key : Type) where
  record : Record
  event : Option (RuntimeEvent EventType Key Payload)
  eventAppended : Bool
/-- `_is_nautilus_runtime_authorized`. -/
def authorized (call : Call Key) (record : Record) : Bool :=
  record.runtime.ownerUserId == call.userId && record.runtime.workspaceId == call.workspaceId

/-- `nautilus_runtime_state_from_heartbeat_payload`. A value that is not hashable raises. -/
def stateFromHeartbeatPayload (payload : Option Payload) : Except Unit RuntimeState :=
  match payload.bind fun payload => payload.lookup (text "metrics") with
  | some (.object metrics) =>
    match metrics.lookup (text "warmup_status") with
    | some (.text status) => if status = text "pending" ∨ status = text "warming_up" then .ok .warmingUp else .ok .running
    | some (.array _) => .error ()
    | some (.object _) => .error ()
    | _ => .ok .running
  | _ => .ok .running

/-- The state after the heartbeat. -/
def nextState (record : Record) (payload : Option Payload) : Except Unit RuntimeState :=
  if record.killSwitchActive then .ok (if winding record.state then record.state else .stopping)
  else stateFromHeartbeatPayload payload
/-- `NAUTILUS_HEARTBEAT_SAMPLE_INTERVAL`. -/
def sampleInterval : Int := 300000000
/-- `should_append_nautilus_heartbeat_event`. -/
def shouldAppend (record : Record) (next : RuntimeState) (now : Int) : Bool :=
  record.state != next || record.lastHeartbeatEventAt.all fun last => sampleInterval ≤ now - last

variable [DecidableEq Key]

/-- The event of a heartbeat under that number, and the events with it. -/
def append (call : Call Key) (sequence : Nat) (store : Store Key) :
    RuntimeEvent EventType Key Payload × List (RuntimeEvent EventType Key Payload) :=
  match existing store.events call.idempotencyKey with
  | some event => (event,store.events)
  | none =>
    let event := made store.record.runtime call.id sequence call.now ⟨.heartbeat,call.payload,call.idempotencyKey⟩
    (event,store.events ++ [event])

/-- The record after a heartbeat. -/
def beaten (call : Call Key) (state : RuntimeState) (lastHeartbeatEventAt : Option Int) (record : Record) : Record :=
  { record with
    state
    lastHeartbeatAt := some call.now
    heartbeatCount := record.heartbeatCount + 1
    heartbeatMetrics := call.payload
    lastHeartbeatEventAt
    updatedAt := call.now }

abbrev Outcome (Key : Type) := Except Unit (Option (Heartbeat Key)) × Store Key

/-- `record_nautilus_runtime_heartbeat` in memory. -/
def heartbeatInMemory (call : Call Key) (store : Store Key) : Outcome Key :=
  if authorized call store.record then
    match nextState store.record call.payload with
    | .error failure => (.error failure,store)
    | .ok state =>
      let due := shouldAppend store.record state call.now
      let appended := append call (store.events.length + 1) store
      let event := if due then some appended.1 else none
      let updated := beaten call state (if event.isSome then some call.now else store.record.lastHeartbeatEventAt) store.record
      let eventAppended := event.any (fun event => event.createdAt == call.now) && (state != store.record.state || due)
      (.ok (some ⟨updated,event,eventAppended⟩),⟨updated,if due then appended.2 else store.events⟩)
  else (.ok none,store)

/-- `record_nautilus_runtime_heartbeat` in SQL. -/
def heartbeatInSql (call : Call Key) (store : Store Key) : Outcome Key :=
  if authorized call store.record then
    match nextState store.record call.payload with
    | .error failure => (.error failure,store)
    | .ok state =>
      let due := shouldAppend store.record state call.now
      let appended := append call (lastSequence store.events + 1) store
      let event := if due then some appended.1 else none
      let eventAppended := event.any fun event => event.createdAt == call.now
      let updated := beaten call state (if eventAppended then some call.now else store.record.lastHeartbeatEventAt) store.record
      (.ok (some ⟨updated,event,eventAppended⟩),⟨updated,if due then appended.2 else store.events⟩)
  else (.ok none,store)

/-- What the calls return, one after the other, and the store after them. -/
def run (step : Call Key → Store Key → Outcome Key) : List (Call Key) → Store Key →
    List (Except Unit (Option (Heartbeat Key))) × Store Key
  | [],store => ([],store)
  | call :: rest,store => ((step call store).1 :: (run step rest (step call store).2).1,(run step rest (step call store).2).2)
def counts (record : Record) (call : Call Key) : Bool :=
  authorized call record && (record.killSwitchActive || (stateFromHeartbeatPayload call.payload).isOk)
/-- The keys that are heard, without repetition, and how many calls have no key or a new one. -/
def heard : List Key → List (Call Key) → Nat
  | _,[] => 0
  | known,call :: rest =>
    match call.idempotencyKey with
    | none => heard known rest + 1
    | some key => if key ∈ known then heard known rest else heard (key :: known) rest + 1

/-- After any of the calls the repositories have returned the same and hold the same, and a key that is
    not known counts one heartbeat and has one event at most. -/
def AlikeFrom (known : List Key) (store : Store Key) (calls : List (Call Key)) : Prop :=
  ∀ before, before <+: calls →
    run heartbeatInMemory before store = run heartbeatInSql before store ∧
      (run heartbeatInSql before store).2.record.heartbeatCount =
        store.record.heartbeatCount + heard known (before.filter (counts store.record)) ∧
      (keys (run heartbeatInSql before store).2.events).Nodup

def Alike (store : Store Key) (calls : List (Call Key)) : Prop := AlikeFrom [] store calls
/-- No earlier call had the key; and if an event is due, both repositories find it due and without its key. -/
def Single (store : Store Key) (known : List Key) (call : Call Key) : Prop :=
  (∀ key ∈ call.idempotencyKey, key ∉ known) ∧
    ∀ state, nextState store.record call.payload = .ok state → shouldAppend store.record state call.now →
      match existing store.events call.idempotencyKey with
      | some event => event.createdAt = call.now ∨ store.record.lastHeartbeatEventAt = some call.now
      | none => lastSequence store.events = store.events.length
/-- Each of the calls that counts is a single one. -/
def AllSingle : Store Key → List Key → List (Call Key) → Prop
  | _,_,[] => True
  | store,known,call :: rest =>
    if counts store.record call then
      Single store known call ∧ AllSingle (heartbeatInSql call store).2 (call.idempotencyKey.toList ++ known) rest
    else AllSingle store known rest

variable {store : Store Key} {call : Call Key} {known : List Key}

omit [DecidableEq Key] in
theorem counts_iff : counts store.record call ↔ authorized call store.record ∧ ∃ state, nextState store.record call.payload = .ok state := by
  rw [counts,nextState,Bool.and_eq_true,Bool.or_eq_true]
  by_cases active : store.record.killSwitchActive
  · simp [active]
  · cases read : stateFromHeartbeatPayload call.payload <;> simp [active,Except.isOk,Except.toBool]

theorem uncounted (ignored : counts store.record call = false) :
    heartbeatInMemory call store = heartbeatInSql call store ∧ (heartbeatInSql call store).2 = store := by
  rw [heartbeatInMemory,heartbeatInSql]
  by_cases allowed : authorized call store.record
  · rw [if_pos allowed,if_pos allowed]
    cases next : nextState store.record call.payload with
    | error failure => exact ⟨rfl,rfl⟩
    | ok state =>
      rw [counts_iff.mpr ⟨allowed,state,next⟩] at ignored
      cases ignored
  · rw [if_neg allowed,if_neg allowed]
    exact ⟨rfl,rfl⟩

theorem counted (isCounted : counts store.record call) :
    (heartbeatInSql call store).2.record.heartbeatCount = store.record.heartbeatCount + 1 ∧
      counts (heartbeatInSql call store).2.record = (counts store.record : Call Key → Bool) := by
  obtain ⟨allowed,state,next⟩ := counts_iff.mp isCounted
  rw [heartbeatInSql,if_pos allowed,next]
  exact ⟨rfl,rfl⟩

theorem keys_append_nodup (distinct : (keys store.events).Nodup) (sequence : Nat) : (keys (append call sequence store).2).Nodup := by
  rw [append]
  cases found : existing store.events call.idempotencyKey with
  | some event => exact distinct
  | none =>
    rw [EventBatches.keys_append,EventBatches.keys_made]
    refine List.Nodup.append distinct (Option.toList_nodup _) ?_
    intro key isStored isKey
    exact EventBatches.existing_isNone.mp (Option.isNone_iff_eq_none.mpr found) key (Option.mem_toList.mp isKey) isStored

theorem heartbeat_keys (distinct : (keys store.events).Nodup) : (keys (heartbeatInSql call store).2.events).Nodup := by
  rw [heartbeatInSql]
  split
  · cases nextState store.record call.payload with
    | error failure => exact distinct
    | ok state =>
      dsimp only
      split
      · exact keys_append_nodup distinct _
      · exact distinct
  · exact distinct

theorem heartbeat_same_iff (isCounted : counts store.record call) :
    heartbeatInMemory call store = heartbeatInSql call store ↔
      ∀ state, nextState store.record call.payload = .ok state → shouldAppend store.record state call.now →
        match existing store.events call.idempotencyKey with
        | some event => event.createdAt = call.now ∨ store.record.lastHeartbeatEventAt = some call.now
        | none => lastSequence store.events = store.events.length := by
  obtain ⟨allowed,state,next⟩ := counts_iff.mp isCounted
  have only : (∀ other, nextState store.record call.payload = .ok other → shouldAppend store.record other call.now →
        match existing store.events call.idempotencyKey with
        | some event => event.createdAt = call.now ∨ store.record.lastHeartbeatEventAt = some call.now
        | none => lastSequence store.events = store.events.length) ↔
      (shouldAppend store.record state call.now → match existing store.events call.idempotencyKey with
        | some event => event.createdAt = call.now ∨ store.record.lastHeartbeatEventAt = some call.now
        | none => lastSequence store.events = store.events.length) := by
    constructor
    · exact fun all => all state next
    · intro one other isOther
      rw [next] at isOther
      exact Except.ok.inj isOther ▸ one
  rw [only,heartbeatInMemory,heartbeatInSql,if_pos allowed,if_pos allowed,next]
  dsimp only
  cases due : shouldAppend store.record state call.now with
  | false => simp
  | true =>
    cases found : existing store.events call.idempotencyKey with
    | some event =>
      simp only [append,found,if_true,Option.isSome_some,Option.any_some,Bool.or_true,Bool.and_true,forall_const]
      by_cases now : event.createdAt = call.now
      · simp [now]
      · simp only [beq_false_of_ne now,Bool.false_eq_true,if_false,now,false_or]
        constructor
        · intro same
          have records := congrArg (fun outcome => outcome.2.record.lastHeartbeatEventAt) same
          exact records.symm
        · intro last
          rw [last]
    | none =>
      simp only [append,found,if_true,Option.isSome_some,Option.any_some,Bool.or_true,Bool.and_true,forall_const,made,beq_self_eq_true]
      constructor
      · intro same
        have events := congrArg (fun outcome => outcome.2.events) same
        have last := append_cancel_left events
        have sequences := congrArg RuntimeEvent.sequence (singleton_inj.mp last)
        exact (Nat.succ.inj sequences).symm
      · intro numbers
        rw [numbers]

variable {calls : List (Call Key)}

theorem heard_cons (call : Call Key) (rest : List (Call Key)) :
    heard known (call :: rest) =
      if ∀ key ∈ call.idempotencyKey, key ∉ known then heard (call.idempotencyKey.toList ++ known) rest + 1 else heard known rest := by
  rw [heard]
  cases call.idempotencyKey with
  | none => simp
  | some key =>
    by_cases isKnown : key ∈ known
    · simp [isKnown]
    · simp [isKnown]

theorem run_keys (distinct : (keys store.events).Nodup) (calls : List (Call Key)) :
    (keys (run heartbeatInSql calls store).2.events).Nodup := by
  induction calls generalizing store with
  | nil => exact distinct
  | cons call rest ih => exact ih (heartbeat_keys distinct)

theorem alikeFrom_uncounted (distinct : (keys store.events).Nodup) (ignored : counts store.record call = false) :
    AlikeFrom known store (call :: calls) ↔ AlikeFrom known store calls := by
  obtain ⟨same,kept⟩ := uncounted ignored
  have filtered : ∀ before : List (Call Key), (call :: before).filter (counts store.record) = before.filter (counts store.record) :=
    fun before => filter_cons_of_neg (by simp [ignored])
  constructor
  · intro alike before isPrefix
    obtain ⟨runs,count,_⟩ := alike (call :: before) ((prefix_cons_inj call).mpr isPrefix)
    rw [run,run,same,kept,Prod.mk.injEq] at runs
    rw [run,kept,filtered] at count
    exact ⟨Prod.ext (List.cons.inj runs.1).2 runs.2,count,run_keys distinct before⟩
  · intro alike before isPrefix
    rcases prefix_cons_iff.mp isPrefix with rfl | ⟨rest,rfl,isRest⟩
    · exact ⟨rfl,rfl,distinct⟩
    · obtain ⟨runs,count,_⟩ := alike rest isRest
      rw [run,run,same,kept,filtered,runs]
      exact ⟨rfl,count,run_keys distinct rest⟩

theorem alikeFrom_counted (distinct : (keys store.events).Nodup) (isCounted : counts store.record call) :
    AlikeFrom known store (call :: calls) ↔
      Single store known call ∧ AlikeFrom (call.idempotencyKey.toList ++ known) (heartbeatInSql call store).2 calls := by
  obtain ⟨count,whose⟩ := counted isCounted
  have filtered : ∀ before : List (Call Key),
      (call :: before).filter (counts store.record) = call :: before.filter (counts (heartbeatInSql call store).2.record) := by
    intro before
    rw [filter_cons_of_pos isCounted,whose]
  constructor
  · intro alike
    have new : ∀ key ∈ call.idempotencyKey, key ∉ known := by
      obtain ⟨_,one,_⟩ := alike [call] ((prefix_cons_inj call).mpr nil_prefix)
      rw [filtered,heard_cons,run,run] at one
      by_contra old
      rw [if_neg old,count] at one
      exact Nat.succ_ne_self _ one
    have same : heartbeatInMemory call store = heartbeatInSql call store := by
      obtain ⟨runs,_⟩ := alike [call] ((prefix_cons_inj call).mpr nil_prefix)
      rw [run,run,run,run,Prod.mk.injEq] at runs
      exact Prod.ext (List.cons.inj runs.1).1 runs.2
    refine ⟨⟨new,(heartbeat_same_iff isCounted).mp same⟩,?_⟩
    intro before isPrefix
    obtain ⟨runs,total,_⟩ := alike (call :: before) ((prefix_cons_inj call).mpr isPrefix)
    rw [run,run,same,Prod.mk.injEq] at runs
    rw [run,filtered,heard_cons,if_pos new] at total
    refine ⟨Prod.ext (List.cons.inj runs.1).2 runs.2,?_,run_keys (heartbeat_keys distinct) before⟩
    rw [total,count]
    omega
  · rintro ⟨⟨new,agrees⟩,alike⟩ before isPrefix
    have same := (heartbeat_same_iff isCounted).mpr agrees
    rcases prefix_cons_iff.mp isPrefix with rfl | ⟨rest,rfl,isRest⟩
    · exact ⟨rfl,rfl,distinct⟩
    · obtain ⟨runs,total,_⟩ := alike rest isRest
      rw [run,run,same,filtered,heard_cons,if_pos new,runs]
      refine ⟨rfl,?_,run_keys (heartbeat_keys distinct) rest⟩
      rw [total,count]
      omega

theorem alikeFrom_iff (distinct : (keys store.events).Nodup) (calls : List (Call Key)) :
    AlikeFrom known store calls ↔ AllSingle store known calls := by
  induction calls generalizing store known with
  | nil =>
    refine ⟨fun _ => trivial,?_⟩
    intro _ before isPrefix
    obtain rfl := prefix_nil.mp isPrefix
    exact ⟨rfl,rfl,distinct⟩
  | cons call rest ih =>
    rw [AllSingle]
    cases isCounted : counts store.record call with
    | false => rw [alikeFrom_uncounted distinct isCounted,ih distinct,if_neg Bool.false_ne_true]
    | true => rw [alikeFrom_counted distinct isCounted,ih (heartbeat_keys distinct),if_pos rfl]

/-- Heartbeats are idempotent and the repositories agree on them exactly in the runs of single calls. -/
theorem alike_iff (unique : Unique store.events) (calls : List (Call Key)) : Alike store calls ↔ AllSingle store [] calls :=
  alikeFrom_iff unique.keys calls
def running : Store Nat := ⟨⟨⟨0,1,2,none⟩,.running,false,none,0,none,none,0⟩,[]⟩
def beat (now : Int) (key : Option Nat) : Call Nat := ⟨1,2,now,none,key,0⟩

/-- Two heartbeats with keys of their own. -/
theorem twoKeys_alike : Alike running [beat 0 (some 7),beat 600000000 (some 8)] := by
  have unique : Unique running.events := ⟨nodup_nil,nodup_nil⟩
  refine (alike_iff unique _).mpr ?_
  have first : counts running.record (beat 0 (some 7)) = true := rfl
  have second : counts (heartbeatInSql (beat 0 (some 7)) running).2.record (beat 600000000 (some 8)) = true := rfl
  rw [AllSingle,if_pos first,AllSingle,if_pos second]
  refine ⟨⟨by decide,fun _ _ _ => ?_⟩,⟨by decide,fun _ _ _ => ?_⟩,trivial⟩
  · exact (rfl : lastSequence running.events = running.events.length)
  · exact (rfl : lastSequence (heartbeatInSql (beat 0 (some 7)) running).2.events = 1)

/-- A heartbeat that is sent again ten minutes later counts again, and only in memory it is the last event. -/
theorem replay_differs :
    let calls := [beat 0 (some 7),beat 600000000 (some 7)]
    Unique running.events ∧ ¬ Alike running calls ∧
      (run heartbeatInMemory calls running).2.record.lastHeartbeatEventAt = some 600000000 ∧
      (run heartbeatInSql calls running).2.record.lastHeartbeatEventAt = some 0 ∧
      (run heartbeatInSql calls running).2.record.heartbeatCount = 2 ∧ (run heartbeatInSql calls running).2.events.length = 1 := by
  refine ⟨⟨nodup_nil,nodup_nil⟩,?_,by decide,by decide,by decide,by decide⟩
  intro alike
  obtain ⟨same,_⟩ := alike [beat 0 (some 7),beat 600000000 (some 7)] prefix_rfl
  have last := congrArg (fun outcome => outcome.2.record.lastHeartbeatEventAt) same
  revert last
  decide

end Codebot.RuntimeHeartbeats
