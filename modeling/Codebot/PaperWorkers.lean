import Codebot.MarketStreams

/-!
The paper workers of one runtime, with the two streams, the stored cursors and the table of events that they share. A
worker goes through the repository calls of `run_once` one by one; what other workers do may come between. The row,
its lease and the heartbeats are those of `NautilusRuntimes`.
-/
namespace Codebot.PaperWorkers
open PaperSessions MarketStreams
open NautilusRuntimes (EventType)

inductive Stream
  | bars
  | commands
deriving DecidableEq
/-- An entry of the command stream. -/
structure CommandEntry where
  id : Nat
  action : Action
deriving DecidableEq
/-- The two cursors in `stream_cursor_json`; `0` is `0-0`. -/
structure Cursors where
  bars : Nat
  commands : Nat
deriving DecidableEq
/-- The record of the runtime that a worker holds. What `_session_key` reads besides the
    generation is one number. -/
structure Lease (Amount : Type) where
  runtime : NautilusRuntimeRecord Amount
  fingerprint : Nat
  cursors : Cursors
deriving DecidableEq
/-- `_session_key`: the generation, and the rest. -/
abbrev SessionKey := Nat × Nat
def Lease.key {Amount : Type} (lease : Lease Amount) : SessionKey := (lease.runtime.generation,lease.fingerprint)

/-- Where a worker is in `run_once`. -/
inductive Phase (Amount : Type)
  | idle
  /-- Before the read of the command stream. -/
  | leased (lease : Lease Amount)
  /-- Before the events of the commands are appended, with their cursor. -/
  | acknowledging (lease : Lease Amount) (events : List (NautilusRuntimeEventInput Amount)) (cursor : Nat)
  /-- Before the lease is released for a stop or a kill switch. -/
  | releasing
  /-- Before the cursor of the commands is persisted. -/
  | movingCommands (lease : Lease Amount) (cursor : Nat)
  /-- Before the read of the bars. -/
  | reading (lease : Lease Amount)
  /-- Before batches of events are appended, with the cursor of the bars if there is one. -/
  | appending (lease : Lease Amount) (batches : List (List (NautilusRuntimeEventInput Amount))) (cursor : Option Nat)
  /-- Before the cursor of the bars is persisted. -/
  | movingBars (lease : Lease Amount) (cursor : Nat)
deriving DecidableEq

structure Worker (Amount : Type) where
  phase : Phase Amount
  session : SessionKey → Option (NautilusRuntimeSession Amount)
/-- An event that was derived from an entry of a stream. -/
structure Derivation (Amount : Type) where
  stream : Stream
  id : Nat
  key : EventKey Amount
deriving DecidableEq

/-- The streams, the row and the events of the runtime, its workers and, which nothing reads,
    the events that were ever derived from entries. -/
structure World (workers : Nat) (Amount : Type) where
  bars : List (StreamEntry Amount)
  commands : List CommandEntry
  runtime : NautilusRuntimeRecord Amount
  fingerprint : Nat
  owner : Option (Fin workers)
  cursors : Cursors
  stored : List (NautilusRuntimeEventInput Amount)
  derived : List (Derivation Amount)
  worker : Fin workers → Worker Amount

structure Settings where
  eventBatchSize : Nat
  positive : 0 < eventBatchSize

inductive Label (workers : Nat) (Amount : Type)
  | arriveBar (entry : StreamEntry Amount)
  | arriveCommand (entry : CommandEntry)
  /-- The manifest or the strategies of the runtime change. -/
  | edit (runtime : NautilusRuntimeRecord Amount) (fingerprint : Nat)
  /-- A worker claims or renews the lease; that of another has expired. -/
  | claim (w : Fin workers) (expired : Bool)
  /-- The worker's next read or repository call. The reads of Redis may fail, and a call
      finds the row locked or, appending, fails on the constraints three times. -/
  | readCommands (w : Fin workers) (fails : Bool)
  | append (w : Fin workers) (refused : Bool)
  | release (w : Fin workers) (locked : Bool)
  | persist (w : Fin workers) (locked : Bool)
  | consume (w : Fin workers) (engine : Engine Amount) (reads : Reads)
  /-- The worker drops a session, or restarts. -/
  | evict (w : Fin workers) (key : SessionKey)
  | restart (w : Fin workers)

variable {workers : Nat} {Amount : Type}
def World.set (world : World workers Amount) (w : Fin workers) (worker : Worker Amount) : World workers Amount :=
  { world with worker := Function.update world.worker w worker }
def World.put (world : World workers Amount) (w : Fin workers) (phase : Phase Amount) : World workers Amount :=
  world.set w { world.worker w with phase }
@[simp] theorem set_worker (world : World workers Amount) (w : Fin workers) (worker : Worker Amount) :
    (world.set w worker).worker w = worker := Function.update_self ..
theorem set_other {world : World workers Amount} {w v : Fin workers} (other : v ≠ w) (worker : Worker Amount) :
    (world.set w worker).worker v = world.worker v := Function.update_of_ne other ..
@[simp] theorem put_worker (world : World workers Amount) (w : Fin workers) (phase : Phase Amount) :
    (world.put w phase).worker w = { world.worker w with phase } := set_worker ..
theorem put_other {world : World workers Amount} {w v : Fin workers} (other : v ≠ w) (phase : Phase Amount) :
    (world.put w phase).worker v = world.worker v := set_other other _
theorem session_of_evicted {worker : Worker Amount} {key other : SessionKey} {session : NautilusRuntimeSession Amount}
    (found : Function.update worker.session key none other = some session) : worker.session other = some session := by
  by_cases same : other = key
  · subst same
    rw [Function.update_self] at found
    cases found
  · rwa [Function.update_of_ne same] at found
/-- `_nautilus_runtime_record` of the row. -/
def World.lease (world : World workers Amount) : Lease Amount := ⟨world.runtime,world.fingerprint,world.cursors⟩
/-- The event of a command, if it has one. -/
def commandEvent (entry : CommandEntry) : Option (NautilusRuntimeEventInput Amount) :=
  match entry.action with
  | .stop => some ⟨.stopRequested,.other,.command .stop entry.id⟩
  | .reload => some ⟨.runtimeError,.other,.command .reload entry.id⟩
  | .killSwitch => some ⟨.riskBlock,.other,.command .killSwitch entry.id⟩
  | .other => none
/-- The entries that `_consume_commands` reads. -/
def readCommands (commands : List CommandEntry) (cursor : Nat) (fails : Bool) : List CommandEntry :=
  if fails then [] else (commands.filter fun entry => cursor < entry.id).take 10
/-- `any(event_type in {"stop_requested", "risk_block"})`. -/
def stops (events : List (NautilusRuntimeEventInput Amount)) : Bool :=
  events.any fun event => event.type = .stopRequested || event.type = .riskBlock
/-- `_event_batches` of so many events at most. -/
def eventBatches (size : Nat) : Nat → List (NautilusRuntimeEventInput Amount) → List (List (NautilusRuntimeEventInput Amount))
  | 0, _ => []
  | _ + 1, [] => []
  | count + 1, event :: rest => (event :: rest).take size :: eventBatches size count ((event :: rest).drop size)
/-- After the reading of the commands. -/
def afterCommands (lease : Lease Amount) (events : List (NautilusRuntimeEventInput Amount)) (cursor : Option Nat) : Phase Amount :=
  match events, cursor with
  | _, none => .reading lease
  | [], some cursor => .movingCommands lease cursor
  | events, some cursor => .acknowledging lease events cursor
/-- After a batch of events, or where there is none. -/
def afterBatch (lease : Lease Amount) (cursor : Option Nat) : List (List (NautilusRuntimeEventInput Amount)) → Phase Amount
  | [] =>
    match cursor with
    | none => .idle
    | some cursor => .movingBars lease cursor
  | batches => .appending lease batches cursor
/-- What was derived from entries of the bar stream. -/
def derivations (made : List (NativeMarketMessage Amount × NautilusRuntimeEventInput Amount)) : List (Derivation Amount) :=
  made.filterMap fun (bar,event) =>
    match bar.streamId with
    | .entry id => some ⟨.bars,id,event.key⟩
    | .warmup _ => none
/-- What was derived from entries of the command stream. -/
def commandDerivations (entries : List CommandEntry) : List (Derivation Amount) :=
  entries.filterMap fun entry =>
    (commandEvent entry : Option (NautilusRuntimeEventInput Amount)).map fun event => ⟨.commands,entry.id,event.key⟩

section
variable [DecidableEq Amount]

def newEvents (stored events : List (NautilusRuntimeEventInput Amount)) : List (NautilusRuntimeEventInput Amount) :=
  events.filter fun event => event.key ∉ stored.map (·.key)
/-- `append_nautilus_runtime_events_for_worker`. Two new events of one key violate the
    constraint at every attempt. -/
def appendForWorker (world : World workers Amount) (w : Fin workers) (refused : Bool)
    (events : List (NautilusRuntimeEventInput Amount)) : Option (World workers Amount) :=
  let new := newEvents world.stored events
  if world.owner = some w ∧ !refused ∧ (new.map (·.key)).Nodup then some { world with stored := world.stored ++ new }
  else none
/-- `persist_nautilus_runtime_stream_cursor`. -/
def persistCursor (world : World workers Amount) (w : Fin workers) (locked : Bool) (cursors : Cursors) :
    Option (World workers Amount) :=
  if world.owner = some w ∧ !locked then some { world with cursors } else none
end

variable [LinearOrder Amount] [Zero Amount] [Add Amount] [Sub Amount] [Mul Amount] [Div Amount] [NatCast Amount]
def World.sessionFor (world : World workers Amount) (w : Fin workers) (lease : Lease Amount) : NautilusRuntimeSession Amount :=
  ((world.worker w).session lease.key).getD .new

/-- `_consume_market_data` of a worker, with the batches of its events. -/
def World.consume (settings : Settings) (world : World workers Amount) (w : Fin workers) (lease : Lease Amount)
    (engine : Engine Amount) (reads : Reads) : World workers Amount :=
  let session := world.sessionFor w lease
  let consumed :=
    consumeMarketData settings.eventBatchSize lease.runtime engine reads world.bars lease.cursors.bars session
  let batches := eventBatches settings.eventBatchSize consumed.2.1.length consumed.2.1
  { world with derived := world.derived ++ derivations (consumed.1.made.drop session.made.length) }.set w
    ⟨afterBatch lease consumed.2.2 batches,Function.update (world.worker w).session lease.key (some consumed.1)⟩

def step (settings : Settings) (world : World workers Amount) : Label workers Amount → Option (World workers Amount)
  | .arriveBar entry =>
    if 0 < entry.id ∧ ∀ old ∈ world.bars, old.id < entry.id then some { world with bars := world.bars ++ [entry] } else none
  | .arriveCommand entry =>
    if 0 < entry.id ∧ ∀ old ∈ world.commands, old.id < entry.id then
      some { world with commands := world.commands ++ [entry] }
    else none
  | .edit runtime fingerprint =>
    some { world with runtime := { runtime with generation := world.runtime.generation }, fingerprint }
  | .claim w expired =>
    match (world.worker w).phase with
    | .idle =>
      if world.owner = some w then some (world.put w (.leased world.lease))
      else if world.owner = none ∨ expired then
        let runtime := { world.runtime with generation := world.runtime.generation + 1 }
        let claimed := { world with runtime, owner := some w }
        some (claimed.put w (.leased claimed.lease))
      else none
    | _ => none
  | .readCommands w fails =>
    match (world.worker w).phase with
    | .leased lease =>
      let entries := readCommands world.commands lease.cursors.commands fails
      let read := { world with derived := world.derived ++ commandDerivations entries }
      some (read.put w (afterCommands lease (entries.filterMap commandEvent) (entries.getLast?.map (·.id))))
    | _ => none
  | .append w refused =>
    match (world.worker w).phase with
    | .acknowledging lease events cursor =>
      some (((appendForWorker world w refused events).getD world).put w
        (if stops events then .releasing else .movingCommands lease cursor))
    | .appending lease (batch :: batches) cursor =>
      some (((appendForWorker world w refused batch).getD world).put w (afterBatch lease cursor batches))
    | _ => none
  | .release w locked =>
    match (world.worker w).phase with
    | .releasing =>
      let dropped := world.set w ⟨.idle,fun _ => none⟩
      some (if world.owner = some w ∧ !locked then { dropped with owner := none } else dropped)
    | _ => none
  | .persist w locked =>
    match (world.worker w).phase with
    | .movingCommands lease cursor =>
      match persistCursor world w locked { lease.cursors with commands := cursor } with
      | some moved => some (moved.put w (.reading moved.lease))
      | none => some (world.put w (.reading lease))
    | .movingBars lease cursor =>
      some (((persistCursor world w locked { lease.cursors with bars := cursor }).getD world).put w .idle)
    | _ => none
  | .consume w engine reads =>
    match (world.worker w).phase with
    | .reading lease => some (world.consume settings w lease engine reads)
    | _ => none
  | .evict w key =>
    some (world.set w { world.worker w with session := Function.update (world.worker w).session key none })
  | .restart w => some (world.set w ⟨.idle,fun _ => none⟩)

/-- What each step does, and when. -/
inductive Moves (settings : Settings) (world : World workers Amount) : Label workers Amount → World workers Amount → Prop
  | arriveBar (entry : StreamEntry Amount) : Moves settings world (.arriveBar entry) { world with bars := world.bars ++ [entry] }
  | arriveCommand (entry : CommandEntry) :
    Moves settings world (.arriveCommand entry) { world with commands := world.commands ++ [entry] }
  | edit (runtime : NautilusRuntimeRecord Amount) (fingerprint : Nat) :
    Moves settings world (.edit runtime fingerprint)
      { world with runtime := { runtime with generation := world.runtime.generation }, fingerprint }
  | renew (w : Fin workers) (expired : Bool) (idle : (world.worker w).phase = .idle) (owner : world.owner = some w) :
    Moves settings world (.claim w expired) (world.put w (.leased world.lease))
  | claim (w : Fin workers) (expired : Bool) (idle : (world.worker w).phase = .idle) (claimed : World workers Amount)
      (isClaimed : claimed = { world with
        runtime := { world.runtime with generation := world.runtime.generation + 1 }
        owner := some w }) :
    Moves settings world (.claim w expired) (claimed.put w (.leased claimed.lease))
  | readCommands (w : Fin workers) (fails : Bool) (lease : Lease Amount) (leased : (world.worker w).phase = .leased lease)
      (entries : List CommandEntry) (isRead : entries = PaperWorkers.readCommands world.commands lease.cursors.commands fails) :
    Moves settings world (.readCommands w fails)
      (World.put { world with derived := world.derived ++ commandDerivations entries } w
        (afterCommands lease (entries.filterMap commandEvent) (entries.getLast?.map (·.id))))
  | acknowledge (w : Fin workers) (refused : Bool) (lease : Lease Amount) (events : List (NautilusRuntimeEventInput Amount))
      (cursor : Nat) (acknowledging : (world.worker w).phase = .acknowledging lease events cursor) :
    Moves settings world (.append w refused) (((appendForWorker world w refused events).getD world).put w
      (if stops events then .releasing else .movingCommands lease cursor))
  | append (w : Fin workers) (refused : Bool) (lease : Lease Amount) (batch : List (NautilusRuntimeEventInput Amount))
      (batches : List (List (NautilusRuntimeEventInput Amount))) (cursor : Option Nat)
      (appending : (world.worker w).phase = .appending lease (batch :: batches) cursor) :
    Moves settings world (.append w refused)
      (((appendForWorker world w refused batch).getD world).put w (afterBatch lease cursor batches))
  | release (w : Fin workers) (locked : Bool) (releasing : (world.worker w).phase = .releasing) (owner : world.owner = some w) :
    Moves settings world (.release w locked) { world.set w ⟨.idle,fun _ => none⟩ with owner := none }
  | leave (w : Fin workers) (locked : Bool) (releasing : (world.worker w).phase = .releasing) :
    Moves settings world (.release w locked) (world.set w ⟨.idle,fun _ => none⟩)
  | persistCommands (w : Fin workers) (locked : Bool) (lease : Lease Amount) (cursor : Nat)
      (moving : (world.worker w).phase = .movingCommands lease cursor) (moved : World workers Amount)
      (persisted : persistCursor world w locked { lease.cursors with commands := cursor } = some moved) :
    Moves settings world (.persist w locked) (moved.put w (.reading moved.lease))
  | keepCommands (w : Fin workers) (locked : Bool) (lease : Lease Amount) (cursor : Nat)
      (moving : (world.worker w).phase = .movingCommands lease cursor) :
    Moves settings world (.persist w locked) (world.put w (.reading lease))
  | persistBars (w : Fin workers) (locked : Bool) (lease : Lease Amount) (cursor : Nat)
      (moving : (world.worker w).phase = .movingBars lease cursor) (moved : World workers Amount)
      (persisted : persistCursor world w locked { lease.cursors with bars := cursor } = some moved) :
    Moves settings world (.persist w locked) (moved.put w .idle)
  | keepBars (w : Fin workers) (locked : Bool) (lease : Lease Amount) (cursor : Nat)
      (moving : (world.worker w).phase = .movingBars lease cursor) : Moves settings world (.persist w locked) (world.put w .idle)
  | consume (w : Fin workers) (engine : Engine Amount) (reads : Reads) (lease : Lease Amount)
      (reading : (world.worker w).phase = .reading lease) :
    Moves settings world (.consume w engine reads) (world.consume settings w lease engine reads)
  | evict (w : Fin workers) (key : SessionKey) :
    Moves settings world (.evict w key)
      (world.set w { world.worker w with session := Function.update (world.worker w).session key none })
  | restart (w : Fin workers) : Moves settings world (.restart w) (world.set w ⟨.idle,fun _ => none⟩)

theorem step_moves {settings : Settings} {world next : World workers Amount} {label : Label workers Amount}
    (stepped : step settings world label = some next) : Moves settings world label next := by
  cases label with
  | arriveBar entry =>
    simp only [step] at stepped
    split at stepped <;> cases stepped
    exact .arriveBar entry
  | arriveCommand entry =>
    simp only [step] at stepped
    split at stepped <;> cases stepped
    exact .arriveCommand entry
  | edit runtime fingerprint =>
    cases stepped
    exact .edit runtime fingerprint
  | claim w expired =>
    simp only [step] at stepped
    split at stepped
    next isIdle =>
      split at stepped
      next owner =>
        cases stepped
        exact .renew w expired isIdle owner
      next =>
        split at stepped <;> cases stepped
        exact .claim w expired isIdle _ rfl
    next => cases stepped
  | readCommands w fails =>
    simp only [step] at stepped
    split at stepped
    next lease leased =>
      cases stepped
      exact .readCommands w fails lease leased _ rfl
    next => cases stepped
  | append w refused =>
    simp only [step] at stepped
    split at stepped
    next lease events cursor acknowledging =>
      cases stepped
      exact .acknowledge w refused lease events cursor acknowledging
    next lease batch batches cursor appending =>
      cases stepped
      exact .append w refused lease batch batches cursor appending
    next => cases stepped
  | release w locked =>
    simp only [step] at stepped
    split at stepped
    next releasing =>
      cases stepped
      split
      next held => exact .release w locked releasing held.1
      next => exact .leave w locked releasing
    next => cases stepped
  | persist w locked =>
    simp only [step] at stepped
    split at stepped
    next lease cursor moving =>
      split at stepped
      next moved persisted =>
        cases stepped
        exact .persistCommands w locked lease cursor moving moved persisted
      next =>
        cases stepped
        exact .keepCommands w locked lease cursor moving
    next lease cursor moving =>
      cases stepped
      cases persisted : persistCursor world w locked { lease.cursors with bars := cursor } with
      | some moved => exact .persistBars w locked lease cursor moving moved persisted
      | none => exact .keepBars w locked lease cursor moving
    next => cases stepped
  | consume w engine reads =>
    simp only [step] at stepped
    split at stepped
    next lease reading =>
      cases stepped
      exact .consume w engine reads lease reading
    next => cases stepped
  | evict w key =>
    cases stepped
    exact .evict w key
  | restart w =>
    cases stepped
    exact .restart w

def initial (workers : Nat) (runtime : NautilusRuntimeRecord Amount) (fingerprint : Nat) : World workers Amount :=
  ⟨[],[],runtime,fingerprint,none,⟨0,0⟩,[],[],fun _ => ⟨.idle,fun _ => none⟩⟩

end Codebot.PaperWorkers
