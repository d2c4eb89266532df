import Codebot.PaperWorkers

/-!
The stop and kill-switch commands of a runtime. A worker that leases the runtime reads its command stream from the
stored cursor; where it finds such a command it releases the runtime as stopped, and returns before the cursor is
persisted, so that the next lease finds it again (`consumed_once_iff`).
-/
namespace Codebot.StopCommands
open Runs NautilusRuntimes Function
open PaperWorkers (CommandEntry readCommands)

def handled (entry : CommandEntry) : Bool := entry.action ≠ .other
/-- The command stops the runtime: its event is `stop_requested` or `risk_block`. -/
def stopping (entry : CommandEntry) : Bool := entry.action = .stop || entry.action = .killSwitch
def stopIds (entries : List CommandEntry) : List Nat := (entries.filter stopping).map CommandEntry.id

/-- Where a worker is in `run_once`, with the command cursor of the record that it holds. -/
inductive Turn
  | idle
  /-- Before the read of the command stream. -/
  | leased (cursor : Nat)
  /-- Before the events of the commands are appended. -/
  | acknowledging (cursor : Nat) (entries : List CommandEntry)
  /-- Before the lease is released as stopped. -/
  | releasing (entries : List CommandEntry)
  /-- Before the cursor of the commands is persisted. -/
  | moving (cursor next : Nat)
  /-- Before the market data. -/
  | trading (cursor : Nat)

/-- The row, the command stream and its cursor, the workers, and the commands that were executed. -/
structure World (requests : Nat) where
  system : System requests
  commands : List CommandEntry
  cursor : Nat
  turn : Nat → Turn
  executed : List Nat

inductive Label (requests : Nat)
  | arrive (entry : CommandEntry)
  | tick (amount : Nat)
  | request (c : Fin requests) (request : Request)
  | proceed (c : Fin requests)
  /-- The worker claims the runtime and runs it. -/
  | claim (w : Nat) (locked : Bool)
  /-- The runner renews the lease and runs the runtime. -/
  | renew (w : Nat) (locked : Bool)
  /-- The worker finds that the runtime is to stop, and releases it. -/
  | finish (w : Nat) (locked : Bool)
  | read (w : Nat) (fails : Bool)
  | append (w : Nat)
  | release (w : Nat) (locked : Bool)
  | persist (w : Nat) (locked : Bool)
  /-- The market data, of which the cursors may be persisted. -/
  | trade (w : Nat) (locked moves : Bool)
  | restart (w : Nat)

variable {requests : Nat}
def initial (requests : Nat) : World requests := ⟨NautilusRuntimes.initial requests,[],0,fun _ => .idle,[]⟩
def World.put (world : World requests) (w : Nat) (turn : Turn) : World requests :=
  { world with turn := Function.update world.turn w turn }
def World.setRow (world : World requests) (row : Option NautilusRuntime) : World requests :=
  { world with system := { world.system with row } }
def World.holds (world : World requests) (repository : Repository) (w : Nat) (locked : Bool) : Bool :=
  world.system.row.any (leased repository w locked)
/-- The row after `release_nautilus_runtime_lease` with the state `stopped`. -/
def World.released (world : World requests) (repository : Repository) (w : Nat) (locked : Bool) : World requests :=
  world.setRow (world.system.row.map (releaseNautilusRuntimeLease repository w locked))
def lastId (cursor : Nat) (entries : List CommandEntry) : Nat := (entries.getLast?.map CommandEntry.id).getD cursor
/-- After the reading of the commands. -/
def afterRead (cursor : Nat) (entries : List CommandEntry) : Turn :=
  if entries.any handled then .acknowledging cursor entries
  else if entries = [] then .trading cursor
  else .moving cursor (lastId cursor entries)

def step (repository : Repository) (leaseSeconds : Nat) (world : World requests) : Label requests → Option (World requests)
  | .arrive entry =>
    if 0 < entry.id ∧ ∀ old ∈ world.commands, old.id < entry.id then
      some { world with commands := world.commands ++ [entry] }
    else none
  | .tick amount => (NautilusRuntimes.step repository leaseSeconds world.system (.tick amount)).map fun system => { world with system }
  | .request c request =>
    (NautilusRuntimes.step repository leaseSeconds world.system (.request c request)).map fun system => { world with system }
  | .proceed c => (NautilusRuntimes.step repository leaseSeconds world.system (.proceed c)).map fun system => { world with system }
  | .claim w locked =>
    match world.turn w, NautilusRuntimes.claim repository leaseSeconds world.system w locked with
    | .idle, some runtime => some ((world.setRow (some runtime)).put w (.leased world.cursor))
    | _, _ => none
  | .renew w locked =>
    match world.turn w with
    | .idle =>
      if world.holds repository w locked then
        some ((world.setRow (world.system.row.map
          (renewNautilusRuntimeLease repository leaseSeconds world.system.now w locked))).put w (.leased world.cursor))
      else none
    | _ => none
  | .finish w locked =>
    match world.turn w with
    | .idle => some (world.released repository w locked)
    | _ => none
  | .read w fails =>
    match world.turn w with
    | .leased cursor => some (world.put w (afterRead cursor (readCommands world.commands cursor fails)))
    | _ => none
  | .append w =>
    match world.turn w with
    | .acknowledging cursor entries =>
      some (world.put w (if entries.any stopping then .releasing entries else .moving cursor (lastId cursor entries)))
    | _ => none
  | .release w locked =>
    match world.turn w with
    | .releasing entries =>
      if world.holds repository w locked then
        some { (world.released repository w locked).put w .idle with executed := world.executed ++ stopIds entries }
      else some (world.put w .idle)
    | _ => none
  | .persist w locked =>
    match world.turn w with
    | .moving cursor next =>
      if world.holds repository w locked then some { world.put w (.trading next) with cursor := next }
      else some (world.put w (.trading cursor))
    | _ => none
  | .trade w locked moves =>
    match world.turn w with
    | .trading cursor =>
      if moves && world.holds repository w locked then some { world.put w .idle with cursor }
      else some (world.put w .idle)
    | _ => none
  | .restart w => some (world.put w .idle)

/-- A command is executed only where none has been. -/
def First (repository : Repository) (world : World requests) (label : Label requests) : Prop :=
  ∀ w locked entries, label = .release w locked → world.turn w = .releasing entries → world.holds repository w locked →
    world.executed = []
def World.owner (world : World requests) : Option Nat := world.system.row.bind NautilusRuntime.workerId

/-- What the worker goes by is what is stored. -/
def Current (world : World requests) : Turn → Prop
  | .leased cursor => cursor = world.cursor
  | .acknowledging cursor entries => cursor = world.cursor ∧ entries <+: readCommands world.commands world.cursor false
  | .releasing entries => entries <+: readCommands world.commands world.cursor false
  | .moving cursor _ => cursor = world.cursor
  | .trading cursor => cursor = world.cursor
  | .idle => True

def Proper (commands : List CommandEntry) : Turn → Prop
  | .acknowledging _ entries => entries.Sublist commands
  | .releasing entries => entries.Sublist commands ∧ entries.any stopping
  | _ => True
def Halts (id : Nat) : Turn → Prop
  | .acknowledging _ entries => id ∈ stopIds entries
  | .releasing entries => id ∈ stopIds entries
  | .moving _ _ => False
  | _ => True

/-- Whoever leases the runtime goes by the stored cursor, and a command that was executed is still
    ahead of it. -/
structure Kept (world : World requests) : Prop where
  increasing : (world.commands.map CommandEntry.id).Pairwise (· < ·)
  proper : ∀ w, Proper world.commands (world.turn w)
  current : ∀ w, world.owner = some w → Current world (world.turn w)
  ahead : world.executed ≠ [] → ∃ id ∈ world.executed, id ∈ stopIds (readCommands world.commands world.cursor false) ∧
    ∀ w, world.owner = some w → Halts id (world.turn w)

variable {repository : Repository} {leaseSeconds : Nat} {world next : World requests} {w : Nat} {locked : Bool} {turn : Turn}
theorem owner_of_holds (held : world.holds repository w locked) : world.owner = some w := by
  obtain ⟨row,isRow,isLeased⟩ := (Option.any_eq_true _ _).mp held
  simp only [leased,Bool.and_eq_true,beq_iff_eq] at isLeased
  rw [World.owner,isRow,Option.bind_some,isLeased.1]
theorem released_owner {v : Nat} (owner : (world.released repository w locked).owner = some v) : world.owner = some v := by
  simp only [World.owner,World.released,World.setRow,Option.bind_map,Option.bind_eq_some_iff] at owner ⊢
  obtain ⟨row,isRow,isOwner⟩ := owner
  refine ⟨row,isRow,?_⟩
  simp only [Function.comp,releaseNautilusRuntimeLease] at isOwner
  split_ifs at isOwner
  exact isOwner
theorem released_nobody (held : world.holds repository w locked) : (world.released repository w locked).owner = none := by
  obtain ⟨row,isRow,isLeased⟩ := (Option.any_eq_true _ _).mp held
  simp only [World.owner,World.released,World.setRow,isRow,Option.map_some,Option.bind_some,releaseNautilusRuntimeLease]
  rw [if_pos isLeased]
theorem merge_owner (write : Write) (loaded row : NautilusRuntime) : (merge loaded (write.target loaded) row).workerId = row.workerId := by
  have same : (write.target loaded).workerId = loaded.workerId := by cases write <;> rfl
  simp only [merge,pick,same,if_true]

variable {row : Option NautilusRuntime}

theorem proceed_owner {after : Option NautilusRuntime} {phase behind : Phase}
    (proceeded : proceed repository row phase = some (behind,after)) :
    after.bind NautilusRuntime.workerId = row.bind NautilusRuntime.workerId := by
  have target : ∀ (write : Write) (runtime : NautilusRuntime), (write.target runtime).workerId = runtime.workerId := by
    intro write runtime
    cases write <;> rfl
  cases phase with
  | idle => cases proceeded
  | appended type =>
    simp only [proceed] at proceeded
    split at proceeded
    · cases proceeded
      rfl
    · split_ifs at proceeded
      all_goals cases proceeded
      all_goals rfl
  | calling write follows =>
    simp only [proceed] at proceeded
    split at proceeded
    · cases proceeded
      simp only [Option.bind_some,target]
    · cases proceeded
      rfl
    · split at proceeded
      all_goals cases proceeded
      all_goals rfl
    · split at proceeded
      all_goals cases proceeded
      all_goals rfl
  | loaded write runtime follows =>
    cases proceeded
    rw [Option.bind_map]
    exact Option.bind_congr fun row _ => merge_owner write runtime row
  | inserting mode strategyId =>
    simp only [proceed] at proceeded
    split at proceeded
    all_goals cases proceeded
    all_goals rfl

theorem kept_system (kept : Kept world) {system : System requests} (owner : ∀ v, World.owner { world with system } = some v → world.owner = some v) :
    Kept { world with system } := by
  refine ⟨kept.increasing,kept.proper,?_,?_⟩
  · intro v isOwner
    have current := kept.current v (owner v isOwner)
    exact current
  · intro some_
    obtain ⟨id,member,isAhead,halts⟩ := kept.ahead some_
    exact ⟨id,member,isAhead,fun v isOwner => halts v (owner v isOwner)⟩

theorem read_arrived (commands : List CommandEntry) (entry : CommandEntry) (cursor : Nat) :
    readCommands commands cursor false <+: readCommands (commands ++ [entry]) cursor false := by
  simp only [readCommands,Bool.false_eq_true,if_false,List.filter_append]
  exact (List.prefix_append _ _).take 10

variable {entries : List CommandEntry} {id : Nat}
theorem stopIds_mono {others : List CommandEntry} (begins : entries <+: others) (member : id ∈ stopIds entries) :
    id ∈ stopIds others := by
  obtain ⟨rest,rfl⟩ := begins
  rw [stopIds,List.filter_append,List.map_append]
  exact List.mem_append_left _ member

variable {entry : CommandEntry}

theorem kept_arrive (kept : Kept world) (newest : ∀ old ∈ world.commands, old.id < entry.id) :
    Kept { world with commands := world.commands ++ [entry] } := by
  have begins := read_arrived world.commands entry world.cursor
  refine ⟨?_,?_,?_,?_⟩
  · rw [List.map_append,List.pairwise_append]
    refine ⟨kept.increasing,List.pairwise_singleton _ _,?_⟩
    intro id member other isNew
    obtain ⟨old,isOld,rfl⟩ := List.mem_map.mp member
    rw [List.map_singleton,List.mem_singleton] at isNew
    exact isNew ▸ newest old isOld
  · intro v
    have proper := kept.proper v
    dsimp only
    cases isTurn : world.turn v with
    | acknowledging cursor entries =>
      rw [isTurn] at proper
      exact proper.trans (List.sublist_append_left _ _)
    | releasing entries =>
      rw [isTurn] at proper
      exact ⟨proper.1.trans (List.sublist_append_left _ _),proper.2⟩
    | _ => trivial
  · intro v isOwner
    have current := kept.current v isOwner
    dsimp only at current ⊢
    cases isTurn : world.turn v with
    | acknowledging cursor entries =>
      rw [isTurn] at current
      exact ⟨current.1,current.2.trans begins⟩
    | releasing entries =>
      rw [isTurn] at current
      exact List.IsPrefix.trans current begins
    | _ =>
      rw [isTurn] at current
      exact current
  · intro some_
    obtain ⟨id,member,isAhead,halts⟩ := kept.ahead some_
    exact ⟨id,member,stopIds_mono begins isAhead,halts⟩

theorem current_same (commands : next.commands = world.commands) (cursor : next.cursor = world.cursor) (current : Current world turn) :
    Current next turn := by
  cases turn with
  | idle => trivial
  | _ => simpa only [Current,commands,cursor] using current

theorem kept_turn (kept : Kept world) (commands : next.commands = world.commands) (executed : next.executed = world.executed)
    (turns : next.turn = Function.update world.turn w turn)
    (owner : ∀ v, next.owner = some v → v = w ∨ (world.owner = some v ∧ next.cursor = world.cursor))
    (proper : Proper world.commands turn) (current : next.owner = some w → Current next turn)
    (cursor : world.executed ≠ [] → next.cursor = world.cursor)
    (halts : ∀ id, id ∈ stopIds (readCommands world.commands world.cursor false) → (world.owner = some w → Halts id (world.turn w)) →
      next.owner = some w → Halts id turn) : Kept next := by
  refine ⟨commands ▸ kept.increasing,?_,?_,?_⟩
  · intro v
    rw [commands,turns]
    by_cases same : v = w
    · rw [same,update_self]
      exact proper
    · rw [update_of_ne same]
      exact kept.proper v
  · intro v isOwner
    rw [turns]
    by_cases same : v = w
    · subst same
      rw [update_self]
      exact current isOwner
    · rw [update_of_ne same]
      obtain ⟨before,cursors⟩ := (owner v isOwner).resolve_left same
      exact current_same commands cursors (kept.current v before)
  · intro some_
    rw [executed] at some_ ⊢
    obtain ⟨id,member,isAhead,halted⟩ := kept.ahead some_
    refine ⟨id,member,by rw [commands,cursor some_]; exact isAhead,?_⟩
    intro v isOwner
    rw [turns]
    by_cases same : v = w
    · subst same
      rw [update_self]
      exact halts id isAhead (halted v) isOwner
    · rw [update_of_ne same]
      exact halted v ((owner v isOwner).resolve_left same).1

theorem read_sublist (commands : List CommandEntry) (cursor : Nat) (fails : Bool) : (readCommands commands cursor fails).Sublist commands := by
  unfold readCommands
  split_ifs
  · exact List.nil_sublist _
  · exact (List.take_sublist _ _).trans List.filter_sublist
theorem handled_of_stopping (stops : stopping entry) : handled entry := by
  rw [stopping,Bool.or_eq_true,decide_eq_true_eq,decide_eq_true_eq] at stops
  rw [handled,decide_eq_true_eq]
  rcases stops with same | same <;> rw [same] <;> decide
theorem mem_stopIds : id ∈ stopIds entries ↔ ∃ entry ∈ entries, stopping entry ∧ entry.id = id := by
  simp only [stopIds,List.mem_map,List.mem_filter,and_assoc]

variable {cursor : Nat}

theorem kept_read (kept : Kept world) (isLeased : world.turn w = .leased cursor) (fails : Bool) :
    Kept (world.put w (afterRead cursor (readCommands world.commands cursor fails))) := by
  have sublist := read_sublist world.commands cursor fails
  refine kept_turn kept rfl rfl rfl (fun v owner => .inr ⟨owner,rfl⟩) ?_ ?_ (fun _ => rfl) ?_
  · unfold afterRead
    split_ifs
    · exact sublist
    · trivial
    · trivial
  · intro owner
    have current := kept.current w owner
    rw [isLeased] at current
    obtain rfl : cursor = world.cursor := current
    unfold afterRead
    split_ifs with some_
    · refine ⟨rfl,?_⟩
      cases fails with
      | false => exact List.prefix_rfl
      | true => exact List.nil_prefix
    · rfl
    · rfl
  · intro id isAhead _ owner
    have current := kept.current w owner
    rw [isLeased] at current
    obtain rfl : cursor = world.cursor := current
    cases fails with
    | true => trivial
    | false =>
      obtain ⟨entry,member,stops,_⟩ := mem_stopIds.mp isAhead
      rw [afterRead,if_pos (List.any_eq_true.mpr ⟨entry,member,handled_of_stopping stops⟩)]
      exact isAhead

theorem kept_append (kept : Kept world) (isAcknowledging : world.turn w = .acknowledging cursor entries) :
    Kept (world.put w (if entries.any stopping then .releasing entries else .moving cursor (lastId cursor entries))) := by
  have proper := kept.proper w
  rw [isAcknowledging] at proper
  refine kept_turn kept rfl rfl rfl (fun v owner => .inr ⟨owner,rfl⟩) ?_ ?_ (fun _ => rfl) ?_
  · split_ifs with stops
    · exact ⟨proper,stops⟩
    · trivial
  · intro owner
    have current := kept.current w owner
    rw [isAcknowledging] at current
    split_ifs
    · exact current.2
    · exact current.1
  · intro id _ halted owner
    have halts := halted owner
    rw [isAcknowledging] at halts
    obtain ⟨entry,member,stops,_⟩ := mem_stopIds.mp halts
    rw [if_pos (List.any_eq_true.mpr ⟨entry,member,stops⟩)]
    exact halts

theorem kept_persist (kept : Kept world) {following : Nat} (isMoving : world.turn w = .moving cursor following) :
    Kept (if world.holds repository w locked then { world.put w (.trading following) with cursor := following }
      else world.put w (.trading cursor)) := by
  split_ifs with held
  · have owner := owner_of_holds held
    -- nothing has been executed, or the owner would not have got this far
    have nothing : world.executed = [] := by
      by_contra some_
      obtain ⟨id,_,_,halts⟩ := kept.ahead some_
      have here := halts w owner
      rw [isMoving] at here
      exact here
    refine kept_turn kept rfl rfl rfl ?_ trivial (fun _ => rfl) (fun some_ => absurd nothing some_) fun _ _ _ _ => trivial
    intro v isOwner
    exact .inl (Option.some.inj ((show world.owner = some v from isOwner).symm.trans owner))
  · refine kept_turn kept rfl rfl rfl (fun v owner => .inr ⟨owner,rfl⟩) trivial ?_ (fun _ => rfl) fun _ _ _ _ => trivial
    intro owner
    have current := kept.current w owner
    rw [isMoving] at current
    exact current

theorem kept_trade (kept : Kept world) (isTrading : world.turn w = .trading cursor) (moves : Bool) :
    Kept (if moves && world.holds repository w locked then { world.put w .idle with cursor } else world.put w .idle) := by
  have quiet : Kept (world.put w .idle) :=
    kept_turn kept rfl rfl rfl (fun v owner => .inr ⟨owner,rfl⟩) trivial (fun _ => trivial) (fun _ => rfl) fun _ _ _ _ => trivial
  split_ifs with moved
  · have current := kept.current w (owner_of_holds (Bool.and_eq_true_iff.mp moved).2)
    rw [isTrading] at current
    rw [show cursor = world.cursor from current]
    exact quiet
  · exact quiet

theorem kept_lease (kept : Kept world) (owner : row.bind NautilusRuntime.workerId = some w) :
    Kept ((world.setRow row).put w (.leased world.cursor)) := by
  refine kept_turn kept rfl rfl rfl ?_ trivial (fun _ => rfl) (fun _ => rfl) fun _ _ _ _ => trivial
  intro v isOwner
  exact .inl (Option.some.inj ((show row.bind NautilusRuntime.workerId = some v from isOwner).symm.trans owner))
theorem stopIds_nodup (kept : Kept world) (sublist : entries.Sublist world.commands) : (stopIds entries).Nodup := by
  have stops : (stopIds entries).Sublist (world.commands.map CommandEntry.id) := (List.filter_sublist.trans sublist).map CommandEntry.id
  exact (kept.increasing.sublist stops).imp fun less => Nat.ne_of_lt less

theorem kept_release (kept : Kept world) (isReleasing : world.turn w = .releasing entries)
    (held : world.holds repository w locked) :
    Kept { (world.released repository w locked).put w .idle with executed := world.executed ++ stopIds entries } := by
  have proper := kept.proper w
  have current := kept.current w (owner_of_holds held)
  rw [isReleasing] at proper current
  have nobody : ∀ v, (world.released repository w locked).owner ≠ some v := by
    rw [released_nobody held]
    nofun
  have idle : Kept ((world.released repository w locked).put w .idle) :=
    kept_turn kept rfl rfl rfl (fun v owner => .inr ⟨released_owner owner,rfl⟩) trivial (fun _ => trivial) (fun _ => rfl)
      fun _ _ _ _ => trivial
  refine ⟨idle.increasing,idle.proper,fun v owner => absurd owner (nobody v),?_⟩
  intro _
  obtain ⟨entry,member,stops⟩ := List.any_eq_true.mp proper.2
  have isStop : entry.id ∈ stopIds entries := mem_stopIds.mpr ⟨entry,member,stops,rfl⟩
  exact ⟨entry.id,List.mem_append_right _ isStop,stopIds_mono current isStop,fun v owner => absurd owner (nobody v)⟩

theorem kept_step (kept : Kept world) {label : Label requests} (stepped : step repository leaseSeconds world label = some next) : Kept next := by
  cases label with
  | arrive entry =>
    simp only [step,Option.ite_none_right_eq_some,Option.some.injEq] at stepped
    obtain ⟨⟨_,newest⟩,rfl⟩ := stepped
    exact kept_arrive kept newest
  | tick amount =>
    cases stepped
    exact kept_system kept fun v owner => owner
  | request c request =>
    obtain ⟨system,isStep,rfl⟩ := Option.map_eq_some_iff.mp stepped
    simp only [NautilusRuntimes.step,Option.ite_none_right_eq_some,Option.some.injEq] at isStep
    obtain ⟨_,rfl⟩ := isStep
    exact kept_system kept fun v owner => owner
  | proceed c =>
    obtain ⟨system,isStep,rfl⟩ := Option.map_eq_some_iff.mp stepped
    obtain ⟨⟨phase,row⟩,proceeded,rfl⟩ := Option.map_eq_some_iff.mp isStep
    exact kept_system kept fun v owner => (proceed_owner proceeded).symm.trans owner
  | claim w locked =>
    simp only [step] at stepped
    split at stepped
    · next runtime _ isClaim =>
      cases stepped
      obtain ⟨row,isRow,claimed⟩ := Option.bind_eq_some_iff.mp isClaim
      refine kept_lease kept ?_
      rw [Option.bind_some,claimed_of_claim claimed]
      rfl
    · cases stepped
  | renew w locked =>
    simp only [step] at stepped
    split at stepped
    · split_ifs at stepped with held
      cases stepped
      obtain ⟨row,isRow,isLeased⟩ := (Option.any_eq_true _ _).mp held
      refine kept_lease kept ?_
      have owner := owner_of_holds held
      simp only [World.owner,isRow,Option.bind_some] at owner
      rw [isRow,Option.map_some,Option.bind_some,renewNautilusRuntimeLease,if_pos isLeased]
      exact owner
    · cases stepped
  | finish w locked =>
    simp only [step] at stepped
    split at stepped
    · cases stepped
      exact kept_system kept fun v owner => released_owner owner
    · cases stepped
  | read w fails =>
    simp only [step] at stepped
    split at stepped
    · next isLeased =>
      cases stepped
      exact kept_read kept isLeased fails
    · cases stepped
  | append w =>
    simp only [step] at stepped
    split at stepped
    · next isAcknowledging =>
      cases stepped
      exact kept_append kept isAcknowledging
    · cases stepped
  | release w locked =>
    simp only [step] at stepped
    split at stepped
    · next isReleasing =>
      split_ifs at stepped with held
      · cases stepped
        exact kept_release kept isReleasing held
      · cases stepped
        exact kept_turn kept rfl rfl rfl (fun v owner => .inr ⟨owner,rfl⟩) trivial (fun _ => trivial) (fun _ => rfl) fun _ _ _ _ => trivial
    · cases stepped
  | persist w locked =>
    simp only [step] at stepped
    split at stepped
    · next isMoving =>
      rw [← apply_ite some,Option.some.injEq] at stepped
      rw [← stepped]
      exact kept_persist kept isMoving
    · cases stepped
  | trade w locked moves =>
    simp only [step] at stepped
    split at stepped
    · next isTrading =>
      rw [← apply_ite some,Option.some.injEq] at stepped
      rw [← stepped]
      exact kept_trade kept isTrading moves
    · cases stepped
  | restart w =>
    cases stepped
    exact kept_turn kept rfl rfl rfl (fun v owner => .inr ⟨owner,rfl⟩) trivial (fun _ => trivial) (fun _ => rfl) fun _ _ _ _ => trivial

theorem kept_initial : Kept (initial requests) :=
  ⟨List.Pairwise.nil,fun _ => trivial,fun _ _ => trivial,fun some_ => absurd rfl some_⟩

theorem step_executed {label : Label requests} (stepped : step repository leaseSeconds world label = some next) :
    next.executed = world.executed ∨ ∃ w locked entries, label = .release w locked ∧ world.turn w = .releasing entries ∧
      world.holds repository w locked ∧ next.executed = world.executed ++ stopIds entries := by
  cases label with
  | release w locked =>
    simp only [step] at stepped
    split at stepped
    · next entries isReleasing =>
      split_ifs at stepped with held
      · cases stepped
        exact .inr ⟨w,locked,entries,rfl,isReleasing,held,rfl⟩
      · cases stepped
        exact .inl rfl
    · cases stepped
  | tick amount =>
    cases stepped
    exact .inl rfl
  | request c request =>
    obtain ⟨system,_,rfl⟩ := Option.map_eq_some_iff.mp stepped
    exact .inl rfl
  | proceed c =>
    obtain ⟨system,_,rfl⟩ := Option.map_eq_some_iff.mp stepped
    exact .inl rfl
  | _ =>
    simp only [step] at stepped
    repeat' split at stepped
    all_goals cases stepped
    all_goals exact .inl rfl

/-- No command is executed twice in a run exactly if none is executed once one has been, by
    whatever lease. -/
theorem consumed_once_iff (repository : Repository) (leaseSeconds : Nat) (labels : List (Label requests)) :
    (∀ before after t, labels = before ++ after → run (step repository leaseSeconds) (initial requests) before = some t →
      t.executed.Nodup) ↔
    Meets (step repository leaseSeconds) (First repository) (initial requests) labels := by
  have keeps : ∀ (s : World requests) label t, Kept s ∧ s.executed.Nodup → First repository s label → step repository leaseSeconds s label = some t →
      Kept t ∧ t.executed.Nodup := by
    rintro s label t ⟨kept,once⟩ first stepped
    refine ⟨kept_step kept stepped,?_⟩
    rcases step_executed stepped with same | ⟨w,locked,entries,rfl,isReleasing,held,same⟩
    · rw [same]
      exact once
    · have proper := kept.proper w
      rw [isReleasing] at proper
      rw [same,first w locked entries rfl isReleasing held,List.nil_append]
      exact stopIds_nodup kept proper.1
  refine secures_iff (fun s holds => holds.2) keeps ?_ ⟨kept_initial,List.nodup_nil⟩
  rintro s _ ⟨kept,_⟩ secure w locked entries rfl isReleasing held
  by_contra some_
  -- The command that was executed is among those of the release.
  obtain ⟨id,executed,_,halts⟩ := kept.ahead some_
  have again := halts w (owner_of_holds held)
  rw [isReleasing] at again
  have twice := secure _ (by simp only [step,isReleasing,held,if_true]; rfl)
  exact (List.disjoint_of_nodup_append twice) executed again

/-- A paper runtime is started, stopped by a command, revived by a heartbeat, and leased again. -/
def stoppedAgain (c : Fin requests) : List (Label requests) :=
  [.request c (.start .paper 1),.proceed c,.proceed c,.arrive ⟨1,.stop⟩,
    .claim 0 false,.read 0 false,.append 0,.release 0 false,
    .request c (.heartbeat none),.proceed c,.proceed c,
    .claim 0 false,.read 0 false,.append 0,.release 0 false]

/-- The next lease executes the command again. -/
theorem stop_executed_twice : ¬ ∀ (labels : List (Label 1)) t, run (step .sql 60) (initial 1) labels = some t → t.executed.Nodup := by
  intro once
  have ran : ∃ t, run (step .sql 60) (initial 1) (stoppedAgain 0) = some t ∧ t.executed = [1,1] := ⟨_,rfl,rfl⟩
  obtain ⟨t,reached,twice⟩ := ran
  have nodup := once (stoppedAgain 0) t reached
  rw [twice] at nodup
  exact absurd nodup (by decide)

end Codebot.StopCommands
