import Mathlib.Algebra.BigOperators.Group.List.Basic
import Mathlib.Algebra.GroupWithZero.Nat

/-!
Updates of a fetch that come while an emitter waits for the event store. An update is emitted, or it is pending and
counted, and an emission that the store has taken forgets what is pending then (`complete_iff`).
-/
namespace Codebot.FetchUpdates
open List

/-- The numbers of a payload, and what is computed of them. -/
structure Doubles where
  Number : Type
  minusInfinity : Number
  positive : Number → Bool
  atLeast : Number → Number → Bool
  /-- `(completed / total) * 100`. -/
  percent : Number → Number → Number
  minus : Number → Number → Number

/-- `FETCH_PROGRESS_MIN_PERCENT_STEP` and `FETCH_PROGRESS_MIN_INTERVAL_MS`. -/
structure Settings extends Doubles where
  minPercentStep : Number
  minIntervalMs : Int

variable {settings : Settings}
/-- The payload of an update, `fetch_windows_total` and `fetch_windows_completed` where they are
    numbers. Updates are numbered as they come. -/
structure Update (settings : Settings) where
  number : Nat
  total : Option settings.Number
  completed : Option settings.Number
/-- An event of a fetch. `coalesced_updates` is left out where it is zero. -/
structure Emission (settings : Settings) where
  update : Update settings
  coalescedUpdates : Nat
structure Emitter (settings : Settings) where
  pendingFetchingPayload : Option (Update settings)
  coalescedFetchingUpdates : Nat
  lastFetchingEmitAt : Int
  lastFetchingPercent : settings.Number
def Emitter.new : Emitter settings := ⟨none,0,0,settings.minusInfinity⟩
def shouldEmitFetching (emitter : Emitter settings) (now : Int) (update : Update settings) : Bool :=
  match update.total,update.completed with
  | some total,some completed =>
    !settings.positive total || !settings.positive completed || settings.atLeast completed total ||
      settings.atLeast (settings.minus (settings.percent completed total) emitter.lastFetchingPercent) settings.minPercentStep ||
      settings.minIntervalMs ≤ now - emitter.lastFetchingEmitAt
  | _,_ => true

/-- The end of `emitFetching`, after the event store has taken the event and its heartbeat. -/
def Emitter.reset (update : Update settings) (now : Int) (emitter : Emitter settings) : Emitter settings where
  pendingFetchingPayload := none
  coalescedFetchingUpdates := 0
  lastFetchingEmitAt := now
  lastFetchingPercent :=
    match update.total,update.completed with
    | some total,some completed => if settings.positive total then settings.percent completed total else emitter.lastFetchingPercent
    | _,_ => emitter.lastFetchingPercent

/-- What a call waits for. -/
inductive Task (settings : Settings)
  /-- The event of a fetch, in `emitFetching`; another event may follow. -/
  | fetching (emission : Emission settings) (another : Bool)
  /-- The heartbeat of that event. -/
  | beating (emission : Emission settings) (another : Bool)
  /-- `flush`, before another event. -/
  | flushed
  /-- The other event. -/
  | event
  /-- The heartbeat of the other event. -/
  | eventBeat

/-- The emitter, the calls that wait, how many updates have come, and the events of a fetch in the store. -/
structure World (settings : Settings) where
  emitter : Emitter settings
  tasks : List (Task settings)
  received : Nat
  emitted : List (Emission settings)
def World.start : World settings := ⟨Emitter.new,[],0,[]⟩

inductive Label (settings : Settings)
  /-- `progress` is called with an update of a fetch. -/
  | update (total completed : Option settings.Number) (now : Int)
  /-- `progress` is called with another event. -/
  | other
  | flush
  /-- What a call waits for is there. -/
  | resolve (task : Nat) (now : Int)
  /-- The event store fails, and the call with it. -/
  | reject (task : Nat)

/-- `emitFetching`, up to its first await. -/
def World.emit (world : World settings) (update : Update settings) (another : Bool) : World settings :=
  { world with tasks := world.tasks ++ [.fetching ⟨update,world.emitter.coalescedFetchingUpdates⟩ another] }
def World.goOn (world : World settings) (task : Nat) (next : Option (Task settings)) : World settings :=
  { world with tasks := world.tasks.take task ++ next.toList ++ world.tasks.drop (task + 1) }
/-- `flush`, up to its first await. -/
def World.flush (world : World settings) (another : Bool) : World settings :=
  match world.emitter.pendingFetchingPayload with
  | some update => world.emit update another
  | none => if another then { world with tasks := world.tasks ++ [.flushed] } else world
def World.coming (world : World settings) (total completed : Option settings.Number) : Update settings :=
  ⟨world.received + 1,total,completed⟩

def step (world : World settings) : Label settings → Option (World settings)
  | .update total completed now =>
    let update := world.coming total completed
    let counted := { world with received := world.received + 1 }
    some (if shouldEmitFetching world.emitter now update then counted.emit update false
      else { counted with emitter := { world.emitter with
          pendingFetchingPayload := some update
          coalescedFetchingUpdates := world.emitter.coalescedFetchingUpdates + 1 } })
  | .other => some (world.flush true)
  | .flush => some (world.flush false)
  | .resolve task now =>
    match world.tasks[task]? with
    | none => none
    | some (.fetching emission another) => some { world.goOn task (some (.beating emission another)) with emitted := world.emitted ++ [emission] }
    | some (.beating emission another) =>
      some { world.goOn task (if another then some .flushed else none) with emitter := world.emitter.reset emission.update now }
    | some .flushed => some (world.goOn task (some .event))
    | some .event => some (world.goOn task (some .eventBeat))
    | some .eventBeat => some (world.goOn task none)
  | .reject task =>
    match world.tasks[task]? with
    | none => none
    | some .flushed => none
    | some _ => some (world.goOn task none)

def run (world : World settings) : List (Label settings) → Option (World settings)
  | [] => some world
  | label :: rest => (step world label).bind fun next => run next rest
def Task.begun : Task settings → Option (Emission settings)
  | .fetching emission _ => some emission
  | .beating emission _ => some emission
  | _ => none
def Task.announced : Task settings → Option (Emission settings)
  | .fetching emission _ => some emission
  | _ => none
@[simp] theorem announced_beating (emission : Emission settings) (another : Bool) : (Task.beating emission another).announced = none := rfl
def World.begun (world : World settings) : List (Emission settings) := world.tasks.filterMap Task.begun
def World.announced (world : World settings) : List (Emission settings) := world.tasks.filterMap Task.announced

/-- While an emission waits no update is coalesced, and no other one begins where updates are; and no
    emission fails. -/
def Quiet (world : World settings) : Label settings → Prop
  | .update total completed now =>
    world.begun = [] ∨ shouldEmitFetching world.emitter now (world.coming total completed) ∧ world.emitter.coalescedFetchingUpdates = 0
  | .other => world.begun = [] ∨ world.emitter.pendingFetchingPayload = none
  | .flush => world.begun = [] ∨ world.emitter.pendingFetchingPayload = none
  | .resolve _ _ => True
  | .reject task => ∀ waiting ∈ world.tasks[task]?, waiting.begun = none

def AllQuiet : World settings → List (Label settings) → Prop
  | _,[] => True
  | world,label :: rest => Quiet world label ∧ ∀ next ∈ step world label, AllQuiet next rest
/-- The step finds a pending update to flush. -/
def flushes (world : World settings) : Label settings → Nat
  | .other => if world.emitter.pendingFetchingPayload.isSome then 1 else 0
  | .flush => if world.emitter.pendingFetchingPayload.isSome then 1 else 0
  | .update _ _ _ => 0
  | .resolve _ _ => 0
  | .reject _ => 0
def allFlushes : World settings → List (Label settings) → Nat
  | _,[] => 0
  | world,label :: rest => flushes world label + ((step world label).map fun next => allFlushes next rest).getD 0
def counted (emissions : List (Emission settings)) : Nat := (emissions.map fun emission => emission.coalescedUpdates + 1).sum
@[simp] theorem counted_append (emissions others : List (Emission settings)) :
    counted (emissions ++ others) = counted emissions + counted others := by
  simp [counted]
@[simp] theorem counted_cons (emission : Emission settings) (others : List (Emission settings)) :
    counted (emission :: others) = emission.coalescedUpdates + 1 + counted others := by
  simp [counted]
@[simp] theorem counted_nil : counted ([] : List (Emission settings)) = 0 := rfl
theorem counted_eq (emissions : List (Emission settings)) :
    counted emissions = emissions.length + (emissions.map (·.coalescedUpdates)).sum := by
  induction emissions with
  | nil => rfl
  | cons emission rest ih =>
    rw [counted_cons,ih,length_cons,map_cons,sum_cons]
    omega
/-- No update is lost: the last one is in the store, and each is an event or coalesced in one. -/
structure Complete (world : World settings) : Prop where
  newest : 0 < world.received → ∃ emission ∈ world.emitted, emission.update.number = world.received
  all : world.emitted.length + (world.emitted.map (·.coalescedUpdates)).sum = world.received

/-- Every update is counted once and each flush once more, an emission that waits has announced what is counted, and the
    last update is in the store, announced or pending. -/
structure Balanced (world : World settings) (flushed : Nat) : Prop where
  count : world.received + flushed = counted world.emitted + counted world.announced +
    if world.begun.isEmpty then world.emitter.coalescedFetchingUpdates else 0
  same : ∀ emission ∈ world.begun, emission.coalescedUpdates = world.emitter.coalescedFetchingUpdates
  alone : 0 < world.emitter.coalescedFetchingUpdates → world.begun.length ≤ 1
  pending : world.emitter.pendingFetchingPayload.isSome ↔ 0 < world.emitter.coalescedFetchingUpdates
  newest : 0 < world.received → (∃ emission ∈ world.emitted ++ world.announced, emission.update.number = world.received) ∨
    world.begun = [] ∧ ∃ update ∈ world.emitter.pendingFetchingPayload, update.number = world.received

variable {world next : World settings} {flushed : Nat}
theorem start_balanced : Balanced (World.start : World settings) 0 :=
  ⟨rfl,nofun,nofun,by simp [World.start,Emitter.new],nofun⟩
theorem emit_begun (world : World settings) (update : Update settings) (another : Bool) :
    (world.emit update another).begun = world.begun ++ [⟨update,world.emitter.coalescedFetchingUpdates⟩] ∧
      (world.emit update another).announced = world.announced ++ [⟨update,world.emitter.coalescedFetchingUpdates⟩] := by
  simp [World.emit,World.begun,World.announced,Task.begun,Task.announced]

theorem Balanced.emit (balanced : Balanced world flushed) (quiet : world.begun = [] ∨ world.emitter.coalescedFetchingUpdates = 0)
    (update : Update settings) (another : Bool) {received more : Nat} (counts : received + more = world.received + flushed + 1)
    (newest : update.number = received ∨ received = world.received ∧ (0 < received →
      ∃ emission ∈ world.emitted ++ world.announced, emission.update.number = received)) :
    Balanced { world.emit update another with received } more := by
  obtain ⟨begun,announced⟩ := emit_begun world update another
  have emission : ∀ received : Nat, ({ world.emit update another with received } : World settings).begun = (world.emit update another).begun ∧
      ({ world.emit update another with received } : World settings).announced = (world.emit update another).announced :=
    fun _ => ⟨rfl,rfl⟩
  refine ⟨?_,?_,?_,balanced.pending,?_⟩
  · have before := balanced.count
    rw [(emission received).1,(emission received).2,begun,announced]
    simp only [World.emit,counted_append,counted_cons,counted_nil]
    rcases quiet with alone | none
    · simp [alone] at before ⊢
      omega
    · simp [none] at before ⊢
      omega
  · rw [(emission received).1,begun]
    exact forall_mem_append.mpr ⟨balanced.same,by simp [World.emit]⟩
  · intro some
    rw [(emission received).1,begun]
    rcases quiet with alone | none
    · simp [alone]
    · exact absurd none (Nat.ne_of_gt some)
  · intro some
    left
    rw [(emission received).2,announced]
    rcases newest with isLast | ⟨_,earlier⟩
    · exact ⟨_,mem_append_right _ (mem_append_right _ mem_cons_self),isLast⟩
    · obtain ⟨before,member,isLast⟩ := earlier some
      rw [← append_assoc]
      exact ⟨before,mem_append_left _ member,isLast⟩

theorem Balanced.update (balanced : Balanced world flushed) {total completed : Option settings.Number} {now : Int}
    (quiet : Quiet world (.update total completed now)) (stepped : step world (.update total completed now) = some next) :
    Balanced next flushed := by
  rw [step] at stepped
  obtain rfl := Option.some.inj stepped
  cases emits : shouldEmitFetching world.emitter now (world.coming total completed) with
  | true =>
    rw [if_pos rfl]
    have counts : world.received + 1 + flushed = world.received + flushed + 1 := Nat.add_right_comm ..
    exact balanced.emit (quiet.imp_right And.right) (world.coming total completed) false counts (.inl rfl)
  | false =>
    rw [if_neg Bool.false_ne_true]
    have alone : world.begun = [] := by
      rcases quiet with alone | ⟨emitted,_⟩
      · exact alone
      · rw [emits] at emitted
        cases emitted
    have before := balanced.count
    refine ⟨?_,?_,?_,?_,?_⟩
    · have waiting : ({ world with
          received := world.received + 1
          emitter := { world.emitter with
            pendingFetchingPayload := some (world.coming total completed)
            coalescedFetchingUpdates := world.emitter.coalescedFetchingUpdates + 1 } } : World settings).begun = world.begun := rfl
      rw [alone] at before waiting
      simp only [waiting]
      simp only [isEmpty_nil,if_true] at before ⊢
      change world.received + 1 + flushed = counted world.emitted + counted world.announced + (world.emitter.coalescedFetchingUpdates + 1)
      omega
    · intro emission member
      change emission ∈ world.begun at member
      rw [alone] at member
      cases member
    · intro _
      change world.begun.length ≤ 1
      rw [alone]
      exact Nat.zero_le 1
    · exact ⟨fun _ => Nat.succ_pos _,fun _ => rfl⟩
    · exact fun _ => .inr ⟨alone,_,rfl,rfl⟩

theorem Balanced.flush (balanced : Balanced world flushed) (quiet : world.begun = [] ∨ world.emitter.pendingFetchingPayload = none)
    (another : Bool) :
    Balanced (world.flush another) ((if world.emitter.pendingFetchingPayload.isSome then 1 else 0) + flushed) := by
  rw [World.flush]
  cases isPending : world.emitter.pendingFetchingPayload with
  | none =>
    rw [Option.isSome_none,if_neg Bool.false_ne_true,Nat.zero_add]
    cases another with
    | false => exact balanced
    | true =>
      have begun : ({ world with tasks := world.tasks ++ [.flushed] } : World settings).begun = world.begun := by
        simp [World.begun,Task.begun]
      have announced : ({ world with tasks := world.tasks ++ [.flushed] } : World settings).announced = world.announced := by
        simp [World.announced,Task.announced]
      refine ⟨?_,?_,?_,balanced.pending,?_⟩
      · simp only [if_true,begun,announced]
        exact balanced.count
      · simp only [if_true,begun]
        exact balanced.same
      · simp only [if_true,begun]
        exact balanced.alone
      · simp only [if_true,begun,announced]
        exact balanced.newest
  | some update =>
    have alone : world.begun = [] := by
      rcases quiet with alone | none
      · exact alone
      · rw [isPending] at none
        cases none
    rw [Option.isSome_some,if_pos rfl]
    refine balanced.emit (.inl alone) update another (by omega) ?_
    by_cases some : 0 < world.received
    · rcases balanced.newest some with earlier | ⟨_,last,isLast,number⟩
      · exact .inr ⟨rfl,fun _ => earlier⟩
      · rw [isPending,Option.mem_some_iff] at isLast
        exact .inl (isLast ▸ number)
    · exact .inr ⟨rfl,fun positive => absurd positive some⟩

variable {task : Nat} {waiting : Task settings}
theorem goOn_split (found : world.tasks[task]? = some waiting) :
    ∃ before after, world.tasks = before ++ waiting :: after ∧
      ∀ next : Option (Task settings), (world.goOn task next).tasks = before ++ next.toList ++ after := by
  obtain ⟨inside,isWaiting⟩ := List.getElem?_eq_some_iff.mp found
  refine ⟨world.tasks.take task,world.tasks.drop (task + 1),?_,fun _ => rfl⟩
  rw [← isWaiting,← drop_eq_getElem_cons inside,take_append_drop]

theorem Balanced.goOn (balanced : Balanced world flushed)
    (found : world.tasks[task]? = some waiting) (others : waiting.begun = none) (following : Option (Task settings))
    (alsoOthers : ∀ other ∈ following, other.begun = none) : Balanced (world.goOn task following) flushed := by
  obtain ⟨before,after,isTasks,goes⟩ := goOn_split found
  have announced : ∀ other : Task settings, other.begun = none → other.announced = none := by
    intro other none
    cases other <;> first | rfl | cases none
  have begunSame : (world.goOn task following).begun = world.begun := by
    rw [World.begun,World.begun,goes,isTasks]
    cases following with
    | none => simp [others]
    | some other => simp [others,alsoOthers other rfl]
  have announcedSame : (world.goOn task following).announced = world.announced := by
    rw [World.announced,World.announced,goes,isTasks]
    cases following with
    | none => simp [announced waiting others]
    | some other => simp [announced waiting others,announced other (alsoOthers other rfl)]
  refine ⟨?_,?_,?_,balanced.pending,?_⟩
  · rw [begunSame,announcedSame]
    exact balanced.count
  · rw [begunSame]
    exact balanced.same
  · rw [begunSame]
    exact balanced.alone
  · rw [begunSame,announcedSame]
    exact balanced.newest

variable {another : Bool} {emission : Emission settings}

theorem Balanced.taken (balanced : Balanced world flushed)
    (found : world.tasks[task]? = some (.fetching emission another)) :
    Balanced { world.goOn task (some (.beating emission another)) with emitted := world.emitted ++ [emission] } flushed := by
  obtain ⟨before,after,isTasks,goes⟩ := goOn_split found
  have begunSame : (world.goOn task (some (.beating emission another))).begun = world.begun := by
    rw [World.begun,World.begun,goes,isTasks]
    simp [Task.begun]
  have was : world.announced = before.filterMap Task.announced ++ emission :: after.filterMap Task.announced := by
    simp [World.announced,isTasks,Task.announced]
  have isNow : (world.goOn task (some (.beating emission another))).announced =
      before.filterMap Task.announced ++ after.filterMap Task.announced := by
    simp [World.announced,goes,filterMap_cons]
  have same : ∀ emitted : List (Emission settings),
      ({ world.goOn task (some (.beating emission another)) with emitted } : World settings).begun =
          (world.goOn task (some (.beating emission another))).begun ∧
        ({ world.goOn task (some (.beating emission another)) with emitted } : World settings).announced =
          (world.goOn task (some (.beating emission another))).announced := fun _ => ⟨rfl,rfl⟩
  refine ⟨?_,?_,?_,balanced.pending,?_⟩
  · have counts := balanced.count
    rw [was] at counts
    rw [(same _).1,(same _).2,begunSame,isNow]
    simp only [counted_append,counted_cons,counted_nil] at counts ⊢
    refine counts.trans ?_
    simp only [World.goOn]
    omega
  · rw [(same _).1,begunSame]
    exact balanced.same
  · rw [(same _).1,begunSame]
    exact balanced.alone
  · intro some
    rw [(same _).1,(same _).2,begunSame,isNow]
    refine (balanced.newest some).imp_left ?_
    rintro ⟨last,member,number⟩
    refine ⟨last,?_,number⟩
    rw [was] at member
    simp only [mem_append,mem_cons,not_mem_nil,or_false] at member ⊢
    tauto

theorem Balanced.reset (balanced : Balanced world flushed)
    (found : world.tasks[task]? = some (.beating emission another)) (now : Int) (following : Option (Task settings))
    (others : ∀ other ∈ following, other.begun = none ∧ other.announced = none) :
    Balanced { world.goOn task following with emitter := world.emitter.reset emission.update now } flushed := by
  obtain ⟨before,after,isTasks,goes⟩ := goOn_split found
  have was : world.begun = before.filterMap Task.begun ++ emission :: after.filterMap Task.begun := by
    simp [World.begun,isTasks,Task.begun]
  have isNow : (world.goOn task following).begun = before.filterMap Task.begun ++ after.filterMap Task.begun := by
    rw [World.begun,goes]
    cases following with
    | none => simp
    | some other => simp [(others other rfl).1]
  have announcedSame : (world.goOn task following).announced = world.announced := by
    rw [World.announced,World.announced,goes,isTasks]
    cases following with
    | none => simp [filterMap_cons]
    | some other => simp [filterMap_cons,(others other rfl).2]
  have same : ∀ emitter : Emitter settings, ({ world.goOn task following with emitter } : World settings).begun = (world.goOn task following).begun ∧
      ({ world.goOn task following with emitter } : World settings).announced = (world.goOn task following).announced := fun _ => ⟨rfl,rfl⟩
  have some' : world.begun.isEmpty = false := by simp [was]
  have busy : world.begun ≠ [] := by simp [was]
  refine ⟨?_,?_,?_,?_,?_⟩
  · have counts := balanced.count
    rw [some',if_neg Bool.false_ne_true] at counts
    rw [(same _).1,(same _).2,announcedSame]
    simp only [Emitter.reset,ite_self]
    exact counts
  · rw [(same _).1,isNow]
    intro other member
    have isBegun : other ∈ world.begun := by
      rw [was]
      simp only [mem_append,mem_cons] at member ⊢
      tauto
    by_cases none : world.emitter.coalescedFetchingUpdates = 0
    · exact (balanced.same other isBegun).trans none
    · -- What is counted was announced by one emission only, which is this one.
      have alone := balanced.alone (Nat.pos_of_ne_zero none)
      rw [was] at alone
      simp only [length_append,length_cons] at alone
      have nobody : before.filterMap Task.begun ++ after.filterMap Task.begun = [] := by
        apply eq_nil_of_length_eq_zero
        rw [length_append]
        omega
      rw [nobody] at member
      cases member
  · exact fun some => absurd some (Nat.lt_irrefl 0)
  · simp [Emitter.reset]
  · intro some
    rw [(same _).2,announcedSame]
    exact .inl ((balanced.newest some).resolve_right fun pending => busy pending.1)

theorem Balanced.step (balanced : Balanced world flushed) {label : Label settings} (quiet : Quiet world label)
    (stepped : FetchUpdates.step world label = some next) : Balanced next (flushes world label + flushed) := by
  cases label with
  | update total completed now =>
    rw [flushes,Nat.zero_add]
    exact balanced.update quiet stepped
  | other =>
    obtain rfl := Option.some.inj stepped
    exact balanced.flush quiet true
  | flush =>
    obtain rfl := Option.some.inj stepped
    exact balanced.flush quiet false
  | resolve task now =>
    rw [flushes,Nat.zero_add]
    rw [FetchUpdates.step] at stepped
    cases found : world.tasks[task]? with
    | none =>
      rw [found] at stepped
      cases stepped
    | some waiting =>
      rw [found] at stepped
      cases waiting with
      | fetching emission another =>
        obtain rfl := Option.some.inj stepped
        exact balanced.taken found
      | beating emission another =>
        obtain rfl := Option.some.inj stepped
        refine balanced.reset found now _ ?_
        intro other isNext
        cases another <;> cases isNext
        exact ⟨rfl,rfl⟩
      | flushed =>
        obtain rfl := Option.some.inj stepped
        refine balanced.goOn found rfl _ ?_
        rintro other ⟨⟩
        rfl
      | event =>
        obtain rfl := Option.some.inj stepped
        refine balanced.goOn found rfl _ ?_
        rintro other ⟨⟩
        rfl
      | eventBeat =>
        obtain rfl := Option.some.inj stepped
        exact balanced.goOn found rfl none nofun
  | reject task =>
    rw [flushes,Nat.zero_add]
    rw [FetchUpdates.step] at stepped
    cases found : world.tasks[task]? with
    | none =>
      rw [found] at stepped
      cases stepped
    | some waiting =>
      have others : waiting.begun = none := quiet waiting found
      rw [found] at stepped
      cases waiting with
      | fetching emission another => cases others
      | beating emission another => cases others
      | flushed => cases stepped
      | event =>
        obtain rfl := Option.some.inj stepped
        exact balanced.goOn found rfl none nofun
      | eventBeat =>
        obtain rfl := Option.some.inj stepped
        exact balanced.goOn found rfl none nofun

variable {labels : List (Label settings)}

theorem Balanced.run (balanced : Balanced world flushed) (quiet : AllQuiet world labels) (runs : FetchUpdates.run world labels = some next) :
    Balanced next (allFlushes world labels + flushed) := by
  induction labels generalizing world flushed with
  | nil =>
    obtain rfl := Option.some.inj runs
    rw [allFlushes,Nat.zero_add]
    exact balanced
  | cons label rest ih =>
    obtain ⟨between,stepped,goes⟩ := Option.bind_eq_some_iff.mp runs
    have kept := ih (balanced.step quiet.1 stepped) (quiet.2 between stepped) goes
    have total : allFlushes between rest + (flushes world label + flushed) = allFlushes world (label :: rest) + flushed := by
      rw [allFlushes,stepped,Option.map_some,Option.getD_some]
      omega
    exact total ▸ kept

/-- `flush()`, called alone, and what it waits for. -/
def flushing (world : World settings) (now later : Int) : List (Label settings) :=
  .flush :: if world.emitter.pendingFetchingPayload.isSome then [.resolve 0 now,.resolve 0 later] else []

theorem flush_alone (idle : world.tasks = []) (now later : Int) :
    ∃ settled, run world (flushing world now later) = some settled ∧ AllQuiet world (flushing world now later) ∧
      settled.tasks = [] ∧ settled.emitter.pendingFetchingPayload = none := by
  have alone : world.begun = [] := by rw [World.begun,idle,filterMap_nil]
  cases isPending : world.emitter.pendingFetchingPayload with
  | none =>
    refine ⟨world,?_,?_,idle,isPending⟩
    · simp [flushing,isPending,run,step,World.flush]
    · simp [flushing,isPending,AllQuiet,Quiet,alone]
  | some update =>
    have first : step world .flush = some (world.emit update false) := by
      rw [step,World.flush,isPending]
    generalize isEmitted : world.emit update false = waiting at first
    have tasks : waiting.tasks = [.fetching ⟨update,world.emitter.coalescedFetchingUpdates⟩ false] := by
      rw [← isEmitted,World.emit,idle,nil_append]
    have second : step waiting (.resolve 0 now) = some { waiting with
        tasks := [.beating ⟨update,world.emitter.coalescedFetchingUpdates⟩ false]
        emitted := waiting.emitted ++ [⟨update,world.emitter.coalescedFetchingUpdates⟩] } := by
      simp [step,tasks,World.goOn]
    generalize isTaken : ({ waiting with
        tasks := [.beating ⟨update,world.emitter.coalescedFetchingUpdates⟩ false]
        emitted := waiting.emitted ++ [⟨update,world.emitter.coalescedFetchingUpdates⟩] } : World settings) = taken at second
    have third : step taken (.resolve 0 later) = some { taken with tasks := [],emitter := taken.emitter.reset update later } := by
      rw [← isTaken]
      simp [step,World.goOn]
    refine ⟨{ taken with tasks := [],emitter := taken.emitter.reset update later },?_,?_,rfl,rfl⟩
    · simp [flushing,isPending,run,first,second,third]
    · simp [flushing,isPending,AllQuiet,Quiet,alone]

theorem Balanced.settled (balanced : Balanced world flushed) (idle : world.tasks = [])
    (nothing : world.emitter.pendingFetchingPayload = none) :
    (0 < world.received → ∃ emission ∈ world.emitted, emission.update.number = world.received) ∧ (Complete world ↔ flushed = 0) := by
  have begun : world.begun = [] := by rw [World.begun,idle,filterMap_nil]
  have announced : world.announced = [] := by rw [World.announced,idle,filterMap_nil]
  have none : world.emitter.coalescedFetchingUpdates = 0 := by
    by_contra some
    have isPending := balanced.pending.mpr (Nat.pos_of_ne_zero some)
    rw [nothing] at isPending
    cases isPending
  have count := balanced.count
  rw [begun,announced,none,ite_self,counted_nil,counted_eq] at count
  have newest : 0 < world.received → ∃ emission ∈ world.emitted, emission.update.number = world.received := by
    intro some
    rcases balanced.newest some with ⟨emission,member,isLast⟩ | ⟨_,update,isPending,_⟩
    · rw [announced,append_nil] at member
      exact ⟨emission,member,isLast⟩
    · rw [nothing] at isPending
      cases isPending
  refine ⟨newest,fun complete => ?_,fun unflushed => ⟨newest,?_⟩⟩
  · have all := complete.all
    omega
  · omega

theorem run_append (more : List (Label settings)) (runs : run world labels = some next) : run world (labels ++ more) = run next more := by
  induction labels generalizing world with
  | nil =>
    obtain rfl := Option.some.inj runs
    rfl
  | cons label rest ih =>
    obtain ⟨between,stepped,goes⟩ := Option.bind_eq_some_iff.mp runs
    rw [cons_append,run,stepped]
    exact ih goes

theorem allQuiet_cons {label : Label settings} (stepped : step world label = some next) (quiet : Quiet world label)
    (others : AllQuiet next labels) : AllQuiet world (label :: labels) := by
  refine ⟨quiet,fun other isOther => ?_⟩
  rw [stepped,Option.mem_some_iff] at isOther
  exact isOther ▸ others

theorem allQuiet_append {more : List (Label settings)} (runs : run world labels = some next) (quiet : AllQuiet world labels)
    (also : AllQuiet next more) : AllQuiet world (labels ++ more) := by
  induction labels generalizing world with
  | nil =>
    obtain rfl := Option.some.inj runs
    exact also
  | cons label rest ih =>
    obtain ⟨between,stepped,goes⟩ := Option.bind_eq_some_iff.mp runs
    exact allQuiet_cons stepped quiet.1 (ih goes (quiet.2 between stepped))

/-- After quiet steps and a flush the last update is in the store, and none is lost exactly if no flush has found one
    pending. -/
theorem complete_iff (runs : run World.start labels = some world) (quiet : AllQuiet World.start labels) (idle : world.tasks = [])
    (now later : Int) :
    ∃ settled, run World.start (labels ++ flushing world now later) = some settled ∧
      (0 < settled.received → ∃ emission ∈ settled.emitted, emission.update.number = settled.received) ∧
      (Complete settled ↔ allFlushes World.start (labels ++ flushing world now later) = 0) := by
  obtain ⟨settled,flushes,quietFlush,none,nothing⟩ := flush_alone idle now later
  have whole := (run_append (flushing world now later) runs).trans flushes
  have balanced := start_balanced.run (allQuiet_append runs quiet quietFlush) whole
  exact ⟨settled,whole,balanced.settled none nothing⟩

/-- Whole percentages, steps of five of them, and five seconds. -/
def wholePercents : Settings where
  Number := Int
  minusInfinity := -1000
  positive number := 0 < number
  atLeast number other := other ≤ number
  percent completed total := completed * 100 / total
  minus number other := number - other
  minPercentStep := (5 : Int)
  minIntervalMs := 5000

def windows (completed now : Int) : Label wholePercents := .update (some (100 : Int)) (some completed) now

/-- An update that is coalesced and one that is emitted after it. -/
theorem oneAfterTheOther_complete :
    ∃ settled, run World.start [windows 0 0,.resolve 0 1,.resolve 0 1,windows 1 2,windows 6 3,.resolve 0 4,.resolve 0 4,.flush] = some settled ∧
      Complete settled := by
  have quiet : AllQuiet World.start [windows 0 0,.resolve 0 1,.resolve 0 1,windows 1 2,windows 6 3,.resolve 0 4,.resolve 0 4] :=
    allQuiet_cons rfl (.inl rfl) (allQuiet_cons rfl trivial (allQuiet_cons rfl trivial (allQuiet_cons rfl (.inl rfl)
      (allQuiet_cons rfl (.inl rfl) (allQuiet_cons rfl trivial (allQuiet_cons rfl trivial trivial))))))
  obtain ⟨settled,runs,_,complete⟩ := complete_iff rfl quiet rfl 5 5
  exact ⟨settled,runs,complete.mpr rfl⟩

/-- Two updates are emitted at once; one that comes between their ends is pending, and is forgotten. -/
theorem updateBetween_lost :
    ∃ world settled, run World.start [windows 0 0,.resolve 0 1,.resolve 0 1,windows 6 2,windows 7 2,.resolve 0 3,.resolve 0 3,windows 8 3,
          .resolve 0 4,.resolve 0 4] = some world ∧ world.tasks = [] ∧ run world (flushing world 5 5) = some settled ∧
      ¬ Complete settled ∧ settled.received = 4 ∧ settled.emitted.map (fun emission => emission.update.number) = [1,2,3] := by
  refine ⟨_,_,rfl,rfl,rfl,?_,rfl,rfl⟩
  intro complete
  obtain ⟨emission,member,isLast⟩ := complete.newest (by decide)
  have numbers : emission.update.number ∈ [1,2,3] := mem_map_of_mem (f := fun emission => emission.update.number) member
  rw [isLast] at numbers
  exact absurd numbers (by decide)

end Codebot.FetchUpdates
