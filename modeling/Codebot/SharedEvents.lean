import Codebot.RuntimeHeartbeats

/-!
The requests of the owner that add events to a runtime, one after the other. The client's key is kept by the
idempotency layer for each path and body, and by the repository as the key of the event, so that a request under the
key of another one is answered with the event of that one (`own_events_iff`).
-/
namespace Codebot.SharedEvents
open Runs Texts RuntimeHeartbeats
open NautilusRuntimes (RuntimeState EventType runtimeStateAfterEvent)
open EventBatches (RuntimeEvent made existing lastSequence)

/-- The body of a request, with its path: an event, a heartbeat with its payload, a stop or the kill switch. -/
inductive Body
  | event (type : EventType) (payload : Option Payload)
  | heartbeat (payload : Payload)
  | stop
  | killSwitch (reason : Text)
inductive Path
  | events | heartbeat | stop | killSwitch
deriving DecidableEq
def Body.path : Body → Path
  | .event .. => .events
  | .heartbeat _ => .heartbeat
  | .stop => .stop
  | .killSwitch _ => .killSwitch
/-- A request, and the id that is drawn for an event. -/
structure Request where
  body : Body
  idempotencyKey : Option Text
  now : Int
  id : Nat
abbrev Event := RuntimeEvent EventType Text Payload
/-- `NautilusRuntimeEventIngestResponse` without the runtime, or a response with the runtime only. -/
inductive Response
  | ingest (eventAppended : Bool) (event : Option Event)
  | runtime
/-- The runtime with its events, and the records of the idempotency layer, whose response is there when they
    are completed. -/
structure State where
  store : Store Text
  records : Path × Text → Option (Body × Option Response)

section
variable (sql : Bool)

/-- `append_nautilus_runtime_event`. -/
def append (request : Request) (type : EventType) (payload : Option Payload) (store : Store Text) : Event × Store Text :=
  match existing store.events request.idempotencyKey with
  | some event => (event,store)
  | none =>
    let sequence := if sql then lastSequence store.events + 1 else store.events.length + 1
    let event := made store.record.runtime request.id sequence request.now ⟨type,payload,request.idempotencyKey⟩
    (event,{ store with events := store.events ++ [event] })

def setState (state : RuntimeState) (store : Store Text) : Store Text := { store with record := { store.record with state } }
/-- `activate_nautilus_runtime_kill_switch`. -/
def activateKillSwitch (store : Store Text) : Store Text :=
  { store with record := { store.record with state := .stopping, killSwitchActive := true } }
/-- `record_nautilus_runtime_heartbeat` for the owner. -/
def heartbeat (request : Request) (payload : Option Payload) (store : Store Text) : Outcome Text :=
  let call : Call Text := ⟨store.record.runtime.ownerUserId,store.record.runtime.workspaceId,request.now,payload,request.idempotencyKey,request.id⟩
  if sql then heartbeatInSql call store else heartbeatInMemory call store

/-- The handlers, which answer or raise. -/
def handle (request : Request) (store : Store Text) : Option Response × Store Text :=
  match request.body with
  | .event .heartbeat payload =>
    match heartbeat sql request payload store with
    | (.ok (some beat),next) => (some (.ingest beat.eventAppended beat.event),next)
    | (_,next) => (none,next)
  | .event type payload =>
    let appended := append sql request type payload store
    let record := appended.2.record
    (some (.ingest true (some appended.1)),setState (runtimeStateAfterEvent record.state record.killSwitchActive type) appended.2)
  | .heartbeat payload =>
    match heartbeat sql request (some payload) store with
    | (.ok (some _),next) => (some .runtime,next)
    | (_,next) => (none,next)
  | .stop =>
    (some .runtime,(append sql request .stopRequested (some [(text "reason",.text (text "operator_requested"))]) (setState .stopping store)).2)
  | .killSwitch reason =>
    (some .runtime,(append sql request .riskBlock
      (some [(text "reason",.text reason),(text "action",.text (text "kill_switch"))]) (activateKillSwitch store)).2)

/-- `begin_idempotency`: the key of the record, if there is one. -/
def recordKey (request : Request) : Option (Path × Text) :=
  request.idempotencyKey.bind fun key => if key = [] then none else some (request.body.path,key)
def State.handles (s : State) (request : Request) : Bool := (recordKey request).all fun key => (s.records key).isNone
inductive Label
  | request (request : Request)
  | expire (key : Path × Text)

/-- A request whose drawn id is new, and its record, or the expiry of one. -/
def step (s : State) : Label → Option State
  | .request request =>
    if request.id ∈ s.store.events.map (·.id) then none
    else if s.handles request then
      let handled := handle sql request s.store
      some ⟨handled.2,(recordKey request).elim s.records fun key => Function.update s.records key (some (request.body,handled.1))⟩
    else some s
  | .expire key => some { s with records := Function.update s.records key none }

def answered (s : State) : Label → Option Response
  | .request request => if s.handles request then (handle sql request s.store).1 else none
  | .expire _ => none

end

/-- A request that is answered as if it had added an event has added it: a new one of its type and payload. -/
def Owns (sql : Bool) (s : State) (label : Label) (t : State) : Prop :=
  ∀ event, answered sql s label = some (.ingest true event) → ∃ request type payload own, label = .request request ∧
    request.body = .event type payload ∧ event = some own ∧ own.type = type ∧ own.payload = payload ∧ own ∉ s.store.events ∧
    t.store.events = s.store.events ++ [own]

/-- The events of the requests of a run: each has its own, and no two have the same. -/
structure OwnEvents (sql : Bool) (s : State) (labels : List Label) : Prop where
  owns : ∀ before label after mid next, labels = before ++ label :: after → run (step sql) s before = some mid →
    step sql mid label = some next → Owns sql mid label next
  apart : ∀ before one between other after mid next last event also, labels = before ++ one :: between ++ other :: after →
    run (step sql) s before = some mid → step sql mid one = some next → run (step sql) next between = some last →
    answered sql mid one = some (.ingest true (some event)) → answered sql last other = some (.ingest true (some also)) →
    (step sql last other).isSome → event ≠ also

/-- A request for an event is under a key that no event has, or it adds no event, or one of another time. -/
def Fresh (s : State) : Label → Prop
  | .request request => request.id ∉ s.store.events.map (·.id) → s.handles request = true → ∀ type payload, request.body = .event type payload →
    ∀ event ∈ existing s.store.events request.idempotencyKey, type = .heartbeat ∧ (event.createdAt = request.now →
      ∀ state, nextState s.store.record payload = .ok state → shouldAppend s.store.record state request.now = false)
  | .expire _ => True

variable {sql : Bool} {s t : State} {label : Label} {request : Request} {store : Store Text}

theorem heartbeat_cases (payload : Option Payload) :
    heartbeat sql request payload store = (.error (),store) ∧ (∀ state, nextState store.record payload ≠ .ok state) ∨
    ∃ state beat next, nextState store.record payload = .ok state ∧ heartbeat sql request payload store = (.ok (some beat),next) ∧
      beat.event = (if shouldAppend store.record state request.now then some (append sql request .heartbeat payload store).1 else none) ∧
      beat.eventAppended = (beat.event.any fun event => event.createdAt == request.now) ∧
      next.events = if shouldAppend store.record state request.now then (append sql request .heartbeat payload store).2.events
        else store.events := by
  have allowed : ∀ call : Call Text, call.userId = store.record.runtime.ownerUserId →
      call.workspaceId = store.record.runtime.workspaceId → authorized call store.record = true := by
    intro call user workspace
    simp [authorized,user,workspace]
  cases next : nextState store.record payload with
  | error failure =>
    refine .inl ⟨?_,nofun⟩
    cases sql <;> simp [heartbeat,heartbeatInSql,heartbeatInMemory,allowed,next]
  | ok state =>
    refine .inr ⟨state,?_⟩
    have append_eq : ∀ sequence, sequence = (if sql then lastSequence store.events + 1 else store.events.length + 1) →
        RuntimeHeartbeats.append ⟨store.record.runtime.ownerUserId,store.record.runtime.workspaceId,request.now,payload,
          request.idempotencyKey,request.id⟩ sequence store =
          ((append sql request .heartbeat payload store).1,(append sql request .heartbeat payload store).2.events) := by
      rintro sequence rfl
      unfold RuntimeHeartbeats.append append
      dsimp only
      cases existing store.events request.idempotencyKey <;> rfl
    cases sql with
    | true =>
      have appended := append_eq (lastSequence store.events + 1) rfl
      unfold heartbeat heartbeatInSql
      simp only [if_true,allowed,next,appended]
      exact ⟨_,_,trivial,rfl,rfl,rfl,rfl⟩
    | false =>
      have appended := append_eq (store.events.length + 1) rfl
      unfold heartbeat heartbeatInMemory
      simp only [Bool.false_eq_true,if_false,allowed,next,appended,if_true]
      refine ⟨_,_,trivial,rfl,rfl,?_,rfl⟩
      cases shouldAppend store.record state request.now <;> simp

theorem append_cases (type : EventType) (payload : Option Payload) :
    (∃ event ∈ existing store.events request.idempotencyKey, append sql request type payload store = (event,store)) ∨
    existing store.events request.idempotencyKey = none ∧ ∃ event : Event, event.id = request.id ∧ event.type = type ∧
      event.payload = payload ∧ event.createdAt = request.now ∧
      append sql request type payload store = (event,{ store with events := store.events ++ [event] }) := by
  unfold append
  cases found : existing store.events request.idempotencyKey with
  | some event => exact .inl ⟨event,rfl,rfl⟩
  | none => exact .inr ⟨rfl,_,rfl,rfl,rfl,rfl,rfl⟩

theorem existing_stored {key : Option Text} {event : Event} (found : event ∈ existing store.events key) : event ∈ store.events := by
  obtain ⟨key,_,isFirst⟩ := Option.bind_eq_some_iff.mp (Option.mem_def.mp found)
  exact List.mem_of_find?_eq_some isFirst

theorem handle_event {type : EventType} {payload : Option Payload} (isEvent : request.body = .event type payload) :
    (handle sql request store).1 = none ∧ type = .heartbeat ∧ (∀ state, nextState store.record payload ≠ .ok state) ∨
    (handle sql request store).1 = some (.ingest false none) ∧ type = .heartbeat ∧
      (∃ state, nextState store.record payload = .ok state ∧ shouldAppend store.record state request.now = false) ∨
    (type = .heartbeat → ∃ state, nextState store.record payload = .ok state ∧ shouldAppend store.record state request.now = true) ∧
      (handle sql request store).1 = some (.ingest
        (type != .heartbeat || (append sql request type payload store).1.createdAt == request.now)
        (some (append sql request type payload store).1)) ∧
      (handle sql request store).2.events = (append sql request type payload store).2.events := by
  unfold handle
  rw [isEvent]
  by_cases isBeat : type = .heartbeat
  · subst isBeat
    rcases @heartbeat_cases sql request store payload with ⟨raised,never⟩ | ⟨state,beat,next,isNext,beaten,event,appended,events⟩
    · refine .inl ⟨?_,rfl,never⟩
      simp only [raised]
    · dsimp only
      rw [beaten]
      cases due : shouldAppend store.record state request.now with
      | false =>
        rw [due] at event
        refine .inr (.inl ⟨?_,rfl,state,isNext,due⟩)
        simp only [appended,event]
        rfl
      | true =>
        rw [due] at event events
        refine .inr (.inr ⟨fun _ => ⟨state,isNext,due⟩,?_,events⟩)
        simp only [appended,event]
        rfl
  · refine .inr (.inr ⟨fun same => absurd same isBeat,?_⟩)
    cases type
    · exact absurd rfl isBeat
    all_goals exact ⟨rfl,rfl⟩

theorem owns_iff (s : State) (label : Label) : (∀ t, step sql s label = some t → Owns sql s label t) ↔ Fresh s label := by
  constructor
  · intro owns
    cases label with
    | expire key => trivial
    | request request =>
      intro isNew handles type payload isEvent event found
      have stepped : ∃ t, step sql s (.request request) = some t := by
        rw [step,if_neg isNew,if_pos handles]
        exact ⟨_,rfl⟩
      obtain ⟨t,stepped⟩ := stepped
      rcases @handle_event sql request s.store type payload isEvent with ⟨_,isBeat,never⟩ | ⟨_,isBeat,state,isNext,notDue⟩ | ⟨_,answer,_⟩
      · exact ⟨isBeat,fun _ state isNext => absurd isNext (never state)⟩
      · refine ⟨isBeat,fun _ other isOther => ?_⟩
        rw [isNext] at isOther
        cases isOther
        exact notDue
      · have appended : (append sql request type payload s.store).1 = event := by
          rw [append,Option.mem_def.mp found]
        rw [appended] at answer
        cases flag : (type != .heartbeat || event.createdAt == request.now) with
        | true =>
          rw [flag] at answer
          have isAnswered : answered sql s (.request request) = some (.ingest true (some event)) := by
            rw [answered,if_pos handles,answer]
          obtain ⟨_,_,_,own,_,_,same,_,_,new,_⟩ := owns t stepped (some event) isAnswered
          cases same
          exact absurd (existing_stored found) new
        | false =>
          rw [Bool.or_eq_false_iff] at flag
          exact ⟨by simpa using flag.1,fun same => absurd same (by simpa using flag.2)⟩
  · intro fresh t stepped event isAnswered
    cases label with
    | expire key => cases isAnswered
    | request request =>
      rw [answered] at isAnswered
      split_ifs at isAnswered with handles
      rw [step,if_pos handles] at stepped
      split_ifs at stepped with isNew
      cases stepped
      cases body : request.body with
      | event type payload =>
        rcases @handle_event sql request s.store type payload body with ⟨none,_⟩ | ⟨silent,_⟩ | ⟨due,answer,events⟩
        · rw [none] at isAnswered
          cases isAnswered
        · rw [silent] at isAnswered
          cases isAnswered
        · rw [answer] at isAnswered
          injection isAnswered with same
          injection same with flag same
          subst same
          rcases @append_cases sql request s.store type payload with ⟨stored,found,_⟩ | ⟨_,own,isId,isType,isPayload,_,appended⟩
          · obtain ⟨isBeat,late⟩ := fresh isNew handles type payload body stored found
            have appended : (append sql request type payload s.store).1 = stored := by
              rw [append,Option.mem_def.mp found]
            rw [appended,isBeat] at flag
            obtain ⟨state,isNext,isDue⟩ := due isBeat
            have notDue := late (by simpa using flag) state isNext
            rw [isDue] at notDue
            cases notDue
          · rw [appended] at events
            refine ⟨request,type,payload,own,rfl,body,by rw [appended],isType,isPayload,?_,events⟩
            exact fun stored => isNew (isId ▸ List.mem_map_of_mem stored)
      | heartbeat payload =>
        rw [handle,body] at isAnswered
        dsimp only at isAnswered
        split at isAnswered <;> cases isAnswered
      | stop =>
        rw [handle,body] at isAnswered
        cases isAnswered
      | killSwitch reason =>
        rw [handle,body] at isAnswered
        cases isAnswered

theorem append_grows (type : EventType) (payload : Option Payload) : store.events ⊆ (append sql request type payload store).2.events := by
  rcases @append_cases sql request store type payload with ⟨event,_,appended⟩ | ⟨_,event,_,_,_,_,appended⟩
  · rw [appended]
    exact List.Subset.refl _
  · rw [appended]
    exact List.subset_append_left _ _

theorem heartbeat_grows (payload : Option Payload) : store.events ⊆ (heartbeat sql request payload store).2.events := by
  rcases @heartbeat_cases sql request store payload with ⟨raised,_⟩ | ⟨state,beat,next,_,beaten,_,_,events⟩
  · rw [raised]
    exact List.Subset.refl _
  · rw [beaten]
    dsimp only
    rw [events]
    split_ifs
    · exact append_grows _ _
    · exact List.Subset.refl _

theorem step_grows (stepped : step sql s label = some t) : s.store.events ⊆ t.store.events := by
  cases label with
  | expire key =>
    cases stepped
    exact List.Subset.refl _
  | request request =>
    rw [step] at stepped
    split_ifs at stepped with isNew handles
    · cases stepped
      dsimp only
      cases body : request.body with
      | event type payload =>
        by_cases isBeat : type = .heartbeat
        · subst isBeat
          have grows := @heartbeat_grows sql request s.store payload
          rw [handle,body]
          dsimp only
          split <;> rename_i beaten <;> rw [beaten] at grows <;> exact grows
        · rcases @handle_event sql request s.store type payload body with ⟨_,same,_⟩ | ⟨_,same,_⟩ | ⟨_,_,events⟩
          · exact absurd same isBeat
          · exact absurd same isBeat
          · exact events ▸ append_grows type payload
      | heartbeat payload =>
        have grows := @heartbeat_grows sql request s.store (some payload)
        rw [handle,body]
        dsimp only
        split <;> rename_i beaten <;> rw [beaten] at grows <;> exact grows
      | stop =>
        rw [handle,body]
        exact @append_grows sql request (setState .stopping s.store) _ _
      | killSwitch reason =>
        rw [handle,body]
        exact @append_grows sql request (activateKillSwitch s.store) _ _
    · cases stepped
      exact List.Subset.refl _

theorem run_grows {labels : List Label} (ran : run (step sql) s labels = some t) : s.store.events ⊆ t.store.events := by
  induction labels generalizing s with
  | nil =>
    cases ran
    exact List.Subset.refl _
  | cons label rest ih =>
    obtain ⟨next,stepped,later⟩ := run_cons_some.mp ran
    exact List.Subset.trans (step_grows stepped) (ih later)

/-- The requests of a run have events of their own exactly if each is fresh. -/
theorem own_events_iff (sql : Bool) (s : State) (labels : List Label) : OwnEvents sql s labels ↔ Meets (step sql) Fresh s labels := by
  rw [← each_iff fun s label => @owns_iff sql s label]
  refine ⟨OwnEvents.owns,fun owns => ⟨owns,?_⟩⟩
  rintro before one between other after mid next last event also rfl ran stepped later isEvent isAlso goesOn
  have stored : event ∈ next.store.events := by
    obtain ⟨_,_,_,own,_,_,same,_,_,_,events⟩ := owns before one (between ++ other :: after) mid next (by simp) ran stepped _ isEvent
    cases same
    exact events ▸ List.mem_append_right _ (List.mem_singleton_self _)
  obtain ⟨t,steppedOn⟩ := Option.isSome_iff_exists.mp goesOn
  have whole : run (step sql) s (before ++ one :: between) = some last :=
    run_append_some.mpr ⟨mid,ran,run_cons_some.mpr ⟨next,stepped,later⟩⟩
  obtain ⟨_,_,_,own,_,_,same,_,_,new,_⟩ := owns (before ++ one :: between) other after last t rfl whole steppedOn _ isAlso
  cases same
  exact fun equal => new (equal ▸ run_grows later stored)

def plainState : State :=
  ⟨⟨⟨⟨0,0,0,none⟩,.running,false,none,0,none,none,0⟩,[]⟩,fun _ => none⟩

/-- A signal under the key of a stop is answered with the event of the stop. -/
theorem stop_answered_as_signal : ¬ ∀ (sql : Bool) (s : State) (labels : List Label), OwnEvents sql s labels := by
  intro all
  have owns := (all false plainState [.request ⟨.stop,some (text "k"),1,0⟩,.request ⟨.event .signal none,some (text "k"),2,1⟩]).owns
    [.request ⟨.stop,some (text "k"),1,0⟩] (.request ⟨.event .signal none,some (text "k"),2,1⟩) [] _ _ rfl rfl rfl _ rfl
  obtain ⟨_,_,_,_,isRequest,body,same,isType,_⟩ := owns
  cases isRequest
  cases body
  cases same
  cases isType
end Codebot.SharedEvents
