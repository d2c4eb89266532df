import Codebot.FailedBatches
import Codebot.JsonDumps

/-!
The keys of the events of a bar's orders. A key has the side and the quantity of the order and
nothing else of it, so that it tells any two orders apart that differ in one of them.
-/
namespace Codebot.OrderKeys
open Texts Raising Memories PaperSessions FailedBatches List
open NautilusRuntimes (EventType)
open JsonDumps (natText)

/-- The ids of the runtime and of its messages, and `repr` of a float, in which there is no colon. -/
structure Naming (Amount : Type) where
  runtimeId : Text
  messageId : Nat → Text
  entryId : Nat → Text
  repr : Amount → Text
  repr_injective : Function.Injective repr
  noColon : ∀ quantity, 58 ∉ repr quantity

variable {Amount : Type}

def typeText : EventType → Text
  | .heartbeat => text "heartbeat"
  | .strategyLoaded => text "strategy_loaded"
  | .signal => text "signal"
  | .orderIntent => text "order_intent"
  | .orderSubmitted => text "order_submitted"
  | .fill => text "fill"
  | .positionSnapshot => text "position_snapshot"
  | .pnlSnapshot => text "pnl_snapshot"
  | .warmupStarted => text "warmup_started"
  | .warmupCompleted => text "warmup_completed"
  | .warmupFailed => text "warmup_failed"
  | .riskBlock => text "risk_block"
  | .runtimeError => text "runtime_error"
  | .stopRequested => text "stop_requested"

def actionText : Action → Text
  | .stop => text "stop"
  | .reload => text "reload"
  | .killSwitch => text "kill-switch"
  | .other => []
def sideText : Side → Text
  | .buy => text "BUY"
  | .sell => text "SELL"
def snapshotText : EventType → Text
  | .positionSnapshot => text ":position"
  | .pnlSnapshot => text ":pnl"
  | _ => []
/-- `deterministic_event_key`, before the hash. -/
def deterministicEventKey (runtimeId sourceEventId eventType : Text) : Text :=
  runtimeId ++ (text ":" ++ (sourceEventId ++ (text ":" ++ eventType)))
def orderEventSource (naming : Naming Amount) (source : Nat) (side : Side) (quantity : Amount) : Text :=
  naming.messageId source ++ (text ":order:" ++ (sideText side ++ (text ":MARKET:" ++ naming.repr quantity)))

/-- The key of an event as it is hashed. -/
def keyText (naming : Naming Amount) : EventKey Amount → Text
  | .order type source side quantity =>
    deterministicEventKey naming.runtimeId (orderEventSource naming source side quantity ++ snapshotText type) (typeText type)
  | .warmup type generation source =>
    deterministicEventKey naming.runtimeId (text "generation-" ++ natText generation ++ text ":" ++ naming.messageId source) (typeText type)
  | .runtimeError source => deterministicEventKey naming.runtimeId (naming.messageId source) (typeText .runtimeError)
  | .command action entry => deterministicEventKey naming.runtimeId (naming.entryId entry) (actionText action)

def idempotencyKey (naming : Naming Amount) (event : NautilusRuntimeEventInput Amount) : Text := keyText naming event.key
/-- `append_nautilus_runtime_events_for_worker`: the events whose key is not stored. Two of them with
one key violate the constraint. -/
def append (naming : Naming Amount) (stored events : List (NautilusRuntimeEventInput Amount)) :
    Option (List (NautilusRuntimeEventInput Amount)) :=
  let new := unknown (idempotencyKey naming) (stored.map (idempotencyKey naming)) events
  if (new.map (idempotencyKey naming)).Nodup then some (stored ++ new) else none
/-- The batches of the events, one after the other. -/
def appendAll (naming : Naming Amount) (stored : List (NautilusRuntimeEventInput Amount)) :
    List (List (NautilusRuntimeEventInput Amount)) → Option (List (NautilusRuntimeEventInput Amount))
  | [] => some stored
  | batch :: rest => (append naming stored batch).bind fun stored => appendAll naming stored rest
/-- `_dedupe`, in a session that remembers these keys. -/
def dedupe (naming : Naming Amount) (memory : List Text) (events : List (NautilusRuntimeEventInput Amount)) :
    List (NautilusRuntimeEventInput Amount) :=
  (takeUp maxSessionIdempotencyKeys (idempotencyKey naming) memory events).2
def Fresh (naming : Naming Amount) (keys : List Text) (events : List (NautilusRuntimeEventInput Amount)) : Prop :=
  ∀ event ∈ events, idempotencyKey naming event ∉ keys

section
variable [LinearOrder Amount] [Zero Amount] [Add Amount] [Sub Amount] [Mul Amount] [Div Amount]

/-- The events of the orders of a bar, where each of them can be read. -/
def emitted (message : NativeMarketMessage Amount) (orders : List (Order Amount)) (session : NautilusRuntimeSession Amount) :
    Option (List (NautilusRuntimeEventInput Amount)) :=
  (forEach (emitSandboxOrderEvents message) session orders).2

/-- No two events of a bar have one key, and each has the same one when the bar is processed again, so that none is
    stored twice. -/
structure KeysRight (naming : Naming Amount) (message : NativeMarketMessage Amount) (orders : List (Order Amount)) : Prop where
  separate : ∀ session events, emitted message orders session = some events → (events.map (idempotencyKey naming)).Nodup
  returned : ∀ session events, emitted message orders session = some events → ∀ memory, Fresh naming memory events →
    dedupe naming memory events = events
  stored : ∀ session events, emitted message orders session = some events →
    ∀ stored, Fresh naming (stored.map (idempotencyKey naming)) events →
      ∀ batches, batches.flatten = events → appendAll naming stored batches = some (stored ++ events)
  again : ∀ session events, emitted message orders session = some events →
    ∀ other repeated, emitted message orders other = some repeated →
      repeated.map (idempotencyKey naming) = events.map (idempotencyKey naming) ∧
      ∀ stored, (∀ event ∈ events, idempotencyKey naming event ∈ stored.map (idempotencyKey naming)) →
        ∀ batches, batches.flatten = repeated → appendAll naming stored batches = some stored

end

/-- The keys of an order's events. -/
def orderKeys (naming : Naming Amount) (message : NativeMarketMessage Amount) (side : Side) (quantity : Amount) : List Text :=
  orderEventTypes.map fun type => keyText naming (.order type message.sourceEventId side quantity)
theorem orderEvents_keys (naming : Naming Amount) (message : NativeMarketMessage Amount) (side : Side) (quantity : Amount)
    (account : NautilusSandboxAccount Amount) :
    (orderEvents message side quantity account).map (idempotencyKey naming) = orderKeys naming message side quantity := rfl
def ending (type : EventType) : Text := snapshotText type ++ (text ":" ++ typeText type)
theorem ending_colon (type : EventType) : ∃ rest, ending type = 58 :: rest := by
  cases type <;> exact ⟨_,rfl⟩
theorem ending_injective : ∀ type ∈ orderEventTypes, ∀ other ∈ orderEventTypes, ending type = ending other → type = other := by
  decide
theorem sideText_injective : ∀ {side other : Side} {t u : Text}, sideText side ++ t = sideText other ++ u → side = other ∧ t = u
  | .buy, .buy, _, _, same => ⟨rfl,List.append_cancel_left same⟩
  | .sell, .sell, _, _, same => ⟨rfl,List.append_cancel_left same⟩
  | .buy, .sell, _, _, same => by cases same
  | .sell, .buy, _, _, same => by cases same

variable {otherQuantity : Amount} {otherSide : Side} {quantity : Amount} {side : Side}

theorem keyText_injective (naming : Naming Amount) (source : Nat) {type other : EventType} (isType : type ∈ orderEventTypes)
    (isOther : other ∈ orderEventTypes)
    (same : keyText naming (.order type source side quantity) = keyText naming (.order other source otherSide otherQuantity)) :
    type = other ∧ side = otherSide ∧ quantity = otherQuantity := by
  simp only [keyText,deterministicEventKey,orderEventSource,append_assoc,append_cancel_left_eq] at same
  obtain ⟨sameSide,after⟩ := sideText_injective same
  have tail : naming.repr quantity ++ ending type = naming.repr otherQuantity ++ ending other := append_cancel_left after
  obtain ⟨rest,isRest⟩ := ending_colon type
  obtain ⟨otherRest,isOtherRest⟩ := ending_colon other
  rw [isRest,isOtherRest] at tail
  obtain ⟨sameQuantity,sameRest⟩ := before_mark (naming.noColon quantity) (naming.noColon otherQuantity) tail
  refine ⟨ending_injective type isType other isOther ?_,sameSide,naming.repr_injective sameQuantity⟩
  rw [isRest,isOtherRest,sameRest]

theorem orderKeys_nodup (naming : Naming Amount) (message : NativeMarketMessage Amount) (side : Side) (quantity : Amount) :
    (orderKeys naming message side quantity).Nodup := by
  refine List.Nodup.map_on ?_ (by decide)
  intro type isType other isOther same
  exact (keyText_injective naming message.sourceEventId isType isOther same).1

variable {naming : Naming Amount}
variable {message : NativeMarketMessage Amount}
theorem orderKeys_disjoint (differ : ¬(side = otherSide ∧ quantity = otherQuantity)) :
    List.Disjoint (orderKeys naming message side quantity) (orderKeys naming message otherSide otherQuantity) := by
  intro key first second
  obtain ⟨type,isType,rfl⟩ := mem_map.mp first
  obtain ⟨other,isOther,same⟩ := mem_map.mp second
  exact differ (keyText_injective naming message.sourceEventId isType isOther same.symm).2
/-- The keys that an order gives, none where it cannot be read. -/
def keysOf (naming : Naming Amount) (message : NativeMarketMessage Amount) (order : Order Amount) : List Text :=
  match order.side, order.quantity with
  | some side, some quantity => orderKeys naming message side quantity
  | _, _ => []
theorem keysOf_ne_nil {message : NativeMarketMessage Amount} {order : Order Amount} (readable : order.readable) :
    keysOf naming message order ≠ [] := by
  rcases order with ⟨_ | side,_ | quantity⟩
  · cases readable
  · cases readable
  · cases readable
  · exact cons_ne_nil _ _
theorem keysOf_nodup (naming : Naming Amount) (message : NativeMarketMessage Amount) (order : Order Amount) :
    (keysOf naming message order).Nodup := by
  rcases order with ⟨_ | side,_ | quantity⟩
  · exact nodup_nil
  · exact nodup_nil
  · exact nodup_nil
  · exact orderKeys_nodup naming message side quantity

theorem keysOf_disjoint {order other : Order Amount} (differ : order ≠ other) :
    List.Disjoint (keysOf naming message order) (keysOf naming message other) := by
  rcases order with ⟨_ | side,_ | quantity⟩
  · exact fun _ member => absurd member not_mem_nil
  · exact fun _ member => absurd member not_mem_nil
  · exact fun _ member => absurd member not_mem_nil
  · rcases other with ⟨_ | otherSide,_ | otherQuantity⟩
    · exact fun _ _ member => absurd member not_mem_nil
    · exact fun _ _ member => absurd member not_mem_nil
    · exact fun _ _ member => absurd member not_mem_nil
    · exact orderKeys_disjoint fun ⟨sameSide,sameQuantity⟩ => differ (by rw [sameSide,sameQuantity])

theorem keys_nodup_iff {orders : List (Order Amount)}
    (readable : ∀ order ∈ orders, order.readable) : (orders.flatMap (keysOf naming message)).Nodup ↔ orders.Nodup := by
  rw [nodup_flatMap]
  constructor
  · rintro ⟨_,disjoint⟩
    refine disjoint.imp_of_mem ?_
    intro order other isOrder _ apart same
    subst same
    obtain ⟨key,member⟩ := exists_mem_of_ne_nil _ (@keysOf_ne_nil _ naming message order (readable order isOrder))
    exact apart member member
  · intro distinct
    exact ⟨fun order _ => keysOf_nodup naming message order,distinct.imp fun differ => keysOf_disjoint differ⟩

section
variable [LinearOrder Amount] [Zero Amount] [Add Amount] [Sub Amount] [Mul Amount] [Div Amount]

theorem emit_cases (message : NativeMarketMessage Amount) (session : NautilusRuntimeSession Amount) (order : Order Amount) :
    (order.readable = false ∧ emitSandboxOrderEvents message session order = (session,none)) ∨
      ∃ mid events, emitSandboxOrderEvents message session order = (mid,some events) ∧
        ∀ naming, events.map (idempotencyKey naming) = keysOf naming message order := by
  rcases order with ⟨_ | side,_ | quantity⟩
  · exact .inl ⟨rfl,rfl⟩
  · exact .inl ⟨rfl,rfl⟩
  · exact .inl ⟨rfl,rfl⟩
  · exact .inr ⟨_,_,rfl,fun naming => orderEvents_keys naming message side quantity _⟩

theorem emitted_keys (naming : Naming Amount) {message : NativeMarketMessage Amount} {orders : List (Order Amount)}
    {session : NautilusRuntimeSession Amount} {events : List (NautilusRuntimeEventInput Amount)}
    (isEmitted : emitted message orders session = some events) :
    events.map (idempotencyKey naming) = orders.flatMap (keysOf naming message) := by
  unfold emitted at isEmitted
  induction orders generalizing session events with
  | nil =>
    cases isEmitted
    rfl
  | cons order rest ih =>
    rcases emit_cases message session order with ⟨_,raised⟩ | ⟨mid,first,returned,keys⟩
    · rw [forEach_cons_raised raised] at isEmitted
      cases isEmitted
    · rw [forEach_cons_returned returned] at isEmitted
      obtain ⟨more,isMore,rfl⟩ := Option.map_eq_some_iff.mp isEmitted
      rw [map_append,keys naming,ih isMore,flatMap_cons]

theorem emitted_readable {message : NativeMarketMessage Amount} {orders : List (Order Amount)} (readable : ∀ order ∈ orders, order.readable)
    (session : NautilusRuntimeSession Amount) : ∃ events, emitted message orders session = some events := by
  unfold emitted
  induction orders generalizing session with
  | nil => exact ⟨[],rfl⟩
  | cons order rest ih =>
    rcases emit_cases message session order with ⟨unreadable,_⟩ | ⟨mid,first,returned,_⟩
    · rw [readable order mem_cons_self] at unreadable
      cases unreadable
    · obtain ⟨more,isMore⟩ := ih (fun other member => readable other (mem_cons_of_mem _ member)) mid
      rw [forEach_cons_returned returned,isMore]
      exact ⟨first ++ more,rfl⟩

end

variable {stored : List (NautilusRuntimeEventInput Amount)}
theorem append_fresh {events : List (NautilusRuntimeEventInput Amount)}
    (fresh : Fresh naming (stored.map (idempotencyKey naming)) events) (distinct : (events.map (idempotencyKey naming)).Nodup) :
    append naming stored events = some (stored ++ events) := by
  rw [append,unknown_all fresh,if_pos distinct]

variable {batches : List (List (NautilusRuntimeEventInput Amount))}

theorem appendAll_fresh (fresh : Fresh naming (stored.map (idempotencyKey naming)) batches.flatten)
    (distinct : (batches.flatten.map (idempotencyKey naming)).Nodup) : appendAll naming stored batches = some (stored ++ batches.flatten) := by
  induction batches generalizing stored with
  | nil => rw [appendAll,flatten_nil,append_nil]
  | cons batch rest ih =>
    rw [flatten_cons,map_append,nodup_append'] at distinct
    rw [appendAll,append_fresh (fun event member => fresh event (mem_append_left _ member)) distinct.1,Option.bind_some,ih,
      flatten_cons,append_assoc]
    · intro event member known
      rw [map_append,mem_append] at known
      rcases known with old | inBatch
      · exact fresh event (mem_append_right batch member) old
      · exact distinct.2.2 inBatch (mem_map_of_mem member)
    · exact distinct.2.1

theorem appendAll_known
    (known : ∀ event ∈ batches.flatten, idempotencyKey naming event ∈ stored.map (idempotencyKey naming)) :
    appendAll naming stored batches = some stored := by
  induction batches with
  | nil => rfl
  | cons batch rest ih =>
    rw [appendAll,append,unknown_nothing fun event member => known event (mem_append_left _ member),map_nil,if_pos nodup_nil,append_nil,Option.bind_some]
    exact ih fun event member => known event (mem_append_right batch member)

section
variable [LinearOrder Amount] [Zero Amount] [Add Amount] [Sub Amount] [Mul Amount] [Div Amount]

/-- The keys are right exactly if no two orders of the bar have the same side and quantity, or the bar gives no event.
    -/
theorem keysRight_iff (naming : Naming Amount) (message : NativeMarketMessage Amount) (orders : List (Order Amount)) :
    KeysRight naming message orders ↔ orders.Nodup ∨ ∃ order ∈ orders, order.readable = false := by
  constructor
  · intro right
    by_cases unreadable : ∃ order ∈ orders, order.readable = false
    · exact .inr unreadable
    · have readable : ∀ order ∈ orders, order.readable := by
        intro order member
        by_contra notReadable
        exact unreadable ⟨order,member,Bool.eq_false_iff.mpr notReadable⟩
      obtain ⟨events,isEmitted⟩ := @emitted_readable _ _ _ _ _ _ _ message orders readable ⟨.pending,0,⟨0,0,0,0,0⟩,[],[],[],[],[]⟩
      have distinct := right.separate _ events isEmitted
      rw [emitted_keys naming isEmitted,keys_nodup_iff readable] at distinct
      exact .inl distinct
  · intro condition
    have separate : ∀ session events, emitted message orders session = some events → (events.map (idempotencyKey naming)).Nodup := by
      intro session events isEmitted
      have readable := emit_returned isEmitted
      rcases condition with distinct | ⟨order,member,unreadable⟩
      · rw [emitted_keys naming isEmitted]
        exact (keys_nodup_iff readable).mpr distinct
      · rw [readable order member] at unreadable
        cases unreadable
    refine ⟨separate,?_,?_,?_⟩
    · intro session events isEmitted memory fresh
      exact takeUp_fresh fresh (separate session events isEmitted)
    · intro session events isEmitted stored fresh batches whole
      rw [← whole] at fresh ⊢
      refine appendAll_fresh fresh ?_
      rw [whole]
      exact separate session events isEmitted
    · intro session events isEmitted other repeated isRepeated
      have sameKeys : repeated.map (idempotencyKey naming) = events.map (idempotencyKey naming) := by
        rw [emitted_keys naming isRepeated,emitted_keys naming isEmitted]
      refine ⟨sameKeys,?_⟩
      intro stored known batches whole
      refine appendAll_known ?_
      intro event member
      rw [whole] at member
      have isKey : idempotencyKey naming event ∈ events.map (idempotencyKey naming) := sameKeys ▸ mem_map_of_mem member
      obtain ⟨first,isFirst,same⟩ := mem_map.mp isKey
      exact same ▸ known first isFirst

end

theorem natText_injective : Function.Injective natText :=
  Function.LeftInverse.injective JsonDumps.decimal_natText
theorem natText_noColon (n : Nat) : 58 ∉ natText n := by
  intro member
  have bounds := JsonDumps.digit_bounds (JsonDumps.whole_digits (JsonDumps.natText_whole n) 58 member)
  omega
def numbered : Naming Nat := ⟨text "nrt_1",natText,natText,natText,natText_injective,natText_noColon⟩

/-- Of two orders to buy one piece the second has the keys of the first. -/
theorem equal_orders_share_keys : ¬KeysRight numbered ⟨.entry 1,7,true,100⟩ [⟨some .buy,some 1⟩,⟨some .buy,some 1⟩] := by
  intro right
  have readable : ∀ order ∈ [(⟨some .buy,some 1⟩ : Order Nat),⟨some .buy,some 1⟩], order.readable := by decide
  obtain ⟨events,isEmitted⟩ := emitted_readable readable ⟨.pending,0,⟨0,0,0,0,0⟩,[],[],[],[],[]⟩
  have distinct := right.separate _ events isEmitted
  rw [emitted_keys numbered isEmitted,keys_nodup_iff readable] at distinct
  exact absurd distinct (by decide)

end Codebot.OrderKeys
