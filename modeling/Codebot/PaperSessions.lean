import Codebot.Raising
import Codebot.Memories
import Codebot.NautilusRuntimes
import Mathlib.Data.Nat.Cast.Defs

/-!
The paper session of a Nautilus runtime: the batches of bars that it feeds to the generated strategy, the orders it
captures and the events it makes of them. What the strategy and the Nautilus classes do with a bar is given with the
call (`Engine`). Amounts are any ordered type with the operations that the account uses; a key of an event is what the
source hashes.
-/
namespace Codebot.PaperSessions
open Raising Memories List
open NautilusRuntimes (EventType)

inductive Side
  | buy
  | sell
deriving DecidableEq
/-- An order as the session reads it: `none` where its side or its quantity is none that
    it supports. -/
structure Order (Amount : Type) where
  side : Option Side
  quantity : Option Amount
deriving DecidableEq
/-- `stream_id`: of an entry of the stream, or of a bar of the manifest. -/
inductive StreamId
  | entry (id : Nat)
  | warmup (index : Nat)
deriving DecidableEq
structure NativeMarketMessage (Amount : Type) where
  streamId : StreamId
  sourceEventId : Nat
  /-- `_is_closed_bar_message`. -/
  closed : Bool
  close : Amount
deriving DecidableEq
/-- What becomes of a bar. -/
inductive Feeding (Amount : Type)
  | unbuilt
  | raised (orders : List (Order Amount))
  | took (orders : List (Order Amount))
deriving DecidableEq
def Feeding.orders {Amount : Type} : Feeding Amount → List (Order Amount)
  | .unbuilt => []
  | .raised orders => orders
  | .took orders => orders
def Order.readable {Amount : Type} (order : Order Amount) : Bool := order.side.isSome && order.quantity.isSome
/-- The generated strategy and Nautilus during one call, which can refuse the batch before its bars. -/
structure Engine (Amount : Type) where
  refuses : Bool
  feed : NativeMarketMessage Amount → Feeding Amount
structure NautilusSandboxAccount (Amount : Type) where
  cashBalance : Amount
  netQuantity : Amount
  averageEntryPrice : Amount
  realizedPnl : Amount
  lastPrice : Amount
deriving DecidableEq
/-- `action` of an entry of the command stream. -/
inductive Action
  | stop
  | reload
  | killSwitch
  | other
deriving DecidableEq
/-- `deterministic_event_key`, before the hash and without the id of the runtime. -/
inductive EventKey (Amount : Type)
  | warmup (type : EventType) (generation source : Nat)
  | order (type : EventType) (source : Nat) (side : Side) (quantity : Amount)
  | runtimeError (source : Nat)
  | command (action : Action) (entry : Nat)
deriving DecidableEq
/-- The numbers in a payload: those of the fill, and those read from the account. -/
inductive Payload (Amount : Type)
  | order (side : Side) (quantity price : Amount) (account : NautilusSandboxAccount Amount)
  | account (account : NautilusSandboxAccount Amount)
  | other
deriving DecidableEq
structure NautilusRuntimeEventInput (Amount : Type) where
  type : EventType
  payload : Payload Amount
  key : EventKey Amount
deriving DecidableEq
/-- `warmup_status`. -/
inductive SessionStatus
  | pending
  | warmingUp
  | complete
  | failed
deriving DecidableEq

/-- `NautilusRuntimeSession`, with the number of the warm-up bars. Nothing reads the last three: the bars that the
    strategy was given, the orders captured from them and the events made of these. -/
structure NautilusRuntimeSession (Amount : Type) where
  warmupStatus : SessionStatus
  warmupBars : Nat
  account : NautilusSandboxAccount Amount
  processed : List Nat
  emitted : List (EventKey Amount)
  fed : List (NativeMarketMessage Amount)
  captured : List (NativeMarketMessage Amount × Order Amount)
  made : List (NativeMarketMessage Amount × NautilusRuntimeEventInput Amount)
deriving DecidableEq

/-- What a session reads of its record: the slow period of a supported strategy, and of the manifest the two warm-up
    entries, where one that is no object is `none`. -/
structure NautilusRuntimeRecord (Amount : Type) where
  generation : Nat
  slowPeriod : Option Nat
  warmupMinBars : Option Int
  warmups : List (Option (NativeMarketMessage Amount))
deriving DecidableEq

def maxSessionSourceEventIds : Nat := 20000
def maxSessionIdempotencyKeys : Nat := 10000
/-- `nautilus_warmup_bar_count`, `none` where it raises. -/
def nautilusWarmupBarCount (slowPeriod : Option Nat) : Option Int → Option Nat
  | some override => some (min (max 1 override) 5000).toNat
  | none => slowPeriod.map fun period => min (max 200 (period * 3)) 5000

section
variable {Amount : Type} [LinearOrder Amount] [Zero Amount] [Add Amount] [Sub Amount] [Mul Amount] [Div Amount]

def NautilusRuntimeRecord.requiredWarmupBars (runtime : NautilusRuntimeRecord Amount) : Option Nat :=
  nautilusWarmupBarCount runtime.slowPeriod runtime.warmupMinBars
def NautilusSandboxAccount.new [NatCast Amount] : NautilusSandboxAccount Amount := ⟨((100000 : Nat) : Amount),0,0,0,0⟩

def NautilusSandboxAccount.applyFill (account : NautilusSandboxAccount Amount) (side : Side) (quantity price : Amount) :
    NautilusSandboxAccount Amount :=
  match side with
  | .buy =>
    let totalCost := account.averageEntryPrice * account.netQuantity + price * quantity
    let net := account.netQuantity + quantity
    { account with
      lastPrice := price
      netQuantity := net
      averageEntryPrice := if net ≠ 0 then totalCost / net else 0
      cashBalance := account.cashBalance - price * quantity }
  | .sell =>
    let closing := min quantity account.netQuantity
    let net := max 0 (account.netQuantity - closing)
    { account with
      lastPrice := price
      realizedPnl := account.realizedPnl + (price - account.averageEntryPrice) * closing
      netQuantity := net
      cashBalance := account.cashBalance + price * closing
      averageEntryPrice := if net = 0 then 0 else account.averageEntryPrice }

def NautilusRuntimeSession.new [NatCast Amount] : NautilusRuntimeSession Amount := ⟨.pending,0,.new,[],[],[],[],[]⟩

/-- `_feed_generated_strategy_bar` of the bar made of the message, with the orders that
    `_capture_strategy_order` captures. -/
def feedGeneratedStrategyBar (session : NautilusRuntimeSession Amount) (message : NativeMarketMessage Amount) :
    Feeding Amount → NautilusRuntimeSession Amount × Option (List (Order Amount))
  | .unbuilt => (session,none)
  | .raised orders =>
    ({ session with fed := session.fed ++ [message], captured := session.captured ++ orders.map (message,·) },none)
  | .took orders =>
    ({ session with fed := session.fed ++ [message], captured := session.captured ++ orders.map (message,·) },some orders)

/-- `_feed_warmup_bar`: the orders of the bar are captured and no more. -/
def feedWarmupBar (engine : Engine Amount) (session : NautilusRuntimeSession Amount) (message : NativeMarketMessage Amount) :
    NautilusRuntimeSession Amount × Option (List (NautilusRuntimeEventInput Amount)) :=
  let counted := { session with warmupBars := session.warmupBars + 1 }
  match feedGeneratedStrategyBar counted message (engine.feed message) with
  | (fed,none) => (fed,none)
  | (fed,some _) => (fed,some [])

/-- The events of an order that was filled. -/
def orderEvents (message : NativeMarketMessage Amount) (side : Side) (quantity : Amount)
    (account : NautilusSandboxAccount Amount) : List (NautilusRuntimeEventInput Amount) :=
  let key (type : EventType) : EventKey Amount := .order type message.sourceEventId side quantity
  let filled : Payload Amount := .order side quantity message.close account
  [⟨.signal,.other,key .signal⟩,⟨.orderIntent,filled,key .orderIntent⟩,⟨.orderSubmitted,filled,key .orderSubmitted⟩,
    ⟨.fill,filled,key .fill⟩,⟨.positionSnapshot,.account account,key .positionSnapshot⟩,
    ⟨.pnlSnapshot,.account account,key .pnlSnapshot⟩]

/-- The account after the fills among the events. -/
def foldFills (account : NautilusSandboxAccount Amount) (events : List (NautilusRuntimeEventInput Amount)) :
    NautilusSandboxAccount Amount :=
  events.foldl (fun account event =>
    match event.type, event.payload with
    | .fill, .order side quantity price _ => account.applyFill side quantity price
    | _, _ => account) account
theorem foldFills_append (account : NautilusSandboxAccount Amount) (first second : List (NautilusRuntimeEventInput Amount)) :
    foldFills account (first ++ second) = foldFills (foldFills account first) second :=
  foldl_append ..

def emitSandboxOrderEvents (message : NativeMarketMessage Amount) (session : NautilusRuntimeSession Amount)
    (order : Order Amount) : NautilusRuntimeSession Amount × Option (List (NautilusRuntimeEventInput Amount)) :=
  match order.side, order.quantity with
  | some side, some quantity =>
    let account := session.account.applyFill side quantity message.close
    let events := orderEvents message side quantity account
    ({ session with account, made := session.made ++ events.map (message,·) },some events)
  | _, _ => (session,none)

def feedBar (engine : Engine Amount) (session : NautilusRuntimeSession Amount) (message : NativeMarketMessage Amount) :
    NautilusRuntimeSession Amount × Option (List (NautilusRuntimeEventInput Amount)) :=
  match feedGeneratedStrategyBar session message (engine.feed message) with
  | (fed,none) => (fed,none)
  | (fed,some orders) => forEach (emitSandboxOrderEvents message) fed orders
def warmupEvent (generation : Nat) (type : EventType) (source : Nat) : NautilusRuntimeEventInput Amount :=
  ⟨type,.other,.warmup type generation source⟩
/-- The warm-up is complete once there are enough bars. -/
def finishWarmup (generation required source : Nat) (session : NautilusRuntimeSession Amount) :
    NautilusRuntimeSession Amount × List (NautilusRuntimeEventInput Amount) :=
  if required ≤ session.warmupBars then
    ({ session with warmupStatus := .complete },[warmupEvent generation .warmupCompleted source])
  else (session,[])

/-- The body of the loop over the new bars. -/
def processBar (generation required : Nat) (engine : Engine Amount) (session : NautilusRuntimeSession Amount)
    (message : NativeMarketMessage Amount) :
    NautilusRuntimeSession Amount × Option (List (NautilusRuntimeEventInput Amount)) :=
  if session.warmupStatus = .complete then feedBar engine session message
  else
    match feedWarmupBar engine session message with
    | (fed,none) => (fed,none)
    | (fed,some _) =>
      ((finishWarmup generation required message.sourceEventId fed).1,
        some (finishWarmup generation required message.sourceEventId fed).2)

def NautilusRuntimeRecord.manifestWarmupMessages (runtime : NautilusRuntimeRecord Amount) : List (NativeMarketMessage Amount) :=
  (runtime.warmups.zipIdx 1).filterMap fun (bar,index) => bar.map ({ · with streamId := .warmup index })

/-- A pending session starts its warm-up with the bars of the manifest. -/
def startWarmup (runtime : NautilusRuntimeRecord Amount) (required : Nat) (engine : Engine Amount) (source : Nat)
    (session : NautilusRuntimeSession Amount) :
    NautilusRuntimeSession Amount × Option (List (NautilusRuntimeEventInput Amount)) :=
  if session.warmupStatus = .pending then
    match forEach (feedWarmupBar engine) { session with warmupStatus := .warmingUp } runtime.manifestWarmupMessages with
    | (fed,none) => (fed,none)
    | (fed,some _) =>
      let finished := finishWarmup runtime.generation required source fed
      (finished.1,some (warmupEvent runtime.generation .warmupStarted source :: finished.2))
  else (session,some [])

/-- The bars whose source the session does not remember are fed one after the other, and of
    the events those returned whose key it does not remember. -/
def feedNewBars (generation required : Nat) (engine : Engine Amount) (session : NautilusRuntimeSession Amount)
    (bars : List (NativeMarketMessage Amount)) (events : List (NautilusRuntimeEventInput Amount)) :
    NautilusRuntimeSession Amount × Option (List (NautilusRuntimeEventInput Amount)) :=
  let taken := takeUp maxSessionSourceEventIds (·.sourceEventId) session.processed bars
  match forEach (processBar generation required engine) { session with processed := taken.1 } taken.2 with
  | (fed,none) => (fed,none)
  | (fed,some more) =>
    let deduped := takeUp maxSessionIdempotencyKeys (·.key) fed.emitted (events ++ more)
    ({ fed with emitted := deduped.1 },some deduped.2)

/-- `NautilusRuntimeSession.run_bar_batch`, with `none` for the events where it raises. -/
def NautilusRuntimeSession.runBarBatch (runtime : NautilusRuntimeRecord Amount) (engine : Engine Amount)
    (session : NautilusRuntimeSession Amount) (messages : List (NativeMarketMessage Amount)) :
    NautilusRuntimeSession Amount × Option (List (NautilusRuntimeEventInput Amount)) :=
  match messages with
  | [] => (session,some [])
  | first :: _ =>
    if engine.refuses then (session,none)
    else
      match runtime.requiredWarmupBars with
      | none => (session,none)
      | some required =>
        let bars := messages.filter (·.closed)
        if bars.isEmpty then (session,some [])
        else
          match startWarmup runtime required engine first.sourceEventId session with
          | (begun,none) => (begun,none)
          | (begun,some events) => feedNewBars runtime.generation required engine begun bars events

/-- `NativeNautilusExecutionRunner.run_bar_batch` in a session that it has. -/
def nativeRunBarBatch (runtime : NautilusRuntimeRecord Amount) (engine : Engine Amount)
    (session : NautilusRuntimeSession Amount) (messages : List (NativeMarketMessage Amount)) :
    NautilusRuntimeSession Amount × List (NautilusRuntimeEventInput Amount) :=
  match messages.getLast? with
  | none => (session,[])
  | some last =>
    match session.runBarBatch runtime engine messages with
    | (ran,some events) => (ran,events)
    | (ran,none) => ({ ran with warmupStatus := .failed },[⟨.runtimeError,.other,.runtimeError last.sourceEventId⟩])

end

variable {Amount : Type}
def capturedOf (engine : Engine Amount) (bar : NativeMarketMessage Amount) : List (NativeMarketMessage Amount × Order Amount) :=
  (engine.feed bar).orders.map (bar,·)
def givenOf (engine : Engine Amount) (bar : NativeMarketMessage Amount) : List (NativeMarketMessage Amount) :=
  match engine.feed bar with
  | .unbuilt => []
  | _ => [bar]
theorem givenOf_subset (engine : Engine Amount) (bar : NativeMarketMessage Amount) : givenOf engine bar ⊆ [bar] := by
  unfold givenOf
  split
  · exact nil_subset _
  · exact List.Subset.refl _

variable {bar : NativeMarketMessage Amount} {engine : Engine Amount}
theorem givenOf_given (given : engine.feed bar ≠ .unbuilt) : givenOf engine bar = [bar] := by
  unfold givenOf
  split
  · rename_i unbuilt
    exact absurd unbuilt given
  · rfl
theorem feedGeneratedStrategyBar_frame (session : NautilusRuntimeSession Amount) (bar : NativeMarketMessage Amount)
    (feeding : Feeding Amount) :
    (feedGeneratedStrategyBar session bar feeding).1.made = session.made ∧
      (feedGeneratedStrategyBar session bar feeding).1.account = session.account ∧
      (feedGeneratedStrategyBar session bar feeding).1.emitted = session.emitted := by
  cases feeding <;> exact ⟨rfl,rfl,rfl⟩

theorem feedWarmupBar_frame (engine : Engine Amount) (session : NautilusRuntimeSession Amount)
    (bar : NativeMarketMessage Amount) :
    (feedWarmupBar engine session bar).1 =
      { session with
        warmupBars := session.warmupBars + 1
        fed := session.fed ++ givenOf engine bar
        captured := session.captured ++ capturedOf engine bar } := by
  unfold feedWarmupBar capturedOf givenOf
  cases engine.feed bar with
  | unbuilt => simp [feedGeneratedStrategyBar,Feeding.orders]
  | raised orders => rfl
  | took orders => rfl

variable {events : List (NautilusRuntimeEventInput Amount)} {session : NautilusRuntimeSession Amount}

theorem feedWarmupBar_returned
    (returned : (feedWarmupBar engine session bar).2 = some events) : givenOf engine bar = [bar] := by
  unfold feedWarmupBar at returned
  unfold givenOf
  cases fed : engine.feed bar with
  | unbuilt =>
    rw [fed] at returned
    cases returned
  | raised orders => rfl
  | took orders => rfl

def OfManifest (bars : List (NativeMarketMessage Amount)) : Prop := ∀ bar ∈ bars, ∃ index, bar.streamId = .warmup index
theorem manifest_ofManifest (runtime : NautilusRuntimeRecord Amount) : OfManifest runtime.manifestWarmupMessages := by
  intro bar member
  obtain ⟨⟨raw,index⟩,_,isBar⟩ := mem_filterMap.mp member
  obtain ⟨message,_,rfl⟩ := Option.map_eq_some_iff.mp isBar
  exact ⟨index,rfl⟩

theorem startWarmup_fed (runtime : NautilusRuntimeRecord Amount) (required : Nat) (engine : Engine Amount) (source : Nat)
    (session : NautilusRuntimeSession Amount) :
    (startWarmup runtime required engine source session).1.processed = session.processed ∧
      ∃ given, OfManifest given ∧ (startWarmup runtime required engine source session).1.fed = session.fed ++ given := by
  unfold startWarmup
  by_cases pending : session.warmupStatus = .pending
  · rw [if_pos pending]
    let inv (state : NautilusRuntimeSession Amount) : Prop :=
      state.processed = session.processed ∧ ∃ given, OfManifest given ∧ state.fed = session.fed ++ given
    have kept : inv (forEach (feedWarmupBar engine) { session with warmupStatus := .warmingUp } runtime.manifestWarmupMessages).1 := by
      refine forEach_keeps ?_ ⟨rfl,[],forall_mem_nil _,(append_nil _).symm⟩
      rintro state bar member ⟨same,given,ofManifest,fed⟩
      rw [feedWarmupBar_frame]
      refine ⟨same,given ++ givenOf engine bar,?_,by simp [fed]⟩
      intro other isGiven
      rcases mem_append.mp isGiven with old | new
      · exact ofManifest other old
      · have isBar := givenOf_subset engine bar new
        rw [mem_singleton.mp isBar]
        exact manifest_ofManifest runtime bar member
    rcases ran : forEach (feedWarmupBar engine) { session with warmupStatus := .warmingUp } runtime.manifestWarmupMessages with
      ⟨fed,_ | events⟩
    · rw [ran] at kept
      exact kept
    · rw [ran] at kept
      simp only [finishWarmup]
      split <;> exact kept
  · rw [if_neg pending]
    exact ⟨rfl,[],forall_mem_nil _,(append_nil _).symm⟩

variable [LinearOrder Amount] [Zero Amount] [Add Amount] [Sub Amount] [Mul Amount] [Div Amount]

theorem emit_frame (bar : NativeMarketMessage Amount) (session : NautilusRuntimeSession Amount) (orders : List (Order Amount)) :
    ∃ account made, (forEach (emitSandboxOrderEvents bar) session orders).1 = { session with account, made } := by
  let framed (state : NautilusRuntimeSession Amount) : Prop := ∃ account made, state = { session with account, made }
  refine @forEach_keeps _ _ _ (emitSandboxOrderEvents bar) framed orders ?_ session ⟨session.account,session.made,rfl⟩
  rintro state order _ ⟨account,made,rfl⟩
  unfold emitSandboxOrderEvents
  split
  · exact ⟨_,_,rfl⟩
  · exact ⟨_,_,rfl⟩

theorem feedBar_frame (engine : Engine Amount) (session : NautilusRuntimeSession Amount) (bar : NativeMarketMessage Amount) :
    ∃ account made, (feedBar engine session bar).1 =
      { session with
        fed := session.fed ++ givenOf engine bar
        captured := session.captured ++ capturedOf engine bar
        account := account
        made := made } := by
  unfold feedBar capturedOf givenOf
  cases engine.feed bar with
  | unbuilt => exact ⟨session.account,session.made,by simp [feedGeneratedStrategyBar,Feeding.orders]⟩
  | raised orders => exact ⟨_,_,rfl⟩
  | took orders =>
    obtain ⟨account,made,same⟩ := emit_frame bar
      { session with fed := session.fed ++ [bar], captured := session.captured ++ orders.map (bar,·) } orders
    exact ⟨account,made,same⟩

theorem feedBar_given (returned : (feedBar engine session bar).2 = some events) : givenOf engine bar = [bar] := by
  unfold feedBar at returned
  unfold givenOf
  cases fed : engine.feed bar with
  | unbuilt =>
    rw [fed] at returned
    cases returned
  | raised orders => rfl
  | took orders => rfl

/-- The loop takes up no bar, and feeds the bar unless it cannot be built. -/
theorem processBar_fed (generation required : Nat) (engine : Engine Amount) (session : NautilusRuntimeSession Amount)
    (bar : NativeMarketMessage Amount) :
    (processBar generation required engine session bar).1.processed = session.processed ∧
      (processBar generation required engine session bar).1.fed = session.fed ++ givenOf engine bar ∧
      ∀ events, (processBar generation required engine session bar).2 = some events → givenOf engine bar = [bar] := by
  unfold processBar
  by_cases warm : session.warmupStatus = .complete
  · rw [if_pos warm]
    obtain ⟨account,made,same⟩ := feedBar_frame engine session bar
    rw [same]
    exact ⟨rfl,rfl,fun events returned => feedBar_given returned⟩
  · rw [if_neg warm]
    have frame := feedWarmupBar_frame engine session bar
    rcases ran : feedWarmupBar engine session bar with ⟨fed,_ | events⟩
    · rw [ran] at frame
      rw [show fed = _ from frame]
      exact ⟨rfl,rfl,fun events returned => nomatch returned⟩
    · rw [ran] at frame
      have given := feedWarmupBar_returned (congrArg Prod.snd ran)
      simp only [finishWarmup,show fed = _ from frame]
      split <;> exact ⟨rfl,rfl,fun _ _ => given⟩

theorem loop_fed (generation required : Nat) (engine : Engine Amount) (session : NautilusRuntimeSession Amount)
    (new : List (NativeMarketMessage Amount)) :
    (forEach (processBar generation required engine) session new).1.processed = session.processed ∧
      ∃ given, given <+: new ∧ (forEach (processBar generation required engine) session new).1.fed = session.fed ++ given := by
  let running (done : List (NativeMarketMessage Amount)) (state : NautilusRuntimeSession Amount)
      (_ : List (NautilusRuntimeEventInput Amount)) : Prop :=
    state.processed = session.processed ∧ state.fed = session.fed ++ done
  let ends (done : List (NativeMarketMessage Amount)) (bar : NativeMarketMessage Amount)
      (last : NautilusRuntimeSession Amount) : Prop :=
    last.processed = session.processed ∧ last.fed = session.fed ++ (done ++ givenOf engine bar)
  have start : running [] session [] := ⟨rfl,(append_nil _).symm⟩
  have rule := @forEach_rule _ _ _ (processBar generation required engine) running ends new ?_ ?_ session start
  · rcases rule with ⟨last,results,looped,kept,fed⟩ | ⟨done,bar,after,last,looped,split,kept,fed⟩
    · rw [looped]
      exact ⟨kept,new,prefix_rfl,fed⟩
    · rw [looped]
      refine ⟨kept,done ++ givenOf engine bar,?_,fed⟩
      rw [split,prefix_append_right_inj]
      unfold givenOf
      split
      · exact nil_prefix
      · exact ⟨after,rfl⟩
  · intro done bar after state results mid first split holds ran
    obtain ⟨kept,fed,given⟩ := processBar_fed generation required engine state bar
    rw [ran] at kept fed given
    rw [given first rfl] at fed
    exact ⟨kept.trans holds.1,by rw [fed,holds.2,append_assoc]⟩
  · intro done bar after state results mid split holds ran
    obtain ⟨kept,fed,_⟩ := processBar_fed generation required engine state bar
    rw [ran] at kept fed
    exact ⟨kept.trans holds.1,by rw [fed,holds.2,append_assoc]⟩

theorem feedNewBars_fed (generation required : Nat) (engine : Engine Amount) (session : NautilusRuntimeSession Amount)
    (batch : List (NativeMarketMessage Amount)) (events : List (NautilusRuntimeEventInput Amount)) :
    let taken := takeUp maxSessionSourceEventIds (·.sourceEventId) session.processed batch
    (feedNewBars generation required engine session batch events).1.processed = taken.1 ∧
      ∃ given, given <+: taken.2 ∧ (feedNewBars generation required engine session batch events).1.fed = session.fed ++ given := by
  intro taken
  have looped := loop_fed generation required engine { session with processed := taken.1 } taken.2
  unfold feedNewBars
  rcases ran : forEach (processBar generation required engine) { session with processed := taken.1 } taken.2 with ⟨last,_ | more⟩
  · rw [ran] at looped
    simp only [taken] at ran
    simp only [ran]
    exact looped
  · rw [ran] at looped
    simp only [taken] at ran
    simp only [ran]
    exact looped

theorem runBarBatch_fed (runtime : NautilusRuntimeRecord Amount) (engine : Engine Amount)
    (session : NautilusRuntimeSession Amount) (messages : List (NativeMarketMessage Amount)) :
    let taken := takeUp maxSessionSourceEventIds (·.sourceEventId) session.processed (messages.filter (·.closed))
    let ran := session.runBarBatch runtime engine messages
    ∃ warmups given, OfManifest warmups ∧ ran.1.fed = session.fed ++ (warmups ++ given) ∧
      ((ran.1.processed = session.processed ∧ given = [] ∧ (ran.2 = none ∨ messages.filter (·.closed) = [])) ∨
        (ran.1.processed = taken.1 ∧ given <+: taken.2)) := by
  have nothing : OfManifest ([] : List (NativeMarketMessage Amount)) := forall_mem_nil _
  unfold NautilusRuntimeSession.runBarBatch
  cases messages with
  | nil => exact ⟨[],[],nothing,by simp,.inl ⟨rfl,rfl,.inr rfl⟩⟩
  | cons first rest =>
    by_cases refuses : engine.refuses
    · simp only [refuses]
      exact ⟨[],[],nothing,by simp,.inl ⟨rfl,rfl,.inl rfl⟩⟩
    simp only [refuses]
    cases isRequired : runtime.requiredWarmupBars with
    | none => exact ⟨[],[],nothing,by simp,.inl ⟨rfl,rfl,.inl rfl⟩⟩
    | some required =>
      by_cases empty : ((first :: rest).filter (·.closed)).isEmpty
      · simp only [empty]
        exact ⟨[],[],nothing,by simp,.inl ⟨rfl,rfl,.inr (isEmpty_iff.mp empty)⟩⟩
      simp only [empty]
      have begins := startWarmup_fed runtime required engine first.sourceEventId session
      rcases started : startWarmup runtime required engine first.sourceEventId session with ⟨begun,_ | events⟩
      · rw [started] at begins
        obtain ⟨same,warmups,ofManifest,fed⟩ := begins
        exact ⟨warmups,[],ofManifest,by rw [append_nil]; exact fed,.inl ⟨same,rfl,.inl rfl⟩⟩
      · rw [started] at begins
        obtain ⟨same,warmups,ofManifest,fed⟩ := begins
        obtain ⟨taken,given,before,isFed⟩ :=
          feedNewBars_fed runtime.generation required engine begun ((first :: rest).filter (·.closed)) events
        rw [show begun.processed = session.processed from same] at taken before
        refine ⟨warmups,given,ofManifest,?_,.inr ⟨taken,before⟩⟩
        simp only [Bool.false_eq_true,if_false]
        rw [isFed,show begun.fed = _ from fed,append_assoc]

theorem nativeRunBarBatch_fed (runtime : NautilusRuntimeRecord Amount) (engine : Engine Amount)
    (session : NautilusRuntimeSession Amount) (messages : List (NativeMarketMessage Amount)) :
    let taken := takeUp maxSessionSourceEventIds (·.sourceEventId) session.processed (messages.filter (·.closed))
    let ran := nativeRunBarBatch runtime engine session messages
    ∃ warmups given, OfManifest warmups ∧ ran.1.fed = session.fed ++ (warmups ++ given) ∧
      ((ran.1.processed = session.processed ∧ given = [] ∧
          (ran.2.any (·.type = .runtimeError) ∨ messages.filter (·.closed) = [])) ∨
        (ran.1.processed = taken.1 ∧ given <+: taken.2)) := by
  intro taken ran
  cases lastMessage : messages.getLast? with
  | none =>
    have empty := getLast?_eq_none_iff.mp lastMessage
    have same : ran = (session,[]) := by simp only [ran,nativeRunBarBatch,lastMessage]
    rw [same]
    exact ⟨[],[],forall_mem_nil _,by simp,.inl ⟨rfl,rfl,.inr (by rw [empty]; rfl)⟩⟩
  | some last =>
    obtain ⟨warmups,given,ofManifest,fed,outcome⟩ := runBarBatch_fed runtime engine session messages
    rcases happened : session.runBarBatch runtime engine messages with ⟨after,_ | events⟩
    · have same : ran = ({ after with warmupStatus := .failed },[⟨.runtimeError,.other,.runtimeError last.sourceEventId⟩]) := by
        simp only [ran,nativeRunBarBatch,lastMessage,happened]
      rw [happened] at fed outcome
      rw [same]
      refine ⟨warmups,given,ofManifest,fed,?_⟩
      rcases outcome with ⟨kept,nothing,_⟩ | happens
      · exact .inl ⟨kept,nothing,.inl (by simp)⟩
      · exact .inr happens
    · have same : ran = (after,events) := by simp only [ran,nativeRunBarBatch,lastMessage,happened]
      rw [happened] at fed outcome
      rw [same]
      refine ⟨warmups,given,ofManifest,fed,?_⟩
      rcases outcome with ⟨kept,nothing,raised | empty⟩ | happens
      · cases raised
      · exact .inl ⟨kept,nothing,.inr empty⟩
      · exact .inr happens

end Codebot.PaperSessions
