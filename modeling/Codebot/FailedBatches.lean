import Codebot.PaperSessions
import Mathlib.Algebra.Order.Ring.Int

/-!
A batch of bars that fails in a warm session is delivered again. The session took
up all of its bars before it fed the first, so that the second delivery finds none of
them new: the failed delivery is all that becomes of the batch (`applied_iff`).
-/
namespace Codebot.FailedBatches
open Raising Memories PaperSessions List
open NautilusRuntimes (EventType)

variable {Amount : Type}
def failed (events : List (NautilusRuntimeEventInput Amount)) : Bool := events.any (·.type = .runtimeError)
def bars (messages : List (NativeMarketMessage Amount)) : List (NativeMarketMessage Amount) := messages.filter (·.closed)
/-- Those that the session has not taken up. -/
def newBars (session : NautilusRuntimeSession Amount) (messages : List (NativeMarketMessage Amount)) :
    List (NativeMarketMessage Amount) :=
  (takeUp maxSessionSourceEventIds (·.sourceEventId) session.processed (bars messages)).2
def orderEventTypes : List EventType := [.signal,.orderIntent,.orderSubmitted,.fill,.positionSnapshot,.pnlSnapshot]
/-- The bar that fails is the last new one, the strategy was given it, and no bar up to it
    has an order that the session can read. -/
def FailsLast (engine : Engine Amount) (new : List (NativeMarketMessage Amount)) : Prop :=
  ∃ early bar, new = early ++ [bar] ∧ (∀ before ∈ early, engine.feed before = .took []) ∧ engine.feed bar ≠ .unbuilt ∧
    ∀ order ∈ (engine.feed bar).orders, ¬ order.readable

variable {messages : List (NativeMarketMessage Amount)}

theorem newBars_keys {session : NautilusRuntimeSession Amount}
    (new : ∀ bar ∈ bars messages, bar.sourceEventId ∉ session.processed)
    (few : ((bars messages).map (·.sourceEventId)).dedup.length ≤ maxSessionSourceEventIds) :
    ((newBars session messages).map (·.sourceEventId)).Nodup ∧
      (∀ bar ∈ bars messages, bar.sourceEventId ∈ (newBars session messages).map (·.sourceEventId)) ∧
      newBars session messages ⊆ bars messages := by
  obtain ⟨once,all,_⟩ := takeUp_batch few new
  exact ⟨once,all,(takeUp_sublist (bars messages)).subset⟩

variable [LinearOrder Amount]
variable {errors : List (NautilusRuntimeEventInput Amount)}

theorem count_errors
    (all : ∀ event ∈ errors, ∃ source, event = ⟨.runtimeError,.other,.runtimeError source⟩) (type : EventType) (source : Nat)
    (side : Side) (quantity : Amount) : (errors.map (·.key)).count (.order type source side quantity) = 0 := by
  refine count_eq_zero.mpr ?_
  intro member
  obtain ⟨event,isError,same⟩ := mem_map.mp member
  obtain ⟨other,rfl⟩ := all event isError
  cases same

variable [Zero Amount] [Add Amount] [Sub Amount] [Mul Amount] [Div Amount]

/-- The batch is delivered, and again after a delivery that failed. -/
def deliverAll (runtime : NautilusRuntimeRecord Amount) (messages : List (NativeMarketMessage Amount)) :
    NautilusRuntimeSession Amount → List (Engine Amount) →
      NautilusRuntimeSession Amount × List (NautilusRuntimeEventInput Amount)
  | session, [] => (session,[])
  | session, engine :: later =>
    let ran := nativeRunBarBatch runtime engine session messages
    if failed ran.2 then
      ((deliverAll runtime messages ran.1 later).1,ran.2 ++ (deliverAll runtime messages ran.1 later).2)
    else ran

/-- Over the deliveries each bar is fed once, each event of an order is emitted once, and the account is that of the
    emitted fills. -/
structure Applied (session : NautilusRuntimeSession Amount) (messages : List (NativeMarketMessage Amount))
    (last : NautilusRuntimeSession Amount × List (NautilusRuntimeEventInput Amount)) : Prop where
  fedOnce : ∀ bar ∈ bars messages,
    ((last.1.fed.drop session.fed.length).map (·.sourceEventId)).count bar.sourceEventId = 1
  emittedOnce : ∀ bar order, (bar,order) ∈ last.1.captured.drop session.captured.length →
    ∀ side quantity, order = ⟨some side,some quantity⟩ → ∀ type ∈ orderEventTypes,
      (last.2.map (·.key)).count (.order type bar.sourceEventId side quantity) = 1
  account : last.1.account = foldFills session.account last.2

variable {bar : NativeMarketMessage Amount}
theorem emit_raised {session : NautilusRuntimeSession Amount} {order : Order Amount}
    (unreadable : ¬ order.readable) : emitSandboxOrderEvents bar session order = (session,none) := by
  rcases order with ⟨_ | side,_ | quantity⟩
  · rfl
  · rfl
  · rfl
  · exact absurd rfl unreadable

variable {orders : List (Order Amount)}
theorem emit_unreadable {session : NautilusRuntimeSession Amount} (unreadable : ∀ order ∈ orders, ¬ order.readable) :
    (forEach (emitSandboxOrderEvents bar) session orders).1 = session := by
  cases orders with
  | nil => rfl
  | cons order rest => rw [forEach_cons_raised (emit_raised (unreadable order mem_cons_self))]

variable {events : List (NautilusRuntimeEventInput Amount)}

theorem emit_returned {session : NautilusRuntimeSession Amount}
    (returned : (forEach (emitSandboxOrderEvents bar) session orders).2 = some events) : ∀ order ∈ orders, order.readable := by
  induction orders generalizing session events with
  | nil => exact fun order member => nomatch member
  | cons order rest ih =>
    by_cases readable : order.readable
    · rcases ran : emitSandboxOrderEvents bar session order with ⟨mid,_ | first⟩
      · rw [forEach_cons_raised ran] at returned
        cases returned
      · rw [forEach_cons_returned ran] at returned
        obtain ⟨more,later,_⟩ := Option.map_eq_some_iff.mp returned
        exact forall_mem_cons.mpr ⟨readable,ih later⟩
    · rw [forEach_cons_raised (emit_raised readable)] at returned
      cases returned

variable {engine : Engine Amount}

theorem feedBar_account {session : NautilusRuntimeSession Amount}
    (unreadable : ∀ order ∈ (engine.feed bar).orders, ¬ order.readable) :
    (feedBar engine session bar).1.account = session.account := by
  unfold feedBar
  cases fed : engine.feed bar with
  | unbuilt => rfl
  | raised orders => rfl
  | took orders =>
    rw [fed] at unreadable
    have none : ∀ order ∈ orders, ¬ order.readable := unreadable
    simp only [feedGeneratedStrategyBar]
    rw [emit_unreadable none]

theorem feedBar_returned {session : NautilusRuntimeSession Amount} (returned : (feedBar engine session bar).2 = some events) :
    ∃ orders, engine.feed bar = .took orders ∧ ∀ order ∈ orders, order.readable := by
  unfold feedBar at returned
  cases fed : engine.feed bar with
  | unbuilt =>
    rw [fed] at returned
    cases returned
  | raised orders =>
    rw [fed] at returned
    cases returned
  | took orders =>
    rw [fed] at returned
    exact ⟨orders,rfl,emit_returned returned⟩

theorem feedBar_raised {session : NautilusRuntimeSession Amount}
    (raised : (feedBar engine session bar).2 = none) : engine.feed bar ≠ .took [] := by
  intro fed
  unfold feedBar at raised
  rw [fed] at raised
  cases raised

/-- What the bars done and the one that fails leave of a warm session. -/
structure FailedAt (engine : Engine Amount) (session : NautilusRuntimeSession Amount) (done : List (NativeMarketMessage Amount))
    (bar : NativeMarketMessage Amount) (last : NautilusRuntimeSession Amount) : Prop where
  fed : last.fed = session.fed ++ (done ++ givenOf engine bar)
  captured : last.captured = session.captured ++ (done ++ [bar]).flatMap (capturedOf engine)
  returned : ∀ before ∈ done, ∃ orders, engine.feed before = .took orders ∧ ∀ order ∈ orders, order.readable
  raised : engine.feed bar ≠ .took []
  account : (∀ before ∈ done, engine.feed before = .took []) → (∀ order ∈ (engine.feed bar).orders, ¬ order.readable) →
    last.account = session.account

variable {generation required : Nat}

theorem loop_failed {session : NautilusRuntimeSession Amount}
    {new : List (NativeMarketMessage Amount)} (warm : session.warmupStatus = .complete)
    (raised : (forEach (processBar generation required engine) session new).2 = none) :
    (forEach (processBar generation required engine) session new).1.processed = session.processed ∧
      ∃ done bar after, new = done ++ bar :: after ∧
        FailedAt engine session done bar (forEach (processBar generation required engine) session new).1 := by
  let running (done : List (NativeMarketMessage Amount)) (state : NautilusRuntimeSession Amount)
      (_ : List (NautilusRuntimeEventInput Amount)) : Prop :=
    (∃ account made, state =
      { session with
        fed := session.fed ++ done
        captured := session.captured ++ done.flatMap (capturedOf engine)
        account := account
        made := made }) ∧
      (∀ before ∈ done, ∃ orders, engine.feed before = .took orders ∧ ∀ order ∈ orders, order.readable) ∧
      ((∀ before ∈ done, engine.feed before = .took []) → state.account = session.account)
  have start : running [] session [] := by
    refine ⟨⟨session.account,session.made,by simp⟩,?_,fun _ => rfl⟩
    intro before member
    cases member
  let ends (done : List (NativeMarketMessage Amount)) (bar : NativeMarketMessage Amount)
      (last : NautilusRuntimeSession Amount) : Prop :=
    last.processed = session.processed ∧ FailedAt engine session done bar last
  have rule := @forEach_rule _ _ _ (processBar generation required engine) running ends new ?_ ?_ session start
  · rcases rule with ⟨last,results,looped,_⟩ | ⟨done,bar,after,last,looped,split,same,failed⟩
    · rw [looped] at raised
      cases raised
    · rw [looped]
      exact ⟨same,done,bar,after,split,failed⟩
  · intro done bar after state results mid first split holds ran
    obtain ⟨⟨account,made,shape⟩,earlier,unchanged⟩ := holds
    have isWarm : state.warmupStatus = .complete := by rw [shape]; exact warm
    rw [processBar,if_pos isWarm] at ran
    obtain ⟨orders,took,readable⟩ := feedBar_returned (congrArg Prod.snd ran)
    obtain ⟨account',made',frame⟩ := feedBar_frame engine state bar
    rw [ran] at frame
    have given : givenOf engine bar = [bar] := by rw [givenOf,took]
    refine ⟨⟨account',made',?_⟩,?_,?_⟩
    · rw [show mid = _ from frame,shape,given]
      simp
    · intro before member
      rcases mem_append.mp member with old | here
      · exact earlier before old
      · rw [mem_singleton.mp here]
        exact ⟨orders,took,readable⟩
    · intro silent
      have noOrders : ∀ order ∈ (engine.feed bar).orders, ¬ order.readable := by
        rw [silent bar (by simp)]
        exact fun order member => nomatch member
      have same : (feedBar engine state bar).1.account = state.account := feedBar_account noOrders
      rw [ran] at same
      rw [show mid.account = _ from same]
      exact unchanged fun before member => silent before (mem_append_left _ member)
  · intro done bar after state results mid split holds ran
    obtain ⟨⟨account,made,shape⟩,earlier,unchanged⟩ := holds
    have isWarm : state.warmupStatus = .complete := by rw [shape]; exact warm
    rw [processBar,if_pos isWarm] at ran
    obtain ⟨account',made',frame⟩ := feedBar_frame engine state bar
    rw [ran,shape] at frame
    have same : mid = _ := frame
    refine ⟨by rw [same],?_,?_,earlier,feedBar_raised (congrArg Prod.snd ran),?_⟩
    · rw [same]
      simp
    · rw [same]
      simp
    · intro silent unreadable
      have kept : (feedBar engine state bar).1.account = state.account := feedBar_account unreadable
      rw [ran] at kept
      rw [show mid.account = _ from kept]
      exact unchanged silent

theorem feedNewBars_raised {session : NautilusRuntimeSession Amount} {batch : List (NativeMarketMessage Amount)}
    (raised : (feedNewBars generation required engine session batch events).2 = none) :
    let taken := takeUp maxSessionSourceEventIds (·.sourceEventId) session.processed batch
    let looped := forEach (processBar generation required engine) { session with processed := taken.1 } taken.2
    looped.2 = none ∧ feedNewBars generation required engine session batch events = (looped.1,none) := by
  intro taken looped
  unfold feedNewBars at raised ⊢
  rcases ran : looped with ⟨last,_ | more⟩
  · have same : forEach (processBar generation required engine) { session with processed := taken.1 } taken.2 = (last,none) := ran
    exact ⟨rfl,by simp only [taken] at same; simp only [same]⟩
  · have same : forEach (processBar generation required engine) { session with processed := taken.1 } taken.2 =
      (last,some more) := ran
    simp only [taken] at same
    simp only [same] at raised
    cases raised

variable {runtime : NautilusRuntimeRecord Amount}

theorem runBarBatch_started {session : NautilusRuntimeSession Amount}
    (started : session.warmupStatus ≠ .pending) (isRequired : runtime.requiredWarmupBars = some required)
    (accepted : engine.refuses = false) :
    session.runBarBatch runtime engine messages =
      if bars messages = [] then (session,some [])
      else feedNewBars runtime.generation required engine session (bars messages) [] := by
  cases messages with
  | nil => rfl
  | cons first rest =>
    unfold NautilusRuntimeSession.runBarBatch
    simp only [accepted,isRequired,startWarmup,started,bars,List.isEmpty_iff]
    simp

theorem runBarBatch_known {session : NautilusRuntimeSession Amount}
    (started : session.warmupStatus ≠ .pending) (supported : runtime.requiredWarmupBars.isSome)
    (known : ∀ bar ∈ bars messages, bar.sourceEventId ∈ session.processed) :
    session.runBarBatch runtime engine messages = (session,none) ∨
      session.runBarBatch runtime engine messages = (session,some []) := by
  obtain ⟨required,isRequired⟩ := Option.isSome_iff_exists.mp supported
  cases refuses : engine.refuses with
  | true =>
    cases messages with
    | nil => exact .inr rfl
    | cons first rest => exact .inl (by simp [NautilusRuntimeSession.runBarBatch,refuses])
  | false =>
    refine .inr ?_
    have nothing : takeUp maxSessionSourceEventIds (·.sourceEventId) session.processed (bars messages) =
        (session.processed,[]) := takeUp_all_known known
    rw [runBarBatch_started started isRequired refuses]
    simp [feedNewBars,nothing,takeUp]

theorem deliverAll_known {session : NautilusRuntimeSession Amount} (stopped : session.warmupStatus = .failed)
    (supported : runtime.requiredWarmupBars.isSome)
    (known : ∀ bar ∈ bars messages, bar.sourceEventId ∈ session.processed) (later : List (Engine Amount)) :
    ∃ errors, deliverAll runtime messages session later = (session,errors) ∧
      ∀ event ∈ errors, ∃ source, event = ⟨.runtimeError,.other,.runtimeError source⟩ := by
  have started : session.warmupStatus ≠ .pending := by rw [stopped]; decide
  have unchanged : { session with warmupStatus := .failed } = session := by rw [← stopped]
  induction later with
  | nil => exact ⟨[],rfl,fun event member => nomatch member⟩
  | cons engine later ih =>
    obtain ⟨errors,same,all⟩ := ih
    rw [deliverAll]
    cases lastMessage : messages.getLast? with
    | none =>
      simp only [nativeRunBarBatch,lastMessage]
      exact ⟨[],rfl,fun event member => nomatch member⟩
    | some last =>
      have known : session.runBarBatch runtime engine messages = (session,none) ∨
          session.runBarBatch runtime engine messages = (session,some []) := runBarBatch_known started supported known
      rcases known with raised | quiet
      · simp only [nativeRunBarBatch,lastMessage,raised,unchanged,same]
        refine ⟨⟨.runtimeError,.other,.runtimeError last.sourceEventId⟩ :: errors,by simp [failed],?_⟩
        exact forall_mem_cons.mpr ⟨⟨_,rfl⟩,all⟩
      · simp only [nativeRunBarBatch,lastMessage,quiet]
        exact ⟨[],rfl,fun event member => nomatch member⟩

theorem foldFills_errors {account : NautilusSandboxAccount Amount}
    (all : ∀ event ∈ errors, ∃ source, event = ⟨.runtimeError,.other,.runtimeError source⟩) :
    foldFills account errors = account := by
  induction errors with
  | nil => rfl
  | cons event rest ih =>
    obtain ⟨⟨source,rfl⟩,later⟩ := forall_mem_cons.mp all
    exact ih later

theorem deliverAll_failed {session : NautilusRuntimeSession Amount} (later : List (Engine Amount))
    (warm : session.warmupStatus = .complete) (supported : runtime.requiredWarmupBars.isSome)
    (new : ∀ bar ∈ bars messages, bar.sourceEventId ∉ session.processed)
    (few : ((bars messages).map (·.sourceEventId)).dedup.length ≤ maxSessionSourceEventIds)
    (accepted : engine.refuses = false) (raised : (session.runBarBatch runtime engine messages).2 = none) :
    ∃ done bar after last errors, newBars session messages = done ++ bar :: after ∧ FailedAt engine session done bar last ∧
      deliverAll runtime messages session (engine :: later) = (last,errors) ∧
      ∀ event ∈ errors, ∃ source, event = ⟨.runtimeError,.other,.runtimeError source⟩ := by
  obtain ⟨required,isRequired⟩ := Option.isSome_iff_exists.mp supported
  have started : session.warmupStatus ≠ .pending := by rw [warm]; decide
  rw [runBarBatch_started started isRequired accepted] at raised
  by_cases some : bars messages = []
  · rw [if_pos some] at raised
    cases raised
  rw [if_neg some] at raised
  obtain ⟨_,_,remembered⟩ := takeUp_batch few new
  obtain ⟨loopRaised,same⟩ := feedNewBars_raised raised
  let taken := takeUp maxSessionSourceEventIds (·.sourceEventId) session.processed (bars messages)
  let begun : NautilusRuntimeSession Amount := { session with processed := taken.1 }
  have warmBegun : begun.warmupStatus = .complete := warm
  obtain ⟨kept,done,bar,after,split,failedAt⟩ := loop_failed warmBegun loopRaised
  have ran : session.runBarBatch runtime engine messages = _ := runBarBatch_started started isRequired accepted
  rw [if_neg some,same] at ran
  generalize forEach (processBar runtime.generation required engine) begun taken.2 = looped at kept failedAt ran
  cases lastMessage : messages.getLast? with
  | none =>
    rw [getLast?_eq_none_iff.mp lastMessage] at some
    exact absurd rfl some
  | some last =>
    let stopped : NautilusRuntimeSession Amount := { looped.1 with warmupStatus := .failed }
    have known : ∀ bar ∈ bars messages, bar.sourceEventId ∈ stopped.processed := by
      intro bar member
      rw [show stopped.processed = begun.processed from kept]
      exact remembered bar member
    have redelivery : ∃ errors, deliverAll runtime messages stopped later = (stopped,errors) ∧ _ :=
      deliverAll_known rfl supported known later
    obtain ⟨errors,redelivered,all⟩ := redelivery
    refine ⟨done,bar,after,stopped,⟨.runtimeError,.other,.runtimeError last.sourceEventId⟩ :: errors,split,?_,?_,?_⟩
    · exact ⟨failedAt.fed,failedAt.captured,failedAt.returned,failedAt.raised,failedAt.account⟩
    · rw [deliverAll]
      simp only [nativeRunBarBatch,lastMessage,ran]
      rw [show ({ looped.1 with warmupStatus := .failed } : NautilusRuntimeSession Amount) = stopped from rfl,redelivered]
      simp [failed]
    · exact forall_mem_cons.mpr ⟨⟨_,rfl⟩,all⟩

/-- A failing batch of new bars is applied, whatever follows, exactly if its last bar fails, after the strategy was
    given it, and nothing was ordered. -/
theorem applied_iff (runtime : NautilusRuntimeRecord Amount) (engine : Engine Amount)
    (session : NautilusRuntimeSession Amount) (messages : List (NativeMarketMessage Amount)) (later : List (Engine Amount))
    (warm : session.warmupStatus = .complete) (supported : runtime.requiredWarmupBars.isSome)
    (new : ∀ bar ∈ bars messages, bar.sourceEventId ∉ session.processed)
    (few : ((bars messages).map (·.sourceEventId)).dedup.length ≤ maxSessionSourceEventIds)
    (accepted : engine.refuses = false) (raised : (session.runBarBatch runtime engine messages).2 = none) :
    Applied session messages (deliverAll runtime messages session (engine :: later)) ↔
      FailsLast engine (newBars session messages) := by
  obtain ⟨done,bar,after,last,errors,split,failedAt,delivers,all⟩ :=
    deliverAll_failed later warm supported new few accepted raised
  obtain ⟨once,cover,among⟩ := newBars_keys new few
  rw [split] at once cover among
  have isFed : last.fed.drop session.fed.length = done ++ givenOf engine bar := by rw [failedAt.fed,drop_left]
  have isCaptured : last.captured.drop session.captured.length = (done ++ [bar]).flatMap (capturedOf engine) := by
    rw [failedAt.captured,drop_left]
  rw [delivers,split]
  constructor
  · intro applied
    have fedOnce := applied.fedOnce
    have emittedOnce := applied.emittedOnce
    simp only [isFed,isCaptured] at fedOnce emittedOnce
    -- An order that can be read has events, and none were emitted.
    have unreadable : ∀ other ∈ done ++ [bar], ∀ order ∈ (engine.feed other).orders, ¬ order.readable := by
      intro other member order submitted readable
      obtain ⟨_ | side,_ | quantity⟩ := order
      · cases readable
      · cases readable
      · cases readable
      · have captured : (other,(⟨some side,some quantity⟩ : Order Amount)) ∈ (done ++ [bar]).flatMap (capturedOf engine) :=
          mem_flatMap.mpr ⟨other,member,mem_map_of_mem submitted⟩
        have emitted := emittedOnce other _ captured side quantity rfl .fill (by decide)
        rw [count_errors all] at emitted
        cases emitted
    have isLast : after = [] := by
      cases after with
      | nil => rfl
      | cons lost rest =>
        have fed := fedOnce lost (among (by simp))
        have isFedBefore : lost.sourceEventId ∈ (done ++ givenOf engine bar).map (·.sourceEventId) := by
          rw [← count_pos_iff,fed]
          exact Nat.one_pos
        have place : lost.sourceEventId ∈ (done ++ [bar]).map (·.sourceEventId) := by
          obtain ⟨other,member,same⟩ := mem_map.mp isFedBefore
          rcases mem_append.mp member with early | here
          · exact mem_map.mpr ⟨other,mem_append_left _ early,same⟩
          · exact mem_map.mpr ⟨other,mem_append_right _ (givenOf_subset engine bar here),same⟩
        rw [show done ++ bar :: lost :: rest = (done ++ [bar]) ++ lost :: rest by simp,map_append] at once
        exact absurd mem_cons_self (disjoint_of_nodup_append once place)
    have isGiven : engine.feed bar ≠ .unbuilt := by
      intro unbuilt
      have fed := fedOnce bar (among (by simp))
      rw [givenOf,unbuilt,append_nil] at fed
      have place : bar.sourceEventId ∈ done.map (·.sourceEventId) := by
        rw [← count_pos_iff,fed]
        exact Nat.one_pos
      rw [map_append] at once
      exact absurd mem_cons_self (disjoint_of_nodup_append once place)
    refine ⟨done,bar,by rw [isLast],?_,isGiven,unreadable bar (by simp)⟩
    intro before member
    obtain ⟨orders,took,readable⟩ := failedAt.returned before member
    rw [took]
    cases orders with
    | nil => rfl
    | cons order rest =>
      refine absurd (readable order mem_cons_self) (unreadable before (mem_append_left _ member) order ?_)
      rw [took]
      exact mem_cons_self
  · rintro ⟨early,final,same,silent,given,unreadable⟩
    have isLast : after = [] := by
      rcases eq_nil_or_concat after with none | ⟨front,back,rfl⟩
      · exact none
      · rw [show done ++ bar :: front.concat back = (done ++ bar :: front) ++ [back] by simp] at same
        have inEarly : bar ∈ early := by
          rw [← (append_inj' same rfl).1]
          simp
        exact absurd (silent bar inEarly) failedAt.raised
    subst isLast
    obtain ⟨rfl,sameBar⟩ := append_inj' same rfl
    cases sameBar
    have fedAll : done ++ givenOf engine bar = done ++ [bar] := by rw [givenOf_given given]
    refine ⟨?_,?_,?_⟩
    · intro other member
      simp only [isFed,fedAll]
      exact count_eq_one_of_mem once (cover other member)
    · intro other order member side quantity isOrder
      simp only [isCaptured] at member
      obtain ⟨before,place,inOrders⟩ := mem_flatMap.mp member
      obtain ⟨submitted,isSubmitted,pair⟩ := mem_map.mp inOrders
      cases pair
      rcases mem_append.mp place with isEarly | here
      · rw [silent other isEarly] at isSubmitted
        cases isSubmitted
      · rw [mem_singleton.mp here] at isSubmitted
        exact absurd (by rw [isOrder]; rfl) (unreadable order isSubmitted)
    · rw [foldFills_errors all]
      exact failedAt.account silent unreadable

def sampleRuntime : NautilusRuntimeRecord ℤ := ⟨1,some 20,some 1,[]⟩
def sampleBar (id : Nat) : NativeMarketMessage ℤ := ⟨.entry id,id,true,10⟩
def warmSession : NautilusRuntimeSession ℤ :=
  (nativeRunBarBatch sampleRuntime ⟨false,fun _ => .took []⟩ .new [sampleBar 1]).1
def failingEngine : Engine ℤ := ⟨false,fun bar => if bar.sourceEventId = 2 then .took [⟨some .buy,some 1⟩] else .unbuilt⟩
theorem applied_iff_sample :
    Applied warmSession [sampleBar 2,sampleBar 3]
        (deliverAll sampleRuntime [sampleBar 2,sampleBar 3] warmSession [failingEngine,⟨false,fun _ => .took []⟩]) ↔
      FailsLast failingEngine (newBars warmSession [sampleBar 2,sampleBar 3]) :=
  applied_iff sampleRuntime failingEngine warmSession [sampleBar 2,sampleBar 3] [⟨false,fun _ => .took []⟩]
    (by decide) (by decide) (by decide) (by decide) (by decide) (by decide)

/-- The order on the second bar is executed and its events are lost, and the third bar is
    lost altogether. -/
theorem failed_batch_lost : ¬ ∀ (runtime : NautilusRuntimeRecord ℤ) (engine : Engine ℤ) (session : NautilusRuntimeSession ℤ)
    (messages : List (NativeMarketMessage ℤ)) (later : List (Engine ℤ)), session.warmupStatus = .complete →
    runtime.requiredWarmupBars.isSome → (∀ bar ∈ bars messages, bar.sourceEventId ∉ session.processed) →
    ((bars messages).map (·.sourceEventId)).dedup.length ≤ maxSessionSourceEventIds → engine.refuses = false →
    (session.runBarBatch runtime engine messages).2 = none →
    Applied session messages (deliverAll runtime messages session (engine :: later)) := by
  intro holds
  have applied := holds sampleRuntime failingEngine warmSession [sampleBar 2,sampleBar 3] [⟨false,fun _ => .took []⟩]
    (by decide) (by decide) (by decide) (by decide) (by decide) (by decide)
  exact absurd (applied.fedOnce (sampleBar 3) (by decide)) (by decide)

end Codebot.FailedBatches
