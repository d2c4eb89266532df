import Codebot.StreamCursors

/-!
The account of a runtime and its table of events. The account lives in a session of one worker, while the fills are in
the table (`continuous_accounts`).
-/
namespace Codebot.PaperAccounts
open Runs PaperSessions PaperEvents MarketStreams PaperWorkers StreamCursors List
open NautilusRuntimes (EventType)

variable {workers : Nat} {Amount : Type}
/-- The sum of the signed quantities with that of the event, if it is a fill. -/
def addFill [Add Amount] [Sub Amount] (sum : Amount) (event : NautilusRuntimeEventInput Amount) : Amount :=
  match event.type, event.payload with
  | .fill, .order .buy quantity _ _ => sum + quantity
  | .fill, .order .sell quantity _ _ => sum - quantity
  | _, _ => sum
def signedSum [Zero Amount] [Add Amount] [Sub Amount] (events : List (NautilusRuntimeEventInput Amount)) : Amount :=
  events.foldl addFill 0
def latest (type : EventType) (before : Option (NautilusSandboxAccount Amount)) (event : NautilusRuntimeEventInput Amount) :
    Option (NautilusSandboxAccount Amount) :=
  match event.payload with
  | .account account => if event.type = type then some account else before
  | _ => before
def latestSnapshot (type : EventType) (events : List (NautilusRuntimeEventInput Amount)) :
    Option (NautilusSandboxAccount Amount) :=
  events.foldl (latest type) none
def AtOrder (events : List (NautilusRuntimeEventInput Amount)) : Prop :=
  ∀ event ∈ (events.filter ofOrder).head?, event.type = .signal
instance (events : List (NautilusRuntimeEventInput Amount)) : Decidable (AtOrder events) :=
  inferInstanceAs (Decidable (∀ event ∈ (events.filter ofOrder).head?, event.type = .signal))
/-- The next append of a worker, with the record that the worker holds. -/
def nextAppend : Phase Amount → Option (Lease Amount × List (NautilusRuntimeEventInput Amount))
  | .acknowledging lease events _ => some (lease,events)
  | .appending lease (batch :: _) _ => some (lease,batch)
  | _ => none

section
variable [LinearOrder Amount] [Zero Amount] [Add Amount] [Sub Amount] [Mul Amount] [Div Amount]

/-- A sell is not larger than the position. -/
def covers (account : NautilusSandboxAccount Amount) (event : NautilusRuntimeEventInput Amount) : Bool :=
  match event.type, event.payload with
  | .fill, .order .sell quantity _ _ => quantity ≤ account.netQuantity
  | _, _ => true
def covered : NautilusSandboxAccount Amount → List (NautilusRuntimeEventInput Amount) → Bool
  | _, [] => true
  | account, event :: rest => covers account event && covered (foldFills account [event]) rest

variable [NatCast Amount]
/-- The snapshots of the runtime agree with its fills. -/
structure Continuous (events : List (NautilusRuntimeEventInput Amount)) : Prop where
  position : ∀ account ∈ latestSnapshot .positionSnapshot events, account.netQuantity = signedSum events
  pnl : ∀ account ∈ latestSnapshot .pnlSnapshot events, account.realizedPnl = (foldFills .new events).realizedPnl
/-- The events of orders of the batch are new, no sell is larger than the position, and the session has made all that
    are stored or to append, and no other. -/
def Continues (world : World workers Amount) (w : Fin workers) (lease : Lease Amount)
    (batch : List (NautilusRuntimeEventInput Amount)) : Prop :=
  (∀ event ∈ batch, ofOrder event → event.key ∉ keys world.stored) ∧
    covered .new ((world.stored ++ batch).filter ofOrder) ∧
    (world.sessionFor w lease).made.map (·.2) = (world.stored ++ pending (world.worker w).phase).filter ofOrder
instance (world : World workers Amount) (w : Fin workers) (lease : Lease Amount)
    (batch : List (NautilusRuntimeEventInput Amount)) : Decidable (Continues world w lease batch) :=
  inferInstanceAs (Decidable (_ ∧ _ ∧ _))

/-- What the worker with the lease stores of orders continues what is stored, and events of
    orders that it does not store are lost from the first of an order on. -/
def Continuing (world : World workers Amount) : Label workers Amount → Prop
  | .claim w _ => ∀ v, world.owner = some v → v ≠ w → AtOrder (pending (world.worker v).phase)
  | .append w refused => world.owner = some w → ∀ next ∈ nextAppend (world.worker w).phase, next.2.any ofOrder →
      if (appendForWorker world w refused next.2).isSome then Continues world w next.1 next.2
      else AtOrder (pending (world.worker w).phase)
  | .restart w => world.owner = some w → AtOrder (pending (world.worker w).phase)
  | _ => True

instance (world : World workers Amount) : ∀ label, Decidable (Continuing world label)
  | .claim w _ => inferInstanceAs (Decidable (∀ v, world.owner = some v → v ≠ w → AtOrder (pending (world.worker v).phase)))
  | .append w refused => inferInstanceAs (Decidable (world.owner = some w → ∀ next ∈ nextAppend (world.worker w).phase,
      next.2.any ofOrder → if (appendForWorker world w refused next.2).isSome then Continues world w next.1 next.2
        else AtOrder (pending (world.worker w).phase)))
  | .restart w => inferInstanceAs (Decidable (world.owner = some w → AtOrder (pending (world.worker w).phase)))
  | .arriveBar _ | .arriveCommand _ | .edit _ _ | .readCommands _ _ | .release _ _ | .persist _ _ | .consume _ _ _ | .evict _ _ =>
    .isTrue trivial
end

variable {events : List (NautilusRuntimeEventInput Amount)}

theorem foldl_ofOrder {State : Type} {body : State → NautilusRuntimeEventInput Amount → State}
    (passes : ∀ state event, event.payload = .other → body state event = state) (quiet : ∀ event ∈ events, Quiet event) (state : State) :
    (events.filter ofOrder).foldl body state = events.foldl body state := by
  induction events generalizing state with
  | nil => rfl
  | cons event rest ih =>
    have later := ih fun other member => quiet other (mem_cons_of_mem _ member)
    cases isOrder : ofOrder event with
    | true =>
      rw [filter_cons_of_pos isOrder]
      exact later _
    | false =>
      rw [filter_cons_of_neg (by rw [isOrder]; exact Bool.false_ne_true),later,foldl_cons,
        passes state event (quiet event mem_cons_self isOrder)]

section
variable [LinearOrder Amount] [Zero Amount] [Add Amount] [Sub Amount] [Mul Amount] [Div Amount]

theorem covered_append {account : NautilusSandboxAccount Amount} {first second : List (NautilusRuntimeEventInput Amount)}
    (both : covered account (first ++ second)) : covered account first ∧ covered (foldFills account first) second := by
  induction first generalizing account with
  | nil => exact ⟨rfl,both⟩
  | cons event rest ih =>
    rw [cons_append,covered,Bool.and_eq_true] at both
    obtain ⟨before,after⟩ := ih both.2
    rw [covered,Bool.and_eq_true]
    exact ⟨⟨both.1,before⟩,after⟩

theorem applyFill_covered (subtracts : ∀ a b : Amount, b ≤ a → 0 ≤ a - b) {account : NautilusSandboxAccount Amount}
    {bar : NativeMarketMessage Amount} {side : Side} {quantity : Amount}
    (fits : covered account (orderEvents bar side quantity (account.applyFill side quantity bar.close))) :
    (orderEvents bar side quantity (account.applyFill side quantity bar.close)).foldl addFill account.netQuantity =
      (account.applyFill side quantity bar.close).netQuantity := by
  cases side with
  | buy => rfl
  | sell =>
    have enough : quantity ≤ account.netQuantity := by
      simp [orderEvents,covered,covers,foldFills] at fits
      exact of_decide_eq_true fits
    show account.netQuantity - quantity = max 0 (account.netQuantity - min quantity account.netQuantity)
    rw [min_eq_left enough,max_eq_right (subtracts _ _ enough)]

variable {events : List (NautilusRuntimeEventInput Amount)} {first last : NautilusSandboxAccount Amount}

theorem chained_net (subtracts : ∀ a b : Amount, b ≤ a → 0 ≤ a - b) (chained : Chained first events last) (fits : covered first events) :
    events.foldl addFill first.netQuantity = last.netQuantity := by
  induction chained with
  | nil account => rfl
  | order bar side quantity rest ih =>
    obtain ⟨now,later⟩ := covered_append fits
    rw [foldl_append,applyFill_covered subtracts now]
    exact ih later

theorem chained_latest
    (chained : Chained first events last) {type : EventType} (snapshot : type = .positionSnapshot ∨ type = .pnlSnapshot)
    {before : Option (NautilusSandboxAccount Amount)} (agrees : ∀ account ∈ before, account = first) :
    ∀ account ∈ events.foldl (PaperAccounts.latest type) before, account = last := by
  induction chained generalizing before with
  | nil account => exact agrees
  | @order account last events bar side quantity rest ih =>
    rw [foldl_append]
    apply ih
    intro shown isShown
    have same : some (account.applyFill side quantity bar.close) = some shown := by
      rcases snapshot with rfl | rfl <;> exact isShown
    exact (Option.some.inj same).symm

theorem chained_before {rest : List (NautilusRuntimeEventInput Amount)}
    (chained : Chained first (events ++ rest) last) (atOrder : ∀ event ∈ rest.head?, event.type = .signal) :
    ∃ mid, Chained first events mid := by
  generalize isAll : events ++ rest = all at chained
  induction chained generalizing events with
  | nil account =>
    rw [(append_eq_nil_iff.mp isAll).1]
    exact ⟨_,.nil _⟩
  | @order account last more bar side quantity later ih =>
    rcases append_eq_append_iff.mp isAll with ⟨cut,isCut,isRest⟩ | ⟨beyond,rfl,isMore⟩
    · -- The cut is in the first order: before it, or after its first event.
      cases events with
      | nil => exact ⟨_,.nil _⟩
      | cons event some =>
        cases cut with
        | nil =>
          rw [append_nil] at isCut
          rw [← isCut,← append_nil (orderEvents ..)]
          exact ⟨_,.order bar side quantity (.nil _)⟩
        | cons next others =>
          have isSignal := atOrder next (by rw [isRest]; rfl)
          have within : next ∈ (orderEvents bar side quantity (account.applyFill side quantity bar.close)).tail := by
            rw [isCut]
            exact mem_append_right _ mem_cons_self
          simp only [orderEvents,tail_cons,mem_cons,not_mem_nil,or_false] at within
          rcases within with rfl | rfl | rfl | rfl | rfl <;> cases isSignal
    · obtain ⟨mid,before⟩ := ih isMore.symm
      exact ⟨mid,.order bar side quantity before⟩

variable [NatCast Amount]

theorem continuous (subtracts : ∀ a b : Amount, b ≤ a → 0 ≤ a - b) (quiet : ∀ event ∈ events, Quiet event)
    (chained : Chained .new (events.filter ofOrder) last) (fits : covered .new (events.filter ofOrder)) : Continuous events := by
  have net : signedSum events = last.netQuantity := by
    rw [signedSum,← foldl_ofOrder (fun sum event other => by rw [addFill,other]; cases event.type <;> rfl) quiet]
    exact chained_net subtracts chained fits
  have folded : last = foldFills .new events := by
    rw [chained.account,foldFills,foldl_ofOrder (fun account event other => by rw [other]; cases event.type <;> rfl) quiet]
    rfl
  have shown : ∀ type, type = .positionSnapshot ∨ type = .pnlSnapshot → ∀ account ∈ latestSnapshot type events, account = last := by
    intro type snapshot account isLatest
    rw [latestSnapshot,← foldl_ofOrder (fun before event other => by rw [latest,other]) quiet] at isLatest
    have nothing : ∀ account ∈ (none : Option (NautilusSandboxAccount Amount)), account = .new := by simp
    exact chained_latest chained snapshot nothing account isLatest
  constructor
  · intro account isLatest
    rw [shown _ (.inl rfl) account isLatest,net]
  · intro account isLatest
    rw [shown _ (.inr rfl) account isLatest,folded]
end

theorem atOrder_nothing (nothing : events = []) : AtOrder events := by
  rw [nothing]
  exact fun event isFirst => nomatch isFirst
theorem filter_ofOrder (noOrder : ¬ events.any ofOrder) : events.filter ofOrder = [] :=
  filter_eq_nil_iff.mpr fun event member isOrder => noOrder (any_eq_true.mpr ⟨event,member,isOrder⟩)
theorem commandEvent_quiet {entries : List CommandEntry} : ∀ event ∈ (entries.filterMap commandEvent : List (NautilusRuntimeEventInput Amount)),
    Quiet event := by
  intro event member _
  obtain ⟨entry,_,isEvent⟩ := mem_filterMap.mp member
  unfold commandEvent at isEvent
  split at isEvent <;> cases isEvent <;> rfl

theorem newEvents_ofOrder [DecidableEq Amount] {stored : List (NautilusRuntimeEventInput Amount)}
    (fresh : ∀ event ∈ events, ofOrder event → event.key ∉ keys stored) :
    (newEvents stored events).filter ofOrder = events.filter ofOrder := by
  rw [newEvents,filter_filter]
  apply filter_congr
  intro event member
  cases isOrder : ofOrder event with
  | true =>
    rw [Bool.true_and]
    exact decide_eq_true (fresh event member isOrder)
  | false => rfl

section
variable [LinearOrder Amount] [Zero Amount] [Add Amount] [Sub Amount] [Mul Amount] [Div Amount] [NatCast Amount]

def Whole (events : List (NautilusRuntimeEventInput Amount)) : Prop := ∃ last, Chained .new (events.filter ofOrder) last

/-- What is stored are whole orders, or it is once the worker with the lease has appended the rest. -/
structure Accounted (world : World workers Amount) : Prop where
  quiet : ∀ event ∈ world.stored, Quiet event
  waiting : ∀ w, ∀ event ∈ pending (world.worker w).phase, Quiet event
  sessions : ∀ w key session, (world.worker w).session key = some session →
    Chained .new (session.made.map (·.2)) session.account
  covered : PaperAccounts.covered .new (world.stored.filter ofOrder)
  whole : Whole world.stored ∨ ∃ w, world.owner = some w ∧ Whole (world.stored ++ pending (world.worker w).phase)

variable {world : World workers Amount}
theorem Accounted.loses (accounted : Accounted world)
    (atOrder : ∀ w, world.owner = some w → AtOrder (pending (world.worker w).phase)) : Whole world.stored := by
  rcases accounted.whole with whole | ⟨w,owner,last,chained⟩
  · exact whole
  · rw [filter_append] at chained
    exact chained_before chained (atOrder w owner)

variable {w : Fin workers}
variable {next : World workers Amount}

theorem accounted_put (accounted : Accounted world)
    (stored : next.stored = world.stored) (owner : next.owner = world.owner)
    (others : ∀ v, v ≠ w → next.worker v = world.worker v) (waiting : ∀ event ∈ pending (next.worker w).phase, Quiet event)
    (sessions : ∀ key session, (next.worker w).session key = some session →
      Chained .new (session.made.map (·.2)) session.account)
    (rest : (pending (next.worker w).phase).filter ofOrder = (pending (world.worker w).phase).filter ofOrder ∨
      (world.owner = some w → AtOrder (pending (world.worker w).phase))) : Accounted next := by
  refine ⟨?_,?_,?_,?_,?_⟩
  · rw [stored]
    exact accounted.quiet
  · intro v
    by_cases same : v = w
    · subst same
      exact waiting
    · rw [others v same]
      exact accounted.waiting v
  · intro v key session found
    by_cases same : v = w
    · subst same
      exact sessions key session found
    · rw [others v same] at found
      exact accounted.sessions v key session found
  · rw [stored]
    exact accounted.covered
  · rw [stored,owner]
    rcases accounted.whole with whole | ⟨v,isOwner,whole⟩
    · exact .inl whole
    · by_cases same : v = w
      · subst same
        rcases rest with kept | lost
        · refine .inr ⟨v,isOwner,?_⟩
          rw [Whole,filter_append,kept,← filter_append]
          exact whole
        · refine .inl (accounted.loses ?_)
          intro u isOwner'
          rw [isOwner] at isOwner'
          cases isOwner'
          exact lost isOwner
      · refine .inr ⟨v,isOwner,?_⟩
        rw [others v same]
        exact whole

variable {phase : Phase Amount}

theorem accounted_advance (accounted : Accounted world)
    (nothing : pending (world.worker w).phase = []) (waiting : ∀ event ∈ pending phase, Quiet event) :
    Accounted (world.put w phase) := by
  refine accounted_put accounted rfl rfl (fun v other => put_other other phase) ?_ ?_ (.inr fun _ => atOrder_nothing nothing)
  · rw [put_worker]
    exact waiting
  · rw [put_worker]
    exact accounted.sessions w

theorem sessionFor_chained (accounted : Accounted world) (w : Fin workers) (lease : Lease Amount) :
    Chained .new ((world.sessionFor w lease).made.map (·.2)) (world.sessionFor w lease).account := by
  unfold World.sessionFor
  cases found : (world.worker w).session lease.key with
  | none => exact .nil _
  | some session => exact accounted.sessions w lease.key session found

variable {batch : List (NautilusRuntimeEventInput Amount)}

theorem accounted_append (accounted : Accounted world) {refused : Bool} (lease : Lease Amount)
    (appended : appendForWorker world w refused batch = some next)
    (continues : batch.any ofOrder → Continues world w lease batch)
    (split : pending (world.worker w).phase = batch ++ pending phase) : Accounted (next.put w phase) := by
  obtain ⟨owner,rfl⟩ := appendForWorker_some appended
  have waiting := accounted.waiting w
  rw [split] at waiting
  have fresh : (newEvents world.stored batch).filter ofOrder = batch.filter ofOrder := by
    apply newEvents_ofOrder
    intro event member isOrder
    exact (continues (any_eq_true.mpr ⟨event,member,isOrder⟩)).1 event member isOrder
  refine ⟨?_,?_,?_,?_,?_⟩
  · intro event member
    rcases mem_append.mp member with old | new
    · exact accounted.quiet event old
    · exact waiting event (mem_append_left _ (mem_filter.mp new).1)
  · intro v
    by_cases same : v = w
    · subst same
      rw [put_worker]
      exact fun event member => waiting event (mem_append_right _ member)
    · rw [put_other same]
      exact accounted.waiting v
  · intro v
    by_cases same : v = w
    · subst same
      rw [put_worker]
      exact accounted.sessions v
    · rw [put_other same]
      exact accounted.sessions v
  · show PaperAccounts.covered .new ((world.stored ++ newEvents world.stored batch).filter ofOrder)
    rw [filter_append,fresh,← filter_append]
    by_cases some : batch.any ofOrder
    · exact (continues some).2.1
    · rw [filter_append,filter_ofOrder some,append_nil]
      exact accounted.covered
  · have isRest : ((world.stored ++ newEvents world.stored batch) ++ pending phase).filter ofOrder =
        (world.stored ++ pending (world.worker w).phase).filter ofOrder := by
      rw [split]
      simp only [filter_append,fresh,append_assoc]
    by_cases some : batch.any ofOrder
    · refine .inr ⟨w,owner,(world.sessionFor w lease).account,?_⟩
      rw [put_worker]
      show Chained .new (((world.stored ++ newEvents world.stored batch) ++ pending phase).filter ofOrder) _
      rw [isRest,← (continues some).2.2]
      exact sessionFor_chained accounted w lease
    · rcases accounted.whole with ⟨last,chained⟩ | ⟨v,isOwner,last,chained⟩
      · refine .inl ⟨last,?_⟩
        show Chained .new ((world.stored ++ newEvents world.stored batch).filter ofOrder) last
        rw [filter_append,fresh,filter_ofOrder some,append_nil]
        exact chained
      · rw [owner] at isOwner
        cases isOwner
        refine .inr ⟨w,owner,last,?_⟩
        rw [put_worker]
        show Chained .new (((world.stored ++ newEvents world.stored batch) ++ pending phase).filter ofOrder) last
        rw [isRest]
        exact chained

theorem accounted_refused (accounted : Accounted world)
    (atOrder : world.owner = some w → batch.any ofOrder → AtOrder (pending (world.worker w).phase))
    (split : pending (world.worker w).phase = batch ++ pending phase) : Accounted (world.put w phase) := by
  have waiting := accounted.waiting w
  rw [split] at waiting
  refine accounted_put accounted rfl rfl (fun v other => put_other other phase) ?_ ?_ ?_
  · rw [put_worker]
    exact fun event member => waiting event (mem_append_right _ member)
  · rw [put_worker]
    exact accounted.sessions w
  · rw [put_worker]
    by_cases some : batch.any ofOrder
    · exact .inr fun owner => atOrder owner some
    · refine .inl ?_
      rw [split,filter_append,filter_ofOrder some,nil_append]

variable {lease : Lease Amount} {settings : Settings}

theorem accounted_consume (accounted : Accounted world) (reading : (world.worker w).phase = .reading lease) (engine : Engine Amount) (reads : Reads) :
    Accounted (world.consume settings w lease engine reads) := by
  have nothing : pending (world.worker w).phase = [] := by rw [reading]; rfl
  let consumed := consumeMarketData settings.eventBatchSize lease.runtime engine reads world.bars lease.cursors.bars
    (world.sessionFor w lease)
  obtain ⟨⟨new,called⟩,_⟩ := consume_makes settings.eventBatchSize lease.runtime engine reads world.bars lease.cursors.bars
    (world.sessionFor w lease)
  have toAppend : (eventBatches settings.eventBatchSize consumed.2.1.length consumed.2.1).flatten = consumed.2.1 :=
    eventBatches_flatten settings.positive (Nat.le_refl _)
  refine accounted_put accounted rfl rfl (fun v other => set_other other _) ?_ ?_ (.inr fun _ => atOrder_nothing nothing)
  · simp only [World.consume,set_worker]
    rw [pending_afterBatch,toAppend]
    exact called.quiet
  · simp only [World.consume,set_worker]
    intro key session found
    by_cases same : key = lease.key
    · subst same
      rw [Function.update_self] at found
      cases found
      rw [called.made,map_append]
      exact (sessionFor_chained accounted w lease).append called.chained
    · rw [Function.update_of_ne same] at found
      exact accounted.sessions w key session found

theorem accounted_lose (accounted : Accounted world) {lost : Worker Amount}
    (phase : lost.phase = (world.worker w).phase ∨
      lost.phase = .idle ∧ (world.owner = some w → AtOrder (pending (world.worker w).phase)))
    (sessions : ∀ key session, lost.session key = some session → (world.worker w).session key = some session) :
    Accounted (world.set w lost) := by
  refine accounted_put accounted rfl rfl (fun v other => set_other other lost) ?_ ?_ ?_
  · rw [set_worker]
    rcases phase with same | ⟨idle,_⟩
    · rw [same]
      exact accounted.waiting w
    · rw [idle]
      exact forall_mem_nil _
  · rw [set_worker]
    exact fun key session found => accounted.sessions w key session (sessions key session found)
  · rw [set_worker]
    rcases phase with same | ⟨_,atOrder⟩
    · exact .inl (by rw [same])
    · exact .inr atOrder

theorem accounted_claim (accounted : Accounted world) (whole : Whole world.stored) (stored : next.stored = world.stored) (worker : next.worker = world.worker) :
    Accounted (next.put w (.leased lease)) := by
  refine ⟨?_,?_,?_,?_,?_⟩
  · rw [show (next.put w _).stored = world.stored from stored]
    exact accounted.quiet
  · intro v
    by_cases same : v = w
    · subst same
      rw [put_worker]
      exact forall_mem_nil _
    · rw [put_other same,worker]
      exact accounted.waiting v
  · intro v
    by_cases same : v = w
    · subst same
      rw [put_worker,worker]
      exact accounted.sessions v
    · rw [put_other same,worker]
      exact accounted.sessions v
  · rw [show (next.put w _).stored = world.stored from stored]
    exact accounted.covered
  · rw [show (next.put w _).stored = world.stored from stored]
    exact .inl whole

theorem whole_claimed (accounted : Accounted world) {expired : Bool}
    (isIdle : (world.worker w).phase = .idle) (continuing : Continuing world (.claim w expired)) : Whole world.stored := by
  apply accounted.loses
  intro v owner
  by_cases same : v = w
  · subst same
    exact atOrder_nothing (by rw [isIdle]; rfl)
  · exact continuing v owner same

theorem accounted_left (accounted : Accounted world)
    (nothing : pending (world.worker w).phase = []) : Accounted (world.set w ⟨.idle,fun _ => none⟩) := by
  refine accounted_lose accounted (.inr ⟨rfl,fun _ => atOrder_nothing nothing⟩) ?_
  intro key session found
  cases found

theorem accounted_step {label : Label workers Amount}
    (accounted : Accounted world) (continuing : Continuing world label) (stepped : step settings world label = some next) :
    Accounted next := by
  have append : ∀ {w refused} (lease) {batch phase}, Continuing world (.append w refused) →
      nextAppend (world.worker w).phase = some (lease,batch) → pending (world.worker w).phase = batch ++ pending phase →
      Accounted (((appendForWorker world w refused batch).getD world).put w phase) := by
    intro w refused lease batch phase continuing isNext split
    cases appended : appendForWorker world w refused batch with
    | none =>
      refine accounted_refused accounted ?_ split
      intro owner some
      have lost := continuing owner _ isNext some
      rwa [appended,if_neg (by simp)] at lost
    | some after =>
      refine accounted_append accounted lease appended ?_ split
      intro some
      have continues := continuing (appendForWorker_some appended).1 _ isNext some
      rwa [appended,if_pos (by rfl)] at continues
  have persist : ∀ {w locked cursors after phase}, persistCursor world w locked cursors = some after →
      pending (world.worker w).phase = [] → pending phase = [] → Accounted (after.put w phase) := by
    intro w locked cursors after phase persisted before nothing
    obtain ⟨_,rfl⟩ := persistCursor_some persisted
    have kept : Accounted { world with cursors } :=
      ⟨accounted.quiet,accounted.waiting,accounted.sessions,accounted.covered,accounted.whole⟩
    exact accounted_advance kept before (by rw [nothing]; exact forall_mem_nil _)
  cases step_moves stepped with
  | arriveBar entry => exact ⟨accounted.quiet,accounted.waiting,accounted.sessions,accounted.covered,accounted.whole⟩
  | arriveCommand entry => exact ⟨accounted.quiet,accounted.waiting,accounted.sessions,accounted.covered,accounted.whole⟩
  | edit runtime fingerprint => exact ⟨accounted.quiet,accounted.waiting,accounted.sessions,accounted.covered,accounted.whole⟩
  | renew w expired isIdle owner => exact accounted_claim accounted (whole_claimed accounted isIdle continuing) rfl rfl
  | claim w expired isIdle claimed isClaimed =>
    subst isClaimed
    exact accounted_claim accounted (whole_claimed accounted isIdle continuing) rfl rfl
  | readCommands w fails lease leased entries isRead =>
    have read : Accounted { world with derived := world.derived ++ commandDerivations entries } :=
      ⟨accounted.quiet,accounted.waiting,accounted.sessions,accounted.covered,accounted.whole⟩
    refine accounted_advance read (by rw [leased]; rfl) ?_
    unfold afterCommands
    split
    · exact forall_mem_nil _
    · exact forall_mem_nil _
    · exact commandEvent_quiet
  | acknowledge w refused lease events cursor acknowledging =>
    apply append lease continuing
    · rw [acknowledging]
      rfl
    · rw [acknowledging]
      split <;> exact (append_nil _).symm
  | append w refused lease batch batches cursor appending =>
    apply append lease continuing
    · rw [appending]
      rfl
    · rw [appending,pending_afterBatch]
      rfl
  | release w locked releasing owner =>
    have nothing : pending (world.worker w).phase = [] := by rw [releasing]; rfl
    have lost := accounted_left accounted nothing
    have whole : Whole world.stored := by
      apply accounted.loses
      intro v isOwner
      rw [owner] at isOwner
      cases isOwner
      exact atOrder_nothing nothing
    exact ⟨lost.quiet,lost.waiting,lost.sessions,lost.covered,.inl whole⟩
  | leave w locked releasing => exact accounted_left accounted (by rw [releasing]; rfl)
  | persistCommands w locked lease cursor moving moved persisted => exact persist persisted (by rw [moving]; rfl) rfl
  | keepCommands w locked lease cursor moving =>
    exact accounted_advance accounted (by rw [moving]; rfl) (forall_mem_nil _)
  | persistBars w locked lease cursor moving moved persisted => exact persist persisted (by rw [moving]; rfl) rfl
  | keepBars w locked lease cursor moving =>
    exact accounted_advance accounted (by rw [moving]; rfl) (forall_mem_nil _)
  | consume w engine reads lease reading => exact accounted_consume accounted reading engine reads
  | evict w key =>
    refine accounted_lose accounted (.inl rfl) ?_
    intro other session found
    exact session_of_evicted found
  | restart w =>
    refine accounted_lose accounted (.inr ⟨rfl,continuing⟩) ?_
    intro key session found
    cases found

theorem accounted_initial (runtime : NautilusRuntimeRecord Amount) (fingerprint : Nat) :
    Accounted (initial workers runtime fingerprint : World workers Amount) :=
  ⟨forall_mem_nil _,fun _ => forall_mem_nil _,fun _ _ _ found => (nomatch found),rfl,.inl ⟨_,.nil _⟩⟩

/-- In a continuing run the snapshots agree with the fills whenever there is nothing to append. -/
theorem continuous_accounts (subtracts : ∀ a b : Amount, b ≤ a → 0 ≤ a - b) (settings : Settings)
    (runtime : NautilusRuntimeRecord Amount) (fingerprint : Nat) (labels : List (Label workers Amount))
    (continuing : Meets (step settings) Continuing (initial workers runtime fingerprint) labels) (world : World workers Amount)
    (ran : run (step settings) (initial workers runtime fingerprint) labels = some world)
    (nothing : ∀ w, pending (world.worker w).phase = []) : Continuous world.stored := by
  have accounted := run_keeps (fun _ _ _ accounted continuing stepped => accounted_step accounted continuing stepped)
    (accounted_initial runtime fingerprint) continuing ran
  obtain ⟨last,chained⟩ := accounted.loses fun w _ => atOrder_nothing (nothing w)
  exact continuous subtracts accounted.quiet chained accounted.covered
end

local instance oneWorker : @NeZero Nat Zero.ofOfNat0 1 := @NeZero.mk Nat Zero.ofOfNat0 1 (Nat.succ_ne_zero 0)

/-- A bar for the warm-up, and two on which the strategy trades, before which the worker may
    restart. -/
def threeCalls (second : List (Order ℤ)) (restarts : List (Label 1 ℤ)) : List (Label 1 ℤ) :=
  twoCalls false ++ [.persist 0 false] ++ restarts ++ oneCall 3 second false ++ [.persist 0 false]
theorem continuous_accounts_sample : ∃ world,
    run (step sampleSettings) (initial 1 sampleRuntime 0) (threeCalls [⟨some .buy,some 2⟩,⟨some .sell,some 1⟩] []) = some world ∧
      signedSum world.stored = 2 ∧ Continuous world.stored := by
  refine ⟨_,rfl,rfl,?_⟩
  exact continuous_accounts (fun a b smaller => by omega) sampleSettings sampleRuntime 0
    (threeCalls [⟨some .buy,some 2⟩,⟨some .sell,some 1⟩] []) (by decide) _ rfl (by decide)

/-- The strategy buys, the worker restarts, and the strategy buys again. -/
theorem account_restarts : ¬ ∀ (workers : Nat) (settings : Settings) (runtime : NautilusRuntimeRecord ℤ) (fingerprint : Nat)
    (labels : List (Label workers ℤ)) (world : World workers ℤ),
    run (step settings) (initial workers runtime fingerprint) labels = some world →
      (∀ w, (world.worker w).phase = .idle) → Continuous world.stored := by
  intro holds
  have continuous := holds 1 sampleSettings sampleRuntime 0 (threeCalls [⟨some .buy,some 1⟩] [.restart 0]) _ rfl (by decide)
  exact absurd (continuous.position ⟨99990,1,10,0,10⟩ (by decide)) (by decide)

end Codebot.PaperAccounts
