import Codebot.PaperSessions

/-!
The events that a session makes of orders, and what a batch returns of them: all of
them in their order, but for those whose key it emitted before (`runBarBatch_makes`).
They lead from the account before to the account after, order by order (`Chained`).
-/
namespace Codebot.PaperEvents
open Raising Memories PaperSessions List
open NautilusRuntimes (EventType)

variable {Amount : Type}
def ofOrder (event : NautilusRuntimeEventInput Amount) : Bool :=
  match event.key with
  | .order .. => true
  | _ => false

variable [LinearOrder Amount] [Zero Amount] [Add Amount] [Sub Amount] [Mul Amount] [Div Amount]
/-- Events of orders, one order after the other, from an account to another. -/
inductive Chained : NautilusSandboxAccount Amount → List (NautilusRuntimeEventInput Amount) → NautilusSandboxAccount Amount → Prop
  | nil (account : NautilusSandboxAccount Amount) : Chained account [] account
  | order {account last : NautilusSandboxAccount Amount} {events : List (NautilusRuntimeEventInput Amount)}
      (bar : NativeMarketMessage Amount) (side : Side) (quantity : Amount)
      (rest : Chained (account.applyFill side quantity bar.close) events last) :
      Chained account (orderEvents bar side quantity (account.applyFill side quantity bar.close) ++ events) last

variable {events : List (NautilusRuntimeEventInput Amount)} {first : NautilusSandboxAccount Amount}
theorem Chained.append {mid last : NautilusSandboxAccount Amount} {more : List (NautilusRuntimeEventInput Amount)}
    (before : Chained first events mid) (after : Chained mid more last) : Chained first (events ++ more) last := by
  induction before with
  | nil account => exact after
  | order bar side quantity rest ih =>
    rw [append_assoc]
    exact .order bar side quantity (ih after)
theorem Chained.account {last : NautilusSandboxAccount Amount}
    (chained : Chained first events last) : last = foldFills first events := by
  induction chained with
  | nil account => rfl
  | order bar side quantity rest ih =>
    rw [foldFills_append]
    exact ih

theorem Chained.ofOrder {last : NautilusSandboxAccount Amount}
    (chained : Chained first events last) : ∀ event ∈ events, PaperEvents.ofOrder event := by
  induction chained with
  | nil account => exact forall_mem_nil _
  | order bar side quantity rest ih =>
    intro event member
    rcases mem_append.mp member with first | later
    · simp only [orderEvents,mem_cons,not_mem_nil,or_false] at first
      rcases first with rfl | rfl | rfl | rfl | rfl | rfl <;> rfl
    · exact ih event later

def Quiet (event : NautilusRuntimeEventInput Amount) : Prop := ofOrder event = false → event.payload = .other

/-- A part of a batch that made these events, where the results are to be returned. -/
structure Makes (session last : NautilusRuntimeSession Amount) (results : Option (List (NautilusRuntimeEventInput Amount)))
    (new : List (NativeMarketMessage Amount × NautilusRuntimeEventInput Amount)) : Prop where
  made : last.made = session.made ++ new
  chained : Chained session.account (new.map (·.2)) last.account
  emitted : last.emitted = session.emitted
  returned : ∀ events, results = some events → events.filter ofOrder = new.map (·.2)
  quiet : ∀ events, results = some events → ∀ event ∈ events, Quiet event

variable {last session : NautilusRuntimeSession Amount}
theorem Makes.raised (made : last.made = session.made)
    (account : last.account = session.account) (emitted : last.emitted = session.emitted) : Makes session last none [] := by
  refine ⟨?_,?_,emitted,fun events same => (nomatch same),fun events same => nomatch same⟩
  · rw [append_nil,made]
  · rw [account]
    exact .nil _

theorem Makes.other
    (made : last.made = session.made) (account : last.account = session.account) (emitted : last.emitted = session.emitted)
    (other : ∀ event ∈ events, ofOrder event = false ∧ event.payload = .other) : Makes session last (some events) [] := by
  refine ⟨?_,?_,emitted,?_,?_⟩
  · rw [append_nil,made]
  · rw [account]
    exact .nil _
  · intro all same
    cases same
    exact filter_eq_nil_iff.mpr fun event member => by rw [(other event member).1]; exact Bool.false_ne_true
  · intro all same event member _
    cases same
    exact (other event member).2

theorem Makes.none (session : NautilusRuntimeSession Amount) : Makes session session (some []) [] :=
  .other rfl rfl rfl (forall_mem_nil _)

variable {results : Option (List (NautilusRuntimeEventInput Amount))}
variable {mid : NautilusRuntimeSession Amount}
  {new : List (NativeMarketMessage Amount × NautilusRuntimeEventInput Amount)}

theorem Makes.append {first : List (NautilusRuntimeEventInput Amount)}
    {more : List (NativeMarketMessage Amount × NautilusRuntimeEventInput Amount)}
    (before : Makes session mid (some first) new) (after : Makes mid last results more) :
    Makes session last (results.map (first ++ ·)) (new ++ more) := by
  refine ⟨?_,?_,after.emitted.trans before.emitted,?_,?_⟩
  · rw [after.made,before.made,append_assoc]
  · rw [map_append]
    exact before.chained.append after.chained
  · intro events same
    obtain ⟨second,isSecond,rfl⟩ := Option.map_eq_some_iff.mp same
    rw [filter_append,before.returned first rfl,after.returned second isSecond,map_append]
  · intro events same event member
    obtain ⟨second,isSecond,rfl⟩ := Option.map_eq_some_iff.mp same
    rcases mem_append.mp member with old | late
    · exact before.quiet first rfl event old
    · exact after.quiet second isSecond event late

theorem Makes.since (makes : Makes mid last results new)
    (made : mid.made = session.made) (account : mid.account = session.account) (emitted : mid.emitted = session.emitted) :
    Makes session last results new := by
  refine ⟨?_,?_,makes.emitted.trans emitted,makes.returned,makes.quiet⟩
  · rw [← made]
    exact makes.made
  · rw [← account]
    exact makes.chained

/-- A loop makes what its steps make. -/
theorem forEach_makes {Item : Type} {body : NautilusRuntimeSession Amount → Item →
      NautilusRuntimeSession Amount × Option (List (NautilusRuntimeEventInput Amount))}
    (each : ∀ session item, ∃ new, Makes session (body session item).1 (body session item).2 new)
    (session : NautilusRuntimeSession Amount) (items : List Item) :
    ∃ new, Makes session (forEach body session items).1 (forEach body session items).2 new := by
  induction items generalizing session with
  | nil => exact ⟨[],Makes.none session⟩
  | cons item rest ih =>
    obtain ⟨new,makes⟩ := each session item
    rcases ran : body session item with ⟨mid,_ | first⟩
    · rw [forEach_cons_raised ran]
      rw [ran] at makes
      exact ⟨new,makes⟩
    · rw [forEach_cons_returned ran]
      rw [ran] at makes
      obtain ⟨more,later⟩ := ih mid
      exact ⟨new ++ more,makes.append later⟩

theorem emit_makes (bar : NativeMarketMessage Amount) (session : NautilusRuntimeSession Amount) (order : Order Amount) :
    ∃ new, Makes session (emitSandboxOrderEvents bar session order).1 (emitSandboxOrderEvents bar session order).2 new := by
  unfold emitSandboxOrderEvents
  split
  · rename_i side quantity _ _
    have chained : Chained session.account (orderEvents bar side quantity (session.account.applyFill side quantity bar.close))
        (session.account.applyFill side quantity bar.close) := by
      have whole := Chained.order bar side quantity (Chained.nil (session.account.applyFill side quantity bar.close))
      rwa [append_nil] at whole
    have asMade : ((orderEvents bar side quantity (session.account.applyFill side quantity bar.close)).map (bar,·)).map (·.2) =
        orderEvents bar side quantity (session.account.applyFill side quantity bar.close) := by
      rw [map_map]
      exact map_id _
    refine ⟨_,rfl,by rw [asMade]; exact chained,rfl,?_,?_⟩
    · intro events same
      cases same
      rfl
    · intro events same event member other
      cases same
      rw [chained.ofOrder event member] at other
      cases other
  · exact ⟨[],.raised rfl rfl rfl⟩

theorem feedBar_makes (engine : Engine Amount) (session : NautilusRuntimeSession Amount) (bar : NativeMarketMessage Amount) :
    ∃ new, Makes session (feedBar engine session bar).1 (feedBar engine session bar).2 new := by
  obtain ⟨made,account,emitted⟩ := feedGeneratedStrategyBar_frame session bar (engine.feed bar)
  unfold feedBar
  rcases ran : feedGeneratedStrategyBar session bar (engine.feed bar) with ⟨fed,_ | orders⟩
  · rw [ran] at made account emitted
    exact ⟨[],.raised made account emitted⟩
  · rw [ran] at made account emitted
    obtain ⟨new,makes⟩ := forEach_makes (emit_makes bar) fed orders
    exact ⟨new,makes.since made account emitted⟩

theorem finishWarmup_makes (generation required source : Nat) (session : NautilusRuntimeSession Amount) :
    Makes session (finishWarmup generation required source session).1
      (some (finishWarmup generation required source session).2) [] := by
  unfold finishWarmup
  split
  · refine .other rfl rfl rfl ?_
    intro event member
    rw [mem_singleton.mp member]
    exact ⟨rfl,rfl⟩
  · exact Makes.none session

theorem feedWarmupBar_makes (engine : Engine Amount) (session : NautilusRuntimeSession Amount) (bar : NativeMarketMessage Amount) :
    Makes session (feedWarmupBar engine session bar).1 (feedWarmupBar engine session bar).2 [] := by
  have frame := feedWarmupBar_frame engine session bar
  have nothing : (feedWarmupBar engine session bar).2 = none ∨ (feedWarmupBar engine session bar).2 = some [] := by
    unfold feedWarmupBar
    dsimp only
    split
    · exact .inl rfl
    · exact .inr rfl
  rcases nothing with raised | returned
  · rw [raised]
    exact .raised (by rw [frame]) (by rw [frame]) (by rw [frame])
  · rw [returned]
    exact .other (by rw [frame]) (by rw [frame]) (by rw [frame]) (forall_mem_nil _)

theorem processBar_makes (generation required : Nat) (engine : Engine Amount) (session : NautilusRuntimeSession Amount)
    (bar : NativeMarketMessage Amount) :
    ∃ new, Makes session (processBar generation required engine session bar).1
      (processBar generation required engine session bar).2 new := by
  unfold processBar
  by_cases warm : session.warmupStatus = .complete
  · rw [if_pos warm]
    exact feedBar_makes engine session bar
  · rw [if_neg warm]
    have makes := feedWarmupBar_makes engine session bar
    rcases ran : feedWarmupBar engine session bar with ⟨fed,_ | events⟩
    · rw [ran] at makes
      exact ⟨[],makes⟩
    · have frame := feedWarmupBar_frame engine session bar
      rw [ran] at frame
      dsimp only at frame
      exact ⟨[],(finishWarmup_makes generation required bar.sourceEventId fed).since (by rw [frame]) (by rw [frame]) (by rw [frame])⟩

theorem startWarmup_makes (runtime : NautilusRuntimeRecord Amount) (required : Nat) (engine : Engine Amount) (source : Nat)
    (session : NautilusRuntimeSession Amount) :
    Makes session (startWarmup runtime required engine source session).1
      (startWarmup runtime required engine source session).2 [] := by
  unfold startWarmup
  by_cases pending : session.warmupStatus = .pending
  · rw [if_pos pending]
    let inv (state : NautilusRuntimeSession Amount) : Prop :=
      state.made = session.made ∧ state.account = session.account ∧ state.emitted = session.emitted
    have kept : inv (forEach (feedWarmupBar engine) { session with warmupStatus := .warmingUp } runtime.manifestWarmupMessages).1 := by
      refine forEach_keeps ?_ ⟨rfl,rfl,rfl⟩
      intro state bar _ holds
      rw [feedWarmupBar_frame]
      exact holds
    rcases ran : forEach (feedWarmupBar engine) { session with warmupStatus := .warmingUp } runtime.manifestWarmupMessages with
      ⟨fed,_ | events⟩
    · rw [ran] at kept
      obtain ⟨made,account,emitted⟩ := kept
      exact .raised made account emitted
    · rw [ran] at kept
      obtain ⟨made,account,emitted⟩ := kept
      have started : Makes session fed (some [warmupEvent runtime.generation .warmupStarted source]) [] := by
        refine .other made account emitted ?_
        intro event member
        rw [mem_singleton.mp member]
        exact ⟨rfl,rfl⟩
      exact started.append (finishWarmup_makes runtime.generation required source fed)
  · rw [if_neg pending]
    exact Makes.none session

/-- What a batch makes of orders, and what it returns: its one error, or all events but those
    that were emitted before. -/
structure Batch (session last : NautilusRuntimeSession Amount) (results : Option (List (NautilusRuntimeEventInput Amount)))
    (new : List (NativeMarketMessage Amount × NautilusRuntimeEventInput Amount)) : Prop where
  made : last.made = session.made ++ new
  chained : Chained session.account (new.map (·.2)) last.account
  kept : results = none → last.emitted = session.emitted
  returned : ∀ events, results = some events → ∃ all, all.filter ofOrder = new.map (·.2) ∧ (∀ event ∈ all, Quiet event) ∧
    takeUp maxSessionIdempotencyKeys (·.key) session.emitted all = (last.emitted,events)

theorem Batch.nothing (session : NautilusRuntimeSession Amount)
    (nothing : ∀ events ∈ results, events = []) : Batch session session results [] := by
  refine ⟨(append_nil _).symm,.nil _,fun _ => rfl,?_⟩
  intro events same
  rw [nothing events same]
  exact ⟨[],rfl,forall_mem_nil _,rfl⟩

theorem runBarBatch_makes (runtime : NautilusRuntimeRecord Amount) (engine : Engine Amount)
    (session : NautilusRuntimeSession Amount) (messages : List (NativeMarketMessage Amount)) :
    ∃ new, Batch session (session.runBarBatch runtime engine messages).1 (session.runBarBatch runtime engine messages).2 new := by
  have raised : ∃ new, Batch session session none new := ⟨[],.nothing session fun events same => nomatch same⟩
  have empty : ∃ new, Batch session session (some []) new :=
    ⟨[],.nothing session fun events same => (Option.some.inj same).symm⟩
  unfold NautilusRuntimeSession.runBarBatch
  cases messages with
  | nil => exact empty
  | cons first rest =>
    by_cases refuses : engine.refuses
    · simp only [refuses,if_true]
      exact raised
    simp only [refuses]
    cases isRequired : runtime.requiredWarmupBars with
    | none => exact raised
    | some required =>
      by_cases noBars : ((first :: rest).filter (·.closed)).isEmpty
      · simp only [noBars,if_true]
        exact empty
      simp only [noBars]
      have begins := startWarmup_makes runtime required engine first.sourceEventId session
      rcases started : startWarmup runtime required engine first.sourceEventId session with ⟨begun,_ | events⟩
      · rw [started] at begins
        exact ⟨[],begins.made,begins.chained,fun _ => begins.emitted,fun events same => nomatch same⟩
      · rw [started] at begins
        let taken := takeUp maxSessionSourceEventIds (·.sourceEventId) begun.processed ((first :: rest).filter (·.closed))
        obtain ⟨new,makes⟩ := forEach_makes (processBar_makes runtime.generation required engine)
          { begun with processed := taken.1 } taken.2
        have whole : Makes session _ _ ([] ++ new) := begins.append (makes.since rfl rfl rfl)
        simp only [Bool.false_eq_true,if_false,feedNewBars]
        rcases ran : forEach (processBar runtime.generation required engine) { begun with processed := taken.1 } taken.2 with
          ⟨last,_ | more⟩
        · rw [ran] at whole
          dsimp only
          exact ⟨_,whole.made,whole.chained,fun _ => whole.emitted,fun events same => nomatch same⟩
        · rw [ran] at whole
          dsimp only
          refine ⟨_,whole.made,whole.chained,fun raised => (nomatch raised),?_⟩
          intro returned same
          cases same
          exact ⟨events ++ more,whole.returned _ rfl,whole.quiet _ rfl,
            by rw [← show last.emitted = session.emitted from whole.emitted]⟩

/-- The same of a call to the runner, which returns one error where the batch raises. -/
structure Call (session last : NautilusRuntimeSession Amount) (events : List (NautilusRuntimeEventInput Amount))
    (new : List (NativeMarketMessage Amount × NautilusRuntimeEventInput Amount)) : Prop where
  made : last.made = session.made ++ new
  chained : Chained session.account (new.map (·.2)) last.account
  quiet : ∀ event ∈ events, Quiet event
  outcome : (last.emitted = session.emitted ∧ ∃ source, events = [⟨.runtimeError,.other,.runtimeError source⟩]) ∨
    ∃ all, all.filter ofOrder = new.map (·.2) ∧
      takeUp maxSessionIdempotencyKeys (·.key) session.emitted all = (last.emitted,events)

theorem Call.nothing (session : NautilusRuntimeSession Amount) : Call session session [] [] :=
  ⟨(append_nil _).symm,.nil _,forall_mem_nil _,.inr ⟨[],rfl,rfl⟩⟩

theorem nativeRunBarBatch_makes (runtime : NautilusRuntimeRecord Amount) (engine : Engine Amount)
    (session : NautilusRuntimeSession Amount) (messages : List (NativeMarketMessage Amount)) :
    ∃ new, Call session (nativeRunBarBatch runtime engine session messages).1
      (nativeRunBarBatch runtime engine session messages).2 new := by
  unfold nativeRunBarBatch
  cases messages.getLast? with
  | none => exact ⟨[],.nothing session⟩
  | some last =>
    obtain ⟨new,batch⟩ := runBarBatch_makes runtime engine session messages
    rcases happened : session.runBarBatch runtime engine messages with ⟨after,_ | events⟩
    · rw [happened] at batch
      refine ⟨new,batch.made,batch.chained,?_,.inl ⟨batch.kept rfl,_,rfl⟩⟩
      intro event member _
      rw [mem_singleton.mp member]
    · rw [happened] at batch
      obtain ⟨all,ordered,quiet,taken⟩ := batch.returned events rfl
      refine ⟨new,batch.made,batch.chained,?_,.inr ⟨all,ordered,taken⟩⟩
      intro event member
      have sub : (takeUp maxSessionIdempotencyKeys (·.key) session.emitted all).2.Sublist all := takeUp_sublist all
      rw [taken] at sub
      exact quiet event (sub.subset member)

end Codebot.PaperEvents
