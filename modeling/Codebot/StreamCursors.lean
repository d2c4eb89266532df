import Codebot.PaperEvents
import Codebot.PaperWorkers
import Mathlib.Algebra.Order.Ring.Int

/-!
The cursors of a runtime and its table of events. A worker moves a cursor whether or not the events of the entries
that it read were appended (`cursors_behind_events`).
-/
namespace Codebot.StreamCursors
open Runs Memories PaperSessions PaperEvents MarketStreams PaperWorkers List
open NautilusRuntimes (EventType)

variable {workers : Nat} {Amount : Type}
def Cursors.of (cursors : Cursors) : Stream → Nat
  | .bars => cursors.bars
  | .commands => cursors.commands
def pending : Phase Amount → List (NautilusRuntimeEventInput Amount)
  | .acknowledging _ events _ => events
  | .appending _ batches _ => batches.flatten
  | _ => []
def nextBatch : Phase Amount → Option (List (NautilusRuntimeEventInput Amount))
  | .acknowledging _ events _ => some events
  | .appending _ (batch :: _) _ => some batch
  | _ => none
def readingLease : Phase Amount → Option (Lease Amount)
  | .reading lease => some lease
  | _ => none
def keys (events : List (NautilusRuntimeEventInput Amount)) : List (EventKey Amount) := events.map (·.key)

section
variable [LinearOrder Amount] [Zero Amount] [Add Amount] [Sub Amount] [Mul Amount] [Div Amount] [NatCast Amount]

/-- A cursor that the step moves passes an entry only if all events that were derived from it
    are stored. -/
def NotOvertaken (settings : Settings) (world : World workers Amount) (label : Label workers Amount) : Prop :=
  ∀ next, step settings world label = some next → ∀ derivation ∈ next.derived,
    Cursors.of world.cursors derivation.stream < derivation.id → derivation.id ≤ Cursors.of next.cursors derivation.stream →
      derivation.key ∈ keys next.stored

/-- An append stores its events, a batch that fails has made none, and no lease or memory is lost within a call. -/
def Undisturbed (settings : Settings) (world : World workers Amount) : Label workers Amount → Prop
  | .claim w _ => ∀ v, world.owner = some v → v ≠ w → (world.worker v).phase = .idle
  | .append w refused => ∀ events ∈ nextBatch (world.worker w).phase, (appendForWorker world w refused events).isSome
  | .consume w engine reads => ∀ lease ∈ readingLease (world.worker w).phase,
      let session := world.sessionFor w lease
      let consumed := consumeMarketData settings.eventBatchSize lease.runtime engine reads world.bars lease.cursors.bars session
      consumed.2.1.any (·.type = .runtimeError) → consumed.1.made = session.made
  | .restart w => pending (world.worker w).phase = []
  | _ => True

instance (settings : Settings) (world : World workers Amount) : ∀ label, Decidable (Undisturbed settings world label)
  | .claim w _ => inferInstanceAs (Decidable (∀ v, world.owner = some v → v ≠ w → (world.worker v).phase = .idle))
  | .append w refused => inferInstanceAs (Decidable (∀ events ∈ nextBatch (world.worker w).phase,
      (appendForWorker world w refused events).isSome))
  | .consume w engine reads => inferInstanceAs (Decidable (∀ lease ∈ readingLease (world.worker w).phase,
      let session := world.sessionFor w lease
      let consumed := consumeMarketData settings.eventBatchSize lease.runtime engine reads world.bars lease.cursors.bars session
      consumed.2.1.any (·.type = .runtimeError) → consumed.1.made = session.made))
  | .restart w => inferInstanceAs (Decidable (pending (world.worker w).phase = []))
  | .arriveBar _ | .arriveCommand _ | .edit _ _ | .readCommands _ _ | .release _ _ | .persist _ _ | .evict _ _ => .isTrue trivial
end

/-- The lease that a worker holds has the stored cursors, and the cursor that it is to persist
    is no earlier one. -/
def Fits (cursors : Cursors) : Phase Amount → Prop
  | .idle => True
  | .leased lease => lease.cursors = cursors
  | .acknowledging lease _ cursor => lease.cursors = cursors ∧ cursors.commands ≤ cursor
  | .releasing => True
  | .movingCommands lease cursor => lease.cursors = cursors ∧ cursors.commands ≤ cursor
  | .reading lease => lease.cursors = cursors
  | .appending lease _ cursor => lease.cursors = cursors ∧ ∀ later ∈ cursor, cursors.bars ≤ later
  | .movingBars lease cursor => lease.cursors = cursors ∧ cursors.bars ≤ cursor

structure Sound (world : World workers Amount) : Prop where
  holds : ∀ w, (world.worker w).phase ≠ .idle → world.owner = some w
  fits : ∀ w, Fits world.cursors (world.worker w).phase
  derived : ∀ derivation ∈ world.derived, Cursors.of world.cursors derivation.stream < derivation.id →
    derivation.key ∈ keys world.stored ∨ ∃ w, derivation.key ∈ keys (pending (world.worker w).phase)
  emitted : ∀ w key session, (world.worker w).session key = some session → ∀ emitted ∈ session.emitted,
    emitted ∈ keys world.stored ∨ emitted ∈ keys (pending (world.worker w).phase)

variable {w : Fin workers}
variable {world : World workers Amount}
theorem Sound.others (sound : Sound world) {v : Fin workers}
    (busy : (world.worker w).phase ≠ .idle) (other : v ≠ w) : (world.worker v).phase = .idle := by
  by_contra alsoBusy
  exact other (Option.some.inj ((sound.holds v alsoBusy).symm.trans (sound.holds w busy)))

variable {derivation : Derivation Amount}

theorem Sound.waiting (sound : Sound world)
    (busy : (world.worker w).phase ≠ .idle) (member : derivation ∈ world.derived)
    (ahead : Cursors.of world.cursors derivation.stream < derivation.id) :
    derivation.key ∈ keys world.stored ∨ derivation.key ∈ keys (pending (world.worker w).phase) := by
  rcases sound.derived derivation member ahead with isStored | ⟨v,waits⟩
  · exact .inl isStored
  · by_cases same : v = w
    · subst same
      exact .inr waits
    · rw [sound.others busy same] at waits
      cases waits

theorem Sound.derived_stored (sound : Sound world)
    (busy : (world.worker w).phase ≠ .idle) (nothing : pending (world.worker w).phase = [])
    (member : derivation ∈ world.derived) (ahead : Cursors.of world.cursors derivation.stream < derivation.id) :
    derivation.key ∈ keys world.stored := by
  have waits := sound.waiting busy member ahead
  rw [nothing] at waits
  exact waits.resolve_right not_mem_nil
theorem Sound.emitted_stored (sound : Sound world)
    (nothing : pending (world.worker w).phase = []) {key : SessionKey} {session : NautilusRuntimeSession Amount}
    (found : (world.worker w).session key = some session) {emitted : EventKey Amount} (isEmitted : emitted ∈ session.emitted) :
    emitted ∈ keys world.stored := by
  have waits := sound.emitted w key session found emitted isEmitted
  rw [nothing] at waits
  exact waits.resolve_right not_mem_nil

variable {next : World workers Amount}

theorem sound_put (sound : Sound world)
    (busy : (world.worker w).phase ≠ .idle) (owner : (next.worker w).phase ≠ .idle → next.owner = some w)
    (others : ∀ v, v ≠ w → next.worker v = world.worker v) (fits : Fits next.cursors (next.worker w).phase)
    (derived : ∀ derivation ∈ next.derived, Cursors.of next.cursors derivation.stream < derivation.id →
      derivation.key ∈ keys next.stored ∨ derivation.key ∈ keys (pending (next.worker w).phase))
    (grows : ∀ key ∈ keys world.stored, key ∈ keys next.stored)
    (emitted : ∀ key session, (next.worker w).session key = some session → ∀ emitted ∈ session.emitted,
      emitted ∈ keys next.stored ∨ emitted ∈ keys (pending (next.worker w).phase)) : Sound next := by
  refine ⟨?_,?_,?_,?_⟩
  · intro v alsoBusy
    by_cases same : v = w
    · subst same
      exact owner alsoBusy
    · rw [others v same,sound.others busy same] at alsoBusy
      exact absurd rfl alsoBusy
  · intro v
    by_cases same : v = w
    · subst same
      exact fits
    · rw [others v same,sound.others busy same]
      trivial
  · intro derivation member ahead
    rcases derived derivation member ahead with isStored | waits
    · exact .inl isStored
    · exact .inr ⟨w,waits⟩
  · intro v key session found k isEmitted
    by_cases same : v = w
    · subst same
      exact emitted key session found k isEmitted
    · rw [others v same] at found
      rcases sound.emitted v key session found k isEmitted with isStored | waits
      · exact .inl (grows k isStored)
      · rw [sound.others busy same] at waits
        cases waits

section
variable [DecidableEq Amount]

theorem newEvents_stored (stored events : List (NautilusRuntimeEventInput Amount)) :
    ∀ key ∈ keys events, key ∈ keys (stored ++ newEvents stored events) := by
  intro key member
  obtain ⟨event,isEvent,rfl⟩ := mem_map.mp member
  rw [keys,map_append]
  by_cases known : event.key ∈ stored.map (·.key)
  · exact mem_append_left _ known
  · exact mem_append_right _ (mem_map_of_mem (mem_filter.mpr ⟨isEvent,by simpa using known⟩))

theorem appendForWorker_some {world next : World workers Amount} {w : Fin workers} {refused : Bool}
    {events : List (NautilusRuntimeEventInput Amount)} (appended : appendForWorker world w refused events = some next) :
    world.owner = some w ∧ next = { world with stored := world.stored ++ newEvents world.stored events } := by
  simp only [appendForWorker] at appended
  split at appended
  · rename_i held
    cases appended
    exact ⟨held.1,rfl⟩
  · cases appended

theorem appended_cursors (world : World workers Amount) (w : Fin workers) (refused : Bool)
    (events : List (NautilusRuntimeEventInput Amount)) :
    ((appendForWorker world w refused events).getD world).cursors = world.cursors := by
  cases appended : appendForWorker world w refused events with
  | none => rfl
  | some after =>
    obtain ⟨_,rfl⟩ := appendForWorker_some appended
    rfl

end

variable {cursors : Cursors}
variable {locked : Bool}

theorem persistCursor_some
    (moved : persistCursor world w locked cursors = some next) : world.owner = some w ∧ next = { world with cursors } := by
  simp only [persistCursor] at moved
  split at moved
  · rename_i held
    cases moved
    exact ⟨held.1,rfl⟩
  · cases moved
theorem eventBatches_flatten {size count : Nat} (positive : 0 < size) {events : List (NautilusRuntimeEventInput Amount)}
    (enough : events.length ≤ count) : (eventBatches size count events).flatten = events := by
  induction count generalizing events with
  | zero => rw [length_eq_zero_iff.mp (Nat.le_zero.mp enough)]; rfl
  | succ count ih =>
    cases events with
    | nil => rfl
    | cons event rest =>
      have shorter : ((event :: rest).drop size).length ≤ count := by
        rw [length_drop]
        simp only [length_cons] at enough ⊢
        omega
      rw [eventBatches,flatten_cons,ih shorter,take_append_drop]

theorem pending_afterBatch (lease : Lease Amount) (cursor : Option Nat)
    (batches : List (List (NautilusRuntimeEventInput Amount))) : pending (afterBatch lease cursor batches) = batches.flatten := by
  cases batches with
  | nil => cases cursor <;> rfl
  | cons batch rest => rfl

variable {lease : Lease Amount}

theorem fits_afterBatch {cursor : Option Nat} (same : lease.cursors = cursors)
    (forward : ∀ later ∈ cursor, cursors.bars ≤ later) (batches : List (List (NautilusRuntimeEventInput Amount))) :
    Fits cursors (afterBatch lease cursor batches) := by
  cases batches with
  | nil =>
    cases cursor with
    | none => trivial
    | some later => exact ⟨same,forward later rfl⟩
  | cons batch rest => exact ⟨same,forward⟩

variable {phase : Phase Amount}

theorem sound_advance (sound : Sound world)
    (busy : (world.worker w).phase ≠ .idle) (owner : world.owner = some w) (nothing : pending (world.worker w).phase = []) (fits : Fits world.cursors phase) : Sound (world.put w phase) := by
  refine sound_put sound busy (fun _ => owner) (fun v other => put_other other phase) ?_ ?_ (fun _ => id) ?_
  · rw [put_worker]
    exact fits
  · intro derivation member ahead
    exact .inl (sound.derived_stored busy nothing member ahead)
  · intro key session found k isEmitted
    rw [put_worker] at found
    exact .inl (sound.emitted_stored nothing found isEmitted)

theorem sound_append [DecidableEq Amount] (sound : Sound world)
    {refused : Bool} {batch : List (NautilusRuntimeEventInput Amount)}
    (busy : (world.worker w).phase ≠ .idle) (appended : appendForWorker world w refused batch = some next)
    (split : pending (world.worker w).phase = batch ++ pending phase) (fits : Fits world.cursors phase) :
    Sound (next.put w phase) := by
  obtain ⟨owner,rfl⟩ := appendForWorker_some appended
  have moved : ∀ key, key ∈ keys world.stored ∨ key ∈ keys (pending (world.worker w).phase) →
      key ∈ keys (world.stored ++ newEvents world.stored batch) ∨ key ∈ keys (pending phase) := by
    rintro key (isStored | waits)
    · exact .inl (by rw [keys,map_append]; exact mem_append_left _ isStored)
    · rw [split,keys,map_append] at waits
      rcases mem_append.mp waits with first | later
      · exact .inl (newEvents_stored world.stored batch key first)
      · exact .inr later
  refine sound_put sound busy (fun _ => owner) (fun v other => put_other other phase) ?_ ?_ ?_ ?_
  · rw [put_worker]
    exact fits
  · intro derivation member ahead
    rw [put_worker]
    exact moved _ (sound.waiting busy member ahead)
  · intro key isStored
    exact mem_map.mpr ((mem_map.mp isStored).imp fun event member => ⟨mem_append_left _ member.1,member.2⟩)
  · intro key session found k isEmitted
    rw [put_worker] at found ⊢
    exact moved k (sound.emitted w key session found k isEmitted)

theorem sound_persist (sound : Sound world) (busy : (world.worker w).phase ≠ .idle) (moved : persistCursor world w locked cursors = some next)
    (nothing : pending (world.worker w).phase = []) (forward : ∀ stream, Cursors.of world.cursors stream ≤ Cursors.of cursors stream) (fits : Fits cursors phase) : Sound (next.put w phase) := by
  obtain ⟨owner,rfl⟩ := persistCursor_some moved
  refine sound_put sound busy (fun _ => owner) (fun v other => put_other other phase) ?_ ?_ (fun _ => id) ?_
  · rw [put_worker]
    exact fits
  · intro derivation member ahead
    exact .inl (sound.derived_stored busy nothing member (Nat.lt_of_le_of_lt (forward derivation.stream) ahead))
  · intro key session found k isEmitted
    rw [put_worker] at found
    exact .inl (sound.emitted_stored nothing found isEmitted)

theorem sound_lose (sound : Sound world) {lost : Worker Amount}
    (phase : lost.phase = (world.worker w).phase ∨ lost.phase = .idle ∧ pending (world.worker w).phase = [])
    (sessions : ∀ key session, lost.session key = some session → (world.worker w).session key = some session) :
    Sound (world.set w lost) := by
  have same : pending lost.phase = pending (world.worker w).phase := by
    rcases phase with same | ⟨idle,nothing⟩
    · rw [same]
    · rw [idle,nothing]
      rfl
  refine ⟨?_,?_,?_,?_⟩
  · intro v busy
    by_cases isLost : v = w
    · subst isLost
      rw [set_worker] at busy
      rcases phase with same | ⟨idle,_⟩
      · exact sound.holds v (same ▸ busy)
      · exact absurd idle busy
    · rw [set_other isLost] at busy
      exact sound.holds v busy
  · intro v
    by_cases isLost : v = w
    · subst isLost
      rw [set_worker]
      rcases phase with same | ⟨idle,_⟩
      · rw [same]
        exact sound.fits v
      · rw [idle]
        trivial
    · rw [set_other isLost]
      exact sound.fits v
  · intro derivation member ahead
    rcases sound.derived derivation member ahead with isStored | ⟨v,waits⟩
    · exact .inl isStored
    · refine .inr ⟨v,?_⟩
      by_cases isLost : v = w
      · subst isLost
        rw [set_worker,same]
        exact waits
      · rw [set_other isLost]
        exact waits
  · intro v key session found k isEmitted
    by_cases isLost : v = w
    · subst isLost
      rw [set_worker] at found ⊢
      rw [same]
      exact sound.emitted v key session (sessions key session found) k isEmitted
    · rw [set_other isLost] at found ⊢
      exact sound.emitted v key session found k isEmitted

theorem pending_afterCommands (lease : Lease Amount) (entries : List CommandEntry) :
    pending (afterCommands lease (entries.filterMap commandEvent) (entries.getLast?.map fun entry => entry.id)) =
      (entries.filterMap commandEvent : List (NautilusRuntimeEventInput Amount)) := by
  cases isLast : entries.getLast? with
  | none =>
    rw [getLast?_eq_none_iff.mp isLast]
    rfl
  | some last =>
    rcases isEvents : (entries.filterMap commandEvent : List (NautilusRuntimeEventInput Amount)) with _ | ⟨event,rest⟩ <;> rfl

theorem commandDerivations_keys {entries : List CommandEntry}
    (member : derivation ∈ (commandDerivations entries : List (Derivation Amount))) :
    derivation.key ∈ keys (entries.filterMap commandEvent : List (NautilusRuntimeEventInput Amount)) := by
  obtain ⟨entry,isEntry,same⟩ := mem_filterMap.mp member
  obtain ⟨event,isEvent,rfl⟩ := Option.map_eq_some_iff.mp same
  exact mem_map_of_mem (mem_filterMap.mpr ⟨entry,isEntry,isEvent⟩)

theorem sound_readCommands (sound : Sound world) (leased : (world.worker w).phase = .leased lease) (fails : Bool) :
    let entries : List CommandEntry := PaperWorkers.readCommands world.commands lease.cursors.commands fails
    let read : World workers Amount := { world with derived := world.derived ++ commandDerivations entries }
    Sound (read.put w
      (afterCommands lease (entries.filterMap commandEvent) (entries.getLast?.map (·.id)))) := by
  intro entries read
  have busy : (world.worker w).phase ≠ .idle := by rw [leased]; exact fun same => nomatch same
  have nothing : pending (world.worker w).phase = [] := by rw [leased]; rfl
  have fits := sound.fits w
  rw [leased] at fits
  refine sound_put sound busy (fun _ => sound.holds w busy) (fun v other => put_other other _) ?_ ?_ (fun _ => id) ?_
  · rw [put_worker]
    dsimp only
    cases isLast : entries.getLast? with
    | none =>
      cases isEvents : (entries.filterMap commandEvent : List (NautilusRuntimeEventInput Amount)) <;> exact fits
    | some last =>
      have later : world.cursors.commands ≤ last.id := by
        have member := mem_of_getLast? isLast
        simp only [entries,PaperWorkers.readCommands] at member
        split at member
        · cases member
        · have above := of_decide_eq_true (mem_filter.mp (mem_of_mem_take member)).2
          rw [show lease.cursors = world.cursors from fits] at above
          exact Nat.le_of_lt above
      cases isEvents : (entries.filterMap commandEvent : List (NautilusRuntimeEventInput Amount)) <;> exact ⟨fits,later⟩
  · intro derivation member ahead
    rw [put_worker,pending_afterCommands]
    rcases mem_append.mp member with old | fresh
    · exact .inl (sound.derived_stored busy nothing old ahead)
    · exact .inr (commandDerivations_keys fresh)
  · intro key session found k isEmitted
    rw [put_worker] at found
    exact .inl (sound.emitted_stored nothing found isEmitted)

theorem sound_claim (sound : Sound world)
    (idle : ∀ v, (world.worker v).phase = .idle) (worker : next.worker = world.worker) (owner : next.owner = some w)
    (cursors : next.cursors = world.cursors) (leased : lease.cursors = world.cursors) (stored : next.stored = world.stored)
    (derived : next.derived = world.derived) : Sound (next.put w (.leased lease)) := by
  have waiting : ∀ key, (∃ v, key ∈ keys (pending (world.worker v).phase)) → False := by
    rintro key ⟨v,waits⟩
    rw [idle v] at waits
    cases waits
  refine ⟨?_,?_,?_,?_⟩
  · intro v busy
    by_cases same : v = w
    · rw [same]
      exact owner
    · rw [put_other same,worker,idle v] at busy
      exact absurd rfl busy
  · intro v
    by_cases same : v = w
    · subst same
      rw [put_worker]
      exact leased.trans cursors.symm
    · rw [put_other same,worker,idle v]
      trivial
  · intro derivation member ahead
    refine .inl ?_
    rw [show (next.put w (.leased lease)).stored = world.stored from stored]
    rw [show (next.put w (.leased lease)).derived = world.derived from derived] at member
    rw [show (next.put w (.leased lease)).cursors = world.cursors from cursors] at ahead
    exact (sound.derived derivation member ahead).resolve_right (waiting _)
  · intro v key session found k isEmitted
    refine .inl ?_
    rw [show (next.put w (.leased lease)).stored = world.stored from stored]
    have before : (world.worker v).session key = some session := by
      by_cases same : v = w
      · subst same
        rw [put_worker,worker] at found
        exact found
      · rw [put_other same,worker] at found
        exact found
    exact sound.emitted_stored (by rw [idle v]; rfl) before isEmitted

theorem sound_initial (runtime : NautilusRuntimeRecord Amount) (fingerprint : Nat) :
    Sound (initial workers runtime fingerprint) := by
  refine ⟨?_,fun _ => trivial,?_,?_⟩
  · intro w busy
    exact absurd rfl busy
  · intro derivation member
    cases member
  · intro w key session found
    cases found

theorem live_later {batchSize cursor : Nat} {reads : Reads} {stream : List (StreamEntry Amount)} {last : StreamEntry Amount}
    (isLast : (liveEntries batchSize reads stream cursor).getLast? = some last) : cursor < last.id := by
  have member := mem_of_getLast? isLast
  unfold liveEntries at member
  split at member
  · cases member
  · exact of_decide_eq_true (mem_filter.mp (mem_of_mem_take member)).2

section
variable [LinearOrder Amount] [Zero Amount] [Add Amount] [Sub Amount] [Mul Amount] [Div Amount]

theorem consume_makes (batchSize : Nat) (runtime : NautilusRuntimeRecord Amount) (engine : Engine Amount) (reads : Reads)
    (stream : List (StreamEntry Amount)) (cursor : Nat) (session : NautilusRuntimeSession Amount) :
    let consumed := consumeMarketData batchSize runtime engine reads stream cursor session
    (∃ new, Call session consumed.1 consumed.2.1 new) ∧ ∀ later ∈ consumed.2.2, cursor < later := by
  intro consumed
  by_cases empty : (marketMessages batchSize runtime reads stream cursor session).isEmpty
  · have same : consumed = (session,[],none) := consumeMarketData_empty empty
    rw [same]
    exact ⟨⟨[],.nothing session⟩,fun later isLater => nomatch isLater⟩
  · have same : consumed = _ := consumeMarketData_messages empty
    rw [same]
    refine ⟨nativeRunBarBatch_makes runtime engine session _,?_⟩
    intro later isLater
    dsimp only at isLater
    split at isLater
    · cases isLater
    · obtain ⟨last,isLast,rfl⟩ := Option.map_eq_some_iff.mp isLater
      exact live_later isLast
end

theorem derivations_keys {new : List (NativeMarketMessage Amount × NautilusRuntimeEventInput Amount)}
    (member : derivation ∈ derivations new) : derivation.key ∈ keys (new.map (·.2)) := by
  obtain ⟨⟨bar,event⟩,isNew,same⟩ := mem_filterMap.mp member
  dsimp only at same
  split at same
  · cases same
    exact mem_map_of_mem (mem_map_of_mem isNew)
  · cases same

theorem Sound.session [Zero Amount] [NatCast Amount] (sound : Sound world)
    (nothing : pending (world.worker w).phase = []) :
    ∀ emitted ∈ (world.sessionFor w lease).emitted, emitted ∈ keys world.stored := by
  intro emitted member
  unfold World.sessionFor at member
  cases found : (world.worker w).session lease.key with
  | none =>
    rw [found] at member
    cases member
  | some session =>
    rw [found] at member
    exact sound.emitted_stored nothing found member

variable [LinearOrder Amount] [Zero Amount] [Add Amount] [Sub Amount] [Mul Amount] [Div Amount] [NatCast Amount]
variable {settings : Settings}

theorem sound_consume (sound : Sound world) (reading : (world.worker w).phase = .reading lease) (engine : Engine Amount) (reads : Reads)
    (undisturbed : Undisturbed settings world (.consume w engine reads)) :
    Sound (world.consume settings w lease engine reads) := by
  have busy : (world.worker w).phase ≠ .idle := by rw [reading]; exact fun same => nomatch same
  have nothing : pending (world.worker w).phase = [] := by rw [reading]; rfl
  have quiet := undisturbed lease (by rw [reading]; rfl)
  have fits := sound.fits w
  rw [reading] at fits
  have emittedBefore : ∀ emitted ∈ (world.sessionFor w lease).emitted, emitted ∈ keys world.stored := sound.session nothing
  unfold World.consume
  dsimp only
  obtain ⟨⟨new,made,_,_,outcome⟩,later⟩ := consume_makes settings.eventBatchSize lease.runtime engine reads world.bars lease.cursors.bars
    (world.sessionFor w lease)
  dsimp only at quiet
  generalize consumeMarketData settings.eventBatchSize lease.runtime engine reads world.bars lease.cursors.bars
    (world.sessionFor w lease) = consumed at quiet made outcome later
  have toAppend : (eventBatches settings.eventBatchSize consumed.2.1.length consumed.2.1).flatten = consumed.2.1 :=
    eventBatches_flatten settings.positive (Nat.le_refl _)
  have isNew : consumed.1.made.drop (world.sessionFor w lease).made.length = new := by rw [made,drop_left]
  refine sound_put sound busy (fun _ => sound.holds w busy) (fun v other => set_other other _) ?_ ?_ (fun _ => id) ?_
  · rw [set_worker]
    refine fits_afterBatch fits ?_ _
    intro cursor isCursor
    have := later cursor isCursor
    rw [show lease.cursors = world.cursors from fits] at this
    exact Nat.le_of_lt this
  · intro derivation member ahead
    rw [set_worker,pending_afterBatch,toAppend]
    rcases mem_append.mp member with old | fresh
    · exact .inl (sound.derived_stored busy nothing old ahead)
    · rw [isNew] at fresh
      have key := derivations_keys fresh
      rcases outcome with ⟨_,source,failed⟩ | ⟨all,ordered,returned⟩
      · have same := quiet (by rw [failed]; rfl)
        rw [made] at same
        rw [self_eq_append_right.mp same.symm] at key
        cases key
      · obtain ⟨event,isEvent,isKey⟩ := mem_map.mp key
        rw [← ordered] at isEvent
        have covered : event.key ∈ (world.sessionFor w lease).emitted ∨
            event.key ∈ keys (takeUp maxSessionIdempotencyKeys (·.key) (world.sessionFor w lease).emitted all).2 :=
          takeUp_covers (mem_filter.mp isEvent).1
        rw [returned,isKey] at covered
        exact covered.imp (emittedBefore _) id
  · intro key session found k isEmitted
    rw [set_worker] at found ⊢
    rw [pending_afterBatch,toAppend]
    dsimp only at found
    by_cases same : key = lease.key
    · subst same
      rw [Function.update_self] at found
      cases found
      rcases outcome with ⟨kept,_⟩ | ⟨all,_,returned⟩
      · rw [kept] at isEmitted
        exact .inl (emittedBefore k isEmitted)
      · have isEmitted' : k ∈ (takeUp maxSessionIdempotencyKeys (·.key) (world.sessionFor w lease).emitted all).1 := by
          rw [returned]
          exact isEmitted
        have remembered := mem_takeUp_memory isEmitted'
        rw [returned] at remembered
        exact remembered.imp (emittedBefore k) id
    · rw [Function.update_of_ne same] at found
      exact .inl (sound.emitted_stored nothing found isEmitted)

theorem all_idle (sound : Sound world) {expired : Bool}
    (isIdle : (world.worker w).phase = .idle) (undisturbed : Undisturbed settings world (.claim w expired)) :
    ∀ v, (world.worker v).phase = .idle := by
  intro v
  by_contra busy
  have owner := sound.holds v busy
  by_cases same : v = w
  · exact busy (same ▸ isIdle)
  · exact busy (undisturbed v owner same)

variable {label : Label workers Amount}

theorem sound_step
    (sound : Sound world) (undisturbed : Undisturbed settings world label) (stepped : step settings world label = some next) :
    Sound next := by
  cases step_moves stepped with
  | arriveBar entry => exact ⟨sound.holds,sound.fits,sound.derived,sound.emitted⟩
  | arriveCommand entry => exact ⟨sound.holds,sound.fits,sound.derived,sound.emitted⟩
  | edit runtime fingerprint => exact ⟨sound.holds,sound.fits,sound.derived,sound.emitted⟩
  | renew w expired isIdle owner => exact sound_claim sound (all_idle sound isIdle undisturbed) rfl owner rfl rfl rfl rfl
  | claim w expired isIdle claimed isClaimed =>
    subst isClaimed
    exact sound_claim sound (all_idle sound isIdle undisturbed) rfl rfl rfl rfl rfl rfl
  | readCommands w fails lease leased entries isRead =>
    subst isRead
    exact sound_readCommands sound leased fails
  | acknowledge w refused lease events cursor acknowledging =>
    have busy : (world.worker w).phase ≠ .idle := by rw [acknowledging]; exact fun same => nomatch same
    obtain ⟨after,appended⟩ := Option.isSome_iff_exists.mp (undisturbed events (by rw [acknowledging]; rfl))
    have fits := sound.fits w
    rw [acknowledging] at fits
    rw [appended,Option.getD_some]
    refine sound_append sound busy appended ?_ ?_
    · rw [acknowledging]
      split <;> exact (append_nil _).symm
    · split
      · trivial
      · exact fits
  | append w refused lease batch batches cursor appending =>
    have busy : (world.worker w).phase ≠ .idle := by rw [appending]; exact fun same => nomatch same
    obtain ⟨after,appended⟩ := Option.isSome_iff_exists.mp (undisturbed batch (by rw [appending]; rfl))
    have fits := sound.fits w
    rw [appending] at fits
    rw [appended,Option.getD_some]
    refine sound_append sound busy appended ?_ (fits_afterBatch fits.1 fits.2 batches)
    rw [appending,pending_afterBatch]
    rfl
  | release w locked releasing owner =>
    have busy : (world.worker w).phase ≠ .idle := by rw [releasing]; exact fun same => nomatch same
    have lost : Sound (world.set w ⟨.idle,fun _ => none⟩) :=
      sound_lose sound (.inr ⟨rfl,by rw [releasing]; rfl⟩) (fun key session found => nomatch found)
    refine ⟨?_,lost.fits,lost.derived,lost.emitted⟩
    intro v alsoBusy
    by_cases same : v = w
    · subst same
      rw [set_worker] at alsoBusy
      exact absurd rfl alsoBusy
    · dsimp only at alsoBusy
      rw [set_other same,sound.others busy same] at alsoBusy
      exact absurd rfl alsoBusy
  | leave w locked releasing =>
    exact sound_lose sound (.inr ⟨rfl,by rw [releasing]; rfl⟩) (fun key session found => nomatch found)
  | persistCommands w locked lease cursor moving moved persisted =>
    have busy : (world.worker w).phase ≠ .idle := by rw [moving]; exact fun same => nomatch same
    obtain ⟨same,forward⟩ : lease.cursors = world.cursors ∧ world.cursors.commands ≤ cursor := by
      simpa only [Fits,moving] using sound.fits w
    refine sound_persist sound busy persisted (by rw [moving]; rfl) ?_ ?_
    · intro stream
      rw [same]
      cases stream
      · exact Nat.le_refl _
      · exact forward
    · obtain ⟨_,rfl⟩ := persistCursor_some persisted
      rfl
  | keepCommands w locked lease cursor moving =>
    have busy : (world.worker w).phase ≠ .idle := by rw [moving]; exact fun same => nomatch same
    have fits := sound.fits w
    rw [moving] at fits
    exact sound_advance sound busy (sound.holds w busy) (by rw [moving]; rfl) fits.1
  | persistBars w locked lease cursor moving moved persisted =>
    have busy : (world.worker w).phase ≠ .idle := by rw [moving]; exact fun same => nomatch same
    obtain ⟨same,forward⟩ : lease.cursors = world.cursors ∧ world.cursors.bars ≤ cursor := by
      simpa only [Fits,moving] using sound.fits w
    refine sound_persist sound busy persisted (by rw [moving]; rfl) ?_ trivial
    intro stream
    rw [same]
    cases stream
    · exact forward
    · exact Nat.le_refl _
  | keepBars w locked lease cursor moving =>
    have busy : (world.worker w).phase ≠ .idle := by rw [moving]; exact fun same => nomatch same
    exact sound_advance sound busy (sound.holds w busy) (by rw [moving]; rfl) trivial
  | consume w engine reads lease reading => exact sound_consume sound reading engine reads undisturbed
  | evict w key =>
    refine sound_lose sound (.inl rfl) ?_
    intro other session found
    exact session_of_evicted found
  | restart w => exact sound_lose sound (.inr ⟨rfl,undisturbed⟩) (fun key session found => nomatch found)

theorem step_cursors (stepped : step settings world label = some next) :
    next.cursors = world.cursors ∨ next.derived = world.derived ∧ next.stored = world.stored ∧
      ∃ w, (world.worker w).phase ≠ .idle ∧ pending (world.worker w).phase = [] := by
  cases step_moves stepped with
  | acknowledge w refused lease events cursor acknowledging => exact .inl (appended_cursors world w refused events)
  | append w refused lease batch batches cursor appending => exact .inl (appended_cursors world w refused batch)
  | persistCommands w locked lease cursor moving moved persisted =>
    have busy : (world.worker w).phase ≠ .idle := by rw [moving]; exact fun same => nomatch same
    obtain ⟨_,rfl⟩ := persistCursor_some persisted
    exact .inr ⟨rfl,rfl,w,busy,by rw [moving]; rfl⟩
  | persistBars w locked lease cursor moving moved persisted =>
    have busy : (world.worker w).phase ≠ .idle := by rw [moving]; exact fun same => nomatch same
    obtain ⟨_,rfl⟩ := persistCursor_some persisted
    exact .inr ⟨rfl,rfl,w,busy,by rw [moving]; rfl⟩
  | claim w expired isIdle claimed isClaimed =>
    subst isClaimed
    exact .inl rfl
  | _ => exact .inl rfl

theorem notOvertaken (sound : Sound world) (label : Label workers Amount) : NotOvertaken settings world label := by
  intro next stepped derivation member ahead passed
  rcases step_cursors stepped with same | ⟨derived,stored,w,busy,nothing⟩
  · rw [same] at passed
    omega
  · rw [derived] at member
    rw [stored]
    exact sound.derived_stored busy nothing member ahead

/-- In an undisturbed run no cursor moves past an entry before all its events are stored. -/
theorem cursors_behind_events (settings : Settings) (runtime : NautilusRuntimeRecord Amount) (fingerprint : Nat)
    (labels : List (Label workers Amount))
    (undisturbed : Meets (step settings) (Undisturbed settings) (initial workers runtime fingerprint) labels) :
    Meets (step settings) (NotOvertaken settings) (initial workers runtime fingerprint) labels :=
  meets_mono (fun _ _ _ sound undisturbed stepped => sound_step sound undisturbed stepped)
    (fun _ label sound _ => notOvertaken sound label) (sound_initial runtime fingerprint) undisturbed
def sampleRuntime : NautilusRuntimeRecord ℤ := ⟨0,some 20,some 1,[]⟩
def sampleSettings : Settings := ⟨100,Nat.succ_pos 99⟩

local instance oneWorker : @NeZero Nat Zero.ofOfNat0 1 := @NeZero.mk Nat Zero.ofOfNat0 1 (Nat.succ_ne_zero 0)

/-- A bar arrives, the worker reads it and appends its events, which may be refused. -/
def oneCall (id : Nat) (orders : List (Order ℤ)) (refused : Bool) : List (Label 1 ℤ) :=
  [.arriveBar ⟨id,id,true,10⟩,.claim 0 false,.readCommands 0 false,.consume 0 ⟨false,fun _ => .took orders⟩ ⟨false,false⟩,
    .append 0 refused]
def twoCalls (refused : Bool) : List (Label 1 ℤ) :=
  oneCall 1 [] false ++ [.persist 0 false] ++ oneCall 2 [⟨some .buy,some 1⟩] refused
theorem cursors_behind_events_sample : ∃ world,
    run (step sampleSettings) (initial 1 sampleRuntime 0) (twoCalls false ++ [.persist 0 false]) = some world ∧
      world.cursors = ⟨2,0⟩ ∧ world.stored.length = 8 ∧
      Meets (step sampleSettings) (NotOvertaken sampleSettings) (initial 1 sampleRuntime 0)
        (twoCalls false ++ [.persist 0 false]) := by
  refine ⟨_,rfl,rfl,by decide,?_⟩
  exact cursors_behind_events sampleSettings sampleRuntime 0 _ (by decide)

/-- The row is locked when the events of the second bar are appended, and free again when the
    cursor is persisted. -/
theorem cursor_overtakes : ¬ ∀ (workers : Nat) (settings : Settings) (runtime : NautilusRuntimeRecord ℤ) (fingerprint : Nat)
    (labels : List (Label workers ℤ)),
    Meets (step settings) (NotOvertaken settings) (initial workers runtime fingerprint) labels := by
  intro holds
  have meets := holds 1 sampleSettings sampleRuntime 0 (twoCalls true ++ [.persist 0 false])
  obtain ⟨last,_⟩ := (meets_append meets).2 _ rfl
  exact absurd (last _ rfl ⟨.bars,2,.order .fill 2 .buy 1⟩ (by decide) (by decide) (by decide)) (by decide)

end Codebot.StreamCursors
