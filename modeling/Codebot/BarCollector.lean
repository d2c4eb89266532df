import Codebot.Runs
import Mathlib.Data.List.Infix
import Mathlib.Data.List.Pairwise

/-!
The bars that the market-data collector publishes. A poll fetches the candles from the cursor of the stream on,
publishes those that are closed and later, and then stores the open time of the last one as the cursor. An error of
Redis ends the process (`gapless`).

Candles are their open times, in milliseconds of one clock, which the exchange opens in order and no sooner than a
timeframe apart.
-/
namespace Codebot.BarCollector
open Runs List Function
set_option linter.unusedSectionVars false

variable {Stream : Type}
/-- `event_id` of a bar. -/
structure EventId (Stream : Type) where
  stream : Stream
  openTime : Nat
deriving DecidableEq
/-- `_timeframe_millis` of the streams, which knows the usual timeframes only. -/
structure Settings (Stream : Type) where
  timeframeMillis : Stream → Option Nat
  backfillLimit : Nat
  eventIdCacheLimit : Nat

/-- What the process does next: candles to normalize and those kept of them, or bars to
    publish and the open time to store after them. -/
inductive Phase (Stream : Type)
  | idle
  | down
  | normalizing (stream : Stream) (since : Option Nat) (raw kept : List Nat)
  | publishing (stream : Stream) (bars : List Nat) (lastExchange : Option Nat)
deriving DecidableEq

/-- The exchange, Redis, and the memory of the process. -/
structure State (Stream : Type) where
  clock : Nat
  candles : Stream → List Nat
  cursors : Stream → Option Nat
  published : Stream → List Nat
  publishedEventIds : List (EventId Stream)
  nextPollAfter : Stream → Nat
  phase : Phase Stream

/-- A call of Redis that `fails` may have been executed. -/
inductive Label (Stream : Type)
  | tick (millis : Nat)
  | candle (stream : Stream) (openTime : Nat)
  | poll (stream : Stream)
  | pollFails (stream : Stream)
  | normalize
  | publish
  | persist
  | fails (executed : Bool)
  | restart
deriving DecidableEq

def initial (clock : Nat) : State Stream where
  clock := clock
  candles _ := []
  cursors _ := none
  published _ := []
  publishedEventIds := []
  nextPollAfter _ := 0
  phase := .idle

def Follows (timeframe : Option Nat) (first second : Nat) : Prop :=
  first < second ∧ ∀ millis ∈ timeframe, first + millis ≤ second
instance (timeframe : Option Nat) (first second : Nat) : Decidable (Follows timeframe first second) := by
  unfold Follows
  infer_instance
def fetchOhlcv (limit : Nat) (candles : List Nat) : Option Nat → List Nat
  | some since => (candles.filter (since ≤ ·)).take limit
  | none => candles.drop (candles.length - limit)
/-- `_normalize_ohlcv`: nothing for a candle that is still open. -/
def normalizeOhlcv (timeframe : Option Nat) (openTime now : Nat) : Option Nat :=
  if ∃ millis ∈ timeframe, now < openTime + millis then none else some openTime
/-- The end of `poll_closed_bars`. -/
def laterThan : Option Nat → List Nat → List Nat
  | some since, bars => bars.filter (since < ·)
  | none, bars => bars
/-- `_remember_published_event_id`. -/
def remember (limit : Nat) (ids : List (EventId Stream)) (id : EventId Stream) : List (EventId Stream) :=
  (ids ++ [id]).drop (ids.length + 1 - limit)
def scheduleNextPoll (timeframe lastExchange : Option Nat) (now former : Nat) : Nat :=
  match timeframe, lastExchange with
  | none, _ => former
  | some millis, none => now + min millis 5000
  | some millis, some last => max (now + 250) (last + 2 * millis + 1000)

section
variable [DecidableEq Stream]

def State.publish (s : State Stream) (stream : Stream) (bar : Nat) : State Stream :=
  { s with published := Function.update s.published stream (s.published stream ++ [bar]) }
/-- `_persist_stream_cursor` where there are bars. -/
def State.persist (s : State Stream) (stream : Stream) (lastExchange : Option Nat) : State Stream :=
  { s with cursors := Function.update s.cursors stream (lastExchange.or (s.cursors stream)) }
def State.schedule (settings : Settings Stream) (s : State Stream) (stream : Stream) (lastExchange : Option Nat) :
    State Stream :=
  let after := scheduleNextPoll (settings.timeframeMillis stream) lastExchange s.clock (s.nextPollAfter stream)
  { s with nextPollAfter := Function.update s.nextPollAfter stream after }
def State.publishNormalizedBar (settings : Settings Stream) (s : State Stream) (stream : Stream) (bar : Nat) : State Stream :=
  if ⟨stream,bar⟩ ∈ s.publishedEventIds then s
  else { s.publish stream bar with
    publishedEventIds := remember settings.eventIdCacheLimit s.publishedEventIds ⟨stream,bar⟩ }

/-- A fetch that fails changes nothing but the report of it. -/
def step (settings : Settings Stream) (s : State Stream) : Label Stream → Option (State Stream)
  | .tick millis => some { s with clock := s.clock + millis }
  | .candle stream openTime =>
    if openTime ≤ s.clock ∧ ∀ earlier ∈ s.candles stream, Follows (settings.timeframeMillis stream) earlier openTime then
      some { s with candles := Function.update s.candles stream (s.candles stream ++ [openTime]) }
    else none
  | .poll stream =>
    if s.phase = .idle ∧ s.nextPollAfter stream ≤ s.clock then
      let since := s.cursors stream
      some { s with phase := .normalizing stream since (fetchOhlcv settings.backfillLimit (s.candles stream) since) [] }
    else none
  | .pollFails stream => if s.phase = .idle ∧ s.nextPollAfter stream ≤ s.clock then some s else none
  | .normalize =>
    match s.phase with
    | .normalizing stream since (candle :: raw) kept =>
      let bar := normalizeOhlcv (settings.timeframeMillis stream) candle s.clock
      some { s with phase := .normalizing stream since raw (kept ++ bar.toList) }
    | .normalizing stream since [] kept =>
      some { s with phase := .publishing stream (laterThan since kept) (laterThan since kept).getLast? }
    | _ => none
  | .publish =>
    match s.phase with
    | .publishing stream (bar :: bars) last =>
      some { s.publishNormalizedBar settings stream bar with phase := .publishing stream bars last }
    | _ => none
  | .persist =>
    match s.phase with
    | .publishing stream [] last => some { (s.persist stream last).schedule settings stream last with phase := .idle }
    | _ => none
  | .fails executed =>
    match s.phase with
    | .publishing stream (bar :: _) _ =>
      if ⟨stream,bar⟩ ∈ s.publishedEventIds then none
      else some { (if executed then s.publish stream bar else s) with phase := .down }
    | .publishing stream [] (some last) =>
      some { (if executed then s.persist stream (some last) else s) with phase := .down }
    | _ => none
  | .restart => some { s with phase := .idle, publishedEventIds := [], nextPollAfter := fun _ => 0 }

/-- The open times of a stream increase, and none of the exchange's candles is left out between two of them. -/
structure Gapless (candles published : List Nat) : Prop where
  increasing : published.Pairwise (· < ·)
  complete : ∀ first ∈ published, ∀ last ∈ published, ∀ candle ∈ candles, first ≤ candle → candle ≤ last → candle ∈ published
def State.Recorded (s : State Stream) (stream : Stream) : Prop := (s.published stream).getLast? = s.cursors stream
instance (s : State Stream) (stream : Stream) : Decidable (s.Recorded stream) := by
  unfold State.Recorded
  infer_instance
/-- Where a phase is cut off, no bar is left without its cursor. -/
def CutOff (s : State Stream) (executed : Bool) : Phase Stream → Prop
  | .publishing stream (_ :: _) _ => executed = false ∧ s.Recorded stream
  | .publishing stream [] _ => executed = true ∨ s.Recorded stream
  | _ => True
instance (s : State Stream) (executed : Bool) : ∀ phase, Decidable (CutOff s executed phase)
  | .publishing stream (_ :: _) _ => inferInstanceAs (Decidable (executed = false ∧ s.Recorded stream))
  | .publishing stream [] _ => inferInstanceAs (Decidable (executed = true ∨ s.Recorded stream))
  | .idle | .down | .normalizing _ _ _ _ => .isTrue trivial
def Undisturbed (s : State Stream) : Label Stream → Prop
  | .restart => CutOff s false s.phase
  | .fails executed => CutOff s executed s.phase
  | _ => True
instance (s : State Stream) : ∀ label, Decidable (Undisturbed s label)
  | .restart => inferInstanceAs (Decidable (CutOff s false s.phase))
  | .fails executed => inferInstanceAs (Decidable (CutOff s executed s.phase))
  | .tick _ | .candle _ _ | .poll _ | .pollFails _ | .normalize | .publish | .persist => .isTrue trivial

variable {candles : List Nat} {timeframe : Option Nat}
theorem pairwise_lt (spaced : candles.Pairwise (Follows timeframe)) : candles.Pairwise (· < ·) :=
  spaced.imp fun follows => follows.1

variable {published : List Nat}

theorem gapless_of_infix
    (spaced : candles.Pairwise (Follows timeframe)) (stretch : published <:+: candles) : Gapless candles published := by
  have increasing := pairwise_lt spaced
  obtain ⟨before,after,rfl⟩ := stretch
  obtain ⟨start,-,rest⟩ := pairwise_append.mp increasing
  obtain ⟨-,inner,early⟩ := pairwise_append.mp start
  refine ⟨inner,?_⟩
  intro first isFirst last isLast candle member atLeast atMost
  rcases mem_append.mp member with member | isAfter
  · rcases mem_append.mp member with isBefore | isWithin
    · exact absurd (early candle isBefore first isFirst) (Nat.not_lt.mpr atLeast)
    · exact isWithin
  · exact absurd (rest last (mem_append_right before isLast) candle isAfter) (Nat.not_lt.mpr atMost)

theorem infix_grows (stretch : published <:+: candles) (openTime : Nat) : published <:+: candles ++ [openTime] :=
  stretch.trans (prefix_append candles [openTime]).isInfix

theorem filter_from {before after : List Nat} {since : Nat} (increasing : (before ++ since :: after).Pairwise (· < ·)) :
    (before ++ since :: after).filter (since ≤ ·) = since :: after := by
  obtain ⟨-,later,early⟩ := pairwise_append.mp increasing
  have none : before.filter (since ≤ ·) = [] := by
    rw [filter_eq_nil_iff]
    intro candle member
    simpa using early candle member since mem_cons_self
  have all : (since :: after).filter (since ≤ ·) = since :: after := by
    rw [filter_eq_self]
    intro candle member
    rcases mem_cons.mp member with rfl | isAfter
    · simp
    · simpa using (rel_of_pairwise_cons later isAfter).le
  rw [filter_append,none,all,nil_append]

theorem fetch_follows {cursor : Option Nat} (limit : Nat)
    (increasing : candles.Pairwise (· < ·)) (stretch : published <:+: candles) (recorded : published.getLast? = cursor) :
    (published.dropLast ++ fetchOhlcv limit candles cursor) <:+: candles ∧
      ∀ since ∈ cursor, ∀ first ∈ (fetchOhlcv limit candles cursor).head?, first = since := by
  cases cursor with
  | none =>
    rw [getLast?_eq_none_iff] at recorded
    subst recorded
    exact ⟨(drop_suffix _ candles).isInfix,nofun⟩
  | some since =>
    obtain ⟨earlier,rfl⟩ := getLast?_eq_some_iff.mp recorded
    obtain ⟨before,after,rfl⟩ := stretch
    have split : before ++ (earlier ++ [since]) ++ after = (before ++ earlier) ++ since :: after := by simp
    have answer : fetchOhlcv limit (before ++ (earlier ++ [since]) ++ after) (some since) = (since :: after).take limit := by
      rw [split] at increasing ⊢
      exact congrArg (List.take limit) (filter_from increasing)
    rw [answer]
    constructor
    · refine ⟨before,(since :: after).drop limit,?_⟩
      simp
    · intro other same first isFirst
      cases same
      cases limit with
      | zero => cases isFirst
      | succ limit => exact (Option.some.inj isFirst).symm

def Closed (timeframe : Option Nat) (clock bar : Nat) : Prop := ∀ millis ∈ timeframe, bar + millis ≤ clock

theorem normalizeOhlcv_cases (timeframe : Option Nat) (openTime now : Nat) :
    normalizeOhlcv timeframe openTime now = some openTime ∧ Closed timeframe now openTime ∨
      normalizeOhlcv timeframe openTime now = none ∧ ¬ Closed timeframe now openTime := by
  have apart : (∃ millis ∈ timeframe, now < openTime + millis) ↔ ¬ Closed timeframe now openTime := by
    simp [Closed]
  by_cases closed : Closed timeframe now openTime
  · exact .inl ⟨if_neg (fun early => apart.mp early closed),closed⟩
  · exact .inr ⟨if_pos (apart.mpr closed),closed⟩

variable {clock : Nat}
theorem closed_of_follows {first second : Nat} (follows : Follows timeframe first second)
    (opened : second ≤ clock) : Closed timeframe clock first :=
  fun millis known => (follows.2 millis known).trans opened

/-- What is known of a poll. -/
def Known (settings : Settings Stream) (s : State Stream) : Phase Stream → Prop
  | .normalizing stream since raw kept =>
    since = s.cursors stream ∧ (s.published stream).dropLast ++ (kept ++ raw) <:+: s.candles stream ∧
      (∀ start ∈ since, ∀ first ∈ (kept ++ raw).head?, first = start) ∧
        ∀ bar ∈ kept, Closed (settings.timeframeMillis stream) s.clock bar
  | .publishing stream bars last =>
    s.published stream ++ bars <:+: s.candles stream ∧ (s.published stream ++ bars).getLast? = last.or (s.cursors stream) ∧
      (last = none → bars = []) ∧ ∀ bar ∈ bars, Closed (settings.timeframeMillis stream) s.clock bar
  | _ => True

def Phase.publishes : Phase Stream → Option Stream
  | .publishing stream _ _ => some stream
  | _ => none

structure Sound (settings : Settings Stream) (s : State Stream) : Prop where
  spaced : ∀ stream, (s.candles stream).Pairwise (Follows (settings.timeframeMillis stream))
  opened : ∀ stream, ∀ candle ∈ s.candles stream, candle ≤ s.clock
  stretch : ∀ stream, s.published stream <:+: s.candles stream
  closed : ∀ stream, ∀ bar ∈ s.published stream, Closed (settings.timeframeMillis stream) s.clock bar
  remembered : ∀ id ∈ s.publishedEventIds, id.openTime ∈ s.published id.stream
  recorded : ∀ stream, s.phase.publishes ≠ some stream → s.Recorded stream
  known : Known settings s s.phase

theorem sound_initial (settings : Settings Stream) (clock : Nat) : Sound settings (initial clock) where
  spaced _ := List.Pairwise.nil
  opened _ _ member := nomatch member
  stretch _ := infix_rfl
  closed _ _ member := nomatch member
  remembered _ member := nomatch member
  recorded _ _ := rfl
  known := trivial

variable {bar : Nat}
theorem Closed.mono {later : Nat} (closed : Closed timeframe clock bar)
    (passed : clock ≤ later) : Closed timeframe later bar :=
  fun millis known => (closed millis known).trans passed

variable {settings : Settings Stream}
variable {s : State Stream}

theorem sound_tick (sound : Sound settings s) (millis : Nat) :
    Sound settings { s with clock := s.clock + millis } where
  spaced := sound.spaced
  opened stream candle member := (sound.opened stream candle member).trans (Nat.le_add_right _ _)
  stretch := sound.stretch
  closed stream bar member := (sound.closed stream bar member).mono (Nat.le_add_right _ _)
  remembered := sound.remembered
  recorded := sound.recorded
  known := by
    have known := sound.known
    show Known settings { s with clock := s.clock + millis } s.phase
    cases place : s.phase with
    | idle | down => trivial
    | normalizing stream since raw kept =>
      rw [place] at known
      obtain ⟨same,stretch,first,closed⟩ := known
      exact ⟨same,stretch,first,fun bar member => (closed bar member).mono (Nat.le_add_right _ _)⟩
    | publishing stream bars last =>
      rw [place] at known
      obtain ⟨stretch,ends,nothing,closed⟩ := known
      exact ⟨stretch,ends,nothing,fun bar member => (closed bar member).mono (Nat.le_add_right _ _)⟩

theorem infix_update {candles : Stream → List Nat} (stream other : Stream) (openTime : Nat)
    (stretch : published <:+: candles other) :
    published <:+: Function.update candles stream (candles stream ++ [openTime]) other := by
  by_cases same : other = stream
  · subst same
    rw [update_self]
    exact infix_grows stretch openTime
  · rwa [update_of_ne same]

variable {stream : Stream}

theorem sound_candle (sound : Sound settings s) {openTime : Nat} (opened : openTime ≤ s.clock)
    (follows : ∀ earlier ∈ s.candles stream, Follows (settings.timeframeMillis stream) earlier openTime) :
    Sound settings { s with candles := Function.update s.candles stream (s.candles stream ++ [openTime]) } where
  spaced other := by
    by_cases same : other = stream
    · subst same
      simp only [update_self]
      rw [pairwise_append]
      refine ⟨sound.spaced other,pairwise_singleton _ _,?_⟩
      intro earlier member last isLast
      rw [mem_singleton.mp isLast]
      exact follows earlier member
    · simp only [update_of_ne same]
      exact sound.spaced other
  opened other candle member := by
    by_cases same : other = stream
    · subst same
      simp only [update_self] at member
      rcases mem_append.mp member with earlier | isLast
      · exact sound.opened other candle earlier
      · rw [mem_singleton.mp isLast]
        exact opened
    · simp only [update_of_ne same] at member
      exact sound.opened other candle member
  stretch other := infix_update stream other openTime (sound.stretch other)
  closed := sound.closed
  remembered := sound.remembered
  recorded := sound.recorded
  known := by
    have known := sound.known
    show Known settings { s with candles := _ } s.phase
    cases place : s.phase with
    | idle | down => trivial
    | normalizing other since raw kept =>
      rw [place] at known
      obtain ⟨same,stretch,first,closed⟩ := known
      exact ⟨same,infix_update stream other openTime stretch,first,closed⟩
    | publishing other bars last =>
      rw [place] at known
      obtain ⟨stretch,ends,nothing,closed⟩ := known
      exact ⟨infix_update stream other openTime stretch,ends,nothing,closed⟩

theorem sound_poll (sound : Sound settings s) (idle : s.phase = .idle) (stream : Stream) :
    Sound settings { s with
      phase := .normalizing stream (s.cursors stream)
        (fetchOhlcv settings.backfillLimit (s.candles stream) (s.cursors stream)) [] } := by
  have recorded : ∀ other, s.Recorded other := fun other => sound.recorded other (by rw [idle]; nofun)
  obtain ⟨follows,first⟩ := fetch_follows settings.backfillLimit (pairwise_lt (sound.spaced stream))
    (sound.stretch stream) (recorded stream)
  exact { sound with
    recorded := fun other _ => recorded other
    known := ⟨rfl,follows,first,fun bar member => nomatch member⟩ }

variable {raw : List Nat}

theorem rest_nil (sound : Sound settings s)
    {start : List Nat} {candle : Nat} (stretch : start ++ candle :: raw <:+: s.candles stream)
    (isOpen : ¬ Closed (settings.timeframeMillis stream) s.clock candle) : raw = [] := by
  cases raw with
  | nil => rfl
  | cons next raw =>
    have spaced := (sound.spaced stream).sublist stretch.sublist
    have follows := rel_of_pairwise_cons (pairwise_append.mp spaced).2.1 mem_cons_self
    have opened := sound.opened stream next (stretch.subset (by simp))
    exact absurd (closed_of_follows follows opened) isOpen

variable {kept : List Nat} {since : Option Nat}

theorem sound_normalize (sound : Sound settings s) {candle : Nat}
    (place : s.phase = .normalizing stream since (candle :: raw) kept) :
    Sound settings { s with
      phase := .normalizing stream since raw
        (kept ++ (normalizeOhlcv (settings.timeframeMillis stream) candle s.clock).toList) } := by
  have known := sound.known
  rw [place] at known
  obtain ⟨same,stretch,first,closed⟩ := known
  have recorded : ∀ other, s.Recorded other := fun other => sound.recorded other (by rw [place]; nofun)
  refine { sound with recorded := fun other _ => recorded other, known := ?_ }
  rcases normalizeOhlcv_cases (settings.timeframeMillis stream) candle s.clock with ⟨kept',isOver⟩ | ⟨dropped,isOpen⟩
  · rw [kept']
    refine ⟨same,by simpa using stretch,by simpa using first,?_⟩
    intro bar member
    rcases mem_append.mp member with earlier | isCandle
    · exact closed bar earlier
    · rw [mem_singleton.mp isCandle]
      exact isOver
  · have last : raw = [] := by
      rw [← append_assoc] at stretch
      exact rest_nil sound stretch isOpen
    subst last
    rw [dropped]
    simp only [Option.toList_none,append_nil]
    refine ⟨same,?_,?_,closed⟩
    · rw [← append_assoc] at stretch
      simpa using (prefix_append _ [candle]).isInfix.trans stretch
    · intro start isStart head isHead
      refine first start isStart head ?_
      rw [append_nil] at isHead
      rw [head?_append,isHead]
      rfl

theorem sound_normalized (sound : Sound settings s) (place : s.phase = .normalizing stream since [] kept) :
    Sound settings { s with phase := .publishing stream (laterThan since kept) (laterThan since kept).getLast? } := by
  have known := sound.known
  rw [place] at known
  obtain ⟨same,stretch,first,closed⟩ := known
  rw [append_nil] at stretch first
  have recorded : ∀ other, s.Recorded other := fun other => sound.recorded other (by rw [place]; nofun)
  have within : ∀ bar ∈ laterThan since kept, bar ∈ kept := by
    cases since with
    | none => exact fun bar member => member
    | some start => exact fun bar member => mem_of_mem_filter member
  have follows : s.published stream ++ laterThan since kept <:+: s.candles stream := by
    have here : (s.published stream).getLast? = since := (recorded stream).trans same.symm
    cases since with
    | none =>
      rw [getLast?_eq_none_iff] at here
      rw [here] at stretch ⊢
      exact stretch
    | some start =>
      obtain ⟨earlier,published⟩ := getLast?_eq_some_iff.mp here
      cases kept with
      | nil =>
        rw [laterThan,filter_nil,append_nil]
        exact sound.stretch stream
      | cons head kept =>
        obtain rfl := first start rfl head rfl
        rw [published,dropLast_concat] at stretch
        have increasing := ((pairwise_lt (sound.spaced stream)).sublist stretch.sublist)
        have later := (pairwise_append.mp increasing).2.1
        have rest : laterThan (some head) (head :: kept) = kept := by
          rw [laterThan,filter_cons_of_neg (by simp),filter_eq_self]
          intro bar member
          simpa using rel_of_pairwise_cons later member
        rw [published,rest]
        simpa using stretch
  refine { sound with recorded := fun other _ => recorded other, known := ⟨follows,?_,?_,?_⟩ }
  · rw [getLast?_append,recorded stream]
  · exact getLast?_eq_none_iff.mp
  · exact fun bar member => closed bar (within bar member)

variable {last : Option Nat}

theorem sound_publish (sound : Sound settings s) {bars : List Nat} (place : s.phase = .publishing stream (bar :: bars) last) :
    Sound settings { s.publishNormalizedBar settings stream bar with phase := .publishing stream bars last } := by
  have known := sound.known
  rw [place] at known
  obtain ⟨stretch,ends,nothing,closed⟩ := known
  have fresh : (⟨stream,bar⟩ : EventId Stream) ∉ s.publishedEventIds := by
    intro member
    have increasing := (pairwise_lt (sound.spaced stream)).sublist stretch.sublist
    exact lt_irrefl bar ((pairwise_append.mp increasing).2.2 bar (sound.remembered _ member) bar mem_cons_self)
  have split : s.published stream ++ bar :: bars = s.published stream ++ [bar] ++ bars := by simp
  rw [State.publishNormalizedBar,if_neg fresh]
  refine
    { spaced := sound.spaced
      opened := sound.opened
      stretch := ?_
      closed := ?_
      remembered := ?_
      recorded := ?_
      known := ?_ }
  · intro other
    by_cases same : other = stream
    · subst same
      simp only [State.publish,update_self]
      rw [split] at stretch
      exact (prefix_append _ bars).isInfix.trans stretch
    · simp only [State.publish,update_of_ne same]
      exact sound.stretch other
  · intro other member isPublished
    by_cases same : other = stream
    · subst same
      simp only [State.publish,update_self] at isPublished
      rcases mem_append.mp isPublished with earlier | isBar
      · exact sound.closed other member earlier
      · rw [mem_singleton.mp isBar]
        exact closed bar mem_cons_self
    · simp only [State.publish,update_of_ne same] at isPublished
      exact sound.closed other member isPublished
  · intro id member
    rcases mem_append.mp (mem_of_mem_drop member) with earlier | isNew
    · have before := sound.remembered id earlier
      by_cases same : id.stream = stream
      · simp only [State.publish,← same,update_self]
        exact mem_append_left _ before
      · simp only [State.publish,update_of_ne same]
        exact before
    · rw [mem_singleton.mp isNew]
      simp [State.publish]
  · intro other notHere
    have apart : other ≠ stream := fun same => notHere (by rw [same]; rfl)
    simp only [State.Recorded,State.publish,update_of_ne apart]
    exact sound.recorded other (by rw [place]; exact notHere)
  · rw [split] at stretch ends
    refine ⟨?_,?_,?_,fun later member => closed later (mem_cons_of_mem bar member)⟩
    · simpa [State.publish] using stretch
    · simpa [State.publish] using ends
    · intro empty
      cases nothing empty

theorem persist_recorded (sound : Sound settings s) (place : s.phase = .publishing stream [] last) (other : Stream) :
    (s.persist stream last).Recorded other := by
  by_cases same : other = stream
  · subst same
    have known := sound.known
    rw [place] at known
    obtain ⟨-,ends,-,-⟩ := known
    rw [append_nil] at ends
    simpa [State.Recorded,State.persist] using ends
  · simp only [State.Recorded,State.persist,update_of_ne same]
    exact sound.recorded other (by rw [place]; exact fun here => same (Option.some.inj here).symm)

variable {t : State Stream}

theorem sound_rest (sound : Sound settings s) (clock : t.clock = s.clock)
    (candles : t.candles = s.candles) (published : t.published = s.published)
    (ids : t.publishedEventIds = s.publishedEventIds ∨ t.publishedEventIds = [])
    (recorded : ∀ stream, t.Recorded stream) (rest : t.phase = .idle ∨ t.phase = .down) : Sound settings t where
  spaced := by
    rw [candles]
    exact sound.spaced
  opened := by
    rw [candles,clock]
    exact sound.opened
  stretch := by
    rw [candles,published]
    exact sound.stretch
  closed := by
    rw [published,clock]
    exact sound.closed
  remembered := by
    rw [published]
    rcases ids with same | gone
    · rw [same]
      exact sound.remembered
    · rw [gone]
      nofun
  recorded stream _ := recorded stream
  known := by
    rcases rest with idle | down
    · rw [idle]
      trivial
    · rw [down]
      trivial

theorem recorded_of_cutOff (sound : Sound settings s)
    (cutOff : CutOff s false s.phase) (stream : Stream) : s.Recorded stream := by
  by_cases here : s.phase.publishes = some stream
  · cases place : s.phase with
    | idle | down | normalizing => rw [place] at here; cases here
    | publishing current bars last =>
      rw [place] at here cutOff
      cases here
      cases bars with
      | nil => exact cutOff.resolve_left nofun
      | cons bar bars => exact cutOff.2
  · exact sound.recorded stream here

theorem sound_fails (sound : Sound settings s) {executed : Bool}
    (cutOff : CutOff s executed s.phase) (stepped : step settings s (.fails executed) = some t) : Sound settings t := by
  simp only [step] at stepped
  split at stepped
  · next stream bar bars last place =>
    rw [place] at cutOff
    obtain ⟨rfl,recorded⟩ := cutOff
    have all := recorded_of_cutOff sound (by rw [place]; exact ⟨rfl,recorded⟩)
    split at stepped
    · cases stepped
    · cases stepped
      exact sound_rest sound rfl rfl rfl (.inl rfl) all (.inr rfl)
  · next stream last place =>
    cases stepped
    cases executed with
    | true => exact sound_rest sound rfl rfl rfl (.inl rfl) (persist_recorded sound place) (.inr rfl)
    | false =>
      have all := recorded_of_cutOff sound cutOff
      exact sound_rest sound rfl rfl rfl (.inl rfl) all (.inr rfl)
  · cases stepped

theorem sound_step (settings : Settings Stream) (s : State Stream) (label : Label Stream) (t : State Stream)
    (sound : Sound settings s) (undisturbed : Undisturbed s label) (stepped : step settings s label = some t) :
    Sound settings t := by
  cases label with
  | tick millis =>
    cases stepped
    exact sound_tick sound millis
  | candle stream openTime =>
    simp only [step] at stepped
    split_ifs at stepped with opens
    cases stepped
    exact sound_candle sound opens.1 opens.2
  | poll stream =>
    simp only [step] at stepped
    split_ifs at stepped with idle
    cases stepped
    exact sound_poll sound idle.1 stream
  | pollFails stream =>
    simp only [step] at stepped
    split_ifs at stepped
    cases stepped
    exact sound
  | normalize =>
    simp only [step] at stepped
    split at stepped
    · next place =>
      cases stepped
      exact sound_normalize sound place
    · next place =>
      cases stepped
      exact sound_normalized sound place
    · cases stepped
  | publish =>
    simp only [step] at stepped
    split at stepped
    · next place =>
      cases stepped
      exact sound_publish sound place
    · cases stepped
  | persist =>
    simp only [step] at stepped
    split at stepped
    · next place =>
      cases stepped
      exact sound_rest sound rfl rfl rfl (.inl rfl) (persist_recorded sound place) (.inl rfl)
    · cases stepped
  | fails executed => exact sound_fails sound undisturbed stepped
  | restart =>
    cases stepped
    have all := recorded_of_cutOff sound undisturbed
    exact sound_rest sound rfl rfl rfl (.inr rfl) all (.inl rfl)

/-- What the collector has published of a stream is a stretch of its candles. -/
theorem gapless {settings : Settings Stream} {clock : Nat} {labels : List (Label Stream)} {t : State Stream}
    (undisturbed : Meets (step settings) Undisturbed (initial clock) labels)
    (ran : run (step settings) (initial clock) labels = some t) (stream : Stream) :
    Gapless (t.candles stream) (t.published stream) := by
  have sound := run_keeps (sound_step settings) (sound_initial settings clock) undisturbed ran
  exact gapless_of_infix (sound.spaced stream) (sound.stretch stream)

end

def minutes : Settings Unit where
  timeframeMillis _ := some 60000
  backfillLimit := 8
  eventIdCacheLimit := 100000
/-- A poll that publishes two bars, one that fails, and one after a restart that publishes the next. -/
def threeMinutes : List (Label Unit) :=
  [.candle () 0,.tick 60000,.candle () 60000,.tick 60000,.candle () 120000,.poll (),.normalize,.normalize,.normalize,.normalize,
    .publish,.publish,.persist,.tick 121000,.pollFails (),.restart,.candle () 180000,.poll (),.normalize,.normalize,.normalize,
    .normalize,.publish,.publish,.persist]
theorem gapless_threeMinutes : ∃ t, run (step minutes) (initial 0) threeMinutes = some t ∧
    t.published () = [0,60000,120000,180000] ∧ Gapless (t.candles ()) (t.published ()) := by
  have published : (run (step minutes) (initial 0) threeMinutes).map (fun t => t.published ()) =
      some [0,60000,120000,180000] := by decide
  obtain ⟨t,ran,same⟩ := Option.map_eq_some_iff.mp published
  have undisturbed : Meets (step minutes) Undisturbed (initial 0) threeMinutes := by decide
  exact ⟨t,ran,same,gapless undisturbed ran ()⟩

/-- Redis fails after the first of three bars, and the next process publishes it again. -/
theorem repeated : ¬ ∀ (settings : Settings Unit) (clock : Nat) (labels : List (Label Unit)) (t : State Unit),
    2 ≤ settings.backfillLimit → run (step settings) (initial clock) labels = some t →
      ∀ stream, Gapless (t.candles stream) (t.published stream) := by
  intro all
  have one := all minutes 200000
    [.candle () 0,.candle () 60000,.candle () 120000,.poll (),.normalize,.normalize,.normalize,.normalize,.publish,.fails false,
      .restart,.poll (),.normalize,.normalize,.normalize,.normalize,.publish] _ (by decide) rfl ()
  exact absurd one.increasing (by decide)
end Codebot.BarCollector
