import Codebot.MarketStreams
import Mathlib.Algebra.Order.Ring.Int

/-!
The bars that one runtime's session is fed over the calls of `run_once`. The warm-up
of a runtime without a cursor begins with the newest bars of the stream, the live
reads with its oldest. The bars are fed in their order if each such warm-up finds all
the bars of the stream or none (`bars_increasing`).
-/
namespace Codebot.BarOrder
open Runs Memories PaperSessions MarketStreams List
open NautilusRuntimes (EventType)

/-- A call of `run_once`: its lease is renewed, Nautilus and Redis do this, and the cursor
    is persisted. -/
structure Call (Amount : Type) where
  leased : Bool
  engine : Engine Amount
  reads : Reads
  persisted : Bool
inductive Label (Amount : Type)
  | arrive (entry : StreamEntry Amount)
  | runOnce (call : Call Amount)
/-- The bar stream, the stored cursor and the session of the runtime. -/
structure World (Amount : Type) where
  stream : List (StreamEntry Amount)
  cursor : Nat
  session : NautilusRuntimeSession Amount

section
variable {Amount : Type} [LinearOrder Amount] [Zero Amount] [Add Amount] [Sub Amount] [Mul Amount] [Div Amount]

def initial [NatCast Amount] : World Amount := ⟨[],0,.new⟩

/-- Redis gives an entry an id above those that are there. -/
def step (batchSize : Nat) (runtime : NautilusRuntimeRecord Amount) (world : World Amount) :
    Label Amount → Option (World Amount)
  | .arrive entry =>
    if 0 < entry.id ∧ ∀ old ∈ world.stream, old.id < entry.id then some { world with stream := world.stream ++ [entry] }
    else none
  | .runOnce call =>
    if call.leased then
      let consumed := consumeMarketData batchSize runtime call.engine call.reads world.stream world.cursor world.session
      some { world with
        session := consumed.1
        cursor := if call.persisted then consumed.2.2.getD world.cursor else world.cursor }
    else some world
end

variable {Amount : Type}
def fedIds (bars : List (NativeMarketMessage Amount)) : List Nat :=
  bars.filterMap fun bar =>
    match bar.streamId with
    | .entry id => some id
    | .warmup _ => none
def Increasing (world : World Amount) : Prop := (fedIds world.session.fed).Pairwise (· < ·)
def closedBars (stream : List (StreamEntry Amount)) : List (StreamEntry Amount) := stream.filter (·.closed)

/-- Every entry has an event id of its own, a call reads no more bars than are remembered, and a first warm-up finds all
    closed bars or none. -/
def Orderly (batchSize : Nat) (runtime : NautilusRuntimeRecord Amount) (world : World Amount) : Label Amount → Prop
  | .arrive entry => entry.eventId ∉ world.stream.map (·.eventId)
  | .runOnce call =>
    runtimeWarmupBackfillLimit runtime + batchSize ≤ maxSessionSourceEventIds ∧
      (call.leased → world.cursor = 0 → needsWarmupBackfill world.session → call.reads.backfillFails = false →
        let newest := xrevrange world.stream 0 (runtimeWarmupBackfillLimit runtime)
        closedBars newest = [] ∨ ∀ entry ∈ closedBars world.stream, entry ∈ newest)

instance [DecidableEq Amount] (batchSize : Nat) (runtime : NautilusRuntimeRecord Amount) (world : World Amount) :
    ∀ label, Decidable (Orderly batchSize runtime world label)
  | .arrive entry => inferInstanceAs (Decidable (entry.eventId ∉ world.stream.map (·.eventId)))
  | .runOnce call => inferInstanceAs (Decidable (_ ∧ (call.leased = true → world.cursor = 0 →
      needsWarmupBackfill world.session = true → call.reads.backfillFails = false →
        closedBars (xrevrange world.stream 0 (runtimeWarmupBackfillLimit runtime)) = [] ∨ ∀ entry ∈ closedBars world.stream,
          entry ∈ xrevrange world.stream 0 (runtimeWarmupBackfillLimit runtime))))
instance (world : World Amount) : Decidable (Increasing world) := inferInstanceAs (Decidable (List.Pairwise _ _))

variable {stream : List (StreamEntry Amount)}

theorem split_at (sorted : stream.Pairwise (·.id < ·.id)) (id : Nat) :
    stream.filter (fun entry => entry.id ≤ id) = stream.take (stream.filter fun entry => entry.id ≤ id).length ∧
      stream.filter (fun entry => id < entry.id) = stream.drop (stream.filter fun entry => entry.id ≤ id).length := by
  induction stream with
  | nil => exact ⟨rfl,rfl⟩
  | cons entry rest ih =>
    obtain ⟨first,later⟩ := pairwise_cons.mp sorted
    obtain ⟨front,back⟩ := ih later
    by_cases upTo : entry.id ≤ id
    · have notAbove : ¬ id < entry.id := by omega
      simp only [filter_cons,upTo,notAbove,decide_true,decide_false,if_true,if_false,Bool.false_eq_true,
        length_cons,take_succ_cons,drop_succ_cons]
      exact ⟨by rw [← front],back⟩
    · have above : id < entry.id := by omega
      have none : rest.filter (fun entry => entry.id ≤ id) = [] := by
        refine filter_eq_nil_iff.mpr ?_
        intro other member
        have := first other member
        simp only [decide_eq_true_eq]
        omega
      have all : rest.filter (fun entry => id < entry.id) = rest := by
        refine filter_eq_self.mpr ?_
        intro other member
        have := first other member
        simp only [decide_eq_true_eq]
        omega
      simp [upTo,above,none,all]

def behind (stream : List (StreamEntry Amount)) (id : Nat) : Nat :=
  ((closedBars stream).filter fun entry => entry.id ≤ id).length
theorem closed_sorted (sorted : stream.Pairwise (·.id < ·.id)) : (closedBars stream).Pairwise (·.id < ·.id) :=
  sorted.sublist filter_sublist

theorem closed_xread (sorted : stream.Pairwise (·.id < ·.id)) (cursor count : Nat) :
    let m := (closedBars (xread stream cursor count)).length
    m ≤ count ∧ behind stream cursor + m ≤ (closedBars stream).length ∧
      closedBars (xread stream cursor count) =
        ((closedBars stream).take (behind stream cursor + m)).drop (behind stream cursor) := by
  have front : closedBars (xread stream cursor count) <+: (closedBars stream).drop (behind stream cursor) := by
    rw [behind,← (split_at (closed_sorted sorted) cursor).2]
    have pre := (List.take_prefix count (stream.filter fun entry => cursor < entry.id)).filter (·.closed)
    rw [filter_comm] at pre
    exact pre
  have begun : behind stream cursor ≤ (closedBars stream).length := length_filter_le _ _
  refine ⟨?_,?_,?_⟩
  · refine Nat.le_trans (length_filter_le _ _) ?_
    rw [xread,length_take]
    exact Nat.min_le_left _ _
  · have length := front.length_le
    rw [length_drop] at length
    omega
  · conv_lhs => rw [prefix_iff_eq_take.mp front]
    exact take_drop

variable {cursor : Nat}

theorem closed_xrevrange (sorted : stream.Pairwise (·.id < ·.id)) (set : cursor ≠ 0) (count : Nat) :
    ∃ low, behind stream cursor ≤ low + count ∧ low ≤ behind stream cursor ∧
      closedBars (xrevrange stream cursor count) = ((closedBars stream).take (behind stream cursor)).drop low := by
  have upTo : (stream.filter fun entry => cursor = 0 || entry.id ≤ cursor) = stream.filter fun entry => entry.id ≤ cursor := by
    simp [set]
  have back : closedBars (xrevrange stream cursor count) <:+ (closedBars stream).take (behind stream cursor) := by
    rw [behind,← (split_at (closed_sorted sorted) cursor).1,xrevrange,upTo]
    have pre := (drop_suffix ((stream.filter fun entry => entry.id ≤ cursor).length - count)
      (stream.filter fun entry => entry.id ≤ cursor)).filter (·.closed)
    rw [filter_comm] at pre
    exact pre
  have few : (closedBars (xrevrange stream cursor count)).length ≤ count := by
    refine Nat.le_trans (length_filter_le _ _) ?_
    rw [xrevrange,length_drop]
    omega
  have length : ((closedBars stream).take (behind stream cursor)).length = behind stream cursor := by
    rw [length_take]
    exact Nat.min_eq_left (length_filter_le _ _)
  refine ⟨behind stream cursor - (closedBars (xrevrange stream cursor count)).length,by omega,Nat.sub_le _ _,?_⟩
  conv_lhs => rw [suffix_iff_eq_drop.mp back]
  rw [length]

variable {count : Nat}

theorem behind_live (sorted : stream.Pairwise (·.id < ·.id))
    {last : StreamEntry Amount} (isLast : (xread stream cursor count).getLast? = some last) :
    behind stream cursor ≤ behind stream last.id ∧
      behind stream last.id ≤ behind stream cursor + (closedBars (xread stream cursor count)).length := by
  obtain ⟨front,live⟩ := getLast?_eq_some_iff.mp isLast
  have later : cursor < last.id := by
    have member : last ∈ xread stream cursor count := by rw [live]; simp
    exact of_decide_eq_true (mem_filter.mp (mem_of_mem_take member)).2
  constructor
  · refine (monotone_filter_right (closedBars stream) ?_).length_le
    intro entry upTo
    simp only [decide_eq_true_eq] at upTo ⊢
    omega
  · have whole : stream = stream.filter (fun entry => entry.id ≤ cursor) ++
        (xread stream cursor count ++ (stream.filter fun entry => cursor < entry.id).drop count) := by
      obtain ⟨before,after⟩ := split_at sorted cursor
      rw [xread,take_append_drop]
      conv_lhs => rw [← take_append_drop (stream.filter fun entry => entry.id ≤ cursor).length stream,← before,← after]
    have above : ∀ entry ∈ (stream.filter fun entry => cursor < entry.id).drop count, ¬ entry.id ≤ last.id := by
      have ordered := sorted
      rw [whole,live,append_assoc] at ordered
      intro entry member
      have order := (pairwise_append.mp (pairwise_append.mp (pairwise_append.mp ordered).2.1).2.1).2.2
      have := order last mem_cons_self entry member
      omega
    have nothing : (closedBars ((stream.filter fun entry => cursor < entry.id).drop count)).filter
        (fun entry => entry.id ≤ last.id) = [] := by
      refine filter_eq_nil_iff.mpr ?_
      intro entry member
      simpa using above entry (mem_filter.mp member).1
    have passed : behind stream last.id ≤ (closedBars (stream.filter fun entry => entry.id ≤ cursor)).length +
        (closedBars (xread stream cursor count)).length := by
      rw [behind]
      conv_lhs => rw [whole]
      simp only [closedBars,filter_append] at nothing ⊢
      rw [nothing,append_nil,length_append]
      exact Nat.add_le_add (length_filter_le _ _) (length_filter_le _ _)
    refine Nat.le_trans passed (Nat.le_of_eq ?_)
    simp only [behind,closedBars]
    rw [filter_comm]

variable {seen : List StreamId}

theorem merge_distinct {messages : List (NativeMarketMessage Amount)} (distinct : (messages.map (·.streamId)).Nodup) :
    mergeMarketMessages seen messages = messages.filter fun message => message.streamId ∉ seen := by
  induction messages generalizing seen with
  | nil => rfl
  | cons message rest ih =>
    obtain ⟨new,later⟩ := nodup_cons.mp distinct
    rw [mergeMarketMessages]
    by_cases known : message.streamId ∈ seen
    · rw [if_pos known,ih later,filter_cons_of_neg (by simpa using known)]
    · rw [if_neg known,ih later,filter_cons_of_pos (by simpa using known)]
      congr 1
      refine filter_congr ?_
      intro other member
      have differs : other.streamId ≠ message.streamId := by
        intro same
        exact new (mem_map.mpr ⟨other,member,same⟩)
      simp [differs]

theorem merge_append {first second : List (NativeMarketMessage Amount)}
    (distinct : (first.map (·.streamId)).Nodup) (foreign : ∀ message ∈ first, message.streamId ∉ seen)
    (distinctLater : (second.map (·.streamId)).Nodup) :
    mergeMarketMessages seen (first ++ second) =
      first ++ second.filter fun message => message.streamId ∉ first.map (·.streamId) ∧ message.streamId ∉ seen := by
  induction first generalizing seen with
  | nil => simp [merge_distinct distinctLater]
  | cons message rest ih =>
    obtain ⟨new,later⟩ := nodup_cons.mp distinct
    obtain ⟨here,foreignLater⟩ := forall_mem_cons.mp foreign
    rw [cons_append,mergeMarketMessages,if_neg here,ih later,cons_append]
    · congr 2
      refine filter_congr ?_
      intro other member
      simp only [mem_cons,map_cons,decide_eq_decide]
      tauto
    · intro other member
      rw [mem_cons]
      rintro (same | known)
      · exact new (mem_map.mpr ⟨other,member,same⟩)
      · exact foreignLater other member known

def closedMessages (stream : List (StreamEntry Amount)) : List (NativeMarketMessage Amount) :=
  (closedBars stream).map (·.message)
theorem closed_messages (entries : List (StreamEntry Amount)) :
    (entries.map (·.message)).filter (·.closed) = closedMessages entries := by
  rw [filter_map]
  rfl

/-- What the session has taken up: the first `t` closed bars of the stream. -/
structure Taken (batchSize limit : Nat) (world : World Amount) (t : Nat) : Prop where
  bounded : t ≤ (closedBars world.stream).length
  remembered : world.session.processed =
    recent maxSessionSourceEventIds (((closedMessages world.stream).take t).map (·.sourceEventId))
  fed : (fedIds world.session.fed).Sublist (((closedBars world.stream).take t).map (·.id))
  passed : behind world.stream world.cursor ≤ t
  near : t ≤ limit ∨ t ≤ behind world.stream world.cursor + batchSize

structure Sound (batchSize limit : Nat) (world : World Amount) : Prop where
  sorted : world.stream.Pairwise (·.id < ·.id)
  positive : ∀ entry ∈ world.stream, 0 < entry.id
  distinct : (world.stream.map (·.eventId)).Nodup
  cursor : world.cursor = 0 ∨ ∃ entry ∈ world.stream, entry.id = world.cursor
  taken : ∃ t, Taken batchSize limit world t

variable {batchSize limit : Nat} {world : World Amount}

theorem live_closed (sound : Sound batchSize limit world) (reads : Reads) :
    let live := liveEntries batchSize reads world.stream world.cursor
    let m := (closedBars live).length
    let n := behind world.stream world.cursor
    m ≤ batchSize ∧ n + m ≤ (closedBars world.stream).length ∧
      closedBars live = ((closedBars world.stream).take (n + m)).drop n ∧
      (∀ last, live.getLast? = some last → n ≤ behind world.stream last.id ∧ behind world.stream last.id ≤ n + m) ∧
      ∀ entry ∈ live, world.cursor < entry.id ∧ entry ∈ world.stream := by
  intro live m n
  by_cases fails : reads.readFails
  · have nothing : live = [] := by simp only [live,liveEntries,fails,if_true]
    have length : m = 0 := by simp only [m,nothing]; rfl
    have begun : n ≤ (closedBars world.stream).length := length_filter_le _ _
    refine ⟨by omega,by omega,?_,?_,?_⟩
    · rw [length,Nat.add_zero,nothing,eq_comm]
      show _ = []
      rw [drop_eq_nil_iff,length_take]
      exact Nat.min_le_left _ _
    · intro last isLast
      rw [nothing] at isLast
      cases isLast
    · intro entry member
      rw [nothing] at member
      cases member
  · have isRead : live = xread world.stream world.cursor batchSize := by
      simp only [live,liveEntries,fails,if_false,Bool.false_eq_true]
    obtain ⟨few,inside,part⟩ := closed_xread sound.sorted world.cursor batchSize
    simp only [m,isRead]
    refine ⟨few,inside,part,fun last isLast => behind_live sound.sorted isLast,?_⟩
    intro entry member
    obtain ⟨inStream,above⟩ := mem_filter.mp (mem_of_mem_take member)
    exact ⟨of_decide_eq_true above,inStream⟩

/-- The closed entries that a warm-up finds. -/
def backfilled (runtime : NautilusRuntimeRecord Amount) (reads : Reads) (stream : List (StreamEntry Amount)) (cursor : Nat) :
    List (StreamEntry Amount) :=
  if runtimeWarmupBackfillLimit runtime = 0 || reads.backfillFails then []
  else closedBars (xrevrange stream cursor (runtimeWarmupBackfillLimit runtime))
theorem warmupBackfill_eq (runtime : NautilusRuntimeRecord Amount) (reads : Reads) (stream : List (StreamEntry Amount))
    (cursor : Nat) : warmupBackfillMessages runtime reads stream cursor = (backfilled runtime reads stream cursor).map (·.message) := by
  unfold warmupBackfillMessages backfilled
  split <;> rfl
theorem entry_streamId (entry : StreamEntry Amount) : entry.message.streamId = .entry entry.id := rfl
theorem streamIds_distinct {entries : List (StreamEntry Amount)} (sorted : entries.Pairwise (·.id < ·.id)) :
    ((entries.map (·.message)).map (·.streamId)).Nodup := by
  rw [map_map]
  refine pairwise_map.mpr (sorted.imp ?_)
  intro a b below same
  have := StreamId.entry.inj same
  omega

variable {live : List (StreamEntry Amount)}

theorem merged_closed {back : List (StreamEntry Amount)} (backSorted : back.Pairwise (·.id < ·.id))
    (liveSorted : live.Pairwise (·.id < ·.id)) (closed : ∀ entry ∈ back, entry.closed) :
    (mergeMarketMessages [] (back.map (·.message) ++ live.map (·.message))).filter (·.closed) =
      back.map (·.message) ++ ((closedBars live).filter fun entry => entry.id ∉ back.map (·.id)).map (·.message) := by
  rw [merge_append (streamIds_distinct backSorted) (fun message _ => not_mem_nil) (streamIds_distinct liveSorted),
    filter_append]
  congr 1
  · refine filter_eq_self.mpr ?_
    intro message member
    obtain ⟨entry,isBack,rfl⟩ := mem_map.mp member
    exact closed entry isBack
  · rw [filter_comm,closed_messages,closedMessages,filter_map]
    congr 1
    refine filter_congr ?_
    intro entry member
    simp [entry_streamId]

theorem newest_all (sorted : stream.Pairwise (·.id < ·.id))
    (all : ∀ entry ∈ closedBars stream, entry ∈ xrevrange stream 0 count) :
    closedBars (xrevrange stream 0 count) = closedBars stream ∧ (closedBars stream).length ≤ count := by
  have newest : xrevrange stream 0 count = stream.drop (stream.length - count) := by simp [xrevrange]
  have older : closedBars (stream.take (stream.length - count)) = [] := by
    refine filter_eq_nil_iff.mpr ?_
    intro entry member closed
    have again := all entry (mem_filter.mpr ⟨mem_of_mem_take member,closed⟩)
    rw [newest] at again
    have ordered := sorted
    rw [← take_append_drop (stream.length - count) stream] at ordered
    have := (pairwise_append.mp ordered).2.2 entry member entry again
    omega
  have whole : closedBars (xrevrange stream 0 count) = closedBars stream := by
    conv_rhs => rw [← take_append_drop (stream.length - count) stream]
    rw [newest,closedBars,closedBars,filter_append]
    rw [closedBars] at older
    rw [older,nil_append]
  refine ⟨whole,?_⟩
  rw [← whole,newest]
  refine Nat.le_trans (length_filter_le _ _) ?_
  rw [length_drop]
  omega

/-- The bars that a call gives are a part of the closed bars that begins with one that is not forgotten or with the
    next, and reaches as far as the live entries. -/
structure Part (batchSize limit : Nat) (world : World Amount) (t : Nat) (live : List (StreamEntry Amount))
    (bars : List (NativeMarketMessage Amount)) (low high : Nat) : Prop where
  bars : bars = ((closedMessages world.stream).take high).drop low
  begins : low ≤ t
  kept : t ≤ low + maxSessionSourceEventIds
  inside : high ≤ (closedBars world.stream).length
  near : high ≤ limit ∨ high ≤ behind world.stream world.cursor + batchSize
  passes : ∀ last, live.getLast? = some last →
    behind world.stream world.cursor ≤ behind world.stream last.id ∧ behind world.stream last.id ≤ high

variable {runtime : NautilusRuntimeRecord Amount} {t : Nat}

theorem bars_given {reads : Reads} (sound : Sound batchSize (runtimeWarmupBackfillLimit runtime) world)
    (taken : Taken batchSize (runtimeWarmupBackfillLimit runtime) world t)
    (fits : runtimeWarmupBackfillLimit runtime + batchSize ≤ maxSessionSourceEventIds)
    (found : world.cursor = 0 → needsWarmupBackfill world.session → reads.backfillFails = false →
      closedBars (xrevrange world.stream 0 (runtimeWarmupBackfillLimit runtime)) = [] ∨
        ∀ entry ∈ closedBars world.stream, entry ∈ xrevrange world.stream 0 (runtimeWarmupBackfillLimit runtime)) :
    ∃ low high, Part batchSize (runtimeWarmupBackfillLimit runtime) world t
      (liveEntries batchSize reads world.stream world.cursor)
      ((marketMessages batchSize runtime reads world.stream world.cursor world.session).filter (·.closed)) low high := by
  obtain ⟨few,inside,part,passes,above⟩ := live_closed sound reads
  have near := taken.near
  have passed := taken.passed
  have liveSorted : (liveEntries batchSize reads world.stream world.cursor).Pairwise (·.id < ·.id) := by
    unfold liveEntries
    split
    · exact List.Pairwise.nil
    · exact (sound.sorted.sublist filter_sublist).sublist (take_sublist _ _)
  generalize isLive : liveEntries batchSize reads world.stream world.cursor = live at few inside part passes above liveSorted
  generalize (closedBars live).length = m at few inside part passes
  -- Without bars of a warm-up the live ones are given.
  have alone (same : (marketMessages batchSize runtime reads world.stream world.cursor world.session).filter (·.closed) =
      closedMessages live) : ∃ low high, Part batchSize (runtimeWarmupBackfillLimit runtime) world t live
        ((marketMessages batchSize runtime reads world.stream world.cursor world.session).filter (·.closed)) low high := by
    refine ⟨behind world.stream world.cursor,behind world.stream world.cursor + m,?_,passed,by omega,
      inside,.inr (by omega),passes⟩
    rw [same,closedMessages,part,closedMessages,map_drop,map_take]
  by_cases needs : needsWarmupBackfill world.session
  · have merged : marketMessages batchSize runtime reads world.stream world.cursor world.session =
        mergeMarketMessages [] ((backfilled runtime reads world.stream world.cursor).map (·.message) ++ live.map (·.message)) := by
      simp only [marketMessages,needs,if_true,warmupBackfill_eq,isLive]
    by_cases none : backfilled runtime reads world.stream world.cursor = []
    · refine alone ?_
      rw [merged,none,merged_closed List.Pairwise.nil liveSorted (forall_mem_nil _)]
      simp [closedMessages]
    have reads' : reads.backfillFails = false ∧ backfilled runtime reads world.stream world.cursor =
        closedBars (xrevrange world.stream world.cursor (runtimeWarmupBackfillLimit runtime)) := by
      unfold backfilled at none ⊢
      split at none
      · exact absurd rfl none
      · rename_i reading
        rw [if_neg reading]
        simp only [Bool.or_eq_true,decide_eq_true_eq,not_or,Bool.not_eq_true] at reading
        exact ⟨reading.2,rfl⟩
    obtain ⟨succeeds,isBack⟩ := reads'
    have backSorted : (backfilled runtime reads world.stream world.cursor).Pairwise (·.id < ·.id) := by
      rw [isBack]
      exact closed_sorted ((sound.sorted.sublist filter_sublist).sublist (drop_sublist _ _))
    have closed : ∀ entry ∈ backfilled runtime reads world.stream world.cursor, entry.closed := by
      rw [isBack]
      exact fun entry member => (mem_filter.mp member).2
    have same := merged_closed backSorted liveSorted closed
    rw [← merged] at same
    by_cases set : world.cursor = 0
    · rw [set] at isBack
      have all : ∀ entry ∈ closedBars world.stream, entry ∈ xrevrange world.stream 0 (runtimeWarmupBackfillLimit runtime) := by
        rcases found set needs succeeds with nothing | all
        · rw [set,isBack] at none
          exact absurd nothing none
        · exact all
      obtain ⟨whole,few⟩ := newest_all sound.sorted all
      have known : (closedBars live).filter (fun entry => entry.id ∉ (backfilled runtime reads world.stream world.cursor).map (·.id)) =
          [] := by
        refine filter_eq_nil_iff.mpr ?_
        intro entry member
        obtain ⟨isEntry,isClosed⟩ := mem_filter.mp member
        have inStream : entry ∈ closedBars world.stream := mem_filter.mpr ⟨(above entry isEntry).2,isClosed⟩
        rw [decide_eq_true_eq,not_not,set,isBack,whole]
        exact mem_map_of_mem inStream
      have bounded := taken.bounded
      refine ⟨0,(closedBars world.stream).length,?_,Nat.zero_le _,by omega,Nat.le_refl _,.inl few,?_⟩
      · rw [same,known,map_nil,append_nil,set,isBack,whole,drop_zero]
        have length : (closedMessages world.stream).length = (closedBars world.stream).length := length_map _
        rw [← length,take_length]
        rfl
      · intro last isLast
        obtain ⟨later,upTo⟩ := passes last isLast
        exact ⟨later,by omega⟩
    · obtain ⟨low,reaches,before,isPart⟩ := closed_xrevrange sound.sorted set (runtimeWarmupBackfillLimit runtime)
      rw [isPart] at isBack
      have foreign : (closedBars live).filter (fun entry => entry.id ∉ (backfilled runtime reads world.stream world.cursor).map (·.id)) =
          closedBars live := by
        refine filter_eq_self.mpr ?_
        intro entry member
        rw [decide_eq_true_eq,isBack]
        intro known
        obtain ⟨old,isOld,sameId⟩ := mem_map.mp known
        have upTo := mem_of_mem_drop isOld
        rw [behind,← (split_at (closed_sorted sound.sorted) world.cursor).1] at upTo
        have := of_decide_eq_true (mem_filter.mp upTo).2
        have := (above entry (mem_filter.mp member).1).1
        omega
      refine ⟨low,behind world.stream world.cursor + m,?_,by omega,by omega,inside,.inr (by omega),passes⟩
      rw [same,foreign,isBack,part,← map_append,closedMessages,← map_take,← map_drop]
      congr 1
      conv_rhs => rw [← take_append_drop (behind world.stream world.cursor)
        ((closedBars world.stream).take (behind world.stream world.cursor + m))]
      rw [take_take,Nat.min_eq_left (Nat.le_add_right _ _),drop_append_of_le_length]
      rw [length_take]
      omega
  · refine alone ?_
    simp only [marketMessages,needs,if_false,isLive,Bool.false_eq_true]
    exact closed_messages live

theorem fedIds_append (bars more : List (NativeMarketMessage Amount)) : fedIds (bars ++ more) = fedIds bars ++ fedIds more :=
  filterMap_append

variable {bars : List (NativeMarketMessage Amount)}
theorem fedIds_manifest (ofManifest : OfManifest bars) : fedIds bars = [] := by
  refine filterMap_eq_nil_iff.mpr ?_
  intro bar member
  obtain ⟨index,isWarmup⟩ := ofManifest bar member
  simp only [isWarmup]
theorem fedIds_messages (entries : List (StreamEntry Amount)) : fedIds (entries.map (·.message)) = entries.map (·.id) := by
  rw [fedIds,filterMap_map]
  exact filterMap_eq_map ▸ rfl
theorem messages_keys (stream : List (StreamEntry Amount)) :
    (closedMessages stream).map (·.sourceEventId) = (closedBars stream).map (·.eventId) := by
  rw [closedMessages,map_map]
  rfl

theorem taken_after {low high : Nat}
    {warmups given : List (NativeMarketMessage Amount)} {session : NautilusRuntimeSession Amount}
    (sound : Sound batchSize limit world) (taken : Taken batchSize limit world t)
    (part : Part batchSize limit world t live bars low high) (ofManifest : OfManifest warmups)
    (fed : session.fed = world.session.fed ++ (warmups ++ given))
    (outcome : (session.processed = world.session.processed ∧ given = [] ∧ (cursor = world.cursor ∨ bars = [])) ∨
      (session.processed = (takeUp maxSessionSourceEventIds (·.sourceEventId) world.session.processed bars).1 ∧
        given <+: (takeUp maxSessionSourceEventIds (·.sourceEventId) world.session.processed bars).2))
    (valid : cursor = world.cursor ∨ ∃ last, live.getLast? = some last ∧ cursor = last.id) :
    ∃ t, Taken batchSize limit { world with session, cursor } t := by
  have passed := taken.passed
  have near := taken.near
  have farther : behind world.stream world.cursor ≤ behind world.stream cursor := by
    rcases valid with same | ⟨last,isLast,same⟩
    · rw [same]
    · rw [same]
      exact (part.passes last isLast).1
  have reaches : behind world.stream cursor ≤ behind world.stream world.cursor ∨ behind world.stream cursor ≤ high := by
    rcases valid with same | ⟨last,isLast,same⟩
    · exact .inl (by rw [same])
    · exact .inr (by rw [same]; exact (part.passes last isLast).2)
  rcases outcome with ⟨kept,nothing,still⟩ | ⟨processed,first⟩
  · refine ⟨t,taken.bounded,kept.trans taken.remembered,?_,?_,?_⟩
    · show (fedIds session.fed).Sublist _
      rw [fed,nothing,append_nil,fedIds_append,fedIds_manifest ofManifest,append_nil]
      exact taken.fed
    · show behind world.stream cursor ≤ t
      rcases still with same | empty
      · rw [same]
        exact passed
      · have begins := part.begins
        have inside := part.inside
        have nothing := part.bars
        rw [empty,eq_comm,drop_eq_nil_iff,length_take,closedMessages,length_map] at nothing
        omega
    · show t ≤ limit ∨ t ≤ behind world.stream cursor + batchSize
      omega
  · have distinct : ((closedMessages world.stream).map (·.sourceEventId)).Nodup := by
      rw [messages_keys]
      exact sound.distinct.sublist (filter_sublist.map _)
    have inside : t ≤ (closedMessages world.stream).length := by
      rw [closedMessages,length_map]
      exact taken.bounded
    rw [part.bars,taken.remembered] at processed first
    rw [takeUp_part distinct part.begins part.kept inside] at processed first
    have bounded := part.inside
    have nearHigh := part.near
    refine ⟨max t high,Nat.max_le.mpr ⟨taken.bounded,bounded⟩,?_,?_,?_,?_⟩
    · show session.processed = recent maxSessionSourceEventIds
        (((closedMessages world.stream).take (max t high)).map (·.sourceEventId))
      rw [processed]
    · show (fedIds session.fed).Sublist (((closedBars world.stream).take (max t high)).map (·.id))
      rw [fed,fedIds_append,fedIds_append,fedIds_manifest ofManifest,nil_append]
      have more : (fedIds given).Sublist ((((closedBars world.stream).take high).drop t).map (·.id)) := by
        rw [← fedIds_messages,map_drop,map_take]
        exact first.sublist.filterMap _
      have whole : (closedBars world.stream).take (max t high) =
          (closedBars world.stream).take t ++ ((closedBars world.stream).take high).drop t := by
        by_cases done : high ≤ t
        · have nothing : ((closedBars world.stream).take high).drop t = [] := by
            rw [drop_eq_nil_iff,length_take]
            omega
          rw [nothing,append_nil,Nat.max_eq_left done]
        · rw [Nat.max_eq_right (by omega)]
          conv_lhs => rw [← take_append_drop t ((closedBars world.stream).take high)]
          rw [take_take,Nat.min_eq_left (by omega)]
      rw [whole,map_append]
      exact taken.fed.append more
    · show behind world.stream cursor ≤ max t high
      rcases reaches with before | upTo
      · exact Nat.le_trans before (Nat.le_trans passed (Nat.le_max_left _ _))
      · exact Nat.le_trans upTo (Nat.le_max_right _ _)
    · show max t high ≤ limit ∨ max t high ≤ behind world.stream cursor + batchSize
      rcases Nat.le_total t high with below | above
      · rw [Nat.max_eq_right below]
        omega
      · rw [Nat.max_eq_left above]
        omega

theorem sound_arrive (sound : Sound batchSize limit world)
    {entry : StreamEntry Amount} (positive : 0 < entry.id) (above : ∀ old ∈ world.stream, old.id < entry.id)
    (own : entry.eventId ∉ world.stream.map (·.eventId)) :
    Sound batchSize limit { world with stream := world.stream ++ [entry] } := by
  obtain ⟨t,taken⟩ := sound.taken
  have later : ¬ entry.id ≤ world.cursor := by
    rcases sound.cursor with unset | ⟨old,member,same⟩
    · omega
    · have := above old member
      omega
  have closed : closedBars (world.stream ++ [entry]) = closedBars world.stream ++ closedBars [entry] := filter_append ..
  have same : behind (world.stream ++ [entry]) world.cursor = behind world.stream world.cursor := by
    have none : (closedBars [entry]).filter (fun entry => entry.id ≤ world.cursor) = [] := by
      refine filter_eq_nil_iff.mpr ?_
      intro other member
      rw [mem_singleton.mp (mem_filter.mp member).1]
      simpa using later
    rw [behind,closed,filter_append,none,append_nil,behind]
  have messages : closedMessages (world.stream ++ [entry]) = closedMessages world.stream ++ closedMessages [entry] := by
    rw [closedMessages,closed,map_append]
    rfl
  refine ⟨?_,?_,?_,?_,t,?_,?_,?_,?_,?_⟩
  · exact pairwise_append.mpr ⟨sound.sorted,pairwise_singleton _ _,
      fun old member new isNew => by rw [mem_singleton.mp isNew]; exact above old member⟩
  · intro other member
    rcases mem_append.mp member with old | new
    · exact sound.positive other old
    · rw [mem_singleton.mp new]
      exact positive
  · rw [map_append]
    exact nodup_append'.mpr ⟨sound.distinct,nodup_singleton _,disjoint_singleton.mpr own⟩
  · exact sound.cursor.imp id fun ⟨old,member,same⟩ => ⟨old,mem_append_left _ member,same⟩
  · rw [closed,length_append]
    exact Nat.le_trans taken.bounded (Nat.le_add_right _ _)
  · rw [messages,take_append_of_le_length (by rw [closedMessages,length_map]; exact taken.bounded)]
    exact taken.remembered
  · rw [closed,take_append_of_le_length taken.bounded]
    exact taken.fed
  · rw [same]
    exact taken.passed
  · rw [same]
    exact taken.near

theorem sound_initial [Zero Amount] [NatCast Amount] (batchSize limit : Nat) : Sound batchSize limit (initial : World Amount) := by
  refine ⟨List.Pairwise.nil,forall_mem_nil _,nodup_nil,.inl rfl,0,?_,?_,?_,?_,?_⟩
  · exact Nat.zero_le _
  · exact (recent_few (Nat.zero_le _)).symm
  · exact List.Sublist.refl []
  · exact Nat.le_refl _
  · exact .inl (Nat.zero_le _)

variable [LinearOrder Amount] [Zero Amount] [Add Amount] [Sub Amount] [Mul Amount] [Div Amount]

theorem sound_call {call : Call Amount} (sound : Sound batchSize (runtimeWarmupBackfillLimit runtime) world)
    (fits : runtimeWarmupBackfillLimit runtime + batchSize ≤ maxSessionSourceEventIds)
    (found : world.cursor = 0 → needsWarmupBackfill world.session → call.reads.backfillFails = false →
      closedBars (xrevrange world.stream 0 (runtimeWarmupBackfillLimit runtime)) = [] ∨
        ∀ entry ∈ closedBars world.stream, entry ∈ xrevrange world.stream 0 (runtimeWarmupBackfillLimit runtime)) :
    let consumed := consumeMarketData batchSize runtime call.engine call.reads world.stream world.cursor world.session
    Sound batchSize (runtimeWarmupBackfillLimit runtime)
      { world with
        session := consumed.1
        cursor := if call.persisted then consumed.2.2.getD world.cursor else world.cursor } := by
  intro consumed
  obtain ⟨t,taken⟩ := sound.taken
  obtain ⟨low,high,part⟩ := bars_given sound taken fits found
  by_cases empty : (marketMessages batchSize runtime call.reads world.stream world.cursor world.session).isEmpty
  · have same : consumed = (world.session,[],none) := by simp only [consumed,consumeMarketData,empty,if_true]
    rw [same]
    have cursor : (if call.persisted then (none : Option Nat).getD world.cursor else world.cursor) = world.cursor := by
      split <;> rfl
    rw [cursor]
    exact sound
  obtain ⟨warmups,given,ofManifest,fed,outcome⟩ := nativeRunBarBatch_fed runtime call.engine world.session
    (marketMessages batchSize runtime call.reads world.stream world.cursor world.session)
  have same : consumed = _ := consumeMarketData_messages empty
  rw [same]
  generalize nativeRunBarBatch runtime call.engine world.session
    (marketMessages batchSize runtime call.reads world.stream world.cursor world.session) = ran at fed outcome
  have moves : ∀ cursor, cursor = (if call.persisted then
        (if ran.2.any (·.type = .runtimeError) then none
          else (liveEntries batchSize call.reads world.stream world.cursor).getLast?.map (·.id)).getD world.cursor
        else world.cursor) →
      (cursor = world.cursor ∨ ¬ ran.2.any (·.type = .runtimeError) ∧
        ∃ last, (liveEntries batchSize call.reads world.stream world.cursor).getLast? = some last ∧ cursor = last.id) := by
    intro cursor isCursor
    by_cases persisted : call.persisted
    · by_cases failed : ran.2.any (·.type = .runtimeError)
      · rw [if_pos persisted,if_pos failed] at isCursor
        exact .inl isCursor
      · rw [if_pos persisted,if_neg failed] at isCursor
        cases isLast : (liveEntries batchSize call.reads world.stream world.cursor).getLast? with
        | none =>
          rw [isLast] at isCursor
          exact .inl isCursor
        | some last =>
          rw [isLast] at isCursor
          exact .inr ⟨failed,last,rfl,isCursor⟩
    · rw [if_neg persisted] at isCursor
      exact .inl isCursor
  generalize isCursor : (if call.persisted then _ else world.cursor) = cursor
  have moved := moves cursor isCursor.symm
  refine ⟨sound.sorted,sound.positive,sound.distinct,?_,?_⟩
  · rcases moved with same | ⟨_,last,isLast,same⟩
    · exact same ▸ sound.cursor
    · obtain ⟨_,_,_,_,above⟩ := live_closed sound call.reads
      exact .inr ⟨last,(above last (mem_of_getLast? isLast)).2,same.symm⟩
  · refine taken_after sound taken part ofManifest fed ?_ (moved.imp id And.right)
    rcases outcome with ⟨kept,nothing,still⟩ | happens
    · refine .inl ⟨kept,nothing,?_⟩
      rcases still with failed | noBars
      · rcases moved with same | ⟨succeeds,_⟩
        · exact .inl same
        · exact absurd failed succeeds
      · exact .inr noBars
    · exact .inr happens

theorem sound_step {next : World Amount} {label : Label Amount}
    (sound : Sound batchSize (runtimeWarmupBackfillLimit runtime) world) (orderly : Orderly batchSize runtime world label)
    (stepped : step batchSize runtime world label = some next) :
    Sound batchSize (runtimeWarmupBackfillLimit runtime) next := by
  cases label with
  | arrive entry =>
    simp only [step] at stepped
    split at stepped
    · rename_i next
      cases stepped
      exact sound_arrive sound next.1 next.2 orderly
    · cases stepped
  | runOnce call =>
    obtain ⟨fits,found⟩ := orderly
    simp only [step] at stepped
    split at stepped
    · rename_i leased
      cases stepped
      exact sound_call sound fits (found leased)
    · cases stepped
      exact sound

/-- In a run whose steps are orderly the bars are fed in the order of the stream, each once. -/
theorem bars_increasing [NatCast Amount] (batchSize : Nat) (runtime : NautilusRuntimeRecord Amount) (labels : List (Label Amount))
    (world : World Amount) (orderly : Meets (step batchSize runtime) (Orderly batchSize runtime) initial labels)
    (ran : run (step batchSize runtime) initial labels = some world) : Increasing world := by
  have sound : Sound batchSize (runtimeWarmupBackfillLimit runtime) world :=
    run_keeps (fun _ _ _ => sound_step) (sound_initial batchSize _) orderly ran
  obtain ⟨t,taken⟩ := sound.taken
  have sorted := (closed_sorted sound.sorted).sublist (take_sublist t _)
  exact (pairwise_map.mpr sorted).sublist taken.fed

def sampleRuntime : NautilusRuntimeRecord ℤ := ⟨1,some 20,some 2,[]⟩
def sampleEntry (id : Nat) : StreamEntry ℤ := ⟨id,id,true,10⟩
def sampleCall : Call ℤ := ⟨true,⟨false,fun _ => .took []⟩,⟨false,false⟩,true⟩
def keptUp : List (Label ℤ) := [.arrive (sampleEntry 1),.runOnce sampleCall,.arrive (sampleEntry 2),.arrive (sampleEntry 3),.runOnce sampleCall]
def backlog : List (Label ℤ) :=
  [.arrive (sampleEntry 1),.arrive (sampleEntry 2),.arrive (sampleEntry 3),.arrive (sampleEntry 4),.runOnce sampleCall]
theorem bars_increasing_sample : ∃ world, run (step 2 sampleRuntime) initial keptUp = some world ∧
    fedIds world.session.fed = [1,2,3] ∧ Increasing world := by
  refine ⟨_,rfl,by decide,bars_increasing 2 sampleRuntime keptUp _ ?_ rfl⟩
  decide
/-- The session is warmed up with the two newest bars and then fed the two oldest. -/
theorem bars_not_increasing : ¬ ∀ (batchSize : Nat) (runtime : NautilusRuntimeRecord ℤ) (labels : List (Label ℤ)) (world : World ℤ),
    run (step batchSize runtime) initial labels = some world → Increasing world := by
  intro holds
  exact absurd (holds 2 sampleRuntime backlog _ rfl) (by decide)

end Codebot.BarOrder
