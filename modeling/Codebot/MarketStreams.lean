import Codebot.PaperSessions

/-!
What the paper worker reads of the bar stream of a runtime: the live entries after
the cursor and, while the session warms up, the newest ones up to it, which go to
the session first. A failed read of Redis counts as one that finds nothing.
-/
namespace Codebot.MarketStreams
open PaperSessions
open NautilusRuntimes (EventType)

/-- An entry of the bar stream; its event id is that of the payload, or the Redis id. -/
structure StreamEntry (Amount : Type) where
  id : Nat
  eventId : Nat
  closed : Bool
  close : Amount
deriving DecidableEq

variable {Amount : Type}
def StreamEntry.message (entry : StreamEntry Amount) : NativeMarketMessage Amount :=
  ⟨.entry entry.id,entry.eventId,entry.closed,entry.close⟩
/-- The reads of Redis that raise in one call. -/
structure Reads where
  readFails : Bool
  backfillFails : Bool
deriving DecidableEq
/-- `_xread`: entries after the cursor; `0` is the cursor `0-0`. -/
def xread (stream : List (StreamEntry Amount)) (cursor count : Nat) : List (StreamEntry Amount) :=
  (stream.filter fun entry => cursor < entry.id).take count
/-- `_xrevrange`, oldest first: the newest entries up to the cursor, or of all if it is `0-0`. -/
def xrevrange (stream : List (StreamEntry Amount)) (cursor count : Nat) : List (StreamEntry Amount) :=
  let upTo := stream.filter fun entry => cursor = 0 || entry.id ≤ cursor
  upTo.drop (upTo.length - count)
def runtimeWarmupBackfillLimit (runtime : NautilusRuntimeRecord Amount) : Nat :=
  match runtime.requiredWarmupBars with
  | none => 0
  | some required => required - runtime.warmups.length
def warmupBackfillMessages (runtime : NautilusRuntimeRecord Amount) (reads : Reads) (stream : List (StreamEntry Amount))
    (cursor : Nat) : List (NativeMarketMessage Amount) :=
  if runtimeWarmupBackfillLimit runtime = 0 || reads.backfillFails then []
  else ((xrevrange stream cursor (runtimeWarmupBackfillLimit runtime)).filter (·.closed)).map (·.message)
/-- `_merge_market_messages`, with the messages seen so far. -/
def mergeMarketMessages (seen : List StreamId) : List (NativeMarketMessage Amount) → List (NativeMarketMessage Amount)
  | [] => []
  | message :: rest =>
    if message.streamId ∈ seen then mergeMarketMessages seen rest
    else message :: mergeMarketMessages (message.streamId :: seen) rest
def needsWarmupBackfill (session : NautilusRuntimeSession Amount) : Bool :=
  session.warmupStatus = .pending || session.warmupStatus = .warmingUp
def liveEntries (batchSize : Nat) (reads : Reads) (stream : List (StreamEntry Amount)) (cursor : Nat) :
    List (StreamEntry Amount) :=
  if reads.readFails then [] else xread stream cursor batchSize

/-- The messages that a call gives to the session. -/
def marketMessages (batchSize : Nat) (runtime : NautilusRuntimeRecord Amount) (reads : Reads)
    (stream : List (StreamEntry Amount)) (cursor : Nat) (session : NautilusRuntimeSession Amount) :
    List (NativeMarketMessage Amount) :=
  let live := (liveEntries batchSize reads stream cursor).map (·.message)
  if needsWarmupBackfill session then
    mergeMarketMessages [] (warmupBackfillMessages runtime reads stream cursor ++ live)
  else live

variable [LinearOrder Amount] [Zero Amount] [Add Amount] [Sub Amount] [Mul Amount] [Div Amount]

/-- `_consume_market_data`: the session, its events, and the new cursor if there is one. -/
def consumeMarketData (batchSize : Nat) (runtime : NautilusRuntimeRecord Amount) (engine : Engine Amount) (reads : Reads)
    (stream : List (StreamEntry Amount)) (cursor : Nat) (session : NautilusRuntimeSession Amount) :
    NautilusRuntimeSession Amount × List (NautilusRuntimeEventInput Amount) × Option Nat :=
  let messages := marketMessages batchSize runtime reads stream cursor session
  if messages.isEmpty then (session,[],none)
  else
    let ran := nativeRunBarBatch runtime engine session messages
    (ran.1,ran.2,
      if ran.2.any (·.type = .runtimeError) then none
      else (liveEntries batchSize reads stream cursor).getLast?.map (·.id))

variable {batchSize cursor : Nat} {engine : Engine Amount} {reads : Reads} {runtime : NautilusRuntimeRecord Amount}
  {session : NautilusRuntimeSession Amount} {stream : List (StreamEntry Amount)}
theorem consumeMarketData_empty (empty : (marketMessages batchSize runtime reads stream cursor session).isEmpty) :
    consumeMarketData batchSize runtime engine reads stream cursor session = (session,[],none) := by
  simp only [consumeMarketData,empty,if_true]
theorem consumeMarketData_messages (some : ¬ (marketMessages batchSize runtime reads stream cursor session).isEmpty) :
    let ran := nativeRunBarBatch runtime engine session (marketMessages batchSize runtime reads stream cursor session)
    consumeMarketData batchSize runtime engine reads stream cursor session =
      (ran.1,ran.2,if ran.2.any (·.type = .runtimeError) then none
        else (liveEntries batchSize reads stream cursor).getLast?.map (·.id)) := by
  simp only [consumeMarketData,some,if_false,Bool.false_eq_true]

end Codebot.MarketStreams
