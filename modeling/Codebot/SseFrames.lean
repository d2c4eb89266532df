import Codebot.Chunks
import Codebot.JsonReadings
import Codebot.Timeframes
import Mathlib.Data.List.TakeWhile

/-!
Run events as server-sent events, and how the web client reads them back from chunks. The client
makes each carriage return a line end before it knows what follows, so that a cut between the two
characters of a line end leaves a blank line.
-/
namespace Codebot.SseFrames
open List hiding replace
open Texts JsonTexts JsonDumps JsonReadings Chunks
open Timeframes (trimmed trim)

structure RunEventRecord where
  id : Text
  conversationId : Text
  runId : Text
  requestId : Option Text
  traceId : Option Text
  sequence : Nat
  type : Text
  payload : Option (List (Text × Json))
  createdAt : Text

def textOrNull : Option Text → Json
  | some t => .text t
  | none => .null
def eventData (event : RunEventRecord) : Json :=
  .object [(text "event_id",.text event.id),(text "conversation_id",.text event.conversationId),(text "run_id",.text event.runId),
    (text "request_id",textOrNull event.requestId),(text "trace_id",textOrNull event.traceId),
    (text "sequence",.integer event.sequence),(text "type",.text event.type),
    (text "payload",(event.payload.map Json.object).getD .null),(text "created_at",.text event.createdAt)]
/-- An event that `json.dumps` writes, with texts as UTF-16 has them: a character is not in two halves. -/
structure ServerEvent extends RunEventRecord where
  writable : Writable (eventData toRunEventRecord)
def sseFrame (event : RunEventRecord) : Text :=
  text "id: " ++ event.id ++ 10 :: text "event: " ++ event.type ++
    10 :: text "data: " ++ dumps compactSeparators (eventData event) ++ [10,10]
def lineEnds (crlf : Bool) (t : Text) : Text := if crlf then replace 10 [13,10] t else t
def rendered (crlf : Bool) (events : List ServerEvent) : Text :=
  lineEnds crlf (events.flatMap fun event => sseFrame event.toRunEventRecord)
/-- The double nearest to an integer, of two the even one. -/
def nearest (n : Nat) : Nat :=
  let unit := 1 <<< (Nat.log2 n - 52)
  let whole := n / unit
  if unit < 2 * (n % unit) ∨ (unit = 2 * (n % unit) ∧ whole % 2 = 1) then unit * (whole + 1) else unit * whole
def infinite : Nat := 1 <<< 1024
/-- A number as JavaScript has it: an integer is a double. -/
def asDouble (n : Int) : Json :=
  if nearest n.natAbs < infinite then .integer (if n < 0 then -nearest n.natAbs else nearest n.natAbs)
  else .float (if n < 0 then text "-Infinity" else text "Infinity")

mutual

def asDoubles : Json → Json
  | .integer n => asDouble n
  | .array items => .array (asDoublesItems items)
  | .object entries => .object (asDoublesEntries entries)
  | value => value
def asDoublesItems : List Json → List Json
  | [] => []
  | item :: rest => asDoubles item :: asDoublesItems rest
def asDoublesEntries : List (Text × Json) → List (Text × Json)
  | [] => []
  | (key,value) :: rest => (key,asDoubles value) :: asDoublesEntries rest

end

def Finite : Json → Prop
  | .float source => source ∉ specials
  | _ => True
def Exact : Json → Prop
  | .integer n => asDouble n = .integer n
  | _ => True

instance : DecidablePred Finite
  | .float source => inferInstanceAs (Decidable (source ∉ specials))
  | .null => inferInstanceAs (Decidable True)
  | .bool _ => inferInstanceAs (Decidable True)
  | .integer _ => inferInstanceAs (Decidable True)
  | .text _ => inferInstanceAs (Decidable True)
  | .array _ => inferInstanceAs (Decidable True)
  | .object _ => inferInstanceAs (Decidable True)

/-- `JSON.parse`: what Python reads, with doubles for its numbers, of which none is a word. -/
structure JsonParse where
  parse : Text → Option Json
  parse_loads : ∀ t value, loads t = .ok value → parse t = if Throughout Finite value then some (asDoubles value) else none
structure SseMessage where
  id : Option Text
  event : Text
  dataLines : List Text
/-- `replace(/^ /, "")`. -/
def dropBlank : Text → Text
  | 32 :: t => t
  | t => t

def readLine (message : SseMessage) (line : Text) : SseMessage :=
  match afterPrefix (text "id:") line with
  | some t => { message with id := some (trim t) }
  | none =>
    match afterPrefix (text "event:") line with
    | some t => { message with event := trim t }
    | none =>
      match afterPrefix (text "data:") line with
      | some t => { message with dataLines := message.dataLines ++ [dropBlank t] }
      | none => message

structure PythonSseEvent where
  id : Option Text
  event : Text
  data : Json
/-- A record or an array as it is, another value as `raw`. -/
def asRecord : Json → Json
  | .object entries => .object entries
  | .array items => .array items
  | value => .object [(text "raw",value)]
/-- The data of a message. Where it is no JSON, it is `raw` too. -/
def readData (js : JsonParse) (raw : Text) : Json :=
  match js.parse raw with
  | some value => asRecord value
  | none => .object [(text "raw",.text raw)]
/-- `parseSseFrame`, with the record that `parseSseFrames` makes of the data. -/
def parseSseFrame (js : JsonParse) (frame : Text) : List PythonSseEvent :=
  if trim frame = [] then []
  else
    let message := (frame.splitOn 10).foldl readLine ⟨none,text "message",[]⟩
    if message.dataLines = [] then []
    else [⟨message.id,message.event,readData js (join [10] message.dataLines)⟩]
def parseSseFrames (js : JsonParse) (chunk : Text) : List PythonSseEvent :=
  (splitBlank false (universalNewlines chunk)).flatMap (parseSseFrame js)
def splitCompleteSseFrames (t : Text) : List Text × Text :=
  let parts := splitBlank false (universalNewlines t)
  (parts.dropLast,remaining parts)
/-- One more chunk of the stream. -/
def receive (js : JsonParse) (state : Text × List PythonSseEvent) (chunk : Text) : Text × List PythonSseEvent :=
  let split := splitCompleteSseFrames (state.1 ++ chunk)
  (split.2,state.2 ++ split.1.flatMap (parseSseFrames js))
def received (js : JsonParse) (chunks : List Text) : List PythonSseEvent :=
  let state := chunks.foldl (receive js) ([],[])
  state.2 ++ parseSseFrames js state.1
def sent (event : RunEventRecord) : PythonSseEvent := ⟨some event.id,event.type,eventData event⟩
/-- The chunks read as the whole text does, and both as the events that were sent. -/
structure Transparent (js : JsonParse) (events : List ServerEvent) (chunks : List Text) : Prop where
  chunked : received js chunks = parseSseFrames js chunks.flatten
  exact : parseSseFrames js chunks.flatten = events.map fun event => sent event.toRunEventRecord
/-- A text that a line has, and that `trim` leaves as it is. -/
structure Plain (t : Text) : Prop where
  trimmed : trim t = t
  oneLine : ∀ c ∈ t, c ≠ 10 ∧ c ≠ 13
def Portable (value : Json) : Prop := Throughout (fun value => Finite value ∧ Exact value) value
def idEnd (position : Nat) (event : RunEventRecord) : Nat := position + (text "id: ").length + event.id.length + 1
def typeEnd (position : Nat) (event : RunEventRecord) : Nat :=
  idEnd position event + 1 + (text "event: ").length + event.type.length + 1
/-- The positions between the carriage return and the line feed of an id or a type. -/
def insideLineEnds (position : Nat) : List ServerEvent → List Nat
  | [] => []
  | event :: rest => idEnd position event.toRunEventRecord :: typeEnd position event.toRunEventRecord ::
      insideLineEnds (position + (lineEnds true (sseFrame event.toRunEventRecord)).length) rest

section
variable {js : JsonParse}

theorem trim_newline (t : Text) : trim (10 :: t) = trim t := by
  have blank : trimmed 10 = true := by decide
  rw [trim,strip,dropWhile_cons_of_pos blank]
  rfl

theorem skips (js : JsonParse) : Skips (parseSseFrame js) where
  empty := rfl
  newline t := by
    have lines : (10 :: t).splitOn 10 = [] :: t.splitOn 10 := by
      rw [splitOn_eq_splitOnP,splitOnP_cons_eq_if_modifyHead,if_pos (by rfl)]
      rfl
    rw [parseSseFrame,parseSseFrame,trim_newline,lines,foldl_cons]
    rfl

theorem parseSseFrames_part {t part : Text} (noReturn : 13 ∉ t) (member : part ∈ splitBlank false t) :
    parseSseFrames js part = parseSseFrame js part := by
  have same : universalNewlines part = part := universalNewlines_eq_self.mpr fun inPart => noReturn (mem_splitBlank member 13 inPart)
  rw [parseSseFrames,same,splitBlank_part false t part member,flatMap_singleton]

variable {state : Text × List PythonSseEvent}

theorem receive_eq (noReturn : 13 ∉ state.1) (chunk : Text) :
    receive js state chunk = feed (parseSseFrame js) state (universalNewlines chunk) := by
  have without : 13 ∉ state.1 ++ universalNewlines chunk := by
    rw [mem_append,not_or]
    exact ⟨noReturn,return_notMem_universalNewlines chunk⟩
  rw [receive,splitCompleteSseFrames,feed,universalNewlines_append noReturn]
  refine Prod.ext rfl (congrArg (state.2 ++ ·) (flatMap_congr ?_))
  intro part member
  exact parseSseFrames_part without (dropLast_subset _ member)

theorem feed_noReturn (noReturn : 13 ∉ state.1) (chunk : Text) :
    13 ∉ (feed (parseSseFrame js) state (universalNewlines chunk)).1 := by
  intro member
  rcases mem_append.mp (mem_splitBlank (remaining_mem _) 13 member) with before | inChunk
  · exact noReturn before
  · exact return_notMem_universalNewlines chunk inChunk

theorem receives_eq (chunks : List Text) {state : Text × List PythonSseEvent} (noReturn : 13 ∉ state.1) :
    chunks.foldl (receive js) state = (chunks.map universalNewlines).foldl (feed (parseSseFrame js)) state ∧
      13 ∉ (chunks.foldl (receive js) state).1 := by
  induction chunks generalizing state with
  | nil => exact ⟨rfl,noReturn⟩
  | cons chunk chunks ih =>
    rw [foldl_cons,map_cons,foldl_cons,receive_eq noReturn]
    exact ih (feed_noReturn noReturn chunk)

theorem received_eq (chunks : List Text) : received js chunks = readAll (parseSseFrame js) (chunks.flatMap universalNewlines) := by
  obtain ⟨same,noReturn⟩ := @receives_eq js chunks ([],[]) not_mem_nil
  have last : splitBlank false (chunks.foldl (receive js) ([],[])).1 = [(chunks.foldl (receive js) ([],[])).1] := by
    rw [same]
    exact kept_part _ rfl
  rw [flatMap_def,← feed_eq (skips js),received,feedAll,← same]
  refine congrArg (_ ++ ·) ?_
  rw [parseSseFrames,universalNewlines_eq_self.mpr noReturn,last,flatMap_singleton]

theorem received_cut (chunks : List Text) :
    received js chunks = readAll (parseSseFrame js) (cutLines (fun p => decide (p ∈ ends 0 chunks)) 0 chunks.flatten) := by
  rw [received_eq,newlines_chunks 0]
theorem parseSseFrames_whole (t : Text) : parseSseFrames js t = readAll (parseSseFrame js) (cutLines (fun _ => false) 0 t) := by
  rw [cutLines_whole]
  rfl
def feeds (double : Bool) : Text := if double then [10,10] else [10]
def lineEnd (crlf : Bool) : Text := if crlf then [13,10] else [10]
theorem cutLines_lineEnd (cut : Nat → Bool) (crlf : Bool) (position : Nat) (t : Text) :
    cutLines cut position (lineEnd crlf ++ t) = feeds (crlf && cut (position + 1)) ++ cutLines cut (position + (lineEnd crlf).length) t := by
  cases crlf with
  | false => exact cutLines_visible (by decide) position t
  | true =>
    rw [lineEnd,if_pos rfl,cons_append,cons_append,cutLines,Bool.true_and]
    cases cut (position + 1) <;> rfl
theorem lineEnds_append (crlf : Bool) (t u : Text) : lineEnds crlf (t ++ u) = lineEnds crlf t ++ lineEnds crlf u := by
  cases crlf with
  | false => rfl
  | true => exact flatMap_append

theorem lineEnds_line (crlf : Bool) {line : Text} (oneLine : ∀ c ∈ line, c ≠ 10) (t : Text) :
    lineEnds crlf (line ++ 10 :: t) = line ++ (lineEnd crlf ++ lineEnds crlf t) := by
  have same : lineEnds crlf line = line := by
    cases crlf with
    | false => rfl
    | true =>
      rw [lineEnds,if_pos rfl,replace]
      have each : line.flatMap (fun c => if c = 10 then [13,10] else [c]) = line.flatMap fun c => [c] :=
        flatMap_congr fun c member => if_neg (oneLine c member)
      rw [each,flatMap_singleton']
  rw [lineEnds_append,same]
  cases crlf <;> rfl

/-- A line of an event: a word, and a text on one line. -/
structure IsLine (line : Text) : Prop where
  feed : ∀ c ∈ line, c ≠ 10
  noReturn : 13 ∉ line
theorem isLine_append {first second : Text} (isFirst : IsLine first) (isSecond : ∀ c ∈ second, c ≠ 10 ∧ c ≠ 13) : IsLine (first ++ second) where
  feed c member := (mem_append.mp member).elim (isFirst.feed c) fun inSecond => (isSecond c inSecond).1
  noReturn member := (mem_append.mp member).elim isFirst.noReturn fun inSecond => (isSecond 13 inSecond).2 rfl
def idLine (event : RunEventRecord) : Text := text "id: " ++ event.id
def typeLine (event : RunEventRecord) : Text := text "event: " ++ event.type
def dataLine (event : RunEventRecord) : Text := text "data: " ++ dumps compactSeparators (eventData event)
/-- An event whose id and type are plain. -/
structure PlainEvent (event : RunEventRecord) : Prop where
  id : Plain event.id
  type : Plain event.type
theorem isLine_id {event : RunEventRecord} (plain : PlainEvent event) : IsLine (idLine event) :=
  isLine_append ⟨by decide,by decide⟩ plain.id.oneLine
theorem isLine_type {event : RunEventRecord} (plain : PlainEvent event) : IsLine (typeLine event) :=
  isLine_append ⟨by decide,by decide⟩ plain.type.oneLine

theorem isLine_data (event : ServerEvent) : IsLine (dataLine event.toRunEventRecord) := by
  refine isLine_append ⟨by decide,by decide⟩ ?_
  intro c member
  have proper := ((throughout_and _).mp ((writable_iff _).mp event.writable)).1
  have blank : ∀ c ∈ compactSeparators.item ++ compactSeparators.key, c = 32 := fun c none => absurd none not_mem_nil
  have printable := printable_dumps blank _ proper c member
  unfold Printable at printable
  omega

def spread (event : RunEventRecord) (a b c d : Bool) (rest : Text) : Text :=
  idLine event ++ (feeds a ++ (typeLine event ++ (feeds b ++ (dataLine event ++ (feeds c ++ (feeds d ++ rest))))))

theorem cutLines_event (cut : Nat → Bool) (crlf : Bool) (position : Nat) {event : ServerEvent} (plain : PlainEvent event.toRunEventRecord) (t : Text) :
    ∃ c d, cutLines cut position (lineEnds crlf (sseFrame event.toRunEventRecord ++ t)) =
      spread event.toRunEventRecord (crlf && cut (idEnd position event.toRunEventRecord)) (crlf && cut (typeEnd position event.toRunEventRecord)) c d
        (cutLines cut (position + (lineEnds crlf (sseFrame event.toRunEventRecord)).length) (lineEnds crlf t)) := by
  have lines : ∀ t, lineEnds crlf (sseFrame event.toRunEventRecord ++ t) = idLine event.toRunEventRecord ++ (lineEnd crlf ++
      (typeLine event.toRunEventRecord ++ (lineEnd crlf ++ (dataLine event.toRunEventRecord ++ (lineEnd crlf ++ (lineEnd crlf ++ lineEnds crlf t)))))) := by
    intro t
    have split : sseFrame event.toRunEventRecord ++ t = idLine event.toRunEventRecord ++ 10 :: (typeLine event.toRunEventRecord ++
        10 :: (dataLine event.toRunEventRecord ++ 10 :: ([] ++ 10 :: t))) := by
      simp only [sseFrame,idLine,typeLine,dataLine,append_assoc,cons_append,nil_append]
    rw [split,lineEnds_line crlf (isLine_id plain).feed,lineEnds_line crlf (isLine_type plain).feed,lineEnds_line crlf (isLine_data event).feed,
      @lineEnds_line crlf [] nofun]
    rfl
  have isIdEnd : position + (idLine event.toRunEventRecord).length + 1 = idEnd position event.toRunEventRecord := by
    rw [idLine,length_append,idEnd,← Nat.add_assoc]
  have isTypeEnd : (crlf && cut (position + (idLine event.toRunEventRecord).length + (lineEnd crlf).length +
      (typeLine event.toRunEventRecord).length + 1)) = (crlf && cut (typeEnd position event.toRunEventRecord)) := by
    cases crlf with
    | false => rfl
    | true =>
      rw [typeEnd,← isIdEnd,typeLine,length_append,← Nat.add_assoc]
      rfl
  have length := congrArg List.length (lines [])
  have nothing : lineEnds crlf [] = [] := by cases crlf <;> rfl
  rw [append_nil,nothing,append_nil] at length
  simp only [length_append] at length
  rw [lines t,cutLines_line (isLine_id plain).noReturn,cutLines_lineEnd,cutLines_line (isLine_type plain).noReturn,cutLines_lineEnd,
    cutLines_line (isLine_data event).noReturn,cutLines_lineEnd,cutLines_lineEnd,isIdEnd,isTypeEnd]
  simp only [Nat.add_assoc] at length ⊢
  rw [length]
  exact ⟨_,_,rfl⟩

variable {line : Text}
theorem splitOn_line (oneLine : ∀ c ∈ line, c ≠ 10) (t : Text) : (line ++ 10 :: t).splitOn 10 = line :: t.splitOn 10 :=
  splitOnP_append_cons_of_forall_mem (fun c member => beq_eq_false_iff_ne.mpr (oneLine c member)) 10 rfl t
theorem splitOn_last (oneLine : ∀ c ∈ line, c ≠ 10) : line.splitOn 10 = [line] :=
  splitOnP_eq_singleton fun c member => beq_eq_false_iff_ne.mpr (oneLine c member)

variable {c : Nat}

theorem trim_visible (visible : trimmed c = false) (t : Text) : trim (c :: t) ≠ [] := by
  have head : (c :: t).dropWhile trimmed = c :: t := dropWhile_cons_of_neg (Bool.eq_false_iff.mp visible)
  have whole : trim (c :: t) = ((c :: t).reverse.dropWhile trimmed).reverse := congrArg (fun t => (t.reverse.dropWhile trimmed).reverse) head
  rw [whole]
  intro nothing
  have all := dropWhile_eq_nil_iff.mp (reverse_eq_nil_iff.mp nothing)
  have last := all c (by simp)
  rw [visible] at last
  cases last

variable {frame : Text}

theorem parse_visible (visible : trimmed c = false) (begins : frame.head? = some c) :
    parseSseFrame js frame =
      let message := (frame.splitOn 10).foldl readLine ⟨none,text "message",[]⟩
      if message.dataLines = [] then [] else [⟨message.id,message.event,readData js (join [10] message.dataLines)⟩] := by
  cases frame with
  | nil => cases begins
  | cons d t =>
    cases begins
    rw [parseSseFrame,if_neg (trim_visible visible t)]

theorem readLine_id {event : RunEventRecord} (plain : PlainEvent event) (message : SseMessage) :
    readLine message (idLine event) = { message with id := some event.id } := by
  have rest : afterPrefix (text "id:") (idLine event) = some (32 :: event.id) := afterPrefix_append (text "id:") (32 :: event.id)
  have blank : trimmed 32 = true := by decide
  have trims : trim (32 :: event.id) = trim event.id := by
    rw [trim,strip,dropWhile_cons_of_pos blank]
    rfl
  rw [readLine,rest]
  simp only [trims,plain.id.trimmed]

theorem readLine_type {event : RunEventRecord} (plain : PlainEvent event) (message : SseMessage) :
    readLine message (typeLine event) = { message with event := event.type } := by
  have noId : afterPrefix (text "id:") (typeLine event) = none := rfl
  have rest : afterPrefix (text "event:") (typeLine event) = some (32 :: event.type) := afterPrefix_append (text "event:") (32 :: event.type)
  have blank : trimmed 32 = true := by decide
  have trims : trim (32 :: event.type) = trim event.type := by
    rw [trim,strip,dropWhile_cons_of_pos blank]
    rfl
  rw [readLine,noId,rest]
  simp only [trims,plain.type.trimmed]

theorem readLine_data (event : RunEventRecord) (message : SseMessage) :
    readLine message (dataLine event) = { message with dataLines := message.dataLines ++ [dumps compactSeparators (eventData event)] } := by
  have noId : afterPrefix (text "id:") (dataLine event) = none := rfl
  have noEvent : afterPrefix (text "event:") (dataLine event) = none := rfl
  have rest : afterPrefix (text "data:") (dataLine event) = some (32 :: dumps compactSeparators (eventData event)) :=
    afterPrefix_append (text "data:") (32 :: dumps compactSeparators (eventData event))
  rw [readLine,noId,noEvent,rest]
  rfl

def dataShown (js : JsonParse) (event : RunEventRecord) : Json := readData js (dumps compactSeparators (eventData event))
/-- An event as it is read, without its id where the line end of the id or of the type is cut, and
without its type where that of the type is. -/
def shown (js : JsonParse) (event : RunEventRecord) (idCut typeCut : Bool) : PythonSseEvent where
  id := if idCut || typeCut then none else some event.id
  event := if typeCut then text "message" else event.type
  data := dataShown js event
/-- The lines up to a blank line. -/
def frameOf (event : RunEventRecord) (idCut typeCut : Bool) : Text :=
  match idCut, typeCut with
  | false, false => idLine event ++ 10 :: (typeLine event ++ 10 :: dataLine event)
  | true, false => typeLine event ++ 10 :: dataLine event
  | _, true => dataLine event
theorem parse_id {event : RunEventRecord} (plain : PlainEvent event) : parseSseFrame js (idLine event) = [] := by
  rw [parse_visible (c := 105) (by decide) rfl,splitOn_last (isLine_id plain).feed,foldl_cons,readLine_id plain]
  rfl
theorem parse_type {event : RunEventRecord} (plain : PlainEvent event) : parseSseFrame js (typeLine event) = [] := by
  rw [parse_visible (c := 101) (by decide) rfl,splitOn_last (isLine_type plain).feed,foldl_cons,readLine_type plain]
  rfl
theorem parse_idType {event : RunEventRecord} (plain : PlainEvent event) : parseSseFrame js (idLine event ++ 10 :: typeLine event) = [] := by
  rw [parse_visible (c := 105) (by decide) rfl,splitOn_line (isLine_id plain).feed,splitOn_last (isLine_type plain).feed,
    foldl_cons,foldl_cons,readLine_id plain,readLine_type plain]
  rfl

theorem parse_frame {event : ServerEvent} (plain : PlainEvent event.toRunEventRecord) (idCut typeCut : Bool) :
    parseSseFrame js (frameOf event.toRunEventRecord idCut typeCut) = [shown js event.toRunEventRecord idCut typeCut] := by
  cases typeCut with
  | true =>
    have whole : frameOf event.toRunEventRecord idCut true = dataLine event.toRunEventRecord := by cases idCut <;> rfl
    rw [whole,parse_visible (c := 100) (by decide) rfl,splitOn_last (isLine_data event).feed,foldl_cons,readLine_data]
    cases idCut <;> rfl
  | false =>
    cases idCut with
    | true =>
      rw [frameOf,parse_visible (c := 101) (by decide) rfl,splitOn_line (isLine_type plain).feed,splitOn_last (isLine_data event).feed,
        foldl_cons,foldl_cons,readLine_type plain,readLine_data]
      rfl
    | false =>
      rw [frameOf,parse_visible (c := 105) (by decide) rfl,splitOn_line (isLine_id plain).feed,splitOn_line (isLine_type plain).feed,
        splitOn_last (isLine_data event).feed,foldl_cons,foldl_cons,foldl_cons,readLine_id plain,readLine_type plain,
        readLine_data]
      rfl

theorem readAll_data {block : Text} (isBlock : Block block) (c d : Bool) (rest : Text) :
    readAll (parseSseFrame js) (block ++ (feeds c ++ (feeds d ++ rest))) = parseSseFrame js block ++ readAll (parseSseFrame js) rest := by
  have ended : ∃ more, feeds c ++ (feeds d ++ rest) = 10 :: 10 :: more ∧ readAll (parseSseFrame js) more = readAll (parseSseFrame js) rest := by
    cases c <;> cases d
    · exact ⟨rest,rfl,rfl⟩
    · exact ⟨10 :: rest,rfl,readAll_newline (skips js) rest⟩
    · exact ⟨10 :: rest,rfl,readAll_newline (skips js) rest⟩
    · exact ⟨10 :: 10 :: rest,rfl,(readAll_newline (skips js) _).trans (readAll_newline (skips js) rest)⟩
  obtain ⟨more,same,isRest⟩ := ended
  rw [same,readAll_block (skips js) isBlock,isRest]

theorem readAll_spread {event : ServerEvent} (plain : PlainEvent event.toRunEventRecord) (a b c d : Bool) (rest : Text) :
    readAll (parseSseFrame js) (spread event.toRunEventRecord a b c d rest) =
      shown js event.toRunEventRecord a b :: readAll (parseSseFrame js) rest := by
  have idBlock := block_line (isLine_id plain).feed
  have typeBlock := block_line (isLine_type plain).feed
  have dataBlock := block_line (isLine_data event).feed
  have typeData : Block (typeLine event.toRunEventRecord ++ 10 :: dataLine event.toRunEventRecord) :=
    block_lines typeBlock (d := 100) (by decide) dataBlock
  have idType : Block (idLine event.toRunEventRecord ++ 10 :: typeLine event.toRunEventRecord) :=
    block_lines idBlock (d := 101) (by decide) typeBlock
  have all : Block (idLine event.toRunEventRecord ++ 10 :: (typeLine event.toRunEventRecord ++ 10 :: dataLine event.toRunEventRecord)) :=
    block_lines idBlock (d := 101) (by decide) typeData
  cases a <;> cases b
  · have split : spread event.toRunEventRecord false false c d rest =
        (idLine event.toRunEventRecord ++ 10 :: (typeLine event.toRunEventRecord ++ 10 :: dataLine event.toRunEventRecord)) ++
          (feeds c ++ (feeds d ++ rest)) := by
      simp [spread,feeds]
    rw [split,readAll_data all]
    exact congrArg (· ++ _) (parse_frame plain false false)
  · have split : spread event.toRunEventRecord false true c d rest =
        (idLine event.toRunEventRecord ++ 10 :: typeLine event.toRunEventRecord) ++
          10 :: 10 :: (dataLine event.toRunEventRecord ++ (feeds c ++ (feeds d ++ rest))) := by
      simp [spread,feeds]
    rw [split,readAll_block (skips js) idType,parse_idType plain,readAll_data dataBlock]
    exact congrArg (· ++ _) (parse_frame plain false true)
  · have split : spread event.toRunEventRecord true false c d rest =
        idLine event.toRunEventRecord ++ 10 :: 10 :: ((typeLine event.toRunEventRecord ++ 10 :: dataLine event.toRunEventRecord) ++
          (feeds c ++ (feeds d ++ rest))) := by
      simp [spread,feeds]
    rw [split,readAll_block (skips js) idBlock,parse_id plain,readAll_data typeData]
    exact congrArg (· ++ _) (parse_frame plain true false)
  · have split : spread event.toRunEventRecord true true c d rest =
        idLine event.toRunEventRecord ++ 10 :: 10 :: (typeLine event.toRunEventRecord ++
          10 :: 10 :: (dataLine event.toRunEventRecord ++ (feeds c ++ (feeds d ++ rest)))) := by
      simp [spread,feeds]
    rw [split,readAll_block (skips js) idBlock,parse_id plain,nil_append,readAll_block (skips js) typeBlock,parse_type plain,
      readAll_data dataBlock]
    exact congrArg (· ++ _) (parse_frame plain true true)

/-- The events of a text whose cuts are known. -/
def shownAll (js : JsonParse) (crlf : Bool) (cut : Nat → Bool) (position : Nat) : List ServerEvent → List PythonSseEvent
  | [] => []
  | event :: rest =>
    shown js event.toRunEventRecord (crlf && cut (idEnd position event.toRunEventRecord)) (crlf && cut (typeEnd position event.toRunEventRecord)) ::
      shownAll js crlf cut (position + (lineEnds crlf (sseFrame event.toRunEventRecord)).length) rest

theorem readAll_rendered (crlf : Bool) (cut : Nat → Bool) (position : Nat) {events : List ServerEvent}
    (plain : ∀ event ∈ events, PlainEvent event.toRunEventRecord) :
    readAll (parseSseFrame js) (cutLines cut position (rendered crlf events)) = shownAll js crlf cut position events := by
  induction events generalizing position with
  | nil =>
    have nothing : rendered crlf [] = [] := by cases crlf <;> rfl
    rw [nothing]
    rfl
  | cons event rest ih =>
    have isPlain := plain event mem_cons_self
    rw [rendered,flatMap_cons]
    obtain ⟨c,d,cuts⟩ := cutLines_event cut crlf position isPlain (rest.flatMap fun event => sseFrame event.toRunEventRecord)
    rw [cuts,readAll_spread isPlain,shownAll]
    exact congrArg (_ :: ·) (ih _ fun event member => plain event (mem_cons_of_mem _ member))

mutual

theorem asDoubles_eq_self : ∀ value : Json, asDoubles value = value ↔ Throughout Exact value
  | .null => by simp [asDoubles,Throughout,Exact]
  | .bool _ => by simp [asDoubles,Throughout,Exact]
  | .integer _ => Iff.rfl
  | .float _ => by simp [asDoubles,Throughout,Exact]
  | .text _ => by simp [asDoubles,Throughout,Exact]
  | .array items => by
    rw [asDoubles,Json.array.injEq,asDoublesItems_eq_self items,Throughout]
    exact (and_iff_right trivial).symm
  | .object entries => by
    rw [asDoubles,Json.object.injEq,asDoublesEntries_eq_self entries,Throughout]
    exact (and_iff_right trivial).symm

theorem asDoublesItems_eq_self : ∀ items : List Json, asDoublesItems items = items ↔ ThroughoutItems Exact items
  | [] => by simp [asDoublesItems,ThroughoutItems]
  | item :: rest => by rw [asDoublesItems,List.cons.injEq,asDoubles_eq_self item,asDoublesItems_eq_self rest,ThroughoutItems]
theorem asDoublesEntries_eq_self : ∀ entries : List (Text × Json), asDoublesEntries entries = entries ↔ ThroughoutEntries Exact entries
  | [] => by simp [asDoublesEntries,ThroughoutEntries]
  | (key,value) :: rest => by
    rw [asDoublesEntries,List.cons.injEq,Prod.mk.injEq,asDoubles_eq_self value,asDoublesEntries_eq_self rest,ThroughoutEntries]
    exact and_congr_left' (and_iff_right rfl)

end

theorem dataShown_eq (event : ServerEvent) : dataShown js event.toRunEventRecord = eventData event.toRunEventRecord ↔
    Portable (eventData event.toRunEventRecord) := by
  rw [Portable,throughout_and,← asDoubles_eq_self,dataShown,readData,js.parse_loads _ _ (JsonGrammar.loads_dumps compactSeparators event.writable)]
  by_cases finite : Throughout Finite (eventData event.toRunEventRecord)
  · rw [if_pos finite,and_iff_right finite]
    rfl
  · rw [if_neg finite]
    refine iff_of_false ?_ fun both => finite both.1
    intro same
    cases same

theorem mem_splitOn {t : Text} (member : line ∈ t.splitOn 10) : ∀ c ∈ line, c ≠ 10 ∧ c ∈ t := by
  induction t generalizing line with
  | nil =>
    rw [splitOn_nil,mem_singleton] at member
    rw [member]
    nofun
  | cons d t ih =>
    rw [splitOn_eq_splitOnP,splitOnP_cons_eq_if_modifyHead,← splitOn_eq_splitOnP] at member
    split at member
    · rcases mem_cons.mp member with rfl | later
      · nofun
      · exact fun c inLine => ⟨(ih later c inLine).1,mem_cons_of_mem d (ih later c inLine).2⟩
    · rename_i visible
      cases lines : t.splitOn 10 with
      | nil =>
        rw [lines] at member
        cases member
      | cons first rest =>
        rw [lines,modifyHead_cons] at member
        rcases mem_cons.mp member with rfl | later
        · intro c inLine
          rcases mem_cons.mp inLine with rfl | inFirst
          · exact ⟨fun newline => visible (by rw [newline]; rfl),mem_cons_self⟩
          · have inside := ih (lines ▸ mem_cons_self) c inFirst
            exact ⟨inside.1,mem_cons_of_mem d inside.2⟩
        · have inside := ih (lines ▸ mem_cons_of_mem first later)
          exact fun c inLine => ⟨(inside c inLine).1,mem_cons_of_mem d (inside c inLine).2⟩

theorem mem_trim {t : Text} (member : c ∈ trim t) : c ∈ t := by
  rw [trim,strip,mem_reverse] at member
  have inside := (dropWhile_suffix _).subset member
  exact (dropWhile_suffix _).subset (mem_reverse.mp inside)
theorem plain_trim {t : Text} (oneLine : ∀ c ∈ t, c ≠ 10 ∧ c ≠ 13) : Plain (trim t) where
  trimmed := strip_strip _ t
  oneLine c member := oneLine c (mem_trim member)
/-- A message whose id and type are plain. -/
structure PlainMessage (message : SseMessage) : Prop where
  id : ∀ t, message.id = some t → Plain t
  event : Plain message.event

variable {message : SseMessage}

theorem readLine_plain (oneLine : ∀ c ∈ line, c ≠ 10 ∧ c ≠ 13) (plain : PlainMessage message) :
    PlainMessage (readLine message line) := by
  have after : ∀ {first rest : Text}, afterPrefix first line = some rest → Plain (trim rest) := by
    intro first rest begins
    refine plain_trim fun c member => oneLine c ?_
    rw [afterPrefix_some.mp begins]
    exact mem_append_right first member
  unfold readLine
  split
  · rename_i rest begins
    exact ⟨fun t same => Option.some.inj same ▸ after begins,plain.event⟩
  · split
    · rename_i rest begins
      exact ⟨plain.id,after begins⟩
    · split
      · exact ⟨plain.id,plain.event⟩
      · exact plain

theorem readLines_plain {lines : List Text} (oneLine : ∀ line ∈ lines, ∀ c ∈ line, c ≠ 10 ∧ c ≠ 13)
    (plain : PlainMessage message) : PlainMessage (lines.foldl readLine message) := by
  induction lines generalizing message with
  | nil => exact plain
  | cons line rest ih =>
    exact ih (fun other member => oneLine other (mem_cons_of_mem line member)) (readLine_plain (oneLine line mem_cons_self) plain)
theorem empty_plain : PlainMessage ⟨none,text "message",[]⟩ where
  id := nofun
  event := ⟨by decide,by decide⟩

theorem parse_plain (noReturn : 13 ∉ frame) {event : PythonSseEvent} (member : event ∈ parseSseFrame js frame) :
    (∀ t, event.id = some t → Plain t) ∧ Plain event.event := by
  have oneLine : ∀ line ∈ frame.splitOn 10, ∀ c ∈ line, c ≠ 10 ∧ c ≠ 13 := by
    intro line isLine c inLine
    have inside := mem_splitOn isLine c inLine
    exact ⟨inside.1,fun same => noReturn (same ▸ inside.2)⟩
  have plain := readLines_plain oneLine empty_plain
  unfold parseSseFrame at member
  split at member
  · cases member
  · simp only at member
    split at member
    · cases member
    · rw [mem_singleton] at member
      rw [member]
      exact ⟨plain.id,plain.event⟩

theorem readAll_plain {t : Text} (noReturn : 13 ∉ t) {event : PythonSseEvent} (member : event ∈ readAll (parseSseFrame js) t) :
    (∀ u, event.id = some u → Plain u) ∧ Plain event.event := by
  obtain ⟨part,isPart,inPart⟩ := mem_flatMap.mp member
  exact parse_plain (fun inside => noReturn (mem_splitBlank isPart 13 inside)) inPart

theorem shown_eq (event : ServerEvent) (idCut typeCut : Bool) :
    shown js event.toRunEventRecord idCut typeCut = sent event.toRunEventRecord ↔
      Portable (eventData event.toRunEventRecord) ∧ idCut = false ∧ typeCut = false := by
  rw [← @dataShown_eq js,shown,sent,PythonSseEvent.mk.injEq]
  constructor
  · rintro ⟨sameId,_,sameData⟩
    refine ⟨sameData,?_⟩
    cases idCut <;> cases typeCut <;> first | exact ⟨rfl,rfl⟩ | cases sameId
  · rintro ⟨sameData,rfl,rfl⟩
    exact ⟨rfl,rfl,sameData⟩

theorem shownAll_eq (crlf : Bool) (cut : Nat → Bool) (position : Nat) (events : List ServerEvent) :
    (shownAll js crlf cut position events = events.map fun event => sent event.toRunEventRecord) ↔
      (∀ event ∈ events, Portable (eventData event.toRunEventRecord)) ∧
      (crlf = true → ∀ p ∈ insideLineEnds position events, cut p = false) := by
  induction events generalizing position with
  | nil => simp [shownAll,insideLineEnds]
  | cons event rest ih =>
    rw [shownAll,map_cons,List.cons.injEq,ih,shown_eq,forall_mem_cons]
    cases crlf with
    | false => simp
    | true =>
      simp only [Bool.true_and,insideLineEnds,forall_mem_cons,forall_const]
      constructor
      · rintro ⟨⟨portable,idWhole,typeWhole⟩,others,whole⟩
        exact ⟨⟨portable,others⟩,idWhole,typeWhole,whole⟩
      · rintro ⟨⟨portable,others⟩,idWhole,typeWhole,whole⟩
        exact ⟨⟨portable,idWhole,typeWhole⟩,others,whole⟩

/-- The chunks are read as what was sent exactly if each id and type is a trimmed line, JavaScript has each number, and
    no chunk ends within the line end of an id or a type. -/
theorem transparent_iff (js : JsonParse) (crlf : Bool) (events : List ServerEvent) (chunks : List Text)
    (isPartition : chunks.flatten = rendered crlf events) :
    Transparent js events chunks ↔
      (∀ event ∈ events, Plain event.id ∧ Plain event.type ∧ Portable (eventData event.toRunEventRecord)) ∧
      (crlf = true → ∀ p ∈ ends 0 chunks, p ∉ insideLineEnds 0 events) := by
  have cuts : (∀ p ∈ ends 0 chunks, p ∉ insideLineEnds 0 events) ↔
      ∀ p ∈ insideLineEnds 0 events, decide (p ∈ ends 0 chunks) = false := by
    simp only [decide_eq_false_iff_not]
    exact ⟨fun apart p inside isEnd => apart p isEnd inside,fun apart p isEnd inside => apart p inside isEnd⟩
  rw [cuts]
  constructor
  · rintro ⟨chunked,exact⟩
    have plain : ∀ event ∈ events, PlainEvent event.toRunEventRecord := by
      intro event member
      have isSent : sent event.toRunEventRecord ∈ parseSseFrames js chunks.flatten := by
        rw [exact]
        exact mem_map_of_mem member
      have both := readAll_plain (return_notMem_universalNewlines chunks.flatten) isSent
      exact ⟨both.1 _ rfl,both.2⟩
    rw [← chunked,received_cut,isPartition,readAll_rendered crlf _ 0 plain,shownAll_eq] at exact
    exact ⟨fun event member => ⟨(plain event member).id,(plain event member).type,exact.1 event member⟩,exact.2⟩
  · rintro ⟨each,apart⟩
    have plain : ∀ event ∈ events, PlainEvent event.toRunEventRecord := fun event member => ⟨(each event member).1,(each event member).2.1⟩
    have portable : ∀ event ∈ events, Portable (eventData event.toRunEventRecord) := fun event member => (each event member).2.2
    have whole : parseSseFrames js chunks.flatten = events.map fun event => sent event.toRunEventRecord := by
      rw [parseSseFrames_whole,isPartition,readAll_rendered crlf _ 0 plain,shownAll_eq]
      exact ⟨portable,fun _ _ _ => rfl⟩
    refine ⟨?_,whole⟩
    rw [whole,received_cut,isPartition,readAll_rendered crlf _ 0 plain,shownAll_eq]
    exact ⟨portable,apart⟩

end

def parseRead (t : Text) : Option Json :=
  match loads t with
  | .ok value => if Throughout Finite value then some (asDoubles value) else none
  | .error _ => none
theorem parseRead_loads (t : Text) (value : Json) (read : loads t = .ok value) :
    parseRead t = if Throughout Finite value then some (asDoubles value) else none := by
  rw [parseRead,read]
def sampleParse : JsonParse := ⟨parseRead,parseRead_loads⟩

def sampleRecord : RunEventRecord where
  id := text "evt_1"
  conversationId := text "c"
  runId := text "r"
  requestId := none
  traceId := none
  sequence := 1
  type := text "message.delta"
  payload := none
  createdAt := text "2026-01-01T00:00:00+00:00"

theorem sample_writable : Writable (eventData sampleRecord) := by
  refine ⟨by decide,?_⟩
  simp only [WritableEntries,Writable,textOrNull,sampleRecord,Option.map_none,Option.getD_none,and_true,true_and]
  refine ⟨?_,?_,?_,?_,?_,?_,?_,?_,?_,?_,?_,?_,?_,?_,?_⟩
  all_goals first | exact separate_ascii (by decide) | decide
def sampleEvent : ServerEvent := ⟨sampleRecord,sample_writable⟩
theorem sample_plain : PlainEvent sampleRecord := ⟨⟨by decide,by decide⟩,⟨by decide,by decide⟩⟩
def sampleChunks (position : Nat) : List Text :=
  [(rendered true [sampleEvent]).take position,(rendered true [sampleEvent]).drop position]
theorem sample_partition (position : Nat) : (sampleChunks position).flatten = rendered true [sampleEvent] := by
  rw [sampleChunks,flatten_cons,flatten_singleton,take_append_drop]

/-- The second chunk begins with the line feed of the id, and the event has lost its id. -/
theorem cut_loses_id : ¬Transparent sampleParse [sampleEvent] (sampleChunks 10) := by
  rintro ⟨chunked,exact⟩
  have plain : ∀ event ∈ [sampleEvent], PlainEvent event.toRunEventRecord := by
    intro event member
    rw [mem_singleton.mp member]
    exact sample_plain
  have isCut : decide (idEnd 0 sampleEvent.toRunEventRecord ∈ ends 0 (sampleChunks 10)) = true := by decide
  rw [← chunked,received_cut,sample_partition,readAll_rendered true _ 0 plain,shownAll,isCut] at exact
  have same := congrArg PythonSseEvent.id (List.cons.inj exact).1
  cases same

set_option maxRecDepth 4000 in
/-- A cut within the id changes nothing. -/
theorem cut_keeps_id : Transparent sampleParse [sampleEvent] (sampleChunks 7) := by
  refine (transparent_iff sampleParse true [sampleEvent] (sampleChunks 7) (sample_partition 7)).mpr ⟨?_,?_⟩
  · intro event member
    rw [mem_singleton.mp member]
    refine ⟨sample_plain.id,sample_plain.type,?_⟩
    have isDouble : nearest (Int.natAbs 1) = 1 := by decide
    have exactOne : asDouble 1 = .integer 1 := by
      have small : 1 < infinite := by
        rw [infinite,Nat.one_shiftLeft]
        exact @Nat.one_lt_two_pow 1024 nofun
      rw [asDouble,isDouble,if_pos small]
      rfl
    simp only [Portable,Throughout,ThroughoutEntries,eventData,sampleEvent,sampleRecord,textOrNull,Option.map_none,Option.getD_none,
      Finite,Exact,and_true,true_and]
    exact exactOne
  · intro _
    decide

end Codebot.SseFrames
