import Codebot.Runs
import Codebot.Texts
import Mathlib.Data.List.Nodup

/-!
The memory of a conversation. A compaction reads the stored summary, the message that it covers and the messages after
that one, has the model summarize them, and stores the summary whatever the memory is by then (`continues_iff`).
Messages come in at the end of the conversation.
-/
namespace Codebot.ConversationMemories
open Texts Runs List
set_option linter.unusedSectionVars false

inductive Role
  | user
  | assistant
  | other
deriving DecidableEq
structure Message where
  id : Nat
  role : Role
  content : Text
deriving DecidableEq
structure Memory where
  summary : Text
  coveredMessageId : Option Nat
  summaryVersion : Nat
  estimatedTokens : Nat
/-- The tables of Unicode, and the thresholds of `should_compact`. -/
structure Settings where
  unicode : Unicode
  thresholdMessages : Nat
  thresholdTokens : Nat
  summaryPrompt : Text → Text
/-- What a summary is made of: the summary and the covered message that were read, and the messages. -/
structure Source where
  previous : Option Text
  covered : Option Nat
  messages : List Message

/-- The next statement of `_maybe_compact_conversation`. -/
inductive Phase
  | idle
  | checking (covered : Option Nat)
  | building
  | reading (previous : Option Text)
  | collecting (previous : Option Text) (covered : Option Nat)
  | calling (source : Source)
  | storing (source : Source) (summary : Text)

variable {Compaction : Type}
structure State (Compaction : Type) where
  messages : List Message
  memory : Option Memory
  phase : Compaction → Phase

/-- A model that `answers` sends its text in chunks. -/
inductive Label (Compaction : Type)
  | message (message : Message)
  | start (compaction : Compaction)
  | check (compaction : Compaction)
  | readSummary (compaction : Compaction)
  | readCovered (compaction : Compaction)
  | collect (compaction : Compaction)
  | answer (compaction : Compaction) (chunks : List Text)
  | upsert (compaction : Compaction)
  | fail (compaction : Compaction)

def initial : State Compaction := ⟨[],none,fun _ => .idle⟩
def estimateTokens (t : Text) : Nat := max 1 (t.length / 4)
def contextMessages (unicode : Unicode) (messages : List Message) : List Message :=
  messages.filterMap fun message =>
    if message.role = .other ∨ strip unicode message.content = [] then none
    else some { message with content := strip unicode message.content }
def coveredOf (memory : Option Memory) : Option Nat := memory.bind (·.coveredMessageId)
def previousSummary (unicode : Unicode) (memory : Option Memory) : Option Text :=
  (memory.map fun memory => strip unicode memory.summary).filter (· ≠ [])
/-- `_messages_for_compaction`: the messages after the covered one, or all where it is not found. -/
def messagesForCompaction (context : List Message) : Option Nat → List Message
  | none => context
  | some id =>
    if context.any (·.id = id) then (context.dropWhile (·.id ≠ id)).tail else context
def shouldCompact (settings : Settings) (messages : List Message) : Bool :=
  settings.thresholdMessages ≤ messages.length ||
    settings.thresholdTokens ≤ (messages.map fun message => estimateTokens message.content).foldl (· + ·) 0
def roleText : Role → Text
  | .user => text "user"
  | .assistant => text "assistant"
  | .other => []
/-- The transcript of `build_summary_messages`. -/
def transcript (source : Source) : Text :=
  List.intercalate (text "\n") ((source.previous.toList.map (text "previous_memory_summary: " ++ ·)) ++
    source.messages.map fun message => roleText message.role ++ text ": " ++ message.content)
/-- `" ".join(text.split())`. -/
def squash (unicode : Unicode) (t : Text) : Text :=
  List.intercalate [32] ((t.splitOnP unicode.space).filter (· ≠ []))
def upsertConversationMemory (existing : Option Memory) (summary : Text) (covered : Option Nat) (tokens : Nat) : Memory where
  summary := summary
  coveredMessageId := covered
  summaryVersion := existing.elim 1 (·.summaryVersion + 1)
  estimatedTokens := tokens
/-- `covered_message_id`. -/
def Source.last (source : Source) : Option Nat := source.messages.getLast?.map (·.id)
def State.context (settings : Settings) (s : State Compaction) : List Message := contextMessages settings.unicode s.messages

section
variable [DecidableEq Compaction]

def State.goto (s : State Compaction) (c : Compaction) (phase : Phase) : State Compaction :=
  { s with phase := Function.update s.phase c phase }

def step (settings : Settings) (s : State Compaction) : Label Compaction → Option (State Compaction)
  | .message message =>
    if message.id ∈ s.messages.map (·.id) then none else some { s with messages := s.messages ++ [message] }
  | .start c =>
    match s.phase c with
    | .idle => some (s.goto c (.checking (coveredOf s.memory)))
    | _ => none
  | .check c =>
    match s.phase c with
    | .checking covered =>
      let messages := messagesForCompaction (s.context settings) covered
      some (s.goto c (if shouldCompact settings messages then .building else .idle))
    | _ => none
  | .readSummary c =>
    match s.phase c with
    | .building => some (s.goto c (.reading (previousSummary settings.unicode s.memory)))
    | _ => none
  | .readCovered c =>
    match s.phase c with
    | .reading previous => some (s.goto c (.collecting previous (coveredOf s.memory)))
    | _ => none
  | .collect c =>
    match s.phase c with
    | .collecting previous covered =>
      let messages := messagesForCompaction (s.context settings) covered
      some (s.goto c (if messages = [] then .idle else .calling ⟨previous,covered,messages⟩))
    | _ => none
  | .answer c chunks =>
    match s.phase c with
    | .calling source =>
      let summary := strip settings.unicode (squash settings.unicode chunks.flatten)
      some (s.goto c (if summary = [] then .idle else .storing source summary))
    | _ => none
  | .upsert c =>
    match s.phase c with
    | .storing source summary =>
      let tokens := estimateTokens (settings.summaryPrompt (transcript source))
      some { s.goto c .idle with memory := some (upsertConversationMemory s.memory summary source.last tokens) }
    | _ => none
  | .fail c =>
    match s.phase c with
    | .idle => none
    | _ => some (s.goto c .idle)

def position (context : List Message) : Option Nat → Nat
  | none => 0
  | some id => context.findIdx (·.id = id) + 1

/-- A memory covers no fewer messages than the one before it, and is made of its summary and the messages since. -/
structure Continues (unicode : Unicode) (context : List Message) (former : Option Memory) (source : Source)
    (memory : Memory) : Prop where
  forward : position context (coveredOf former) ≤ position context memory.coveredMessageId
  previous : source.previous = previousSummary unicode former
  stretch : ∃ before after, context = before ++ source.messages ++ after ∧
    before.length = position context (coveredOf former) ∧
      (before ++ source.messages).length = position context memory.coveredMessageId

/-- What a compaction stores continues the memory, and nothing else changes it. -/
def Kept (settings : Settings) (s : State Compaction) (label : Label Compaction) (next : State Compaction) : Prop :=
  match label with
  | .upsert c => ∀ source summary, s.phase c = .storing source summary →
      ∃ memory, next.memory = some memory ∧ memory.summary = summary ∧
        Continues settings.unicode (s.context settings) s.memory source memory
  | _ => next.memory = s.memory
/-- The memory has the summary and the covered message that the compaction read. -/
def Unchanged (settings : Settings) (memory : Option Memory) : Phase → Prop
  | .storing source _ => previousSummary settings.unicode memory = source.previous ∧ coveredOf memory = source.covered
  | _ => True
instance (settings : Settings) (memory : Option Memory) : ∀ phase, Decidable (Unchanged settings memory phase)
  | .storing source _ =>
    inferInstanceAs (Decidable (previousSummary settings.unicode memory = source.previous ∧ coveredOf memory = source.covered))
  | .idle | .checking _ | .building | .reading _ | .collecting _ _ | .calling _ => .isTrue trivial
def Undisturbed (settings : Settings) (s : State Compaction) : Label Compaction → Prop
  | .upsert c => Unchanged settings s.memory (s.phase c)
  | _ => True
instance (settings : Settings) (s : State Compaction) : ∀ label, Decidable (Undisturbed settings s label)
  | .upsert c => inferInstanceAs (Decidable (Unchanged settings s.memory (s.phase c)))
  | .message _ | .start _ | .check _ | .readSummary _ | .readCovered _ | .collect _ | .answer _ _ | .fail _ => .isTrue trivial
def ids (messages : List Message) : List Nat := messages.map (·.id)
def Known (context : List Message) (covered : Option Nat) : Prop := ∀ id ∈ covered, id ∈ ids context

variable {id : Nat}
theorem exists_of_known {context : List Message} (known : id ∈ ids context) :
    ∃ message ∈ context, decide (message.id = id) = true := by
  obtain ⟨message,member,same⟩ := mem_map.mp known
  exact ⟨message,member,decide_eq_true same⟩
theorem findIdx_known {context : List Message} (known : id ∈ ids context) :
    ∃ message, context[context.findIdx (·.id = id)]? = some message ∧ message.id = id := by
  have inside := findIdx_lt_length_of_exists (exists_of_known known)
  refine ⟨context[context.findIdx (·.id = id)],getElem?_eq_getElem inside,?_⟩
  have holds := findIdx_getElem (p := fun message : Message => decide (message.id = id)) (w := inside)
  exact of_decide_eq_true holds

theorem position_injective {context : List Message} {first second : Option Nat} (knownFirst : Known context first)
    (knownSecond : Known context second) (same : position context first = position context second) : first = second := by
  cases first with
  | none =>
    cases second with
    | none => rfl
    | some id => simp [position] at same
  | some id =>
    cases second with
    | none => simp [position] at same
    | some other =>
      obtain ⟨message,found,isId⟩ := findIdx_known (knownFirst id rfl)
      obtain ⟨second,foundSecond,isOther⟩ := findIdx_known (knownSecond other rfl)
      have index : context.findIdx (·.id = id) = context.findIdx (·.id = other) := Nat.succ.inj same
      rw [index,foundSecond] at found
      cases found
      rw [← isId,isOther]

variable {covered : Option Nat}
theorem position_append {context : List Message} (known : Known context covered) (more : List Message) :
    position (context ++ more) covered = position context covered := by
  cases covered with
  | none => rfl
  | some id =>
    have inside := findIdx_lt_length_of_exists (exists_of_known (known id rfl))
    simp only [position,findIdx_append,if_pos inside]
theorem Known.append {context : List Message} (known : Known context covered) (more : List Message) :
    Known (context ++ more) covered := by
  intro id here
  rw [ids,map_append]
  exact mem_append_left _ (known id here)

theorem position_last {before messages after : List Message} {context : List Message}
    (distinct : (ids context).Nodup) (split : context = before ++ messages ++ after) (some : messages ≠ []) :
    position context (messages.getLast?.map (·.id)) = (before ++ messages).length := by
  obtain ⟨messages,last,rfl⟩ := eq_nil_or_concat messages |>.resolve_left some
  have shape : context = (before ++ messages) ++ last :: after := by simp [split]
  rw [concat_eq_append,getLast?_concat]
  have absent : ∀ message ∈ before ++ messages, decide (message.id = last.id) = false := by
    intro message member
    rw [shape,ids,map_append,map_cons] at distinct
    have apart := (nodup_append.mp distinct).2.2 message.id (mem_map_of_mem member) last.id mem_cons_self
    exact decide_eq_false apart
  have index : context.findIdx (·.id = last.id) = (before ++ messages).length := by
    rw [shape,findIdx_append,if_neg,findIdx_cons]
    · simp
    · rw [findIdx_eq_length_of_false absent]
      exact Nat.lt_irrefl _
  simp only [Option.map_some,position,index,length_append,length_cons,length_nil]
  omega

theorem dropWhile_split {context : List Message} (known : id ∈ ids context) :
    ∃ before, context = before ++ (context.dropWhile (·.id ≠ id)).tail ∧ before.length = context.findIdx (·.id = id) + 1 := by
  induction context with
  | nil => cases known
  | cons message rest ih =>
    by_cases here : message.id = id
    · refine ⟨[message],?_,?_⟩
      · rw [dropWhile_cons_of_neg (by simp [here])]
        rfl
      · simp [findIdx_cons,here]
    · have later : id ∈ ids rest := (mem_cons.mp known).resolve_left fun same => here same.symm
      obtain ⟨before,split,length⟩ := ih later
      refine ⟨message :: before,?_,?_⟩
      · rw [dropWhile_cons_of_pos (by simp [here]),cons_append,← split]
      · simp [findIdx_cons,here,length]

theorem messagesForCompaction_split {context : List Message} (known : Known context covered) :
    ∃ before, context = before ++ messagesForCompaction context covered ∧ before.length = position context covered := by
  cases covered with
  | none => exact ⟨[],rfl,rfl⟩
  | some id =>
    have found : context.any (·.id = id) = true := any_eq_true.mpr (exists_of_known (known id rfl))
    rw [messagesForCompaction,if_pos found]
    exact dropWhile_split (known id rfl)

/-- The messages of a source come right after its covered message. -/
structure Gathered (context : List Message) (source : Source) : Prop where
  known : Known context source.covered
  some : source.messages ≠ []
  stretch : ∃ before after, context = before ++ source.messages ++ after ∧ before.length = position context source.covered
/-- What is known of a compaction. -/
def Stands (context : List Message) : Phase → Prop
  | .checking covered | .collecting _ covered => Known context covered
  | .calling source | .storing source _ => Gathered context source
  | _ => True
structure Sound (settings : Settings) (s : State Compaction) : Prop where
  distinct : (ids s.messages).Nodup
  covered : Known (s.context settings) (coveredOf s.memory)
  stands : ∀ c, Stands (s.context settings) (s.phase c)
theorem sound_initial (settings : Settings) : Sound settings (initial : State Compaction) where
  distinct := nodup_nil
  covered _ here := nomatch here
  stands _ := trivial

variable {source : Source}

theorem Gathered.append {context : List Message} (gathered : Gathered context source) (more : List Message) :
    Gathered (context ++ more) source where
  known := gathered.known.append more
  some := gathered.some
  stretch := by
    obtain ⟨before,after,split,length⟩ := gathered.stretch
    refine ⟨before,after ++ more,by rw [split]; simp,?_⟩
    rw [position_append gathered.known]
    exact length

theorem Stands.append {context : List Message} {phase : Phase} (stands : Stands context phase) (more : List Message) :
    Stands (context ++ more) phase := by
  cases phase with
  | idle | building | reading => trivial
  | checking | collecting => exact Known.append stands more
  | calling | storing => exact Gathered.append stands more
theorem contextMessages_append (unicode : Unicode) (messages more : List Message) :
    contextMessages unicode (messages ++ more) = contextMessages unicode messages ++ contextMessages unicode more :=
  filterMap_append

theorem ids_context_sublist (unicode : Unicode) (messages : List Message) :
    (ids (contextMessages unicode messages)).Sublist (ids messages) := by
  induction messages with
  | nil => exact List.Sublist.refl _
  | cons message rest ih =>
    unfold contextMessages
    rw [filterMap_cons]
    split_ifs with left
    · exact ih.cons message.id
    · exact ih.cons_cons message.id

variable {settings : Settings}
variable {s : State Compaction}
theorem Sound.distinct_context (sound : Sound settings s) : (ids (s.context settings)).Nodup :=
  sound.distinct.sublist (ids_context_sublist _ _)

theorem sound_goto {s : State Compaction} (sound : Sound settings s) (c : Compaction) {phase : Phase}
    (stands : Stands (s.context settings) phase) : Sound settings (s.goto c phase) where
  distinct := sound.distinct
  covered := sound.covered
  stands other := by
    show Stands (s.context settings) (Function.update s.phase c phase other)
    by_cases same : other = c
    · subst same
      rw [Function.update_self]
      exact stands
    · rw [Function.update_of_ne same]
      exact sound.stands other

theorem sound_message (sound : Sound settings s) {message : Message}
    (fresh : message.id ∉ s.messages.map (·.id)) : Sound settings { s with messages := s.messages ++ [message] } := by
  have context : State.context settings { s with messages := s.messages ++ [message] } =
      s.context settings ++ contextMessages settings.unicode [message] := contextMessages_append _ _ _
  constructor
  · show (ids (s.messages ++ [message])).Nodup
    rw [ids,map_append,nodup_append]
    refine ⟨sound.distinct,nodup_singleton _,?_⟩
    intro id member other isNew same
    cases mem_singleton.mp isNew
    cases same
    exact fresh member
  · rw [context]
    exact sound.covered.append _
  · intro c
    rw [context]
    exact (sound.stands c).append _

theorem Gathered.last_known {context : List Message} (gathered : Gathered context source) :
    Known context source.last := by
  obtain ⟨before,after,split,-⟩ := gathered.stretch
  intro id here
  obtain ⟨message,last,rfl⟩ := Option.map_eq_some_iff.mp here
  have member : message ∈ context := by
    rw [split]
    exact mem_append_left _ (mem_append_right _ (mem_of_getLast? last))
  exact mem_map_of_mem member

theorem sound_step (settings : Settings) (s : State Compaction) (label : Label Compaction) (t : State Compaction)
    (sound : Sound settings s) (stepped : step settings s label = some t) : Sound settings t := by
  cases label with
  | message message =>
    simp only [step] at stepped
    split_ifs at stepped with known
    cases stepped
    exact sound_message sound known
  | start c =>
    simp only [step] at stepped
    split at stepped
    · cases stepped
      exact sound_goto sound c sound.covered
    · cases stepped
  | check c =>
    simp only [step] at stepped
    split at stepped
    · cases stepped
      refine sound_goto sound c ?_
      split_ifs <;> trivial
    · cases stepped
  | readSummary c =>
    simp only [step] at stepped
    split at stepped
    · cases stepped
      exact sound_goto sound c trivial
    · cases stepped
  | readCovered c =>
    simp only [step] at stepped
    split at stepped
    · cases stepped
      exact sound_goto sound c sound.covered
    · cases stepped
  | collect c =>
    simp only [step] at stepped
    split at stepped
    · next previous covered place =>
      cases stepped
      have known : Known (s.context settings) covered := by
        have stands := sound.stands c
        rwa [place] at stands
      refine sound_goto sound c ?_
      split_ifs with nothing
      · trivial
      · obtain ⟨before,split,length⟩ := messagesForCompaction_split known
        exact ⟨known,nothing,before,[],by rw [append_nil]; exact split,length⟩
    · cases stepped
  | answer c chunks =>
    simp only [step] at stepped
    split at stepped
    · next source place =>
      cases stepped
      have gathered : Gathered (s.context settings) source := by
        have stands := sound.stands c
        rwa [place] at stands
      refine sound_goto sound c ?_
      split_ifs
      · trivial
      · exact gathered
    · cases stepped
  | upsert c =>
    simp only [step] at stepped
    split at stepped
    · next source summary place =>
      cases stepped
      have gathered : Gathered (s.context settings) source := by
        have stands := sound.stands c
        rwa [place] at stands
      have went := @sound_goto _ _ _ _ sound c .idle trivial
      exact ⟨went.distinct,gathered.last_known,went.stands⟩
    · cases stepped
  | fail c =>
    simp only [step] at stepped
    split at stepped
    · cases stepped
    · cases stepped
      exact sound_goto sound c trivial

theorem continues_source {unicode : Unicode} {context : List Message} (distinct : (ids context).Nodup) {former : Option Memory}
    (known : Known context (coveredOf former)) {source : Source} (gathered : Gathered context source) {memory : Memory}
    (covered : memory.coveredMessageId = source.last) :
    Continues unicode context former source memory ↔
      previousSummary unicode former = source.previous ∧ coveredOf former = source.covered := by
  obtain ⟨before,after,split,length⟩ := gathered.stretch
  have last : position context memory.coveredMessageId = (before ++ source.messages).length := by
    rw [covered]
    exact position_last distinct split gathered.some
  constructor
  · intro continues
    obtain ⟨first,second,-,start,finish⟩ := continues.stretch
    refine ⟨continues.previous.symm,position_injective known gathered.known ?_⟩
    rw [last,length_append,length_append] at finish
    omega
  · rintro ⟨previous,same⟩
    rw [← same] at length
    refine ⟨?_,previous.symm,before,after,split,length,last.symm⟩
    rw [last,length_append]
    omega

theorem memory_kept {next : State Compaction} {label : Label Compaction} (other : ∀ c, label ≠ .upsert c)
    (stepped : step settings s label = some next) : next.memory = s.memory := by
  cases label with
  | message message =>
    simp only [step] at stepped
    split_ifs at stepped
    cases stepped
    rfl
  | upsert c => exact absurd rfl (other c)
  | start c | check c | readSummary c | readCovered c | collect c | answer c chunks =>
    simp only [step] at stepped
    split at stepped
    · cases stepped
      rfl
    · cases stepped
  | fail c =>
    simp only [step] at stepped
    split at stepped
    · cases stepped
    · cases stepped
      rfl

theorem kept_iff (sound : Sound settings s) (label : Label Compaction) :
    (∀ next, step settings s label = some next → Kept settings s label next) ↔ Undisturbed settings s label := by
  cases label with
  | upsert c =>
    cases place : s.phase c with
    | storing source summary =>
      have gathered : Gathered (s.context settings) source := by
        have stands := sound.stands c
        rwa [place] at stands
      have same (memory : Memory) (covered : memory.coveredMessageId = source.last) :=
        @continues_source settings.unicode _ sound.distinct_context _ sound.covered source gathered memory covered
      show _ ↔ Unchanged settings s.memory (s.phase c)
      rw [place]
      constructor
      · intro all
        have stepped := all _ (by simp only [step,place]; rfl)
        obtain ⟨memory,stored,-,continues⟩ := stepped source summary place
        cases stored
        exact (same _ rfl).mp continues
      · intro unchanged next stepped other text here
        simp only [step,place] at stepped
        cases stepped
        rw [place] at here
        cases here
        exact ⟨_,rfl,rfl,(same _ rfl).mpr unchanged⟩
    | _ =>
      show _ ↔ Unchanged settings s.memory (s.phase c)
      rw [place]
      refine ⟨fun _ => trivial,fun _ next stepped => ?_⟩
      simp only [step,place] at stepped
      cases stepped
  | _ =>
    refine ⟨fun _ => trivial,fun _ next stepped => memory_kept ?_ stepped⟩
    intro c same
    cases same

/-- Every summary that is stored along a run continues the memory before it exactly if it is stored on the memory
    that its compaction read. -/
theorem continues_iff (settings : Settings) (labels : List (Label Compaction)) :
    (∀ before label after mid next, labels = before ++ label :: after → run (step settings) initial before = some mid →
        step settings mid label = some next → Kept settings mid label next) ↔
      Meets (step settings) (Undisturbed settings) initial labels := by
  rw [@each_iff _ _ _ (fun s label => ∀ next, step settings s label = some next → Kept settings s label next) _ fun _ _ => Iff.rfl]
  exact @meets_iff _ _ _ _ (Sound settings) _ (fun s label t sound _ stepped => sound_step settings s label t sound stepped)
    (fun s label sound => kept_iff sound label) _ (sound_initial settings) _
end

def pairs : Settings where
  unicode := ascii
  thresholdMessages := 2
  thresholdTokens := 100
  summaryPrompt t := t
/-- A compaction of two runs overtakes another one, which then puts its older memory back. -/
def overtaken : List (Label Bool) :=
  [.message ⟨1,.user,text "a"⟩,.message ⟨2,.assistant,text "b"⟩,.start true,.check true,.readSummary true,.readCovered true,
    .collect true,.message ⟨3,.user,text "c"⟩,.start false,.check false,.readSummary false,.readCovered false,.collect false,
    .answer false [text "abc"],.upsert false,.answer true [text "ab"]]

theorem goes_back : ¬ ∀ (settings : Settings) (labels : List (Label Bool)) before label after mid next,
    labels = before ++ label :: after → run (step settings) initial before = some mid →
      step settings mid label = some next → Kept settings mid label next := by
  intro all
  have one := all pairs (overtaken ++ [Label.upsert true]) overtaken (.upsert true) [] _ _ rfl rfl rfl
  obtain ⟨memory,stored,-,continues⟩ := one _ _ rfl
  cases stored
  exact absurd continues.forward (by decide)
end Codebot.ConversationMemories
