import Codebot.ChatMessages

/-!
The text of an answer while it is streamed. The chat runtime merges each delta into the text that it shows: one that
begins with the whole text replaces it, and one that the text ends with is dropped (`answerShown_iff`).
-/
namespace Codebot.AssistantDeltas
open Texts ChatMessages List

/-- `streamedTextByMessageIdRef` and `messagesRef`. -/
structure Runtime where
  streamedText : Nat → Option Text
  messages : List AgUiMessage
/-- The events of a run as far as they concern texts. -/
inductive AgUiEvent
  | textMessageStart (messageId : Nat)
  | textMessageContent (messageId : Nat) (delta : Text)
  | other
deriving DecidableEq
/-- `beginCurrentRun`: the messages are synchronized with themselves. -/
def beginCurrentRun (messages : List AgUiMessage) : Runtime := ⟨fun _ => none,mergeAgUiMessageLists messages messages⟩
def mergeAssistantTextDelta (existingText delta : Text) : Text :=
  if delta = [] then existingText
  else if existingText = [] then delta
  else if existingText <+: delta then delta
  else if delta <:+ existingText then existingText
  else existingText ++ delta
def Runtime.shownText (runtime : Runtime) (messageId : Nat) : Text :=
  ((runtime.messages.find? fun message => message.id = messageId).map AgUiMessage.plainText).getD []
def answer (messageId : Nat) (t : Text) : AgUiMessage := ⟨messageId,.assistant,.text t⟩
def ensureAssistantMessage (runtime : Runtime) (messageId : Nat) : Runtime :=
  if runtime.messages.any fun message => message.id = messageId then runtime
  else { runtime with messages := runtime.messages ++ [answer messageId []] }

def appendAssistantDelta (runtime : Runtime) (messageId : Nat) (delta : Text) : Runtime :=
  let existingText := (runtime.streamedText messageId).getD (runtime.shownText messageId)
  let nextText := mergeAssistantTextDelta existingText delta
  if nextText = existingText then runtime
  else {
    streamedText := Function.update runtime.streamedText messageId (some nextText)
    messages :=
      if runtime.messages.any fun message => message.id = messageId then
        runtime.messages.map fun message => if message.id = messageId then answer messageId nextText else message
      else runtime.messages ++ [answer messageId nextText] }

def handleAgUiEvent (runtime : Runtime) : AgUiEvent → Runtime
  | .textMessageStart messageId => ensureAssistantMessage runtime messageId
  | .textMessageContent messageId delta => appendAssistantDelta runtime messageId delta
  | .other => runtime
def handleAll (runtime : Runtime) (events : List AgUiEvent) : Runtime := events.foldl handleAgUiEvent runtime
/-- The deltas of one message, in their order. -/
def deltasOf (messageId : Nat) (events : List AgUiEvent) : List Text :=
  events.filterMap fun event =>
    match event with
    | .textMessageContent other delta => if other = messageId then some delta else none
    | _ => none
/-- What is shown of a message is what was sent: no delta is dropped, and none replaces the text
    before it. -/
structure Faithful (runtime : Runtime) (messageId : Nat) (events : List AgUiEvent) : Prop where
  whole : (handleAll runtime events).shownText messageId = (deltasOf messageId events).flatten
  each : ∀ before delta after, events = before ++ .textMessageContent messageId delta :: after →
    (handleAll runtime (before ++ [.textMessageContent messageId delta])).shownText messageId =
      (handleAll runtime before).shownText messageId ++ delta
def Distinct (sent delta : Text) : Prop := sent ≠ [] → ¬ sent <+: delta ∧ ¬ delta <:+ sent

theorem merge_length (existingText delta : Text) :
    mergeAssistantTextDelta existingText delta = existingText ++ delta ∨
      (mergeAssistantTextDelta existingText delta).length < existingText.length + delta.length := by
  unfold mergeAssistantTextDelta
  split_ifs with blank first snapshot repeated
  · exact .inl (by rw [blank,append_nil])
  · exact .inl (by rw [first,nil_append])
  · have some := length_pos_iff.mpr first
    exact .inr (by omega)
  · have some := length_pos_iff.mpr blank
    exact .inr (by omega)
  · exact .inl rfl

theorem merge_eq_append {existingText delta : Text} (some : delta ≠ []) :
    mergeAssistantTextDelta existingText delta = existingText ++ delta ↔ Distinct existingText delta := by
  unfold mergeAssistantTextDelta
  rw [if_neg some]
  constructor
  · intro appended present
    rw [if_neg present] at appended
    split_ifs at appended with snapshot repeated
    · exact absurd (self_eq_append_left.mp appended) present
    · exact absurd (self_eq_append_right.mp appended) some
    · exact ⟨snapshot,repeated⟩
  · intro distinct
    split_ifs with first snapshot repeated
    · rw [first,nil_append]
    · exact absurd snapshot (distinct first).1
    · exact absurd repeated (distinct first).2
    · rfl

def mergeAll (existingText : Text) (deltas : List Text) : Text := deltas.foldl mergeAssistantTextDelta existingText

theorem mergeAll_length (existingText : Text) (deltas : List Text) :
    (mergeAll existingText deltas).length ≤ existingText.length + deltas.flatten.length := by
  induction deltas generalizing existingText with
  | nil => exact Nat.le_add_right _ _
  | cons delta deltas ih =>
    have rest : (mergeAll existingText (delta :: deltas)).length ≤
        (mergeAssistantTextDelta existingText delta).length + deltas.flatten.length := ih _
    rw [flatten_cons,length_append]
    rcases merge_length existingText delta with appended | shorter
    · rw [appended,length_append] at rest
      omega
    · omega

theorem mergeAll_cons (existingText first : Text) (deltas : List Text) :
    mergeAll existingText (first :: deltas) = existingText ++ (first :: deltas).flatten ↔
      mergeAssistantTextDelta existingText first = existingText ++ first ∧
        mergeAll (existingText ++ first) deltas = existingText ++ first ++ deltas.flatten := by
  rw [flatten_cons,← append_assoc]
  constructor
  · intro whole
    have isRest : mergeAll existingText (first :: deltas) = mergeAll (mergeAssistantTextDelta existingText first) deltas := rfl
    rw [isRest] at whole
    rcases merge_length existingText first with appended | shorter
    · rw [appended] at whole
      exact ⟨appended,whole⟩
    · have lengths := congrArg List.length whole
      have bound := mergeAll_length (mergeAssistantTextDelta existingText first) deltas
      rw [length_append,length_append] at lengths
      omega
  · rintro ⟨appended,whole⟩
    rw [← whole,← appended]
    rfl

theorem mergeAll_eq {existingText : Text} {deltas : List Text} (some : ∀ delta ∈ deltas, delta ≠ []) :
    mergeAll existingText deltas = existingText ++ deltas.flatten ↔
      ∀ before delta after, deltas = before ++ delta :: after → Distinct (existingText ++ before.flatten) delta := by
  induction deltas generalizing existingText with
  | nil => simp [mergeAll]
  | cons first deltas ih =>
    rw [mergeAll_cons,merge_eq_append (some first mem_cons_self),
      ih fun delta member => some delta (mem_cons_of_mem _ member)]
    constructor
    · rintro ⟨here,later⟩ before delta after split
      cases before with
      | nil =>
        cases split
        simpa using here
      | cons second before =>
        obtain ⟨rfl,rest⟩ := List.cons.inj split
        rw [flatten_cons,← append_assoc]
        exact later before delta after rest
    · intro all
      refine ⟨by simpa using all [] first deltas rfl,?_⟩
      rintro before delta after rfl
      have further := all (first :: before) delta after rfl
      rw [flatten_cons,← append_assoc] at further
      exact further

def Consistent (runtime : Runtime) : Prop := ∀ messageId t, runtime.streamedText messageId = some t → runtime.shownText messageId = t
theorem consistent_begun (messages : List AgUiMessage) : Consistent (beginCurrentRun messages) :=
  fun _ _ streamed => nomatch streamed

variable {runtime : Runtime}
theorem Consistent.existing (consistent : Consistent runtime) (messageId : Nat) :
    (runtime.streamedText messageId).getD (runtime.shownText messageId) = runtime.shownText messageId := by
  cases streamed : runtime.streamedText messageId with
  | none => rfl
  | some t => exact (consistent messageId t streamed).symm

variable {messageId : Nat} {messages : List AgUiMessage}

theorem shown_added (streamedText : Nat → Option Text)
    (absent : ¬ messages.any fun message => message.id = messageId) (t : Text) (other : Nat) :
    (⟨streamedText,messages ++ [answer messageId t]⟩ : Runtime).shownText other =
      if other = messageId then t else (⟨streamedText,messages⟩ : Runtime).shownText other := by
  have none : messages.find? (fun message => message.id = messageId) = none := by
    simpa [find?_eq_none] using absent
  unfold Runtime.shownText
  rw [find?_append]
  split
  · rename_i same
    rw [same,none]
    simp [answer,AgUiMessage.plainText]
  · rename_i different
    have apart : ¬ (answer messageId t).id = other := fun same => different same.symm
    simp [apart]

theorem shown_replaced (streamedText : Nat → Option Text)
    (present : messages.any fun message => message.id = messageId) (t : Text) (other : Nat) :
    (⟨streamedText,messages.map fun message => if message.id = messageId then answer messageId t else message⟩ : Runtime).shownText other =
      if other = messageId then t else (⟨streamedText,messages⟩ : Runtime).shownText other := by
  have sameIds : (fun message : AgUiMessage => decide ((if message.id = messageId then answer messageId t else message).id = other)) =
      fun message => decide (message.id = other) := by
    funext message
    split
    · rename_i same
      rw [same]
      rfl
    · rfl
  unfold Runtime.shownText
  rw [find?_map,Function.comp_def,sameIds]
  split
  · rename_i same
    subst same
    obtain ⟨message,found⟩ := Option.isSome_iff_exists.mp ((find?_isSome).mpr (by simpa using present) :
      (messages.find? fun message => message.id = other).isSome)
    have isOther : message.id = other := by simpa using find?_some found
    rw [found]
    simp [isOther,answer,AgUiMessage.plainText]
  · rename_i different
    cases found : messages.find? fun message => message.id = other with
    | none => rfl
    | some message =>
      have isOther : message.id = other := by simpa using find?_some found
      have apart : ¬ message.id = messageId := fun same => different (isOther.symm.trans same)
      simp [apart]

theorem handle_shown (consistent : Consistent runtime) (event : AgUiEvent) :
    Consistent (handleAgUiEvent runtime event) ∧ ∀ messageId,
      (handleAgUiEvent runtime event).shownText messageId =
        mergeAll (runtime.shownText messageId) (deltasOf messageId [event]) := by
  cases event with
  | textMessageStart started =>
    have same : ∀ messageId, (ensureAssistantMessage runtime started).shownText messageId = runtime.shownText messageId := by
      intro messageId
      unfold ensureAssistantMessage
      split
      · rfl
      · rename_i absent
        rw [shown_added _ absent]
        split
        · rename_i isStarted
          have none : runtime.messages.find? (fun message => message.id = started) = none := by
            simpa [find?_eq_none] using absent
          rw [isStarted,Runtime.shownText,none]
          rfl
        · rfl
    refine ⟨?_,same⟩
    intro messageId t streamed
    refine (same messageId).trans (consistent messageId t ?_)
    rw [← streamed]
    simp only [handleAgUiEvent,ensureAssistantMessage]
    split <;> rfl
  | textMessageContent written delta =>
    have texts : ∀ messageId, (appendAssistantDelta runtime written delta).shownText messageId =
        if messageId = written then mergeAssistantTextDelta (runtime.shownText written) delta else runtime.shownText messageId := by
      intro messageId
      unfold appendAssistantDelta
      simp only [consistent.existing]
      split
      · rename_i unchanged
        rw [unchanged]
        split
        · rename_i same
          rw [same]
        · rfl
      · split
        · rename_i present
          exact shown_replaced _ present _ messageId
        · rename_i absent
          exact shown_added _ absent _ messageId
    refine ⟨?_,?_⟩
    · intro messageId t streamed
      rw [handleAgUiEvent,texts]
      rw [handleAgUiEvent,appendAssistantDelta] at streamed
      simp only [consistent.existing] at streamed
      split at streamed
      · rename_i unchanged
        rw [unchanged,← consistent messageId t streamed]
        split
        · rename_i same
          rw [same]
        · rfl
      · simp only [Function.update_apply] at streamed
        split at streamed
        · rename_i same
          rw [if_pos same]
          exact Option.some.inj streamed
        · rename_i different
          rw [if_neg different]
          exact consistent messageId t streamed
    · intro messageId
      rw [handleAgUiEvent,texts]
      by_cases same : messageId = written
      · subst same
        simp [deltasOf,mergeAll]
      · have apart : ¬ written = messageId := fun back => same back.symm
        simp [deltasOf,mergeAll,same,apart]
  | other => exact ⟨consistent,fun _ => rfl⟩

theorem deltasOf_append (messageId : Nat) (first second : List AgUiEvent) :
    deltasOf messageId (first ++ second) = deltasOf messageId first ++ deltasOf messageId second :=
  filterMap_append

theorem handleAll_shown (consistent : Consistent runtime) (events : List AgUiEvent) :
    ∀ messageId, (handleAll runtime events).shownText messageId =
      mergeAll (runtime.shownText messageId) (deltasOf messageId events) := by
  induction events generalizing runtime with
  | nil => exact fun _ => rfl
  | cons event events ih =>
    intro messageId
    obtain ⟨kept,shown⟩ := handle_shown consistent event
    have rest : (handleAll runtime (event :: events)).shownText messageId = _ := ih kept messageId
    have both : deltasOf messageId (event :: events) = deltasOf messageId [event] ++ deltasOf messageId events :=
      deltasOf_append messageId [event] events
    rw [rest,shown,both]
    exact foldl_append.symm

/-- Of a message that says nothing yet, what is shown is what was sent exactly if no delta looks
    like the text before it. -/
theorem answerShown_iff (messages : List AgUiMessage) (messageId : Nat) (events : List AgUiEvent)
    (silent : (beginCurrentRun messages).shownText messageId = []) (some : ∀ delta ∈ deltasOf messageId events, delta ≠ []) :
    Faithful (beginCurrentRun messages) messageId events ↔
      ∀ before delta after, deltasOf messageId events = before ++ delta :: after → Distinct before.flatten delta := by
  have shown : ∀ events, (handleAll (beginCurrentRun messages) events).shownText messageId =
      mergeAll [] (deltasOf messageId events) := by
    intro events
    rw [handleAll_shown (consistent_begun messages),silent]
  have whole_iff := @mergeAll_eq [] _ some
  simp only [nil_append] at whole_iff
  constructor
  · intro faithful
    exact whole_iff.mp ((shown events).symm.trans faithful.whole)
  · intro distinct
    refine ⟨(shown events).trans (whole_iff.mpr distinct),?_⟩
    rintro before delta after rfl
    have isDelta : deltasOf messageId [.textMessageContent messageId delta] = [delta] := by simp [deltasOf]
    have split : deltasOf messageId (before ++ .textMessageContent messageId delta :: after) =
        deltasOf messageId before ++ delta :: deltasOf messageId after := by
      rw [← singleton_append,deltasOf_append,deltasOf_append,isDelta,singleton_append]
    rw [split] at distinct some
    have early : ∀ first ∈ deltasOf messageId before, first ≠ [] := fun first member => some first (mem_append_left _ member)
    have sent : mergeAll [] (deltasOf messageId before) = (deltasOf messageId before).flatten := by
      refine (mergeAll_eq early).mpr ?_
      intro first second third isBefore
      refine distinct first second (third ++ delta :: deltasOf messageId after) ?_
      rw [isBefore,append_assoc,cons_append]
    rw [shown,shown,deltasOf_append,isDelta,mergeAll,foldl_append]
    have appended := (merge_eq_append (some delta (mem_append_right _ mem_cons_self))).mpr
      (distinct (deltasOf messageId before) delta (deltasOf messageId after) rfl)
    rw [← sent] at appended
    exact appended

def cutEvents : List AgUiEvent :=
  [.textMessageStart 7,.textMessageContent 7 (text "20"),.other,.textMessageContent 7 (text "5 %")]

theorem cut_shown : Faithful (beginCurrentRun []) 7 cutEvents := by
  refine (answerShown_iff [] 7 cutEvents rfl (by decide)).mpr ?_
  intro before delta after split
  have deltas : deltasOf 7 cutEvents = [text "20",text "5 %"] := by decide
  rw [deltas] at split
  rcases before with _ | ⟨first,_ | ⟨second,rest⟩⟩
  · exact fun present => absurd rfl present
  · cases split
    exact fun _ => by decide
  · simp at split

/-- Of 200 that is cut before its last digit, 20 is shown. -/
theorem digit_dropped : ¬ ∀ (messages : List AgUiMessage) (messageId : Nat) (events : List AgUiEvent),
    (beginCurrentRun messages).shownText messageId = [] → (∀ delta ∈ deltasOf messageId events, delta ≠ []) →
      Faithful (beginCurrentRun messages) messageId events := by
  intro holds
  have faithful := holds [] 7 [.textMessageContent 7 (text "20"),.textMessageContent 7 (text "0")] rfl (by decide)
  exact absurd faithful.whole (by decide)

end Codebot.AssistantDeltas
