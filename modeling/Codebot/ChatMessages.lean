import Codebot.Timeframes
import Mathlib.Data.List.Induction
import Mathlib.Data.List.Nodup

/-!
The messages of a chat as its runtime keeps them, and how it merges a list of messages into them. An incoming message
takes the place of the message of its id, or an answer that of the first answer with the same length and beginning
(`mergeLossless_iff`).
-/
namespace Codebot.ChatMessages
open Texts Timeframes List

inductive Role
  | user | assistant | system | developer | tool
deriving DecidableEq
/-- `content`: a text, or parts, of which a text part has a text, or nothing of either kind. -/
inductive Content
  | text (t : Text) | parts (list : List (Option Text)) | absent
deriving DecidableEq
structure AgUiMessage where
  id : Nat
  role : Role
  content : Content
deriving DecidableEq
/-- `agUiMessagePlainText`. -/
def AgUiMessage.plainText (message : AgUiMessage) : Text :=
  match message.content with
  | .text t => t
  | .parts list => (list.map fun part => part.getD []).flatten
  | .absent => []
/-- `replace(/\s+/g, " ")`, of a text that comes after white space or not. -/
def collapse : Bool → Text → Text
  | _, [] => []
  | inside, c :: t =>
    if trimmed c then if inside then collapse true t else 32 :: collapse true t
    else c :: collapse false t
def normalizedText (t : Text) : Text := trim (collapse false t)
def keyLength : Nat := 160
/-- `messageTextKey`: of a text that is not blank its length and its first characters. -/
def messageTextKey (t : Text) : Option (Nat × Text) :=
  if normalizedText t = [] then none else some ((normalizedText t).length,(normalizedText t).take keyLength)
/-- `agUiMessageTextKey`. -/
def AgUiMessage.textKey (message : AgUiMessage) : Option (Nat × Text) := messageTextKey message.plainText
def goesOn (first second : Text) : Prop := second <+: first ∧ second.length < first.length
instance (first second : Text) : Decidable (goesOn first second) := inferInstanceAs (Decidable (_ ∧ _))
/-- A message keeps its content where the incoming one has less of it. -/
def mergeAgUiMessageById (currentMessage nextMessage : AgUiMessage) : AgUiMessage :=
  if currentMessage.plainText ≠ [] ∧
      (nextMessage.plainText = [] ∨ goesOn currentMessage.plainText nextMessage.plainText) then
    { nextMessage with content := currentMessage.content }
  else nextMessage
def idIndex (merged : List AgUiMessage) (nextMessage : AgUiMessage) : Option Nat :=
  merged.findIdx? fun message => message.id = nextMessage.id
/-- The first answer with the key of an answer. -/
def textIndex (merged : List AgUiMessage) (nextMessage : AgUiMessage) : Option Nat :=
  if nextMessage.role = .assistant ∧ nextMessage.textKey ≠ none then
    merged.findIdx? fun message => message.role = nextMessage.role ∧ message.textKey = nextMessage.textKey
  else none

/-- The body of the loop of `mergeAgUiMessageLists`. -/
def mergeMessage (merged : List AgUiMessage) (nextMessage : AgUiMessage) : List AgUiMessage :=
  match idIndex merged nextMessage with
  | some i => merged.modify i (mergeAgUiMessageById · nextMessage)
  | none =>
    match textIndex merged nextMessage with
    | some i => merged.set i nextMessage
    | none => merged ++ [nextMessage]

def mergeAgUiMessageLists (currentMessages nextMessages : List AgUiMessage) : List AgUiMessage :=
  nextMessages.foldl mergeMessage currentMessages
def ids (messages : List AgUiMessage) : List Nat := messages.map (·.id)
def displaced (merged : List AgUiMessage) (nextMessage : AgUiMessage) : Option AgUiMessage :=
  if nextMessage.id ∈ ids merged then none else (textIndex merged nextMessage).bind fun i => merged[i]?

/-- The merge loses no message and no end of a text, and merging again changes nothing. -/
structure Lossless (current incoming merged : List AgUiMessage) : Prop where
  once : (ids merged).Nodup
  all : ∀ message ∈ incoming, message.id ∈ ids merged
  gone : ∀ message ∈ current, message.id ∉ ids merged → message.role = .assistant ∧
    ∃ other ∈ incoming, other.role = .assistant ∧ other.id ≠ message.id ∧
      normalizedText other.plainText = normalizedText message.plainText ∧
      ∃ i : Nat, current[i]? = some message ∧ merged[i]? = some other
  whole : ∀ message ∈ current, ∀ other ∈ merged, other.id = message.id → ¬ goesOn message.plainText other.plainText
  stable : mergeAgUiMessageLists merged incoming = merged

/-- The message whose place the incoming one takes is none that was merged before; it is merged
    later and with no less text, or the incoming one says the same. -/
def Spares (before merged : List AgUiMessage) (nextMessage : AgUiMessage) (later : List AgUiMessage) : Prop :=
  ∀ message ∈ displaced merged nextMessage, message.id ∉ ids before ∧
    (∀ other ∈ later, other.id = message.id → ¬ goesOn message.plainText other.plainText) ∧
    (message.id ∉ ids later → normalizedText nextMessage.plainText = normalizedText message.plainText)
@[simp] theorem mergeAgUiMessageById_id (message next : AgUiMessage) : (mergeAgUiMessageById message next).id = next.id := by
  unfold mergeAgUiMessageById
  split <;> rfl
@[simp] theorem plainText_with_content (message other : AgUiMessage) :
    ({ message with content := other.content } : AgUiMessage).plainText = other.plainText := rfl
theorem not_goesOn_self (t : Text) : ¬ goesOn t t := fun more => Nat.lt_irrefl _ more.2

theorem mergeAgUiMessageById_whole (message next : AgUiMessage) :
    ¬ goesOn message.plainText (mergeAgUiMessageById message next).plainText := by
  unfold mergeAgUiMessageById
  split
  · rw [plainText_with_content]
    exact not_goesOn_self _
  · rename_i other
    intro more
    refine other ⟨?_,.inr more⟩
    intro empty
    have longer := more.2
    rw [empty] at longer
    exact absurd longer (Nat.not_lt_zero _)

theorem mergeAgUiMessageById_self (message : AgUiMessage) : mergeAgUiMessageById message message = message := by
  unfold mergeAgUiMessageById
  split <;> rfl

theorem mergeAgUiMessageById_again (message next : AgUiMessage) :
    mergeAgUiMessageById (mergeAgUiMessageById message next) next = mergeAgUiMessageById message next := by
  by_cases kept : message.plainText ≠ [] ∧ (next.plainText = [] ∨ goesOn message.plainText next.plainText)
  · have same : mergeAgUiMessageById message next = { next with content := message.content } := if_pos kept
    rw [same]
    exact if_pos kept
  · have same : mergeAgUiMessageById message next = next := if_neg kept
    rw [same,mergeAgUiMessageById_self]

variable {messages : List AgUiMessage}
variable {id : Nat}
theorem mem_ids : id ∈ ids messages ↔ ∃ message ∈ messages, message.id = id :=
  mem_map

variable {merged : List AgUiMessage}
variable {next : AgUiMessage}
theorem idIndex_none : idIndex merged next = none ↔ next.id ∉ ids merged := by
  rw [idIndex,findIdx?_eq_none_iff,mem_ids]
  simp

theorem mergeMessage_cases (merged : List AgUiMessage) (next : AgUiMessage) :
    (∃ i message, merged[i]? = some message ∧ message.id = next.id ∧ displaced merged next = none ∧
        mergeMessage merged next = merged.set i (mergeAgUiMessageById message next)) ∨
      (∃ i message, merged[i]? = some message ∧ next.id ∉ ids merged ∧ displaced merged next = some message ∧
        message.role = .assistant ∧ next.role = .assistant ∧ mergeMessage merged next = merged.set i next) ∨
      (next.id ∉ ids merged ∧ displaced merged next = none ∧ mergeMessage merged next = merged ++ [next]) := by
  unfold mergeMessage displaced
  cases found : idIndex merged next with
  | some i =>
    obtain ⟨inside,same,_⟩ := findIdx?_eq_some_iff_getElem.mp found
    have there : next.id ∈ ids merged := by
      rw [mem_ids]
      exact ⟨merged[i],getElem_mem inside,by simpa using same⟩
    refine .inl ⟨i,merged[i],getElem?_eq_getElem inside,by simpa using same,if_pos there,?_⟩
    exact modify_eq_set_getElem? .. |>.trans (by simp [inside])
  | none =>
    have absent := idIndex_none.mp found
    cases placed : textIndex merged next with
    | some i =>
      unfold textIndex at placed
      split at placed
      · rename_i answers
        obtain ⟨inside,same,_⟩ := findIdx?_eq_some_iff_getElem.mp placed
        have role : merged[i].role = next.role ∧ merged[i].textKey = next.textKey := by simpa using same
        refine .inr (.inl ⟨i,merged[i],getElem?_eq_getElem inside,absent,?_,role.1.trans answers.1,answers.1,rfl⟩)
        rw [if_neg absent]
        exact getElem?_eq_getElem inside
      · cases placed
    | none => exact .inr (.inr ⟨absent,if_neg absent,rfl⟩)

variable {i : Nat}
variable {message : AgUiMessage}
theorem id_mem_ids (here : messages[i]? = some message) : message.id ∈ ids messages :=
  mem_map_of_mem (mem_of_getElem? here)

theorem ids_getElem :
    id ∈ ids messages ↔ ∃ (i : Nat) (message : AgUiMessage), messages[i]? = some message ∧ message.id = id := by
  rw [mem_ids]
  constructor
  · rintro ⟨message,member,same⟩
    obtain ⟨i,here⟩ := mem_iff_getElem?.mp member
    exact ⟨i,message,here,same⟩
  · rintro ⟨i,message,here,same⟩
    exact ⟨message,mem_of_getElem? here,same⟩

variable {first : AgUiMessage} {j : Nat} {second : AgUiMessage}

theorem index_of_id (once : (ids messages).Nodup)
    (atFirst : messages[i]? = some first) (atSecond : messages[j]? = some second) (same : first.id = second.id) : i = j := by
  obtain ⟨inside,isFirst⟩ := List.getElem?_eq_some_iff.mp atFirst
  obtain ⟨also,isSecond⟩ := List.getElem?_eq_some_iff.mp atSecond
  have isIndex : i < (ids messages).length := by simpa [ids] using inside
  have alsoIndex : j < (ids messages).length := by simpa [ids] using also
  refine (@List.Nodup.getElem_inj_iff _ _ once i isIndex j alsoIndex).mp ?_
  simp [ids,isFirst,isSecond,same]

theorem message_of_id (once : (ids messages).Nodup)
    (isFirst : first ∈ messages) (isSecond : second ∈ messages) (same : first.id = second.id) : first = second := by
  obtain ⟨i,atFirst⟩ := mem_iff_getElem?.mp isFirst
  obtain ⟨j,atSecond⟩ := mem_iff_getElem?.mp isSecond
  rw [index_of_id once atFirst atSecond same,atSecond] at atFirst
  exact (Option.some.inj atFirst).symm

theorem mergeMessage_origin (here : (mergeMessage merged next)[j]? = some message) :
    merged[j]? = some message ∨ (message = next ∧ next.id ∉ ids merged) ∨
      ∃ old, merged[j]? = some old ∧ old.id = next.id ∧ message = mergeAgUiMessageById old next := by
  rcases mergeMessage_cases merged next with ⟨i,old,isOld,same,_,result⟩ | ⟨i,_,_,absent,_,_,_,result⟩ | ⟨absent,_,result⟩
  · rw [result,getElem?_set] at here
    split at here
    · rename_i isHere
      split at here
      · exact .inr (.inr ⟨old,isHere ▸ isOld,same,(Option.some.inj here).symm⟩)
      · cases here
    · exact .inl here
  · rw [result,getElem?_set] at here
    split at here
    · split at here
      · exact .inr (.inl ⟨(Option.some.inj here).symm,absent⟩)
      · cases here
    · exact .inl here
  · rw [result] at here
    by_cases inside : j < merged.length
    · rw [getElem?_append_left inside] at here
      exact .inl here
    · rw [getElem?_append_right (Nat.le_of_not_lt inside)] at here
      exact .inr (.inl ⟨mem_singleton.mp (mem_of_getElem? here),absent⟩)

theorem mergeMessage_next (once : (ids merged).Nodup)
    (here : (mergeMessage merged next)[j]? = some message) (same : message.id = next.id) :
    (message = next ∧ next.id ∉ ids merged) ∨
      ∃ old, merged[j]? = some old ∧ old.id = next.id ∧ message = mergeAgUiMessageById old next := by
  rcases mergeMessage_origin here with there | added | kept
  · have known : next.id ∈ ids merged := same ▸ id_mem_ids there
    rcases mergeMessage_cases merged next with ⟨i,old,isOld,sameOld,_,result⟩ | ⟨_,_,_,absent,_⟩ | ⟨absent,_⟩
    · have isHere := index_of_id once isOld there (sameOld.trans same.symm)
      subst isHere
      rw [result,getElem?_set_self (List.getElem?_eq_some_iff.mp isOld).1] at here
      exact .inr ⟨old,isOld,sameOld,(Option.some.inj here).symm⟩
    · exact absurd known absent
    · exact absurd known absent
  · exact .inl added
  · exact .inr kept

theorem mergeMessage_stays {next message : AgUiMessage} {j : Nat}
    (here : merged[j]? = some message) (spared : displaced merged next ≠ some message) :
    ∃ after, (mergeMessage merged next)[j]? = some after ∧ after.id = message.id ∧ (message.id ≠ next.id → after = message) := by
  have inside := (List.getElem?_eq_some_iff.mp here).1
  rcases mergeMessage_cases merged next with ⟨i,old,isOld,same,_,result⟩ | ⟨i,old,isOld,_,gives,_,_,result⟩ | ⟨_,_,result⟩
  · rw [result]
    by_cases isHere : i = j
    · subst isHere
      obtain rfl := Option.some.inj (isOld.symm.trans here)
      refine ⟨mergeAgUiMessageById old next,getElem?_set_self inside,?_,?_⟩
      · rw [mergeAgUiMessageById_id,same]
      · exact fun other => absurd same other
    · exact ⟨message,(getElem?_set_ne isHere).trans here,rfl,fun _ => rfl⟩
  · rw [result]
    have elsewhere : i ≠ j := by
      rintro rfl
      obtain rfl := Option.some.inj (isOld.symm.trans here)
      exact spared gives
    exact ⟨message,(getElem?_set_ne elsewhere).trans here,rfl,fun _ => rfl⟩
  · rw [result]
    exact ⟨message,(getElem?_append_left inside).trans here,rfl,fun _ => rfl⟩

theorem displaced_some (gives : displaced merged next = some message) :
    next.id ∉ ids merged ∧ message.role = .assistant ∧ next.role = .assistant ∧
      ∃ i : Nat, merged[i]? = some message ∧ (mergeMessage merged next)[i]? = some next ∧
        mergeMessage merged next = merged.set i next := by
  rcases mergeMessage_cases merged next with ⟨_,_,_,_,vacant,_⟩ | ⟨i,old,isOld,absent,gave,role,nextRole,result⟩ | ⟨_,vacant,_⟩
  · rw [vacant] at gives
    cases gives
  · rw [gave] at gives
    cases gives
    refine ⟨absent,role,nextRole,i,isOld,?_,result⟩
    rw [result]
    exact getElem?_set_self (List.getElem?_eq_some_iff.mp isOld).1
  · rw [vacant] at gives
    cases gives

theorem next_mem_ids (merged : List AgUiMessage) (next : AgUiMessage) : next.id ∈ ids (mergeMessage merged next) := by
  rcases mergeMessage_cases merged next with ⟨i,old,isOld,same,vacant,_⟩ | ⟨_,_,_,_,gives,_⟩ | ⟨_,_,result⟩
  · obtain ⟨after,there,isSame,_⟩ := @mergeMessage_stays _ next _ _ isOld (by simp [vacant])
    rw [← same,← isSame]
    exact id_mem_ids there
  · obtain ⟨_,_,_,i,_,there,_⟩ := displaced_some gives
    exact id_mem_ids there
  · rw [result,ids,map_append]
    exact mem_append_right _ (mem_singleton.mpr rfl)

theorem mergeMessage_ids (member : id ∈ ids (mergeMessage merged next)) : id = next.id ∨ id ∈ ids merged := by
  obtain ⟨j,message,here,rfl⟩ := ids_getElem.mp member
  rcases mergeMessage_origin here with old | ⟨rfl,_⟩ | ⟨old,_,_,rfl⟩
  · exact .inr (id_mem_ids old)
  · exact .inl rfl
  · exact .inl (mergeAgUiMessageById_id old next)

theorem mergeMessage_once (once : (ids merged).Nodup) (next : AgUiMessage) :
    (ids (mergeMessage merged next)).Nodup := by
  rcases mergeMessage_cases merged next with ⟨i,old,isOld,same,_,result⟩ | ⟨i,_,_,absent,_,_,_,result⟩ | ⟨absent,_,result⟩
  · have unchanged : ids (merged.set i (mergeAgUiMessageById old next)) = ids merged := by
      obtain ⟨inside,isHere⟩ := List.getElem?_eq_some_iff.mp isOld
      rw [ids,map_set,mergeAgUiMessageById_id,← same,← isHere]
      exact (congrArg _ (getElem_map _).symm).trans (set_getElem_self (by simpa using inside))
    rw [result,unchanged]
    exact once
  · rw [result,ids,map_set]
    exact once.set absent
  · rw [result,ids,map_append]
    exact List.Nodup.append once (nodup_singleton _) (disjoint_singleton.mpr absent)

theorem displaced_gone (once : (ids merged).Nodup)
    (gives : displaced merged next = some message) : message.id ∉ ids (mergeMessage merged next) := by
  obtain ⟨absent,_,_,i,isOld,there,result⟩ := displaced_some gives
  intro member
  obtain ⟨j,other,here,same⟩ := ids_getElem.mp member
  by_cases isHere : i = j
  · subst isHere
    rw [there] at here
    cases here
    exact absent (same ▸ id_mem_ids isOld)
  · rw [result,getElem?_set_ne isHere] at here
    exact isHere (index_of_id once isOld here same.symm)

theorem merge_append (current first second : List AgUiMessage) :
    mergeAgUiMessageLists current (first ++ second) = mergeAgUiMessageLists (mergeAgUiMessageLists current first) second :=
  foldl_append
theorem merge_cons (current : List AgUiMessage) (next : AgUiMessage) (later : List AgUiMessage) :
    mergeAgUiMessageLists current (next :: later) = mergeAgUiMessageLists (mergeMessage current next) later := rfl
theorem merge_once {current : List AgUiMessage} (once : (ids current).Nodup) (incoming : List AgUiMessage) :
    (ids (mergeAgUiMessageLists current incoming)).Nodup := by
  induction incoming generalizing current with
  | nil => exact once
  | cons next later ih => exact ih (mergeMessage_once once next)

theorem merge_ids {current incoming : List AgUiMessage}
    (member : id ∈ ids (mergeAgUiMessageLists current incoming)) : id ∈ ids incoming ∨ id ∈ ids current := by
  induction incoming generalizing current with
  | nil => exact .inr member
  | cons next later ih =>
    rcases ih member with isLater | here
    · exact .inl (mem_cons_of_mem _ isLater)
    · rcases mergeMessage_ids here with same | old
      · exact .inl (mem_cons.mpr (.inl same))
      · exact .inr old

theorem merge_old {current incoming : List AgUiMessage}
    (here : (mergeAgUiMessageLists current incoming)[j]? = some message) (other : message.id ∉ ids incoming) :
    current[j]? = some message := by
  induction incoming generalizing current with
  | nil => exact here
  | cons next later ih =>
    have apart : message.id ≠ next.id ∧ message.id ∉ ids later := by simpa [ids] using other
    rcases mergeMessage_origin (ih here apart.2) with old | ⟨rfl,_⟩ | ⟨old,_,_,rfl⟩
    · exact old
    · exact absurd rfl apart.1
    · exact absurd (mergeAgUiMessageById_id old next) apart.1

theorem merge_new {current incoming : List AgUiMessage} (distinct : (ids incoming).Nodup)
    (member : message ∈ mergeAgUiMessageLists current incoming) (absent : message.id ∉ ids current) : message ∈ incoming := by
  induction incoming generalizing current with
  | nil => exact absurd (mem_map_of_mem member) absent
  | cons next later ih =>
    have apart : next.id ∉ ids later ∧ (ids later).Nodup := by simpa [ids] using distinct
    by_cases inserted : message.id ∈ ids (mergeMessage current next)
    · rcases mergeMessage_ids inserted with same | old
      · obtain ⟨j,here⟩ := mem_iff_getElem?.mp member
        have passed : message.id ∉ ids later := same ▸ apart.1
        have there := merge_old (merge_cons current next later ▸ here) passed
        rcases mergeMessage_origin there with old | ⟨rfl,_⟩ | ⟨old,isOld,sameOld,_⟩
        · exact absurd (id_mem_ids old) absent
        · exact mem_cons_self
        · rw [same,← sameOld] at absent
          exact absurd (id_mem_ids isOld) absent
      · exact absurd old absent
    · exact mem_cons_of_mem _ (ih apart.2 member inserted)

theorem merge_settled {current incoming : List AgUiMessage} (once : (ids current).Nodup)
    (here : current[i]? = some message) (passed : message.id ∉ ids incoming)
    (remains : message.id ∈ ids (mergeAgUiMessageLists current incoming)) :
    (mergeAgUiMessageLists current incoming)[i]? = some message := by
  induction incoming generalizing current with
  | nil => exact here
  | cons next later ih =>
    have apart : message.id ≠ next.id ∧ message.id ∉ ids later := by simpa [ids] using passed
    have spared : displaced current next ≠ some message := by
      intro gives
      rcases merge_ids (merge_cons current next later ▸ remains) with isLater | kept
      · exact apart.2 isLater
      · exact displaced_gone once gives kept
    obtain ⟨after,there,_,same⟩ := mergeMessage_stays here spared
    rw [same apart.1] at there
    exact ih (mergeMessage_once once next) there apart.2 remains

section
variable {current incoming : List AgUiMessage}

/-- The incoming answer in the place of a message. -/
structure TakesPlace (incoming : List AgUiMessage) (message other : AgUiMessage) : Prop where
  roles : message.role = .assistant ∧ other.role = .assistant
  apart : other.id ≠ message.id
  alike : message.id ∉ ids incoming → normalizedText other.plainText = normalizedText message.plainText
  whole : ∀ again ∈ incoming, again.id = message.id → ¬ goesOn message.plainText again.plainText

/-- What is merged where the incoming messages so far spared the others. -/
structure Progress (current incoming before merged : List AgUiMessage) : Prop where
  present : ∀ message ∈ before, message.id ∈ ids merged
  places : ∀ (i : Nat) (message : AgUiMessage), current[i]? = some message →
    (∃ after, merged[i]? = some after ∧ after.id = message.id) ∨
      ∃ other ∈ before, merged[i]? = some other ∧ TakesPlace incoming message other
  origin : ∀ message ∈ merged, message.id ∈ ids before →
    (message ∈ before ∧ ∀ old ∈ current, old.id = message.id → ¬ goesOn old.plainText message.plainText) ∨
      ∃ old ∈ current, ∃ next ∈ before, old.id = next.id ∧ message = mergeAgUiMessageById old next

variable {before later : List AgUiMessage} {next : AgUiMessage}

theorem displaced_old {message : AgUiMessage}
    (gives : displaced (mergeAgUiMessageLists current before) next = some message)
    (spares : Spares before (mergeAgUiMessageLists current before) next later) :
    TakesPlace (before ++ next :: later) message next ∧
      ∃ i : Nat, current[i]? = some message ∧ (mergeAgUiMessageLists current before)[i]? = some message ∧
        (mergeMessage (mergeAgUiMessageLists current before) next)[i]? = some next := by
  obtain ⟨absent,role,nextRole,i,here,there,_⟩ := displaced_some gives
  obtain ⟨early,whole,alike⟩ := spares message gives
  have apart : next.id ≠ message.id := fun same => absent (same ▸ id_mem_ids here)
  refine ⟨⟨⟨role,nextRole⟩,apart,?_,?_⟩,i,merge_old here early,here,there⟩
  · intro none
    refine alike ?_
    intro isLater
    exact none (by simp [ids] at isLater ⊢; exact .inr (.inr isLater))
  · intro again member same
    have isLater : again ∈ later := by
      rcases mem_append.mp member with isEarly | other
      · exact absurd (mem_map_of_mem isEarly) (same ▸ early)
      · rcases mem_cons.mp other with rfl | isLater
        · exact absurd same apart
        · exact isLater
    exact whole again isLater same

theorem progress_step (onceCurrent : (ids current).Nodup) (distinct : (ids (before ++ next :: later)).Nodup)
    (progress : Progress current (before ++ next :: later) before (mergeAgUiMessageLists current before))
    (spares : Spares before (mergeAgUiMessageLists current before) next later) :
    Progress current (before ++ next :: later) (before ++ [next]) (mergeMessage (mergeAgUiMessageLists current before) next) := by
  have nextLate : next.id ∉ ids before := by
    intro early
    have split : (ids before).Disjoint (ids (next :: later)) := by
      rw [ids,map_append] at distinct
      exact disjoint_of_nodup_append distinct
    exact split early mem_cons_self
  have nextComes : next ∈ before ++ next :: later := mem_append_right _ mem_cons_self
  refine ⟨?_,?_,?_⟩
  · intro message member
    rcases mem_append.mp member with early | isNext
    · obtain ⟨j,old,here,same⟩ := ids_getElem.mp (progress.present message early)
      have spared : displaced (mergeAgUiMessageLists current before) next ≠ some old := by
        intro gives
        exact (spares old gives).1 (same ▸ mem_map_of_mem early)
      obtain ⟨after,there,sameId,_⟩ := mergeMessage_stays here spared
      rw [← same,← sameId]
      exact id_mem_ids there
    · rw [mem_singleton.mp isNext]
      exact next_mem_ids _ next
  · intro i message here
    rcases progress.places i message here with ⟨old,there,same⟩ | ⟨other,early,there,takes⟩
    · by_cases gives : displaced (mergeAgUiMessageLists current before) next = some old
      · obtain ⟨takes,j,isOld,isThere,now⟩ := displaced_old gives spares
        have sameIndex := index_of_id onceCurrent here isOld same.symm
        subst sameIndex
        rw [here] at isOld
        cases isOld
        exact .inr ⟨next,mem_append_right _ (mem_singleton.mpr rfl),now,takes⟩
      · obtain ⟨after,stays,sameId,_⟩ := mergeMessage_stays there gives
        exact .inl ⟨after,stays,sameId.trans same⟩
    · have spared : displaced (mergeAgUiMessageLists current before) next ≠ some other := by
        intro gives
        exact (spares other gives).1 (mem_map_of_mem early)
      obtain ⟨after,stays,_,same⟩ := mergeMessage_stays there spared
      have different : other.id ≠ next.id := fun isNext => nextLate (isNext ▸ mem_map_of_mem early)
      rw [same different] at stays
      exact .inr ⟨other,mem_append_left _ early,stays,takes⟩
  · intro message member among
    obtain ⟨j,here⟩ := mem_iff_getElem?.mp member
    have onceMerged := merge_once onceCurrent before
    by_cases isNext : message.id = next.id
    · rcases mergeMessage_next onceMerged here isNext with ⟨rfl,absent⟩ | ⟨old,isOld,same,isMerged⟩
      · refine .inl ⟨mem_append_right _ (mem_singleton.mpr rfl),?_⟩
        intro old isOld same
        obtain ⟨i,atOld⟩ := mem_iff_getElem?.mp isOld
        rcases progress.places i old atOld with ⟨after,there,sameId⟩ | ⟨other,_,_,takes⟩
        · exact absurd (same ▸ sameId ▸ id_mem_ids there) absent
        · exact takes.whole message nextComes same.symm
      · have first := merge_old isOld (same ▸ nextLate)
        exact .inr ⟨old,mem_of_getElem? first,next,mem_append_right _ (mem_singleton.mpr rfl),same,isMerged⟩
    · have early : message.id ∈ ids before := by simpa [ids,isNext] using among
      rcases mergeMessage_origin here with there | ⟨rfl,_⟩ | ⟨old,_,_,rfl⟩
      · rcases progress.origin message (mem_of_getElem? there) early with ⟨isEarly,whole⟩ | ⟨first,isFirst,second,isSecond,both⟩
        · exact .inl ⟨mem_append_left _ isEarly,whole⟩
        · exact .inr ⟨first,isFirst,second,mem_append_left _ isSecond,both⟩
      · exact absurd rfl isNext
      · exact absurd (mergeAgUiMessageById_id old next) isNext

theorem progress_all (once : (ids current).Nodup) (distinct : (ids incoming).Nodup)
    (spares : ∀ before next later, incoming = before ++ next :: later →
      Spares before (mergeAgUiMessageLists current before) next later) (before later : List AgUiMessage)
    (split : incoming = before ++ later) : Progress current incoming before (mergeAgUiMessageLists current before) := by
  induction before using List.reverseRecOn generalizing later with
  | nil =>
    refine ⟨fun _ member => absurd member not_mem_nil,?_,fun _ _ among => absurd among not_mem_nil⟩
    intro i message here
    exact .inl ⟨message,here,rfl⟩
  | append_singleton before next ih =>
    rw [append_assoc,singleton_append] at split
    have progress := ih (next :: later) split
    subst split
    rw [merge_append]
    exact progress_step once distinct progress (spares before next later rfl)

theorem merge_stable {merged : List AgUiMessage} (once : (ids merged).Nodup) (later : List AgUiMessage)
    (settled : ∀ next ∈ later, ∃ message ∈ merged, message.id = next.id ∧ mergeAgUiMessageById message next = message) :
    mergeAgUiMessageLists merged later = merged := by
  induction later with
  | nil => rfl
  | cons next later ih =>
    obtain ⟨message,member,same,unchanged⟩ := settled next mem_cons_self
    have known : next.id ∈ ids merged := same ▸ mem_map_of_mem member
    have here : mergeMessage merged next = merged := by
      rcases mergeMessage_cases merged next with ⟨i,old,isOld,sameOld,_,result⟩ | ⟨_,_,_,absent,_⟩ | ⟨absent,_⟩
      · have isMessage := message_of_id once (mem_of_getElem? isOld) member (sameOld.trans same.symm)
        obtain ⟨inside,isHere⟩ := List.getElem?_eq_some_iff.mp isOld
        rw [result,isMessage,unchanged,← isMessage,← isHere,set_getElem_self inside]
      · exact absurd known absent
      · exact absurd known absent
    rw [merge_cons,here]
    exact ih fun other isLater => settled other (mem_cons_of_mem _ isLater)

theorem lossless_of_spares (once : (ids current).Nodup) (distinct : (ids incoming).Nodup)
    (spares : ∀ before next later, incoming = before ++ next :: later →
      Spares before (mergeAgUiMessageLists current before) next later) :
    Lossless current incoming (mergeAgUiMessageLists current incoming) := by
  have progress := progress_all once distinct spares incoming [] (append_nil incoming).symm
  have onceMerged := merge_once once incoming
  refine ⟨onceMerged,progress.present,?_,?_,?_⟩
  · intro message member absent
    obtain ⟨i,here⟩ := mem_iff_getElem?.mp member
    rcases progress.places i message here with ⟨after,there,same⟩ | ⟨other,isOther,there,takes⟩
    · exact absurd (same ▸ id_mem_ids there) absent
    · have none : message.id ∉ ids incoming := by
        intro comes
        obtain ⟨again,isAgain,same⟩ := mem_ids.mp comes
        exact absent (same ▸ progress.present again isAgain)
      exact ⟨takes.roles.1,other,isOther,takes.roles.2,takes.apart,takes.alike none,i,here,there⟩
  · intro message member other isOther same
    by_cases comes : other.id ∈ ids incoming
    · rcases progress.origin other isOther comes with ⟨_,whole⟩ | ⟨old,isOld,next,_,sameId,rfl⟩
      · exact whole message member same.symm
      · have isMessage : old = message := by
          refine message_of_id once isOld member ?_
          rw [sameId,← same,mergeAgUiMessageById_id]
        rw [← isMessage]
        exact mergeAgUiMessageById_whole old next
    · obtain ⟨j,there⟩ := mem_iff_getElem?.mp isOther
      have first := mem_of_getElem? (merge_old there comes)
      rw [message_of_id once first member same]
      exact not_goesOn_self _
  · refine merge_stable onceMerged incoming ?_
    intro next comes
    obtain ⟨message,member,same⟩ := mem_ids.mp (progress.present next comes)
    refine ⟨message,member,same,?_⟩
    rcases progress.origin message member (same ▸ mem_map_of_mem comes) with ⟨isIncoming,_⟩ | ⟨old,_,first,isFirst,_,rfl⟩
    · rw [message_of_id distinct isIncoming comes same,mergeAgUiMessageById_self]
    · rw [mergeAgUiMessageById_id] at same
      rw [message_of_id distinct isFirst comes same]
      exact mergeAgUiMessageById_again old next

theorem spares_of_lossless (once : (ids current).Nodup) (distinct : (ids (before ++ next :: later)).Nodup)
    (lossless : Lossless current (before ++ next :: later) (mergeAgUiMessageLists current (before ++ next :: later))) :
    Spares before (mergeAgUiMessageLists current before) next later := by
  have onceBefore := merge_once once before
  have onceNext := mergeMessage_once onceBefore next
  have result : mergeAgUiMessageLists current (before ++ next :: later) =
      mergeAgUiMessageLists (mergeMessage (mergeAgUiMessageLists current before) next) later := by
    rw [merge_append,merge_cons]
  rw [result] at lossless
  have apart : (ids before).Nodup ∧ (ids (next :: later)).Nodup ∧ (ids before).Disjoint (ids (next :: later)) := by
    rw [ids,map_append] at distinct
    exact nodup_append'.mp distinct
  have nextOnce : next.id ∉ ids later ∧ (ids later).Nodup := by simpa [ids] using apart.2.1
  intro message gives
  obtain ⟨absent,_,_,i,here,there,_⟩ := displaced_some gives
  have left := displaced_gone onceBefore gives
  have notEarly : message.id ∉ ids before := by
    intro early
    obtain ⟨first,isFirst,same⟩ := mem_ids.mp early
    have remains := lossless.all first (mem_append_left _ isFirst)
    rw [same] at remains
    rcases merge_ids remains with isLater | kept
    · exact apart.2.2 early (mem_cons_of_mem _ isLater)
    · exact left kept
  have atFirst := merge_old here notEarly
  refine ⟨notEarly,?_,?_⟩
  · intro again isLater same
    have comes : again ∈ before ++ next :: later := mem_append_right _ (mem_cons_of_mem _ isLater)
    obtain ⟨other,isOther,sameOther⟩ := mem_ids.mp (lossless.all again comes)
    have isAgain : other = again := by
      refine message_of_id nextOnce.2 (merge_new nextOnce.2 isOther ?_) isLater sameOther
      rw [sameOther,same]
      exact left
    rw [← isAgain]
    exact lossless.whole message (mem_of_getElem? atFirst) other isOther (sameOther.trans same)
  · intro never
    have dropped : message.id ∉ ids (mergeAgUiMessageLists (mergeMessage (mergeAgUiMessageLists current before) next) later) := by
      intro remains
      rcases merge_ids remains with isLater | kept
      · exact never isLater
      · exact left kept
    obtain ⟨_,other,_,_,_,alike,j,isMessage,isOther⟩ := lossless.gone message (mem_of_getElem? atFirst) dropped
    have sameIndex := index_of_id once isMessage atFirst rfl
    subst sameIndex
    have settled := merge_settled onceNext there nextOnce.1 (lossless.all next (mem_append_right _ mem_cons_self))
    rw [settled] at isOther
    cases isOther
    exact alike

def streamed : AgUiMessage := ⟨1,.assistant,.text (text "Buy  low.")⟩
def stored : AgUiMessage := ⟨2,.assistant,.text (text "Buy low.")⟩

end

end Codebot.ChatMessages
