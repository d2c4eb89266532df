import Codebot.Series
import Codebot.BacktestStatuses
import Codebot.Dates
import Mathlib.Data.List.Lex
import Mathlib.Data.Prod.Lex

/-!
The events of a conversation as the web client keeps them. Each batch that arrives is merged into
the list, which is cut to its newest events; an event that is cut off can arrive again. What is
kept is what a merge of all events at once would keep (`merges_newest`).
-/
namespace Codebot.MergedEvents
open Texts Series List

/-- A run event, with what tells it from the others and when it was made. -/
structure RunEvent extends BacktestStatuses.RunEvent where
  eventId : Text
  sequence : Int
/-- `Date.parse` of a text, where it is a number. -/
abbrev Parse := Text → Option Int

variable (parse : Parse)
/-- The comparison of the sort, without a value where it is not a number. -/
def compareEvents (left right : RunEvent) : Option Int :=
  match parse left.createdAt,parse right.createdAt with
  | some leftTime,some rightTime => if leftTime ≠ rightTime then some (leftTime - rightTime) else some (left.sequence - right.sequence)
  | _,_ => none
def Before (left right : RunEvent) : Prop := (compareEvents parse left right).getD 0 ≤ 0
instance (left right : RunEvent) : Decidable (Before parse left right) :=
  inferInstanceAs (Decidable ((compareEvents parse left right).getD 0 ≤ 0))
/-- `slice(-limit)`, where `-0` is `0`. -/
def sliceLast {Item : Type} (limit : Nat) (items : List Item) : List Item := if limit = 0 then items else items.rtake limit
def mergeRunEvents (current incoming : List RunEvent) (limit : Nat) : List RunEvent :=
  if incoming.isEmpty then current
  else
    let merged := (current ++ incoming).foldl (put RunEvent.eventId) []
    let next := sliceLast limit (merged.insertionSort (Before parse))
    if next.map RunEvent.eventId == current.map RunEvent.eventId then current else next
def mergeAll (batches : List (List RunEvent)) (limit : Nat) : List RunEvent :=
  batches.foldl (fun current incoming => mergeRunEvents parse current incoming limit) []
def order (event : RunEvent) : Int ×ₗ Int := toLex ((parse event.createdAt).getD 0,event.sequence)
/-- Events with ids of their own, times that can be read, and no time twice with one sequence. -/
structure Distinct (events : List RunEvent) : Prop where
  ids : (events.map RunEvent.eventId).Nodup
  parseable : ∀ event ∈ events, (parse event.createdAt).isSome
  orders : (events.map (order parse)).Nodup

variable {parse} {events : List RunEvent}

theorem before_iff {left right : RunEvent} (isLeft : (parse left.createdAt).isSome) (isRight : (parse right.createdAt).isSome) :
    Before parse left right ↔ order parse left ≤ order parse right := by
  obtain ⟨leftTime,isLeft⟩ := Option.isSome_iff_exists.mp isLeft
  obtain ⟨rightTime,isRight⟩ := Option.isSome_iff_exists.mp isRight
  simp only [Before,compareEvents,order,isLeft,isRight,Option.getD_some,Prod.Lex.toLex_le_toLex]
  by_cases same : leftTime = rightTime
  · rw [if_neg (not_not.mpr same)]
    simp only [Option.getD_some,same,lt_self_iff_false,true_and,false_or]
    omega
  · rw [if_pos same]
    simp only [Option.getD_some,same,false_and,or_false]
    omega

theorem Distinct.known (distinct : Distinct parse events) :
    ∀ a ∈ events, ∀ b ∈ events, a.eventId = b.eventId → a = b :=
  fun _ isA _ isB same => inj_on_of_nodup_map distinct.ids isA isB same

variable (parse) in
def inOrder (given : List RunEvent) : List RunEvent := ordered (order parse) (given.foldl (put RunEvent.eventId) [])
theorem mem_inOrder (distinct : Distinct parse events) {given : List RunEvent} (among : ∀ event ∈ given, event ∈ events) {event : RunEvent} :
    event ∈ inOrder parse given ↔ event ∈ given := by
  rw [inOrder,mem_ordered,mem_foldl_put_known distinct.known (fun _ none => absurd none not_mem_nil) among]
  simp

theorem inOrder_ascending (distinct : Distinct parse events) {given : List RunEvent} (among : ∀ event ∈ given, event ∈ events) :
    Ascending (order parse) (inOrder parse given) := by
  refine ordered_ascending ?_
  have ids : ((given.foldl (put RunEvent.eventId) []).map RunEvent.eventId).Nodup := nodup_foldl_put (by simp) given
  refine ids.of_map.map_on ?_
  intro a isA b isB same
  have member : ∀ event ∈ given.foldl (put RunEvent.eventId) [], event ∈ events := fun event isEvent =>
    among event ((mem_inOrder distinct among).mp (mem_ordered.mpr isEvent))
  exact inj_on_of_nodup_map distinct.orders (member a isA) (member b isB) same

theorem ids_eq (distinct : Distinct parse events) {left right : List RunEvent} (isLeft : ∀ event ∈ left, event ∈ events)
    (isRight : ∀ event ∈ right, event ∈ events) (same : left.map RunEvent.eventId = right.map RunEvent.eventId) : left = right := by
  induction left generalizing right with
  | nil => exact (map_eq_nil_iff.mp same.symm).symm
  | cons first rest ih =>
    cases right with
    | nil => cases same
    | cons other others =>
      rw [map_cons,map_cons] at same
      obtain ⟨here,later⟩ := List.cons.inj same
      obtain ⟨isFirst,areRest⟩ := forall_mem_cons.mp isLeft
      obtain ⟨isOther,areOthers⟩ := forall_mem_cons.mp isRight
      rw [distinct.known first isFirst other isOther here,ih areRest areOthers later]

theorem sort_eq (distinct : Distinct parse events) {given : List RunEvent} (among : ∀ event ∈ given, event ∈ events) :
    given.insertionSort (Before parse) = ordered (order parse) given := by
  have sorted := map_insertionSort (Before parse) (fun a b => order parse a ≤ order parse b) id given fun a isA b isB =>
    before_iff (distinct.parseable a (among a isA)) (distinct.parseable b (among b isB))
  rwa [map_id,map_id] at sorted

theorem mergeRunEvents_eq (distinct : Distinct parse events) {current incoming : List RunEvent} {limit : Nat} (some : 0 < limit)
    (isCurrent : ∀ event ∈ current, event ∈ events) (isIncoming : ∀ event ∈ incoming, event ∈ events) (arrives : incoming ≠ []) :
    mergeRunEvents parse current incoming limit = (inOrder parse (current ++ incoming)).rtake limit := by
  have among : ∀ event ∈ current ++ incoming, event ∈ events := by
    intro event member
    exact (mem_append.mp member).elim (isCurrent event) (isIncoming event)
  have amongOnce : ∀ event ∈ (current ++ incoming).foldl (put RunEvent.eventId) [], event ∈ events := by
    intro event member
    exact among event ((mem_inOrder distinct among).mp (mem_ordered.mpr member))
  have sorted := sort_eq distinct amongOnce
  unfold mergeRunEvents
  dsimp only
  rw [if_neg (by simpa using arrives),sorted,sliceLast,if_neg (Nat.ne_of_gt some)]
  split_ifs with same
  · refine (ids_eq distinct ?_ isCurrent (beq_iff_eq.mp same)).symm
    intro event member
    exact among event ((mem_inOrder distinct among).mp (mem_of_mem_drop member))
  · rfl

theorem merge_step (distinct : Distinct parse events) {before incoming : List RunEvent} {limit : Nat} (some : 0 < limit)
    (isBefore : ∀ event ∈ before, event ∈ events) (isIncoming : ∀ event ∈ incoming, event ∈ events) :
    mergeRunEvents parse ((inOrder parse before).rtake limit) incoming limit = (inOrder parse (before ++ incoming)).rtake limit := by
  by_cases arrives : incoming = []
  · rw [arrives,append_nil]
    rfl
  · have isAll : ∀ event ∈ before ++ incoming, event ∈ events := fun event member =>
      (mem_append.mp member).elim (isBefore event) (isIncoming event)
    have isOld : ∀ event ∈ (inOrder parse before).rtake limit, event ∈ before := fun event member =>
      (mem_inOrder distinct isBefore).mp (mem_of_mem_drop member)
    have isKept : ∀ event ∈ (inOrder parse before).rtake limit ++ incoming, event ∈ events := fun event member =>
      (mem_append.mp member).elim (fun old => isBefore event (isOld event old)) (isIncoming event)
    rw [mergeRunEvents_eq distinct some (fun event member => isBefore event (isOld event member)) isIncoming arrives]
    refine rtake_between (inOrder_ascending distinct isKept) (inOrder_ascending distinct isAll) ?_ ?_
    · intro event member
      rw [mem_inOrder distinct isKept,mem_append] at member
      rw [mem_inOrder distinct isAll,mem_append]
      exact member.imp_left (isOld event)
    · intro event isLast
      have member := mem_of_mem_drop isLast
      rw [mem_inOrder distinct isAll,mem_append] at member
      rw [mem_inOrder distinct isKept,mem_append]
      refine member.imp_left fun isEvent => ?_
      -- It was among the newest before more events came.
      refine rtake_within (inOrder_ascending distinct isBefore) (inOrder_ascending distinct isAll) ?_
        ((mem_inOrder distinct isBefore).mpr isEvent) isLast
      intro old isOldEvent
      rw [mem_inOrder distinct isBefore] at isOldEvent
      exact (mem_inOrder distinct isAll).mpr (mem_append_left _ isOldEvent)

theorem mergeAll_eq (distinct : Distinct parse events) {batches : List (List RunEvent)} {limit : Nat} (some : 0 < limit)
    (among : ∀ event ∈ batches.flatten, event ∈ events) :
    mergeAll parse batches limit = (inOrder parse batches.flatten).rtake limit := by
  induction batches using List.reverseRecOn with
  | nil => exact drop_nil.symm
  | append_singleton batches batch ih =>
    rw [flatten_append,flatten_singleton] at among ⊢
    have isBefore := fun event member => among event (mem_append_left _ member)
    have isBatch := fun event member => among event (mem_append_right _ member)
    rw [mergeAll,foldl_append,foldl_cons,foldl_nil]
    have before := ih isBefore
    unfold mergeAll at before
    rw [before,merge_step distinct some isBefore isBatch]

/-- However the events of a set are delivered, the newest of them are kept, in their order. -/
theorem merges_newest (distinct : Distinct parse events) {limit : Nat} (some : 0 < limit) {batches : List (List RunEvent)}
    (delivered : ∀ event, event ∈ batches.flatten ↔ event ∈ events) :
    mergeAll parse batches limit = (ordered (order parse) events).rtake limit := by
  have among : ∀ event ∈ batches.flatten, event ∈ events := fun event => (delivered event).mp
  rw [mergeAll_eq distinct some among]
  have same : inOrder parse batches.flatten = ordered (order parse) events := by
    apply (inOrder_ascending distinct among).ext (ordered_ascending distinct.orders)
    intro event
    rw [mem_inOrder distinct among,mem_ordered,delivered]
  rw [same]

/-- An event of the run `r`, in the first minute of a day. -/
def madeAt (eventId : String) (time : String) (sequence : Int) : RunEvent where
  runId := text "r"
  conversationId := text "c"
  type := .dataFetching
  payload := []
  createdAt := text "2026-06-17T00:00:" ++ text time ++ text "Z"
  eventId := text eventId
  sequence := sequence

def inUtc : Dates.Zone := ⟨fun _ => 0,fun _ => true,fun _ => ⟨by decide,by decide⟩⟩

/-- The first event comes again after it was cut off. -/
theorem redelivered_newest :
    mergeAll (Dates.dateParse inUtc fun _ => none)
        [[madeAt "e2" "01.500" 2],[madeAt "e3" "01.500" 3,madeAt "e1" "00" 1],[],[madeAt "e1" "00" 1,madeAt "e2" "01.500" 2]] 2 =
      (ordered (order (Dates.dateParse inUtc fun _ => none))
        [madeAt "e1" "00" 1,madeAt "e2" "01.500" 2,madeAt "e3" "01.500" 3]).rtake 2 := by
  refine merges_newest ⟨by decide +kernel,by decide +kernel,by decide +kernel⟩ (by decide) ?_
  intro event
  simp only [flatten_cons,flatten_nil,mem_append,mem_cons,not_mem_nil,or_false,false_or]
  tauto

end Codebot.MergedEvents
