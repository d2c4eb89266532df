import Mathlib.Data.List.Basic
import Mathlib.Data.List.Pairwise

/-!
Brackets in a stream of events. An event opens the bracket, lies within it or closes it;
a stream is seen by the marks of its events (`marks`). A bracket is opened and closed at most
once, and what is marked otherwise lies after the opening and before the closing (`Bracketed`).
-/
namespace Codebot.Brackets
open List
universe u
variable {Event : Type u}

inductive Mark
  | opening
  | inner
  | closing
deriving DecidableEq
/-- The marks of a stream. -/
def marks (mark : Event → Option Mark) (events : List Event) : List Mark := events.filterMap mark
structure Bracketed (marks : List Mark) : Prop where
  openedOnce : marks.count .opening ≤ 1
  closedOnce : marks.count .closing ≤ 1
  within : ∀ before mark after, marks = before ++ mark :: after → mark ≠ .opening → .opening ∈ before ∧ .closing ∉ before
def Settled (marks : List Mark) : Prop := .opening ∈ marks → .closing ∈ marks
@[simp] theorem marks_nil (mark : Event → Option Mark) : marks mark [] = [] := rfl
@[simp] theorem marks_append (mark : Event → Option Mark) (first second : List Event) :
    marks mark (first ++ second) = marks mark first ++ marks mark second :=
  filterMap_append
theorem marks_cons (mark : Event → Option Mark) (event : Event) (events : List Event) :
    marks mark (event :: events) = (mark event).toList ++ marks mark events := by
  cases seen : mark event <;> simp [marks,seen]
theorem marks_eq_nil {mark : Event → Option Mark} {events : List Event} (apart : ∀ event ∈ events, mark event = none) :
    marks mark events = [] :=
  filterMap_eq_nil_iff.mpr apart
theorem bracketed_nil : Bracketed [] where
  openedOnce := Nat.zero_le 1
  closedOnce := Nat.zero_le 1
  within before mark after split := by
    simp at split

variable {final : Mark} {rest : List Mark}

theorem pairwise_ne_iff :
    (rest.Pairwise fun earlier _ => earlier ≠ final) ↔
      ∀ before mark after, rest = before ++ mark :: after → final ∉ before := by
  induction rest with
  | nil => simp
  | cons head rest ih =>
    rw [pairwise_cons,ih]
    constructor
    · rintro ⟨first,later⟩ before mark after split
      cases before with
      | nil => exact not_mem_nil
      | cons other before =>
        obtain ⟨rfl,rfl⟩ := List.cons.inj split
        exact not_mem_cons_of_ne_of_not_mem (first mark (by simp)).symm (later before mark after rfl)
    · intro all
      constructor
      · intro mark member
        obtain ⟨before,after,split⟩ := append_of_mem member
        have apart := all (head :: before) mark after (by rw [split,cons_append])
        exact (ne_of_not_mem_cons apart).symm
      · intro before mark after split
        have apart := all (head :: before) mark after (by rw [split,cons_append])
        exact not_mem_of_not_mem_cons apart

theorem count_le_one (ends : rest.Pairwise fun earlier _ => earlier ≠ final) : rest.count final ≤ 1 := by
  induction rest with
  | nil => exact Nat.zero_le 1
  | cons head rest ih =>
    obtain ⟨first,later⟩ := pairwise_cons.mp ends
    by_cases same : head = final
    · cases rest with
      | nil => simp [same]
      | cons next rest => exact absurd same (first next mem_cons_self)
    · rw [count_cons_of_ne same]
      exact ih later

theorem bracketed_cons :
    Bracketed (.opening :: rest) ↔ .opening ∉ rest ∧ rest.Pairwise fun earlier _ => earlier ≠ .closing := by
  rw [pairwise_ne_iff]
  constructor
  · intro bracketed
    have once : .opening ∉ rest := by
      have count := bracketed.openedOnce
      rw [count_cons_self] at count
      exact count_eq_zero.mp (by omega)
    refine ⟨once,?_⟩
    intro before mark after split
    have inside : mark ≠ .opening := by
      rintro rfl
      exact once (by simp [split])
    have apart := (bracketed.within (.opening :: before) mark after (by rw [split,cons_append]) inside).2
    exact not_mem_of_not_mem_cons apart
  · rintro ⟨once,last⟩
    constructor
    · have unseen := count_eq_zero.mpr once
      rw [count_cons_self]
      omega
    · rw [count_cons_of_ne (by decide)]
      exact count_le_one (pairwise_ne_iff.mpr last)
    · intro before mark after split inside
      cases before with
      | nil => exact absurd (List.cons.inj split).1.symm inside
      | cons head before =>
        obtain ⟨rfl,rfl⟩ := List.cons.inj split
        exact ⟨mem_cons_self,not_mem_cons_of_ne_of_not_mem (by decide) (last before mark after rfl)⟩

def Underway (marks : List Mark) : Prop := ∃ rest, marks = .opening :: rest ∧ ∀ mark ∈ rest, mark = .inner
theorem underway_opening : Underway [.opening] := ⟨[],rfl,nofun⟩

variable {first second : List Mark}

theorem Underway.append (underway : Underway first) (inner : ∀ mark ∈ second, mark = .inner) :
    Underway (first ++ second) := by
  obtain ⟨rest,rfl,all⟩ := underway
  refine ⟨rest ++ second,rfl,?_⟩
  intro mark member
  rcases mem_append.mp member with earlier | later
  · exact all mark earlier
  · exact inner mark later

theorem Underway.closed {marks : List Mark} (underway : Underway marks) : Bracketed (marks ++ [.closing]) := by
  obtain ⟨rest,rfl,all⟩ := underway
  rw [cons_append,bracketed_cons]
  constructor
  · intro member
    rcases mem_append.mp member with earlier | last
    · cases all _ earlier
    · cases mem_singleton.mp last
  · rw [pairwise_append]
    refine ⟨?_,pairwise_singleton _ _,?_⟩
    · rw [pairwise_iff_forall_sublist]
      rintro earlier later sub rfl
      cases all _ (sub.subset mem_cons_self)
    · rintro earlier member _ _ rfl
      cases all _ member

theorem not_bracketed_reopened (opened : .opening ∈ first) (again : .opening ∈ second) :
    ¬ Bracketed (first ++ second) := by
  intro bracketed
  have once := bracketed.openedOnce
  rw [count_append] at once
  have one := count_pos_iff.mpr opened
  have two := count_pos_iff.mpr again
  omega
end Codebot.Brackets
