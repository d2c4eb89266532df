import Mathlib.Data.List.Basic

/-!
Candidates that are tried in turn. A try yields items and is then done, raises, or gives up with a note,
and only then is the next candidate tried. Each try may depend on its index and on the notes before it.
-/
namespace Codebot.Fallbacks
open List
universe u v w x

/-- How a try ends. -/
inductive Ending (Failure : Type u) (Note : Type v)
  | done
  | raised (failure : Failure)
  | gaveUp (note : Note)
/-- What a candidate yields, and how its try ends. -/
structure Attempt (Item : Type w) (Failure : Type u) (Note : Type v) where
  items : List Item
  ending : Ending Failure Note
/-- A try of a candidate. -/
structure Tried (Candidate : Type x) (Item : Type w) (Failure : Type u) (Note : Type v) extends Attempt Item Failure Note where
  index : Nat
  candidate : Candidate

variable {Candidate : Type x} {Item : Type w} {Failure : Type u} {Note : Type v}
variable (attempt : Nat → List Note → Candidate → Attempt Item Failure Note)

/-- The tries, in order. -/
def tried (index : Nat) (notes : List Note) : List Candidate → List (Tried Candidate Item Failure Note)
  | [] => []
  | candidate :: rest =>
    let this := attempt index notes candidate
    ⟨this,index,candidate⟩ ::
      match this.ending with
      | .gaveUp note => tried (index + 1) (notes ++ [note]) rest
      | _ => []

/-- All items that are yielded, and what is raised after them, if the notes of all candidates raise
    something, too. -/
def run (exhausted : List Note → Failure) (index : Nat) (notes : List Note) : List Candidate → List Item × Option Failure
  | [] => ([],some (exhausted notes))
  | candidate :: rest =>
    let this := attempt index notes candidate
    match this.ending with
    | .done => (this.items,none)
    | .raised failure => (this.items,some failure)
    | .gaveUp note =>
      let others := run exhausted (index + 1) (notes ++ [note]) rest
      (this.items ++ others.1,others.2)

variable {attempt} {exhausted : List Note → Failure} {index : Nat} {notes : List Note} {candidates : List Candidate}
theorem tried_cons (candidate : Candidate) (rest : List Candidate) :
    tried attempt index notes (candidate :: rest) =
      ⟨attempt index notes candidate,index,candidate⟩ ::
        match (attempt index notes candidate).ending with
        | .gaveUp note => tried attempt (index + 1) (notes ++ [note]) rest
        | _ => [] := rfl

theorem run_items : (run attempt exhausted index notes candidates).1 = (tried attempt index notes candidates).flatMap (·.items) := by
  induction candidates generalizing index notes with
  | nil => rfl
  | cons candidate rest ih =>
    rw [tried_cons,run]
    cases ending : (attempt index notes candidate).ending with
    | done => simp
    | raised failure => simp
    | gaveUp note => simp [ih]

theorem run_raises (some : candidates ≠ []) : (run attempt exhausted index notes candidates).2.isSome ↔
    ∃ last, (tried attempt index notes candidates).getLast? = .some last ∧ last.ending ≠ .done := by
  induction candidates generalizing index notes with
  | nil => exact absurd rfl some
  | cons candidate rest ih =>
    rw [tried_cons,run]
    cases ending : (attempt index notes candidate).ending with
    | done => simp [ending]
    | raised failure => simp [ending]
    | gaveUp note =>
      cases rest with
      | nil => simp [run,tried,ending]
      | cons next others =>
        dsimp only
        rw [ih (cons_ne_nil next others),tried_cons,getLast?_cons_cons]

theorem mem_tried {this : Tried Candidate Item Failure Note} (member : this ∈ tried attempt index notes candidates) :
    ∃ before, this.toAttempt = attempt this.index before this.candidate := by
  induction candidates generalizing index notes with
  | nil => cases member
  | cons candidate rest ih =>
    rw [tried_cons] at member
    rcases mem_cons.mp member with rfl | later
    · exact ⟨notes,rfl⟩
    · cases ending : (attempt index notes candidate).ending with
      | done =>
        rw [ending] at later
        cases later
      | raised failure =>
        rw [ending] at later
        cases later
      | gaveUp note =>
        rw [ending] at later
        exact ih later

theorem tried_dropLast {this : Tried Candidate Item Failure Note} (member : this ∈ (tried attempt index notes candidates).dropLast) :
    ∃ note, this.ending = .gaveUp note := by
  induction candidates generalizing index notes with
  | nil => cases member
  | cons candidate rest ih =>
    rw [tried_cons] at member
    cases ending : (attempt index notes candidate).ending with
    | done =>
      rw [ending] at member
      cases member
    | raised failure =>
      rw [ending] at member
      cases member
    | gaveUp note =>
      rw [ending] at member
      dsimp only at member
      cases others : tried attempt (index + 1) (notes ++ [note]) rest with
      | nil =>
        rw [others] at member
        cases member
      | cons next more =>
        rw [others,dropLast_cons_cons] at member
        rcases mem_cons.mp member with rfl | later
        · exact ⟨note,ending⟩
        · rw [← others] at later
          exact ih later

theorem tried_candidates : (tried attempt index notes candidates).map (·.candidate) =
    candidates.take (tried attempt index notes candidates).length := by
  induction candidates generalizing index notes with
  | nil => rfl
  | cons candidate rest ih =>
    rw [tried_cons]
    cases (attempt index notes candidate).ending with
    | done => rfl
    | raised failure => rfl
    | gaveUp note => simp [ih]

theorem tried_indices : (tried attempt index notes candidates).map (·.index) =
    List.range' index (tried attempt index notes candidates).length := by
  induction candidates generalizing index notes with
  | nil => rfl
  | cons candidate rest ih =>
    rw [tried_cons]
    cases (attempt index notes candidate).ending with
    | done => rfl
    | raised failure => rfl
    | gaveUp note => simp [ih,range'_succ]

theorem run_filter (keep : Item → Bool)
    (none : ∀ this ∈ (tried attempt index notes candidates).dropLast, this.items.filter keep = []) :
    (run attempt exhausted index notes candidates).1.filter keep =
      ((tried attempt index notes candidates).getLast?.toList.flatMap (·.items)).filter keep := by
  rw [run_items]
  generalize tried attempt index notes candidates = tries at none
  rcases eq_nil_or_concat tries with rfl | ⟨before,last,rfl⟩
  · rfl
  · rw [concat_eq_append,dropLast_concat] at none
    have empty : (before.flatMap (·.items)).filter keep = [] := by
      rw [filter_flatMap,flatMap_eq_nil_iff]
      exact none
    simp [filter_append,empty]

end Codebot.Fallbacks
