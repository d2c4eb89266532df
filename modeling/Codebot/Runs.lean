import Mathlib.Logic.Function.Basic

/-!
Runs of a step function. A system of several parties is one state and one step
function that is undefined where a label is not enabled; a run is a list of
labels, oldest first. The rules carry what every step keeps to what every run
keeps, also where the steps of the run meet a side condition (`Meets`).
-/
namespace Codebot.Runs
universe u v
variable {State : Type u} {Label : Type v}

def run (step : State → Label → Option State) : State → List Label → Option State
  | s, [] => some s
  | s, label :: rest => (step s label).bind fun next => run step next rest
/-- Every label of the run is taken in a state where the condition holds. -/
def Meets (step : State → Label → Option State) (ok : State → Label → Prop) : State → List Label → Prop
  | _, [] => True
  | s, label :: rest => ok s label ∧ ∀ next ∈ step s label, Meets step ok next rest

instance decidableMeets (step : State → Label → Option State) (ok : State → Label → Prop)
    [∀ s label, Decidable (ok s label)] : ∀ s labels, Decidable (Meets step ok s labels)
  | _, [] => .isTrue trivial
  | s, label :: rest =>
    match hs : step s label with
    | none => decidable_of_iff (ok s label) (by simp [Meets,hs])
    | some next =>
      have : Decidable (Meets step ok next rest) := decidableMeets step ok next rest
      decidable_of_iff (ok s label ∧ Meets step ok next rest) (by simp [Meets,hs])

def Reachable (step : State → Label → Option State) (initial s : State) : Prop :=
  ∃ labels, run step initial labels = some s

section
variable {step : State → Label → Option State} {ok : State → Label → Prop}

@[simp] theorem run_nil (s : State) : run step s [] = some s := rfl
theorem run_cons (s : State) (label : Label) (rest : List Label) :
    run step s (label :: rest) = (step s label).bind fun next => run step next rest := rfl

variable {t : State}
theorem run_cons_some {s : State} {label : Label} {rest : List Label} :
    run step s (label :: rest) = some t ↔ ∃ next, step s label = some next ∧ run step next rest = some t := by
  rw [run_cons,Option.bind_eq_some_iff]
theorem run_append (s : State) (first second : List Label) :
    run step s (first ++ second) = (run step s first).bind fun mid => run step mid second := by
  induction first generalizing s with
  | nil => rfl
  | cons label rest ih =>
    rw [List.cons_append,run_cons,run_cons,Option.bind_assoc]
    exact Option.bind_congr fun next _ => ih next

variable {first second : List Label}
theorem run_append_some {s : State} :
    run step s (first ++ second) = some t ↔
      ∃ mid, run step s first = some mid ∧ run step mid second = some t := by
  rw [run_append,Option.bind_eq_some_iff]

theorem meets_append {s : State} (meets : Meets step ok s (first ++ second)) :
    Meets step ok s first ∧ ∀ mid, run step s first = some mid → Meets step ok mid second := by
  induction first generalizing s with
  | nil =>
    refine ⟨trivial,?_⟩
    intro mid ran
    cases ran
    exact meets
  | cons label rest ih =>
    obtain ⟨here,later⟩ := meets
    refine ⟨⟨here,fun next stepped => (ih (later next stepped)).1⟩,?_⟩
    intro mid ran
    obtain ⟨next,stepped,continued⟩ := run_cons_some.mp ran
    exact (ih (later next stepped)).2 mid continued

theorem meets_true (s : State) (labels : List Label) : Meets step (fun _ _ => True) s labels := by
  induction labels generalizing s with
  | nil => trivial
  | cons label rest ih => exact ⟨trivial,fun next _ => ih next⟩

variable {labels : List Label}
theorem meets_of_mem {s : State} (all : ∀ label ∈ labels, ∀ s, ok s label) : Meets step ok s labels := by
  induction labels generalizing s with
  | nil => trivial
  | cons label rest ih =>
    refine ⟨all label List.mem_cons_self s,?_⟩
    intro next _
    exact ih fun other member => all other (List.mem_cons_of_mem label member)
theorem meets_and {other : State → Label → Prop} {s : State} (first : Meets step ok s labels)
    (second : Meets step other s labels) : Meets step (fun s label => ok s label ∧ other s label) s labels := by
  induction labels generalizing s with
  | nil => trivial
  | cons label rest ih => exact ⟨⟨first.1,second.1⟩,fun next stepped => ih (first.2 next stepped) (second.2 next stepped)⟩

variable {inv : State → Prop}

theorem run_keeps (keeps : ∀ s label t, inv s → ok s label → step s label = some t → inv t)
    {s : State} (holds : inv s) (meets : Meets step ok s labels) (ran : run step s labels = some t) : inv t := by
  induction labels generalizing s with
  | nil =>
    cases ran
    exact holds
  | cons label rest ih =>
    obtain ⟨next,stepped,continued⟩ := run_cons_some.mp ran
    exact ih (keeps s label next holds meets.1 stepped) (meets.2 next stepped) continued

theorem reachable_keeps (keeps : ∀ s label t, inv s → step s label = some t → inv t)
    {initial s : State} (holds : inv initial) (reached : Reachable step initial s) : inv s := by
  obtain ⟨labels,ran⟩ := reached
  have each : ∀ s label t, inv s → (fun _ _ => True : State → Label → Prop) s label → step s label = some t → inv t :=
    fun s label t here _ stepped => keeps s label t here stepped
  exact run_keeps each holds (meets_true initial labels) ran

/-- A reflexive and transitive relation that every step from a state of the
    invariant respects relates the ends of every run. -/
theorem run_relates {related : State → State → Prop}
    (keeps : ∀ s label t, inv s → ok s label → step s label = some t → inv t)
    (here : ∀ s, related s s) (chain : ∀ {a b c}, related a b → related b c → related a c)
    (each : ∀ s label t, inv s → ok s label → step s label = some t → related s t)
    {s t : State} {labels : List Label} (holds : inv s) (meets : Meets step ok s labels)
    (ran : run step s labels = some t) : related s t := by
  induction labels generalizing s with
  | nil =>
    cases ran
    exact here _
  | cons label rest ih =>
    obtain ⟨next,stepped,continued⟩ := run_cons_some.mp ran
    exact chain (each s label next holds meets.1 stepped)
      (ih (keeps s label next holds meets.1 stepped) (meets.2 next stepped) continued)

theorem meets_mono {other : State → Label → Prop}
    (keeps : ∀ s label t, inv s → ok s label → step s label = some t → inv t)
    (implies : ∀ s label, inv s → ok s label → other s label) {s : State} (holds : inv s) {labels : List Label}
    (meets : Meets step ok s labels) : Meets step other s labels := by
  induction labels generalizing s with
  | nil => trivial
  | cons label rest ih =>
    obtain ⟨here,later⟩ := meets
    exact ⟨implies s label holds here,fun next stepped => ih (keeps s label next holds here stepped) (later next stepped)⟩

theorem meets_iff {other : State → Label → Prop}
    (keeps : ∀ s label t, inv s → ok s label → step s label = some t → inv t)
    (same : ∀ s label, inv s → (ok s label ↔ other s label)) {s : State} (holds : inv s) {labels : List Label} :
    Meets step ok s labels ↔ Meets step other s labels :=
  ⟨meets_mono keeps (fun s label here => (same s label here).mp) holds,
    meets_mono (fun s label t here also => keeps s label t here ((same s label here).mpr also))
      (fun s label here => (same s label here).mpr) holds⟩

theorem relates_iff {related : State → State → Prop} (here : ∀ s, related s s)
    (chain : ∀ {a b c}, related a b → related b c → related a c) {s : State} :
    (∀ before middle after mid last, labels = before ++ middle ++ after → run step s before = some mid →
        run step mid middle = some last → related mid last) ↔
      Meets step (fun s label => ∀ next, step s label = some next → related s next) s labels := by
  constructor
  · intro all
    induction labels generalizing s with
    | nil => trivial
    | cons label rest ih =>
      refine ⟨?_,?_⟩
      · intro next stepped
        exact all [] [label] rest s next rfl rfl (by simp [run,stepped])
      · intro next stepped
        apply ih
        intro before middle after mid last split reached ran
        exact all (label :: before) middle after mid last (by simp [split]) (run_cons_some.mpr ⟨next,stepped,reached⟩) ran
  · rintro meets before middle after mid last rfl reached ran
    rw [List.append_assoc] at meets
    have within := (meets_append ((meets_append meets).2 mid reached)).1
    exact @run_relates _ _ step _ (fun _ => True) related (fun _ _ _ _ _ _ => trivial) here chain
      (fun _ _ _ _ respects stepped => respects _ stepped) mid last middle trivial within ran

theorem each_iff {each : State → Label → State → Prop} (same : ∀ s label, (∀ next, step s label = some next → each s label next) ↔ ok s label)
    {s : State} {labels : List Label} :
    (∀ before label after mid next, labels = before ++ label :: after → run step s before = some mid →
        step mid label = some next → each mid label next) ↔ Meets step ok s labels := by
  constructor
  · intro all
    induction labels generalizing s with
    | nil => trivial
    | cons label rest ih =>
      refine ⟨(same s label).mp fun next stepped => all [] label rest s next rfl rfl stepped,?_⟩
      intro next stepped
      apply ih
      intro before other after mid last split ran taken
      exact all (label :: before) other after mid last (by simp [split]) (run_cons_some.mpr ⟨next,stepped,ran⟩) taken
  · rintro meets before label after mid next rfl ran stepped
    exact (same mid label).mpr ((meets_append meets).2 mid ran).1 next stepped

theorem holds_iff {always : State → Prop} (kept : ∀ s label t, always s → step s label = some t → always t)
    (same : ∀ s label, always s → inv s → ((∀ next, step s label = some next → inv next) ↔ ok s label))
    {s : State} {labels : List Label} (start : always s) (holds : inv s) :
    (∀ before after t, labels = before ++ after → run step s before = some t → inv t) ↔ Meets step ok s labels := by
  constructor
  · intro all
    induction labels generalizing s with
    | nil => trivial
    | cons label rest ih =>
      have here : ∀ next, step s label = some next → inv next := by
        intro next stepped
        exact all [label] rest next rfl (by simp [run,stepped])
      refine ⟨(same s label start holds).mp here,?_⟩
      intro next stepped
      refine ih (kept s label next start stepped) (here next stepped) ?_
      intro before after t split ran
      exact all (label :: before) after t (by simp [split]) (run_cons_some.mpr ⟨next,stepped,ran⟩)
  · rintro meets before after t rfl ran
    have both : ∀ s label t, always s ∧ inv s → ok s label → step s label = some t → always t ∧ inv t := by
      intro s label t here meets stepped
      exact ⟨kept s label t here.1 stepped,(same s label here.1 here.2).mpr meets t stepped⟩
    exact (run_keeps both ⟨start,holds⟩ (meets_append meets).1 ran).2

theorem secures_iff {secure : State → Prop} (secures : ∀ s, inv s → secure s)
    (keeps : ∀ s label t, inv s → ok s label → step s label = some t → inv t)
    (breaks : ∀ s label, inv s → (∀ next, step s label = some next → secure next) → ok s label)
    {s : State} (holds : inv s) :
    (∀ before after t, labels = before ++ after → run step s before = some t → secure t) ↔ Meets step ok s labels := by
  constructor
  · intro all
    induction labels generalizing s with
    | nil => trivial
    | cons label rest ih =>
      have here : ok s label := by
        apply breaks s label holds
        intro next stepped
        exact all [label] rest next rfl (by simp [run,stepped])
      refine ⟨here,?_⟩
      intro next stepped
      refine ih (keeps s label next holds here stepped) ?_
      intro before after t split ran
      exact all (label :: before) after t (by simp [split]) (run_cons_some.mpr ⟨next,stepped,ran⟩)
  · rintro meets before after t rfl ran
    exact secures t (run_keeps keeps holds (meets_append meets).1 ran)

end
end Codebot.Runs
