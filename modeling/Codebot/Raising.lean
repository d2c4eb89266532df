/-!
Loops over a list whose body may raise. A body changes the state in place and
returns results or raises; what it did to the state before it raised stays. A
loop runs the body on the items in turn and joins the results, until one raises.
-/
namespace Codebot.Raising
universe u v w
variable {State : Type u} {Item : Type v} {Result : Type w}

/-- The state after the loop and its results, `none` if it raised. -/
def forEach (body : State → Item → State × Option (List Result)) : State → List Item → State × Option (List Result)
  | state, [] => (state,some [])
  | state, item :: rest =>
    match body state item with
    | (mid,none) => (mid,none)
    | (mid,some first) =>
      match forEach body mid rest with
      | (last,none) => (last,none)
      | (last,some more) => (last,some (first ++ more))

variable {body : State → Item → State × Option (List Result)}
@[simp] theorem forEach_nil (state : State) : forEach body state [] = (state,some []) := rfl
theorem forEach_cons_raised {state mid : State} {item : Item} {rest : List Item} (raised : body state item = (mid,none)) :
    forEach body state (item :: rest) = (mid,none) := by
  rw [forEach,raised]
theorem forEach_cons_returned {state mid : State} {item : Item} {rest : List Item} {first : List Result}
    (returned : body state item = (mid,some first)) :
    forEach body state (item :: rest) =
      ((forEach body mid rest).1,(forEach body mid rest).2.map (first ++ ·)) := by
  rcases looped : forEach body mid rest with ⟨last,_ | more⟩ <;> simp [forEach,returned,looped]

theorem forEach_keeps {inv : State → Prop} {items : List Item}
    (kept : ∀ state, ∀ item ∈ items, inv state → inv (body state item).1) {state : State} (holds : inv state) :
    inv (forEach body state items).1 := by
  induction items generalizing state with
  | nil => exact holds
  | cons item rest ih =>
    have here := kept state item List.mem_cons_self holds
    have later : ∀ state, ∀ item ∈ rest, inv state → inv (body state item).1 :=
      fun state item member => kept state item (List.mem_cons_of_mem _ member)
    rcases ran : body state item with ⟨mid,_ | first⟩
    · rw [forEach_cons_raised ran]
      rw [ran] at here
      exact here
    · rw [forEach_cons_returned ran]
      rw [ran] at here
      exact ih later here

theorem forEach_rule {running : List Item → State → List Result → Prop} {failed : List Item → Item → State → Prop}
    {items : List Item}
    (onReturn : ∀ done item after state results mid first, items = done ++ item :: after → running done state results →
      body state item = (mid,some first) → running (done ++ [item]) mid (results ++ first))
    (onRaise : ∀ done item after state results mid, items = done ++ item :: after → running done state results →
      body state item = (mid,none) → failed done item mid)
    {state : State} (start : running [] state []) :
    (∃ last results, forEach body state items = (last,some results) ∧ running items last results) ∨
      ∃ done item after last, forEach body state items = (last,none) ∧ items = done ++ item :: after ∧ failed done item last := by
  suffices general : ∀ rest done state results, items = done ++ rest → running done state results →
      (∃ last more, forEach body state rest = (last,some more) ∧ running items last (results ++ more)) ∨
      ∃ done item after last, forEach body state rest = (last,none) ∧ items = done ++ item :: after ∧ failed done item last by
    simpa using general items [] state [] rfl start
  intro rest
  induction rest with
  | nil =>
    intro done state results split holds
    rw [List.append_nil] at split
    subst split
    exact .inl ⟨state,[],rfl,by rwa [List.append_nil]⟩
  | cons item rest ih =>
    intro done state results split holds
    rcases ran : body state item with ⟨mid,_ | first⟩
    · exact .inr ⟨done,item,rest,mid,forEach_cons_raised ran,split,onRaise done item rest state results mid split holds ran⟩
    · have next := onReturn done item rest state results mid first split holds ran
      have moved : items = (done ++ [item]) ++ rest := by rw [split,List.append_assoc,List.singleton_append]
      rw [forEach_cons_returned ran]
      rcases ih (done ++ [item]) mid (results ++ first) moved next with
        ⟨last,more,looped,ends⟩ | ⟨before,at_,after,last,looped,place,ends⟩
      · rw [looped]
        exact .inl ⟨last,first ++ more,rfl,by rwa [List.append_assoc] at ends⟩
      · rw [looped]
        exact .inr ⟨before,at_,after,last,rfl,place,ends⟩

end Codebot.Raising
