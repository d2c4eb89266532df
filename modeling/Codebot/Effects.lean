/-!
Computations that change a state in place and return or raise. What a computation did to the state
before it raised stays. What a computation ensures of its end and of the state it leaves is led back
from a sequence to its parts, and from a handler to what is handled.
-/
namespace Codebot.Effects
universe u

abbrev Effect (State : Type u) (Failure Result : Type u) : Type u := ExceptT Failure (StateM State) Result

variable {State Failure Result Other : Type u}
def Returns (computation : Effect State Failure Result) (state : State) (result : Result) (next : State) : Prop :=
  computation.run.run state = (.ok result,next)
def Ensures (computation : Effect State Failure Result) (state : State) (post : Except Failure Result → State → Prop) : Prop :=
  post (computation.run.run state).1 (computation.run.run state).2

variable {state next last : State} {result : Result} {computation : Effect State Failure Result}
  {post middle : Except Failure Result → State → Prop}
theorem returns_get : Returns (get : Effect State Failure State) state state state := rfl
theorem returns_set : Returns (set next : Effect State Failure PUnit) state ⟨⟩ next := rfl

variable {continuation : Result → Effect State Failure Other}

theorem Returns.bind {answer : Other}
    (returns : Returns computation state result next) (rest : Returns (continuation result) next answer last) :
    Returns (computation >>= continuation) state answer last := by
  have split : (computation >>= continuation).run.run state =
      match computation.run.run state with
      | (.ok result,next) => (continuation result).run.run next
      | (.error failure,next) => (.error failure,next) := by
    simp only [ExceptT.run_bind,StateT.run_bind]
    rcases StateT.run computation.run state with ⟨_ | _,_⟩ <;> rfl
  rw [Returns,split,returns]
  exact rest

theorem Ensures.mono (ensures : Ensures computation state middle) (implies : ∀ ended next, middle ended next → post ended next) :
    Ensures computation state post :=
  implies _ _ ensures
theorem Returns.ensures (returns : Returns computation state result next) (holds : post (.ok result) next) :
    Ensures computation state post := by
  rw [Ensures,returns]
  exact holds
theorem ensures_pure (holds : post (.ok result) state) : Ensures (pure result) state post := holds
theorem ensures_throw {failure : Failure} (holds : post (.error failure) state) : Ensures (throw failure) state post := holds

variable {after : Except Failure Other → State → Prop}

theorem ensures_bind :
    Ensures (computation >>= continuation) state after ↔
      Ensures computation state fun ended next =>
        match ended with
        | .ok result => Ensures (continuation result) next after
        | .error failure => after (.error failure) next := by
  simp only [Ensures,ExceptT.run_bind,StateT.run_bind]
  rcases StateT.run computation.run state with ⟨_ | _,_⟩ <;> rfl

theorem Ensures.bind
    (ensures : Ensures computation state middle) (raised : ∀ failure next, middle (.error failure) next → after (.error failure) next)
    (rest : ∀ result next, middle (.ok result) next → Ensures (continuation result) next after) :
    Ensures (computation >>= continuation) state after := by
  rw [ensures_bind]
  refine ensures.mono ?_
  rintro (failure | result) next holds
  · exact raised failure next holds
  · exact rest result next holds

theorem Returns.bind_ensures
    (returns : Returns computation state result next) (rest : Ensures (continuation result) next after) :
    Ensures (computation >>= continuation) state after :=
  ensures_bind.mpr (returns.ensures rest)

theorem Ensures.caught {handler : Failure → Effect State Failure Result} (ensures : Ensures computation state middle)
    (returned : ∀ result next, middle (.ok result) next → post (.ok result) next)
    (handled : ∀ failure next, middle (.error failure) next → Ensures (handler failure) next post) :
    Ensures (tryCatch computation handler) state post := by
  have split : (tryCatch computation handler : Effect State Failure Result).run.run state =
      match computation.run.run state with
      | (.ok result,next) => (.ok result,next)
      | (.error failure,next) => (handler failure).run.run next := by
    rw [ExceptT.run_tryCatch,StateT.run_bind]
    rcases StateT.run computation.run state with ⟨_ | _,_⟩ <;> rfl
  rw [Ensures] at ensures
  rw [Ensures,split]
  rcases ended : computation.run.run state with ⟨failure | result,next⟩
  · rw [ended] at ensures
    exact handled failure next ensures
  · rw [ended] at ensures
    exact returned result next ensures

theorem Ensures.returns {holds : Result → State → Prop}
    (ensures : Ensures computation state fun ended next => ∃ result, ended = .ok result ∧ holds result next) :
    ∃ result next, Returns computation state result next ∧ holds result next := by
  obtain ⟨result,ended,isSo⟩ := ensures
  exact ⟨result,_,Prod.ext ended rfl,isSo⟩

end Codebot.Effects
