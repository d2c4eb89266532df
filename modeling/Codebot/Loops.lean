/-!
Loops whose body goes round again, leaves or raises. A loop runs on a bound of its rounds; a rank that
every round lowers gives a bound that it keeps, and an invariant what holds where it leaves or raises
(`loop_ends`).
-/
namespace Codebot.Loops
universe u v
variable {State : Type u} {Failure : Type v}

/-- What the body does with a state. -/
inductive Round (State : Type u) (Failure : Type v)
  | again (next : State)
  | left (last : State)
  | raised (failure : Failure)

/-- The last state or the failure, `none` where the bound is too small. -/
def loop (body : State → Round State Failure) : Nat → State → Option (Except Failure State)
  | 0, _ => none
  | fuel + 1, s =>
    match body s with
    | .again next => loop body fuel next
    | .left last => some (.ok last)
    | .raised failure => some (.error failure)

/-- A loop whose rounds lower a rank ends within a bound above the rank of its state. -/
theorem loop_ends {body : State → Round State Failure} {inv leaves : State → Prop} {fails : Failure → Prop} {rank : State → Nat}
    (rounds : ∀ s, inv s → (∃ next, body s = .again next ∧ inv next ∧ rank next < rank s) ∨
      (∃ last, body s = .left last ∧ leaves last) ∨ ∃ failure, body s = .raised failure ∧ fails failure)
    {fuel : Nat} {s : State} (holds : inv s) (enough : rank s < fuel) :
    ∃ ended, loop body fuel s = some ended ∧ (∀ last, ended = .ok last → leaves last) ∧
      ∀ failure, ended = .error failure → fails failure := by
  induction fuel generalizing s with
  | zero => exact absurd enough (Nat.not_lt_zero _)
  | succ fuel ih =>
    rw [loop]
    rcases rounds s holds with ⟨next,again,kept,lower⟩ | ⟨last,left,done⟩ | ⟨failure,raised,failed⟩
    · rw [again]
      exact ih kept (Nat.lt_of_lt_of_le lower (Nat.le_of_lt_succ enough))
    · rw [left]
      refine ⟨.ok last,rfl,?_,nofun⟩
      rintro _ ⟨⟩
      exact done
    · rw [raised]
      refine ⟨.error failure,rfl,nofun,?_⟩
      rintro _ ⟨⟩
      exact failed

theorem loop_more {body : State → Round State Failure} {fuel more : Nat} {s : State} {ended : Except Failure State}
    (ends : loop body fuel s = some ended) (le : fuel ≤ more) : loop body more s = some ended := by
  induction fuel generalizing more s with
  | zero => cases ends
  | succ fuel ih =>
    obtain ⟨rest,rfl⟩ : ∃ rest, more = rest + 1 := ⟨more - 1,by omega⟩
    rw [loop] at ends ⊢
    cases round : body s with
    | again next =>
      rw [round] at ends
      exact ih ends (Nat.le_of_succ_le_succ le)
    | left last =>
      rw [round] at ends
      exact ends
    | raised failure =>
      rw [round] at ends
      exact ends
end Codebot.Loops
