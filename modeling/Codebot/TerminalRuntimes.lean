import Codebot.NautilusRuntimes

/-!
Whether a runtime that has ended stays ended. The state that an event leads to never leaves `stopped` and `failed`,
but the heartbeat, the stop request and the kill switch write the state without a look at it
(`stopped_runtime_revived`, `terminal_kept_iff`).
-/
namespace Codebot.TerminalRuntimes
open Runs NautilusRuntimes
variable {requests : Nat}

/-- A runtime that has ended is as it was after the step. -/
def Absorbs (repository : Repository) (leaseSeconds : Nat) (system : System requests) (label : Label requests) : Prop :=
  ∀ runtime, system.row = some runtime → terminal runtime.state →
    ∀ next, step repository leaseSeconds system label = some next →
      ∃ after, next.row = some after ∧ after.state = runtime.state

/-- The next write of a request to a row that has ended is no new state, no heartbeat without the kill switch and no
    kill switch. -/
def sparing (repository : Repository) (row : NautilusRuntime) : Phase → Bool
  | .calling (.setState state) _ => repository == .sql || state == row.state
  | .calling (.heartbeat _) _ => repository == .sql || row.killSwitchActive
  | .calling .killSwitch _ => repository == .sql
  | .loaded (.setState state) loaded _ => state == loaded.state || state == row.state
  | .loaded (.heartbeat warmup) loaded _ =>
    if loaded.killSwitchActive then winding loaded.state else stateFromHeartbeatPayload warmup == loaded.state
  | .loaded .killSwitch loaded _ => loaded.state == .stopping
  | _ => true

/-- No request writes another state to a runtime that has ended, and no worker releases one
    that has failed. -/
def spares (repository : Repository) (system : System requests) (label : Label requests) : Bool :=
  match system.row with
  | none => true
  | some row =>
    !terminal row.state ||
      match label with
      | .proceed c => sparing repository row (system.request c)
      | .release workerId locked => row.state == .stopped || !leased repository workerId locked row
      | _ => true

theorem heartbeat_not_terminal (warmup : Option WarmupStatus) : terminal (stateFromHeartbeatPayload warmup) = false := by
  unfold stateFromHeartbeatPayload
  split <;> rfl

variable {row : NautilusRuntime}
theorem state_differs (ended : terminal row.state) {state : RuntimeState}
    (open_ : terminal state = false) : state ≠ row.state := by
  rintro rfl
  rw [open_] at ended
  cases ended

theorem target_state (ended : terminal row.state) (write : Write) (after : Option Write) :
    (write.target row).state = row.state ↔ sparing .memory row (.calling write after) := by
  cases write with
  | setState state => simp [Write.target,sparing]
  | setDesiredState desiredState => simp [Write.target,sparing]
  | heartbeat warmup =>
    have wound : winding row.state = true := by simp [winding,ended]
    by_cases killed : row.killSwitchActive
    · simp [Write.target,sparing,killed,wound]
    · simp [Write.target,sparing,killed,state_differs ended (heartbeat_not_terminal warmup)]
  | killSwitch => exact iff_of_false (state_differs ended rfl) Bool.false_ne_true
  | upsert mode strategyId => simp [Write.target,sparing]

theorem pick_eq_iff {Value : Type} [DecidableEq Value] {loaded target row : Value} :
    pick loaded target row = row ↔ target = loaded ∨ target = row := by
  unfold pick
  split
  · rename_i same
    exact iff_of_true rfl (.inl same)
  · rename_i other
    rw [or_iff_right other]

theorem merge_state (ended : terminal row.state) (repository : Repository) (loaded : NautilusRuntime)
    (write : Write) (after : Option Write) :
    (merge loaded (write.target loaded) row).state = row.state ↔ sparing repository row (.loaded write loaded after) := by
  have column : (merge loaded (write.target loaded) row).state = row.state ↔
      (write.target loaded).state = loaded.state ∨ (write.target loaded).state = row.state := pick_eq_iff
  rw [column]
  cases write with
  | setState state => simp [Write.target,sparing]
  | setDesiredState desiredState => simp [Write.target,sparing]
  | heartbeat warmup =>
    by_cases killed : loaded.killSwitchActive
    · by_cases wound : winding loaded.state
      · simp [Write.target,sparing,killed,wound]
      · have notStopping : RuntimeState.stopping ≠ loaded.state := by
          intro same
          rw [← same] at wound
          exact wound rfl
        have open_ : RuntimeState.stopping ≠ row.state := state_differs ended rfl
        simp [Write.target,sparing,killed,wound,notStopping,open_]
    · simp [Write.target,sparing,killed,state_differs ended (heartbeat_not_terminal warmup)]
  | killSwitch =>
    have open_ : RuntimeState.stopping ≠ row.state := state_differs ended rfl
    simp only [Write.target,sparing,beq_iff_eq,or_iff_left open_]
    exact eq_comm
  | upsert mode strategyId => simp [Write.target,sparing]

variable {repository : Repository}

theorem proceed_state (ended : terminal row.state) {phase : Phase}
    {next : Phase × Option NautilusRuntime} (proceeded : proceed repository (some row) phase = some next) :
    (∃ after, next.2 = some after ∧ after.state = row.state) ↔ sparing repository row phase := by
  have unchanged : (∃ after, some row = some after ∧ after.state = row.state) ↔ True :=
    iff_of_true ⟨row,rfl,rfl⟩ trivial
  have written : ∀ runtime : NautilusRuntime,
      (∃ after, some runtime = some after ∧ after.state = row.state) ↔ runtime.state = row.state := by
    intro runtime
    simp only [Option.some.injEq,exists_eq_left']
  cases phase with
  | idle => cases proceeded
  | appended type =>
    simp only [proceed] at proceeded
    split at proceeded <;> cases proceeded <;> exact unchanged.trans (iff_of_true trivial rfl)
  | calling write after =>
    cases repository with
    | memory =>
      cases proceeded
      exact (written _).trans (target_state ended write after)
    | sql =>
      cases proceeded
      refine unchanged.trans (iff_of_true trivial ?_)
      cases write <;> rfl
  | loaded write loaded after =>
    cases proceeded
    exact (written _).trans (merge_state ended repository loaded write after)
  | inserting mode strategyId =>
    cases proceeded
    exact unchanged.trans (iff_of_true trivial rfl)

theorem release_state (repository : Repository) (workerId : Nat)
    (locked : Bool) : (releaseNautilusRuntimeLease repository workerId locked row).state = row.state ↔
      (row.state == .stopped || !leased repository workerId locked row) = true := by
  unfold releaseNautilusRuntimeLease
  by_cases holds : leased repository workerId locked row
  · rw [if_pos holds,holds,Bool.not_true,Bool.or_false,beq_iff_eq]
    exact eq_comm
  · simp [holds]

theorem claim_state {leaseSeconds : Nat} {system : System requests} {workerId : Nat} {locked : Bool}
    {runtime : NautilusRuntime} (found : system.row = some row) (ended : terminal row.state)
    (isClaim : claim repository leaseSeconds system workerId locked = some runtime) : runtime.state = row.state := by
  have notRequested : RuntimeState.requested ≠ row.state := state_differs ended rfl
  have kept : (claimed leaseSeconds system.now workerId row).state = row.state := if_neg notRequested.symm
  rw [claim,found,Option.bind_some] at isClaim
  rw [claimed_of_claim isClaim]
  exact kept

theorem absorbs_iff (repository : Repository) (leaseSeconds : Nat) (system : System requests) (label : Label requests) :
    Absorbs repository leaseSeconds system label ↔ spares repository system label := by
  unfold Absorbs spares
  cases found : system.row with
  | none => exact iff_of_true (fun runtime isRow => nomatch isRow) rfl
  | some row =>
    by_cases ended : terminal row.state
    · have here : (∀ runtime, some row = some runtime → terminal runtime.state →
          ∀ next, step repository leaseSeconds system label = some next →
            ∃ after, next.row = some after ∧ after.state = runtime.state) ↔
          ∀ next, step repository leaseSeconds system label = some next →
            ∃ after, next.row = some after ∧ after.state = row.state := by
        constructor
        · exact fun each => each row rfl ended
        · rintro holds runtime ⟨⟩ _
          exact holds
      rw [here]
      simp only [ended,Bool.not_true,Bool.false_or]
      cases label with
      | tick amount =>
        refine iff_of_true ?_ rfl
        rintro next ⟨⟩
        exact ⟨row,found,rfl⟩
      | request c request =>
        refine iff_of_true ?_ rfl
        intro next stepped
        simp only [step] at stepped
        split at stepped <;> cases stepped
        exact ⟨row,found,rfl⟩
      | proceed c =>
        simp only [step,found]
        cases proceeded : proceed repository (some row) (system.request c) with
        | none =>
          refine iff_of_true (fun next stepped => nomatch stepped) ?_
          revert proceeded
          cases system.request c with
          | idle => exact fun _ => rfl
          | appended type => exact fun _ => rfl
          | calling write after => cases repository <;> exact fun stuck => nomatch stuck
          | loaded write loaded after => exact fun stuck => nomatch stuck
          | inserting mode strategyId => exact fun _ => rfl
        | some next =>
          rw [← proceed_state ended proceeded]
          simp only [Option.map_some,Option.some.injEq,forall_eq',System.put]
      | claim workerId locked =>
        refine iff_of_true ?_ rfl
        intro next stepped
        simp only [step] at stepped
        split at stepped
        · cases stepped
          exact ⟨row,found,rfl⟩
        · rename_i runtime isClaim
          cases stepped
          exact ⟨runtime,rfl,claim_state found ended isClaim⟩
      | renew workerId locked =>
        refine iff_of_true ?_ rfl
        rintro next ⟨⟩
        refine ⟨_,congrArg (Option.map _) found,?_⟩
        unfold renewNautilusRuntimeLease
        split <;> rfl
      | release workerId locked =>
        rw [← release_state repository workerId locked]
        simp only [step,found,Option.map_some,Option.some.injEq,forall_eq',exists_eq_left']
      | append workerId locked =>
        refine iff_of_true ?_ rfl
        rintro next ⟨⟩
        exact ⟨row,found,rfl⟩
    · refine iff_of_true ?_ ?_
      · rintro runtime ⟨⟩ isEnded
        exact absurd isEnded ended
      · simp [ended]

/-- Ended runtimes stay as they ended in exactly the runs whose steps spare them. -/
theorem terminal_kept_iff (repository : Repository) (leaseSeconds : Nat) (labels : List (Label requests)) :
    Meets (step repository leaseSeconds) (Absorbs repository leaseSeconds) (initial requests) labels ↔
      Meets (step repository leaseSeconds) (fun system label => spares repository system label) (initial requests) labels :=
  meets_iff (fun _ _ _ (_ : True) _ _ => trivial) (fun system label _ => absorbs_iff repository leaseSeconds system label)
    trivial
def untilHeartbeat (request : Fin requests) : List (Label requests) :=
  [.request request (.start .paper 7),.proceed request,.claim 1 false,.release 1 false,.request request (.heartbeat none)]

/-- The heartbeat revives the stopped runtime. -/
theorem stopped_runtime_revived : ¬ ∀ (requests : Nat) (repository : Repository) (leaseSeconds : Nat)
    (labels : List (Label requests)),
    Meets (step repository leaseSeconds) (Absorbs repository leaseSeconds) (initial requests) labels := by
  intro always
  have meets := always 1 .memory 60 (untilHeartbeat 0 ++ [Label.proceed 0])
  obtain ⟨system,reached,runtime,isRow,stopped,next,stepped,after,isNext,running⟩ :
      ∃ system, run (step .memory 60) (initial 1) (untilHeartbeat 0) = some system ∧
        ∃ runtime, system.row = some runtime ∧ runtime.state = .stopped ∧
          ∃ next, step .memory 60 system (.proceed 0) = some next ∧
            ∃ after, next.row = some after ∧ after.state = .running :=
    ⟨_,rfl,_,rfl,rfl,_,rfl,_,rfl,rfl⟩
  have absorbs := ((meets_append meets).2 system reached).1
  obtain ⟨same,isSame,kept⟩ := absorbs runtime isRow (by rw [stopped]; rfl) next stepped
  rw [isNext] at isSame
  cases isSame
  rw [running,stopped] at kept
  cases kept

end Codebot.TerminalRuntimes
