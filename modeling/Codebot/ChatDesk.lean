import Codebot.JobProgress

/-!
The handlers of the chat worker's jobs. A chat worker goes through the statements of a handler, which may raise at any
of them; the fleet decides when the job is claimed, when the process dies and when another worker claims the job
again.
-/
namespace Codebot.ChatDesk
open Tables JobTable BacktestWorker ChatWorker JobLeases JobProgress Function

/-- The fleet, and where the chat workers are in the handler. -/
structure Desk (Stage : Type) (workers requests chats : Nat) where
  fleet : Fleet workers requests chats
  stage : Fin chats → Option Stage
/-- The jobs that are handled, where the handler starts and whether it may return. -/
structure Handler (Stage : Type) where
  jobType : JobType
  start : RunJobRow → Stage
  returns : Stage → Bool

variable {Stage : Type} {workers requests chats : Nat}
def Desk.enter (desk : Desk Stage workers requests chats) (fleet : Fleet workers requests chats) (c : Fin chats)
    (stage : Option Stage) : Desk Stage workers requests chats :=
  ⟨fleet,Function.update desk.stage c stage⟩
def Handler.entered (handler : Handler Stage) : ChatPhase → Option Stage
  | .processing job => if job.jobType = handler.jobType then some (handler.start job) else none
  | _ => none

/-- A step of the fleet. The statement after the handler comes once the handler returns. -/
def deskStep (settings : Settings) (handler : Handler Stage) (desk : Desk Stage workers requests chats)
    (label : FleetLabel workers requests chats) : Option (Desk Stage workers requests chats) :=
  (fleetStep settings desk.fleet label).bind fun fleet =>
    match label with
    | .take c _ => some (desk.enter fleet c (handler.entered (fleet.chat c)))
    | .work c outcome =>
      match desk.stage c, outcome with
      | some stage, .ok => if handler.returns stage then some (desk.enter fleet c none) else none
      | _, _ => some (desk.enter fleet c none)
    | _ => some { desk with fleet }

def initialDesk (workers requests chats : Nat) : Desk Stage workers requests chats :=
  ⟨initialFleet workers requests chats,fun _ => none⟩

variable {settings : Settings} {handler : Handler Stage} {desk next : Desk Stage workers requests chats}
variable {c : Fin chats} {fleet : Fleet workers requests chats}

theorem enter_stage {other : Fin chats} {stage : Option Stage} {at_ : Stage}
    (reached : (desk.enter fleet c stage).stage other = some at_) :
    (other = c ∧ stage = some at_) ∨ (other ≠ c ∧ desk.stage other = some at_) := by
  change Function.update desk.stage c stage other = some at_ at reached
  by_cases same : other = c
  · subst same
    rw [update_self] at reached
    exact .inl ⟨rfl,reached⟩
  · rw [update_of_ne same] at reached
    exact .inr ⟨same,reached⟩

variable {label : FleetLabel workers requests chats}

theorem deskStep_stage (stepped : deskStep settings handler desk label = some next) {stage : Stage} (reached : next.stage c = some stage) :
    desk.stage c = some stage ∨ ∃ locked job, label = .take c locked ∧ next.fleet.chat c = .processing job ∧
      job.jobType = handler.jobType ∧ stage = handler.start job := by
  obtain ⟨fleet,moved,entered⟩ := Option.bind_eq_some_iff.mp stepped
  cases label with
  | backtest label | claim other =>
    cases entered
    exact .inl reached
  | take other locked =>
    cases entered
    rcases enter_stage reached with ⟨rfl,begins⟩ | ⟨_,before⟩
    · right
      unfold Handler.entered at begins
      split at begins
      · rename_i job processing
        split at begins
        · rename_i isType
          cases begins
          exact ⟨locked,job,rfl,processing,isType,rfl⟩
        · cases begins
      · cases begins
    · exact .inl before
  | work other outcome =>
    dsimp only at entered
    split at entered
    · split at entered
      · cases entered
        rcases enter_stage reached with ⟨_,ended⟩ | ⟨_,before⟩
        · cases ended
        · exact .inl before
      · cases entered
    · cases entered
      rcases enter_stage reached with ⟨_,ended⟩ | ⟨_,before⟩
      · cases ended
      · exact .inl before

/-- The row that a claim of a chat worker takes, as it is before the claim. -/
def taken (settings : Settings) (fleet : Fleet workers requests chats) (c : Fin chats) (locked : List Nat) : Option RunJobRow :=
  match fleet.chat c with
  | .claiming jobType snapshot at_ =>
    (claimRows settings (.claimRunJob jobType) at_ snapshot locked fleet.db.jobs).map Prod.snd
  | _ => none

variable {after : Fleet workers requests chats} {locked : List Nat}

theorem taken_of_processing {job : RunJobRow}
    (stepped : fleetStep settings fleet (.take c locked) = some after) (processing : after.chat c = .processing job) :
    ∃ row, taken settings fleet c locked = some row ∧ row ∈ fleet.db.jobs ∧ row.id = job.id ∧ row.jobType = job.jobType := by
  simp only [fleetStep,chatTake] at stepped
  split at stepped
  · rename_i jobType snapshot at_ phase
    split at stepped
    · cases stepped
      rw [Fleet.put] at processing
      dsimp only at processing
      rw [update_self] at processing
      cases processing
    · rename_i loaded row rows
      cases stepped
      refine ⟨row,by simp only [taken,phase,rows]; rfl,find_mem (claimRows_some rows).2.1,?_⟩
      rw [Fleet.remember,Fleet.put] at processing
      dsimp only at processing
      rw [update_self] at processing
      cases processing
      exact ⟨rfl,rfl⟩
  · cases stepped

variable {row : RunJobRow}

theorem processing_of_taken
    (takes : taken settings fleet c locked = some row) : ∃ after job, fleetStep settings fleet (.take c locked) = some after ∧
      after.chat c = .processing job ∧ job.id = row.id ∧ job.jobType = row.jobType := by
  unfold taken at takes
  split at takes
  · rename_i jobType snapshot at_ phase
    obtain ⟨⟨loaded,found⟩,rows,rfl⟩ := Option.map_eq_some_iff.mp takes
    let write := claimedRunJob settings.chatLeaseSeconds at_ (Party.chat c : Party workers chats).workerId loaded
    refine ⟨(fleet.put c (.processing (write found),{ fleet.db with jobs := update fleet.db.jobs found.id write })).remember
      found.id (.chat c),write found,?_,update_self ..,rfl,rfl⟩
    simp only [fleetStep,chatTake,phase,rows]
    rfl
  · cases takes

theorem mem_update {rows : List RunJobRow} {id : Nat} {change : RunJobRow → RunJobRow}
    (member : row ∈ update rows id change) : ∃ old ∈ rows, row = old ∨ row = change old := by
  obtain ⟨old,isOld,same⟩ := List.mem_map.mp member
  split at same
  · exact ⟨old,isOld,.inr same.symm⟩
  · exact ⟨old,isOld,.inl same.symm⟩

theorem step_rows (stepped : fleetStep settings fleet label = some after) (member : row ∈ after.db.jobs) :
    (∃ old ∈ fleet.db.jobs, old.id = row.id ∧ old.jobType = row.jobType) ∨
      ∃ input, label = .backtest (.createRunJob input) ∧ input.id = row.id ∧ input.jobType = row.jobType := by
  have updated : ∀ {id : Nat} {change : RunJobRow → RunJobRow}, row ∈ update fleet.db.jobs id change →
      (∀ old, (change old).id = old.id ∧ (change old).jobType = old.jobType) →
        ∃ old ∈ fleet.db.jobs, old.id = row.id ∧ old.jobType = row.jobType := by
    intro id change isIn keeps
    obtain ⟨old,isOld,rfl | rfl⟩ := mem_update isIn
    · exact ⟨row,isOld,rfl,rfl⟩
    · exact ⟨old,isOld,(keeps old).1.symm,(keeps old).2.symm⟩
  have moved := step_move stepped
  generalize after.db.jobs = jobs at moved member
  generalize after.db.now = now at moved
  cases moved with
  | same => exact .inl ⟨row,member,rfl,rfl⟩
  | ticked amount _ => exact .inl ⟨row,member,rfl,rfl⟩
  | created input isLabel _ _ =>
    rcases List.mem_append.mp member with old | new
    · exact .inl ⟨row,old,rfl,rfl⟩
    · rw [List.mem_singleton.mp new]
      exact .inr ⟨input,isLabel,rfl,rfl⟩
  | taken w locked snapshot at_ job _ _ _ => exact .inl (updated member fun _ => ⟨rfl,rfl⟩)
  | chatTaken c locked jobType snapshot at_ loaded job _ _ _ => exact .inl (updated member fun _ => ⟨rfl,rfl⟩)
  | renewed id found _ _ => exact .inl (updated member fun _ => ⟨rfl,rfl⟩)
  | finished party finish _ =>
    refine .inl (updated member fun old => ?_)
    cases same : finish.loaded with
    | none => simp [Finish.change,same,JobTable.finished]
    | some loaded => simp [Finish.change,same,completeRunJob]
  | cancelled selected =>
    obtain ⟨old,isOld,same⟩ := List.mem_map.mp member
    split at same
    · exact .inl ⟨old,isOld,same ▸ rfl,same ▸ rfl⟩
    · exact .inl ⟨old,isOld,same ▸ rfl,same ▸ rfl⟩

end Codebot.ChatDesk
