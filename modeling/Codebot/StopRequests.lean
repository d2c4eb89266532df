import Codebot.Tables
import Codebot.NautilusRuntimes
import Mathlib.Data.Finset.Card
import Mathlib.Data.List.Sort

/-!
The iterations of the paper workers over the table of runtimes. An iteration lists the runtimes that are to stop and
releases their leases, and then claims the runtimes that are to run. A release writes `stopped` only where the worker
has the lease, but the listing also has others.
-/
namespace Codebot.StopRequests
open Runs Tables NautilusRuntimes List

structure RuntimeRow where
  id : Nat
  runtime : NautilusRuntime
  createdAt : Nat
  updatedAt : Nat
deriving DecidableEq
instance : Keyed RuntimeRow := ⟨RuntimeRow.id⟩
@[simp] theorem key_row (row : RuntimeRow) : Keyed.key row = row.id := rfl
/-- The rows of the table with the time, each id once. -/
structure Table where
  now : Nat
  rows : List RuntimeRow
  distinct : (rows.map Keyed.key).Nodup
/-- `NautilusPaperWorkerConfig`, as far as an iteration reads it. -/
structure Worker where
  workerId : Nat
  maxRuntimeProcesses : Nat
  positive : 0 < maxRuntimeProcesses
  maxStrategiesPerRuntime : Nat
  leaseSeconds : Nat

/-- What the runner does to a runtime that was claimed: nothing that the table shows, a
    heartbeat, a stop that its commands ask for, or it raises. -/
inductive RunnerOutcome
  | quiet
  | heartbeat (warmup : Option WarmupStatus)
  | stopped
  | raised
deriving DecidableEq

/-- An iteration: its worker, the time since the one before, the rows that other transactions
    lock, and what the runner does. -/
structure Call where
  worker : Worker
  elapsed : Nat
  locked : Nat → Bool
  outcome : Nat → RunnerOutcome
def boundedNautilusLimit (limit : Nat) : Nat := min 500 (max 1 limit)
/-- `ORDER BY updated_at, created_at, id`. -/
def listingOrder (rows : List RuntimeRow) : List RuntimeRow :=
  rows.insertionSort fun a b => a.updatedAt < b.updatedAt ∨ a.updatedAt = b.updatedAt ∧
    (a.createdAt < b.createdAt ∨ a.createdAt = b.createdAt ∧ a.id ≤ b.id)
/-- The rows of `list_desired_nautilus_runtimes` before the limit. -/
def desired (now workerId : Nat) (desiredState : DesiredState) (rows : List RuntimeRow) : List RuntimeRow :=
  rows.filter fun row => row.runtime.mode == .paper && row.runtime.desiredState == desiredState &&
    !terminal row.runtime.state && leaseFree now workerId row.runtime
def listDesiredNautilusRuntimes (now workerId : Nat) (desiredState : DesiredState) (limit : Nat) (rows : List RuntimeRow) :
    List RuntimeRow :=
  (listingOrder (desired now workerId desiredState rows)).take (boundedNautilusLimit limit)
/-- The row after `release_nautilus_runtime_lease`. -/
def released (repository : Repository) (now workerId : Nat) (locked : Bool) (row : RuntimeRow) : RuntimeRow :=
  if leased repository workerId locked row.runtime then
    { row with runtime := releaseNautilusRuntimeLease repository workerId locked row.runtime, updatedAt := now }
  else row
/-- The row after the runner ran it. -/
def ranRow (repository : Repository) (now workerId : Nat) (locked : Bool) (row : RuntimeRow) : RunnerOutcome → RuntimeRow
  | .heartbeat warmup => { row with runtime := (Write.heartbeat warmup).target row.runtime, updatedAt := now }
  | .stopped => released repository now workerId locked row
  | .quiet | .raised => row
/-- The stop candidates are released in turn. -/
def releaseAll (repository : Repository) (call : Call) (now : Nat) (rows candidates : List RuntimeRow) : List RuntimeRow :=
  candidates.foldl (fun rows candidate =>
    update rows candidate.id (released repository now call.worker.workerId (call.locked candidate.id))) rows

/-- The candidates that are to run are claimed and run in turn, until the runner raises. -/
def claimAll (repository : Repository) (call : Call) (now : Nat) (rows : List RuntimeRow) : List RuntimeRow → List RuntimeRow
  | [] => rows
  | candidate :: rest =>
    if call.worker.maxStrategiesPerRuntime < candidate.runtime.strategyIds.length then claimAll repository call now rows rest
    else
      match (find rows candidate.id).bind fun row => claimNautilusRuntimeLease repository call.worker.leaseSeconds now
          call.worker.workerId (call.locked candidate.id) row.runtime with
      | none => claimAll repository call now rows rest
      | some lease =>
        let claimedRows := update rows candidate.id fun row => { row with runtime := lease, updatedAt := now }
        match call.outcome candidate.id with
        | .raised => claimedRows
        | outcome => claimAll repository call now (update claimedRows candidate.id fun row =>
            ranRow repository now call.worker.workerId (call.locked candidate.id) row outcome) rest

def stopCandidates (table : Table) (call : Call) : List RuntimeRow :=
  listDesiredNautilusRuntimes (table.now + call.elapsed) call.worker.workerId .stopping call.worker.maxRuntimeProcesses table.rows
def stoppedRows (repository : Repository) (table : Table) (call : Call) : List RuntimeRow :=
  releaseAll repository call (table.now + call.elapsed) table.rows (stopCandidates table call)
/-- The rows after `run_once`. -/
def runOnceRows (repository : Repository) (table : Table) (call : Call) : List RuntimeRow :=
  let now := table.now + call.elapsed
  let rows := stoppedRows repository table call
  claimAll repository call now rows
    (listDesiredNautilusRuntimes now call.worker.workerId .running call.worker.maxRuntimeProcesses rows)
theorem released_id (repository : Repository) (now workerId : Nat) (locked : Bool) (row : RuntimeRow) :
    (released repository now workerId locked row).id = row.id := by
  unfold released
  split <;> rfl
theorem ranRow_id (repository : Repository) (now workerId : Nat) (locked : Bool) (row : RuntimeRow) (outcome : RunnerOutcome) :
    (ranRow repository now workerId locked row outcome).id = row.id := by
  cases outcome with
  | stopped => exact released_id ..
  | _ => rfl
theorem releaseAll_keys (repository : Repository) (call : Call) (now : Nat) (rows candidates : List RuntimeRow) :
    (releaseAll repository call now rows candidates).map Keyed.key = rows.map Keyed.key := by
  induction candidates generalizing rows with
  | nil => rfl
  | cons candidate rest ih =>
    refine (ih _).trans (keys_update ?_)
    exact fun row => released_id ..

theorem claimAll_keys (repository : Repository) (call : Call) (now : Nat) (rows candidates : List RuntimeRow) :
    (claimAll repository call now rows candidates).map Keyed.key = rows.map Keyed.key := by
  induction candidates generalizing rows with
  | nil => rfl
  | cons candidate rest ih =>
    have claimedKeys : ∀ lease : NautilusRuntime,
        (update rows candidate.id fun row => { row with runtime := lease, updatedAt := now }).map Keyed.key = rows.map Keyed.key :=
      fun lease => keys_update fun row => rfl
    rw [claimAll]
    split
    · exact ih rows
    · split
      · exact ih rows
      · rename_i lease _
        split
        · exact claimedKeys lease
        · refine (ih _).trans ((keys_update ?_).trans (claimedKeys lease))
          exact fun row => ranRow_id ..

def runOnce (repository : Repository) (table : Table) (call : Call) : Table where
  now := table.now + call.elapsed
  rows := runOnceRows repository table call
  distinct := by
    rw [runOnceRows,claimAll_keys,stoppedRows,releaseAll_keys]
    exact table.distinct
def step (repository : Repository) (table : Table) (call : Call) : Option Table := some (runOnce repository table call)
def stopping (row : RuntimeRow) : Bool :=
  row.runtime.mode == .paper && row.runtime.desiredState == .stopping && !terminal row.runtime.state

variable {now : Nat} {row : RuntimeRow} {rows : List RuntimeRow} {workerId : Nat}
theorem mem_desired :
    row ∈ desired now workerId .stopping rows ↔ row ∈ rows ∧ stopping row ∧ leaseFree now workerId row.runtime := by
  rw [desired,mem_filter,Bool.and_eq_true]
  rfl
theorem mem_candidates {limit : Nat} {desiredState : DesiredState}
    (member : row ∈ listDesiredNautilusRuntimes now workerId desiredState limit rows) : row ∈ desired now workerId desiredState rows :=
  (mem_insertionSort _).mp (mem_of_mem_take member)

theorem released_twice (repository : Repository) (now workerId : Nat) (locked : Bool) (row : RuntimeRow) :
    released repository now workerId locked (released repository now workerId locked row) =
      released repository now workerId locked row := by
  by_cases holds : leased repository workerId locked row.runtime
  · have free : leased repository workerId locked (releaseNautilusRuntimeLease repository workerId locked row.runtime) = false := by
      rw [releaseNautilusRuntimeLease,if_pos holds]
      rfl
    have once : released repository now workerId locked row =
        { row with runtime := releaseNautilusRuntimeLease repository workerId locked row.runtime, updatedAt := now } := if_pos holds
    rw [once]
    exact if_neg (by rw [free]; exact Bool.false_ne_true)
  · have same : released repository now workerId locked row = row := if_neg holds
    rw [same,same]

theorem find_releaseAll (repository : Repository) (call : Call) (now : Nat) (rows candidates : List RuntimeRow) (id : Nat) :
    find (releaseAll repository call now rows candidates) id =
      if id ∈ candidates.map RuntimeRow.id then
        (find rows id).map (released repository now call.worker.workerId (call.locked id))
      else find rows id := by
  induction candidates generalizing rows with
  | nil => rfl
  | cons candidate rest ih =>
    have keeps : ∀ row, Keyed.key (released repository now call.worker.workerId (call.locked candidate.id) row) = Keyed.key row :=
      fun row => released_id ..
    show find (releaseAll repository call now (update rows candidate.id _) rest) id = _
    rw [ih,find_update keeps]
    by_cases here : id = candidate.id
    · subst here
      rw [if_pos rfl,if_pos (mem_map_of_mem mem_cons_self)]
      split
      · rw [Option.map_map]
        congr 1
        funext row
        exact released_twice ..
      · rfl
    · rw [if_neg here]
      have same : id ∈ (candidate :: rest).map RuntimeRow.id ↔ id ∈ rest.map RuntimeRow.id := by
        rw [map_cons,mem_cons,or_iff_right here]
      simp only [same]

variable {repository : Repository} {runtime : NautilusRuntime}
theorem claim_desired {leaseSeconds : Nat} {locked : Bool} {lease : NautilusRuntime}
    (isClaim : claimNautilusRuntimeLease repository leaseSeconds now workerId locked runtime = some lease) :
    lease.desiredState = runtime.desiredState := by
  rw [claimed_of_claim isClaim]
  rfl
theorem released_desired (repository : Repository) (now workerId : Nat) (locked : Bool) (row : RuntimeRow) :
    (released repository now workerId locked row).runtime.desiredState = row.runtime.desiredState := by
  unfold released releaseNautilusRuntimeLease
  by_cases holds : leased repository workerId locked row.runtime
  · rw [if_pos holds,if_pos holds]
  · rw [if_neg holds]
theorem ranRow_desired (repository : Repository) (now workerId : Nat) (locked : Bool) (row : RuntimeRow) (outcome : RunnerOutcome) :
    (ranRow repository now workerId locked row outcome).runtime.desiredState = row.runtime.desiredState := by
  cases outcome with
  | stopped => exact released_desired ..
  | _ => rfl
def Running (rows : List RuntimeRow) (id : Nat) : Prop :=
  ∀ row, find rows id = some row → row.runtime.desiredState = .running

variable {call : Call} {id : Nat}

theorem find_claimAll {candidates : List RuntimeRow} (running : ∀ candidate ∈ candidates, Running rows candidate.id) :
    (∀ row, find rows id = some row → row.runtime.desiredState ≠ .running →
      find (claimAll repository call now rows candidates) id = some row) ∧
      (Running rows id → Running (claimAll repository call now rows candidates) id) := by
  induction candidates generalizing rows with
  | nil => exact ⟨fun _ found _ => found,fun runs => runs⟩
  | cons candidate rest ih =>
    have later : ∀ other ∈ rest, Running rows other.id := fun other member => running other (mem_cons_of_mem _ member)
    rw [claimAll]
    split
    · exact ih later
    · split
      · exact ih later
      · rename_i lease isLease
        obtain ⟨before,found,isClaim⟩ := Option.bind_eq_some_iff.mp isLease
        have wish : lease.desiredState = .running :=
          (claim_desired isClaim).trans (running candidate mem_cons_self before found)
        -- A change of the candidate's row that leaves it one that is to run.
        have changes : ∀ {table : List RuntimeRow} {change : RuntimeRow → RuntimeRow}, (∀ row, (change row).id = row.id) →
            (∀ row, find table candidate.id = some row → (change row).runtime.desiredState = .running) →
            ∀ other, (Running table other → Running (update table candidate.id change) other) ∧
              (other ≠ candidate.id → find (update table candidate.id change) other = find table other) := by
          intro table change keeps wishes other
          constructor
          · intro runs after isAfter
            rw [find_update keeps] at isAfter
            split at isAfter
            · rename_i same
              subst same
              obtain ⟨old,isOld,rfl⟩ := Option.map_eq_some_iff.mp isAfter
              exact wishes old isOld
            · exact runs after isAfter
          · intro different
            rw [find_update keeps,if_neg different]
        have first := @changes rows (fun row => { row with runtime := lease, updatedAt := now }) (fun row => rfl)
          (fun row _ => wish)
        have claimedRuns : ∀ row, find (update rows candidate.id fun row => { row with runtime := lease, updatedAt := now })
            candidate.id = some row → row.runtime.desiredState = .running :=
          (first candidate.id).1 (running candidate mem_cons_self)
        have other : ∀ row : RuntimeRow, find rows id = some row → row.runtime.desiredState ≠ .running → id ≠ candidate.id := by
          rintro row isRow notRunning rfl
          exact notRunning (running candidate mem_cons_self row isRow)
        split
        · exact ⟨fun row isRow notRunning => ((first id).2 (other row isRow notRunning)).trans isRow,(first id).1⟩
        · rename_i outcome _
          have second := @changes (update rows candidate.id fun row => { row with runtime := lease, updatedAt := now })
            (fun row => ranRow repository now call.worker.workerId (call.locked candidate.id) row (call.outcome candidate.id))
            (fun row => ranRow_id ..) (fun row isRow => (ranRow_desired ..).trans (claimedRuns row isRow))
          have rest := @ih (update (update rows candidate.id fun row => { row with runtime := lease, updatedAt := now })
              candidate.id fun row => ranRow repository now call.worker.workerId (call.locked candidate.id) row
                (call.outcome candidate.id))
            (fun other member => (second other.id).1 ((first other.id).1 (later other member)))
          refine ⟨?_,fun runs => rest.2 ((second id).1 ((first id).1 runs))⟩
          intro row isRow notRunning
          refine rest.1 row ?_ notRunning
          have apart := other row isRow notRunning
          exact ((second id).2 apart).trans (((first id).2 apart).trans isRow)

variable {table : Table}
theorem find_row (member : row ∈ table.rows) : find table.rows row.id = some row :=
  find_of_mem table.distinct member

theorem candidates_running (repository : Repository) (table : Table) (call : Call) :
    ∀ candidate ∈ listDesiredNautilusRuntimes (table.now + call.elapsed) call.worker.workerId .running
      call.worker.maxRuntimeProcesses (stoppedRows repository table call),
      Running (stoppedRows repository table call) candidate.id := by
  intro candidate isCandidate found isFound
  obtain ⟨isIn,holds⟩ := mem_filter.mp (mem_candidates isCandidate)
  have isRow : find (stoppedRows repository table call) candidate.id = some candidate :=
    find_of_mem (by rw [stoppedRows,releaseAll_keys]; exact table.distinct) isIn
  cases isRow.symm.trans isFound
  simp only [Bool.and_eq_true,beq_iff_eq] at holds
  exact holds.1.1.2

theorem find_runOnce (repository : Repository) (table : Table) (call : Call) (member : row ∈ table.rows)
    (notRunning : row.runtime.desiredState ≠ .running) :
    find (runOnce repository table call).rows row.id = some (if row.id ∈ (stopCandidates table call).map RuntimeRow.id then
      released repository (table.now + call.elapsed) call.worker.workerId (call.locked row.id) row else row) := by
  have after : find (stoppedRows repository table call) row.id = some (if row.id ∈ (stopCandidates table call).map RuntimeRow.id then
      released repository (table.now + call.elapsed) call.worker.workerId (call.locked row.id) row else row) := by
    rw [stoppedRows,find_releaseAll,find_row member]
    split <;> rfl
  refine (find_claimAll (candidates_running repository table call)).1 _ after ?_
  split
  · rw [released_desired]
    exact notRunning
  · exact notRunning

theorem running_runOnce (repository : Repository) (table : Table) (call : Call) (running : Running table.rows id) :
    Running (runOnce repository table call).rows id := by
  have after : Running (stoppedRows repository table call) id := by
    intro row isRow
    rw [stoppedRows,find_releaseAll] at isRow
    split at isRow
    · obtain ⟨before,found,rfl⟩ := Option.map_eq_some_iff.mp isRow
      rw [released_desired]
      exact running before found
    · exact running row isRow
  exact (find_claimAll (candidates_running repository table call)).2 after

theorem released_state {repository : Repository} {now workerId : Nat} {locked : Bool} {row : RuntimeRow}
    (isStopping : stopping row) : (released repository now workerId locked row).runtime.state = .stopped ↔
      leased repository workerId locked row.runtime := by
  unfold released releaseNautilusRuntimeLease
  by_cases holds : leased repository workerId locked row.runtime
  · rw [if_pos holds,if_pos holds]
    exact iff_of_true rfl holds
  · rw [if_neg holds]
    refine iff_of_false ?_ holds
    intro stopped
    simp [stopping,stopped,terminal] at isStopping

/-- After the iteration every stop candidate that it listed has stopped. -/
def Stops (repository : Repository) (table : Table) (call : Call) : Prop :=
  ∀ candidate ∈ stopCandidates table call, ∀ next, step repository table call = some next →
    ∃ row, find next.rows candidate.id = some row ∧ row.runtime.state = .stopped
/-- The worker leases every stop candidate that it lists, and none of them is locked. -/
def Owns (repository : Repository) (table : Table) (call : Call) : Prop :=
  ∀ candidate ∈ stopCandidates table call, leased repository call.worker.workerId (call.locked candidate.id) candidate.runtime

theorem stops_iff (repository : Repository) (table : Table) (call : Call) :
    Stops repository table call ↔ Owns repository table call := by
  refine forall₂_congr fun candidate member => ?_
  obtain ⟨isIn,isStopping,_⟩ := mem_desired.mp (mem_candidates member)
  have notRunning : candidate.runtime.desiredState ≠ .running := by
    intro running
    simp [stopping,running] at isStopping
  have found := find_runOnce repository table call isIn notRunning
  rw [if_pos (mem_map_of_mem member)] at found
  simp only [step,Option.some.injEq,forall_eq',found,exists_eq_left']
  exact released_state isStopping

def pendingIds (table : Table) : Finset Nat := ((table.rows.filter stopping).map RuntimeRow.id).toFinset
def eligible (table : Table) (call : Call) : List RuntimeRow :=
  desired (table.now + call.elapsed) call.worker.workerId .stopping table.rows
def eligibleIds (table : Table) (call : Call) : Finset Nat := ((eligible table call).map RuntimeRow.id).toFinset
/-- `ceil(n / max_runtime_processes)`. -/
def iterations (table : Table) (call : Call) : Nat :=
  ((eligible table call).length + call.worker.maxRuntimeProcesses - 1) / call.worker.maxRuntimeProcesses

theorem mem_pendingIds : id ∈ pendingIds table ↔ ∃ row, find table.rows id = some row ∧ stopping row := by
  rw [pendingIds,mem_toFinset,mem_map]
  constructor
  · rintro ⟨row,member,rfl⟩
    obtain ⟨isIn,isStopping⟩ := mem_filter.mp member
    exact ⟨row,find_row isIn,isStopping⟩
  · rintro ⟨row,found,isStopping⟩
    exact ⟨row,mem_filter.mpr ⟨find_mem found,isStopping⟩,find_key found⟩

theorem mem_eligibleIds : id ∈ eligibleIds table call ↔ ∃ row,
    find table.rows id = some row ∧ stopping row ∧ leaseFree (table.now + call.elapsed) call.worker.workerId row.runtime := by
  rw [eligibleIds,mem_toFinset,mem_map]
  constructor
  · rintro ⟨row,member,rfl⟩
    obtain ⟨isIn,holds⟩ := mem_desired.mp member
    exact ⟨row,find_row isIn,holds⟩
  · rintro ⟨row,found,holds⟩
    exact ⟨row,mem_desired.mpr ⟨find_mem found,holds⟩,find_key found⟩

theorem eligible_card (table : Table) (call : Call) : (eligibleIds table call).card = (eligible table call).length := by
  have distinct : ((eligible table call).map RuntimeRow.id).Nodup := table.distinct.sublist (filter_sublist.map _)
  rw [eligibleIds,toFinset_card_of_nodup distinct,length_map]

theorem candidates_card (table : Table) (call : Call) : ((stopCandidates table call).map RuntimeRow.id).toFinset.card =
    min (boundedNautilusLimit call.worker.maxRuntimeProcesses) (eligible table call).length := by
  have distinct : ((listingOrder (eligible table call)).map RuntimeRow.id).Nodup := by
    refine ((perm_insertionSort _ _).map RuntimeRow.id).nodup_iff.mpr ?_
    exact table.distinct.sublist (filter_sublist.map _)
  have listed : ((stopCandidates table call).map RuntimeRow.id).Nodup := distinct.sublist ((take_sublist _ _).map _)
  rw [toFinset_card_of_nodup listed,length_map]
  exact length_take.trans (congrArg _ (length_insertionSort _ _))

theorem stopping_notRunning (isStopping : stopping row) : row.runtime.desiredState ≠ .running := by
  intro running
  simp [stopping,running] at isStopping
theorem candidate_row (found : find table.rows row.id = some row)
    (listed : row.id ∈ (stopCandidates table call).map RuntimeRow.id) : row ∈ stopCandidates table call := by
  obtain ⟨candidate,member,same⟩ := mem_map.mp listed
  have isIn := (mem_desired.mp (mem_candidates member)).1
  rw [← same] at found
  cases (find_row isIn).symm.trans found
  exact member

theorem stopping_runOnce (owns : Owns repository table call) : (find (runOnce repository table call).rows id = some row ∧ stopping row) ↔
      (find table.rows id = some row ∧ stopping row) ∧ id ∉ (stopCandidates table call).map RuntimeRow.id := by
  constructor
  · rintro ⟨found,isStopping⟩
    cases before : find table.rows id with
    | none =>
      have missing : id ∉ (runOnce repository table call).rows.map Keyed.key := by
        show id ∉ (runOnceRows repository table call).map Keyed.key
        rw [runOnceRows,claimAll_keys,stoppedRows,releaseAll_keys]
        exact find_none.mp before
      rw [find_none.mpr missing] at found
      cases found
    | some old =>
      obtain rfl := find_key before
      by_cases running : old.runtime.desiredState = .running
      · have runs : Running table.rows old.id := by
          intro other isOther
          cases before.symm.trans isOther
          exact running
        exact absurd (running_runOnce repository table call runs row found) (stopping_notRunning isStopping)
      · rw [key_row,find_runOnce repository table call (find_mem before) running] at found
        split at found
        · rename_i listed
          cases found
          have member := candidate_row before listed
          have ended := (@released_state repository (table.now + call.elapsed) _ _ _
            (mem_desired.mp (mem_candidates member)).2.1).mpr (owns old member)
          simp [stopping,ended,terminal] at isStopping
        · rename_i unlisted
          cases found
          exact ⟨⟨rfl,isStopping⟩,unlisted⟩
  · rintro ⟨⟨found,isStopping⟩,unlisted⟩
    obtain rfl := find_key found
    refine ⟨?_,isStopping⟩
    rw [key_row] at unlisted ⊢
    rw [find_runOnce repository table call (find_mem found) (stopping_notRunning isStopping),if_neg unlisted]

def Ended (table : Table) (id : Nat) : Prop :=
  ∃ row, find table.rows id = some row ∧ row.runtime.state = .stopped ∧ row.runtime.desiredState ≠ .running

theorem ended_runOnce (owns : Owns repository table call)
    (ends : Ended table id ∨ id ∈ (stopCandidates table call).map RuntimeRow.id) : Ended (runOnce repository table call) id := by
  rcases ends with ⟨row,found,stopped,notRunning⟩ | listed
  · obtain rfl := find_key found
    have after := find_runOnce repository table call (find_mem found) notRunning
    rw [if_neg] at after
    · exact ⟨row,after,stopped,notRunning⟩
    · intro listed
      have isStopping := (mem_desired.mp (mem_candidates (candidate_row found listed))).2.1
      simp [stopping,stopped,terminal] at isStopping
  · obtain ⟨candidate,member,rfl⟩ := mem_map.mp listed
    obtain ⟨isIn,isStopping,_⟩ := mem_desired.mp (mem_candidates member)
    have after := find_runOnce repository table call isIn (stopping_notRunning isStopping)
    rw [if_pos listed] at after
    refine ⟨_,after,(released_state isStopping).mpr (owns candidate member),?_⟩
    rw [released_desired]
    exact stopping_notRunning isStopping

/-- The time of the worker does not go back, the rows that are to stop are those of the start, and the other eligible
    ones have ended. -/
structure Draining (start : Table) (first : Call) (table : Table) : Prop where
  rows : ∀ id row, find table.rows id = some row → stopping row → find start.rows id = some row
  rest : ∀ id ∈ eligibleIds start first, id ∈ pendingIds table ∨ Ended table id

variable {first : Call} {start : Table}

theorem draining_runOnce (draining : Draining start first table)
    (owns : Owns repository table call) : Draining start first (runOnce repository table call) := by
  constructor
  · intro id row found isStopping
    exact draining.rows id row ((stopping_runOnce owns).mp ⟨found,isStopping⟩).1.1 isStopping
  · intro id member
    rcases draining.rest id member with pending | ended
    · by_cases listed : id ∈ (stopCandidates table call).map RuntimeRow.id
      · exact .inr (ended_runOnce owns (.inr listed))
      · obtain ⟨row,found⟩ := mem_pendingIds.mp pending
        exact .inl (mem_pendingIds.mpr ⟨row,(stopping_runOnce owns).mpr ⟨found,listed⟩⟩)
    · exact .inr (ended_runOnce owns (.inl ended))

theorem leaseFree_later {later : Nat} (free : leaseFree now workerId runtime)
    (after : now ≤ later) : leaseFree later workerId runtime := by
  unfold leaseFree at free ⊢
  cases lease : runtime.leaseUntil with
  | none => simp
  | some until_ =>
    simp only [lease,Option.any_some,Bool.or_eq_true,Bool.not_eq_true',decide_eq_false_iff_not,beq_iff_eq] at free ⊢
    rcases free with expired | own
    · exact .inl (by omega)
    · exact .inr own

theorem remaining_runOnce
    (draining : Draining start first table) (owns : Owns repository table call) (sameWorker : call.worker = first.worker)
    (later : start.now + first.elapsed ≤ table.now + call.elapsed) :
    (eligibleIds start first ∩ pendingIds (runOnce repository table call)).card =
      (eligibleIds start first ∩ pendingIds table).card - boundedNautilusLimit first.worker.maxRuntimeProcesses := by
  generalize isListed : ((stopCandidates table call).map RuntimeRow.id).toFinset = listed
  have fewer : eligibleIds start first ∩ pendingIds (runOnce repository table call) =
      (eligibleIds start first ∩ pendingIds table) \ listed := by
    ext id
    rw [← isListed,Finset.mem_inter,Finset.mem_sdiff,Finset.mem_inter,mem_toFinset,mem_pendingIds,mem_pendingIds]
    constructor
    · rintro ⟨member,row,pending⟩
      obtain ⟨before,unlisted⟩ := (stopping_runOnce owns).mp pending
      exact ⟨⟨member,row,before⟩,unlisted⟩
    · rintro ⟨⟨member,row,before⟩,unlisted⟩
      exact ⟨member,row,(stopping_runOnce owns).mpr ⟨before,unlisted⟩⟩
  -- What the worker leases was eligible at the start.
  have among : listed ⊆ eligibleIds start first ∩ pendingIds table := by
    intro id member
    rw [← isListed,mem_toFinset] at member
    obtain ⟨candidate,isCandidate,rfl⟩ := mem_map.mp member
    obtain ⟨isIn,isStopping,_⟩ := mem_desired.mp (mem_candidates isCandidate)
    have own := owns candidate isCandidate
    simp only [leased,Bool.and_eq_true,sameWorker] at own
    refine Finset.mem_inter.mpr ⟨mem_eligibleIds.mpr ⟨candidate,?_,isStopping,?_⟩,mem_pendingIds.mpr ⟨candidate,find_row isIn,isStopping⟩⟩
    · exact draining.rows _ _ (find_row isIn) isStopping
    · rw [leaseFree,own.1,Bool.or_true]
  have still : eligibleIds start first ∩ pendingIds table ⊆ eligibleIds table call := by
    intro id member
    obtain ⟨isEligible,isPending⟩ := Finset.mem_inter.mp member
    obtain ⟨row,found,isStopping⟩ := mem_pendingIds.mp isPending
    obtain ⟨old,isOld,_,free⟩ := mem_eligibleIds.mp isEligible
    cases (draining.rows id row found isStopping).symm.trans isOld
    refine mem_eligibleIds.mpr ⟨row,found,isStopping,?_⟩
    rw [sameWorker]
    exact leaseFree_later free later
  have size : listed.card = min (boundedNautilusLimit first.worker.maxRuntimeProcesses) (eligibleIds table call).card := by
    rw [← isListed,candidates_card,eligible_card,sameWorker]
  have most := Finset.card_le_card still
  have least := Finset.card_le_card among
  rw [fewer,Finset.card_sdiff_of_subset among,size]
  omega

variable {final : Table}

theorem remaining_run {calls : List Call}
    (draining : Draining start first table) (owns : Meets (step repository) (Owns repository) table calls)
    (sameWorker : ∀ call ∈ calls, call.worker = first.worker)
    (later : ∀ call ∈ calls.head?, start.now + first.elapsed ≤ table.now + call.elapsed)
    (ran : run (step repository) table calls = some final) :
    Draining start first final ∧ (eligibleIds start first ∩ pendingIds final).card =
      (eligibleIds start first ∩ pendingIds table).card -
        boundedNautilusLimit first.worker.maxRuntimeProcesses * calls.length := by
  induction calls generalizing table with
  | nil =>
    cases ran
    exact ⟨draining,by rw [length_nil,Nat.mul_zero,Nat.sub_zero]⟩
  | cons call rest ih =>
    have here := later call rfl
    have continued : run (step repository) (runOnce repository table call) rest = some final := ran
    have left := remaining_runOnce draining owns.1 (sameWorker call mem_cons_self) here
    obtain ⟨drained,fewer⟩ := ih (draining_runOnce draining owns.1) (owns.2 _ rfl)
      (fun other member => sameWorker other (mem_cons_of_mem _ member)) (fun other _ => here.trans (Nat.le_add_right _ _)) continued
    refine ⟨drained,?_⟩
    rw [fewer,left,length_cons,Nat.mul_succ]
    omega

def Processed (start : Table) (first : Call) (final : Table) : Prop :=
  ∀ candidate ∈ eligible start first, ∃ row, find final.rows candidate.id = some row ∧ row.runtime.state = .stopped

theorem processed_iff {rest : List Call} (owns : Meets (step repository) (Owns repository) start (first :: rest))
    (sameWorker : ∀ call ∈ rest, call.worker = first.worker) (ran : run (step repository) start (first :: rest) = some final) :
    Processed start first final ↔
      (eligible start first).length ≤ boundedNautilusLimit first.worker.maxRuntimeProcesses * (first :: rest).length := by
  have begun : Draining start first start := by
    refine ⟨fun id row found _ => found,?_⟩
    intro id member
    obtain ⟨row,found,isStopping,_⟩ := mem_eligibleIds.mp member
    exact .inl (mem_pendingIds.mpr ⟨row,found,isStopping⟩)
  have all : eligibleIds start first ∩ pendingIds start = eligibleIds start first := by
    refine Finset.inter_eq_left.mpr ?_
    intro id member
    obtain ⟨row,found,isStopping,_⟩ := mem_eligibleIds.mp member
    exact mem_pendingIds.mpr ⟨row,found,isStopping⟩
  obtain ⟨drained,left⟩ := remaining_run begun owns
    (by rintro call (_ | ⟨_,member⟩); exacts [rfl,sameWorker call member])
    (by rintro call ⟨⟩; exact le_refl _) ran
  rw [all,eligible_card] at left
  have none : Processed start first final ↔ (eligibleIds start first ∩ pendingIds final).card = 0 := by
    rw [Finset.card_eq_zero,Finset.eq_empty_iff_forall_notMem]
    constructor
    · intro processed id member
      obtain ⟨isEligible,isPending⟩ := Finset.mem_inter.mp member
      obtain ⟨candidate,isCandidate,rfl⟩ := mem_map.mp (mem_toFinset.mp isEligible)
      obtain ⟨row,found,stopped⟩ := processed candidate isCandidate
      obtain ⟨other,isOther,isStopping⟩ := mem_pendingIds.mp isPending
      cases found.symm.trans isOther
      simp [stopping,stopped,terminal] at isStopping
    · intro empty candidate isCandidate
      have isEligible : candidate.id ∈ eligibleIds start first := mem_toFinset.mpr (mem_map_of_mem isCandidate)
      rcases drained.rest candidate.id isEligible with pending | ⟨row,found,stopped,_⟩
      · exact absurd (Finset.mem_inter.mpr ⟨isEligible,pending⟩) (empty candidate.id)
      · exact ⟨row,found,stopped⟩
  rw [none]
  omega

/-- The blocks of a run in which one worker makes as many iterations as its eligible stop
    candidates fill windows, with the table before and after. -/
def ForBlocks (repository : Repository) (table : Table) (calls : List Call) (holds : Table → Call → Table → Prop) : Prop :=
  ∀ before first rest after mid final, calls = before ++ (first :: rest ++ after) → (∀ call ∈ rest, call.worker = first.worker) →
    run (step repository) table before = some mid → run (step repository) mid (first :: rest) = some final →
    (first :: rest).length = iterations mid first → holds mid first final
/-- Every iteration stops the candidates that it lists, and all have stopped within `ceil(n / max_runtime_processes)`
    iterations. -/
def Progress (repository : Repository) (table : Table) (calls : List Call) : Prop :=
  Meets (step repository) (Stops repository) table calls ∧ ForBlocks repository table calls Processed
def Roomy (start : Table) (first : Call) (_ : Table) : Prop :=
  (eligible start first).length ≤ boundedNautilusLimit first.worker.maxRuntimeProcesses * iterations start first

/-- Stop requests make progress in exactly the runs in which every worker leases the stop
    candidates that it lists and the windows have room. -/
theorem progress_iff (repository : Repository) (table : Table) (calls : List Call) :
    Progress repository table calls ↔
      Meets (step repository) (Owns repository) table calls ∧ ForBlocks repository table calls Roomy := by
  have same : Meets (step repository) (Stops repository) table calls ↔ Meets (step repository) (Owns repository) table calls :=
    meets_iff (fun _ _ _ (_ : True) _ _ => trivial) (fun table call _ => stops_iff repository table call) trivial
  unfold Progress
  rw [same]
  refine and_congr_right fun owns => ?_
  have blocks : ∀ before first rest after mid final, calls = before ++ (first :: rest ++ after) →
      (∀ call ∈ rest, call.worker = first.worker) → run (step repository) table before = some mid →
      run (step repository) mid (first :: rest) = some final → (first :: rest).length = iterations mid first →
      (Processed mid first final ↔ Roomy mid first final) := by
    rintro before first rest after mid final rfl sameWorker reached ran size
    have here := (meets_append ((meets_append owns).2 mid reached)).1
    rw [processed_iff here sameWorker ran,size]
    rfl
  constructor
  · intro processed before first rest after mid final split sameWorker reached ran size
    exact (blocks before first rest after mid final split sameWorker reached ran size).mp
      (processed before first rest after mid final split sameWorker reached ran size)
  · intro roomy before first rest after mid final split sameWorker reached ran size
    exact (blocks before first rest after mid final split sameWorker reached ran size).mpr
      (roomy before first rest after mid final split sameWorker reached ran size)

def unclaimed : Table :=
  ⟨0,[⟨0,{ NautilusRuntime.new .paper 7 with state := .stopping, desiredState := .stopping },0,0⟩],by decide⟩
def sampleCall : Call := ⟨⟨1,4,Nat.succ_pos _,20,60⟩,1,fun _ => false,fun _ => .quiet⟩

/-- Such a runtime is a stop candidate for ever. -/
theorem unclaimed_never_stops : ¬ ∀ (repository : Repository) (table : Table) (calls : List Call),
    Progress repository table calls := by
  intro always
  have owns := (stops_iff .sql unclaimed sampleCall).mp (always .sql unclaimed [sampleCall]).1.1
  revert owns
  unfold Owns
  decide

end Codebot.StopRequests
