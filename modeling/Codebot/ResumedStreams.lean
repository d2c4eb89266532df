import Codebot.JsonDumps
import Codebot.NautilusStrategy
import Codebot.Series
import Mathlib.Data.List.Find

/-!
The events of a run from where a client left off. It names the last event it has by its id or by its number; in memory
the list is cut behind the event, in SQL the rows with a larger number are read (`resumes`).
-/
namespace Codebot.ResumedStreams
open Texts JsonDumps List Function
open NautilusStrategy (digitsValue)
open JsonTexts (decimal maxDigits)
open Series (Ascending ordered)

structure Auth where
  userId : Nat
  workspaceId : Nat
deriving DecidableEq
structure Run where
  id : Nat
  ownerUserId : Nat
  workspaceId : Nat
deriving DecidableEq

structure RunEvent (Content : Type) where
  id : Text
  runId : Nat
  ownerUserId : Nat
  workspaceId : Nat
  sequence : Nat
  content : Content
deriving DecidableEq

variable {Content : Type}
/-- The events of an append, after those with smaller numbers. -/
def created (run : Run) : Nat → List (Text × Content) → List (RunEvent Content)
  | _,[] => []
  | last,(hex,content) :: rest =>
    ⟨opaqueId (text "evt") hex,run.id,run.ownerUserId,run.workspaceId,last + 1,content⟩ :: created run (last + 1) rest
/-- Tables in which the digits of ASCII are those of ASCII. -/
structure Digits extends Unicode where
  digit_ascii : ∀ c < 128, digit c = ascii.digit c

variable (digits : Digits)
def isDecimal (t : Text) : Bool := !t.isEmpty && t.all fun c => (digits.digit c).isSome
/-- `int` of a decimal text, which has a bound on its digits: otherwise a `ValueError`. -/
def int (t : Text) : Except Unit Nat := if maxDigits < t.length then .error () else .ok (digitsValue digits.toUnicode t)
structure Memory (Content : Type) where
  runs : List Run
  events : Nat → List (RunEvent Content)
/-- `get_run`. -/
def Memory.run (memory : Memory Content) (auth : Auth) (runId : Nat) : Option Run :=
  (memory.runs.find? fun run => run.id == runId).filter fun run =>
    run.ownerUserId == auth.userId && run.workspaceId == auth.workspaceId
/-- `append_run_events`. -/
def Memory.append (memory : Memory Content) (auth : Auth) (runId : Nat) (drawn : List (Text × Content)) : Memory Content :=
  match memory.run auth runId with
  | none => memory
  | some run =>
    let existing := memory.events run.id
    { memory with events := Function.update memory.events run.id (existing ++ created run existing.length drawn) }

def eventsAfterLastId (events : List (RunEvent Content)) : Option Text → Except Unit (List (RunEvent Content))
  | none => .ok events
  | some [] => .ok events
  | some token =>
    if isDecimal digits token then (int digits token).map fun sequence => events.filter fun event => sequence < event.sequence
    else
      match events.findIdx? fun event => event.id == token with
      | some index => .ok (events.drop (index + 1))
      | none => .ok events

/-- `list_run_events_after`, which finds no run, or the events, or raises. -/
def Memory.listAfter (memory : Memory Content) (auth : Auth) (runId : Nat) (token : Option Text) :
    Except Unit (Option (List (RunEvent Content))) :=
  match memory.run auth runId with
  | none => .ok none
  | some run => (eventsAfterLastId digits (memory.events run.id) token).map some
structure Sql (Content : Type) where
  runs : List Run
  rows : List (RunEvent Content)
/-- `_authorized_run`. -/
def Sql.run (sql : Sql Content) (auth : Auth) (runId : Nat) : Option Run :=
  sql.runs.find? fun run => run.id == runId && (run.ownerUserId == auth.userId && run.workspaceId == auth.workspaceId)
def Sql.ofRun (sql : Sql Content) (runId : Nat) : List (RunEvent Content) := sql.rows.filter fun row => row.runId == runId
def Sql.lastSequence (sql : Sql Content) (runId : Nat) : Nat := ((sql.ofRun runId).map (·.sequence)).foldl max 0
/-- `append_run_events`. -/
def Sql.append (sql : Sql Content) (auth : Auth) (runId : Nat) (drawn : List (Text × Content)) : Sql Content :=
  match sql.run auth runId with
  | none => sql
  | some run => { sql with rows := sql.rows ++ created run (sql.lastSequence run.id) drawn }
/-- The rows of a run that are its owner's, in order. -/
def Sql.select (sql : Sql Content) (auth : Auth) (run : Run) (condition : RunEvent Content → Bool) : List (RunEvent Content) :=
  ordered RunEvent.sequence (sql.rows.filter fun row =>
    row.runId == run.id && row.ownerUserId == auth.userId && row.workspaceId == auth.workspaceId && condition row)

def Sql.lastEventSequence (sql : Sql Content) (run : Run) : Option Text → Except Unit (Option Nat)
  | none => .ok none
  | some [] => .ok none
  | some token =>
    if isDecimal digits token then (int digits token).map some
    else
      .ok ((sql.rows.find? fun row =>
        row.runId == run.id && row.id == token && row.ownerUserId == run.ownerUserId && row.workspaceId == run.workspaceId).map (·.sequence))

/-- `list_run_events_after`. -/
def Sql.listAfter (sql : Sql Content) (auth : Auth) (runId : Nat) (token : Option Text) :
    Except Unit (Option (List (RunEvent Content))) :=
  match sql.run auth runId with
  | none => .ok none
  | some run =>
    (sql.lastEventSequence digits run token).map fun
      | none => some (sql.select auth run fun _ => true)
      | some minSequence => some (sql.select auth run fun row => minSequence < row.sequence)

inductive Repository
  | memory | sql
deriving DecidableEq
/-- The repositories, which are given the same. -/
structure Stores (Content : Type) where
  memory : Memory Content
  sql : Sql Content
def Stores.listAfter (stores : Stores Content) : Repository → Auth → Nat → Option Text → Except Unit (Option (List (RunEvent Content)))
  | .memory => stores.memory.listAfter digits
  | .sql => stores.sql.listAfter digits
def Stores.create (stores : Stores Content) (run : Run) : Stores Content :=
  ⟨{ stores.memory with runs := stores.memory.runs ++ [run] },{ stores.sql with runs := stores.sql.runs ++ [run] }⟩
def Stores.append (stores : Stores Content) (auth : Auth) (runId : Nat) (drawn : List (Text × Content)) : Stores Content :=
  ⟨stores.memory.append auth runId drawn,stores.sql.append auth runId drawn⟩
/-- No id is drawn twice. -/
structure Fresh (stores : Stores Content) (drawn : List (Text × Content)) : Prop where
  distinct : (drawn.map Prod.fst).Nodup
  new : ∀ hex ∈ drawn.map Prod.fst, opaqueId (text "evt") hex ∉ stores.sql.rows.map (·.id)
inductive Reachable : Stores Content → Prop
  | none : Reachable ⟨⟨[],fun _ => []⟩,⟨[],[]⟩⟩
  | create {stores : Stores Content} (run : Run) : run.id ∉ stores.memory.runs.map (·.id) → Reachable stores → Reachable (stores.create run)
  | append {stores : Stores Content} (auth : Auth) (runId : Nat) (drawn : List (Text × Content)) : Fresh stores drawn → Reachable stores →
    Reachable (stores.append auth runId drawn)
def tokens (event : RunEvent Content) : List Text :=
  if (natText event.sequence).length ≤ maxDigits then [event.id,natText event.sequence] else [event.id]
def resume (seen : List (RunEvent Content)) : List (Option Text) :=
  match seen.getLast? with
  | none => [none,some []]
  | some last => (tokens last).map some

/-- What a client of a run has read over connections, between which the repositories go on. From
    each one it reads as many events as it is given. -/
inductive Reads (repository : Repository) (auth : Auth) (runId : Nat) : Stores Content → List (RunEvent Content) → Prop
  | none {stores : Stores Content} : Reachable stores → Reads repository auth runId stores []
  | create {stores : Stores Content} {seen : List (RunEvent Content)} (run : Run) : run.id ∉ stores.memory.runs.map (·.id) →
    Reads repository auth runId stores seen → Reads repository auth runId (stores.create run) seen
  | append {stores : Stores Content} {seen : List (RunEvent Content)} (writer : Auth) (into : Nat) (drawn : List (Text × Content)) :
    Fresh stores drawn → Reads repository auth runId stores seen → Reads repository auth runId (stores.append writer into drawn) seen
  | connect {stores : Stores Content} {seen answer : List (RunEvent Content)} {token : Option Text} (cut : Nat) :
    Reads repository auth runId stores seen → token ∈ resume seen →
    stores.listAfter digits repository auth runId token = .ok (some answer) → Reads repository auth runId stores (seen ++ answer.take cut)

/-- Both have the same runs and events. The events of a run are numbered as they come, are their
    owner's, and have ids of their own. -/
structure Kept (stores : Stores Content) : Prop where
  runs : stores.sql.runs = stores.memory.runs
  distinct : (stores.memory.runs.map (·.id)).Nodup
  rows : ∀ runId, stores.sql.ofRun runId = stores.memory.events runId
  numbered : ∀ runId, (stores.memory.events runId).map (·.sequence) = List.range' 1 (stores.memory.events runId).length
  owned : ∀ row ∈ stores.sql.rows, ∃ run ∈ stores.memory.runs,
    row.runId = run.id ∧ row.ownerUserId = run.ownerUserId ∧ row.workspaceId = run.workspaceId
  ids : (stores.sql.rows.map (·.id)).Nodup
  named : ∀ row ∈ stores.sql.rows, ∃ hex, row.id = opaqueId (text "evt") hex

variable {stores : Stores Content} {auth : Auth} {runId : Nat} {run : Run} {drawn : List (Text × Content)}
theorem Memory.run_some {memory : Memory Content} (found : memory.run auth runId = some run) :
    run ∈ memory.runs ∧ run.id = runId ∧ run.ownerUserId = auth.userId ∧ run.workspaceId = auth.workspaceId := by
  obtain ⟨isRun,authorized⟩ := Option.filter_eq_some_iff.mp found
  have isId := find?_some isRun
  simp only [Bool.and_eq_true,beq_iff_eq] at authorized isId
  exact ⟨mem_of_find?_eq_some isRun,isId,authorized.1,authorized.2⟩

theorem Kept.run_eq (kept : Kept stores) (auth : Auth) (runId : Nat) : stores.sql.run auth runId = stores.memory.run auth runId := by
  have distinct := kept.distinct
  rw [Sql.run,Memory.run,kept.runs]
  generalize stores.memory.runs = runs at distinct
  induction runs with
  | nil => rfl
  | cons first rest ih =>
    rw [map_cons,nodup_cons] at distinct
    by_cases here : first.id = runId
    · by_cases authorized : first.ownerUserId == auth.userId && first.workspaceId == auth.workspaceId
      · rw [find?_cons_of_pos (by simp only [here,beq_self_eq_true,authorized,Bool.and_self]),
          find?_cons_of_pos (by simp [here]),Option.filter_some,if_pos authorized]
      · have none : rest.find? (fun run => run.id == runId &&
            (run.ownerUserId == auth.userId && run.workspaceId == auth.workspaceId)) = Option.none := by
          apply find?_eq_none.mpr
          intro run member isRun
          rw [Bool.and_eq_true,beq_iff_eq] at isRun
          exact distinct.1 (mem_map.mpr ⟨run,member,isRun.1.trans here.symm⟩)
        rw [find?_cons_of_neg (by simp only [authorized,Bool.and_false,Bool.false_eq_true,not_false_eq_true]),
          find?_cons_of_pos (by simp [here]),none,Option.filter_some,if_neg authorized]
    · rw [find?_cons_of_neg (by simp [here]),find?_cons_of_neg (by simp [here]),ih distinct.2]

theorem created_sequences (run : Run) (last : Nat) (drawn : List (Text × Content)) :
    (created run last drawn).map (·.sequence) = List.range' (last + 1) drawn.length := by
  induction drawn generalizing last with
  | nil => rfl
  | cons first rest ih => rw [created,map_cons,ih,length_cons,range'_succ]
theorem created_ids (run : Run) (last : Nat) (drawn : List (Text × Content)) :
    (created run last drawn).map (·.id) = (drawn.map Prod.fst).map (opaqueId (text "evt")) := by
  induction drawn generalizing last with
  | nil => rfl
  | cons first rest ih => rw [created,map_cons,ih,map_cons,map_cons]

theorem created_owned {last : Nat} {row : RunEvent Content} (isNew : row ∈ created run last drawn) :
    row.runId = run.id ∧ row.ownerUserId = run.ownerUserId ∧ row.workspaceId = run.workspaceId := by
  induction drawn generalizing last with
  | nil => cases isNew
  | cons first rest ih =>
    rcases mem_cons.mp isNew with rfl | later
    · exact ⟨rfl,rfl,rfl⟩
    · exact ih later

theorem Kept.create (kept : Kept stores) (new : run.id ∉ stores.memory.runs.map (·.id)) : Kept (stores.create run) where
  runs := congrArg (· ++ [run]) kept.runs
  distinct := by
    rw [Stores.create,map_append]
    refine List.Nodup.append kept.distinct (nodup_singleton _) ?_
    intro id member isNew
    rw [map_singleton,mem_singleton] at isNew
    exact new (isNew ▸ member)
  rows := kept.rows
  numbered := kept.numbered
  owned row member :=
    let ⟨owner,isRun,owns⟩ := kept.owned row member
    ⟨owner,mem_append_left _ isRun,owns⟩
  ids := kept.ids
  named := kept.named

theorem Kept.append (kept : Kept stores) (fresh : Fresh stores drawn) : Kept (stores.append auth runId drawn) := by
  rw [Stores.append,Memory.append,Sql.append,kept.run_eq]
  cases found : stores.memory.run auth runId with
  | none => exact kept
  | some run =>
    have last : stores.sql.lastSequence run.id = (stores.memory.events run.id).length := by
      rw [Sql.lastSequence,kept.rows,kept.numbered,Series.foldl_max_range']
    dsimp only
    rw [last]
    generalize start : (stores.memory.events run.id).length = count
    refine ⟨kept.runs,kept.distinct,?_,?_,?_,?_,?_⟩
    · intro other
      dsimp only [Sql.ofRun]
      rw [filter_append]
      by_cases same : other = run.id
      · have all : (created run count drawn).filter (fun row => row.runId == other) = created run count drawn := by
          apply filter_eq_self.mpr
          intro row isNew
          rw [(created_owned isNew).1,same,beq_self_eq_true]
        have before := kept.rows other
        rw [Sql.ofRun] at before
        rw [all,before,same,update_self]
      · have none : (created run count drawn).filter (fun row => row.runId == other) = [] := by
          apply filter_eq_nil_iff.mpr
          intro row isNew isOther
          exact same ((eq_of_beq isOther).symm.trans (created_owned isNew).1)
        rw [none,append_nil,update_of_ne same]
        exact kept.rows other
    · intro other
      by_cases same : other = run.id
      · have length : (created run count drawn).length = drawn.length := by
          rw [← length_map,created_sequences,length_range']
        subst same
        dsimp only
        rw [update_self,map_append,kept.numbered,created_sequences,length_append,length,start,Nat.add_comm count 1,
          range'_append_1]
      · dsimp only
        rw [update_of_ne same]
        exact kept.numbered other
    · intro row member
      rcases mem_append.mp member with old | isNew
      · exact kept.owned row old
      · exact ⟨run,(Memory.run_some found).1,created_owned isNew⟩
    · rw [map_append,created_ids]
      refine List.Nodup.append kept.ids (fresh.distinct.map (opaqueId_injective _)) ?_
      intro id old isNew
      obtain ⟨hex,isDrawn,rfl⟩ := mem_map.mp isNew
      exact fresh.new hex isDrawn old
    · intro row member
      rcases mem_append.mp member with old | isNew
      · exact kept.named row old
      · have isId : row.id ∈ (created run count drawn).map (·.id) := mem_map_of_mem isNew
        rw [created_ids] at isId
        obtain ⟨hex,_,isHex⟩ := mem_map.mp isId
        exact ⟨hex,isHex.symm⟩

theorem Reachable.kept (reachable : Reachable stores) : Kept stores := by
  induction reachable with
  | none => exact ⟨rfl,nodup_nil,fun _ => rfl,fun _ => rfl,nofun,nodup_nil,nofun⟩
  | create run new _ ih => exact ih.create new
  | append auth runId drawn fresh _ ih => exact ih.append fresh
theorem Digits.value {c : Nat} (isDigit : asciiDigit c) : digits.digit c = some (c - 48) := by
  have small : c < 128 := by
    simp [asciiDigit,between] at isDigit
    omega
  rw [digits.digit_ascii c small]
  exact if_pos isDigit
theorem id_not_decimal (hex : Text) : isDecimal digits (opaqueId (text "evt") hex) = false := by
  have letter : digits.digit 101 = none := digits.digit_ascii 101 (by decide)
  simp [isDecimal,opaqueId,text,letter]

theorem natText_digits (n : Nat) : natText n ≠ [] ∧ ∀ c ∈ natText n, asciiDigit c := by
  rcases natText_whole n with zero | ⟨c,t,isText,_,first,rest⟩
  · rw [zero]
    exact ⟨cons_ne_nil _ _,by decide⟩
  · rw [isText]
    refine ⟨cons_ne_nil _ _,?_⟩
    intro d member
    rcases mem_cons.mp member with rfl | later
    · exact first
    · exact rest d later

variable {n : Nat}

/-- `int` reads the number that a text writes. -/
theorem int_natText (few : (natText n).length ≤ maxDigits) :
    isDecimal digits (natText n) ∧ int digits (natText n) = .ok n := by
  obtain ⟨some,isDigits⟩ := natText_digits n
  have value : ∀ (t : Text) (first : Nat), (∀ c ∈ t, asciiDigit c) →
      t.foldl (fun value c => 10 * value + (digits.digit c).getD 0) first = t.foldl (fun value c => 10 * value + (c - 48)) first := by
    intro t
    induction t with
    | nil => exact fun first _ => rfl
    | cons c rest ih =>
      intro first all
      obtain ⟨here,later⟩ := forall_mem_cons.mp all
      rw [foldl_cons,foldl_cons,digits.value here,Option.getD_some,ih _ later]
  refine ⟨?_,?_⟩
  · have each : ((natText n).all fun c => (digits.digit c).isSome) = true := by
      rw [all_eq_true]
      intro c member
      rw [digits.value (isDigits c member)]
      rfl
    rw [isDecimal,each,Bool.and_true,Bool.not_eq_true',isEmpty_eq_false_iff]
    exact some
  · have same : digitsValue digits.toUnicode (natText n) = n := (value _ 0 isDigits).trans (decimal_natText n)
    rw [int,if_neg (Nat.not_lt.mpr few),same]

variable {digits}
theorem Kept.ascending (kept : Kept stores) (runId : Nat) : Ascending RunEvent.sequence (stores.memory.events runId) := by
  have sorted : ((stores.memory.events runId).map (·.sequence)).Pairwise (· < ·) := by
    rw [kept.numbered]
    exact pairwise_lt_range'
  exact pairwise_map.mp sorted

theorem Kept.select (kept : Kept stores) (found : stores.memory.run auth runId = some run) (condition : RunEvent Content → Bool) :
    stores.sql.select auth run condition = (stores.memory.events run.id).filter condition := by
  obtain ⟨isRun,_,owner,workspace⟩ := Memory.run_some found
  have rows : stores.sql.rows.filter (fun row => row.runId == run.id && row.ownerUserId == auth.userId &&
      row.workspaceId == auth.workspaceId && condition row) = (stores.memory.events run.id).filter condition := by
    rw [← kept.rows,Sql.ofRun,filter_filter]
    apply filter_congr
    intro row member
    obtain ⟨other,isOther,ofOther,byOwner,inWorkspace⟩ := kept.owned row member
    by_cases same : row.runId = run.id
    · have isSame : other = run := inj_on_of_nodup_map kept.distinct isOther isRun (ofOther.symm.trans same)
      rw [isSame] at byOwner inWorkspace
      simp [same,byOwner,inWorkspace,owner,workspace]
    · have elsewhere : (row.runId == run.id) = false := beq_false_of_ne same
      rw [elsewhere]
      simp
  have ascending := (kept.ascending run.id).filter condition
  rw [Sql.select,rows]
  exact (Series.ordered_eq_iff ascending.times).mpr ascending

theorem Kept.listAfter_none (kept : Kept stores) (found : stores.memory.run auth runId = some run) (repository : Repository) :
    stores.listAfter digits repository auth runId none = .ok (some (stores.memory.events run.id)) := by
  cases repository with
  | memory =>
    rw [Stores.listAfter,Memory.listAfter,found]
    rfl
  | sql =>
    rw [Stores.listAfter,Sql.listAfter,kept.run_eq,found]
    dsimp only [Sql.lastEventSequence,Except.map]
    rw [kept.select found,filter_eq_self.mpr fun row _ => rfl]

theorem Kept.listAfter_number (kept : Kept stores) (found : stores.memory.run auth runId = some run)
    (few : (natText n).length ≤ maxDigits) (repository : Repository) :
    stores.listAfter digits repository auth runId (some (natText n)) =
      .ok (some ((stores.memory.events run.id).filter fun event => n < event.sequence)) := by
  obtain ⟨isNumber,value⟩ := int_natText digits few
  obtain ⟨c,t,isText⟩ := exists_cons_of_ne_nil (natText_digits n).1
  rw [isText] at isNumber value ⊢
  cases repository with
  | memory =>
    rw [Stores.listAfter,Memory.listAfter,found]
    dsimp only
    rw [eventsAfterLastId,if_pos isNumber,value]
    · rfl
    · exact cons_ne_nil c t
  | sql =>
    rw [Stores.listAfter,Sql.listAfter,kept.run_eq,found]
    dsimp only
    rw [Sql.lastEventSequence,if_pos isNumber,value]
    · dsimp only [Except.map]
      rw [kept.select found]
    · exact cons_ne_nil c t

theorem Kept.find (kept : Kept stores) (found : stores.memory.run auth runId = some run) (token : Text) :
    stores.sql.rows.find? (fun row => row.runId == run.id && row.id == token && row.ownerUserId == run.ownerUserId &&
      row.workspaceId == run.workspaceId) = (stores.memory.events run.id).find? fun event => event.id == token := by
  rw [← kept.rows,Sql.ofRun,find?_filter]
  apply find?_congr
  intro row member
  obtain ⟨other,isOther,ofOther,byOwner,inWorkspace⟩ := kept.owned row member
  by_cases same : row.runId = run.id
  · have isSame : other = run :=
      inj_on_of_nodup_map kept.distinct isOther (Memory.run_some found).1 (ofOther.symm.trans same)
    rw [isSame] at byOwner inWorkspace
    rw [Bool.eq_iff_iff]
    simp [same,byOwner,inWorkspace]
  · have elsewhere : (row.runId == run.id) = false := beq_false_of_ne same
    rw [elsewhere]
    simp

variable {token : Text}

theorem Kept.listAfter_id (kept : Kept stores) (found : stores.memory.run auth runId = some run) (written : token ≠ [])
    (noNumber : isDecimal digits token = false) (repository : Repository) :
    stores.listAfter digits repository auth runId (some token) =
      .ok (some (match (stores.memory.events run.id).find? fun event => event.id == token with
        | some event => (stores.memory.events run.id).filter fun other => event.sequence < other.sequence
        | none => stores.memory.events run.id)) := by
  obtain ⟨c,t,rfl⟩ := exists_cons_of_ne_nil written
  cases repository with
  | memory =>
    rw [Stores.listAfter,Memory.listAfter,found]
    dsimp only
    rw [eventsAfterLastId,noNumber,if_neg Bool.false_ne_true]
    · have ascending := kept.ascending run.id
      generalize stores.memory.events run.id = events at ascending
      cases isEvent : events.find? fun event => event.id == c :: t with
      | none =>
        rw [findIdx?_eq_none_iff.mpr (by simpa using isEvent)]
        rfl
      | some event =>
        obtain ⟨names,before,after,isEvents,others⟩ := find?_eq_some_iff_append.mp isEvent
        have index : events.findIdx? (fun event => event.id == c :: t) = some before.length := by
          rw [isEvents,findIdx?_append,findIdx?_eq_none_iff.mpr (by simpa using others)]
          rw [findIdx?_cons,if_pos names]
          simp
        rw [index,isEvents]
        rw [isEvents] at ascending
        dsimp only
        rw [ascending.later]
        simp [Except.map]
    · exact cons_ne_nil c t
  | sql =>
    rw [Stores.listAfter,Sql.listAfter,kept.run_eq,found]
    dsimp only
    rw [Sql.lastEventSequence,noNumber,if_neg Bool.false_ne_true,kept.find found]
    · cases (stores.memory.events run.id).find? fun event => event.id == c :: t with
      | none =>
        dsimp only [Except.map,Option.map_none]
        rw [kept.select found,filter_eq_self.mpr fun row _ => rfl]
      | some event =>
        dsimp only [Except.map,Option.map_some]
        rw [kept.select found]
    · exact cons_ne_nil c t

theorem Kept.cut (kept : Kept stores) (found : stores.memory.run auth runId = some run) (repository : Repository)
    {before after : List (RunEvent Content)} {event : RunEvent Content} (split : stores.memory.events run.id = before ++ event :: after) (named : token ∈ tokens event) : stores.listAfter digits repository auth runId (some token) = .ok (some after) := by
  have ascending := kept.ascending run.id
  rw [split] at ascending
  have isEvent : event ∈ stores.sql.ofRun run.id := by
    rw [kept.rows,split]
    exact mem_append_right _ mem_cons_self
  have byId : stores.listAfter digits repository auth runId (some event.id) = .ok (some after) := by
    obtain ⟨hex,isHex⟩ := kept.named event (mem_of_mem_filter isEvent)
    have noNumber : isDecimal digits event.id = false := isHex ▸ id_not_decimal digits hex
    have written : event.id ≠ [] := isHex ▸ cons_ne_nil _ _
    have ids : (stores.memory.events run.id).Pairwise fun a b => a.id ≠ b.id := by
      rw [← kept.rows,Sql.ofRun]
      exact (pairwise_map.mp kept.ids).filter _
    have isFirst : (before ++ event :: after).find? (fun other => other.id == event.id) = some event := by
      rw [split] at ids
      apply find?_eq_some_iff_append.mpr
      refine ⟨by simp,before,after,rfl,?_⟩
      intro other isBefore
      have apart := (pairwise_append.mp ids).2.2 other isBefore event mem_cons_self
      simpa using apart
    rw [kept.listAfter_id found written noNumber,split,isFirst]
    dsimp only
    rw [ascending.later]
  rw [tokens] at named
  split at named
  · rename_i few
    rcases mem_cons.mp named with rfl | isNumber
    · exact byId
    · rw [mem_singleton.mp isNumber,kept.listAfter_number found few,split,ascending.later]
  · rw [mem_singleton.mp named]
    exact byId

variable {seen : List (RunEvent Content)}

theorem Kept.rest (kept : Kept stores) (found : stores.memory.run auth runId = some run) (repository : Repository)
    {rest : List (RunEvent Content)} (split : stores.memory.events run.id = seen ++ rest) {token : Option Text}
    (named : token ∈ resume seen) : stores.listAfter digits repository auth runId token = .ok (some rest) := by
  rw [resume] at named
  rcases eq_nil_or_concat seen with rfl | ⟨before,last,rfl⟩
  · rw [nil_append] at split
    rcases mem_cons.mp named with rfl | isEmpty
    · rw [kept.listAfter_none found,split]
    · have all : stores.listAfter digits repository auth runId none = _ := kept.listAfter_none found repository
      rw [mem_singleton.mp isEmpty,← split,← all]
      cases repository <;> rfl
  · rw [concat_eq_append,getLast?_append_of_ne_nil _ (cons_ne_nil _ _),getLast?_singleton] at named
    obtain ⟨t,isToken,rfl⟩ := mem_map.mp named
    rw [concat_eq_append,append_assoc] at split
    exact kept.cut found repository split isToken

variable {repository : Repository}

theorem run_of_answer {token : Option Text} {answer : List (RunEvent Content)} (kept : Kept stores)
    (answered : stores.listAfter digits repository auth runId token = .ok (some answer)) :
    ∃ run, stores.memory.run auth runId = some run ∧ run.id = runId := by
  cases found : stores.memory.run auth runId with
  | some run => exact ⟨run,rfl,(Memory.run_some found).2.1⟩
  | none =>
    cases repository with
    | memory =>
      rw [Stores.listAfter,Memory.listAfter,found] at answered
      cases answered
    | sql =>
      rw [Stores.listAfter,Sql.listAfter,kept.run_eq,found] at answered
      cases answered

theorem append_extends (stores : Stores Content) (auth : Auth) (runId : Nat) (drawn : List (Text × Content)) (other : Nat) :
    stores.memory.events other <+: (stores.append auth runId drawn).memory.events other := by
  rw [Stores.append,Memory.append]
  cases stores.memory.run auth runId with
  | none => exact prefix_rfl
  | some run =>
    by_cases same : other = run.id
    · dsimp only
      rw [same,update_self]
      exact prefix_append _ _
    · dsimp only
      exact (update_of_ne same _ _).symm ▸ prefix_rfl

theorem Reads.reachable (reads : Reads digits repository auth runId stores seen) : Reachable stores := by
  induction reads with
  | none reachable => exact reachable
  | create run new _ ih => exact ih.create run new
  | append writer into drawn fresh _ ih => exact ih.append writer into drawn fresh
  | connect _ _ _ _ ih => exact ih

theorem Reads.isPrefix (reads : Reads digits repository auth runId stores seen) :
    seen <+: stores.memory.events runId := by
  induction reads with
  | none _ => exact nil_prefix
  | create _ _ _ ih => exact ih
  | append writer into drawn _ _ ih => exact ih.trans (append_extends _ writer into drawn runId)
  | connect cut before named answered ih =>
    have kept := before.reachable.kept
    obtain ⟨run,found,rfl⟩ := run_of_answer kept answered
    obtain ⟨rest,split⟩ := ih
    rw [kept.rest found _ split.symm named] at answered
    obtain rfl : rest = _ := Option.some.inj (Except.ok.inj answered)
    rw [← split]
    exact (prefix_append_right_inj _).mpr (List.take_prefix cut rest)

/-- A client that names an event of the run reads the events after it, from either repository, and over any connections
    the list from its beginning, in order. -/
theorem resumes (reachable : Reachable stores) (found : stores.memory.run auth runId = some run) (repository : Repository) :
    (∀ before event after, stores.memory.events runId = before ++ event :: after → ∀ token ∈ tokens event,
        stores.listAfter digits repository auth runId (some token) = .ok (some after)) ∧
      (∀ token, (∀ given ∈ token, isDecimal digits given = false) →
        stores.listAfter digits .sql auth runId token = stores.listAfter digits .memory auth runId token) ∧
      ∀ seen, Reads digits repository auth runId stores seen → ∃ rest, stores.memory.events runId = seen ++ rest ∧
        ∀ token ∈ resume seen, stores.listAfter digits repository auth runId token = .ok (some rest) := by
  have kept := reachable.kept
  have isRun := (Memory.run_some found).2.1
  refine ⟨?_,?_,?_⟩
  · intro before event after split token named
    exact kept.cut found repository (isRun ▸ split) named
  · intro token noNumber
    have nothing : ∀ token : Option Text, token = none ∨ token = some [] → ∀ repository,
        stores.listAfter digits repository auth runId token = .ok (some (stores.memory.events run.id)) := by
      intro token isNothing repository
      have named : token ∈ resume ([] : List (RunEvent Content)) := by rcases isNothing with rfl | rfl <;> simp [resume]
      exact kept.rest found repository rfl named
    rcases token with _ | t
    · rw [nothing none (.inl rfl),nothing none (.inl rfl)]
    · by_cases written : t = []
      · rw [nothing (some t) (.inr (congrArg some written)),nothing (some t) (.inr (congrArg some written))]
      · rw [kept.listAfter_id found written (noNumber t rfl),kept.listAfter_id found written (noNumber t rfl)]
  · intro seen reads
    obtain ⟨rest,split⟩ := reads.isPrefix
    exact ⟨rest,split.symm,fun token named => kept.rest found repository (isRun ▸ split.symm) named⟩

def asciiDigits : Digits := { ascii with digit_ascii := fun _ _ => rfl }

/-- A client that has the first of two events and gives its number reads the second. -/
theorem secondEvent_resumed :
    let auth : Auth := ⟨1,2⟩
    let stores := ((Stores.mk ⟨[],fun _ => []⟩ ⟨[],[]⟩).create ⟨7,1,2⟩).append auth 7 [([97],()),([98],())]
    Reachable stores ∧
      stores.listAfter asciiDigits .sql auth 7 (some (natText 1)) = .ok (some [⟨opaqueId (text "evt") [98],7,1,2,2,()⟩]) := by
  have fresh : Fresh ((Stores.mk ⟨[],fun _ => []⟩ ⟨[],[]⟩).create ⟨7,1,2⟩) [([97],()),([98],())] :=
    ⟨by decide,fun _ _ => not_mem_nil⟩
  have reachable := (Reachable.create ⟨7,1,2⟩ not_mem_nil Reachable.none).append ⟨1,2⟩ 7 _ fresh
  refine ⟨reachable,?_⟩
  exact (@resumes _ _ _ ⟨1,2⟩ 7 ⟨7,1,2⟩ reachable rfl .sql).1 []
    ⟨opaqueId (text "evt") [97],7,1,2,1,()⟩ [⟨opaqueId (text "evt") [98],7,1,2,2,()⟩] rfl (natText 1) (by decide)

end Codebot.ResumedStreams
