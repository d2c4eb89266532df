import Codebot.Runs
import Codebot.JsonGrammar

/-!
The idempotency records of `RedisSecurityControls`. A call of `begin_idempotency` reads the record of its key and,
where there is none, sets one in flight; `complete_idempotency` reads the record again and replaces it by one with the
response. Any number of callers take these steps in any order (`executed_once`).
-/
namespace Codebot.Idempotency
set_option linter.unusedSectionVars false
open Runs Texts JsonTexts JsonDumps
open JsonGrammar (loads_dumps dumps_injective)

/-- `hexdigest` of SHA-256: a text of ASCII. -/
structure Digest where
  hash : Text → Text
  ascii : ∀ t, ∀ c ∈ hash t, c < 128
/-- The body of a request, as JSON. -/
structure Body where
  value : Json
  writable : Writable value
def Body.content (body : Body) : Json := sortKeys body.value
/-- The text that `_body_hash` hashes. -/
def Body.payload (body : Body) : Text := dumps compactSeparators body.content
def bodyHash (sha256 : Digest) (body : Body) : Text := sha256.hash body.payload
/-- A response that is recorded: a dictionary, with its status code. -/
structure Answer where
  statusCode : Int
  response : List (Text × Json)
  code : Writable (.integer statusCode)
  writable : Writable (.object response)
def Answer.content (answer : Answer) : Json := sortKeys (.object answer.response)
def pendingRecord (hash : Text) : Json :=
  .object [(text "status",.text (text "pending")),(text "body_hash",.text hash)]
def completedRecord (hash : Option Text) (answer : Answer) : Json :=
  .object [(text "status",.text (text "completed")),(text "body_hash",(hash.map Json.text).getD .null),
    (text "status_code",.integer answer.statusCode),(text "response",.object answer.response)]
/-- `json.dumps(record, sort_keys=True)`. -/
def written (record : Json) : Text := dumps defaultSeparators (sortKeys record)
/-- `payload.get(name)`. -/
def field (payload : Json) (name : Text) : Option Json :=
  match payload with
  | .object entries => (entries.find? fun entry => entry.1 = name).map Prod.snd
  | _ => none
def textField (payload : Json) (name : Text) : Option Text :=
  match field payload name with
  | some (.text t) => some t
  | _ => none
/-- `int(payload.get("status_code", 200))`; other values are not recorded. -/
def statusCode (payload : Json) : Option Int :=
  match field payload (text "status_code") with
  | none => some 200
  | some (.integer n) => some n
  | some _ => none
/-- `IdempotencyRecord`, without its key. -/
structure IdempotencyRecord where
  response : Option Json
  statusCode : Option Int
def IdempotencyRecord.replay (record : IdempotencyRecord) : Bool := record.response.isSome && record.statusCode.isSome

/-- How `begin_idempotency` ends. -/
inductive Result
  | record (record : IdempotencyRecord)
  | conflict
  | inFlight
  | unavailable
  /-- The record is none of these. -/
  | raised

def fresh : IdempotencyRecord := ⟨none,none⟩

/-- `begin_idempotency` where a record is there. -/
def look (hash current : Text) : Result :=
  match loads current with
  | .error _ => .raised
  | .ok payload =>
    if textField payload (text "body_hash") ≠ some hash then .conflict
    else if textField payload (text "status") = some (text "completed") then
      match statusCode payload with
      | none => .raised
      | some code => .record ⟨field payload (text "response"),some code⟩
    else .inFlight

/-- The hash that `complete_idempotency` keeps. -/
def keptHash : Option Text → Option Text
  | none => none
  | some current =>
    match loads current with
    | .error _ => none
    | .ok payload => textField payload (text "body_hash")
theorem pending_sorted (hash : Text) : sortKeys (pendingRecord hash) =
    .object [(text "body_hash",.text hash),(text "status",.text (text "pending"))] := rfl
theorem completed_sorted (hash : Text) (answer : Answer) : sortKeys (completedRecord (some hash) answer) =
    .object [(text "body_hash",.text hash),(text "response",answer.content),(text "status",.text (text "completed")),
      (text "status_code",.integer answer.statusCode)] := rfl

/-- What a caller does next. -/
inductive Phase
  | idle
  /-- `begin_idempotency`: before `GET`. -/
  | beginning
  /-- No record was there: before `SET NX`. -/
  | absent
  /-- `begin_idempotency` has ended. -/
  | ended (result : Result)
  /-- `complete_idempotency`: before `GET`. -/
  | completing (answer : Answer)
  /-- Before `SET`. -/
  | storing (hash : Option Text) (answer : Answer)

/-- The value of the key, the callers, and the answers that were recorded. -/
structure State (Caller : Type) where
  value : Option Text
  phase : Caller → Phase
  recorded : List Answer

inductive Label (Caller : Type)
  | beginIdempotency (c : Caller)
  /-- A caller goes on with the record that it obtained. -/
  | completeIdempotency (c : Caller) (answer : Answer)
  /-- The next command of a call. -/
  | command (c : Caller)
  /-- Redis does not answer the ping of a call. -/
  | unavailable (c : Caller)
  /-- The record expires. -/
  | expire

variable {Caller : Type} [DecidableEq Caller]
def State.enter (s : State Caller) (c : Caller) (phase : Phase) : State Caller :=
  { s with phase := Function.update s.phase c phase }

def command (sha256 : Digest) (body : Caller → Body) (s : State Caller) (c : Caller) : Option (State Caller) :=
  match s.phase c with
  | .beginning =>
    match s.value with
    | some current => some (s.enter c (.ended (look (bodyHash sha256 (body c)) current)))
    | none => some (s.enter c .absent)
  | .absent =>
    match s.value with
    | some _ => some (s.enter c (.ended .inFlight))
    | none => some { (s.enter c (.ended (.record fresh))) with value := some (written (pendingRecord (bodyHash sha256 (body c)))) }
  | .completing answer => some (s.enter c (.storing (keptHash s.value) answer))
  | .storing hash answer =>
    some { (s.enter c (.ended (.record fresh))) with
      value := some (written (completedRecord hash answer)), recorded := s.recorded ++ [answer] }
  | _ => none

def step (sha256 : Digest) (body : Caller → Body) (s : State Caller) : Label Caller → Option (State Caller)
  | .beginIdempotency c =>
    match s.phase c with
    | .idle => some (s.enter c .beginning)
    | _ => none
  | .completeIdempotency c answer =>
    match s.phase c with
    | .ended (.record record) => if record.replay then some s else some (s.enter c (.completing answer))
    | _ => none
  | .command c => command sha256 body s c
  | .unavailable c =>
    match s.phase c with
    | .beginning => some (s.enter c (.ended .unavailable))
    | .completing _ => some (s.enter c (.ended (.record fresh)))
    | _ => none
  | .expire => some { s with value := none }

def initial (Caller : Type) : State Caller := ⟨none,fun _ => .idle,[]⟩
def Phase.goesAhead : Phase → Prop
  | .ended (.record record) => record.replay = false
  | .completing _ => True
  | .storing _ _ => True
  | _ => False
/-- What a caller is told while another one has gone ahead. -/
def Told (s : State Caller) (same : Prop) : Result → Prop
  | .record record => same ∧ ∃ answer ∈ s.recorded, record = ⟨some answer.content,some answer.statusCode⟩
  | .conflict => ¬ same
  | .inFlight => True
  | .unavailable => True
  | .raised => False
/-- Once a call has ended, and Redis was available, exactly one caller goes ahead; another one with its body is told so
    or receives a recorded response, one with another body obtains no record. -/
structure ExecutedOnce (body : Caller → Body) (s : State Caller) : Prop where
  one : ∀ c result, s.phase c = .ended result → result ≠ .unavailable → ∃! holder, (s.phase holder).goesAhead
  others : ∀ holder, (s.phase holder).goesAhead → ∀ c result, c ≠ holder → s.phase c = .ended result →
    Told s ((body c).content = (body holder).content) result
theorem literals_ascii : ∀ name ∈ [text "status",text "pending",text "completed",text "body_hash",text "status_code",text "response"],
    ∀ c ∈ name, c < 128 := by decide
theorem literal_separate {name : Text}
    (member : name ∈ [text "status",text "pending",text "completed",text "body_hash",text "status_code",text "response"]) :
    Separate name :=
  separate_ascii (literals_ascii name member)

variable {hash : Text}
theorem loads_pending (ascii : ∀ c ∈ hash, c < 128) : loads (written (pendingRecord hash)) =
    .ok (.object [(text "body_hash",.text hash),(text "status",.text (text "pending"))]) := by
  rw [written,pending_sorted]
  have once : [text "body_hash",text "status"].Nodup := by decide
  refine loads_dumps defaultSeparators ⟨once,?_,separate_ascii ascii,?_,?_,trivial⟩
  all_goals exact literal_separate (by decide)

theorem loads_completed (ascii : ∀ c ∈ hash, c < 128) (answer : Answer) :
    loads (written (completedRecord (some hash) answer)) =
      .ok (.object [(text "body_hash",.text hash),(text "response",answer.content),(text "status",.text (text "completed")),
        (text "status_code",.integer answer.statusCode)]) := by
  rw [written,completed_sorted]
  have once : [text "body_hash",text "response",text "status",text "status_code"].Nodup := by decide
  refine loads_dumps defaultSeparators ⟨once,?_,separate_ascii ascii,?_,sortKeys_writable _ answer.writable,?_,?_,?_,
    answer.code,trivial⟩
  all_goals exact literal_separate (by decide)

theorem look_pending {other : Text} (ascii : ∀ c ∈ other, c < 128) :
    look hash (written (pendingRecord other)) = if other = hash then .inFlight else .conflict := by
  rw [look,loads_pending ascii]
  by_cases same : other = hash
  · subst same
    rw [if_pos rfl]
    exact if_neg (not_not.mpr rfl)
  · rw [if_neg same]
    exact if_pos fun found => same (Option.some.inj found)

theorem look_completed {other : Text} (ascii : ∀ c ∈ other, c < 128) (answer : Answer) :
    look hash (written (completedRecord (some other) answer)) =
      if other = hash then .record ⟨some answer.content,some answer.statusCode⟩ else .conflict := by
  rw [look,loads_completed ascii]
  by_cases same : other = hash
  · subst same
    rw [if_pos rfl]
    exact if_neg (not_not.mpr rfl)
  · rw [if_neg same]
    exact if_pos fun found => same (Option.some.inj found)

theorem keptHash_pending (ascii : ∀ c ∈ hash, c < 128) :
    keptHash (some (written (pendingRecord hash))) = some hash := by
  rw [keptHash,loads_pending ascii]
  rfl
theorem keptHash_completed (ascii : ∀ c ∈ hash, c < 128) (answer : Answer) :
    keptHash (some (written (completedRecord (some hash) answer))) = some hash := by
  rw [keptHash,loads_completed ascii]
  rfl
def Phase.waits : Phase → Prop
  | .idle => True
  | .beginning => True
  | .absent => True
  | .ended .unavailable => True
  | _ => False
def Ahead (hash : Text) : Phase → Prop
  | .ended (.record record) => record = fresh
  | .completing _ => True
  | .storing kept _ => kept = some hash
  | _ => False
def Held (s : State Caller) (hash : Text) : Prop :=
  s.value = some (written (pendingRecord hash)) ∨
    ∃ answer ∈ s.recorded, s.value = some (written (completedRecord (some hash) answer))
/-- One caller goes ahead; the others wait or are told about it. -/
structure Holding (sha256 : Digest) (body : Caller → Body) (s : State Caller) (holder : Caller) : Prop where
  value : Held s (bodyHash sha256 (body holder))
  ahead : Ahead (bodyHash sha256 (body holder)) (s.phase holder)
  others : ∀ c, c ≠ holder → (s.phase c).waits ∨
    ∃ result, s.phase c = .ended result ∧ Told s ((body c).content = (body holder).content) result
def Sound (sha256 : Digest) (body : Caller → Body) (s : State Caller) : Prop :=
  (s.value = none ∧ ∀ c, (s.phase c).waits) ∨ ∃ holder, Holding sha256 body s holder

variable {sha256 : Digest} {body : Caller → Body} {s t : State Caller} {c other holder : Caller} {phase : Phase}
@[simp] theorem enter_self : (s.enter c phase).phase c = phase := Function.update_self ..
theorem enter_other (differs : other ≠ c) : (s.enter c phase).phase other = s.phase other := Function.update_of_ne differs ..
theorem hash_ascii (body : Body) : ∀ c ∈ bodyHash sha256 body, c < 128 := sha256.ascii _
theorem hash_of_content {one other : Body} (same : one.content = other.content) :
    bodyHash sha256 one = bodyHash sha256 other := by
  rw [bodyHash,bodyHash,Body.payload,Body.payload,same]
theorem content_of_payload {one other : Body} (same : one.payload = other.payload) : one.content = other.content :=
  dumps_injective (sortKeys_writable _ one.writable) (sortKeys_writable _ other.writable) same

theorem told_look (apart : ∀ c d, bodyHash sha256 (body c) = bodyHash sha256 (body d) → (body c).payload = (body d).payload)
    {current : Text} (held : Held s (bodyHash sha256 (body holder))) (isCurrent : s.value = some current) :
    Told s ((body c).content = (body holder).content) (look (bodyHash sha256 (body c)) current) := by
  have differ : ¬ bodyHash sha256 (body holder) = bodyHash sha256 (body c) → ¬ (body c).content = (body holder).content :=
    fun hashes contents => hashes (hash_of_content contents).symm
  rcases held with pending | ⟨answer,member,completed⟩
  · rw [isCurrent] at pending
    rw [Option.some.inj pending,look_pending (hash_ascii _)]
    split_ifs with same
    · trivial
    · exact differ same
  · rw [isCurrent] at completed
    rw [Option.some.inj completed,look_completed (hash_ascii _)]
    split_ifs with same
    · exact ⟨(content_of_payload (apart _ _ same)).symm,answer,member,rfl⟩
    · exact differ same

theorem told_later {same : Prop} {result : Result} (more : s.recorded ⊆ t.recorded) (told : Told s same result) :
    Told t same result := by
  cases result with
  | record record =>
    obtain ⟨isSame,answer,member,replayed⟩ := told
    exact ⟨isSame,answer,more member,replayed⟩
  | conflict => exact told
  | inFlight => exact told
  | unavailable => exact told
  | raised => exact told

theorem keptHash_held (ascii : ∀ c ∈ hash, c < 128) (held : Held s hash) : keptHash s.value = some hash := by
  rcases held with pending | ⟨answer,_,completed⟩
  · rw [pending,keptHash_pending ascii]
  · rw [completed,keptHash_completed ascii]

theorem holding_ahead (phase : Phase) (holding : Holding sha256 body s holder) (value : Held t (bodyHash sha256 (body holder)))
    (ahead : Ahead (bodyHash sha256 (body holder)) phase) (more : s.recorded ⊆ t.recorded)
    (phases : t.phase = Function.update s.phase holder phase) : Holding sha256 body t holder := by
  refine ⟨value,?_,?_⟩
  · rw [phases,Function.update_self]
    exact ahead
  · intro c differs
    rw [phases,Function.update_of_ne differs]
    refine (holding.others c differs).imp_right ?_
    rintro ⟨result,isEnded,told⟩
    exact ⟨result,isEnded,told_later more told⟩

theorem holding_other (holding : Holding sha256 body s holder) (differs : c ≠ holder)
    (next : phase.waits ∨ ∃ result, phase = .ended result ∧ Told s ((body c).content = (body holder).content) result) :
    Holding sha256 body (s.enter c phase) holder := by
  refine ⟨holding.value,?_,?_⟩
  · rw [enter_other (Ne.symm differs)]
    exact holding.ahead
  · intro other otherDiffers
    by_cases isActor : other = c
    · subst isActor
      rw [enter_self]
      exact next
    · rw [enter_other isActor]
      exact holding.others other otherDiffers

theorem sound_waiting (nothing : s.value = none) (waits : ∀ c, (s.phase c).waits) (next : phase.waits) :
    Sound sha256 body (s.enter c phase) := by
  refine .inl ⟨nothing,?_⟩
  intro other
  by_cases isActor : other = c
  · subst isActor
    rw [enter_self]
    exact next
  · rw [enter_other isActor]
    exact waits other

theorem held_some (held : Held s hash) : s.value ≠ none := by
  rcases held with pending | ⟨_,_,completed⟩
  · rw [pending]
    exact Option.some_ne_none _
  · rw [completed]
    exact Option.some_ne_none _
theorem holder_of_completing (holding : Holding sha256 body s holder) (working : ¬ (s.phase c).waits)
    (notEnded : ∀ result, s.phase c ≠ .ended result) : c = holder := by
  by_contra differs
  rcases holding.others c differs with waits | ⟨result,isEnded,_⟩
  · exact working waits
  · exact notEnded result isEnded
theorem not_holder (holding : Holding sha256 body s holder) (early : s.phase c = phase) (isEarly : ∀ hash, ¬ Ahead hash phase) :
    c ≠ holder := by
  rintro rfl
  exact isEarly _ (early ▸ holding.ahead)

theorem sound_begin (sound : Sound sha256 body s) (stepped : step sha256 body s (.beginIdempotency c) = some t) :
    Sound sha256 body t := by
  simp only [step] at stepped
  split at stepped
  · rename_i idle
    cases stepped
    rcases sound with ⟨nothing,waits⟩ | ⟨holder,holding⟩
    · exact sound_waiting nothing waits trivial
    · exact .inr ⟨holder,holding_other holding (not_holder holding idle fun _ => id) (.inl trivial)⟩
  · cases stepped

theorem sound_complete {answer : Answer} (sound : Sound sha256 body s)
    (stepped : step sha256 body s (.completeIdempotency c answer) = some t) : Sound sha256 body t := by
  simp only [step] at stepped
  split at stepped
  · rename_i record ended
    split at stepped
    · cases stepped
      exact sound
    · rename_i notReplay
      cases stepped
      rcases sound with ⟨_,waits⟩ | ⟨holder,holding⟩
      · have wait := waits c
        rw [ended] at wait
        exact wait.elim
      · by_cases isHolder : c = holder
        · subst isHolder
          exact .inr ⟨c,holding_ahead (.completing answer) holding holding.value trivial (List.Subset.refl _) rfl⟩
        · rcases holding.others c isHolder with wait | ⟨result,isEnded,told⟩
          · rw [ended] at wait
            exact wait.elim
          · -- another caller's record is a replay
            rw [ended] at isEnded
            cases isEnded
            obtain ⟨_,_,_,rfl⟩ := told
            exact absurd rfl notReplay
  · cases stepped

theorem sound_unavailable (sound : Sound sha256 body s) (stepped : step sha256 body s (.unavailable c) = some t) :
    Sound sha256 body t := by
  simp only [step] at stepped
  split at stepped
  · rename_i beginning
    cases stepped
    rcases sound with ⟨nothing,waits⟩ | ⟨holder,holding⟩
    · exact sound_waiting nothing waits trivial
    · exact .inr ⟨holder,holding_other holding (not_holder holding beginning fun _ => id) (.inl trivial)⟩
  · rename_i answer completing
    cases stepped
    have working : ¬ (s.phase c).waits := by
      rw [completing]
      exact id
    rcases sound with ⟨_,waits⟩ | ⟨holder,holding⟩
    · exact absurd (waits c) working
    · obtain rfl := holder_of_completing holding working (by rw [completing]; exact fun _ => nofun)
      exact .inr ⟨c,holding_ahead (.ended (.record fresh)) holding holding.value rfl (List.Subset.refl _) rfl⟩
  · cases stepped

theorem sound_command (apart : ∀ c d, bodyHash sha256 (body c) = bodyHash sha256 (body d) → (body c).payload = (body d).payload)
    (sound : Sound sha256 body s) (stepped : step sha256 body s (.command c) = some t) : Sound sha256 body t := by
  simp only [step,command] at stepped
  split at stepped
  · rename_i beginning
    split at stepped
    · rename_i current isCurrent
      cases stepped
      rcases sound with ⟨nothing,_⟩ | ⟨holder,holding⟩
      · rw [nothing] at isCurrent
        cases isCurrent
      · have differs := not_holder holding beginning fun _ => id
        exact .inr ⟨holder,holding_other holding differs (.inr ⟨_,rfl,told_look apart holding.value isCurrent⟩)⟩
    · rename_i nothing
      cases stepped
      rcases sound with ⟨_,waits⟩ | ⟨holder,holding⟩
      · exact sound_waiting nothing waits trivial
      · exact absurd nothing (held_some holding.value)
  · rename_i absent
    split at stepped
    · rename_i current isCurrent
      cases stepped
      rcases sound with ⟨nothing,_⟩ | ⟨holder,holding⟩
      · rw [nothing] at isCurrent
        cases isCurrent
      · have differs := not_holder holding absent fun _ => id
        exact .inr ⟨holder,holding_other holding differs (.inr ⟨_,rfl,trivial⟩)⟩
    · rename_i nothing
      cases stepped
      rcases sound with ⟨_,waits⟩ | ⟨holder,holding⟩
      · -- this caller sets the record
        refine .inr ⟨c,.inl rfl,?_,?_⟩
        · change Ahead _ ((s.enter c _).phase c)
          rw [enter_self]
          rfl
        · intro other differs
          left
          change ((s.enter c _).phase other).waits
          rw [enter_other differs]
          exact waits other
      · exact absurd nothing (held_some holding.value)
  · rename_i answer completing
    cases stepped
    have working : ¬ (s.phase c).waits := by
      rw [completing]
      exact id
    rcases sound with ⟨_,waits⟩ | ⟨holder,holding⟩
    · exact absurd (waits c) working
    · obtain rfl := holder_of_completing holding working (by rw [completing]; exact fun _ => nofun)
      exact .inr ⟨c,holding_ahead (.storing _ answer) holding holding.value (keptHash_held (hash_ascii _) holding.value)
        (List.Subset.refl _) rfl⟩
  · rename_i hash answer storing
    cases stepped
    have working : ¬ (s.phase c).waits := by
      rw [storing]
      exact id
    rcases sound with ⟨_,waits⟩ | ⟨holder,holding⟩
    · exact absurd (waits c) working
    · obtain rfl := holder_of_completing holding working (by rw [storing]; exact fun _ => nofun)
      have kept : hash = some (bodyHash sha256 (body c)) := by
        have ahead := holding.ahead
        rw [storing] at ahead
        exact ahead
      subst kept
      exact .inr ⟨c,holding_ahead (.ended (.record fresh)) holding
        (.inr ⟨answer,List.mem_append_right _ List.mem_cons_self,rfl⟩) rfl (List.subset_append_left ..) rfl⟩
  · cases stepped

def Within (_ : State Caller) : Label Caller → Prop
  | .expire => False
  | _ => True

theorem sound_step (apart : ∀ c d, bodyHash sha256 (body c) = bodyHash sha256 (body d) → (body c).payload = (body d).payload)
    (s : State Caller) (label : Label Caller) (t : State Caller) (sound : Sound sha256 body s) (within : Within s label)
    (stepped : step sha256 body s label = some t) : Sound sha256 body t := by
  cases label with
  | beginIdempotency c => exact sound_begin sound stepped
  | completeIdempotency c answer => exact sound_complete sound stepped
  | command c => exact sound_command apart sound stepped
  | unavailable c => exact sound_unavailable sound stepped
  | expire => exact within.elim

theorem not_ahead_of_waits (waits : phase.waits) : ¬ phase.goesAhead := by
  unfold Phase.waits at waits
  split at waits
  · exact id
  · exact id
  · exact id
  · exact id
  · exact waits.elim

theorem holder_unique (holding : Holding sha256 body s holder) (ahead : (s.phase c).goesAhead) : c = holder := by
  by_contra differs
  rcases holding.others c differs with waits | ⟨result,isEnded,told⟩
  · exact not_ahead_of_waits waits ahead
  · rw [isEnded] at ahead
    cases result with
    | record record =>
      obtain ⟨_,_,_,rfl⟩ := told
      cases ahead
    | _ => exact ahead

theorem holder_ahead (holding : Holding sha256 body s holder) : (s.phase holder).goesAhead := by
  have ahead := holding.ahead
  unfold Ahead at ahead
  split at ahead
  · rename_i record isEnded
    rw [isEnded,ahead]
    rfl
  · rename_i answer isCompleting
    rw [isCompleting]
    trivial
  · rename_i kept answer isStoring
    rw [isStoring]
    trivial
  · exact ahead.elim

theorem sound_once (sound : Sound sha256 body s) : ExecutedOnce body s := by
  rcases sound with ⟨_,waits⟩ | ⟨holder,holding⟩
  · constructor
    · intro c result isEnded available
      have wait := waits c
      rw [isEnded] at wait
      cases result with
      | unavailable => exact absurd rfl available
      | _ => exact wait.elim
    · intro holder ahead
      exact absurd ahead (not_ahead_of_waits (waits holder))
  · constructor
    · intro c result isEnded available
      exact ⟨holder,holder_ahead holding,fun other ahead => holder_unique holding ahead⟩
    · intro other ahead c result differs isEnded
      obtain rfl := holder_unique holding ahead
      rcases holding.others c differs with wait | ⟨told,same,isTold⟩
      · rw [isEnded] at wait
        cases result with
        | unavailable => trivial
        | _ => exact wait.elim
      · rw [isEnded] at same
        cases same
        exact isTold

/-- SHA-256, where it is used below. -/
def sampleDigest : Digest where
  hash t :=
    if t = text "\x7b\x7d" then text "44136fa355b3678a1146ad16f7e8649e94fb4fc21fe77e8310c060f61caaff8a"
    else if t = text "\x7b\"candidate_id\":\"c1\"\x7d" then text "2e9667b2802f4c5a984cfb0f30b168634b397808b232e4e1fb77f7e10e8291cb"
    else []
  ascii := by
    intro t
    split_ifs
    · decide
    · decide
    · exact fun _ member => absurd member List.not_mem_nil

def emptyBody : Body := ⟨.object [],empty_writable⟩
def candidateBody : Body where
  value := .object [(text "candidate_id",.text (text "c1"))]
  writable := ⟨by decide,separate_ascii (by decide),separate_ascii (by decide),trivial⟩
def sampleBody (c : Fin 4) : Body := if c = 2 then candidateBody else emptyBody
def sampleAnswer : Answer where
  statusCode := 200
  response := [(text "status",.text (text "approved"))]
  code := (by decide : (natText 200).length ≤ maxDigits)
  writable := ⟨by decide,separate_ascii (by decide),separate_ascii (by decide),trivial⟩
/-- Two callers find no record; the first sets one, the third finds it, and the last one finds the answer. -/
def sampleLabels : List (Label (Fin 4)) :=
  [.beginIdempotency 0,.beginIdempotency 1,.command 0,.command 1,.command 0,.command 1,.beginIdempotency 2,.command 2,
    .completeIdempotency 0 sampleAnswer,.command 0,.command 0,.beginIdempotency 3,.command 3]
end Codebot.Idempotency
