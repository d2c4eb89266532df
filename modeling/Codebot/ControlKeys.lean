import Codebot.Texts
import Mathlib.Data.List.Infix

/-!
The Redis keys of `RedisSecurityControls`, of idempotency records and of counters. They are made of parts that are
joined by colons, which the parts may have themselves (`separated_iff`).
-/
namespace Codebot.ControlKeys
open Texts List

/-- Who sends a request, and to where. -/
@[ext] structure Scope where
  userId : Text
  workspaceId : Text
  method : Text
  path : Text
deriving DecidableEq
def Scope.joined (scope : Scope) : Text :=
  scope.userId ++ 58 :: scope.workspaceId ++ 58 :: scope.method ++ 58 :: scope.path ++ [58]
def idempotencyKey (sha256 : Text → Text) (keyPrefix : Text) (scope : Scope) (key : Text) : Text :=
  keyPrefix ++ text ":idem:" ++ sha256 (scope.joined ++ key)

/-- The dimensions that requests are counted in. -/
inductive Dimension
  | user
  | userDay
  | workspace
  | workspaceDay
  | ip
  | modelUser
  | modelWorkspace
  | toolUser
  | toolWorkspace
deriving DecidableEq

def Dimension.name : Dimension → Text
  | .user => text "user"
  | .userDay => text "user-day"
  | .workspace => text "workspace"
  | .workspaceDay => text "workspace-day"
  | .ip => text "ip"
  | .modelUser => text "model-user"
  | .modelWorkspace => text "model-workspace"
  | .toolUser => text "tool-user"
  | .toolWorkspace => text "tool-workspace"

/-- A request, its client's address, and the model and the tool that it calls. -/
structure Request where
  scope : Scope
  ipAddress : Text
  model : Text
  toolId : Text
deriving DecidableEq

/-- Whom or what `check_write`, `check_model_call` and `check_tool_call` count for in a dimension. -/
def Request.counted (request : Request) : Dimension → Text × Option Text
  | .user => (request.scope.userId,none)
  | .userDay => (request.scope.userId,none)
  | .workspace => (request.scope.workspaceId,none)
  | .workspaceDay => (request.scope.workspaceId,none)
  | .ip => (if request.ipAddress = [] then text "unknown" else request.ipAddress,none)
  | .modelUser => (request.scope.userId,some request.model)
  | .modelWorkspace => (request.scope.workspaceId,some request.model)
  | .toolUser => (request.scope.userId,some request.toolId)
  | .toolWorkspace => (request.scope.workspaceId,some request.toolId)

def identifier : Text × Option Text → Text
  | (owner,none) => owner
  | (owner,some called) => owner ++ 58 :: called
/-- The key of `_check_limit`. -/
def counterKey (keyPrefix : Text) (dimension : Dimension) (counted : Text × Option Text) : Text :=
  keyPrefix ++ text ":rl:" ++ dimension.name ++ 58 :: identifier counted

/-- The requests share no record, unless they and their keys are the same, and no counter, unless
    it counts for the same. -/
structure Separated (sha256 : Text → Text) (keyPrefix : Text) (one other : Request) : Prop where
  records : ∀ key otherKey, key ≠ [] → otherKey ≠ [] →
    idempotencyKey sha256 keyPrefix one.scope key = idempotencyKey sha256 keyPrefix other.scope otherKey →
      one.scope = other.scope ∧ key = otherKey
  counters : ∀ dimension otherDimension,
    counterKey keyPrefix dimension (one.counted dimension) = counterKey keyPrefix otherDimension (other.counted otherDimension) →
      dimension = otherDimension ∧ one.counted dimension = other.counted otherDimension

def pieces : Text → List Text
  | [] => [[]]
  | c :: t =>
    if c = 58 then [] :: pieces t
    else (c :: (pieces t).headD []) :: (pieces t).tail
def Scope.pieces (scope : Scope) : List Text :=
  ControlKeys.pieces scope.userId ++ ControlKeys.pieces scope.workspaceId ++ ControlKeys.pieces scope.method ++
    ControlKeys.pieces scope.path
def Apart (owner called otherOwner otherCalled : Text) : Prop :=
  (owner = otherOwner ∧ called = otherCalled) ∨ pieces owner ++ pieces called ≠ pieces otherOwner ++ pieces otherCalled
/-- The pieces of the scopes, and those of the owner and what is called, tell the requests apart. -/
structure Distinguished (one other : Request) : Prop where
  scopes : one.scope = other.scope ∨ ¬ (one.scope.pieces <+: other.scope.pieces ∨ other.scope.pieces <+: one.scope.pieces)
  modelUsers : Apart one.scope.userId one.model other.scope.userId other.model
  modelWorkspaces : Apart one.scope.workspaceId one.model other.scope.workspaceId other.model
  toolUsers : Apart one.scope.userId one.toolId other.scope.userId other.toolId
  toolWorkspaces : Apart one.scope.workspaceId one.toolId other.scope.workspaceId other.toolId
def closed (parts : List Text) : Text := parts.flatMap (· ++ [58])
theorem pieces_cons (t : Text) : ∃ first rest, pieces t = first :: rest := by
  cases t with
  | nil => exact ⟨[],[],rfl⟩
  | cons c t =>
    by_cases colon : c = 58
    · exact ⟨[],pieces t,by rw [pieces,if_pos colon]⟩
    · exact ⟨_,_,by rw [pieces,if_neg colon]⟩

theorem closed_pieces (t : Text) : closed (pieces t) = t ++ [58] := by
  induction t with
  | nil => rfl
  | cons c t ih =>
    obtain ⟨first,rest,same⟩ := pieces_cons t
    by_cases colon : c = 58
    · rw [pieces,if_pos colon,colon]
      simp only [closed,flatMap_cons,nil_append,cons_append]
      exact congrArg _ ih
    · rw [pieces,if_neg colon,same]
      rw [same] at ih
      simp only [closed,flatMap_cons,headD_cons,tail_cons,cons_append] at ih ⊢
      rw [ih]

theorem closed_append (parts others : List Text) : closed (parts ++ others) = closed parts ++ closed others :=
  flatMap_append

theorem pieces_plain (t : Text) : ∀ piece ∈ pieces t, 58 ∉ piece := by
  induction t with
  | nil => simp [pieces]
  | cons c t ih =>
    obtain ⟨first,rest,same⟩ := pieces_cons t
    rw [same] at ih
    obtain ⟨plain,others⟩ := forall_mem_cons.mp ih
    by_cases colon : c = 58
    · rw [pieces,if_pos colon,same]
      exact forall_mem_cons.mpr ⟨not_mem_nil,ih⟩
    · rw [pieces,if_neg colon,same]
      refine forall_mem_cons.mpr ⟨?_,others⟩
      rw [headD_cons,mem_cons,not_or]
      exact ⟨Ne.symm colon,plain⟩

theorem before_colon {piece other rest after : Text} (plain : 58 ∉ piece) (also : 58 ∉ other)
    (same : piece ++ 58 :: rest = other ++ 58 :: after) : piece = other ∧ rest = after := by
  induction piece generalizing other with
  | nil =>
    cases other with
    | nil => exact ⟨rfl,(List.cons.inj same).2⟩
    | cons d other => exact absurd ((List.cons.inj same).1 ▸ mem_cons_self) also
  | cons c piece ih =>
    cases other with
    | nil => exact absurd ((List.cons.inj same).1 ▸ mem_cons_self) plain
    | cons d other =>
      obtain ⟨first,later⟩ := List.cons.inj same
      obtain ⟨equal,left⟩ := ih (fun member => plain (mem_cons_of_mem c member))
        (fun member => also (mem_cons_of_mem d member)) later
      exact ⟨by rw [first,equal],left⟩

variable {others parts : List Text}

theorem closed_begins (plain : ∀ piece ∈ parts, 58 ∉ piece) (also : ∀ piece ∈ others, 58 ∉ piece) :
    closed parts <+: closed others ↔ parts <+: others := by
  constructor
  · intro begins
    induction parts generalizing others with
    | nil => exact nil_prefix
    | cons piece parts ih =>
      obtain ⟨rest,same⟩ := begins
      cases others with
      | nil => simp [closed] at same
      | cons other others =>
        have split : piece ++ 58 :: (closed parts ++ rest) = other ++ 58 :: closed others := by
          simpa [closed] using same
        obtain ⟨equal,later⟩ := before_colon (plain piece mem_cons_self) (also other mem_cons_self) split
        have begun := ih (fun one member => plain one (mem_cons_of_mem piece member))
          (fun one member => also one (mem_cons_of_mem other member)) ⟨rest,later⟩
        rw [equal]
        exact cons_prefix_cons.mpr ⟨rfl,begun⟩
  · rintro ⟨rest,rfl⟩
    exact ⟨closed rest,(closed_append parts rest).symm⟩

theorem closed_injective (plain : ∀ piece ∈ parts, 58 ∉ piece) (also : ∀ piece ∈ others, 58 ∉ piece)
    (same : closed parts = closed others) : parts = others := by
  have forth : parts <+: others := (closed_begins plain also).mp (same ▸ prefix_refl _)
  have back : others <+: parts := (closed_begins also plain).mp (same ▸ prefix_refl _)
  exact forth.eq_of_length_le back.length_le
theorem joined_eq (scope : Scope) : scope.joined = closed scope.pieces := by
  simp [Scope.joined,Scope.pieces,closed_append,closed_pieces]
theorem scope_plain (scope : Scope) : ∀ piece ∈ scope.pieces, 58 ∉ piece := by
  simp only [Scope.pieces,forall_mem_append]
  exact ⟨⟨⟨pieces_plain _,pieces_plain _⟩,pieces_plain _⟩,pieces_plain _⟩
theorem joined_begins (scope otherScope : Scope) :
    scope.joined <+: otherScope.joined ↔ scope.pieces <+: otherScope.pieces := by
  rw [joined_eq,joined_eq]
  exact closed_begins (scope_plain scope) (scope_plain otherScope)

variable {keyPrefix : Text} {otherScope scope : Scope} {sha256 : Text → Text}
theorem idempotencyKey_iff (injective : Function.Injective sha256) {key otherKey : Text} :
    idempotencyKey sha256 keyPrefix scope key = idempotencyKey sha256 keyPrefix otherScope otherKey ↔
      scope.joined ++ key = otherScope.joined ++ otherKey := by
  rw [idempotencyKey,idempotencyKey,append_cancel_left_eq]
  exact injective.eq_iff
theorem completes (begins : scope.pieces <+: otherScope.pieces) :
    ∃ rest, scope.joined ++ (rest ++ text "k") = otherScope.joined ++ text "k" := by
  obtain ⟨rest,same⟩ := (joined_begins scope otherScope).mpr begins
  exact ⟨rest,by rw [← append_assoc,same]⟩

theorem records_iff (injective : Function.Injective sha256) :
    (∀ key otherKey, key ≠ [] → otherKey ≠ [] →
      idempotencyKey sha256 keyPrefix scope key = idempotencyKey sha256 keyPrefix otherScope otherKey →
        scope = otherScope ∧ key = otherKey) ↔
      scope = otherScope ∨ ¬ (scope.pieces <+: otherScope.pieces ∨ otherScope.pieces <+: scope.pieces) := by
  simp only [idempotencyKey_iff injective]
  constructor
  · intro apart
    by_contra neither
    obtain ⟨differ,begins⟩ := not_or.mp neither
    rcases not_not.mp begins with begins | begins
    · obtain ⟨rest,same⟩ := completes begins
      exact differ (apart (rest ++ text "k") (text "k") (by simp [text]) (by decide) same).1
    · obtain ⟨rest,same⟩ := completes begins
      exact differ (apart (text "k") (rest ++ text "k") (by decide) (by simp [text]) same.symm).1
  · rintro (rfl | neither) key otherKey - - same
    · exact ⟨rfl,append_cancel_left same⟩
    · have begins : scope.joined <+: otherScope.joined ++ otherKey := same ▸ prefix_append _ _
      rcases prefix_or_prefix_of_prefix begins (prefix_append _ _) with first | first
      · exact absurd (.inl ((joined_begins scope otherScope).mp first)) neither
      · exact absurd (.inr ((joined_begins otherScope scope).mp first)) neither

theorem name_plain (dimension : Dimension) : 58 ∉ dimension.name := by
  cases dimension <;> decide

variable {dimension otherDimension : Dimension}
theorem name_injective (same : dimension.name = otherDimension.name) : dimension = otherDimension := by
  revert same
  cases dimension <;> cases otherDimension <;> decide

theorem counterKey_iff {counted otherCounted : Text × Option Text} :
    counterKey keyPrefix dimension counted = counterKey keyPrefix otherDimension otherCounted ↔
      dimension = otherDimension ∧ identifier counted = identifier otherCounted := by
  constructor
  · intro same
    simp only [counterKey,append_assoc,append_cancel_left_eq] at same
    obtain ⟨name,rest⟩ := before_colon (name_plain dimension) (name_plain otherDimension) same
    exact ⟨name_injective name,rest⟩
  · rintro ⟨rfl,same⟩
    rw [counterKey,counterKey,same]

variable {called otherCalled otherOwner owner : Text}

theorem identifier_iff :
    identifier (owner,some called) = identifier (otherOwner,some otherCalled) ↔
      pieces owner ++ pieces called = pieces otherOwner ++ pieces otherCalled := by
  have closes : ∀ owner called : Text, closed (pieces owner ++ pieces called) = identifier (owner,some called) ++ [58] := by
    intro owner called
    simp [identifier,closed_append,closed_pieces]
  constructor
  · intro same
    refine closed_injective ?_ ?_ (by rw [closes,closes,same])
    · exact forall_mem_append.mpr ⟨pieces_plain owner,pieces_plain called⟩
    · exact forall_mem_append.mpr ⟨pieces_plain otherOwner,pieces_plain otherCalled⟩
  · intro same
    have texts := closes owner called
    rw [same,closes otherOwner otherCalled] at texts
    exact (append_cancel_right texts).symm

theorem apart_iff :
    (identifier (owner,some called) = identifier (otherOwner,some otherCalled) →
      (owner,some called) = (otherOwner,some otherCalled)) ↔ Apart owner called otherOwner otherCalled := by
  rw [identifier_iff,Apart,Prod.mk.injEq,Option.some.injEq]
  tauto

theorem counters_iff {one other : Request} :
    (∀ dimension otherDimension,
      counterKey keyPrefix dimension (one.counted dimension) = counterKey keyPrefix otherDimension (other.counted otherDimension) →
        dimension = otherDimension ∧ one.counted dimension = other.counted otherDimension) ↔
      ∀ dimension, identifier (one.counted dimension) = identifier (other.counted dimension) →
        one.counted dimension = other.counted dimension := by
  constructor
  · intro apart dimension same
    exact (apart dimension dimension (counterKey_iff.mpr ⟨rfl,same⟩)).2
  · intro apart dimension otherDimension same
    obtain ⟨rfl,identifiers⟩ := counterKey_iff.mp same
    exact ⟨rfl,apart dimension identifiers⟩

/-- Two requests have records and counters of their own exactly if the pieces tell them apart. -/
theorem separated_iff {sha256 : Text → Text} (injective : Function.Injective sha256) (keyPrefix : Text) (one other : Request) :
    Separated sha256 keyPrefix one other ↔ Distinguished one other := by
  constructor
  · intro separated
    have counters := counters_iff.mp separated.counters
    exact ⟨(records_iff injective).mp separated.records,apart_iff.mp (counters .modelUser),
      apart_iff.mp (counters .modelWorkspace),apart_iff.mp (counters .toolUser),apart_iff.mp (counters .toolWorkspace)⟩
  · intro distinguished
    refine ⟨(records_iff injective).mpr distinguished.scopes,counters_iff.mpr ?_⟩
    have alone : ∀ owner otherOwner : Text, identifier (owner,none) = identifier (otherOwner,none) →
        (owner,(none : Option Text)) = (otherOwner,none) := by
      intro owner otherOwner same
      exact Prod.ext same rfl
    intro dimension
    cases dimension with
    | user => exact alone _ _
    | userDay => exact alone _ _
    | workspace => exact alone _ _
    | workspaceDay => exact alone _ _
    | ip => exact alone _ _
    | modelUser => exact apart_iff.mpr distinguished.modelUsers
    | modelWorkspace => exact apart_iff.mpr distinguished.modelWorkspaces
    | toolUser => exact apart_iff.mpr distinguished.toolUsers
    | toolWorkspace => exact apart_iff.mpr distinguished.toolWorkspaces

/-- SHA-256, where it is used below. -/
def sampleDigest (t : Text) : Text :=
  if t = text "a:b:c:POST:/v1/conversations:k" then text "47702ed4c979934b369c2f837447fc93d209124be23868323b2e1e48ba4535b1"
  else if t = text "d:e:POST:/v1/conversations:k" then text "af5c9ce98c02e9af1c6654a140910e3566cf5881c69446f19f9e141ff2816f69"
  else 0 :: t

theorem sampleDigest_injective : Function.Injective sampleDigest := by
  intro t u same
  unfold sampleDigest at same
  split_ifs at same with first also _ second _ also
  · rw [first,also]
  · exact absurd same (by decide)
  · exact absurd (List.cons.inj same).1 (by decide)
  · exact absurd same (by decide)
  · rw [second,also]
  · exact absurd (List.cons.inj same).1 (by decide)
  · exact absurd (List.cons.inj same).1 (by decide)
  · exact absurd (List.cons.inj same).1 (by decide)
  · exact (List.cons.inj same).2

/-- A request for a new conversation. -/
def conversationRequest (userId workspaceId : Text) : Request where
  scope := {
    userId
    workspaceId
    method := text "POST"
    path := text "/v1/conversations" }
  ipAddress := text "10.0.0.1"
  model := text "gpt-4o-mini"
  toolId := text "static_validate"

theorem separated_sample :
    Separated sampleDigest (text "strategy-codebot-api") (conversationRequest (text "a:b") (text "c"))
      (conversationRequest (text "d") (text "e")) := by
  refine (separated_iff sampleDigest_injective _ _ _).mpr ⟨.inr ?_,.inr ?_,.inr ?_,.inr ?_,.inr ?_⟩
  · decide
  · decide
  · decide
  · decide
  · decide

/-- The user of one tenant ends where the workspace of another one begins. -/
theorem record_shared : ¬ ∀ sha256 : Text → Text, Function.Injective sha256 → ∀ keyPrefix one other,
    Separated sha256 keyPrefix one other := by
  intro all
  have separated := all sampleDigest sampleDigest_injective (text "strategy-codebot-api")
    (conversationRequest (text "a:b") (text "c")) (conversationRequest (text "a") (text "b:c"))
  have joined : (conversationRequest (text "a:b") (text "c")).scope.joined =
      (conversationRequest (text "a") (text "b:c")).scope.joined := by decide
  have shared := (separated.records (text "k") (text "k") (by decide) (by decide)
    (by rw [idempotencyKey,idempotencyKey,joined])).1
  exact absurd (congrArg Scope.userId shared) (by decide)

end Codebot.ControlKeys
