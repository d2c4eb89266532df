import Codebot.Series
import Mathlib.Data.Prod.Lex
import Mathlib.Data.String.Basic

/-!
`get_conversation_state_snapshot` of the two repositories, on the rows that both have stored. The in-memory repository
takes rows as they were inserted, the SQL repository by `created_at` and by the ids, and it reads the events of a
conversation without the request and trace ids of their runs (`snapshots_agree_iff`).
-/
namespace Codebot.Snapshots
open Series List

structure AuthContext where
  userId : Nat
  workspaceId : Nat
deriving DecidableEq

structure Conversation where
  id : Nat
  ownerUserId : Nat
  workspaceId : Nat
  title : Option String
  createdAt : Nat
  updatedAt : Nat
  deleted : Bool
deriving DecidableEq

structure Message where
  id : Nat
  conversationId : Nat
  ownerUserId : Nat
  workspaceId : Nat
  role : String
  content : String
  createdAt : Nat
deriving DecidableEq

structure AssistantRun where
  id : Nat
  conversationId : Nat
  ownerUserId : Nat
  workspaceId : Nat
  status : String
  createdAt : Nat
  updatedAt : Nat
  mode : Option String
  retryOfRunId : Option Nat
  requestId : Option Nat
  traceId : Option Nat
deriving DecidableEq

/-- `payload` is the JSON text of the payload. -/
structure RunEvent where
  id : Nat
  runId : Nat
  conversationId : Nat
  ownerUserId : Nat
  workspaceId : Nat
  sequence : Nat
  type : String
  payload : Option String
  createdAt : Nat
  requestId : Option Nat
  traceId : Option Nat
deriving DecidableEq

structure Artifact where
  id : Nat
  runId : Option Nat
  conversationId : Option Nat
  ownerUserId : Nat
  workspaceId : Nat
  kind : String
  mimeType : Option String
  displayName : String
  storageKey : String
  metadataJson : Option String
  createdAt : Nat
deriving DecidableEq

structure StrategySpec where
  id : Nat
  runId : Nat
  ownerUserId : Nat
  workspaceId : Nat
  payloadJson : String
  schemaVersion : String
  createdAt : Nat
deriving DecidableEq

/-- The rows of both repositories, as they were inserted. An event has the columns of its run, whose events are numbered
    as they are appended. -/
structure Store where
  conversations : List Conversation
  messages : List Message
  runs : List AssistantRun
  events : List RunEvent
  artifacts : List Artifact
  specs : List StrategySpec
  conversationIds : (conversations.map (·.id)).Nodup
  messageIds : (messages.map (·.id)).Nodup
  runIds : (runs.map (·.id)).Nodup
  eventIds : (events.map (·.id)).Nodup
  artifactIds : (artifacts.map (·.id)).Nodup
  specIds : (specs.map (·.id)).Nodup
  messageOwners : ∀ message ∈ messages, ∀ conversation ∈ conversations, message.conversationId = conversation.id →
    message.ownerUserId = conversation.ownerUserId ∧ message.workspaceId = conversation.workspaceId
  eventRuns : ∀ event ∈ events, ∃ run ∈ runs, event.runId = run.id ∧ event.conversationId = run.conversationId ∧
    event.ownerUserId = run.ownerUserId ∧ event.workspaceId = run.workspaceId ∧ event.requestId = run.requestId ∧
    event.traceId = run.traceId
  sequences : events.Pairwise fun a b => a.runId = b.runId → a.sequence < b.sequence

structure ConversationStateSnapshot where
  conversation : Conversation
  messages : List Message
  messageCount : Nat
  messagesTruncated : Bool
  messageLimit : Nat
  latestRun : Option AssistantRun
  latestRunArtifacts : List Artifact
  conversationArtifacts : List Artifact
  conversationArtifactsNextCursor : Option (Nat × Nat)
  latestRunEvents : List RunEvent
  conversationRunEvents : List RunEvent
  latestStrategySpec : Option StrategySpec
deriving DecidableEq

def Message.order (message : Message) : Nat ×ₗ Nat := toLex (message.createdAt,message.id)
def AssistantRun.order (run : AssistantRun) : Nat ×ₗ Nat ×ₗ Nat :=
  toLex (run.updatedAt,toLex (run.createdAt,run.id))
def Artifact.order (artifact : Artifact) : Nat ×ₗ Nat := toLex (artifact.createdAt,artifact.id)
def Artifact.listOrder (artifact : Artifact) : Nat ×ₗ String ×ₗ Nat :=
  toLex (artifact.createdAt,toLex (artifact.storageKey,artifact.id))
def RunEvent.orderInMemory (event : RunEvent) : Nat ×ₗ Nat ×ₗ Nat ×ₗ Nat :=
  toLex (event.createdAt,toLex (event.runId,toLex (event.sequence,event.id)))
def RunEvent.orderInSql (event : RunEvent) : Nat ×ₗ Nat ×ₗ Nat :=
  toLex (event.createdAt,toLex (event.sequence,event.id))
def StrategySpec.order (spec : StrategySpec) : Nat ×ₗ Nat := toLex (spec.createdAt,spec.id)
def authorized (auth : AuthContext) (ownerUserId workspaceId : Nat) : Bool :=
  ownerUserId == auth.userId && workspaceId == auth.workspaceId
def boundedStateMessageLimit : Option Int → Nat
  | none => 100
  | some messageLimit => (min 500 (max 0 messageLimit)).toNat
def internalArtifactKinds : List String :=
  ["agent_run","harness_evidence_summary","knowledge_context","live_error","live_metadata","live_workflow_trace",
    "quality_report","runtime_trace_summary","backtest_equity_curve","backtest_plan","backtest_run_metadata",
    "backtest_source_bundle","backtest_strategy_adapter_source","backtest_trades","backtest_ohlcv_metadata",
    "candle_cache_manifest","market_data_cache_manifest","market_data_ohlcv_metadata","pineforge_compile_report",
    "pineforge_runner_manifest","pineforge_validation_report","validation_report"]
def isUserVisibleArtifactKind (kind : String) : Bool := !internalArtifactKinds.contains kind
def conversationArtifactStateLimit : Nat := 50
/-- What `encode_artifact_page_cursor` writes into the text of a cursor. -/
def encodeArtifactPageCursor (artifact : Artifact) : Nat × Nat := (artifact.createdAt,artifact.id)
def nextCursor (page shown : List Artifact) : Option (Nat × Nat) :=
  if conversationArtifactStateLimit < page.length then shown.getLast?.map encodeArtifactPageCursor else none
/-- `get_conversation`, where a deleted conversation has left the dict. -/
def getConversation (store : Store) (auth : AuthContext) (conversationId : Nat) : Option Conversation :=
  ((store.conversations.filter fun conversation => !conversation.deleted).find? fun conversation =>
    conversation.id == conversationId).filter fun conversation =>
      authorized auth conversation.ownerUserId conversation.workspaceId
/-- The runs of the conversation and the caller. -/
def runsOf (store : Store) (auth : AuthContext) (conversation : Conversation) : List AssistantRun :=
  store.runs.filter fun run =>
    run.conversationId == conversation.id && authorized auth run.ownerUserId run.workspaceId
/-- `_run_events` of a run. -/
def runEvents (store : Store) (runId : Nat) : List RunEvent := store.events.filter fun event => event.runId == runId

def snapshotInMemory (store : Store) (auth : AuthContext) (conversationId : Nat) (eventLimit : Int)
    (messageLimit : Option Int) : Option ConversationStateSnapshot :=
  match getConversation store auth conversationId with
  | none => none
  | some conversation =>
    let bounded := boundedStateMessageLimit messageLimit
    let allMessages := store.messages.filter fun message => message.conversationId == conversation.id
    let messages := if 0 < bounded then allMessages.rtake bounded else []
    let runs := runsOf store auth conversation
    let latestRun := (ordered AssistantRun.order runs).reverse.head?
    let artifacts := latestRun.elim [] fun run => store.artifacts.filter fun artifact =>
      artifact.runId == some run.id && authorized auth artifact.ownerUserId artifact.workspaceId
    let page := (ordered Artifact.order (store.artifacts.filter fun artifact =>
      artifact.conversationId == some conversation.id && authorized auth artifact.ownerUserId artifact.workspaceId &&
        isUserVisibleArtifactKind artifact.kind)).reverse.take (conversationArtifactStateLimit + 1)
    let events := latestRun.elim [] fun run => runEvents store run.id
    let conversationEvents := ordered RunEvent.orderInMemory (runs.flatMap fun run => runEvents store run.id)
    let latestStrategySpec := latestRun.bind fun run => store.specs.find? fun spec =>
      spec.runId == run.id && authorized auth spec.ownerUserId spec.workspaceId
    some {
      conversation
      messages
      messageCount := allMessages.length
      messagesTruncated := messages.length < allMessages.length
      messageLimit := bounded
      latestRun
      latestRunArtifacts := artifacts
      conversationArtifacts := page.take conversationArtifactStateLimit
      conversationArtifactsNextCursor := nextCursor page (page.take conversationArtifactStateLimit)
      latestRunEvents := if 0 < eventLimit then events.rtake (max eventLimit 0).toNat else []
      conversationRunEvents :=
        if 0 < eventLimit then conversationEvents.rtake (max (max (eventLimit * 4) eventLimit) 0).toNat else []
      latestStrategySpec }

def authorizedConversation (store : Store) (auth : AuthContext) (conversationId : Nat) : Option Conversation :=
  store.conversations.find? fun conversation => conversation.id == conversationId &&
    authorized auth conversation.ownerUserId conversation.workspaceId && !conversation.deleted
/-- `_run_event_record`. The row has no request id and no trace id. -/
def runEventRecord (event : RunEvent) (run : Option AssistantRun) : RunEvent :=
  { event with requestId := run.bind (·.requestId), traceId := run.bind (·.traceId) }

def snapshotInSql (store : Store) (auth : AuthContext) (conversationId : Nat) (eventLimit : Int)
    (messageLimit : Option Int) : Option ConversationStateSnapshot :=
  match authorizedConversation store auth conversationId with
  | none => none
  | some conversation =>
    let bounded := boundedStateMessageLimit messageLimit
    let filtered := store.messages.filter fun message =>
      message.conversationId == conversation.id && authorized auth message.ownerUserId message.workspaceId
    let messages :=
      if 0 < bounded then ((ordered Message.order filtered).reverse.take bounded).reverse else []
    let latestRun := (ordered AssistantRun.order (store.runs.filter fun run =>
      run.conversationId == conversation.id && authorized auth run.ownerUserId run.workspaceId)).reverse.head?
    let page := (ordered Artifact.order (store.artifacts.filter fun artifact =>
      artifact.conversationId == some conversation.id && authorized auth artifact.ownerUserId artifact.workspaceId &&
        !internalArtifactKinds.contains artifact.kind)).reverse.take (conversationArtifactStateLimit + 1)
    let conversationEvents :=
      if 0 < eventLimit then
        ((ordered RunEvent.orderInSql (store.events.filter fun event =>
          event.conversationId == conversation.id && authorized auth event.ownerUserId event.workspaceId)).reverse.take
            (max (eventLimit * 4) eventLimit).toNat).reverse.map (runEventRecord · none)
      else []
    let latestStrategySpec := latestRun.bind fun run => (ordered StrategySpec.order (store.specs.filter fun spec =>
      spec.runId == run.id && authorized auth spec.ownerUserId spec.workspaceId)).reverse.head?
    let artifacts := latestRun.elim [] fun run => ordered Artifact.listOrder (store.artifacts.filter fun artifact =>
      artifact.runId == some run.id && authorized auth artifact.ownerUserId artifact.workspaceId)
    let events := latestRun.elim [] fun run =>
      if 0 < eventLimit then
        ((ordered RunEvent.sequence (store.events.filter fun event =>
          event.runId == run.id && authorized auth event.ownerUserId event.workspaceId)).reverse.take
            eventLimit.toNat).reverse.map (runEventRecord · (some run))
      else []
    some {
      conversation
      messages
      messageCount := filtered.length
      messagesTruncated := messages.length < filtered.length
      messageLimit := bounded
      latestRun
      latestRunArtifacts := artifacts
      conversationArtifacts := page.take conversationArtifactStateLimit
      conversationArtifactsNextCursor := nextCursor page (page.take conversationArtifactStateLimit)
      latestRunEvents := events
      conversationRunEvents := conversationEvents
      latestStrategySpec }

section Parts
variable (store : Store) (auth : AuthContext) (conversation : Conversation)

/-- `_messages` of the conversation. -/
def conversationMessages : List Message := store.messages.filter fun message => message.conversationId == conversation.id
def latestRun : Option AssistantRun := (ordered AssistantRun.order (runsOf store auth conversation)).reverse.head?
def runArtifacts (run : AssistantRun) : List Artifact :=
  store.artifacts.filter fun artifact =>
    artifact.runId == some run.id && authorized auth artifact.ownerUserId artifact.workspaceId
def runSpecs (run : AssistantRun) : List StrategySpec :=
  store.specs.filter fun spec => spec.runId == run.id && authorized auth spec.ownerUserId spec.workspaceId
def conversationEvents : List RunEvent :=
  ordered RunEvent.orderInMemory ((runsOf store auth conversation).flatMap fun run => runEvents store run.id)
def eventWindow (eventLimit : Int) : Nat := (max (eventLimit * 4) eventLimit).toNat

/-- The messages that are shown were inserted by their times after all others, the artifacts of the latest run by their
    times, its newest strategy spec first, and the shown events stand in one order. -/
structure InsertedInOrder (eventLimit : Int) (messageLimit : Option Int) : Prop where
  messages : EndsOrdered Message.order (boundedStateMessageLimit messageLimit) (conversationMessages store conversation)
  artifacts : ∀ run, latestRun store auth conversation = some run → Ascending Artifact.listOrder (runArtifacts store auth run)
  specs : ∀ run, latestRun store auth conversation = some run → ∀ first, (runSpecs store auth run).head? = some first →
    ∀ spec ∈ runSpecs store auth run, spec.order ≤ first.order
  events : 0 < eventLimit →
    EndsOrdered RunEvent.orderInSql (eventWindow eventLimit) (conversationEvents store auth conversation)

/-- No conversation event that is shown has a request id or a trace id. -/
def EventsWithoutIds (eventLimit : Int) : Prop :=
  0 < eventLimit → ∀ event ∈ (conversationEvents store auth conversation).rtake (eventWindow eventLimit),
    event.requestId = none ∧ event.traceId = none

end Parts

def withoutEventIds (snapshot : ConversationStateSnapshot) : ConversationStateSnapshot :=
  { snapshot with conversationRunEvents := snapshot.conversationRunEvents.map (runEventRecord · none) }

variable {store : Store} {auth : AuthContext} {conversationId : Nat} {conversation : Conversation}
  {eventLimit : Int} {messageLimit : Option Int}
theorem distinct_keys {Row Key : Type*} {rows : List Row} {id : Row → Nat} {key : Row → Key} (part : Key → Nat)
    (has : ∀ row, part (key row) = id row) (distinct : (rows.map id).Nodup) : (rows.map key).Nodup := by
  have ids : (rows.map key).map part = rows.map id := by
    rw [map_map]
    exact map_congr_left fun row _ => has row
  exact List.Nodup.of_map part (ids ▸ distinct)
theorem distinct_filter {Row : Type*} {rows : List Row} {id : Row → Nat} (distinct : (rows.map id).Nodup)
    (p : Row → Bool) : ((rows.filter p).map id).Nodup := distinct.sublist (filter_sublist.map id)

theorem same_rows {Row : Type*} {rows xs ys : List Row} {id : Row → Nat} (distinct : (rows.map id).Nodup)
    (isX : ∀ row ∈ xs, row ∈ rows) (isY : ∀ row ∈ ys, row ∈ rows) (ids : xs.map id = ys.map id) : xs = ys := by
  induction xs generalizing ys with
  | nil => exact (map_eq_nil_iff.mp ids.symm).symm
  | cons x xs ih =>
    obtain ⟨y,rest,rfl,same,tail⟩ := map_eq_cons_iff.mp ids.symm
    rw [forall_mem_cons] at isX isY
    rw [ih isX.2 isY.2 tail.symm,inj_on_of_nodup_map distinct isX.1 isY.1 same.symm]

theorem find_iff {Row Key : Type*} {rows : List Row} {id : Row → Key} (wanted : Key) {p : Row → Bool}
    (distinct : (rows.map id).Nodup) (named : ∀ row, p row = true → id row = wanted) {row : Row} :
    rows.find? p = some row ↔ row ∈ rows ∧ p row = true := by
  constructor
  · intro found
    exact ⟨mem_of_find?_eq_some found,find?_some found⟩
  · rintro ⟨listed,holds⟩
    cases found : rows.find? p with
    | none => exact absurd holds (find?_eq_none.mp found row listed)
    | some other =>
      have same := (named other (find?_some found)).trans (named row holds).symm
      rw [inj_on_of_nodup_map distinct (mem_of_find?_eq_some found) listed same]

theorem authorizedConversation_eq :
    authorizedConversation store auth conversationId = getConversation store auth conversationId := by
  apply Option.ext
  intro conversation
  rw [authorizedConversation,getConversation,Option.filter_eq_some_iff,
    find_iff conversationId store.conversationIds (by simp +contextual),
    find_iff conversationId (distinct_filter store.conversationIds _) (by simp),mem_filter]
  simp only [Bool.and_eq_true]
  tauto

theorem getConversation_some (found : getConversation store auth conversationId = some conversation) :
    conversation ∈ store.conversations ∧ authorized auth conversation.ownerUserId conversation.workspaceId = true := by
  obtain ⟨listed,allowed⟩ := Option.filter_eq_some_iff.mp found
  exact ⟨mem_of_mem_filter (mem_of_find?_eq_some listed),allowed⟩

theorem messages_authorized (found : getConversation store auth conversationId = some conversation) :
    (store.messages.filter fun message =>
      message.conversationId == conversation.id && authorized auth message.ownerUserId message.workspaceId) =
      conversationMessages store conversation := by
  obtain ⟨listed,allowed⟩ := getConversation_some found
  apply filter_congr
  intro message isMessage
  by_cases same : message.conversationId = conversation.id
  · obtain ⟨owner,workspace⟩ := store.messageOwners message isMessage conversation listed same
    rw [owner,workspace,allowed,Bool.and_true]
  · simp [same]

variable {run : AssistantRun}
theorem latestRun_some (latest : latestRun store auth conversation = some run) :
    run ∈ runsOf store auth conversation :=
  mem_ordered.mp (mem_reverse.mp (mem_of_mem_head? latest))
theorem mem_runsOf : run ∈ runsOf store auth conversation ↔
    run ∈ store.runs ∧ run.conversationId = conversation.id ∧ authorized auth run.ownerUserId run.workspaceId = true := by
  rw [runsOf,mem_filter,Bool.and_eq_true,beq_iff_eq]

variable {event : RunEvent}
theorem event_columns (isEvent : event ∈ store.events) (isRun : run ∈ store.runs)
    (same : event.runId = run.id) : event.conversationId = run.conversationId ∧ event.ownerUserId = run.ownerUserId ∧
      event.workspaceId = run.workspaceId ∧ event.requestId = run.requestId ∧ event.traceId = run.traceId := by
  obtain ⟨own,isOwn,named,columns⟩ := store.eventRuns event isEvent
  rw [inj_on_of_nodup_map store.runIds isRun isOwn (same.symm.trans named)]
  exact columns

theorem runEvents_ascending (run : AssistantRun) : Ascending RunEvent.sequence (runEvents store run.id) := by
  have listed : (runEvents store run.id).Pairwise fun a b => a.runId = b.runId → a.sequence < b.sequence :=
    store.sequences.filter _
  refine listed.imp_of_mem ?_
  intro a b isA isB follows
  have ofA := (mem_filter.mp isA).2
  have ofB := (mem_filter.mp isB).2
  rw [beq_iff_eq] at ofA ofB
  exact follows (ofA.trans ofB.symm)

theorem events_agree (isRun : run ∈ runsOf store auth conversation) :
    (if 0 < eventLimit then
      ((ordered RunEvent.sequence (store.events.filter fun event =>
        event.runId == run.id && authorized auth event.ownerUserId event.workspaceId)).reverse.take
          eventLimit.toNat).reverse.map (runEventRecord · (some run))
    else []) = if 0 < eventLimit then (runEvents store run.id).rtake (max eventLimit 0).toNat else [] := by
  obtain ⟨listed,_,allowed⟩ := mem_runsOf.mp isRun
  have own : (store.events.filter fun event =>
      event.runId == run.id && authorized auth event.ownerUserId event.workspaceId) = runEvents store run.id := by
    apply filter_congr
    intro event isEvent
    by_cases same : event.runId = run.id
    · obtain ⟨_,owner,workspace,_⟩ := event_columns isEvent listed same
      rw [owner,workspace,allowed,Bool.and_true]
    · simp [same]
  have inOrder : ordered RunEvent.sequence (runEvents store run.id) = runEvents store run.id :=
    (ordered_eq_iff (runEvents_ascending run).times).mpr (runEvents_ascending run)
  have records : ∀ event ∈ (runEvents store run.id).rtake eventLimit.toNat, runEventRecord event (some run) = event := by
    intro event isLast
    obtain ⟨isEvent,same⟩ := mem_filter.mp (mem_of_mem_drop isLast)
    rw [beq_iff_eq] at same
    obtain ⟨_,_,_,request,trace⟩ := event_columns isEvent listed same
    rw [runEventRecord,Option.bind_some,Option.bind_some,← request,← trace]
  split
  · rename_i positive
    rw [own,inOrder,← rtake_eq_reverse_take_reverse,map_congr_left records,map_id',
      max_eq_left (le_of_lt positive)]
  · rfl

theorem conversationEvents_perm : (store.events.filter fun event =>
    event.conversationId == conversation.id && authorized auth event.ownerUserId event.workspaceId).Perm
      (conversationEvents store auth conversation) := by
  have distinct : store.events.Nodup := List.Nodup.of_map _ store.eventIds
  apply List.Perm.trans ?_ (perm_insertionSort _ _).symm
  apply (perm_ext_iff_of_nodup (distinct.filter _) ?_).mpr
  · intro event
    simp only [mem_filter,mem_flatMap,mem_runsOf,runEvents,Bool.and_eq_true,beq_iff_eq]
    constructor
    · rintro ⟨isEvent,ofConversation,allowed⟩
      obtain ⟨run,isRun,named,sameConversation,owner,workspace,_⟩ := store.eventRuns event isEvent
      exact ⟨run,⟨isRun,sameConversation ▸ ofConversation,owner ▸ workspace ▸ allowed⟩,isEvent,named⟩
    · rintro ⟨run,⟨isRun,ofConversation,allowed⟩,isEvent,named⟩
      obtain ⟨sameConversation,owner,workspace,_⟩ := event_columns isEvent isRun named
      exact ⟨isEvent,sameConversation.trans ofConversation,by rw [owner,workspace]; exact allowed⟩
  · rw [nodup_flatMap]
    refine ⟨fun run _ => distinct.filter _,?_⟩
    have runs : ((runsOf store auth conversation).map (·.id)).Nodup := distinct_filter store.runIds _
    rw [List.Nodup,pairwise_map] at runs
    refine runs.imp ?_
    intro a b apart event inA inB
    have ofA := (mem_filter.mp inA).2
    have ofB := (mem_filter.mp inB).2
    rw [beq_iff_eq] at ofA ofB
    exact apart (ofA.symm.trans ofB)

theorem messages_iff (store : Store) (conversation : Conversation) (bounded : Nat) :
    (if 0 < bounded then
      ((ordered Message.order (conversationMessages store conversation)).reverse.take bounded).reverse else []) =
      (if 0 < bounded then (conversationMessages store conversation).rtake bounded else []) ↔
      EndsOrdered Message.order bounded (conversationMessages store conversation) := by
  have distinct : ((conversationMessages store conversation).map Message.order).Nodup :=
    distinct_keys (fun key => (ofLex key).2) (fun _ => rfl) (distinct_filter store.messageIds _)
  rw [← rtake_eq_reverse_take_reverse,← rtake_ordered_iff distinct]
  split
  · rfl
  · rename_i zero
    rw [Nat.eq_zero_of_not_pos zero]
    simp

theorem artifacts_iff (store : Store) (auth : AuthContext) (run : AssistantRun) :
    ordered Artifact.listOrder (runArtifacts store auth run) = runArtifacts store auth run ↔
      Ascending Artifact.listOrder (runArtifacts store auth run) :=
  ordered_eq_iff (distinct_keys (fun key => (ofLex (ofLex key).2).2) (fun _ => rfl) (distinct_filter store.artifactIds _))

theorem specs_iff (store : Store) (auth : AuthContext) (run : AssistantRun) :
    (ordered StrategySpec.order (runSpecs store auth run)).reverse.head? = (runSpecs store auth run).head? ↔
      ∀ first, (runSpecs store auth run).head? = some first → ∀ spec ∈ runSpecs store auth run, spec.order ≤ first.order := by
  have distinct : ((runSpecs store auth run).map StrategySpec.order).Nodup :=
    distinct_keys (fun key => (ofLex key).2) (fun _ => rfl) (distinct_filter store.specIds _)
  have ascending := ordered_ascending distinct
  cases newest : (ordered StrategySpec.order (runSpecs store auth run)).reverse with
  | nil =>
    have none : runSpecs store auth run = [] := by
      apply eq_nil_iff_forall_not_mem.mpr
      intro spec isSpec
      have listed := mem_reverse.mpr (@mem_ordered _ _ _ StrategySpec.order _ _ |>.mpr isSpec)
      rw [newest] at listed
      cases listed
    simp [none]
  | cons last rest =>
    have descending := pairwise_reverse.mpr ascending
    rw [newest] at descending
    have members : ∀ spec, spec ∈ runSpecs store auth run ↔ spec = last ∨ spec ∈ rest := by
      intro spec
      rw [← @mem_ordered _ _ _ StrategySpec.order,← mem_reverse,newest,mem_cons]
    constructor
    · intro same first isFirst spec isSpec
      rw [isFirst] at same
      cases same
      rcases (members spec).mp isSpec with rfl | older
      · exact le_refl _
      · exact (rel_of_pairwise_cons descending older).le
    · intro highest
      cases inserted : runSpecs store auth run with
      | nil =>
        have isLast := (members last).mpr (.inl rfl)
        rw [inserted] at isLast
        cases isLast
      | cons first others =>
        have isFirst : first ∈ runSpecs store auth run := inserted ▸ mem_cons_self
        have bound := highest first (by rw [inserted]; rfl) last ((members last).mpr (.inl rfl))
        rcases (members first).mp isFirst with rfl | older
        · rfl
        · exact absurd bound (not_le_of_gt (rel_of_pairwise_cons descending older))

/-- The conversation events of the SQL snapshot. -/
def eventsInSql (store : Store) (auth : AuthContext) (conversation : Conversation) (eventLimit : Int) : List RunEvent :=
  if 0 < eventLimit then
    ((ordered RunEvent.orderInSql (store.events.filter fun event =>
      event.conversationId == conversation.id && authorized auth event.ownerUserId event.workspaceId)).reverse.take
        (eventWindow eventLimit)).reverse.map (runEventRecord · none)
  else []
/-- The conversation events of the in-memory snapshot. -/
def eventsInMemory (store : Store) (auth : AuthContext) (conversation : Conversation) (eventLimit : Int) : List RunEvent :=
  if 0 < eventLimit then (conversationEvents store auth conversation).rtake (eventWindow eventLimit) else []
theorem eventsInSql_eq : eventsInSql store auth conversation eventLimit = if 0 < eventLimit then
    ((ordered RunEvent.orderInSql (conversationEvents store auth conversation)).rtake (eventWindow eventLimit)).map
      (runEventRecord · none) else [] := by
  have distinct : ((store.events.filter fun event => event.conversationId == conversation.id &&
      authorized auth event.ownerUserId event.workspaceId).map RunEvent.orderInSql).Nodup :=
    distinct_keys (fun key => (ofLex (ofLex key).2).2) (fun _ => rfl) (distinct_filter store.eventIds _)
  rw [eventsInSql,← rtake_eq_reverse_take_reverse,ordered_perm distinct conversationEvents_perm]
theorem conversationEvents_stored (listed : event ∈ conversationEvents store auth conversation) :
    event ∈ store.events := mem_of_mem_filter (conversationEvents_perm.mem_iff.mpr listed)
theorem conversationEvents_distinct : ((conversationEvents store auth conversation).map (·.id)).Nodup :=
  (conversationEvents_perm.map _).nodup_iff.mp (distinct_filter store.eventIds _)
theorem conversationEvents_sql_distinct :
    ((conversationEvents store auth conversation).map RunEvent.orderInSql).Nodup :=
  distinct_keys (fun key => (ofLex (ofLex key).2).2) (fun _ => rfl) conversationEvents_distinct
theorem same_events {xs ys : List RunEvent} (isX : ∀ event ∈ xs, event ∈ store.events)
    (isY : ∀ event ∈ ys, event ∈ store.events)
    (same : xs.map (runEventRecord · none) = ys.map (runEventRecord · none)) : xs = ys := by
  apply same_rows store.eventIds isX isY
  have ids := congrArg (List.map RunEvent.id) same
  simpa [Function.comp_def,runEventRecord] using ids
theorem runEventRecord_eq (event : RunEvent) :
    runEventRecord event none = event ↔ event.requestId = none ∧ event.traceId = none := by
  cases event
  simp [runEventRecord,eq_comm]

theorem events_iff : (eventsInSql store auth conversation eventLimit).map (runEventRecord · none) =
    (eventsInMemory store auth conversation eventLimit).map (runEventRecord · none) ↔
      (0 < eventLimit → EndsOrdered RunEvent.orderInSql (eventWindow eventLimit) (conversationEvents store auth conversation)) := by
  rw [eventsInSql_eq,eventsInMemory]
  by_cases positive : 0 < eventLimit
  · rw [if_pos positive,if_pos positive,map_map]
    simp only [positive,true_imp_iff]
    rw [← rtake_ordered_iff conversationEvents_sql_distinct]
    constructor
    · intro same
      refine @same_events store _ _ ?_ ?_ same
      · intro event isLast
        exact conversationEvents_stored (mem_ordered.mp (mem_of_mem_drop isLast))
      · intro event isLast
        exact conversationEvents_stored (mem_of_mem_drop isLast)
    · intro same
      rw [same]
      rfl
  · simp [positive]

theorem event_records_iff : eventsInSql store auth conversation eventLimit = eventsInMemory store auth conversation eventLimit ↔
    (0 < eventLimit → EndsOrdered RunEvent.orderInSql (eventWindow eventLimit) (conversationEvents store auth conversation)) ∧
      EventsWithoutIds store auth conversation eventLimit := by
  have rows : (0 < eventLimit → EndsOrdered RunEvent.orderInSql (eventWindow eventLimit)
      (conversationEvents store auth conversation)) → eventsInSql store auth conversation eventLimit =
        (eventsInMemory store auth conversation eventLimit).map (runEventRecord · none) := by
    intro inOrder
    rw [eventsInSql_eq,eventsInMemory]
    split
    · rename_i positive
      rw [(rtake_ordered_iff conversationEvents_sql_distinct _).mpr (inOrder positive)]
    · rfl
  have bare : (eventsInMemory store auth conversation eventLimit).map (runEventRecord · none) =
      eventsInMemory store auth conversation eventLimit ↔ EventsWithoutIds store auth conversation eventLimit := by
    unfold eventsInMemory EventsWithoutIds
    by_cases positive : 0 < eventLimit
    · simp only [positive,if_true,true_imp_iff]
      nth_rewrite 2 [← map_id ((conversationEvents store auth conversation).rtake (eventWindow eventLimit))]
      rw [map_inj_left]
      simp only [id_eq,runEventRecord_eq]
    · simp [positive]
  constructor
  · intro same
    have inOrder := events_iff.mp (congrArg (List.map (runEventRecord · none)) same)
    exact ⟨inOrder,bare.mp ((rows inOrder).symm.trans same)⟩
  · rintro ⟨inOrder,withoutIds⟩
    exact (rows inOrder).trans (bare.mpr withoutIds)

/-- A snapshot of the parts that the repositories read in different ways. -/
def snapshot (store : Store) (auth : AuthContext) (conversation : Conversation) (eventLimit : Int)
    (messageLimit : Option Int) (messages : List Message) (artifacts : List Artifact) (events : List RunEvent)
    (spec : Option StrategySpec) : ConversationStateSnapshot :=
  let page := (ordered Artifact.order (store.artifacts.filter fun artifact =>
    artifact.conversationId == some conversation.id && authorized auth artifact.ownerUserId artifact.workspaceId &&
      isUserVisibleArtifactKind artifact.kind)).reverse.take (conversationArtifactStateLimit + 1)
  { conversation
    messages
    messageCount := (conversationMessages store conversation).length
    messagesTruncated := messages.length < (conversationMessages store conversation).length
    messageLimit := boundedStateMessageLimit messageLimit
    latestRun := latestRun store auth conversation
    latestRunArtifacts := artifacts
    conversationArtifacts := page.take conversationArtifactStateLimit
    conversationArtifactsNextCursor := nextCursor page (page.take conversationArtifactStateLimit)
    latestRunEvents := (latestRun store auth conversation).elim [] fun run =>
      if 0 < eventLimit then (runEvents store run.id).rtake (max eventLimit 0).toNat else []
    conversationRunEvents := events
    latestStrategySpec := spec }

def messagesInMemory (store : Store) (conversation : Conversation) (bounded : Nat) : List Message :=
  if 0 < bounded then (conversationMessages store conversation).rtake bounded else []
def messagesInSql (store : Store) (conversation : Conversation) (bounded : Nat) : List Message :=
  if 0 < bounded then
    ((ordered Message.order (conversationMessages store conversation)).reverse.take bounded).reverse
  else []

theorem snapshotInMemory_eq : snapshotInMemory store auth conversationId eventLimit messageLimit =
    (getConversation store auth conversationId).map fun conversation =>
      snapshot store auth conversation eventLimit messageLimit
        (messagesInMemory store conversation (boundedStateMessageLimit messageLimit))
        ((latestRun store auth conversation).elim [] (runArtifacts store auth))
        (eventsInMemory store auth conversation eventLimit)
        ((latestRun store auth conversation).bind fun run => (runSpecs store auth run).head?) := by
  unfold snapshotInMemory
  cases getConversation store auth conversationId with
  | none => rfl
  | some conversation =>
    have window : (max (max (eventLimit * 4) eventLimit) 0).toNat = eventWindow eventLimit := by
      unfold eventWindow
      omega
    have events : (if 0 < eventLimit then ((latestRun store auth conversation).elim [] fun run =>
        runEvents store run.id).rtake (max eventLimit 0).toNat else []) =
          (latestRun store auth conversation).elim [] fun run =>
            if 0 < eventLimit then (runEvents store run.id).rtake (max eventLimit 0).toNat else [] := by
      cases latestRun store auth conversation <;> simp
    simp only [Option.map_some,window,← head?_filter]
    unfold snapshot
    rw [← events]
    rfl

theorem snapshotInSql_eq : snapshotInSql store auth conversationId eventLimit messageLimit =
    (getConversation store auth conversationId).map fun conversation =>
      snapshot store auth conversation eventLimit messageLimit
        (messagesInSql store conversation (boundedStateMessageLimit messageLimit))
        ((latestRun store auth conversation).elim [] fun run => ordered Artifact.listOrder (runArtifacts store auth run))
        (eventsInSql store auth conversation eventLimit)
        ((latestRun store auth conversation).bind fun run =>
          (ordered StrategySpec.order (runSpecs store auth run)).reverse.head?) := by
  unfold snapshotInSql
  rw [authorizedConversation_eq]
  cases found : getConversation store auth conversationId with
  | none => rfl
  | some conversation =>
    simp only [Option.map_some,messages_authorized found]
    have events : ((latestRun store auth conversation).elim [] fun run =>
        if 0 < eventLimit then
          ((ordered RunEvent.sequence (store.events.filter fun event =>
            event.runId == run.id && authorized auth event.ownerUserId event.workspaceId)).reverse.take
              eventLimit.toNat).reverse.map (runEventRecord · (some run))
        else []) = (latestRun store auth conversation).elim [] fun run =>
          if 0 < eventLimit then (runEvents store run.id).rtake (max eventLimit 0).toNat else [] := by
      cases latest : latestRun store auth conversation with
      | none => rfl
      | some run => exact events_agree (latestRun_some latest)
    unfold snapshot
    rw [← events]
    rfl

theorem snapshot_inj {messages others : List Message} {artifacts otherArtifacts : List Artifact}
    {events otherEvents : List RunEvent} {spec otherSpec : Option StrategySpec} :
    snapshot store auth conversation eventLimit messageLimit messages artifacts events spec =
      snapshot store auth conversation eventLimit messageLimit others otherArtifacts otherEvents otherSpec ↔
      messages = others ∧ artifacts = otherArtifacts ∧ events = otherEvents ∧ spec = otherSpec := by
  constructor
  · intro same
    exact ⟨congrArg ConversationStateSnapshot.messages same,congrArg ConversationStateSnapshot.latestRunArtifacts same,
      congrArg ConversationStateSnapshot.conversationRunEvents same,
      congrArg ConversationStateSnapshot.latestStrategySpec same⟩
  · rintro ⟨rfl,rfl,rfl,rfl⟩
    rfl

theorem elim_iff {f g : AssistantRun → List Artifact} {run : Option AssistantRun} :
    run.elim [] f = run.elim [] g ↔ ∀ latest, run = some latest → f latest = g latest := by
  cases run <;> simp
theorem bind_iff {f g : AssistantRun → Option StrategySpec} {run : Option AssistantRun} :
    run.bind f = run.bind g ↔ ∀ latest, run = some latest → f latest = g latest := by
  cases run <;> simp

theorem parts_iff :
    messagesInSql store conversation (boundedStateMessageLimit messageLimit) =
      messagesInMemory store conversation (boundedStateMessageLimit messageLimit) ∧
    ((latestRun store auth conversation).elim [] fun run => ordered Artifact.listOrder (runArtifacts store auth run)) =
      (latestRun store auth conversation).elim [] (runArtifacts store auth) ∧
    (0 < eventLimit → EndsOrdered RunEvent.orderInSql (eventWindow eventLimit) (conversationEvents store auth conversation)) ∧
    ((latestRun store auth conversation).bind fun run => (ordered StrategySpec.order (runSpecs store auth run)).reverse.head?) =
      ((latestRun store auth conversation).bind fun run => (runSpecs store auth run).head?) ↔
      InsertedInOrder store auth conversation eventLimit messageLimit := by
  rw [messagesInSql,messagesInMemory,messages_iff,elim_iff,bind_iff]
  simp only [artifacts_iff,specs_iff]
  exact ⟨fun ⟨messages,artifacts,events,specs⟩ => ⟨messages,artifacts,specs,events⟩,
    fun ⟨messages,artifacts,specs,events⟩ => ⟨messages,artifacts,events,specs⟩⟩

theorem map_eq_iff {α β : Type*} {f g : α → β} {value : Option α} :
    value.map f = value.map g ↔ ∀ a, value = some a → f a = g a := by
  cases value <;> simp

/-- The repositories give the same snapshot exactly if the rows were inserted in order and no shown event has a request
    id or a trace id, and the same but for these ids exactly if the rows were inserted in order. -/
theorem snapshots_agree_iff (store : Store) (auth : AuthContext) (conversationId : Nat) (eventLimit : Int)
    (messageLimit : Option Int) :
    (snapshotInSql store auth conversationId eventLimit messageLimit =
        snapshotInMemory store auth conversationId eventLimit messageLimit ↔
      ∀ conversation, getConversation store auth conversationId = some conversation →
        InsertedInOrder store auth conversation eventLimit messageLimit ∧
          EventsWithoutIds store auth conversation eventLimit) ∧
    ((snapshotInSql store auth conversationId eventLimit messageLimit).map withoutEventIds =
        (snapshotInMemory store auth conversationId eventLimit messageLimit).map withoutEventIds ↔
      ∀ conversation, getConversation store auth conversationId = some conversation →
        InsertedInOrder store auth conversation eventLimit messageLimit) := by
  rw [snapshotInSql_eq,snapshotInMemory_eq]
  constructor
  · rw [map_eq_iff]
    refine forall₂_congr ?_
    intro conversation _
    rw [snapshot_inj,event_records_iff,← parts_iff]
    tauto
  · rw [Option.map_map,Option.map_map,map_eq_iff]
    refine forall₂_congr ?_
    intro conversation _
    rw [← parts_iff,← events_iff]
    exact snapshot_inj

/-- A conversation with one run, which has appended an event and created two strategy specs. -/
def respecified : Store where
  conversations := [⟨1,1,1,none,1,1,false⟩]
  messages := []
  runs := [⟨1,1,1,1,"completed",2,5,none,none,some 1,some 1⟩]
  events := [⟨1,1,1,1,1,1,"run.started",none,2,some 1,some 1⟩]
  artifacts := []
  specs := [⟨1,1,1,1,"first","1.0",3⟩,⟨2,1,1,1,"second","1.0",4⟩]
  conversationIds := by decide
  messageIds := by decide
  runIds := by decide
  eventIds := by decide
  artifactIds := by decide
  specIds := by decide
  messageOwners := by decide
  eventRuns := by decide
  sequences := by decide

/-- The in-memory snapshot has the ids of the run in the event and shows the first spec, the SQL
    snapshot has no ids in the event and shows the second spec. -/
theorem respecified_differs :
    (snapshotInMemory respecified ⟨1,1⟩ 1 30 (some 100)).map (fun snapshot =>
      (snapshot.conversationRunEvents.map (·.requestId),snapshot.latestStrategySpec.map (·.id))) = some ([some 1],some 1) ∧
    (snapshotInSql respecified ⟨1,1⟩ 1 30 (some 100)).map (fun snapshot =>
      (snapshot.conversationRunEvents.map (·.requestId),snapshot.latestStrategySpec.map (·.id))) = some ([none],some 2) ∧
    snapshotInSql respecified ⟨1,1⟩ 1 30 (some 100) ≠ snapshotInMemory respecified ⟨1,1⟩ 1 30 (some 100) := by
  have inMemory : (snapshotInMemory respecified ⟨1,1⟩ 1 30 (some 100)).map (fun snapshot =>
      (snapshot.conversationRunEvents.map (·.requestId),snapshot.latestStrategySpec.map (·.id))) = some ([some 1],some 1) := by
    decide
  have inSql : (snapshotInSql respecified ⟨1,1⟩ 1 30 (some 100)).map (fun snapshot =>
      (snapshot.conversationRunEvents.map (·.requestId),snapshot.latestStrategySpec.map (·.id))) = some ([none],some 2) := by
    decide
  refine ⟨inMemory,inSql,?_⟩
  intro same
  rw [same,inMemory] at inSql
  simp at inSql

end Codebot.Snapshots
