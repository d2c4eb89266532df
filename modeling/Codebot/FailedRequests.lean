import Codebot.Idempotency

/-!
The requests that take an idempotency key. Each endpoint begins with `begin_idempotency` and completes the record
where it answers; every other way out of it leaves the record in flight (`retried_iff`).
-/
namespace Codebot.FailedRequests
open Runs Texts JsonTexts JsonDumps Idempotency

/-- What a call may raise. -/
inductive Exception
  | http (status : Nat) (detail : String)
  | securityControl (statusCode : Nat) (code : String)
  | budgetExceeded
  | providerConfiguration
  | keyError
  | valueError (message : String)
  | other
deriving DecidableEq

/-- `str(exc)`, where it is known. -/
def Exception.text : Exception → String
  | .http _ detail => detail
  | .valueError message => message
  | _ => ""
/-- An error response. The detail of a dictionary is its code or its message. -/
inductive ErrorResponse
  | http (status : Nat) (detail : String)
  | controls (statusCode : Nat) (code : String)
  | provider
  | internal
deriving DecidableEq
def Exception.unhandled : Exception → ErrorResponse
  | .http status detail => .http status detail
  | _ => .internal
/-- `_security_error_response` where a `SecurityControlError` is caught. -/
def Exception.security : Exception → ErrorResponse
  | .securityControl statusCode code => .controls statusCode code
  | .budgetExceeded => .controls 429 "budget_exceeded"
  | exception => exception.unhandled
abbrev Call := Except Exception
inductive ContinuationStatus
  | started
  | failed
  | completed
  | another
deriving DecidableEq
inductive RunMode
  | backtestPreview
  | agent
  | another
deriving DecidableEq

/-- How the calls of a request end. A found record is `true`, a missing one `false`. -/
structure Services where
  getBotProposal : Call Bool
  /-- `bot_required_missing` returns something. -/
  requiredMissing : Call Bool
  appendBotProposalAuditEvent : Call Unit
  requireKnowledgeAdmin : Call Unit
  checkWrite : Call Unit
  getWorkflowTask : Call Bool
  workflowTaskContinuationState : Call Bool
  continuationStatus : Call ContinuationStatus
  workflowContinuationRetryable : Call Bool
  workflowContinuationMaterialized : Call Bool
  ensureConfigured : Call Unit
  /-- The proposal is started and its runtime is there. -/
  existingRuntime : Call Bool
  upsertNautilusRuntime : Call Unit
  appendNautilusRuntimeEvent : Call Bool
  markBotProposalStarted : Call Unit
  recordNautilusRuntimeHeartbeat : Call Bool
  setNautilusRuntimeState : Call Bool
  setNautilusRuntimeDesiredState : Call Bool
  activateNautilusRuntimeKillSwitch : Call Bool
  /-- The call of the knowledge service. -/
  knowledgeLearningService : Call Unit
  createConversation : Call Unit
  getConversation : Call Bool
  listMessages : Call Unit
  requireMessageMode : Call Unit
  createMessage : Call Bool
  /-- The run, and whether it is a backtest preview. -/
  getRun : Call (Option Bool)
  createRun : Call Bool
  createBlockedRunResponse : Call Bool
  validateSchemaPayload : Call Unit
  /-- The policy blocks the strategy. -/
  evaluatePolicy : Call Bool
  requireRunMode : Call Unit
  checkRunStart : Call Unit
  createStrategySpec : Call Unit
  requiredPineforgePine : Call Unit
  /-- The validation does not fail. -/
  validatePineforgePine : Call Bool
  createRunJob : Call Bool
  setRunStatus : Call Unit
  appendRunEvent : Call Unit
  /-- The execution returns a result. -/
  execute : Call Bool
  createFeedback : Call Bool
  /-- The model of the response is built. -/
  build : Call Unit
  /-- The stream of the response ends. -/
  chunks : Call Unit
  /-- `complete_idempotency` reaches its `SET`. -/
  completes : Call Unit
  response : List (Text × Json)
  writable : Writable (.object response)

/-- The endpoints that call `begin_idempotency`, with what they branch on in the request. -/
inductive Endpoint
  | continueWorkflowTask (stream : Bool)
  | confirmStartBotProposal
  | startNautilusRuntime (live : Bool)
  | heartbeatNautilusRuntime
  | appendNautilusRuntimeEvent (heartbeat : Bool)
  | stopNautilusRuntime
  | killSwitchNautilusRuntime
  | createKnowledgeCandidate
  | approveKnowledgeCandidate
  | rejectKnowledgeCandidate
  | autoReviewKnowledgeCandidate
  | autoReviewKnowledgeCandidates
  | extractRunKnowledgeCandidates
  | createConversation
  | createRunnerRun (mode : RunMode)
  | createMessage (stream agent : Bool)
  | createFeedback
  | retryRun
deriving DecidableEq

/-- How an endpoint ends that does not raise. -/
inductive Ending
  /-- `_complete_idempotent_response`: 200, or 201 where something is created. -/
  | complete (created : Bool)
  /-- `_idempotent_sse_stream`. -/
  | stream
  /-- `_security_error_response`. -/
  | failed (error : ErrorResponse)
deriving DecidableEq

def found (call : Call Bool) (status : Nat) (detail : String) : Call Unit := do
  unless ← call do throw (.http status detail)

/-- What an endpoint does before it calls `begin_idempotency`. -/
def before (services : Services) : Endpoint → Call Unit
  | .confirmStartBotProposal => do
    found services.getBotProposal 404 "Bot proposal not found"
    if ← services.requiredMissing then
      services.appendBotProposalAuditEvent
      throw (.http 422 "Bot proposal is missing required inputs")
  | .startNautilusRuntime live => do
    if live then
      throw (.http 403 "Live Nautilus broker execution is disabled until an explicit future approval gate enables it.")
  | .createKnowledgeCandidate => services.requireKnowledgeAdmin
  | .approveKnowledgeCandidate => services.requireKnowledgeAdmin
  | .rejectKnowledgeCandidate => services.requireKnowledgeAdmin
  | .autoReviewKnowledgeCandidate => services.requireKnowledgeAdmin
  | .autoReviewKnowledgeCandidates => services.requireKnowledgeAdmin
  | .extractRunKnowledgeCandidates => services.requireKnowledgeAdmin
  | _ => pure ()

def keyErrorNotFound : Exception → Exception
  | .keyError => .http 404 "Knowledge candidate not found"
  | exception => exception
def valueErrorUnprocessable : Exception → Exception
  | .valueError message => .http 422 message
  | exception => exception

def continueWorkflowTask (services : Services) (stream : Bool) : Call Ending := do
  unless stream do throw (.http 400 "Workflow task continuation requires stream=true")
  found services.getWorkflowTask 404 "Workflow task not found"
  found services.workflowTaskContinuationState 409 "Workflow task is not resumable"
  match ← services.continuationStatus with
  | .started => found services.workflowContinuationRetryable 409 "Workflow continuation already started"
  | .failed => if ← services.workflowContinuationMaterialized then throw (.http 409 "Workflow continuation already started")
  | .completed => if ← services.workflowContinuationMaterialized then throw (.http 409 "Workflow continuation already started")
  | .another => pure ()
  match services.ensureConfigured with
  | .error .providerConfiguration => return .failed .provider
  | .error exception => throw exception
  | .ok () => return .stream

def confirmStartBotProposal (services : Services) : Call Ending := do
  unless ← services.existingRuntime do
    services.upsertNautilusRuntime
    let _ ← services.appendNautilusRuntimeEvent
    services.markBotProposalStarted
    services.appendBotProposalAuditEvent
  services.build
  return .complete false

def startNautilusRuntime (services : Services) : Call Ending := do
  services.upsertNautilusRuntime
  let _ ← services.appendNautilusRuntimeEvent
  services.build
  return .complete true
def heartbeatNautilusRuntime (services : Services) : Call Ending := do
  found services.recordNautilusRuntimeHeartbeat 404 "Runtime not found"
  services.build
  return .complete false

def appendNautilusRuntimeEvent (services : Services) (heartbeat : Bool) : Call Ending := do
  if heartbeat then
    heartbeatNautilusRuntime services
  else
    found services.appendNautilusRuntimeEvent 404 "Runtime not found"
    let _ ← services.setNautilusRuntimeState
    services.build
    return .complete false

def stopNautilusRuntime (services : Services) : Call Ending := do
  found services.setNautilusRuntimeState 404 "Runtime not found"
  found services.setNautilusRuntimeDesiredState 404 "Runtime not found"
  let _ ← services.appendNautilusRuntimeEvent
  services.build
  return .complete false
def killSwitchNautilusRuntime (services : Services) : Call Ending := do
  found services.activateNautilusRuntimeKillSwitch 404 "Runtime not found"
  let _ ← services.appendNautilusRuntimeEvent
  services.build
  return .complete false
/-- The endpoints of one knowledge candidate, with the exceptions that they catch. -/
def knowledgeCandidate (services : Services) (caught : Exception → Exception) (created : Bool) : Call Ending := do
  services.knowledgeLearningService.mapError caught
  services.build
  return .complete created
def extractRunKnowledgeCandidates (services : Services) : Call Ending := do
  found (return (← services.getRun).isSome) 404 "Run not found"
  services.knowledgeLearningService.mapError valueErrorUnprocessable
  services.build
  return .complete false
def createConversation (services : Services) : Call Ending := do
  services.createConversation
  services.build
  return .complete true
def blocked (services : Services) : Call Ending := do
  found services.createBlockedRunResponse 404 "Conversation not found"
  return .complete true
/-- `check_run_start`, a blocked run where the budget is exceeded. -/
def started (services : Services) (run : Call Ending) : Call Ending :=
  match services.checkRunStart with
  | .error .budgetExceeded => blocked services
  | .error (.securityControl statusCode code) => return .failed (.controls statusCode code)
  | .error exception => throw exception
  | .ok () => run

def createRunnerRun (services : Services) (mode : RunMode) : Call Ending := do
  found services.getConversation 404 "Conversation not found"
  services.validateSchemaPayload.mapError fun exception => .http 422 exception.text
  if ← services.evaluatePolicy then
    blocked services
  else
    services.requireRunMode
    match mode with
    | .backtestPreview => started services do
      found services.createRun 404 "Conversation not found"
      services.createStrategySpec
      services.requiredPineforgePine
      found services.validatePineforgePine 422 "pineforge_validation_failed"
      unless ← services.createRunJob do services.setRunStatus
      services.appendRunEvent
      services.build
      return .complete true
    | .agent =>
      match (do services.ensureConfigured; services.execute) with
      | .error .providerConfiguration => return .failed .provider
      | .error (.securityControl statusCode code) => return .failed (.controls statusCode code)
      | .error .budgetExceeded => return .failed (.controls 429 "budget_exceeded")
      | .error exception => throw exception
      | .ok result =>
        found (pure result) 404 "Conversation not found"
        services.build
        return .complete true
    | .another => started services do
      found services.createRun 404 "Conversation not found"
      found services.execute 404 "Conversation not found"
      services.build
      return .complete true

def createMessage (services : Services) (stream agent : Bool) : Call Ending := do
  services.requireMessageMode
  found services.getConversation 404 "Conversation not found"
  services.listMessages
  match if stream && agent then services.ensureConfigured else pure () with
  | .error .providerConfiguration => return .failed .provider
  | .error exception => throw exception
  | .ok () =>
    found services.createMessage 404 "Conversation not found"
    if stream then
      unless agent do found services.createRun 404 "Conversation not found"
      return .stream
    else
      services.build
      return .complete true

def createFeedback (services : Services) : Call Ending := do
  found services.createFeedback 404 "Feedback target not found"
  services.build
  return .complete true

def retryRun (services : Services) : Call Ending := do
  match ← services.getRun with
  | none => throw (.http 404 "Run not found")
  | some true => throw (.http 409 "Retry is not yet supported for backtest-preview runs")
  | some false =>
    found services.createRun 404 "Conversation not found"
    services.build
    return .complete true

/-- What an endpoint does once it goes ahead. -/
def body (services : Services) : Endpoint → Call Ending
  | .continueWorkflowTask stream => continueWorkflowTask services stream
  | .confirmStartBotProposal => confirmStartBotProposal services
  | .startNautilusRuntime _ => startNautilusRuntime services
  | .heartbeatNautilusRuntime => heartbeatNautilusRuntime services
  | .appendNautilusRuntimeEvent heartbeat => appendNautilusRuntimeEvent services heartbeat
  | .stopNautilusRuntime => stopNautilusRuntime services
  | .killSwitchNautilusRuntime => killSwitchNautilusRuntime services
  | .createKnowledgeCandidate => knowledgeCandidate services valueErrorUnprocessable true
  | .approveKnowledgeCandidate => knowledgeCandidate services (valueErrorUnprocessable ∘ keyErrorNotFound) false
  | .rejectKnowledgeCandidate => knowledgeCandidate services keyErrorNotFound false
  | .autoReviewKnowledgeCandidate => knowledgeCandidate services (valueErrorUnprocessable ∘ keyErrorNotFound) false
  | .autoReviewKnowledgeCandidates => knowledgeCandidate services (valueErrorUnprocessable ∘ keyErrorNotFound) false
  | .extractRunKnowledgeCandidates => extractRunKnowledgeCandidates services
  | .createConversation => createConversation services
  | .createRunnerRun mode => createRunnerRun services mode
  | .createMessage stream agent => createMessage services stream agent
  | .createFeedback => createFeedback services
  | .retryRun => retryRun services

/-- A request to an endpoint: its body, and the header `Idempotency-Key`. -/
structure Request where
  endpoint : Endpoint
  body : Body
  key : Option Text
def Request.keyed (redis : Bool) (request : Request) : Bool := redis && request.key.any fun key => key != []
/-- How `begin_idempotency` lets a request go on. -/
inductive Admission
  /-- With a record of its own, or with none. -/
  | goesAhead (own : Bool)
  | replays (record : IdempotencyRecord)
  | refused (error : ErrorResponse)
def inFlightError : ErrorResponse := .controls 409 "idempotency_in_flight"

/-- The value of the key before and after `begin_idempotency`. -/
def beginIdempotency (sha256 : Digest) (redis : Bool) (request : Request) (value : Option Text) : Admission × Option Text :=
  if request.keyed redis then
    match value with
    | none => (.goesAhead true,some (written (pendingRecord (bodyHash sha256 request.body))))
    | some current =>
      match look (bodyHash sha256 request.body) current with
      | .record record => (if record.replay then .replays record else .goesAhead true,value)
      | .conflict => (.refused (.controls 409 "idempotency_conflict"),value)
      | .inFlight => (.refused inFlightError,value)
      | .unavailable => (.refused (.controls 503 "security_controls_unavailable"),value)
      | .raised => (.refused .internal,value)
  else (.goesAhead false,value)

inductive Response
  | success (statusCode : Int)
  | replayed (record : IdempotencyRecord)
  | error (error : ErrorResponse)
  /-- The stream breaks off after its headers. -/
  | broken
def successCode (created : Bool) : Int := if created then 201 else 200
theorem successCode_writable (created : Bool) : Writable (.integer (successCode created)) := by
  cases created
  · exact (by decide : (natText 200).length ≤ maxDigits)
  · exact (by decide : (natText 201).length ≤ maxDigits)

/-- `complete_idempotency`, and the response; `raised` is what becomes of an exception. -/
def finish (services : Services) (own created : Bool) (raised : Exception → Response) (value : Option Text) :
    Response × Option Text :=
  if own then
    match services.completes with
    | .error exception => (raised exception,value)
    | .ok () =>
      let answer : Answer := ⟨successCode created,services.response,successCode_writable created,services.writable⟩
      (.success (successCode created),some (written (completedRecord (keptHash value) answer)))
  else (.success (successCode created),value)

/-- An endpoint that goes ahead. -/
def goOn (services : Services) (endpoint : Endpoint) (own : Bool) (value : Option Text) : Response × Option Text :=
  match FailedRequests.body services endpoint with
  | .error exception => (.error exception.unhandled,value)
  | .ok (.failed error) => (.error error,value)
  | .ok (.complete created) => finish services own created (fun exception => .error exception.unhandled) value
  | .ok .stream =>
    match services.chunks with
    | .error _ => (.broken,value)
    | .ok () => finish services own false (fun _ => .broken) value

/-- A request, with the value of its key before and after it. -/
def handle (sha256 : Digest) (redis : Bool) (request : Request) (services : Services) (value : Option Text) :
    Response × Option Text :=
  match FailedRequests.before services request.endpoint with
  | .error exception => (.error exception.unhandled,value)
  | .ok () =>
    match services.checkWrite with
    | .error exception => (.error exception.security,value)
    | .ok () =>
      match (beginIdempotency sha256 redis request value).1 with
      | .goesAhead own => goOn services request.endpoint own (beginIdempotency sha256 redis request value).2
      | .replays record => (.replayed record,value)
      | .refused error => (.error error,value)

/-- What happens to the key of a scope: a request with it, or its record expires. -/
inductive Event
  | request (request : Request) (services : Services)
  | expire
def serve (sha256 : Digest) (redis : Bool) (value : Option Text) : Event → Option (Option Text)
  | .request request services => some (handle sha256 redis request services value).2
  | .expire => some none
/-- The checks before `begin_idempotency` pass. -/
def Admits (request : Request) (services : Services) : Prop :=
  FailedRequests.before services request.endpoint = .ok () ∧ services.checkWrite = .ok ()
def GoesAhead (sha256 : Digest) (redis : Bool) (request : Request) (value : Option Text) : Prop :=
  ∃ own, (beginIdempotency sha256 redis request value).1 = .goesAhead own
/-- A retry is processed again, or receives the same error; it is not rejected as in flight. -/
def Retried (sha256 : Digest) (redis : Bool) (request : Request) (services : Services) (value : Option Text)
    (error : ErrorResponse) : Prop :=
  GoesAhead sha256 redis request value ∨
    ((handle sha256 redis request services value).1 = .error error ∧ error ≠ inFlightError)
/-- The values that requests leave behind. -/
inductive Kept (sha256 : Digest) : Option Text → Prop
  | absent : Kept sha256 none
  | pending (body : Body) : Kept sha256 (some (written (pendingRecord (bodyHash sha256 body))))
  | completed (body : Body) (answer : Answer) :
    Kept sha256 (some (written (completedRecord (some (bodyHash sha256 body)) answer)))

variable {sha256 : Digest} {redis : Bool} {request : Request} {services : Services} {value next : Option Text}

theorem begin_own (kept : Kept sha256 value) (keyed : request.keyed redis = true) (goes : GoesAhead sha256 redis request value) :
    beginIdempotency sha256 redis request value = (.goesAhead true,some (written (pendingRecord (bodyHash sha256 request.body)))) := by
  obtain ⟨own,goes⟩ := goes
  simp only [beginIdempotency,keyed,if_true] at goes ⊢
  cases kept with
  | absent => rfl
  | pending body =>
    simp only [look_pending (hash_ascii body)] at goes
    split_ifs at goes
  | completed body answer =>
    simp only [look_completed (hash_ascii body)] at goes
    split_ifs at goes
    cases goes

theorem begin_unkeyed (unkeyed : request.keyed redis = false) (value : Option Text) :
    beginIdempotency sha256 redis request value = (.goesAhead false,value) := by
  simp [beginIdempotency,unkeyed]
theorem begin_pending (keyed : request.keyed redis = true) :
    beginIdempotency sha256 redis request (some (written (pendingRecord (bodyHash sha256 request.body)))) =
      (.refused inFlightError,some (written (pendingRecord (bodyHash sha256 request.body)))) := by
  simp only [beginIdempotency,keyed,if_true,look_pending (hash_ascii request.body)]
theorem begin_absent (keyed : request.keyed redis = true) : GoesAhead sha256 redis request none := by
  exact ⟨true,by simp only [beginIdempotency,keyed,if_true]⟩

variable {own : Bool}
theorem handle_goes (admits : Admits request services) (goes : beginIdempotency sha256 redis request value = (.goesAhead own,next)) :
    handle sha256 redis request services value = goOn services request.endpoint own next := by
  simp only [handle,admits.1,admits.2,goes]
theorem handle_refused (admits : Admits request services) {error : ErrorResponse}
    (refused : beginIdempotency sha256 redis request value = (.refused error,next)) :
    handle sha256 redis request services value = (.error error,value) := by
  simp only [handle,admits.1,admits.2,refused]

variable {created : Bool} {raised : Exception → Response}

/-- `complete_idempotency` leaves the record in flight, or it completes it and the request succeeds. -/
theorem finish_left :
    (finish services own created raised value).2 = value ∨
      (finish services own created raised value).1 = .success (successCode created) := by
  unfold finish
  split_ifs
  · cases services.completes with
    | error exception => exact .inl rfl
    | ok done => exact .inr rfl
  · exact .inl rfl

variable {endpoint : Endpoint}

theorem goOn_error {error : ErrorResponse}
    (failed : (goOn services endpoint own value).1 = .error error) : (goOn services endpoint own value).2 = value := by
  unfold goOn at failed ⊢
  cases ended : FailedRequests.body services endpoint with
  | error exception => rfl
  | ok ending =>
    rw [ended] at failed
    cases ending with
    | failed error => rfl
    | complete created =>
      refine finish_left.resolve_right fun success => ?_
      exact nomatch success.symm.trans failed
    | stream =>
      cases chunks : services.chunks with
      | error exception => rfl
      | ok done =>
        simp only [chunks] at failed ⊢
        refine finish_left.resolve_right fun success => ?_
        exact nomatch success.symm.trans failed

theorem finish_kept (kept : Kept sha256 value)
    (set : own = true → ∃ body, value = some (written (pendingRecord (bodyHash sha256 body)))) :
    Kept sha256 (finish services own created raised value).2 := by
  unfold finish
  split_ifs with isOwn
  · obtain ⟨body,rfl⟩ := set isOwn
    cases services.completes with
    | error exception => exact .pending body
    | ok done =>
      dsimp only
      rw [keptHash_pending (hash_ascii body)]
      exact .completed body _
  · exact kept

theorem goOn_kept (kept : Kept sha256 value)
    (set : own = true → ∃ body, value = some (written (pendingRecord (bodyHash sha256 body)))) :
    Kept sha256 (goOn services endpoint own value).2 := by
  unfold goOn
  cases FailedRequests.body services endpoint with
  | error exception => exact kept
  | ok ending =>
    cases ending with
    | failed error => exact kept
    | complete created => exact finish_kept kept set
    | stream =>
      cases services.chunks with
      | error exception => exact kept
      | ok done => exact finish_kept kept set

theorem kept_handle (kept : Kept sha256 value) : Kept sha256 (handle sha256 redis request services value).2 := by
  unfold handle
  cases FailedRequests.before services request.endpoint with
  | error exception => exact kept
  | ok done =>
    cases services.checkWrite with
    | error exception => exact kept
    | ok done =>
      dsimp only
      cases goes : (beginIdempotency sha256 redis request value).1 with
      | replays record => exact kept
      | refused error => exact kept
      | goesAhead own =>
        by_cases keyed : request.keyed redis = true
        · rw [begin_own kept keyed ⟨own,goes⟩]
          exact goOn_kept (.pending _) fun _ => ⟨_,rfl⟩
        · have admitted := @begin_unkeyed sha256 redis request (Bool.not_eq_true _ ▸ keyed) value
          rw [admitted] at goes ⊢
          cases goes
          exact goOn_kept kept fun isOwn => absurd isOwn Bool.false_ne_true

theorem kept_history {history : List Event} (ran : run (serve sha256 redis) none history = some value) : Kept sha256 value := by
  have keeps : ∀ value event next, Kept sha256 value → (fun _ _ => True : Option Text → Event → Prop) value event →
      serve sha256 redis value event = some next → Kept sha256 next := by
    intro value event next kept _ served
    cases event with
    | request request services =>
      cases served
      exact kept_handle kept
    | expire =>
      cases served
      exact .absent
  exact run_keeps keeps .absent (meets_true _ history) ran

/-- After a request that ends in an error, each retry is processed again or receives the same error exactly if the key
    is not recorded, or its record has expired. -/
theorem retried_iff {sha256 : Digest} {redis : Bool} {history : List Event} {value : Option Text}
    (ran : run (serve sha256 redis) none history = some value) {request : Request} {services : Services} {error : ErrorResponse}
    (admits : Admits request services) (goes : GoesAhead sha256 redis request value)
    (failed : (handle sha256 redis request services value).1 = .error error) (expired : Bool) :
    (∀ again, Admits request again →
        Retried sha256 redis request again (if expired then none else (handle sha256 redis request services value).2) error) ↔
      request.keyed redis = false ∨ expired = true := by
  have kept := kept_history ran
  constructor
  · intro retried
    by_contra neither
    obtain ⟨recorded,lasting⟩ := not_or.mp neither
    have keyed : request.keyed redis = true := Bool.not_eq_false _ ▸ recorded
    have admitted := begin_own kept keyed goes
    have left : (handle sha256 redis request services value).2 = some (written (pendingRecord (bodyHash sha256 request.body))) := by
      rw [handle_goes admits admitted] at failed ⊢
      exact goOn_error failed
    have again := retried services admits
    rw [if_neg lasting,left] at again
    rcases again with ⟨own,ahead⟩ | ⟨same,differs⟩
    · rw [begin_pending keyed] at ahead
      cases ahead
    · rw [handle_refused admits (begin_pending keyed)] at same
      cases same
      exact differs rfl
  · rintro free again -
    left
    by_cases keyed : request.keyed redis = true
    · rcases free with unkeyed | isExpired
      · rw [keyed] at unkeyed
        cases unkeyed
      · rw [if_pos isExpired]
        exact begin_absent keyed
    · exact ⟨false,by rw [begin_unkeyed (Bool.not_eq_true _ ▸ keyed)]⟩

/-- Every call finds what it looks for, and nothing is blocked. -/
def finds : Services where
  getBotProposal := .ok true
  requiredMissing := .ok false
  appendBotProposalAuditEvent := .ok ()
  requireKnowledgeAdmin := .ok ()
  checkWrite := .ok ()
  getWorkflowTask := .ok true
  workflowTaskContinuationState := .ok true
  continuationStatus := .ok .another
  workflowContinuationRetryable := .ok true
  workflowContinuationMaterialized := .ok false
  ensureConfigured := .ok ()
  existingRuntime := .ok false
  upsertNautilusRuntime := .ok ()
  appendNautilusRuntimeEvent := .ok true
  markBotProposalStarted := .ok ()
  recordNautilusRuntimeHeartbeat := .ok true
  setNautilusRuntimeState := .ok true
  setNautilusRuntimeDesiredState := .ok true
  activateNautilusRuntimeKillSwitch := .ok true
  knowledgeLearningService := .ok ()
  createConversation := .ok ()
  getConversation := .ok true
  listMessages := .ok ()
  requireMessageMode := .ok ()
  createMessage := .ok true
  getRun := .ok (some false)
  createRun := .ok true
  createBlockedRunResponse := .ok true
  validateSchemaPayload := .ok ()
  evaluatePolicy := .ok false
  requireRunMode := .ok ()
  checkRunStart := .ok ()
  createStrategySpec := .ok ()
  requiredPineforgePine := .ok ()
  validatePineforgePine := .ok true
  createRunJob := .ok true
  setRunStatus := .ok ()
  appendRunEvent := .ok ()
  execute := .ok true
  createFeedback := .ok true
  build := .ok ()
  chunks := .ok ()
  completes := .ok ()
  response := []
  writable := empty_writable

def sampleRequest : Request := ⟨.retryRun,emptyBody,some (text "key")⟩
def noRun : Services := { finds with getRun := .ok none }
theorem noRun_fails : (handle sampleDigest true sampleRequest noRun none).1 = .error (.http 404 "Run not found") := rfl
theorem retried_iff_sample : (∀ again, Admits sampleRequest again →
    Retried sampleDigest true sampleRequest again
      (if false then none else (handle sampleDigest true sampleRequest noRun none).2) (.http 404 "Run not found")) ↔
      sampleRequest.keyed true = false ∨ false = true :=
  retried_iff (run_nil none) ⟨rfl,rfl⟩ (begin_absent rfl) noRun_fails false

/-- The run is not found, and the retry is told that the request is still in flight. -/
theorem retry_rejected : ¬ ∀ (sha256 : Digest) (request : Request) (services : Services) (error : ErrorResponse),
    Admits request services → GoesAhead sha256 true request none →
      (handle sha256 true request services none).1 = .error error →
        Retried sha256 true request services (handle sha256 true request services none).2 error := by
  intro all
  have left : (handle sampleDigest true sampleRequest noRun none).2 =
      some (written (pendingRecord (bodyHash sampleDigest sampleRequest.body))) := rfl
  have refused := @begin_pending sampleDigest true sampleRequest rfl
  have retried := all sampleDigest sampleRequest noRun _ ⟨rfl,rfl⟩ (begin_absent rfl) noRun_fails
  rw [left] at retried
  rcases retried with ⟨own,ahead⟩ | ⟨same,_⟩
  · rw [refused] at ahead
    cases ahead
  · rw [handle_refused ⟨rfl,rfl⟩ refused] at same
    cases same

end Codebot.FailedRequests
