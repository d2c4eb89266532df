import Codebot.Fallbacks
import Codebot.JsonDumps

/-!
The stream of a client that is routed by a registry. The routes of a tier and stage are tried in turn, the next one
only if the error is fallbackable and the route has yielded nothing but keep-alives.

The clients are functions of the position that may fail in any way; a stream is a list of events and perhaps a
failure after them, and under a hard time limit the waits on its queue are a list that ends where the time does.
-/
namespace Codebot.RoutedStreams
open Texts JsonTexts Fallbacks List

inductive LLMEventType
  | messageDelta
  | sources
  | toolCall
  | usage
  | keepalive
  | route
  | other (name : Text)

structure LLMClientEvent where
  type : LLMEventType
  text : Option Text := none
  toolName : Option Text := none
  arguments : Option (List (Text × Json)) := none
  model : Option Text := none
  inputTokens : Int := 0
  outputTokens : Int := 0

def LLMClientEvent.isKeepalive (event : LLMClientEvent) : Bool := event.type matches .keepalive
/-- An exception: whether it is a `ProviderConfigurationError`, a `ProviderTimeoutError` or a `TimeoutError`,
    the name of its class, its `status_code` and its text. -/
structure Raised where
  provider : Bool
  typeName : Text
  statusCode : Option Int := none
  message : Text
def retryable (statusCode : Int) : Bool := [408,409,429,500,502,503,504].contains statusCode

/-- `_is_fallbackable_provider_error`. -/
def isFallbackable (unicode : Unicode) (raised : Raised) : Bool :=
  if raised.provider then true
  else if [text "RateLimitError",text "APIConnectionError",text "APITimeoutError",text "APIStatusError",
      text "InternalServerError"].contains raised.typeName then
    raised.statusCode.all retryable
  else if raised.typeName == text "APIError" then
    match raised.statusCode with
    | some statusCode => retryable statusCode
    | none =>
      [text "quota",text "rate limit",text "rate-limit",text "429",text "temporarily unavailable"].any fun token =>
        contains token (unicode.lower raised.message)
  else raised.statusCode.any retryable

def configurationError (message : Text) : Raised := { provider := true,typeName := text "ProviderConfigurationError",message }
/-- The client of a route: its model, what `ensure_configured` raises, and its stream. -/
structure RouteClient where
  model : Text
  configuration : Option Raised := none
  events : List LLMClientEvent
  failure : Option Raised := none
/-- An entry of `fallback_attempts`. -/
structure RouteFailure where
  providerRoute : Text
  error : Text
  message : Text
def RouteFailure.json (failure : RouteFailure) : Json :=
  .object [(text "provider_route",.text failure.providerRoute),(text "error",.text failure.error),(text "message",.text failure.message)]

structure RoutePayload where
  modelTier : Text
  modelStage : Text
  providerRoute : Text
  provider : Text
  model : Text
  fallbackUsed : Bool
  attemptCount : Nat
  fallbackAttempts : List RouteFailure

def RoutePayload.arguments (payload : RoutePayload) : List (Text × Json) :=
  [(text "model_tier",.text payload.modelTier),
    (text "model_stage",.text payload.modelStage),
    (text "provider_route",.text payload.providerRoute),
    (text "provider",.text payload.provider),
    (text "model",.text payload.model),
    (text "fallback_used",.bool payload.fallbackUsed),
    (text "attempt_count",.integer payload.attemptCount),
    (text "fallback_attempts",.array (payload.fallbackAttempts.map RouteFailure.json))]

def setDefault (key : Text) (value : Json) (entries : List (Text × Json)) : List (Text × Json) :=
  if (entries.lookup key).isSome then entries else entries ++ [(key,value)]

def withRouteMetadata (payload : RoutePayload) (event : LLMClientEvent) : LLMClientEvent :=
  let model := some ((event.model.filter fun given : Text => !given.isEmpty).getD payload.model)
  match event.type with
  | .toolCall => { event with model }
  | _ =>
    let arguments := setDefault (text "attempt_count") (.integer payload.attemptCount)
      (setDefault (text "fallback_used") (.bool payload.fallbackUsed)
        (setDefault (text "provider_route") (.text payload.providerRoute)
          (setDefault (text "model_stage") (.text payload.modelStage)
            (setDefault (text "model_tier") (.text payload.modelTier) (event.arguments.getD [])))))
    { event with
      arguments := if arguments.isEmpty then event.arguments else some arguments
      model }

/-- `_split_route`, where it does not raise. -/
def splitRoute (route : Text) : Option (Text × Text) :=
  let provider := route.takeWhile (· != '/'.toNat)
  match route.dropWhile (· != '/'.toNat) with
  | _ :: model => if provider.isEmpty || model.isEmpty then none else some (provider,model)
  | [] => none
def modelRouteUnavailable (route : Text) : Raised :=
  { provider := true,typeName := text "ModelRouteUnavailable",message := text "Invalid model route: " ++ route }

/-- The routing context of a call, with how a time is written, and the waits on the queue under a hard time limit. -/
structure Context (Seconds : Type) where
  tier : Text
  stage : Text
  routeTimeoutSeconds : Option Seconds
  hardRouteTimeout : Bool
  threeDecimals : Seconds → Text
  json : Seconds → Json
  waits : Nat → List (Option Int)

/-- `RegistryRoutedLLMClient`, with the clients that its factory makes or fails to make. -/
structure RegistryRoutedLLMClient (Seconds : Type) where
  clientFactory : Nat → Text → Option Seconds → Except Raised RouteClient
  acceptsTimeoutSeconds : Bool
  unicode : Unicode
  repr : List RouteFailure → Text

variable {Seconds : Type}
/-- The event that `_stream_with_hard_route_timeout` yields when the queue stays empty. -/
def keepalive (context : Context Seconds) (timeoutSeconds : Seconds) (client : RouteClient) (elapsedMs : Int) : LLMClientEvent :=
  { type := .keepalive
    arguments := some [(text "elapsed_ms",.integer elapsedMs),(text "timeout_seconds",context.json timeoutSeconds)]
    model := some client.model }

/-- `_stream_with_hard_route_timeout`: the events from the queue, and what is raised after them. -/
def streamWithHardRouteTimeout (context : Context Seconds) (timeoutSeconds : Seconds) (client : RouteClient) :
    List (Option Int) → List LLMClientEvent → List LLMClientEvent × Option Raised
  | [], _ =>
    ([],some { provider := true,typeName := text "ProviderTimeoutError",
               message := text "Provider route timed out after " ++ context.threeDecimals timeoutSeconds ++ text "s" })
  | some elapsedMs :: waits, events =>
    let later := streamWithHardRouteTimeout context timeoutSeconds client waits events
    (keepalive context timeoutSeconds client elapsedMs :: later.1,later.2)
  | none :: waits, event :: events =>
    let later := streamWithHardRouteTimeout context timeoutSeconds client waits events
    (event :: later.1,later.2)
  | none :: _, [] => ([],client.failure)

/-- What is received of the stream of a client. -/
def received (context : Context Seconds) (index : Nat) (client : RouteClient) : List LLMClientEvent × Option Raised :=
  match context.routeTimeoutSeconds with
  | some timeoutSeconds =>
    if context.hardRouteTimeout then
      streamWithHardRouteTimeout context timeoutSeconds client (context.waits index) client.events
    else (client.events,client.failure)
  | none => (client.events,client.failure)

section Router
variable (router : RegistryRoutedLLMClient Seconds) (context : Context Seconds)

/-- `_create_route_client`, and `ensure_configured` of the client. -/
def createRouteClient (index : Nat) (route : Text) : Except Raised RouteClient :=
  let timeoutSeconds := if router.acceptsTimeoutSeconds then context.routeTimeoutSeconds else none
  match router.clientFactory index route timeoutSeconds with
  | .error raised => .error raised
  | .ok client =>
    match client.configuration with
    | some raised => .error raised
    | none => .ok client

def routeFailed (route : Text) (raised : Raised) : RouteFailure := ⟨route,raised.typeName,raised.message⟩

def routePayload (index : Nat) (failures : List RouteFailure) (route provider : Text) (client : RouteClient) : RoutePayload where
  modelTier := context.tier
  modelStage := context.stage
  providerRoute := route
  provider
  model := client.model
  fallbackUsed := 0 < index
  attemptCount := index + 1
  fallbackAttempts := failures

def routeEvent (payload : RoutePayload) : LLMClientEvent :=
  { type := .route,arguments := some payload.arguments,model := some payload.model }

/-- The body of the loop over the routes. -/
def tryRoute (index : Nat) (failures : List RouteFailure) (route : Text) : Attempt LLMClientEvent Raised RouteFailure :=
  match createRouteClient router context index route with
  | .error raised => ⟨[],if isFallbackable router.unicode raised then .gaveUp (routeFailed route raised) else .raised raised⟩
  | .ok client =>
    match splitRoute route with
    | none => ⟨[],.raised (modelRouteUnavailable route)⟩
    | some (provider,_) =>
      let payload := routePayload context index failures route provider client
      let stream := received context index client
      let emittedProviderContent := stream.1.any fun event => !event.isKeepalive
      ⟨routeEvent payload :: stream.1.map (withRouteMetadata payload),
        match stream.2 with
        | none => .done
        | some raised =>
          if emittedProviderContent || !isFallbackable router.unicode raised then .raised raised
          else .gaveUp (routeFailed route raised)⟩

/-- ` for tier=… stage=…`. -/
def forTier : Text := text " for tier=" ++ context.tier ++ text " stage=" ++ context.stage

/-- `stream` over the routes that the registry has: the events that are yielded, and what is raised after
    them. -/
def stream (routes : List Text) : List LLMClientEvent × Option Raised :=
  match routes with
  | [] => ([],some (configurationError (text "No model routes configured" ++ forTier context)))
  | routes =>
    run (tryRoute router context)
      (fun failures => configurationError (text "All model routes failed" ++ forTier context ++ text ": " ++ router.repr failures))
      0 [] routes

/-- What the client of a route yields, if it is streamed from. -/
def routeEvents (index : Nat) (route : Text) : List LLMClientEvent :=
  match createRouteClient router context index route, splitRoute route with
  | .ok client, some _ => (received context index client).1
  | _, _ => []
/-- The error in which a route fails. -/
def routeError (index : Nat) (route : Text) : Option Raised :=
  match createRouteClient router context index route with
  | .error raised => some raised
  | .ok client => if (splitRoute route).isSome then (received context index client).2 else some (modelRouteUnavailable route)
/-- The routes that `stream` tries. -/
def tries (routes : List Text) : List (Tried Text LLMClientEvent Raised RouteFailure) := tried (tryRoute router context) 0 [] routes

end Router

def isContent (event : LLMClientEvent) : Bool :=
  match event.type with
  | .keepalive => false
  | .route => false
  | _ => true
def reported (event : LLMClientEvent) : Option Json := event.arguments.bind fun arguments => arguments.lookup (text "attempt_count")

section Claims
variable (router : RegistryRoutedLLMClient Seconds) (context : Context Seconds) (routes : List Text)

/-- The routes are tried in order, each with its position, and a later one only after one that yields no content fails
    with a fallbackable error; the content is that of the last one tried. -/
structure Unmixed : Prop where
  events : (stream router context routes).1 = (tries router context routes).flatMap (·.items)
  order : (tries router context routes).map (·.candidate) = routes.take (tries router context routes).length
  positions : (tries router context routes).map (·.index) = List.range (tries router context routes).length
  single : (stream router context routes).1.filter isContent =
    ((tries router context routes).getLast?.toList.flatMap (·.items)).filter isContent
  onward : ∀ this ∈ (tries router context routes).dropLast,
    (∀ event ∈ routeEvents router context this.index this.candidate, event.isKeepalive = true) ∧
      ∃ raised, routeError router context this.index this.candidate = some raised ∧ isFallbackable router.unicode raised = true

def LastFails : Prop :=
  ∃ last, (tries router context routes).getLast? = some last ∧ (routeError router context last.index last.candidate).isSome
/-- Every attempt count that is reported is the position of the route, and the stream raises exactly if the
    last route that is tried fails. -/
structure CountedAlways : Prop extends Unmixed router context routes where
  counts : ∀ this ∈ tries router context routes, ∀ event ∈ this.items, ∀ count,
    reported event = some count → count = .integer (this.index + 1)
  raises : (stream router context routes).2.isSome ↔ LastFails router context routes

/-- What a try of a route yields: its announcement and the events of its client. Those without an attempt count of their
    own, tool calls apart, report the position. -/
structure Counted (index : Nat) (route : Text) (items : List LLMClientEvent) : Prop where
  yielded : items = [] ∨ ∃ payload : RoutePayload, payload.providerRoute = route ∧
    reported (routeEvent payload) = some (.integer (index + 1)) ∧
    items = routeEvent payload :: (routeEvents router context index route).map (withRouteMetadata payload) ∧
    ∀ event : LLMClientEvent, if event.type matches .toolCall then (withRouteMetadata payload event).arguments = event.arguments
      else reported (withRouteMetadata payload event) = some ((reported event).getD (.integer (index + 1)))

end Claims

theorem lookup_setDefault_same (key : Text) (value : Json) (entries : List (Text × Json)) :
    (setDefault key value entries).lookup key = some ((entries.lookup key).getD value) := by
  rw [setDefault]
  cases found : entries.lookup key with
  | some given => rw [Option.isSome_some,if_pos rfl,found,Option.getD_some]
  | none =>
    rw [Option.isSome_none,if_neg (by decide),lookup_append,found]
    simp

theorem lookup_setDefault_other {key other : Text} (differ : (key == other) = false) (value : Json) (entries : List (Text × Json)) :
    (setDefault other value entries).lookup key = entries.lookup key := by
  rw [setDefault]
  split
  · rfl
  · simp [lookup_append,lookup_cons,differ]

theorem lookup_attemptCount (payload : RoutePayload) (entries : List (Text × Json)) :
    (setDefault (text "attempt_count") (.integer payload.attemptCount)
      (setDefault (text "fallback_used") (.bool payload.fallbackUsed)
        (setDefault (text "provider_route") (.text payload.providerRoute)
          (setDefault (text "model_stage") (.text payload.modelStage)
            (setDefault (text "model_tier") (.text payload.modelTier) entries))))).lookup (text "attempt_count") =
      some ((entries.lookup (text "attempt_count")).getD (.integer payload.attemptCount)) := by
  rw [lookup_setDefault_same,lookup_setDefault_other (by decide),lookup_setDefault_other (by decide),
    lookup_setDefault_other (by decide),lookup_setDefault_other (by decide)]

theorem withRouteMetadata_reports (payload : RoutePayload) (event : LLMClientEvent) :
    if event.type matches .toolCall then (withRouteMetadata payload event).arguments = event.arguments
      else reported (withRouteMetadata payload event) = some ((reported event).getD (.integer payload.attemptCount)) := by
  have reports : ∀ entries, event.arguments.getD [] = entries → some ((reported event).getD (.integer payload.attemptCount)) =
      some ((entries.lookup (text "attempt_count")).getD (.integer payload.attemptCount)) := by
    rintro _ rfl
    rw [reported]
    cases event.arguments <;> rfl
  have whole := lookup_attemptCount payload (event.arguments.getD [])
  rw [reports _ rfl,← whole]
  rw [withRouteMetadata]
  generalize setDefault (text "attempt_count") _ _ = arguments at whole
  cases event.type with
  | toolCall => rfl
  | _ =>
    cases arguments with
    | nil => cases whole
    | cons first rest => rfl

theorem reported_routeEvent (payload : RoutePayload) : reported (routeEvent payload) = some (.integer payload.attemptCount) := by
  have differ : [text "model_tier",text "model_stage",text "provider_route",text "provider",text "model",text "fallback_used"].all
      (fun key => !(text "attempt_count" == key)) = true := by decide
  simp only [all_cons,Bool.and_eq_true,Bool.not_eq_true'] at differ
  obtain ⟨tier,stage,route,provider,model,fallback,_⟩ := differ
  simp [reported,routeEvent,RoutePayload.arguments,lookup_cons,tier,stage,route,provider,model,fallback]

section Tries
variable {router : RegistryRoutedLLMClient Seconds} {context : Context Seconds} {routes : List Text}

theorem tryRoute_counted (index : Nat) (failures : List RouteFailure) (route : Text) :
    Counted router context index route (tryRoute router context index failures route).items := by
  rw [tryRoute]
  cases created : createRouteClient router context index route with
  | error raised => exact ⟨.inl rfl⟩
  | ok client =>
    cases split : splitRoute route with
    | none => exact ⟨.inl rfl⟩
    | some parts =>
      have yields : routeEvents router context index route = (received context index client).1 := by
        rw [routeEvents,created,split]
      refine ⟨.inr ⟨routePayload context index failures route parts.1 client,rfl,?_,?_,withRouteMetadata_reports _⟩⟩
      · exact reported_routeEvent _
      · rw [yields]

theorem tryRoute_gaveUp {index : Nat} {failures : List RouteFailure} {route : Text} {note : RouteFailure}
    (gaveUp : (tryRoute router context index failures route).ending = .gaveUp note) :
    (∀ event ∈ routeEvents router context index route, event.isKeepalive = true) ∧
      ∃ raised, routeError router context index route = some raised ∧ isFallbackable router.unicode raised = true := by
  rw [tryRoute] at gaveUp
  rw [routeEvents,routeError]
  cases created : createRouteClient router context index route with
  | error raised =>
    rw [created] at gaveUp
    refine ⟨nofun,raised,rfl,?_⟩
    by_contra other
    simp only [if_neg other] at gaveUp
    cases gaveUp
  | ok client =>
    rw [created] at gaveUp
    cases split : splitRoute route with
    | none =>
      rw [split] at gaveUp
      cases gaveUp
    | some parts =>
      rw [split] at gaveUp
      dsimp only at gaveUp ⊢
      cases ends : (received context index client).2 with
      | none =>
        rw [ends] at gaveUp
        cases gaveUp
      | some raised =>
        rw [ends] at gaveUp
        dsimp only at gaveUp
        split at gaveUp
        · cases gaveUp
        · rename_i fallsBack
          simp only [Bool.or_eq_true,any_eq_true,Bool.not_eq_true',not_or,not_exists,not_and,Bool.not_eq_false] at fallsBack
          exact ⟨fallsBack.1,raised,rfl,fallsBack.2⟩

theorem tryRoute_done (index : Nat) (failures : List RouteFailure) (route : Text) :
    (tryRoute router context index failures route).ending = .done ↔ routeError router context index route = none := by
  rw [tryRoute,routeError]
  cases createRouteClient router context index route with
  | error raised =>
    dsimp only
    split <;> simp
  | ok client =>
    cases splitRoute route with
    | none => simp
    | some parts =>
      dsimp only
      cases (received context index client).2 with
      | none => simp
      | some raised =>
        dsimp only
        split <;> simp

theorem isContent_withRouteMetadata (payload : RoutePayload) (event : LLMClientEvent) :
    isContent (withRouteMetadata payload event) = isContent event := by
  rw [withRouteMetadata]
  cases type : event.type <;> simp [isContent,type]

theorem Counted.silent {index : Nat} {route : Text} {items : List LLMClientEvent} (counted : Counted router context index route items)
    (keepalives : ∀ event ∈ routeEvents router context index route, event.isKeepalive = true) : items.filter isContent = [] := by
  rcases counted.yielded with rfl | ⟨payload,_,_,rfl,_⟩
  · rfl
  · rw [filter_cons_of_neg (by simp [isContent,routeEvent]),filter_eq_nil_iff]
    intro event member
    obtain ⟨given,isGiven,rfl⟩ := mem_map.mp member
    have keepalive := keepalives given isGiven
    rw [isContent_withRouteMetadata]
    cases type : given.type <;> simp_all [isContent,LLMClientEvent.isKeepalive]

theorem mem_tries {this : Tried Text LLMClientEvent Raised RouteFailure} (member : this ∈ tries router context routes) :
    Counted router context this.index this.candidate this.items := by
  obtain ⟨failures,isTry⟩ := mem_tried member
  rw [isTry]
  exact tryRoute_counted _ _ _

theorem stream_unmixed (router : RegistryRoutedLLMClient Seconds) (context : Context Seconds) (routes : List Text) :
    Unmixed router context routes := by
  have onward : ∀ this ∈ (tries router context routes).dropLast,
      (∀ event ∈ routeEvents router context this.index this.candidate, event.isKeepalive = true) ∧
        ∃ raised, routeError router context this.index this.candidate = some raised ∧ isFallbackable router.unicode raised = true := by
    intro this member
    obtain ⟨note,gaveUp⟩ := tried_dropLast member
    obtain ⟨failures,isTry⟩ := mem_tried (dropLast_subset _ member)
    rw [isTry] at gaveUp
    exact tryRoute_gaveUp gaveUp
  have silent : ∀ this ∈ (tries router context routes).dropLast, this.items.filter isContent = [] := by
    intro this member
    exact (mem_tries (dropLast_subset _ member)).silent (onward this member).1
  refine ⟨?_,tried_candidates,?_,?_,onward⟩
  · cases routes with
    | nil => rfl
    | cons route rest => exact run_items
  · rw [range_eq_range']
    exact tried_indices
  · cases routes with
    | nil => rfl
    | cons route rest => exact run_filter isContent silent

theorem stream_raises (router : RegistryRoutedLLMClient Seconds) (context : Context Seconds) (routes : List Text) :
    (stream router context routes).2.isSome ↔ routes = [] ∨ LastFails router context routes := by
  cases routes with
  | nil => simp [stream]
  | cons route rest =>
    have some : route :: rest ≠ [] := cons_ne_nil route rest
    refine (run_raises some).trans ?_
    rw [or_iff_right some]
    refine exists_congr fun last => and_congr_right fun isLast => ?_
    obtain ⟨failures,isTry⟩ := mem_tried (mem_of_getLast? isLast)
    rw [isTry,Option.isSome_iff_ne_none,Ne,tryRoute_done]

/-- Each announcement, and each event without an attempt count of its own, reports the position of its route. The stream
    raises exactly if there are no routes or the last one that is tried fails. -/
theorem routes_unmixed (router : RegistryRoutedLLMClient Seconds) (context : Context Seconds) (routes : List Text) :
    Unmixed router context routes ∧
      (∀ this ∈ tries router context routes, Counted router context this.index this.candidate this.items) ∧
      ((stream router context routes).2.isSome ↔ routes = [] ∨ LastFails router context routes) :=
  ⟨stream_unmixed router context routes,fun _ => mem_tries,stream_raises router context routes⟩

end Tries

def countedEvent : LLMClientEvent := { type := .sources,arguments := some [(text "attempt_count",.integer 7)] }
def countingClient : RouteClient where
  model := text "m"
  events := [countedEvent]
def countingRouter : RegistryRoutedLLMClient Unit where
  clientFactory _ _ _ := .ok countingClient
  acceptsTimeoutSeconds := true
  unicode := ascii
  repr _ := []

def plainContext : Context Unit where
  tier := text "paid_low"
  stage := text "strategy_reasoning"
  routeTimeoutSeconds := none
  hardRouteTimeout := false
  threeDecimals _ := []
  json _ := .null
  waits _ := []

/-- Without routes the stream raises although none was tried, and an event that brings an attempt count
    reports it from the first route. -/
theorem ownCount_reported :
    ¬CountedAlways countingRouter plainContext [] ∧ ¬CountedAlways countingRouter plainContext [text "openai/m"] := by
  refine ⟨fun always => ?_,fun always => ?_⟩
  · obtain ⟨last,isLast,_⟩ := always.raises.mp rfl
    cases isLast
  · let payload := routePayload plainContext 0 [] (text "openai/m") (text "openai") countingClient
    have yielded : (tries countingRouter plainContext [text "openai/m"]).flatMap (·.items) =
        [routeEvent payload,withRouteMetadata payload countedEvent] := rfl
    have member : withRouteMetadata payload countedEvent ∈ (tries countingRouter plainContext [text "openai/m"]).flatMap (·.items) := by
      rw [yielded]
      exact mem_cons_of_mem _ mem_cons_self
    have reports : reported (withRouteMetadata payload countedEvent) = some (.integer 7) := rfl
    obtain ⟨this,isTry,isItem⟩ := mem_flatMap.mp member
    have count := always.counts this isTry _ isItem _ reports
    have isFirst : this.index = 0 := by
      have isIndex := mem_map_of_mem (f := (·.index)) isTry
      rw [always.positions] at isIndex
      exact mem_singleton.mp isIndex
    rw [isFirst] at count
    cases count

end Codebot.RoutedStreams
