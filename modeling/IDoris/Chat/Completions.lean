import IDoris.Chat.Inspection
import IDoris.Chat.Parameters
import IDoris.Chat.Profile
import IDoris.Chat.Routing
import IDoris.Library.Interaction
import IDoris.Subscription.Relay
import IDoris.VirtualKey.Authority

/-!
# Chat completions

One request, from its bytes to the backend that answers it. The handler asks its surroundings
one thing at a time: who the caller is, whether an event was stored, what is scanned, detected
and ready, and last the one backend that was selected.
-/
namespace Chat

open Bounded Dispatch Http Interaction Json Policy Supervisor Text Transaction VirtualKey
open Inspect (Entropy)
open Proxy (Locality PrivacyClass)

section Surroundings

inductive IpAddr where
  | v4 (a b c d : UInt8)
  | v6 (segments : BitVec 128)

def IpAddr.isLoopback : IpAddr → Bool
  | .v4 a _ _ _ => a = 127
  | .v6 segments =>
    segments = 1 ||
      segments.extractLsb' 32 96 = 0xFFFF && segments.extractLsb' 24 8 = 127

inductive SubscriptionSourceError where
  | missingPeer | nonLoopback
  deriving DecidableEq

def checkSubscriptionSource (peer : Option IpAddr) : Except SubscriptionSourceError IpAddr := do
  let peer ← orRefuse peer .missingPeer
  refuseIf (peer.isLoopback = false) .nonLoopback
  return peer

inductive SubscriptionDispatchError where
  | notSubscription
  | privacyForbidden
  | source (error : SubscriptionSourceError)
  | runtime (providerId : String)
  | relay (error : Subscription.ErrorCode)

/-- Where the texts go that a detector compares; the built-in one stays in the process. -/
inductive DetectorLocality where
  | loopback | remote
  deriving DecidableEq

/-- The parts of the router's state that one completion reads. `subscriptions` are the models of
the runtimes that are registered. -/
structure AppState (F : Type) where
  deployMode : DeployMode
  devNoKeyEnabled : Bool
  remoteBindRequiresAuth : Bool
  authenticator : Bool
  eventLog : Bool
  cards : List (ComponentCard F)
  routingPolicy : RoutingPolicy
  subscriptions : List (String × String)
  detector : DetectorLocality

/-- `json`: what the parser makes of the body. -/
structure Request where
  headers : HeaderMap
  path : String
  recordId : String
  rawLen : Nat
  json : Option (Value Number)
  peer : Option IpAddr

variable {F : Type}

inductive Event (F : Type) where
  | requestReceived (requestId : String)
  | inspected (inspection : Inspection)
  | profiled (profile : Profile)
  | decided (route : RouteDecision) (selected : Option (Selected F)) (reason : Option String)

/-- What a supervisor is given. -/
structure LocalRequest (F : Type) where
  selected : Selected F
  profile : ParsedProfile
  input : DispatchInput
  native : NativeCompletionRequest
  messages : List ChatMessage
  headroomBreachConfirmed : Bool

/-- What the handler asks for; `authenticate` is about the headers of the request. -/
inductive Op (F : Type) where
  | authenticate
  | append (tenantId : String) (correlation : RequestCorrelation) (event : Event F)
  | readKillSwitch
  | scanOffWorker
  | detect (messages : List ChatMessage)
  | exactReadyProviders (targets : List (String × String))
  | blockedCards (cards : List (ComponentCard F)) (tenantId requestId : Option String)
  | relay (selected : Selected F) (request : ChatRequest)
  | chatViaProxy (selected : Selected F) (profile : ParsedProfile) (body : Dispatch.Fields)
  | dispatchLocal (request : LocalRequest F)

/-- `R` is what the proxy answers; a scan that was not finished has failed. -/
abbrev Op.Answer (R : Type) : Op F → Type
  | .authenticate => Except VirtualKeyAuthError AuthenticatedVirtualKey
  | .append _ _ _ => Bool
  | .readKillSwitch => Bool
  | .scanOffWorker => Bool
  | .detect _ => Except String (Option String)
  | .exactReadyProviders _ => List String
  | .blockedCards cards _ _ => Fin cards.length → Bool
  | .relay _ _ => Except Subscription.ErrorCode ChatResponse
  | .chatViaProxy _ _ _ => R
  | .dispatchLocal _ => Except ObservedDispatchError ChatOutcome

/-- The headers that name a selected backend. -/
structure Served where
  locality : Locality
  reasonCodes : List ReasonCode
  degraded : Bool

structure Envelope where
  status : Nat
  errorType : String
  reason : Option String
  message : String

inductive Reply (R : Type) where
  | error (envelope : Envelope)
  | unsupported (served : Served) (reason message : String)
  | rejected (rejection : Rejection)
  | panicked
  | relayed (response : ChatResponse)
  | notRelayed (error : SubscriptionDispatchError)
  | forwarded (response : R)
  | dispatched (outcome : ChatOutcome)

abbrev Completion (F R : Type) := Program (Op F) (Op.Answer R) (Reply R)

end Surroundings

section Envelopes

def invalidJson : Envelope := ⟨400, "invalid_json", none, "request body is not valid JSON"⟩

def invalidBody : Envelope := ⟨400, "invalid_body", none, "request body must be a JSON object"⟩

def ProfileError.envelope (error : ProfileError) : Envelope :=
  ⟨error.status, error.errorType, none, error.message⟩

def CorrelationError.envelope (error : CorrelationError) : Envelope :=
  ⟨400, "invalid_correlation_header", some error.reasonCode, "invalid correlation header"⟩

def unauthorized : Envelope :=
  ⟨401, "unauthorized", some "VIRTUAL_KEY_UNAUTHORIZED", "virtual key authentication failed"⟩

def scopeReasonCode : VirtualKeyScopeError → String
  | .tenantForbidden => "VIRTUAL_KEY_TENANT_FORBIDDEN"
  | .privacyForbidden => "VIRTUAL_KEY_PRIVACY_FORBIDDEN"
  | .roleForbidden => "VIRTUAL_KEY_ROLE_FORBIDDEN"
  | .fallbackForbidden => "VIRTUAL_KEY_FALLBACK_FORBIDDEN"

def scopeForbidden (error : VirtualKeyScopeError) : Envelope :=
  ⟨403, "policy_violation", some (scopeReasonCode error), "virtual key scope forbids this request"⟩

def devNoKeyScope : Envelope :=
  ⟨403, "policy_violation", some "DEV_NO_KEY_SCOPE_FORBIDDEN",
    "developer no-key mode permits only free loopback local_only requests"⟩

def eventLogUnavailable : Envelope :=
  ⟨503, "event_log_unavailable", some "EVENT_LOG_APPEND_UNAVAILABLE", "event log unavailable"⟩

def completionRefused (name : String) : Envelope :=
  if name = "n" then
    ⟨400, "unsupported_completion_count", none,
      "n must be the integer 1 or null; multiple completions are not supported"⟩
  else
    ⟨400, "invalid_completion_cap", none,
      name ++ " must be an integer between 0 and 9007199254740992"⟩

def noCandidate : Envelope :=
  ⟨503, "no_candidate", none, "no candidate matches routing policy"⟩

def rejectionType : Rejection → String
  | .unknownRole _ => "unknown_role"
  | .localOnlyUnavailable => "local_only_unavailable"
  | .budgetExceeded _ _ _ => "budget_exceeded"
  | .noEligibleCandidate _ => "no_eligible_candidate"

end Envelopes

section Headers

/-- The one tenant header of a request, trimmed. -/
def queryScopeHeader (headers : HeaderMap) : Option String :=
  match headers.getAll "x-idoris-tenant" with
  | [first] => ((toStr first).map trim).filter fun value => value ≠ ""
  | _ => none

def headerText (headers : HeaderMap) (name : String) : Option String :=
  (((headers.get name).bind toStr).map trim).filter fun value => value ≠ ""

def sessionAffinityKey (headers : HeaderMap) : Option String := headerText headers "x-idoris-session"

/-- The identifier of the caller, unless the event log would not take it. -/
def eventRequestId (requestId : Option String) (recordId : String) : String :=
  ((requestId.filter fun value => EventLog.utf16Count value ≤ 128).filter fun value =>
    !value.toList.any EventLog.isControl).getD recordId

def headroomBreachConfirmed (headers : HeaderMap) : Bool :=
  match headers.getAll "x-idoris-headroom-breach" with
  | [value] => value.map asciiLower = "confirmed".toUTF8.toList
  | _ => false
where
  asciiLower (byte : UInt8) : UInt8 := if 65 ≤ byte ∧ byte ≤ 90 then byte + 32 else byte

end Headers

section Erase

def Number.asU64 : Number → Option UInt64
  | .integer value => if 0 ≤ value ∧ value < 2 ^ 64 then some (UInt64.ofNat value.toNat) else none
  | .float _ => none

mutual

/-- The body as the dispatch reads it: of a number, its value as an unsigned integer. -/
def erase : Value Number → Proxy.Json
  | .null => .null
  | .bool value => .bool value
  | .number number => .number number.asU64
  | .string value => .string value
  | .array items => .array (eraseItems items)
  | .object fields => .object (eraseFields fields)

def eraseItems : List (Value Number) → List Proxy.Json
  | [] => []
  | item :: items => erase item :: eraseItems items

def eraseFields : Fields → Dispatch.Fields
  | [] => []
  | (key, item) :: fields => (key, erase item) :: eraseFields fields

end

end Erase

section Intent

def jsTrim (text : String) : String :=
  String.ofList (((text.toList.dropWhile isEcmascriptWhitespace).reverse.dropWhile
    isEcmascriptWhitespace).reverse)

/-- The last user content that is not blank, else the last message. -/
def queryText (messages : List ChatMessage) : String :=
  match messages.reverse.find? fun m => m.role = "user" && jsTrim m.content ≠ "" with
  | some message => message.content
  | none => (messages.getLast?.map fun message => jsTrim message.content).getD ""

def hasDetectableText (messages : List ChatMessage) : Bool := queryText messages ≠ ""

/-- A hit changes the intent of a profile and nothing else. -/
def Profile.withHit (profile : Profile) (hit : Except String (Option String)) : Profile :=
  match hit with
  | .ok (some intent) =>
    let task := { profile.parsed.task with intent := some intent }
    match validateTask task with
    | .ok () => ⟨{ profile.parsed with task }, .detected⟩
    | .error _ => profile
  | _ => profile

def Profile.withPrivacy (profile : Profile) (privacy : PrivacyClass) : Profile :=
  { profile with parsed :=
      { profile.parsed with task := { profile.parsed.task with privacy := some privacy } } }

def Profile.privacy (profile : Profile) : PrivacyClass := profile.parsed.task.privacy.getD .localOnly

/-- Whether the detector may be asked. -/
def Profile.isDetectable (profile : Profile) (messages : List ChatMessage)
    (detector : DetectorLocality) : Bool :=
  !(profile.intentSource = .header || profile.privacy = .localOnly && detector = .remote ||
    !hasDetectableText messages)

end Intent

section Handler

variable {F R : Type} [Quotes F]

/-- What the later steps of one completion read. `tenantId`: the tenant of its events. -/
structure Job (F : Type) where
  state : AppState F
  request : Request
  fields : Fields
  correlation : RequestCorrelation
  devNoKeyRequest : Bool
  completion : Nat
  tenantId : Option String

def refuse (envelope : Envelope) : Completion F R := .ret (.error envelope)

def servedHeaders (selected : Selected F) : Served :=
  ⟨selected.servedLocality, selected.decision.reasonCodes, !selected.decision.degradations.isEmpty⟩

/-- The model of the command line tool that may be run for the request. -/
def dispatchSelected (selected : Selected F) (privacy : PrivacyClass) (peer : Option IpAddr)
    (subscriptions : List (String × String)) : Except SubscriptionDispatchError String := do
  refuseIf (selected.card.provider.id ≠ subscriptionProviderId) .notSubscription
  refuseIf (privacy = .localOnly) .privacyForbidden
  let _ ← (checkSubscriptionSource peer).mapError .source
  orRefuse (subscriptions.lookup selected.card.provider.id) (.runtime selected.card.provider.id)

namespace Job

def object (job : Job F) : Dispatch.Fields := eraseFields job.fields

def model (job : Job F) : Option String := (job.object.lookup "model").bind asString

def messages (job : Job F) : List ChatMessage := extractMessages job.object

def prompt (job : Job F) : String := promptOf job.messages

def affinityKey (job : Job F) : Option String := sessionAffinityKey job.request.headers

def requestId (job : Job F) : Option String :=
  (job.request.headers.get "x-idoris-request-id").bind toStr

/-- An event that cannot be stored ends the request. -/
def append (job : Job F) (event : Event F) (next : Completion F R) : Completion F R :=
  match job.tenantId with
  | some tenantId =>
    .ask (.append tenantId job.correlation event) fun stored =>
      if stored then next else refuse eventLogUnavailable
  | none => next

def supervise (job : Job F) (profile : Profile) (selected : Selected F) : Completion F R :=
  match validateStream job.object with
  | .error message =>
    .ret (.unsupported ⟨selected.servedLocality, [], false⟩ "unsupported_stream" message)
  | .ok () =>
    match validateParameters job.object with
    | .error message =>
      .ret (.unsupported ⟨selected.servedLocality, [], false⟩ "unsupported_parameter" message)
    | .ok () =>
      .ask (.dispatchLocal
          { selected
            profile := profile.parsed
            input := ⟨job.model, job.prompt, job.affinityKey⟩
            native := payload job.object
            messages := job.messages
            headroomBreachConfirmed := headroomBreachConfirmed job.request.headers }) fun
        | .ok outcome => .ret (.dispatched outcome)
        | .error (.dispatch rejection) => .ret (.rejected rejection)
        | .error .eventLogUnavailable => refuse eventLogUnavailable

def forward (job : Job F) (profile : Profile) (selected : Selected F) : Completion F R :=
  match boundHttpBody profile.parsed job.object selected.card with
  | .error rejection => .ret (.rejected rejection)
  | .ok body =>
    .ask (.chatViaProxy selected profile.parsed body) fun response => .ret (.forwarded response)

def relay (job : Job F) (profile : Profile) (selected : Selected F) : Completion F R :=
  match dispatchSelected selected profile.privacy job.request.peer job.state.subscriptions with
  | .error .privacyForbidden => .ret (.rejected .localOnlyUnavailable)
  | .error error => .ret (.notRelayed error)
  | .ok modelId =>
    .ask (.relay selected ⟨none, modelId, job.messages⟩) fun
      | .ok response => .ret (.relayed response)
      | .error error => .ret (.notRelayed (.relay error))

/-- The one backend that was selected, on the one path that leads to it. -/
def execute (job : Job F) (profile : Profile) (selected : Selected F) : Completion F R :=
  if job.devNoKeyRequest && outsideDevScope selected then refuse devNoKeyScope
  else if malformedModel job.object then
    .ret (.unsupported (servedHeaders selected) "unsupported_model"
      ("model '" ++ job.model.getD "" ++
        "' must be a non-empty string or a supported idoris/<role> alias"))
  else if selected.card.provider.id = subscriptionProviderId then job.relay profile selected
  else if isResidentHttpService selected.card then job.forward profile selected
  else job.supervise profile selected

def select (job : Job F) (profile : Profile) (inspection : Inspection) (policy : PolicyCards F)
    (ready : List String) (blocked : Fin policy.cards.length → Bool) : Completion F R :=
  match selectWithGateFallbackAndCompletion policy.cards profile.parsed job.prompt job.affinityKey
    ready (List.ofFn blocked) job.completion (inspection.tightened && !inspection.killed) with
  | .ok none => .ret .panicked
  | .ok (some selected) =>
    job.append (.decided policy.route (some selected) none) (job.execute profile selected)
  | .error rejection =>
    job.append (.decided policy.route none (some (rejectionType rejection)))
      (.ret (.rejected rejection))

def gate (job : Job F) (profile : Profile) (inspection : Inspection) (policy : PolicyCards F)
    (ready : List String) : Completion F R :=
  .ask (.blockedCards policy.cards profile.parsed.tenantId job.requestId) fun blocked =>
    job.select profile inspection policy ready blocked

/-- A session may prefer a backend that is ready already. -/
def prepare (job : Job F) (profile : Profile) (inspection : Inspection) (policy : PolicyCards F) :
    Completion F R :=
  if job.affinityKey.isSome then
    .ask (.exactReadyProviders (policy.cards.filterMap fun card =>
        (backendModelId profile.parsed job.model card).toOption.map fun target =>
          (card.provider.id, target))) fun ready => job.gate profile inspection policy ready
  else job.gate profile inspection policy []

def route (job : Job F) (profile : Profile) (inspection : Inspection) : Completion F R :=
  let policy := policyCards job.state.cards job.state.routingPolicy profile.parsed
  if policy.cards.isEmpty then
    if policy.route.failClosed then
      job.append (.decided policy.route none (some "local_only_unavailable"))
        (.ret (.rejected .localOnlyUnavailable))
    else job.append (.decided policy.route none (some "no_candidate")) (refuse noCandidate)
  else job.prepare profile inspection policy

def announceProfile (job : Job F) (inspection : Inspection) (profile : Profile) :
    Completion F R :=
  job.append (.profiled profile) (job.route profile inspection)

/-- The detector sees the messages only after the inspection has had its say. -/
def resolveProfile (job : Job F) (inspection : Inspection) (profile : Profile) :
    Completion F R :=
  if profile.isDetectable job.messages job.state.detector then
    .ask (.detect job.messages) fun hit => job.announceProfile inspection (profile.withHit hit)
  else job.announceProfile inspection profile

def inspected (job : Job F) (profile : Profile) (inspection : Inspection) : Completion F R :=
  job.append (.inspected inspection)
    (job.resolveProfile inspection (profile.withPrivacy inspection.effective))

variable [Entropy]

/-- A body of some size is scanned off the worker, where a failed scan allows nothing. -/
def inspect (job : Job F) (profile : Profile) : Completion F R :=
  .ask .readKillSwitch fun killSwitch =>
    if job.request.rawLen < offWorkerBytes then
      match inspectBody (.object job.fields) profile.privacy killSwitch with
      | some inspection => job.inspected profile inspection
      | none => .ret .panicked
    else
      .ask .scanOffWorker fun joined =>
        match inspectBody (.object job.fields) profile.privacy killSwitch with
        | some inspection =>
          job.inspected profile (if joined then inspection else failedInspection profile.privacy)
        | none => job.inspected profile (failedInspection profile.privacy)

def receive (job : Job F) (profile : Profile) : Completion F R :=
  job.append (.requestReceived (eventRequestId
      (headerText job.request.headers "x-idoris-request-id") job.request.recordId))
    (job.inspect profile)

end Job

variable [Entropy] (state : AppState F) (request : Request)

/-- The tenant of the events; there is none without an event log. -/
def eventTenant (profile : Profile) : Except Envelope (Option String) :=
  if state.eventLog then
    match state.deployMode with
    | .personal => .ok (some personalTenantId)
    | .tenant => (orRefuse profile.parsed.tenantId eventLogUnavailable).map some
  else .ok none

def authorizationPresent : Bool := request.headers.containsKey "authorization"

def isDevNoKeyRequest : Bool := state.devNoKeyEnabled && !authorizationPresent request

def admitted (fields : Fields) (profile : Profile) (correlation : RequestCorrelation) :
    Completion F R :=
  match Pricing.completionReservationTokens (.object (eraseFields fields)) with
  | .error name => refuse (completionRefused name)
  | .ok completion =>
    match eventTenant state profile with
    | .error envelope => refuse envelope
    | .ok tenantId =>
      Job.receive
        { state
          request
          fields
          correlation
          devNoKeyRequest := isDevNoKeyRequest state request
          completion
          tenantId } profile

/-- A request without a key may only be local; with one, its scope is the ceiling. -/
def authorize (fields : Fields) (profile : Profile) (correlation : RequestCorrelation) :
    Completion F R :=
  if isDevNoKeyRequest state request then
    if profile.privacy ≠ .localOnly then refuse devNoKeyScope
    else admitted state request fields profile correlation
  else if state.authenticator then
    .ask .authenticate fun
      | .error _ => refuse unauthorized
      | .ok identity =>
        match enforceScope identity profile.parsed with
        | .error error => refuse (scopeForbidden error)
        | .ok () => admitted state request fields profile correlation
  else if state.devNoKeyEnabled && authorizationPresent request then refuse unauthorized
  else admitted state request fields profile correlation

def chatCompletions : Completion F R :=
  match request.json with
  | none => refuse invalidJson
  | some value =>
    match value.asObject with
    | none => refuse invalidBody
    | some fields =>
      match parseProfile request.headers ((fields.lookup "model").bind Value.asStr)
        state.deployMode with
      | .error error => refuse error.envelope
      | .ok profile =>
        match parseCorrelation request.headers with
        | .error error => refuse error.envelope
        | .ok correlation => authorize state request fields profile correlation

end Handler

section Middleware

variable {F R : Type} [Quotes F] [Entropy]

def guardedPaths : List String :=
  ["/v1/chat/completions", "/v1/embeddings", "/v1/rerank", "/v1/messages"]

def tenantHeaderMissing : Envelope :=
  ⟨400, "tenant_missing", some "tenant_missing",
    "deploy_mode=tenant requires a single, non-blank X-iDoris-Tenant; no default tenant fallback"⟩

/-- The tenant that a key is bound to, against the one that the request names. -/
def boundTenant (deployMode : DeployMode) (headers : HeaderMap)
    (identity : AuthenticatedVirtualKey) : Except Envelope Unit :=
  let requested := queryScopeHeader headers
  let isNamed := headers.containsKey "x-idoris-tenant"
  match deployMode with
  | .personal =>
    refuseIf (identity.scope.tenantId.any (fun bound =>
        bound ≠ personalTenantId || isNamed && requested ≠ some bound) = true)
      (scopeForbidden .tenantForbidden)
  | .tenant =>
    if isNamed then do
      let tenant ← orRefuse requested ⟨400, "invalid_tenant_scope", none,
        "request requires exactly one non-empty X-iDoris-Tenant"⟩
      refuseIf (validEventIdentifier tenant = false)
        ⟨400, "invalid_tenant_scope", none, "tenant identifier is invalid"⟩
      refuseIf (identity.scope.tenantId ≠ some tenant)
        ⟨403, "tenant_scope_forbidden", none, "virtual key does not authorize this tenant"⟩
    else .ok ()

/-- The check in front of every route. -/
def remoteBindAuth (state : AppState F) (request : Request) (next : Completion F R) :
    Completion F R :=
  let tenantMode := state.deployMode = .tenant
  if request.path = "/health" then next
  else if tenantMode && guardedPaths.contains request.path &&
      (queryScopeHeader request.headers).isNone then
    refuse tenantHeaderMissing
  else if state.devNoKeyEnabled && !state.remoteBindRequiresAuth &&
      !authorizationPresent request && !tenantMode then
    next
  else if state.authenticator then
    .ask .authenticate fun
      | .error _ => refuse unauthorized
      | .ok identity =>
        match boundTenant state.deployMode request.headers identity with
        | .error envelope => refuse envelope
        | .ok () => next
  else if state.remoteBindRequiresAuth || tenantMode then refuse unauthorized
  else next

/-- A completion, as the router serves it. -/
def serveChat (state : AppState F) (request : Request) : Completion F R :=
  remoteBindAuth state request (chatCompletions state request)

end Middleware

end Chat
