import Mathlib.Tactic.Common

/-!
# Requests, upstream answers and outcomes of the buffered proxy
-/
namespace Proxy

inductive PrivacyClass where
  | localOnly | any
  deriving DecidableEq

inductive Locality where
  | loopback | lan | remote
  deriving DecidableEq

inductive Json where
  | null
  | bool (value : Bool)
  | number (asU64 : Option UInt64)
  | string (value : String)
  | array (items : List Json)
  | object (fields : List (String × Json))

namespace Json

def asObject : Json → Option (List (String × Json))
  | .object fields => some fields
  | _ => none

def asU64 : Json → Option UInt64
  | .number value => value
  | _ => none

end Json

/-- A body: how many bytes it has and what `serde_json` makes of them. -/
structure Body where
  size : Nat
  json : Option Json

def Body.ofText (text : String) (json : Json) : Body := ⟨text.utf8ByteSize, some json⟩

structure UsageEvidence where
  inputTokens : UInt64
  outputTokens : UInt64
  deriving DecidableEq

inductive UsageEvidenceError where
  | invalidJson
  | missingUsage
  | invalidPromptTokens
  | invalidCompletionTokens
  | invalidPriceOrAmount
  deriving DecidableEq

/-- The usage object of a chat completion; a missing or malformed one is never zero. -/
def parseOpenaiUsage (body : Body) : Except UsageEvidenceError UsageEvidence := do
  let value ← body.json.elim (.error .invalidJson) .ok
  let usage ← ((value.asObject.bind (·.lookup "usage")).bind Json.asObject).elim
    (.error .missingUsage) .ok
  let inputTokens ← ((usage.lookup "prompt_tokens").bind Json.asU64).elim
    (.error .invalidPromptTokens) .ok
  let outputTokens ← ((usage.lookup "completion_tokens").bind Json.asU64).elim
    (.error .invalidCompletionTokens) .ok
  return ⟨inputTokens, outputTokens⟩

/-- What a caller may conclude about the upstream's execution of the POST. -/
inductive ExecutionDisposition where
  | notExecuted
  | executed
  | uncertain
  | replay
  deriving DecidableEq

structure ForwardOutcome where
  status : Nat
  body : Body
  contentType : Option String
  cached : Bool
  originRecordId : Option String
  replayedServedLocality : Option Locality
  retries : Nat
  execution : ExecutionDisposition

def isSuccess (status : Nat) : Bool := 200 ≤ status && status < 300

/-- Redirects, request timeouts and server errors do not prove that a POST was not executed. -/
def isUncertainStatus (status : Nat) : Bool :=
  (300 ≤ status && status < 400) || status = 408 || (500 ≤ status && status < 600)

def isUpstreamAuthStatus (status : Nat) : Bool := status = 401 || status = 403

/-- The status, the error type and the remediation of a failed success gate. -/
structure SuccessFinalizeError where
  status : Nat
  kind : String
  remediation : String
  deriving DecidableEq

section Failures

def unavailableBody : Body :=
  .ofText "\x7b\"error\":\x7b\"type\":\"upstream_unavailable\"\x7d\x7d"
    (.object [("error", .object [("type", .string "upstream_unavailable")])])

def failureWithExecution (status retries : Nat) (execution : ExecutionDisposition) :
    ForwardOutcome where
  status := status
  body := unavailableBody
  contentType := some "application/json"
  cached := false
  originRecordId := none
  replayedServedLocality := none
  retries := retries
  execution := execution

def failure (status retries : Nat) : ForwardOutcome :=
  failureWithExecution status retries .notExecuted

def flightFailureWithExecution (status : Nat) (kind : String) (execution : ExecutionDisposition) :
    ForwardOutcome where
  status := status
  body := .ofText ("\x7b\"error\":\x7b\"type\":\"" ++ kind ++ "\"\x7d\x7d")
    (.object [("error", .object [("type", .string kind)])])
  contentType := some "application/json"
  cached := false
  originRecordId := none
  replayedServedLocality := none
  retries := 0
  execution := execution

def flightFailure (status : Nat) (kind : String) : ForwardOutcome :=
  flightFailureWithExecution status kind .notExecuted

/-- The credential was refused; the upstream's own text is not relayed. -/
def upstreamAuthFailure (retries : Nat) : ForwardOutcome where
  status := 502
  body := .ofText
    "\x7b\"error\":\x7b\"type\":\"upstream_auth_failed\",\"reason_code\":\"upstream_auth_failed\"\x7d\x7d"
    (.object [("error", .object [("type", .string "upstream_auth_failed"),
      ("reason_code", .string "upstream_auth_failed")])])
  contentType := some "application/json"
  cached := false
  originRecordId := none
  replayedServedLocality := none
  retries := retries
  execution := .executed

def successFinalizeFailure (error : SuccessFinalizeError) : ForwardOutcome where
  status := error.status
  body := .ofText ("\x7b\"error\":\x7b\"evidence\":null,\"reason_code\":" ++ error.kind.quote ++
      ",\"remediation\":" ++ error.remediation.quote ++ ",\"rule_id\":null,\"type\":" ++
      error.kind.quote ++ "\x7d\x7d")
    (.object [("error", .object [("evidence", .null), ("reason_code", .string error.kind),
      ("remediation", .string error.remediation), ("rule_id", .null),
      ("type", .string error.kind)])])
  contentType := some "application/json"
  cached := false
  originRecordId := none
  replayedServedLocality := none
  retries := 0
  execution := .uncertain

end Failures

section Calls

/-- The SHA-256 digest of the payload with its privacy and locality. -/
abbrev Fingerprint := BitVec 256

structure ForwardOpts where
  requestId : Option String
  tenantId : Option String
  recordId : String
  providerId : String
  servedLocality : Locality
  privacy : PrivacyClass
  requireOpenaiUsage : Bool

/-- One buffered forward. The fingerprint is missing when the payload cannot be serialized. -/
structure ForwardCall where
  endpoint : String
  path : String
  fingerprint : Option Fingerprint
  opts : ForwardOpts

def cacheKey (tenantScope endpoint providerId requestId : String) : String :=
  tenantScope ++ "\x00" ++ endpoint ++ "\x00" ++ providerId ++ "\x00" ++ requestId

def ForwardCall.url (call : ForwardCall) : String :=
  String.ofList (call.endpoint.toList.reverse.dropWhile (· = '/')).reverse ++ call.path

/-- The tenant scope, the URL, the provider and the request id, for a call that carries one. -/
def ForwardCall.key (call : ForwardCall) : Option String :=
  call.opts.requestId.map fun requestId =>
    cacheKey (call.opts.tenantId.getD "\x00personal") call.url call.opts.providerId requestId

structure CacheEntry where
  storedAt : Nat
  fingerprint : Fingerprint
  status : Nat
  body : Body
  recordId : String
  servedLocality : Locality

/-- Sizes the compiler and the allocator choose. -/
structure Layout where
  flightSize : Nat
  flightSlotSize : Nat
  counterSize : Nat
  cacheEntrySize : Nat
  capacity : String → Nat

/-- The proxy's limits; `retries` is the number of retry delays. -/
structure ProxyConfig where
  window : Nat
  maxEntries : Nat
  maxBodyBytes : Nat
  maxCacheBytes : Nat
  maxFlightBytes : Nat
  retries : Nat
  layout : Layout

/-- The allocations of an outcome; its inline part belongs to the flight. -/
def Layout.outcomeBytes (layout : Layout) (outcome : ForwardOutcome) : Nat :=
  outcome.body.size + (outcome.contentType.map layout.capacity).getD 0 +
    (outcome.originRecordId.map layout.capacity).getD 0

def Layout.flightBaseBytes (layout : Layout) (key : String) : Nat :=
  layout.capacity key + layout.flightSize + layout.flightSlotSize + 2 * layout.counterSize

def Layout.entryBytes (layout : Layout) (key : String) (entry : CacheEntry) : Nat :=
  key.utf8ByteSize + entry.recordId.utf8ByteSize + entry.body.size + layout.cacheEntrySize

end Calls

section Upstream

structure Response where
  status : Nat
  contentType : Option String
  contentLength : Option Nat

/-- How a POST attempt ends before the body is read. -/
inductive Sent where
  | response (resp : Response)
  | connectFailed (timeout : Bool)
  | failed (timeout : Bool)
  | headerTimeout

/-- How the chunks of a response end. -/
inductive Received where
  | complete (body : Body)
  | broken (timeout : Bool)
  | timedOut

/-- The whole body within the limit, or the status the caller is told. -/
def readBuffered (config : ProxyConfig) (resp : Response) (received : Received) :
    Except Nat Body :=
  if resp.contentLength.any fun n => config.maxBodyBytes < n then .error 502
  else match received with
    | .complete body => if config.maxBodyBytes < body.size then .error 502 else .ok body
    | .broken timeout => .error (if timeout then 504 else 502)
    | .timedOut => .error 504

end Upstream

end Proxy
