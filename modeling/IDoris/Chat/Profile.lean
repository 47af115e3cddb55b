import IDoris.Dispatch.Select
import IDoris.EventLog.Store
import IDoris.Library.Headers

/-!
# The control headers of a request

A header that is missing has a default. One that was sent and cannot be used is an error, it
never turns into the default.
-/
namespace Chat

open Dispatch EventLog Http Policy Proxy Text Transaction

section Headers

/-- A header that occurs once, is text and is not blank. -/
inductive HeaderState where
  | absent
  | invalid
  | present (value : String)

def headerState (headers : HeaderMap) (name : String) : HeaderState :=
  match headers.getAll name with
  | [] => .absent
  | [first] =>
    match toStr first with
    | some raw => if trim raw = "" then .invalid else .present (trim raw)
    | none => .invalid
  | _ => .invalid

structure ProfileError where
  status : Nat
  errorType : String
  message : String
  deriving DecidableEq

def invalidHeader (message : String) : ProfileError := ⟨400, "invalid_header", message⟩

def invalidPrivacy : ProfileError :=
  ⟨400, "invalid_privacy",
    "X-iDoris-Privacy must be a single, non-blank, UTF-8 value: local_only|any"⟩

/-- A header with a default and a few legal values. -/
def parseChoice {α : Type} (headers : HeaderMap) (name : String) (missing : α)
    (unusable unknown : ProfileError) (choices : List (String × α)) : Except ProfileError α :=
  match headerState headers name with
  | .absent => .ok missing
  | .invalid => .error unusable
  | .present value => orRefuse (choices.lookup value) unknown

def parsePrivacy (headers : HeaderMap) : Except ProfileError PrivacyClass :=
  parseChoice headers "x-idoris-privacy" .localOnly invalidPrivacy invalidPrivacy
    [("local_only", .localOnly), ("any", .any)]

def parseComplexity (headers : HeaderMap) : Except ProfileError Complexity :=
  parseChoice headers "x-idoris-complexity" .simple
    (invalidHeader
      "X-iDoris-Complexity must be a single, non-blank, UTF-8 value: simple|complex")
    (invalidHeader "X-iDoris-Complexity must be simple|complex")
    [("simple", .simple), ("complex", .complex)]

def parseFallback (headers : HeaderMap) : Except ProfileError (Option FallbackPolicy) :=
  parseChoice headers "x-idoris-fallback" none
    (invalidHeader
      "X-iDoris-Fallback must be a single, non-blank, UTF-8 value: fail_closed|next_in_chain")
    (invalidHeader "X-iDoris-Fallback must be fail_closed|next_in_chain")
    [("fail_closed", some .failClosed), ("next_in_chain", some .nextInChain)]

inductive IntentSource where
  | header | detected | default
  deriving DecidableEq

/-- Any text is an intent. -/
def parseIntent (headers : HeaderMap) : Except ProfileError (String × IntentSource) :=
  match headerState headers "x-idoris-intent" with
  | .absent => .ok ("chat", .default)
  | .invalid =>
    .error (invalidHeader "X-iDoris-Intent must be a single, non-blank, UTF-8 value")
  | .present value => .ok (value, .header)

def parseCapability (raw : String) : Option Capability :=
  [("chat", Capability.chat), ("reasoning", .reasoning), ("vision", .vision), ("asr", .asr),
    ("tts", .tts), ("coding", .coding), ("embedding", .embedding), ("rerank", .rerank)].lookup raw

def splitOn (c : Char) (value : String) : List String :=
  (value.toList.splitOn c).map String.ofList

def parseCapabilityList (raw : String) : Except ProfileError (List Capability) := do
  let parts := ((splitOn ',' raw).map trim).filter fun part => part ≠ ""
  let out ← orRefuse (parts.mapM parseCapability)
    (invalidHeader "X-iDoris-Capabilities contains an unsupported capability")
  refuseIf (out.isEmpty = true)
    (invalidHeader "X-iDoris-Capabilities must not resolve to an empty list")
  return out

def parseCapabilities (headers : HeaderMap) : Except ProfileError (List Capability) :=
  match headerState headers "x-idoris-capabilities" with
  | .absent => .ok [.chat]
  | .invalid =>
    .error (invalidHeader "X-iDoris-Capabilities must be a single, non-blank, UTF-8 value")
  | .present raw => parseCapabilityList raw

end Headers

section Model

/-- What is shown of an unknown role: no control characters, and a mark where it is cut. -/
def requestedRole (rolePart : String) : String :=
  let shown := (rolePart.toList.take 64).map fun c => if EventLog.isControl c then Char.ofNat 0xFFFD else c
  String.ofList shown ++ if 64 < rolePart.length then "…" else ""

def roleParseErrorText (rolePart : String) : String :=
  "未知角色 \"" ++ requestedRole rolePart ++ "\"；合法角色为 " ++ "|".intercalate (roles.map roleText)

def parseRole (model : Option String) : Except ProfileError (Option Role) :=
  match model with
  | none => .ok none
  | some model =>
    (parseModelRole model).mapError fun rolePart =>
      ⟨400, "unknown_role", roleParseErrorText rolePart⟩

/-- The contract of a task profile, with the text of its error. -/
def validateTask (task : TaskProfile) : Except String Unit := do
  refuseIf (task.intent = some "") "task_profile.intent must not be empty"
  refuseIf (task.capabilities = some [])
    "task_profile.capabilities must have at least one entry when present"

end Model

section Profile

inductive DeployMode where
  | personal | tenant
  deriving DecidableEq

/-- An identifier that the event log takes. -/
def validEventIdentifier (value : String) : Bool :=
  !isBlank value && decide (utf16Count value ≤ 128) && !value.toList.any EventLog.isControl

def tenantMissing (message : String) : ProfileError := ⟨400, "tenant_missing", message⟩

def parseTenant (headers : HeaderMap) : Except ProfileError String :=
  match headerState headers "x-idoris-tenant" with
  | .present value => do
    refuseIf (validEventIdentifier value = false)
      (tenantMissing "deploy_mode=tenant requires a valid Event Log tenant identifier")
    return value
  | _ => .error (tenantMissing
    "deploy_mode=tenant requires a single, non-blank X-iDoris-Tenant; no default tenant fallback")

structure Profile where
  parsed : ParsedProfile
  intentSource : IntentSource

/-- There is no tenant in a personal deployment. -/
def parseTenantId (headers : HeaderMap) : DeployMode → Except ProfileError (Option String)
  | .personal => .ok none
  | .tenant => (parseTenant headers).map some

def parseProfile (headers : HeaderMap) (model : Option String) (deployMode : DeployMode) :
    Except ProfileError Profile := do
  let privacy ← parsePrivacy headers
  let (intent, intentSource) ← parseIntent headers
  let complexity ← parseComplexity headers
  let capabilities ← parseCapabilities headers
  let fallback ← parseFallback headers
  let role ← parseRole model
  let task : TaskProfile := ⟨some privacy, some intent, some complexity, some capabilities, fallback⟩
  (validateTask task).mapError invalidHeader
  let tenantId ← parseTenantId headers deployMode
  return ⟨⟨task, role, tenantId⟩, intentSource⟩

end Profile

section Correlation

structure RequestCorrelation where
  sessionId : Option String
  traceId : Option String
  parentId : Option String

inductive CorrelationError where
  | session | trace | parent
  deriving DecidableEq

def CorrelationError.reasonCode : CorrelationError → String
  | .session => "INVALID_CORRELATION_SESSION"
  | .trace => "INVALID_CORRELATION_TRACE_ID"
  | .parent => "INVALID_CORRELATION_PARENT_ID"

def parseOne (headers : HeaderMap) (name : String) (error : CorrelationError) :
    Except CorrelationError (Option String) :=
  match headers.getAll name with
  | [] => .ok none
  | [first] => do
    let raw ← orRefuse (decode first) error
    refuseIf (validEventIdentifier raw = false) error
    return some raw
  | _ => .error error

def parseCorrelation (headers : HeaderMap) : Except CorrelationError RequestCorrelation := do
  let sessionId ← parseOne headers "x-idoris-session" .session
  let traceId ← parseOne headers "x-idoris-trace-id" .trace
  let parentId ← parseOne headers "x-idoris-parent-id" .parent
  return ⟨sessionId, traceId, parentId⟩

end Correlation

end Chat
