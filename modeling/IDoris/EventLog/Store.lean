import Mathlib.Data.List.Sort
import IDoris.Library.Bounded
import IDoris.Library.Json
import IDoris.Library.Text
import IDoris.Library.Transaction

/-!
# The event log's store

One table that is only inserted into. The JSON text of an event's metadata and
the reading of its id are those of libraries and stay parameters.
-/
namespace EventLog

open Bounded Json Text Transaction

def maxStringUtf16Units : Nat := 500
def maxArrayItems : Nat := 32

def scalarKeys : List String :=
  ["component", "intent", "privacy", "tier", "provider_id", "model_id", "tokens_in", "tokens_out",
    "token_estimator", "cost_minor", "latency_ms", "status", "http_status", "reason", "rule_id",
    "served_locality", "degraded", "cached", "reserved_minor", "settled_minor", "price_version",
    "rating", "outcome", "failure_mode", "sensitivity", "training_eligible"]

def arrayKeys : List String := ["reason_codes", "labels"]

def objectArrayKeys : List String := ["rubric"]

def contentKeys : List String :=
  ["prompt", "prompts", "input", "inputs", "content", "contents", "text", "texts", "body",
    "messages", "message", "response", "responses", "output", "outputs", "completion",
    "completions", "corrected_output", "query", "answer", "raw", "data"]

inductive EventType where
  | requestReceived | inspected | profiled | decided | budgetReserved | dispatched
  | streamStarted | streamChunk | streamCompleted | completed | budgetSettled
  | auditFinalized | feedbackReceived
  deriving DecidableEq

inductive EventLogError where
  | scopeRequired
  | tenantMismatch
  | invalidEventId
  | invalidRecordId
  | invalidLimit
  | invalidIdentifier (field : String)
  | invalidTimestamp
  | unknownEventType
  | idempotencyConflict
  | invalidMetadata (key : String)
  | sql (message : String)
  | json
  deriving DecidableEq

namespace EventType

def all : List EventType :=
  [.requestReceived, .inspected, .profiled, .decided, .budgetReserved, .dispatched,
    .streamStarted, .streamChunk, .streamCompleted, .completed, .budgetSettled, .auditFinalized,
    .feedbackReceived]

def asStr : EventType → String
  | .requestReceived => "request.received"
  | .inspected => "inspected"
  | .profiled => "profiled"
  | .decided => "decided"
  | .budgetReserved => "budget.reserved"
  | .dispatched => "dispatched"
  | .streamStarted => "stream.started"
  | .streamChunk => "stream.chunk"
  | .streamCompleted => "stream.completed"
  | .completed => "completed"
  | .budgetSettled => "budget.settled"
  | .auditFinalized => "audit.finalized"
  | .feedbackReceived => "feedback.received"

def parse (value : String) : Except EventLogError EventType :=
  orRefuse (all.find? fun eventType => eventType.asStr = value) .unknownEventType

/-- Every type is read back from its name. -/
@[simp] theorem parse_asStr (eventType : EventType) : parse eventType.asStr = .ok eventType := by
  cases eventType <;> rfl

end EventType

abbrev Metadata (N : Type) := List (String × Value N)

structure NewEvent (N : Type) where
  eventId : String
  tenantId : String
  recordId : String
  eventType : EventType
  tsUtcMs : I64
  requestId : Option String
  sessionId : Option String
  traceId : Option String
  parentId : Option String
  originRecordId : Option String
  metadata : Metadata N
  deriving DecidableEq

structure EventLogEvent (N : Type) where
  sequence : Nat
  event : NewEvent N
  deriving DecidableEq

structure EventLogQuery where
  fromTsUtcMs : Option I64
  toTsUtcMs : Option I64
  recordId : Option String
  limit : Nat

/-- A row of `event_log_events`. -/
structure RawEvent where
  sequence : Nat
  eventId : String
  tenantId : String
  recordId : String
  eventType : String
  tsUtcMs : I64
  requestId : Option String
  sessionId : Option String
  traceId : Option String
  parentId : Option String
  originRecordId : Option String
  metadata : String
  deriving DecidableEq

/-- The log file: its rows and the largest sequence number ever assigned. -/
structure Log where
  rows : List RawEvent
  assigned : Nat
  deriving DecidableEq

def Log.empty : Log := ⟨[], 0⟩

/-- What the store uses of its libraries: the version of a UUID that parses, and the JSON text of
a metadata map, written and read. -/
structure Codec (N : Type) where
  uuidVersion : String → Option Nat
  toJson : Metadata N → String
  fromJson : String → Option (Metadata N)

section Validation

def utf16Count (value : String) : Nat :=
  (value.toList.map fun c => if c.toNat < 0x10000 then 1 else 2).sum

/-- The control characters of Unicode. -/
def isControl (c : Char) : Bool := decide (c.toNat < 32 ∨ 127 ≤ c.toNat ∧ c.toNat < 160)

def validateId (field value : String) : Except EventLogError Unit :=
  refuseIf (isBlank value ∨ 128 < utf16Count value ∨ value.toList.any isControl = true)
    (.invalidIdentifier field)

def validateOptionalId (field : String) (value : Option String) : Except EventLogError Unit :=
  match value with
  | some value => validateId field value
  | none => .ok ()

def validString (value : String) : Bool :=
  decide (utf16Count value ≤ maxStringUtf16Units) && !value.toList.any isControl

variable {N : Type}

/-- One item of a rubric: an id and whether it passed. -/
def validRubricItem (item : Value N) : Bool :=
  item.asObject.any fun fields =>
    fields.length = 2 &&
    ((fields.lookup "id").bind Value.asStr).any (fun id => !isBlank id && validString id) &&
    (fields.lookup "pass").any Value.isBoolean

def validArray (validItem : Value N → Bool) (value : Value N) : Bool :=
  value.asArray.any fun items => decide (items.length ≤ maxArrayItems) && items.all validItem

def validScalar (value : Value N) : Bool :=
  value.asArray.isNone && value.asObject.isNone && value.asStr.all validString

def validEntry (key : String) (value : Value N) : Bool :=
  !contentKeys.contains key &&
  (scalarKeys.contains key || arrayKeys.contains key || objectArrayKeys.contains key) &&
  if objectArrayKeys.contains key then validArray validRubricItem value
  else if arrayKeys.contains key then validArray (fun item => item.asStr.any validString) value
  else validScalar value

def validateMetadata (metadata : Metadata N) : Except EventLogError Unit :=
  match metadata.find? fun entry => !validEntry entry.1 entry.2 with
  | some entry => .error (.invalidMetadata entry.1)
  | none => .ok ()

variable (codec : Codec N)

def validateStoredEvent (event : NewEvent N) : Except EventLogError Unit := do
  refuseIf (codec.uuidVersion event.eventId ≠ some 4) .invalidEventId
  validateId "tenant_id" event.tenantId
  refuseIf (isBlank event.recordId) .invalidRecordId
  validateId "record_id" event.recordId
  validateOptionalId "request_id" event.requestId
  validateOptionalId "session_id" event.sessionId
  validateOptionalId "trace_id" event.traceId
  validateOptionalId "parent_id" event.parentId
  validateOptionalId "origin_record_id" event.originRecordId
  refuseIf (event.tsUtcMs.val < 0) .invalidTimestamp
  validateMetadata event.metadata

def validateEvent (scope : String) (event : NewEvent N) : Except EventLogError Unit := do
  refuseIf (event.tenantId ≠ scope) .tenantMismatch
  validateStoredEvent codec event

def requiredScope (scope : Option String) : Except EventLogError String := do
  let scope ← orRefuse (scope.filter fun value => !isBlank value) .scopeRequired
  validateId "tenant_id" scope
  pure scope

end Validation

section Operations

variable {N : Type} (codec : Codec N)

def decode (raw : RawEvent) : Except EventLogError (EventLogEvent N) := do
  let eventType ← EventType.parse raw.eventType
  let metadata ← orRefuse (codec.fromJson raw.metadata) .json
  let event : NewEvent N :=
    { eventId := raw.eventId, tenantId := raw.tenantId, recordId := raw.recordId, eventType,
      tsUtcMs := raw.tsUtcMs, requestId := raw.requestId, sessionId := raw.sessionId,
      traceId := raw.traceId, parentId := raw.parentId, originRecordId := raw.originRecordId,
      metadata }
  validateStoredEvent codec event
  pure ⟨raw.sequence, event⟩

/-- The row the insert writes. -/
def encode (scope : String) (sequence : Nat) (event : NewEvent N) : RawEvent :=
  { sequence, eventId := event.eventId, tenantId := scope, recordId := event.recordId,
    eventType := event.eventType.asStr, tsUtcMs := event.tsUtcMs, requestId := event.requestId,
    sessionId := event.sessionId, traceId := event.traceId, parentId := event.parentId,
    originRecordId := event.originRecordId, metadata := codec.toJson event.metadata }

def loadById (log : Log) (eventId : String) : Except EventLogError (Option (EventLogEvent N)) :=
  match log.rows.find? fun raw => raw.eventId = eventId with
  | some raw => (decode codec raw).map some
  | none => .ok none

/-- An insert with the next sequence number; the schema refuses an id that is there. -/
def insertEvent (log : Log) (row : Nat → RawEvent) : Except EventLogError Log :=
  let raw := row (log.assigned + 1)
  if log.rows.any fun old => old.eventId = raw.eventId then
    .error (.sql "event insert violates append-only invariants")
  else .ok ⟨log.rows ++ [raw], log.assigned + 1⟩

def append (scope : Option String) (event : NewEvent N) [DecidableEq N] (log : Log) :
    Except EventLogError Nat × Log :=
  close log do
    let scope ← requiredScope scope
    validateEvent codec scope event
    match ← loadById codec log event.eventId with
    | some existing =>
      refuseIf (existing.event ≠ event) .idempotencyConflict
      pure (.ok existing.sequence, log)
    | none =>
      let log ← insertEvent log fun sequence => encode codec scope sequence event
      pure (.ok log.assigned, log)

/-- `ORDER BY sequence`. -/
def orderBySequence (rows : List RawEvent) : List RawEvent :=
  rows.insertionSort fun a b => a.sequence ≤ b.sequence

def validateRecordId (recordId : String) : Except EventLogError Unit := do
  refuseIf (isBlank recordId) .invalidRecordId
  validateId "record_id" recordId

def eventsForRecord (scope : Option String) (recordId : String) (log : Log) :
    Except EventLogError (List (EventLogEvent N)) := do
  let scope ← requiredScope scope
  validateRecordId recordId
  (orderBySequence (log.rows.filter fun raw =>
    raw.tenantId = scope ∧ raw.recordId = recordId)).mapM (decode codec)

/-- The time bounds and the record of a query, on a row or an event. -/
def EventLogQuery.selects (query : EventLogQuery) (tsUtcMs : I64) (recordId : String) : Bool :=
  query.fromTsUtcMs.all (fun bound => decide (bound.val ≤ tsUtcMs.val)) &&
  query.toTsUtcMs.all (fun bound => decide (tsUtcMs.val < bound.val)) &&
  query.recordId.all fun wanted => recordId = wanted

def eventsForTenant (scope : Option String) (query : EventLogQuery) (log : Log) :
    Except EventLogError (List (EventLogEvent N)) := do
  let scope ← requiredScope scope
  match query.recordId with
  | some recordId => validateRecordId recordId
  | none => pure ()
  let limit ← orRefuse (I64.checked query.limit) .invalidLimit
  refuseIf (limit.val ≤ 0) .invalidLimit
  ((orderBySequence (log.rows.filter fun raw =>
    raw.tenantId = scope ∧ query.selects raw.tsUtcMs raw.recordId = true)).take
      limit.val.toNat).mapM (decode codec)

end Operations

end EventLog
