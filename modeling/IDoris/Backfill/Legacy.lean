import Mathlib.Algebra.Order.Floor.Defs
import Mathlib.Data.Rat.Floor
import Mathlib.Data.String.Basic
import IDoris.EventLog.Store
import IDoris.Library.Effect
import IDoris.Library.Paging

/-!
# The backfill of legacy audit records

At every start the audit records of the old table are appended to the event log, page by page,
unless the log has them. A start can be interrupted before any append. The texts of errors are
left out.
-/
namespace Backfill

open Bounded Json Text EventLog
open Effectful (Eff)

inductive RecordKind where
  | usage | audit
  deriving DecidableEq

/-- A row of `tenant_records`. -/
structure RawRecord where
  tenantId : String
  kind : RecordKind
  recordId : String
  requestId : String
  originRecordId : Option String
  payload : String
  deriving DecidableEq

structure TenantRecord (N : Type) where
  tenantId : String
  kind : RecordKind
  recordId : String
  requestId : String
  originRecordId : Option String
  payload : Metadata N

/-- The table, with its primary key. -/
structure TenantStore where
  rows : List RawRecord
  keys : (rows.map fun raw => (raw.tenantId, raw.kind, raw.recordId)).Nodup

inductive StoreError where
  | scopeRequired
  | json
  deriving DecidableEq

/-- What the program uses of its libraries: JSON text, the value of a number, which is none when
it is not finite, and the identifiers that are handed out one after another. -/
structure Libraries (N : Type) extends Codec N where
  asF64 : N → Option ℚ
  newUuid : Nat → String

section Store

variable {N : Type} (libraries : Libraries N) (store : TenantStore)

def rawToRecord (raw : RawRecord) : Except StoreError (TenantRecord N) := do
  let payload ← Transaction.orRefuse (libraries.fromJson raw.payload) .json
  return ⟨raw.tenantId, raw.kind, raw.recordId, raw.requestId, raw.originRecordId, payload⟩

def TenantStore.audits (store : TenantStore) : List RawRecord :=
  store.rows.filter fun raw => raw.kind = .audit

def auditTenantsForMigration : List String :=
  ((store.audits.map RawRecord.tenantId).dedup).insertionSort (· ≤ ·)

def TenantStore.auditsOf (store : TenantStore) (tenant : String) : List RawRecord :=
  store.audits.filter fun raw => raw.tenantId = tenant

def auditMigrationBatch (scope afterRecord : Option String) (limit : Nat) :
    Except StoreError (List (TenantRecord N)) := do
  let scope ← Transaction.orRefuse (scope.filter fun value => !isBlank value) .scopeRequired
  (Paging.page RawRecord.recordId (store.auditsOf scope) afterRecord limit).mapM
    (rawToRecord libraries)

end Store

section Mapping

variable {N : Type}

def maxUtf16Units : Nat := 128

def valid (value : String) : Bool :=
  !isBlank value && utf16Count value ≤ maxUtf16Units && !value.toList.any isControl

/-- The fields of a map stay in the order of their keys. -/
def insertField (metadata : Metadata N) (key : String) (value : Value N) : Metadata N :=
  match metadata with
  | [] => [(key, value)]
  | field :: rest =>
    if key = field.1 then (key, value) :: rest
    else if key < field.1 then (key, value) :: field :: rest
    else field :: insertField rest key value

def mappedKeys : List (String × String) :=
  [("component", "component"), ("intent", "intent"), ("privacy", "privacy"), ("tier", "tier"),
    ("provider_id", "provider_id"), ("model_id", "model_id"), ("tokens_in", "tokens_in"),
    ("tokens_out", "tokens_out"), ("cost_minor", "cost_minor"), ("latency_ms", "latency_ms"),
    ("status", "http_status"), ("reason", "reason")]

/-- Texts that the log would refuse are not mapped. -/
def mappedMetadata (payload : Metadata N) : Metadata N :=
  mappedKeys.foldl (fun metadata (source, target) =>
    match payload.lookup source with
    | some value =>
      if value.asStr.all validString then insertField metadata target value else metadata
    | none => metadata) (insertField [] "component" (.string "router"))

variable (libraries : Libraries N)

def timestamp (payload : Metadata N) : Option I64 :=
  match payload.lookup "ts_utc" with
  | some (.number n) =>
    ((libraries.asF64 n).filter fun value => 0 ≤ value ∧ value < 2 ^ 63).map
      fun value => I64.clamp ⌊value⌋
  | _ => none

def finalizedEvent (eventId : String) (tsUtcMs : I64) (record : TenantRecord N) : NewEvent N where
  eventId := eventId
  tenantId := record.tenantId
  recordId := record.recordId
  eventType := .auditFinalized
  tsUtcMs := tsUtcMs
  requestId := some (if valid record.requestId then record.requestId else record.recordId)
  sessionId := none
  traceId := none
  parentId := none
  originRecordId := record.originRecordId
  metadata := mappedMetadata record.payload

end Mapping

section Backfill

structure AuditMigrationReport where
  migrated : Nat
  retainedIncompatible : Nat
  deriving DecidableEq

def AuditMigrationReport.migrate (report : AuditMigrationReport) : AuditMigrationReport :=
  { report with migrated := report.migrated + 1 }

def AuditMigrationReport.retain (report : AuditMigrationReport) : AuditMigrationReport :=
  { report with retainedIncompatible := report.retainedIncompatible + 1 }

inductive BackfillError where
  | batch (tenant : String) (error : StoreError)
  | check (tenant recordId : String) (error : EventLogError)
  | migrate (tenant recordId : String) (error : EventLogError)
  deriving DecidableEq

/-- Why a run does not complete. -/
inductive Stop where
  | failed (error : BackfillError)
  | interrupted
  | endless
  deriving DecidableEq

/-- The two stores, how many identifiers have been handed out, and how many appends the process
will live to try, if it does not live on. -/
structure World where
  legacy : TenantStore
  log : Log
  uuids : Nat
  left : Option Nat

/-- Errors for what the log does not take; the record stays where it is. -/
def incompatible : EventLogError → Bool
  | .invalidIdentifier _ | .invalidRecordId | .invalidTimestamp | .invalidMetadata _ => true
  | _ => false

abbrev Run := Eff Stop World

variable {N : Type} [DecidableEq N] (libraries : Libraries N)

def newUuid : Run String := do
  let w ← get
  set { w with uuids := w.uuids + 1 }
  return libraries.newUuid w.uuids

def appendEvent (tenant : String) (event : NewEvent N) : Run (Except EventLogError Nat) := do
  let w ← get
  if w.left = some 0 then throw .interrupted
  else
    let (answer, log) := append libraries.toCodec (some tenant) event w.log
    set { w with log, left := w.left.map (· - 1) }
    return answer

def orFail {ε α : Type} (result : Except ε α) (error : ε → BackfillError) : Run α :=
  match result with
  | .ok a => pure a
  | .error e => throw (.failed (error e))

/-- The identifiers of a record are those of an event. -/
def compatible (tenant : String) (record : TenantRecord N) : Bool :=
  valid tenant && valid record.recordId && record.originRecordId.all valid

def migratedAuditEvent (record : TenantRecord N) : Run (Option (NewEvent N)) := do
  match timestamp libraries record.payload with
  | none => return none
  | some tsUtcMs =>
    let eventId ← newUuid libraries
    return some (finalizedEvent eventId tsUtcMs record)

def backfillRecord (tenant : String) (report : AuditMigrationReport) (record : TenantRecord N) :
    Run AuditMigrationReport :=
  if !compatible tenant record then pure report.retain
  else do
    match ← migratedAuditEvent libraries record with
    | none => return report.retain
    | some event =>
      let w ← get
      let existing ← orFail (eventsForRecord libraries.toCodec (some tenant) record.recordId w.log)
        (.check tenant record.recordId)
      if existing.any fun stored => stored.event.eventType = .auditFinalized then return report
      else
        match ← appendEvent libraries tenant event with
        | .ok _ => return report.migrate
        | .error error =>
          if incompatible error then return report.retain
          else throw (.failed (.migrate tenant record.recordId error))

/-- The pages of a tenant, one after another. -/
def backfillTenant (tenant : String) : (fuel : Nat) → (after : Option String) →
    AuditMigrationReport → Run AuditMigrationReport
  | 0, _, _ => throw .endless
  | fuel + 1, after, report => do
    let w ← get
    let batch ← orFail (auditMigrationBatch libraries w.legacy (some tenant) after 256)
      (.batch tenant)
    match batch.getLast? with
    | none => return report
    | some last =>
      let report ← batch.foldlM (backfillRecord libraries tenant) report
      backfillTenant tenant fuel (some last.recordId) report

/-- There are no more pages than rows. -/
def backfillLegacyAudits : Run AuditMigrationReport := do
  let w ← get
  (auditTenantsForMigration w.legacy).foldlM (fun report tenant =>
    backfillTenant libraries tenant (w.legacy.rows.length + 1) none report) ⟨0, 0⟩

/-- A start, which lives to try so many appends. -/
def start (w : World) (left : Option Nat) : Except Stop AuditMigrationReport × World :=
  Effectful.run (backfillLegacyAudits libraries) { w with left }

end Backfill

end Backfill
