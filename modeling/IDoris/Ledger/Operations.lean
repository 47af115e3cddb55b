import IDoris.Library.Transaction
import IDoris.Ledger.Queries

/-!
# The ledger's operations

Each operation is one transaction on the ledger file. The readings of the clock
are arguments, in the order in which the code takes them, and so are the ids it
draws.
-/
namespace Ledger

open Bounded Transaction Text

/-- What an operation answers and the ledger file it leaves. -/
abbrev Outcome (α : Type) := Except BudgetError α × Db

/-- The instants `reserve` and `extend` read: under the write lock, just before the commit
and just after it. -/
structure Readings where
  nowMs : I64
  beforeCommitMs : I64
  afterCommitMs : I64
  deriving DecidableEq

def checkReservationDeadline (reservationId : String) (expiresAtMs nowMs : I64) :
    Except BudgetError Unit :=
  refuseIf (expiresAtMs.val ≤ nowMs.val)
    (.reservationNotActive reservationId ReservationStatus.expired.asSql)

/-- A zone already in force elsewhere for the tenant must be the requested one. -/
def agreeOnZone (tenantId : String) (existing : Option String) (requested : String) :
    Except BudgetError Unit :=
  match existing with
  | some zone => refuseIf (zone ≠ requested) (.invalidConfig tenantId zone requested)
  | none => .ok ()

/-- The zone of a configuration that exists does not change under live reservations. -/
def keepZoneWhileLive (existing : Option String) (requested : String) (live : Bool) :
    Except BudgetError Unit :=
  match existing with
  | some zone => refuseIf (zone ≠ requested ∧ live) .timeZoneChangeWithActiveReservations
  | none => .ok ()

def configure (scope : BudgetScope) (limitMinor : I64) (billingTimezone : String) (nowMs : I64)
    (db : Db) : Outcome Unit :=
  close db do
    validateScope scope
    refuseIf (limitMinor.val < 0) (.invalidLimit limitMinor)
    refuseIf (!isIanaTimeZone billingTimezone) (.invalidTimeZone billingTimezone)
    agreeOnZone scope.tenantId
      ((loadTenantConfig db scope.tenantId).map TenantConfig.billingTimezone) billingTimezone
    agreeOnZone scope.tenantId (siblingSubScopeTimezone db scope.tenantId (some scope))
      billingTimezone
    keepZoneWhileLive ((loadConfig db scope).map ScopeConfig.billingTimezone) billingTimezone
      (hasActiveReservationsForScope db scope nowMs)
    pure (.ok (), upsertConfig db ⟨scope, limitMinor, billingTimezone⟩)

def configureTenant (tenantId : String) (limitMinor : I64) (billingTimezone : String)
    (gate : SpendGate) (nowMs : I64) (db : Db) : Outcome Unit :=
  close db do
    refuseIf (isBlank tenantId) (.invalidScope "tenant_id")
    refuseIf (limitMinor.val < 0) (.invalidLimit limitMinor)
    refuseIf (!isIanaTimeZone billingTimezone) (.invalidTimeZone billingTimezone)
    agreeOnZone tenantId (siblingSubScopeTimezone db tenantId none) billingTimezone
    keepZoneWhileLive ((loadTenantConfig db tenantId).map TenantConfig.billingTimezone)
      billingTimezone (hasActiveReservationsForTenant db tenantId nowMs)
    pure (.ok (), upsertTenantConfig db ⟨tenantId, limitMinor, billingTimezone, gate⟩)

/-- The tenants with any configuration that the caller does not keep. -/
def staleTenants (keep : List String) (db : Db) : List String :=
  ((db.tenantConfig.map TenantConfig.tenantId ++
      db.budgetConfig.map fun row => row.scope.tenantId).filter fun t => !keep.contains t).dedup

def retainTenants (keep : List String) (db : Db) : Outcome Nat :=
  let stale := staleTenants keep db
  (.ok stale.length,
    { db with
      budgetConfig := db.budgetConfig.filter fun row => !stale.contains row.scope.tenantId
      tenantConfig := db.tenantConfig.filter fun row => !stale.contains row.tenantId })

/-- Period of the sub-scope dimension: the sub-scope's own zone, else the tenant's. -/
def admitPeriod (zones : Zones) (scope : BudgetScope) (subConfig : Option ScopeConfig)
    (tenantCfg : Option TenantConfig) (nowMs : I64) : Except BudgetError String :=
  match subConfig, tenantCfg with
  | some cfg, _ => billingPeriodKey zones nowMs cfg.billingTimezone
  | none, some tenant => billingPeriodKey zones nowMs tenant.billingTimezone
  | none, none => .error (.notConfigured scope)

/-- Period of the tenant dimension: the tenant's zone, else the period just computed. -/
def admitTenantPeriod (zones : Zones) (scope : BudgetScope) (subConfig : Option ScopeConfig)
    (tenantCfg : Option TenantConfig) (nowMs : I64) (period : String) :
    Except BudgetError String :=
  match tenantCfg, subConfig with
  | some tenant, _ => billingPeriodKey zones nowMs tenant.billingTimezone
  | none, some _ => .ok period
  | none, none => .error (.notConfigured scope)

/-- The check of one dimension against its limit, with the rejection when it does not fit. -/
def checkDimension (tenantId : String) (limitMinor : Option I64) (spent : I64)
    (reserved : Except BudgetError I64) (estimatedCostMinor : I64) (gate : SpendGate) :
    Except BudgetError (Option BudgetError) :=
  match limitMinor with
  | none => .ok none
  | some limit => do
    let reserved ← reserved
    let committed := checkedAddI64 spent reserved
    if exceedsLimit estimatedCostMinor limit committed gate then
      pure (some (.exceededBy tenantId limit committed estimatedCostMinor))
    else pure none

/-- The gate of a tenant, paid-only for one without a configuration. -/
def effectiveGate (tenantCfg : Option TenantConfig) : SpendGate :=
  match tenantCfg with
  | some tenant => tenant.gate
  | none => .paidOnly

/-- A free request under a paid-only gate is not checked in either dimension. -/
def skipZeroCost (tenantCfg : Option TenantConfig) (estimatedCostMinor : I64) : Bool :=
  decide (effectiveGate tenantCfg = .paidOnly ∧ estimatedCostMinor.val = 0)

/-- The estimate of a price that is known and not negative. -/
def estimateOf : Price → Except BudgetError I64
  | .unknown => .error .priceUnknown
  | .known minor => do
    refuseIf (minor.val < 0) (.invalidEstimate minor)
    pure minor

/-- The buckets an admission falls into and the database after its sweep. -/
structure Admission where
  subConfig : Option ScopeConfig
  tenantCfg : Option TenantConfig
  period : String
  tenantPeriod : String
  swept : Db
  deriving DecidableEq

/-- The part of the admission before the limits are looked at. -/
def openAdmission (zones : Zones) (scope : BudgetScope) (nowMs : I64) (db : Db) :
    Except BudgetError Admission := do
  rejectAmountOverflow db scope.tenantId none
  let subConfig := loadConfig db scope
  let tenantCfg := loadTenantConfig db scope.tenantId
  refuseIf (subConfig.isNone ∧ tenantCfg.isNone) (.notConfigured scope)
  let period ← admitPeriod zones scope subConfig tenantCfg nowMs
  let tenantPeriod ← admitTenantPeriod zones scope subConfig tenantCfg nowMs period
  pure ⟨subConfig, tenantCfg, period, tenantPeriod, sweepExpiredScope db scope period nowMs⟩

def checkScopeLimit (adm : Admission) (scope : BudgetScope) (estimatedCostMinor nowMs : I64) :
    Except BudgetError (Option BudgetError) :=
  if skipZeroCost adm.tenantCfg estimatedCostMinor then .ok none
  else checkDimension scope.tenantId (adm.subConfig.map ScopeConfig.limitMinor)
    (spentFor adm.swept scope adm.period)
    (activeReservedFor adm.swept scope adm.period nowMs) estimatedCostMinor
    (effectiveGate adm.tenantCfg)

def checkTenantLimit (adm : Admission) (scope : BudgetScope) (estimatedCostMinor nowMs : I64) :
    Except BudgetError (Option BudgetError) :=
  if skipZeroCost adm.tenantCfg estimatedCostMinor then .ok none
  else checkDimension scope.tenantId (adm.tenantCfg.map TenantConfig.limitMinor)
    (tenantSpentFor adm.swept scope.tenantId adm.tenantPeriod)
    (tenantActiveReservedFor adm.swept scope.tenantId adm.tenantPeriod nowMs)
    estimatedCostMinor (effectiveGate adm.tenantCfg)

/-- The insert at the end of an admission that persists. -/
def persistAdmission (ledger : BudgetLedger) (adm : Admission) (scope : BudgetScope)
    (estimatedCostMinor : I64) (id : String) (clock : Readings) :
    Except BudgetError (Outcome (Option String)) := do
  let expiresAtMs ←
    orRefuse (clock.nowMs.checkedAdd ledger.ttlMs) (.invalidTimestamp clock.nowMs)
  let db ← insertReservation adm.swept
    { id, scope, period := adm.period, tenantPeriod := adm.tenantPeriod,
      reservedMinor := estimatedCostMinor, status := .active, createdAtMs := clock.nowMs,
      expiresAtMs, actualCostMinor := none }
  checkReservationDeadline id expiresAtMs clock.beforeCommitMs
  -- the second check comes after the commit: it can only withhold the answer
  pure ((checkReservationDeadline id expiresAtMs clock.afterCommitMs).map fun _ => some id, db)

/-- The ledger's `admit` function behind `reserve` and `check_admission`. -/
def admitReservation (zones : Zones) (ledger : BudgetLedger) (scope : BudgetScope) (estimatedCost : Price)
    (persist : Bool) (id : String) (clock : Readings) (db : Db) : Outcome (Option String) :=
  close db do
    validateScope scope
    let estimatedCostMinor ← estimateOf estimatedCost
    let adm ← openAdmission zones scope clock.nowMs db
    -- a rejection commits: nothing is written, but the sweep is kept
    match ← checkScopeLimit adm scope estimatedCostMinor clock.nowMs with
    | some rejection => pure (.error rejection, adm.swept)
    | none =>
      match ← checkTenantLimit adm scope estimatedCostMinor clock.nowMs with
      | some rejection => pure (.error rejection, adm.swept)
      | none =>
        if persist then persistAdmission ledger adm scope estimatedCostMinor id clock
        else pure (.ok none, adm.swept)

def reserve (zones : Zones) (ledger : BudgetLedger) (scope : BudgetScope) (estimatedCost : Price)
    (id : String) (clock : Readings) (db : Db) : Outcome String :=
  let (answer, db) := admitReservation zones ledger scope estimatedCost true id clock db
  (answer.bind fun
    | some id => .ok id
    | none => .error (.storage "persisted reservation missing"), db)

def checkAdmission (zones : Zones) (ledger : BudgetLedger) (scope : BudgetScope)
    (estimatedCost : Price) (clock : Readings) (db : Db) : Outcome Unit :=
  let (answer, db) := admitReservation zones ledger scope estimatedCost false "" clock db
  (answer.map fun _ => (), db)

structure SettleReceipt where
  reservedMinor : I64
  actualCostMinor : I64
  refundedMinor : I64
  late : Bool
  overageMinor : I64
  deriving DecidableEq

/-- Whether the charge of a row comes late; a settled or released row is not charged. -/
def lateOf (row : ReservationRow) (nowMs : I64) : Except BudgetError Bool :=
  match row.status with
  | .active => .ok (decide (row.expiresAtMs.val ≤ nowMs.val))
  | .expired => .ok true
  | status => .error (.reservationNotActive row.id status.asSql)

/-- The writes of a charge: both totals, the row, and the event of an overage. -/
def charge (row : ReservationRow) (tenantId : String) (actualCostMinor scopeTotal tenantTotal : I64)
    (eventId : String) (nowMs : I64) (db : Db) : Except BudgetError Db := do
  let overageMinor := atLeastZero (checkedSubI64 actualCostMinor row.reservedMinor)
  let db ← upsertBudgetPeriod db ⟨row.scope, row.period, scopeTotal⟩
  let db := updateReservation db row.id fun r =>
    { r with status := .settled, actualCostMinor := some actualCostMinor }
  let db ← upsertTenantPeriod db ⟨tenantId, row.tenantPeriod, tenantTotal⟩
  if 0 < overageMinor.val then
    insertOverageEvent db
      ⟨eventId, tenantId, row.id, row.reservedMinor, actualCostMinor, overageMinor, nowMs⟩
  else pure db

def settleAnswer (row : ReservationRow) (actualCostMinor : I64) (late : Bool) :
    Except BudgetError SettleReceipt :=
  if row.reservedMinor.val * 4 < actualCostMinor.val then
    .error (.overageTooLarge row.id row.reservedMinor actualCostMinor)
  else
    .ok ⟨row.reservedMinor, actualCostMinor,
      atLeastZero (checkedSubI64 row.reservedMinor actualCostMinor), late,
      atLeastZero (checkedSubI64 actualCostMinor row.reservedMinor)⟩

/-- The clock is read before the write lock is waited for. -/
def settle (tenantId reservationId : String) (actualCostMinor nowMs : I64) (eventId : String)
    (db : Db) : Outcome SettleReceipt :=
  close db do
    refuseIf (actualCostMinor.val < 0) (.invalidActualCost actualCostMinor)
    let row ← findReservation db tenantId reservationId
    let late ← lateOf row nowMs
    rejectAmountOverflow db tenantId (some reservationId)
    match I64.checkedAdd (spentFor db row.scope row.period) actualCostMinor,
        I64.checkedAdd (tenantSpentFor db tenantId row.tenantPeriod) actualCostMinor with
    | some scopeTotal, some tenantTotal =>
      let db ← charge row tenantId actualCostMinor scopeTotal tenantTotal eventId nowMs db
      pure (settleAnswer row actualCostMinor late, db)
    | _, _ =>
      let db ← insertAmountOverflow db ⟨reservationId, tenantId, actualCostMinor, nowMs⟩
      pure (.error (.amountOverflow reservationId actualCostMinor), db)

/-- The stored cost of a settled reservation of the tenant, if there is one. -/
def settledAmount (tenantId reservationId : String) (db : Db) : Option (Option I64) :=
  ((Table.lookup ReservationRow.id reservationId db.reservations).filter fun row =>
    decide (row.scope.tenantId = tenantId ∧ row.status = .settled)).map
      ReservationRow.actualCostMinor

/-- The answer of `replay_settlement`, from what its `settle` answered and from the ledger
file its second read finds, which other connections may have changed by then. -/
def replayAnswer (tenantId reservationId : String) (actualCostMinor : I64)
    (settled : Except BudgetError SettleReceipt) (later : Db) : Except BudgetError Unit :=
  match settled with
  | .ok _ => .ok ()
  | .error (.overageTooLarge _ _ _) => .ok ()
  | .error (.reservationNotActive id status) =>
    if settledAmount tenantId reservationId later = some (some actualCostMinor) then .ok ()
    else .error (.reservationNotActive id status)
  | .error err => .error err

def extend (ledger : BudgetLedger) (tenantId reservationId : String) (additionalTtlMs : I64)
    (clock : Readings) (db : Db) : Outcome Unit :=
  close db do
    refuseIf (additionalTtlMs.val ≤ 0 ∨ ledger.ttlMs.val < additionalTtlMs.val)
      (.invalidTtl additionalTtlMs)
    let row ← findReservation db tenantId reservationId
    refuseIf (row.status ≠ .active ∨ row.expiresAtMs.val ≤ clock.nowMs.val)
      (.reservationNotActive reservationId row.status.asSql)
    let newExpiresAtMs ←
      orRefuse (clock.nowMs.checkedAdd additionalTtlMs) (.invalidTimestamp clock.nowMs)
    let maxLifetimeMs ←
      orRefuse (ledger.ttlMs.checkedMul (I64.lit 4)) (.invalidTtl additionalTtlMs)
    let maxExpiresAtMs ←
      orRefuse (row.createdAtMs.checkedAdd maxLifetimeMs) (.invalidTimestamp clock.nowMs)
    refuseIf (maxExpiresAtMs.val < newExpiresAtMs.val) (.invalidTtl additionalTtlMs)
    let db := updateReservation db reservationId fun r => { r with expiresAtMs := newExpiresAtMs }
    checkReservationDeadline reservationId newExpiresAtMs clock.beforeCommitMs
    pure (checkReservationDeadline reservationId newExpiresAtMs clock.afterCommitMs, db)

def release (tenantId reservationId : String) (db : Db) : Outcome Unit :=
  close db do
    let row ← findReservation db tenantId reservationId
    match row.status with
    | .released => pure (.ok (), db)
    | .settled => throw (.reservationNotActive reservationId row.status.asSql)
    | _ =>
      rejectAmountOverflow db tenantId (some reservationId)
      pure (.ok (), updateReservation db reservationId fun r => { r with status := .released })

/-- Answers the number of rows that were still active and had expired. -/
def sweepExpired (nowMs : I64) (db : Db) : Outcome Nat :=
  (.ok ((db.reservations.filter fun row =>
      decide (row.status = .active ∧ row.expiresAtMs.val ≤ nowMs.val)).length), sweepAll db nowMs)

end Ledger
