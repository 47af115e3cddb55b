import IDoris.Ledger.Period
import IDoris.Library.Text

/-!
# The statements a ledger transaction is made of

Selects return what the statement reads; updates return the database they leave.
-/
namespace Ledger

open Bounded Text

def validateScope (scope : BudgetScope) : Except BudgetError Unit :=
  if isBlank scope.tenantId then .error (.invalidScope "tenant_id")
  else if isBlank scope.keyId then .error (.invalidScope "key_id")
  else if isBlank scope.providerId then .error (.invalidScope "provider_id")
  else if isBlank scope.modelId then .error (.invalidScope "model_id")
  else .ok ()

def loadConfig (db : Db) (scope : BudgetScope) : Option ScopeConfig :=
  Table.lookup ScopeConfig.scope scope db.budgetConfig

def loadTenantConfig (db : Db) (tenantId : String) : Option TenantConfig :=
  Table.lookup TenantConfig.tenantId tenantId db.tenantConfig

def spentFor (db : Db) (scope : BudgetScope) (period : String) : I64 :=
  match Table.lookup BudgetPeriod.key (scope, period) db.budgetPeriods with
  | some row => row.spentMinor
  | none => I64.lit 0

def tenantSpentFor (db : Db) (tenantId period : String) : I64 :=
  match Table.lookup TenantPeriod.key (tenantId, period) db.tenantPeriods with
  | some row => row.spentMinor
  | none => I64.lit 0

/-- `SUM` over a column: it fails when a partial sum leaves the 64-bit range. -/
def sumColumn (amounts : List I64) : Except BudgetError I64 :=
  match I64.sum amounts with
  | some total => .ok total
  | none => .error (.storage "integer overflow")

/-- A row that the scope-level sum of active reservations ranges over. -/
def ReservationRow.countsForScope (row : ReservationRow) (scope : BudgetScope) (period : String)
    (nowMs : I64) : Bool :=
  decide (row.scope = scope ∧ row.period = period) && row.counts nowMs

/-- A row that the tenant-level sum of active reservations ranges over. -/
def ReservationRow.countsForTenant (row : ReservationRow) (tenantId tenantPeriod : String)
    (nowMs : I64) : Bool :=
  decide (row.scope.tenantId = tenantId ∧ row.tenantPeriod = tenantPeriod) && row.counts nowMs

def activeReservedFor (db : Db) (scope : BudgetScope) (period : String) (nowMs : I64) :
    Except BudgetError I64 :=
  sumColumn ((db.reservations.filter fun row => row.countsForScope scope period nowMs).map
    ReservationRow.reservedMinor)

def tenantActiveReservedFor (db : Db) (tenantId tenantPeriod : String) (nowMs : I64) :
    Except BudgetError I64 :=
  sumColumn
    ((db.reservations.filter fun row => row.countsForTenant tenantId tenantPeriod nowMs).map
      ReservationRow.reservedMinor)

def hasActiveReservationsForScope (db : Db) (scope : BudgetScope) (nowMs : I64) : Bool :=
  db.reservations.any fun row => decide (row.scope = scope) && row.counts nowMs

def hasActiveReservationsForTenant (db : Db) (tenantId : String) (nowMs : I64) : Bool :=
  db.reservations.any fun row => decide (row.scope.tenantId = tenantId) && row.counts nowMs

/-- The zone of the first sub-scope row of the tenant that is not the excluded one. -/
def siblingSubScopeTimezone (db : Db) (tenantId : String) (exclude : Option BudgetScope) :
    Option String :=
  (db.budgetConfig.find? fun row => decide (row.scope.tenantId = tenantId) &&
    match exclude with
    | some ex => !decide (ex.keyId = row.scope.keyId ∧ ex.providerId = row.scope.providerId ∧
        ex.modelId = row.scope.modelId)
    | none => true).map ScopeConfig.billingTimezone

/-- Fails on a pending overflow of the tenant, of one reservation when it is given. -/
def rejectAmountOverflow (db : Db) (tenantId : String) (reservationId : Option String) :
    Except BudgetError Unit :=
  match db.budgetAmountOverflows.find? fun row => decide (row.tenantId = tenantId) &&
      match reservationId with
      | some id => decide (row.reservationId = id)
      | none => true with
  | some row => .error (.amountOverflow row.reservationId row.actualCostMinor)
  | none => .ok ()

/-- The id is the primary key, so the row by id and tenant is the row by id of that tenant. -/
def findReservation (db : Db) (tenantId reservationId : String) :
    Except BudgetError ReservationRow :=
  match Table.lookup ReservationRow.id reservationId db.reservations with
  | some row =>
    if row.scope.tenantId = tenantId then .ok row else .error (.tenantMismatch reservationId)
  | none => .error (.reservationNotFound reservationId)

def exceedsLimit (estimatedCostMinor limitMinor committed : I64) (gate : SpendGate) : Bool :=
  let balance := checkedSubI64 limitMinor committed
  if estimatedCostMinor.val = 0 ∧ gate = .all then decide (balance.val ≤ 0)
  else decide (balance.val < estimatedCostMinor.val)

/-- An active row that is due turns expired; no other row changes. -/
def ReservationRow.expireIf (row : ReservationRow) (due : Bool) : ReservationRow :=
  { row with status := if due && row.status = .active then .expired else row.status }

def sweepWhere (due : ReservationRow → Bool) (db : Db) : Db :=
  { db with reservations := db.reservations.map fun row => row.expireIf (due row) }

def sweepExpiredScope (db : Db) (scope : BudgetScope) (period : String) (nowMs : I64) : Db :=
  sweepWhere (fun row => decide (row.scope = scope ∧ row.period = period ∧
    row.expiresAtMs.val ≤ nowMs.val)) db

def sweepAll (db : Db) (nowMs : I64) : Db :=
  sweepWhere (fun row => decide (row.expiresAtMs.val ≤ nowMs.val)) db

def upsertConfig (db : Db) (row : ScopeConfig) : Db :=
  { db with budgetConfig := Table.upsert ScopeConfig.scope row db.budgetConfig }

def upsertTenantConfig (db : Db) (row : TenantConfig) : Db :=
  { db with tenantConfig := Table.upsert TenantConfig.tenantId row db.tenantConfig }

/-- An update of the reservation with one id. -/
def updateReservation (db : Db) (reservationId : String) (f : ReservationRow → ReservationRow) :
    Db :=
  { db with reservations := Table.update ReservationRow.id reservationId f db.reservations }

def insertReservation (db : Db) (row : ReservationRow) : Except BudgetError Db :=
  match Table.lookup ReservationRow.id row.id db.reservations with
  | some _ => .error (.storage "UNIQUE constraint failed: reservations.id")
  | none => .ok { db with reservations := db.reservations ++ [row] }

def insertAmountOverflow (db : Db) (row : AmountOverflow) : Except BudgetError Db :=
  match Table.lookup AmountOverflow.reservationId row.reservationId db.budgetAmountOverflows with
  | some _ =>
    .error (.storage "UNIQUE constraint failed: budget_amount_overflows.reservation_id")
  | none => .ok { db with budgetAmountOverflows := db.budgetAmountOverflows ++ [row] }

def insertOverageEvent (db : Db) (row : OverageEvent) : Except BudgetError Db :=
  match Table.lookup OverageEvent.id row.id db.budgetOverageEvents with
  | some _ => .error (.storage "UNIQUE constraint failed: budget_overage_events.id")
  | none => .ok { db with budgetOverageEvents := db.budgetOverageEvents ++ [row] }

def spentCheckFailed : BudgetError :=
  .storage "CHECK constraint failed: typeof(spent_minor) = 'integer' AND spent_minor >= 0"

/-- The upsert of a settled total; the schema refuses a negative one. -/
def upsertBudgetPeriod (db : Db) (row : BudgetPeriod) : Except BudgetError Db :=
  if row.spentMinor.val < 0 then .error spentCheckFailed
  else .ok { db with budgetPeriods := Table.upsert BudgetPeriod.key row db.budgetPeriods }

def upsertTenantPeriod (db : Db) (row : TenantPeriod) : Except BudgetError Db :=
  if row.spentMinor.val < 0 then .error spentCheckFailed
  else .ok { db with tenantPeriods := Table.upsert TenantPeriod.key row db.tenantPeriods }

section Specifications

variable {db db' : Db} {scope : BudgetScope} {tenantId period reservationId : String}
  {nowMs : I64} {row : ReservationRow}

theorem sumColumn_eq_ok {amounts : List I64} {total : I64} (h : sumColumn amounts = .ok total) :
    total.val = (amounts.map I64.val).sum := by
  unfold sumColumn at h
  split at h
  · rename_i hsum
    cases h
    exact I64.sum_eq_some hsum
  · cases h

theorem findReservation_eq_ok :
    findReservation db tenantId reservationId = .ok row ↔
      Table.lookup ReservationRow.id reservationId db.reservations = some row ∧
        row.scope.tenantId = tenantId := by
  unfold findReservation
  cases Table.lookup ReservationRow.id reservationId db.reservations with
  | none => simp
  | some found =>
    by_cases h : found.scope.tenantId = tenantId
    · simp only [h, if_true, Except.ok.injEq, Option.some.injEq]
      constructor
      · rintro rfl; exact ⟨rfl, h⟩
      · rintro ⟨rfl, -⟩; rfl
    · simp only [h, if_false, Option.some.injEq, reduceCtorEq, false_iff, not_and]
      rintro rfl
      exact h

theorem insertReservation_eq_ok :
    insertReservation db row = .ok db' ↔
      Table.lookup ReservationRow.id row.id db.reservations = none ∧
        db' = { db with reservations := db.reservations ++ [row] } := by
  unfold insertReservation
  cases Table.lookup ReservationRow.id row.id db.reservations with
  | none => simp [eq_comm]
  | some found => simp

theorem insertAmountOverflow_eq_ok {row : AmountOverflow} :
    insertAmountOverflow db row = .ok db' ↔
      Table.lookup AmountOverflow.reservationId row.reservationId db.budgetAmountOverflows = none ∧
        db' = { db with budgetAmountOverflows := db.budgetAmountOverflows ++ [row] } := by
  unfold insertAmountOverflow
  cases Table.lookup AmountOverflow.reservationId row.reservationId db.budgetAmountOverflows with
  | none => simp [eq_comm]
  | some found => simp

theorem insertOverageEvent_eq_ok {row : OverageEvent} :
    insertOverageEvent db row = .ok db' ↔
      Table.lookup OverageEvent.id row.id db.budgetOverageEvents = none ∧
        db' = { db with budgetOverageEvents := db.budgetOverageEvents ++ [row] } := by
  unfold insertOverageEvent
  cases Table.lookup OverageEvent.id row.id db.budgetOverageEvents with
  | none => simp [eq_comm]
  | some found => simp

theorem upsertBudgetPeriod_eq_ok {row : BudgetPeriod} :
    upsertBudgetPeriod db row = .ok db' ↔ 0 ≤ row.spentMinor.val ∧
      db' = { db with budgetPeriods := Table.upsert BudgetPeriod.key row db.budgetPeriods } := by
  unfold upsertBudgetPeriod
  split
  · simp; omega
  · simp [eq_comm]; omega

theorem upsertTenantPeriod_eq_ok {row : TenantPeriod} :
    upsertTenantPeriod db row = .ok db' ↔ 0 ≤ row.spentMinor.val ∧
      db' = { db with tenantPeriods := Table.upsert TenantPeriod.key row db.tenantPeriods } := by
  unfold upsertTenantPeriod
  split
  · simp; omega
  · simp [eq_comm]; omega

/-- A priced estimate that is admitted fits into what the limit leaves, over the integers. -/
theorem fits_of_not_exceeds {estimate limit committed spent reserved : I64} {gate : SpendGate}
    (hcommitted : committed = checkedAddI64 spent reserved) (hpriced : 0 < estimate.val)
    (h : exceedsLimit estimate limit committed gate = false) :
    spent.val + reserved.val + estimate.val ≤ limit.val := by
  subst hcommitted
  have hzero : ¬ (estimate.val = 0 ∧ gate = .all) := by omega
  simp only [exceedsLimit, hzero, if_false, decide_eq_false_iff_not, checkedSubI64,
    checkedAddI64, I64.clamp_val] at h
  have := limit.upper
  omega

@[simp] theorem ReservationRow.expireIf_id {due : Bool} : (row.expireIf due).id = row.id := rfl

@[simp] theorem ReservationRow.expireIf_scope {due : Bool} :
    (row.expireIf due).scope = row.scope := rfl

@[simp] theorem ReservationRow.expireIf_period {due : Bool} :
    (row.expireIf due).period = row.period := rfl

@[simp] theorem ReservationRow.expireIf_tenantPeriod {due : Bool} :
    (row.expireIf due).tenantPeriod = row.tenantPeriod := rfl

@[simp] theorem ReservationRow.expireIf_reservedMinor {due : Bool} :
    (row.expireIf due).reservedMinor = row.reservedMinor := rfl

@[simp] theorem ReservationRow.expireIf_expiresAtMs {due : Bool} :
    (row.expireIf due).expiresAtMs = row.expiresAtMs := rfl

@[simp] theorem ReservationRow.expireIf_actualCostMinor {due : Bool} :
    (row.expireIf due).actualCostMinor = row.actualCostMinor := rfl

@[simp] theorem ReservationRow.expireIf_createdAtMs {due : Bool} :
    (row.expireIf due).createdAtMs = row.createdAtMs := rfl

/-- The settled and the released rows are out of a sweep's reach. -/
@[simp] theorem ReservationRow.expireIf_settled {due : Bool} :
    (row.expireIf due).status = .settled ↔ row.status = .settled := by
  cases due <;> by_cases h : row.status = .active <;> simp [ReservationRow.expireIf, h]

theorem ReservationRow.expireIf_of_not_active {due : Bool} (h : row.status ≠ .active) :
    row.expireIf due = row := by
  simp [ReservationRow.expireIf, h]

theorem ReservationRow.expireIf_active {due : Bool} :
    (row.expireIf due).status = .active ↔ row.status = .active ∧ due = false := by
  cases due <;> by_cases h : row.status = .active <;> simp [ReservationRow.expireIf, h]

theorem ReservationRow.expireIf_expired {due : Bool} :
    (row.expireIf due).status = .expired ↔
      row.status = .expired ∨ row.status = .active ∧ due = true := by
  cases due <;> by_cases h : row.status = .active <;> simp [ReservationRow.expireIf, h]

theorem lookup_sweepWhere (due : ReservationRow → Bool) :
    Table.lookup ReservationRow.id reservationId (sweepWhere due db).reservations =
      (Table.lookup ReservationRow.id reservationId db.reservations).map
        fun row => row.expireIf (due row) :=
  Table.lookup_map fun _ => rfl

end Specifications

end Ledger
