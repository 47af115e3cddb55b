import IDoris.Library.Bounded
import IDoris.Library.Table

/-!
# The budget ledger's tables, values and errors

Rows carry the columns the ledger's statements read or write. Amounts and
instants are the 64-bit integers of the schema.
-/
namespace Ledger

open Bounded

/-- The account a reservation is tracked against. -/
@[ext] structure BudgetScope where
  tenantId : String
  keyId : String
  providerId : String
  modelId : String
  deriving DecidableEq

inductive ReservationStatus where
  | active | settled | released | expired
  deriving DecidableEq

def ReservationStatus.asSql : ReservationStatus → String
  | .active => "active"
  | .settled => "settled"
  | .released => "released"
  | .expired => "expired"

/-- Whether a tenant's check gates every candidate or only priced ones. -/
inductive SpendGate where
  | paidOnly | all
  deriving DecidableEq

inductive Price where
  | known (minor : I64)
  | unknown
  deriving DecidableEq

inductive BudgetError where
  | exceeded (tenantId : String) (balanceMinor estimatedCostMinor limitMinor spentMinor : I64)
      (topupHint : String)
  | priceUnknown
  | notConfigured (scope : BudgetScope)
  | tenantNotConfigured (tenantId : String)
  | reservationNotFound (reservationId : String)
  | reservationNotActive (reservationId status : String)
  | invalidScope (field : String)
  | invalidLimit (limitMinor : I64)
  | invalidEstimate (estimatedCostMinor : I64)
  | invalidActualCost (actualCostMinor : I64)
  | amountOverflow (reservationId : String) (actualCostMinor : I64)
  | overageTooLarge (reservationId : String) (reservedMinor actualCostMinor : I64)
  | invalidTimeZone (billingTimezone : String)
  | timeZoneChangeWithActiveReservations
  | invalidConfig (tenantId existing requested : String)
  | invalidTimestamp (nowMs : I64)
  | invalidTtl (ttlMs : I64)
  | tenantMismatch (reservationId : String)
  | busy
  | storage (message : String)
  deriving DecidableEq

/-- Subtraction widened and clamped back into range. -/
def checkedSubI64 (a b : I64) : I64 := I64.clamp (a.val - b.val)

/-- Addition widened and clamped back into range. -/
def checkedAddI64 (a b : I64) : I64 := I64.clamp (a.val + b.val)

/-- The larger of an amount and zero. -/
def atLeastZero (a : I64) : I64 := if a.val < 0 then I64.lit 0 else a

/-- `Exceeded` with the balance and the hint derived from the same three amounts. -/
def BudgetError.exceededBy (tenantId : String) (limitMinor spentMinor estimatedCostMinor : I64) :
    BudgetError :=
  let balanceMinor := checkedSubI64 limitMinor spentMinor
  let shortfall := atLeastZero (checkedSubI64 estimatedCostMinor balanceMinor)
  .exceeded tenantId balanceMinor estimatedCostMinor limitMinor spentMinor
    ("余额不足：还差 " ++ toString shortfall.val ++
      " minor units 才能覆盖本次预估成本，请充值或提升预算上限后重试")

/-- A row of `budget_config`. -/
structure ScopeConfig where
  scope : BudgetScope
  limitMinor : I64
  billingTimezone : String
  deriving DecidableEq

/-- A row of `tenant_config`. -/
structure TenantConfig where
  tenantId : String
  limitMinor : I64
  billingTimezone : String
  gate : SpendGate
  deriving DecidableEq

/-- A row of `budget_periods`. -/
structure BudgetPeriod where
  scope : BudgetScope
  period : String
  spentMinor : I64
  deriving DecidableEq

/-- A row of `tenant_periods`. -/
structure TenantPeriod where
  tenantId : String
  period : String
  spentMinor : I64
  deriving DecidableEq

/-- A row of `reservations`. -/
structure ReservationRow where
  id : String
  scope : BudgetScope
  period : String
  tenantPeriod : String
  reservedMinor : I64
  status : ReservationStatus
  createdAtMs : I64
  expiresAtMs : I64
  actualCostMinor : Option I64
  deriving DecidableEq

/-- A row of `budget_overage_events`. -/
structure OverageEvent where
  id : String
  tenantId : String
  reservationId : String
  reservedMinor : I64
  actualCostMinor : I64
  overageMinor : I64
  createdAtMs : I64
  deriving DecidableEq

/-- A row of `budget_amount_overflows`. -/
structure AmountOverflow where
  reservationId : String
  tenantId : String
  actualCostMinor : I64
  createdAtMs : I64
  deriving DecidableEq

def BudgetPeriod.key (row : BudgetPeriod) : BudgetScope × String := (row.scope, row.period)
def TenantPeriod.key (row : TenantPeriod) : String × String := (row.tenantId, row.period)

/-- The ledger file. -/
structure Db where
  budgetConfig : List ScopeConfig := []
  tenantConfig : List TenantConfig := []
  budgetPeriods : List BudgetPeriod := []
  tenantPeriods : List TenantPeriod := []
  reservations : List ReservationRow := []
  budgetOverageEvents : List OverageEvent := []
  budgetAmountOverflows : List AmountOverflow := []
  deriving DecidableEq

/-- The ledger file right after its migrations. -/
def Db.empty : Db := {}

/-- A handle on the ledger file; opening one rejects a TTL that is not positive. -/
structure BudgetLedger where
  ttlMs : I64
  positive : 0 < ttlMs.val

/-- The handle of the sample runs. -/
def ledgerOfFifty : BudgetLedger := ⟨.lit 50, by decide⟩

/-- A reservation that still holds budget at an instant. -/
def ReservationRow.counts (row : ReservationRow) (nowMs : I64) : Bool :=
  row.status = .active && decide (nowMs.val < row.expiresAtMs.val)

theorem ReservationRow.counts_iff {row : ReservationRow} {nowMs : I64} :
    row.counts nowMs = true ↔ row.status = .active ∧ nowMs.val < row.expiresAtMs.val := by
  simp [ReservationRow.counts]

theorem ReservationRow.counts_mono {row : ReservationRow} {nowMs later : I64}
    (h : row.counts later = true) (hle : nowMs.val ≤ later.val) : row.counts nowMs = true := by
  rw [ReservationRow.counts_iff] at h ⊢
  exact ⟨h.1, by omega⟩

end Ledger
