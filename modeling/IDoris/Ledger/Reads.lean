import IDoris.Ledger.Calls

/-!
# The ledger's reads

Balances and the read view of a tenant, at a reading of the clock. They write
nothing.
-/
namespace Ledger

open Bounded Transaction Text

structure TenantBudgetReadView where
  tenantId : String
  period : String
  limitMinor : I64
  spentMinor : I64
  reservedMinor : I64
  remainingMinor : I64
  availableMinor : I64
  billingTimezone : String
  scope : SpendGate
  deriving DecidableEq

variable (zones : Zones)

def balance (scope : BudgetScope) (nowMs : I64) (db : Db) : Except BudgetError I64 := do
  let config ← orRefuse (loadConfig db scope) (.notConfigured scope)
  let period ← billingPeriodKey zones nowMs config.billingTimezone
  let reserved ← activeReservedFor db scope period nowMs
  pure (checkedSubI64 config.limitMinor (checkedAddI64 (spentFor db scope period) reserved))

def tenantBalance (tenantId : String) (nowMs : I64) (db : Db) : Except BudgetError I64 := do
  let config ← orRefuse (loadTenantConfig db tenantId) (.tenantNotConfigured tenantId)
  let period ← billingPeriodKey zones nowMs config.billingTimezone
  let reserved ← tenantActiveReservedFor db tenantId period nowMs
  pure (checkedSubI64 config.limitMinor (checkedAddI64 (tenantSpentFor db tenantId period) reserved))

def tenantReadview (tenantId : String) (nowMs : I64) (db : Db) :
    Except BudgetError TenantBudgetReadView := do
  refuseIf (isBlank tenantId) (.invalidScope "tenant_id")
  let config ← orRefuse (loadTenantConfig db tenantId) (.tenantNotConfigured tenantId)
  let period ← billingPeriodKey zones nowMs config.billingTimezone
  let spentMinor := tenantSpentFor db tenantId period
  let reservedMinor ← tenantActiveReservedFor db tenantId period nowMs
  let remainingMinor := checkedSubI64 config.limitMinor spentMinor
  pure
    { tenantId, period, limitMinor := config.limitMinor, spentMinor, reservedMinor, remainingMinor,
      availableMinor := checkedSubI64 remainingMinor reservedMinor,
      billingTimezone := config.billingTimezone, scope := config.gate }

end Ledger
