import Mathlib.Data.List.Induction
import IDoris.Library.System
import IDoris.Ledger.Operations

/-!
# Ledger calls and their runs

Connections share the ledger file and each call is one transaction, so a run of
any number of connections is a sequence of calls. A caller sees the answer beside the
ledger file it leaves.
-/
namespace Ledger

open Bounded Transaction

/-- The arguments of `reserve` and `check_admission`. -/
structure Admit where
  ledger : BudgetLedger
  scope : BudgetScope
  estimatedCost : Price
  id : String
  clock : Readings

/-- The arguments of `settle` and `replay_settlement`. -/
structure Settlement where
  tenantId : String
  reservationId : String
  actualCostMinor : I64
  nowMs : I64
  eventId : String

inductive Call where
  | configure (scope : BudgetScope) (limitMinor : I64) (billingTimezone : String) (nowMs : I64)
  | configureTenant (tenantId : String) (limitMinor : I64) (billingTimezone : String)
      (gate : SpendGate) (nowMs : I64)
  | retainTenants (keep : List String)
  | reserve (args : Admit)
  | checkAdmission (args : Admit)
  | settle (args : Settlement)
  | replaySettlement (args : Settlement)
  | extend (ledger : BudgetLedger) (tenantId reservationId : String) (additionalTtlMs : I64)
      (clock : Readings)
  | release (tenantId reservationId : String)
  | sweepExpired (nowMs : I64)

/-- The ledger file after a call. The second read of a replayed settlement writes nothing. -/
def exec (zones : Zones) (call : Call) (db : Db) : Db :=
  match call with
  | .configure scope limitMinor billingTimezone nowMs =>
    (configure scope limitMinor billingTimezone nowMs db).2
  | .configureTenant tenantId limitMinor billingTimezone gate nowMs =>
    (configureTenant tenantId limitMinor billingTimezone gate nowMs db).2
  | .retainTenants keep => (retainTenants keep db).2
  | .reserve a => (reserve zones a.ledger a.scope a.estimatedCost a.id a.clock db).2
  | .checkAdmission a => (checkAdmission zones a.ledger a.scope a.estimatedCost a.clock db).2
  | .settle s | .replaySettlement s =>
    (settle s.tenantId s.reservationId s.actualCostMinor s.nowMs s.eventId db).2
  | .extend ledger tenantId reservationId additionalTtlMs clock =>
    (extend ledger tenantId reservationId additionalTtlMs clock db).2
  | .release tenantId reservationId => (release tenantId reservationId db).2
  | .sweepExpired nowMs => (sweepExpired nowMs db).2

inductive Answer where
  | unit (answer : Except BudgetError Unit)
  | count (answer : Except BudgetError Nat)
  | reservation (answer : Except BudgetError String)
  | receipt (answer : Except BudgetError SettleReceipt)

/-- The answer of a call; of a replayed settlement, that of its `settle`. -/
def answerOf (zones : Zones) (call : Call) (db : Db) : Answer :=
  match call with
  | .configure scope limitMinor billingTimezone nowMs =>
    .unit (configure scope limitMinor billingTimezone nowMs db).1
  | .configureTenant tenantId limitMinor billingTimezone gate nowMs =>
    .unit (configureTenant tenantId limitMinor billingTimezone gate nowMs db).1
  | .retainTenants keep => .count (retainTenants keep db).1
  | .reserve a => .reservation (reserve zones a.ledger a.scope a.estimatedCost a.id a.clock db).1
  | .checkAdmission a =>
    .unit (checkAdmission zones a.ledger a.scope a.estimatedCost a.clock db).1
  | .settle s | .replaySettlement s =>
    .receipt (settle s.tenantId s.reservationId s.actualCostMinor s.nowMs s.eventId db).1
  | .extend ledger tenantId reservationId additionalTtlMs clock =>
    .unit (extend ledger tenantId reservationId additionalTtlMs clock db).1
  | .release tenantId reservationId => .unit (release tenantId reservationId db).1
  | .sweepExpired nowMs => .count (sweepExpired nowMs db).1

/-- The tenant a call is made for; the two sweeps over all tenants have none. -/
def Call.tenant : Call → Option String
  | .configure scope _ _ _ => some scope.tenantId
  | .configureTenant tenantId _ _ _ _ => some tenantId
  | .retainTenants _ => none
  | .reserve a => some a.scope.tenantId
  | .checkAdmission a => some a.scope.tenantId
  | .settle s => some s.tenantId
  | .replaySettlement s => some s.tenantId
  | .extend _ tenantId _ _ _ => some tenantId
  | .release tenantId _ => some tenantId
  | .sweepExpired _ => none

/-- A call that returns, or whose process dies around its commit. -/
inductive Event where
  | returns (call : Call)
  | crashesBeforeCommit (call : Call)
  | crashesAfterCommit (call : Call)

def Event.apply (zones : Zones) (db : Db) : Event → Db
  | .returns call => exec zones call db
  | .crashesBeforeCommit _ => db
  | .crashesAfterCommit call => exec zones call db

/-- The ledger file after a sequence of calls from any connections. -/
def run (zones : Zones) (events : List Event) (db : Db) : Db :=
  events.foldl (Event.apply zones) db

/-- The ledger file as a transition system, one event a step. -/
def ledgerSystem (zones : Zones) : Transition.System Db Event where
  step db event db' := db' = event.apply zones db

theorem run_append (zones : Zones) (before after : List Event) (db : Db) :
    run zones (before ++ after) db = run zones after (run zones before db) := by
  simp [run]

theorem run_is_run (zones : Zones) (events : List Event) (db : Db) :
    (ledgerSystem zones).Run db events (run zones events db) := by
  induction events using List.reverseRecOn with
  | nil => exact .nil
  | append_singleton events event ih =>
    rw [run_append]
    exact .snoc ih rfl

end Ledger
