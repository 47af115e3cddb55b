import IDoris.Ledger.Exact
import IDoris.Ledger.Reads

/-!
# The two balances of a tenant

`tenant_balance` adds before it subtracts, `tenant_readview` subtracts twice. Each step
clamps, and the two part where the addition does.
-/
namespace Ledger

open Bounded Transaction Text

variable (zones : Zones)

/-- Both views answer with one amount, or neither answers. -/
def ViewsAgree (tenantId : String) (nowMs : I64) (db : Db) : Prop :=
  (tenantReadview zones tenantId nowMs db).toOption.map TenantBudgetReadView.availableMinor =
    (tenantBalance zones tenantId nowMs db).toOption

/-- The tenant's settled spend and live reservations, of its current period, add up within 64
bits, or the reservations alone do not and neither view answers. -/
def TotalFits (tenantId : String) (nowMs : I64) (db : Db) : Prop :=
  ∀ cfg period, loadTenantConfig db tenantId = some cfg →
    billingPeriodKey zones nowMs cfg.billingTimezone = .ok period →
    (Bucket.ofTenant tenantId period).held db nowMs < 2 ^ 63 →
    (tenantSpentFor db tenantId period).val + (Bucket.ofTenant tenantId period).held db nowMs <
      2 ^ 63

variable {zones} {db db' : Db} {call : Call} {tenantId : String} {nowMs : I64}

/-- Only `configure_tenant` names a tenant, and not a blank one. -/
theorem Writes.named (h : Writes zones db call db')
    (hnamed : ∀ cfg ∈ db.tenantConfig, isBlank cfg.tenantId = false) :
    ∀ cfg ∈ db'.tenantConfig, isBlank cfg.tenantId = false := by
  intro cfg hcfg
  cases h with
  | tenantConfigured accepts =>
    rcases Table.mem_of_mem_upsert hcfg with rfl | hcfg
    · exact accepts.nonblank
    · exact hnamed cfg hcfg
  | retained keep => exact hnamed cfg (List.mem_of_mem_filter hcfg)
  | _ => exact hnamed cfg hcfg

theorem named_run (zones : Zones) (events : List Event) :
    ∀ cfg ∈ (run zones events Db.empty).tenantConfig, isBlank cfg.tenantId = false :=
  run_invariant (fun db => ∀ cfg ∈ db.tenantConfig, isBlank cfg.tenantId = false)
    (fun db call h => (exec_writes zones call db).named h) (by simp [Db.empty]) events

/-- Two subtractions, each clamped, of amounts that are not negative. -/
theorem available_value {limit spent reserved : I64} (hspent : 0 ≤ spent.val)
    (hreserved : 0 ≤ reserved.val) (hlimit : 0 ≤ limit.val) :
    (checkedSubI64 limit spent).val = limit.val - spent.val ∧
      (checkedSubI64 (checkedSubI64 limit spent) reserved).val =
        max (-2 ^ 63) (limit.val - spent.val - reserved.val) := by
  have hupper := limit.upper
  have hspentUpper := spent.upper
  have hremaining : (checkedSubI64 limit spent).val = limit.val - spent.val := by
    rw [checkedSubI64, I64.clamp_val]
    omega
  refine ⟨hremaining, ?_⟩
  rw [checkedSubI64, I64.clamp_val, hremaining]
  omega

/-- The two ways to subtract agree exactly when the sum of what is subtracted fits. -/
theorem balances_eq_iff {limit spent reserved : I64} (hspent : 0 ≤ spent.val)
    (hreserved : 0 ≤ reserved.val) (hlimit : 0 ≤ limit.val) :
    checkedSubI64 (checkedSubI64 limit spent) reserved =
        checkedSubI64 limit (checkedAddI64 spent reserved) ↔
      spent.val + reserved.val < 2 ^ 63 := by
  have hvalue := (available_value hspent hreserved hlimit).2
  have hbalance := committed_balance hspent hreserved hlimit
  have hupper := limit.upper
  rw [I64.ext'_iff, hvalue]
  omega

/-- Both views of a tenant that is configured, from one sum of its reservations. -/
theorem views_of_configured {cfg : TenantConfig} {period : String} {total : I64}
    (hblank : isBlank tenantId = false) (hcfg : loadTenantConfig db tenantId = some cfg)
    (hperiod : billingPeriodKey zones nowMs cfg.billingTimezone = .ok period)
    (htotal : tenantActiveReservedFor db tenantId period nowMs = .ok total) :
    tenantReadview zones tenantId nowMs db = .ok
        { tenantId, period, limitMinor := cfg.limitMinor,
          spentMinor := tenantSpentFor db tenantId period, reservedMinor := total,
          remainingMinor := checkedSubI64 cfg.limitMinor (tenantSpentFor db tenantId period),
          availableMinor := checkedSubI64
            (checkedSubI64 cfg.limitMinor (tenantSpentFor db tenantId period)) total,
          billingTimezone := cfg.billingTimezone, scope := cfg.gate } ∧
      tenantBalance zones tenantId nowMs db = .ok
        (checkedSubI64 cfg.limitMinor
          (checkedAddI64 (tenantSpentFor db tenantId period) total)) := by
  constructor
  · simp [tenantReadview, hblank, hcfg, hperiod, htotal, refuseIf, orRefuse, bind, Except.bind,
      pure, Except.pure]
  · simp [tenantBalance, hcfg, hperiod, htotal, orRefuse, bind, Except.bind, pure, Except.pure]

/-- Without a sum of its reservations neither view answers. -/
theorem views_of_failed
    (h : ∀ cfg period total, loadTenantConfig db tenantId = some cfg →
      billingPeriodKey zones nowMs cfg.billingTimezone = .ok period →
      tenantActiveReservedFor db tenantId period nowMs ≠ .ok total) :
    (tenantReadview zones tenantId nowMs db).toOption = none ∧
      (tenantBalance zones tenantId nowMs db).toOption = none := by
  constructor
  · cases hview : tenantReadview zones tenantId nowMs db with
    | error e => rfl
    | ok view =>
      simp only [tenantReadview, bind_eq_ok, orRefuse_eq_ok] at hview
      obtain ⟨_, -, cfg, hcfg, period, hperiod, total, htotal, -⟩ := hview
      exact absurd htotal (h cfg period total hcfg hperiod)
  · cases hbalance : tenantBalance zones tenantId nowMs db with
    | error e => rfl
    | ok amount =>
      simp only [tenantBalance, bind_eq_ok, orRefuse_eq_ok] at hbalance
      obtain ⟨cfg, hcfg, period, hperiod, total, htotal, -⟩ := hbalance
      exact absurd htotal (h cfg period total hcfg hperiod)

/-- In every ledger file, at every instant, the two balances of a tenant agree exactly when the
total they subtract fits; what is left after the reservations is then that balance too. -/
theorem tenant_views_agree (zones : Zones) (events : List Event) (tenantId : String)
    (nowMs : I64) :
    let db := run zones events Db.empty
    (ViewsAgree zones tenantId nowMs db ↔ TotalFits zones tenantId nowMs db) ∧
    ∀ view balance, tenantReadview zones tenantId nowMs db = .ok view →
      tenantBalance zones tenantId nowMs db = .ok balance →
      TotalFits zones tenantId nowMs db →
      view.remainingMinor.val - view.reservedMinor.val = balance.val := by
  intro db
  have h : Billed db := billed_run zones events
  by_cases hsum : ∃ cfg period total, loadTenantConfig db tenantId = some cfg ∧
      billingPeriodKey zones nowMs cfg.billingTimezone = .ok period ∧
      tenantActiveReservedFor db tenantId period nowMs = .ok total
  · obtain ⟨cfg, period, total, hcfg, hperiod, htotal⟩ := hsum
    have hblank : isBlank tenantId = false := by
      have hname := named_run zones events cfg (Table.lookup_mem hcfg)
      rwa [Table.lookup_key hcfg] at hname
    obtain ⟨hview, hbalance⟩ := views_of_configured hblank hcfg hperiod htotal
    have hheld : total.val = (Bucket.ofTenant tenantId period).held db nowMs :=
      tenantActiveReservedFor_eq htotal
    have hspent : 0 ≤ (tenantSpentFor db tenantId period).val :=
      h.spent_nonneg (.ofTenant tenantId period)
    have hreserved : 0 ≤ total.val := hheld ▸ h.held_nonneg _ _
    have hlimit : 0 ≤ cfg.limitMinor.val := h.tenantLimits cfg (Table.lookup_mem hcfg)
    have hfits : TotalFits zones tenantId nowMs db ↔
        (tenantSpentFor db tenantId period).val + total.val < 2 ^ 63 := by
      rw [hheld]
      constructor
      · intro hall
        exact hall cfg period hcfg hperiod (hheld ▸ total.upper)
      · intro hlt cfg' period' hcfg' hperiod' _
        cases hcfg.symm.trans hcfg'
        cases hperiod.symm.trans hperiod'
        exact hlt
    refine ⟨?_, ?_⟩
    · rw [ViewsAgree, hview, hbalance, hfits, ← balances_eq_iff hspent hreserved hlimit]
      simp [Except.toOption]
    · intro view balance hview' hbalance' hall
      cases hview.symm.trans hview'
      cases hbalance.symm.trans hbalance'
      have hremaining := (available_value hspent hreserved hlimit).1
      have hsplit := committed_balance hspent hreserved hlimit
      have hlt := hfits.mp hall
      simp only
      omega
  · have hfailed : ∀ cfg period total, loadTenantConfig db tenantId = some cfg →
        billingPeriodKey zones nowMs cfg.billingTimezone = .ok period →
        tenantActiveReservedFor db tenantId period nowMs ≠ .ok total :=
      fun cfg period total hcfg hperiod htotal => hsum ⟨cfg, period, total, hcfg, hperiod, htotal⟩
    obtain ⟨hview, hbalance⟩ := views_of_failed hfailed
    refine ⟨?_, ?_⟩
    · rw [ViewsAgree, hview, hbalance]
      refine iff_of_true rfl fun cfg period hcfg hperiod hheld => ?_
      obtain ⟨total, htotal⟩ := (h.reserved_iff (.ofTenant tenantId period) nowMs).mpr hheld
      exact absurd htotal (hfailed cfg period total hcfg hperiod)
    · intro view balance hview' hbalance' _
      rw [hview'] at hview
      cases hview

section Saturated

/-- A tenant without bounds, two reservations of 1 for it, and a cost of the largest amount. -/
def boundlessTenant : Event :=
  .returns (.configureTenant "acme" (.lit 9223372036854775807) "UTC" .paidOnly (.lit 0))

def reservedOne (id : String) : Event := .returns (.reserve
  { ledger := ledgerOfFifty, scope := ⟨"acme", "key", "provider", "model"⟩,
    estimatedCost := .known (.lit 1), id, clock := ⟨.lit 10, .lit 10, .lit 10⟩ })

def settledMaximum : Event := .returns (.settle
  { tenantId := "acme", reservationId := "r1", actualCostMinor := .lit 9223372036854775807,
    nowMs := .lit 20, eventId := "e1" })

def spentAll : List Event := [boundlessTenant, reservedOne "r1", reservedOne "r2", settledMaximum]

/-- One minor unit over the limit: the view says so, the balance stops at nothing left. -/
theorem tenant_views_differ :
    (¬ ∀ (events : List Event) (tenantId : String) (nowMs : I64),
      ViewsAgree twoZones tenantId nowMs (run twoZones events Db.empty)) ∧
    (tenantReadview twoZones "acme" (.lit 20) (run twoZones spentAll Db.empty)).map
      TenantBudgetReadView.availableMinor = .ok (.lit (-1)) ∧
    tenantBalance twoZones "acme" (.lit 20) (run twoZones spentAll Db.empty) = .ok (.lit 0) := by
  refine ⟨fun h => ?_, by decide, by decide⟩
  have hagree := h spentAll "acme" (.lit 20)
  unfold ViewsAgree at hagree
  exact absurd hagree (by decide)

end Saturated

end Ledger
