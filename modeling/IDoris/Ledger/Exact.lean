import IDoris.Ledger.Amounts

/-!
# Admission over the unbounded integers

`reserve` adds and subtracts with clamping. Whether it reports an exceeded budget is
nevertheless the comparison of the exact amounts, in each configured dimension.
-/
namespace Ledger

open Bounded Transaction

/-- A dimension that `reserve` checks at an instant, in its current period, with its limit. -/
inductive Dimension (zones : Zones) (db : Db) (scope : BudgetScope) (nowMs : I64) :
    Bucket → I64 → Prop
  | ofScope {cfg : ScopeConfig} {period : String} (configured : loadConfig db scope = some cfg)
      (current : billingPeriodKey zones nowMs cfg.billingTimezone = .ok period) :
      Dimension zones db scope nowMs (.ofScope scope period) cfg.limitMinor
  | ofTenant {cfg : TenantConfig} {period : String}
      (configured : loadTenantConfig db scope.tenantId = some cfg)
      (current : billingPeriodKey zones nowMs cfg.billingTimezone = .ok period) :
      Dimension zones db scope nowMs (.ofTenant scope.tenantId period) cfg.limitMinor

/-- A priced estimate is above what the bucket has left; a free one, under a gate on all
requests, meets a bucket with nothing left. -/
def Bucket.overBudget (b : Bucket) (db : Db) (nowMs : I64) (limit estimate : Int)
    (gate : SpendGate) : Prop :=
  0 < estimate ∧ limit - (b.spent db).val - b.held db nowMs < estimate ∨
    estimate = 0 ∧ gate = .all ∧ limit ≤ (b.spent db).val + b.held db nowMs

/-- What the budget is over the integers: the request is not a free one that the gate lets
through, and some configured dimension has no room for it. -/
def OverBudget (zones : Zones) (db : Db) (scope : BudgetScope) (nowMs : I64) (estimate : Int) :
    Prop :=
  ¬(estimate = 0 ∧ effectiveGate (loadTenantConfig db scope.tenantId) = .paidOnly) ∧
    ∃ b limit, Dimension zones db scope nowMs b limit ∧
      b.overBudget db nowMs limit.val estimate (effectiveGate (loadTenantConfig db scope.tenantId))

/-- The live reservations of every dimension that is checked add up within the column. -/
def SumsFit (zones : Zones) (db : Db) (scope : BudgetScope) (nowMs : I64) : Prop :=
  ∀ b limit, Dimension zones db scope nowMs b limit → b.held db nowMs < 2 ^ 63

def BudgetError.isExceeded : BudgetError → Bool
  | .exceeded _ _ _ _ _ _ => true
  | _ => false

/-- Whether an answer is that the budget is exceeded. -/
def reportsExceeded {α : Type} : Except BudgetError α → Bool
  | .error e => e.isExceeded
  | .ok _ => false

variable {zones : Zones} {db : Db} {scope : BudgetScope} {nowMs estimate : I64} {adm : Admission}
  {b : Bucket} {limit : I64} {gate : SpendGate} {e : BudgetError} {tenantId : String}

/-- Of the two clamped operations only the addition can lose anything. -/
theorem committed_balance {spent reserved : I64} (hspent : 0 ≤ spent.val)
    (hreserved : 0 ≤ reserved.val) (hlimit : 0 ≤ limit.val) :
    spent.val + reserved.val < 2 ^ 63 ∧
        (checkedSubI64 limit (checkedAddI64 spent reserved)).val =
          limit.val - spent.val - reserved.val ∨
      2 ^ 63 ≤ spent.val + reserved.val ∧
        (checkedSubI64 limit (checkedAddI64 spent reserved)).val = limit.val - (2 ^ 63 - 1) := by
  have hupper := limit.upper
  rw [checkedSubI64, I64.clamp_val, checkedAddI64, I64.clamp_val]
  omega

/-- The clamped comparison is the exact one, for a request that is not let through. -/
theorem exceedsLimit_iff {spent reserved : I64} (hspent : 0 ≤ spent.val)
    (hreserved : 0 ≤ reserved.val) (hlimit : 0 ≤ limit.val) (hestimate : 0 ≤ estimate.val)
    (hchecked : ¬(estimate.val = 0 ∧ gate = .paidOnly)) :
    exceedsLimit estimate limit (checkedAddI64 spent reserved) gate = true ↔
      0 < estimate.val ∧ limit.val - spent.val - reserved.val < estimate.val ∨
        estimate.val = 0 ∧ gate = .all ∧ limit.val ≤ spent.val + reserved.val := by
  have hupper := limit.upper
  have hbalance := committed_balance hspent hreserved hlimit
  by_cases hfree : estimate.val = 0
  · have hgate : gate = .all := by
      cases gate with
      | all => rfl
      | paidOnly => exact absurd ⟨hfree, rfl⟩ hchecked
    simp only [exceedsLimit, hfree, hgate, and_self, if_true, decide_eq_true_eq, Int.lt_irrefl,
      false_and, true_and, false_or]
    omega
  · have hpriced : 0 < estimate.val := by omega
    simp only [exceedsLimit, hfree, hpriced, false_and, if_false, decide_eq_true_eq, true_and,
      or_false]
    omega

theorem exceededBy_isExceeded {limit spent : I64} :
    (BudgetError.exceededBy tenantId limit spent estimate).isExceeded = true := rfl

/-- The check of a bucket whose sum is taken rejects exactly when it is over budget. -/
theorem Billed.checkDimension_ok (h : Billed db) (tenantId : String) (hlimit : 0 ≤ limit.val)
    (hestimate : 0 ≤ estimate.val) (hchecked : ¬(estimate.val = 0 ∧ gate = .paidOnly))
    (hfits : b.held db nowMs < 2 ^ 63) :
    (b.overBudget db nowMs limit.val estimate.val gate ∧
      ∃ r, r.isExceeded = true ∧
        checkDimension tenantId (some limit) (b.spent db) (b.reserved db nowMs) estimate gate =
          .ok (some r)) ∨
    (¬b.overBudget db nowMs limit.val estimate.val gate ∧
      checkDimension tenantId (some limit) (b.spent db) (b.reserved db nowMs) estimate gate =
        .ok none) := by
  obtain ⟨total, htotal⟩ := (h.reserved_iff b nowMs).mpr hfits
  have hheld := Bucket.reserved_eq htotal
  have hnonneg : 0 ≤ total.val := hheld ▸ h.held_nonneg b nowMs
  have hiff := exceedsLimit_iff (h.spent_nonneg b) hnonneg hlimit hestimate hchecked
  rw [hheld] at hiff
  simp only [checkDimension, htotal, bind, Except.bind, pure, Except.pure]
  by_cases hover : b.overBudget db nowMs limit.val estimate.val gate
  · rw [if_pos (hiff.mpr hover)]
    exact .inl ⟨hover, _, exceededBy_isExceeded, rfl⟩
  · rw [if_neg fun hexceeds => hover (hiff.mp hexceeds)]
    exact .inr ⟨hover, rfl⟩

/-- A check that rejects has taken its sum, and rejects with an exceeded budget. -/
theorem Billed.checkDimension_rejects (h : Billed db) {r : BudgetError}
    (hreject : checkDimension tenantId (some limit) (b.spent db) (b.reserved db nowMs) estimate
      gate = .ok (some r)) : b.held db nowMs < 2 ^ 63 := by
  refine (h.reserved_iff b nowMs).mp ?_
  simp only [checkDimension, bind_eq_ok] at hreject
  obtain ⟨total, htotal, -⟩ := hreject
  exact ⟨total, htotal⟩

/-- The errors of a check are those of its sum. -/
theorem checkDimension_error {limit : Option I64} {spent : I64}
    (h : checkDimension tenantId limit spent (b.reserved db nowMs) estimate gate = .error e) :
    e.isExceeded = false := by
  cases limit with
  | none => cases h
  | some limit =>
    simp only [checkDimension, bind_eq_error] at h
    rcases h with h | ⟨total, -, h⟩
    · rw [Bucket.reserved_sum, sumColumn] at h
      split at h <;> cases h
      rfl
    · split at h <;> cases h

/-- The check of a bucket that may have a limit. -/
def bucketCheck (db : Db) (scope : BudgetScope) (nowMs estimate : I64) (limit : Option I64)
    (b : Bucket) : Except BudgetError (Option BudgetError) :=
  if skipZeroCost (loadTenantConfig db scope.tenantId) estimate then .ok none
  else checkDimension scope.tenantId limit (b.spent db) (b.reserved db nowMs) estimate
    (effectiveGate (loadTenantConfig db scope.tenantId))

theorem checkScopeLimit_eq (h : Opens zones db scope nowMs adm) :
    checkScopeLimit adm scope estimate nowMs = bucketCheck db scope nowMs estimate
      ((loadConfig db scope).map ScopeConfig.limitMinor) (.ofScope scope adm.period) := by
  have hspent := Bucket.spent_swept (.ofScope scope adm.period) db scope adm.period nowMs
  have hreserved := Bucket.reserved_swept (.ofScope scope adm.period) db scope adm.period nowMs
  rw [bucketCheck, ← hspent, ← hreserved, ← h.swept, ← h.sub, ← h.tenant]
  rfl

theorem checkTenantLimit_eq (h : Opens zones db scope nowMs adm) :
    checkTenantLimit adm scope estimate nowMs = bucketCheck db scope nowMs estimate
      ((loadTenantConfig db scope.tenantId).map TenantConfig.limitMinor)
      (.ofTenant scope.tenantId adm.tenantPeriod) := by
  have hspent :=
    Bucket.spent_swept (.ofTenant scope.tenantId adm.tenantPeriod) db scope adm.period nowMs
  have hreserved :=
    Bucket.reserved_swept (.ofTenant scope.tenantId adm.tenantPeriod) db scope adm.period nowMs
  rw [bucketCheck, ← hspent, ← hreserved, ← h.swept, ← h.tenant]
  rfl

theorem skipZeroCost_eq_true {tenantCfg : Option TenantConfig} :
    skipZeroCost tenantCfg estimate = true ↔
      estimate.val = 0 ∧ effectiveGate tenantCfg = .paidOnly := by
  simp [skipZeroCost, and_comm]

theorem bucketCheck_error {limit : Option I64}
    (h : bucketCheck db scope nowMs estimate limit b = .error e) : e.isExceeded = false := by
  unfold bucketCheck at h
  split at h
  · cases h
  · exact checkDimension_error h

/-- The check passes, or rejects because the bucket is over budget. -/
theorem Billed.bucketCheck {limit : Option I64} (h : Billed db) (hestimate : 0 ≤ estimate.val)
    (hchecked : ¬(estimate.val = 0 ∧
      effectiveGate (loadTenantConfig db scope.tenantId) = .paidOnly))
    (hlimit : ∀ l, limit = some l → 0 ≤ l.val ∧ b.held db nowMs < 2 ^ 63) :
    (∃ l r, limit = some l ∧ r.isExceeded = true ∧
      b.overBudget db nowMs l.val estimate.val
        (effectiveGate (loadTenantConfig db scope.tenantId)) ∧
      bucketCheck db scope nowMs estimate limit b = .ok (some r)) ∨
    (∀ l, limit = some l → ¬b.overBudget db nowMs l.val estimate.val
      (effectiveGate (loadTenantConfig db scope.tenantId))) ∧
      bucketCheck db scope nowMs estimate limit b = .ok none := by
  have hskip : ¬skipZeroCost (loadTenantConfig db scope.tenantId) estimate = true :=
    fun h => hchecked (skipZeroCost_eq_true.mp h)
  rw [Ledger.bucketCheck, if_neg hskip]
  cases limit with
  | none => exact .inr ⟨by simp, rfl⟩
  | some l =>
    obtain ⟨hnonneg, hfits⟩ := hlimit l rfl
    rcases h.checkDimension_ok scope.tenantId hnonneg hestimate hchecked hfits with
      ⟨hover, r, hr, hreject⟩ | ⟨hroom, hpass⟩
    · exact .inl ⟨l, r, rfl, hr, hover, hreject⟩
    · exact .inr ⟨by rintro _ ⟨⟩; exact hroom, hpass⟩

/-- A check that rejects has taken the sum of a configured dimension. -/
theorem Billed.bucketCheck_rejects {limit : Option I64} {r : BudgetError} (h : Billed db)
    (hreject : Ledger.bucketCheck db scope nowMs estimate limit b = .ok (some r)) :
    ¬(estimate.val = 0 ∧ effectiveGate (loadTenantConfig db scope.tenantId) = .paidOnly) ∧
      b.held db nowMs < 2 ^ 63 := by
  unfold Ledger.bucketCheck at hreject
  split at hreject
  · cases hreject
  · rename_i hskip
    refine ⟨fun h => hskip (skipZeroCost_eq_true.mpr h), ?_⟩
    cases limit with
    | none => cases hreject
    | some l => exact h.checkDimension_rejects hreject

/-- An admission that opened checks the sub-scope in its current period. -/
theorem Opens.scopeDimension {cfg : ScopeConfig} (h : Opens zones db scope nowMs adm)
    (hcfg : loadConfig db scope = some cfg) :
    Dimension zones db scope nowMs (.ofScope scope adm.period) cfg.limitMinor := by
  have hperiod := h.period
  rw [hcfg, admitPeriod] at hperiod
  exact .ofScope hcfg hperiod

theorem Opens.tenantDimension {cfg : TenantConfig} (h : Opens zones db scope nowMs adm)
    (hcfg : loadTenantConfig db scope.tenantId = some cfg) :
    Dimension zones db scope nowMs (.ofTenant scope.tenantId adm.tenantPeriod) cfg.limitMinor := by
  have hperiod := h.tenantPeriod
  rw [hcfg, admitTenantPeriod] at hperiod
  exact .ofTenant hcfg hperiod

theorem Billed.limit_nonneg (h : Billed db) (hdim : Dimension zones db scope nowMs b limit) :
    0 ≤ limit.val := by
  cases hdim with
  | ofScope configured current => exact h.scopeLimits _ (Table.lookup_mem configured)
  | ofTenant configured current => exact h.tenantLimits _ (Table.lookup_mem configured)

theorem validateScope_error (h : validateScope scope = .error e) : e.isExceeded = false := by
  unfold validateScope at h
  split at h
  · cases h; rfl
  · split at h
    · cases h; rfl
    · split at h
      · cases h; rfl
      · split at h <;> cases h
        rfl

theorem estimateOf_error {price : Price} (h : estimateOf price = .error e) :
    e.isExceeded = false := by
  cases price with
  | unknown => cases h; rfl
  | known minor =>
    simp only [estimateOf, bind_eq_error, refuseIf_eq_error] at h
    rcases h with ⟨-, rfl⟩ | ⟨_, -, h⟩
    · rfl
    · cases h

theorem billingPeriodKey_error {zone : String}
    (h : billingPeriodKey zones nowMs zone = .error e) : e.isExceeded = false := by
  unfold billingPeriodKey at h
  split at h
  · cases h; rfl
  · split at h <;> cases h
    rfl

theorem openAdmission_error (h : openAdmission zones scope nowMs db = .error e) :
    e.isExceeded = false := by
  simp only [openAdmission, bind_eq_error, refuseIf_eq_error] at h
  rcases h with h | ⟨_, -, ⟨-, rfl⟩ | ⟨_, -, h | ⟨period, -, h | ⟨_, -, h⟩⟩⟩⟩
  · obtain ⟨id, cost, rfl⟩ := rejectAmountOverflow_error h
    rfl
  · rfl
  · unfold admitPeriod at h
    split at h
    · exact billingPeriodKey_error h
    · exact billingPeriodKey_error h
    · cases h; rfl
  · unfold admitTenantPeriod at h
    split at h
    · exact billingPeriodKey_error h
    · cases h
    · cases h; rfl
  · cases h

/-- A dimension with a current period is all an admission needs to open. -/
theorem Billed.openAdmission_ok (h : Billed db)
    (hclear : rejectAmountOverflow db scope.tenantId none = .ok ())
    (hdim : Dimension zones db scope nowMs b limit) :
    ∃ adm, openAdmission zones scope nowMs db = .ok adm := by
  cases hdim with
  | ofScope configured current =>
    rename_i cfg period
    have hscope := Table.lookup_key configured
    have hzone : HasZone db scope.tenantId cfg.billingTimezone :=
      .inr ⟨cfg, Table.lookup_mem configured, by rw [hscope], rfl⟩
    cases hten : loadTenantConfig db scope.tenantId with
    | none =>
      simp [openAdmission, hclear, configured, hten, admitPeriod, admitTenantPeriod, current,
        refuseIf, bind, Except.bind, pure, Except.pure]
    | some ten =>
      have hsame := h.one _ _ _
        (.inl ⟨ten, Table.lookup_mem hten, Table.lookup_key hten, rfl⟩) hzone
      simp [openAdmission, hclear, configured, hten, admitPeriod, admitTenantPeriod, hsame, current,
        refuseIf, bind, Except.bind, pure, Except.pure]
  | ofTenant configured current =>
    rename_i ten period
    have hzone : HasZone db scope.tenantId ten.billingTimezone :=
      .inl ⟨ten, Table.lookup_mem configured, Table.lookup_key configured, rfl⟩
    cases hcfg : loadConfig db scope with
    | none =>
      simp [openAdmission, hclear, configured, hcfg, admitPeriod, admitTenantPeriod, current,
        refuseIf, bind, Except.bind, pure, Except.pure]
    | some cfg =>
      have hscope := Table.lookup_key hcfg
      have hsame := h.one _ _ _
        (.inr ⟨cfg, Table.lookup_mem hcfg, by rw [hscope], rfl⟩) hzone
      simp [openAdmission, hclear, configured, hcfg, admitPeriod, admitTenantPeriod, hsame, current,
        refuseIf, bind, Except.bind, pure, Except.pure]

section Admit

variable {ledger : BudgetLedger} {persist : Bool} {id : String} {clock : Readings}

theorem checkReservationDeadline_error {expires : I64}
    (h : checkReservationDeadline id expires nowMs = .error e) : e.isExceeded = false := by
  obtain ⟨-, rfl⟩ := refuseIf_eq_error.mp h
  rfl

theorem insertReservation_error {row : ReservationRow} (h : insertReservation db row = .error e) :
    e.isExceeded = false := by
  unfold insertReservation at h
  split at h <;> cases h
  rfl

/-- Once the limits have let a request pass, nothing reports them any more. -/
theorem persistAdmission_reports :
    reportsExceeded (close db (persistAdmission ledger adm scope estimate id clock)).1 = false := by
  cases h : persistAdmission ledger adm scope estimate id clock with
  | ok done =>
    simp only [persistAdmission, bind_eq_ok] at h
    obtain ⟨expires, -, db₁, -, _, -, h⟩ := h
    cases h
    cases hlast : checkReservationDeadline id expires clock.afterCommitMs with
    | ok _ => rfl
    | error e => exact checkReservationDeadline_error hlast
  | error e =>
    simp only [persistAdmission, bind_eq_error] at h
    rcases h with h | ⟨expires, -, h | ⟨db₁, -, h | ⟨_, -, h⟩⟩⟩
    · cases hadd : clock.nowMs.checkedAdd ledger.ttlMs with
      | none => rw [hadd] at h; cases h; rfl
      | some sum => rw [hadd] at h; cases h
    · exact insertReservation_error h
    · exact checkReservationDeadline_error h
    · cases h

/-- A reported excess is the rejection of one of the two checks. -/
theorem admit_exceeds
    (h : reportsExceeded (admitReservation zones ledger scope (.known estimate) persist id clock
      db).1 = true) :
    validateScope scope = .ok () ∧ 0 ≤ estimate.val ∧
      ∃ adm, Opens zones db scope clock.nowMs adm ∧
        ((∃ r, checkScopeLimit adm scope estimate clock.nowMs = .ok (some r)) ∨
          ∃ r, checkTenantLimit adm scope estimate clock.nowMs = .ok (some r)) := by
  have hno : ∀ {e : BudgetError}, e.isExceeded = false → ¬e.isExceeded = true := by simp
  cases hvalid : validateScope scope with
  | error e =>
    simp only [admitReservation, hvalid, bind, Except.bind, close_error, reportsExceeded] at h
    exact absurd h (hno (validateScope_error hvalid))
  | ok _ =>
    cases hestimate : estimateOf (.known estimate) with
    | error e =>
      simp only [admitReservation, hvalid, hestimate, bind, Except.bind, close_error,
        reportsExceeded] at h
      exact absurd h (hno (estimateOf_error hestimate))
    | ok minor =>
      obtain ⟨hsame, hnonneg⟩ := estimateOf_eq_ok.mp hestimate
      cases hsame
      refine ⟨rfl, hnonneg, ?_⟩
      cases hopen : openAdmission zones scope clock.nowMs db with
      | error e =>
        simp only [admitReservation, hvalid, hestimate, hopen, bind, Except.bind, close_error,
          reportsExceeded] at h
        exact absurd h (hno (openAdmission_error hopen))
      | ok adm =>
        have hopens := openAdmission_eq_ok hopen
        refine ⟨adm, hopens, ?_⟩
        cases hscope : checkScopeLimit adm scope estimate clock.nowMs with
        | error e =>
          simp only [admitReservation, hvalid, hestimate, hopen, hscope, bind, Except.bind,
            close_error, reportsExceeded] at h
          rw [checkScopeLimit_eq hopens] at hscope
          exact absurd h (hno (bucketCheck_error hscope))
        | ok scopeCheck =>
          cases scopeCheck with
          | some r => exact .inl ⟨r, rfl⟩
          | none =>
            cases htenant : checkTenantLimit adm scope estimate clock.nowMs with
            | error e =>
              simp only [admitReservation, hvalid, hestimate, hopen, hscope, htenant, bind,
                Except.bind, close_error, reportsExceeded] at h
              rw [checkTenantLimit_eq hopens] at htenant
              exact absurd h (hno (bucketCheck_error htenant))
            | ok tenantCheck =>
              cases tenantCheck with
              | some r => exact .inr ⟨r, rfl⟩
              | none =>
                cases persist with
                | false =>
                  simp [admitReservation, hvalid, hestimate, hopen, hscope, htenant, bind,
                    Except.bind, pure, Except.pure, reportsExceeded] at h
                | true =>
                  simp only [admitReservation, hvalid, hestimate, hopen, hscope, htenant, bind,
                    Except.bind, if_true] at h
                  rw [persistAdmission_reports] at h
                  cases h

/-- The limit of the sub-scope, and the sum its check takes. -/
theorem Opens.scopeLimit (h : Billed db) (hopens : Opens zones db scope nowMs adm)
    (hfits : ∀ cfg, loadConfig db scope = some cfg →
      (Bucket.ofScope scope adm.period).held db nowMs < 2 ^ 63) (l : I64)
    (hlimit : (loadConfig db scope).map ScopeConfig.limitMinor = some l) :
    0 ≤ l.val ∧ (Bucket.ofScope scope adm.period).held db nowMs < 2 ^ 63 := by
  obtain ⟨cfg, hcfg, rfl⟩ := Option.map_eq_some_iff.mp hlimit
  exact ⟨h.limit_nonneg (hopens.scopeDimension hcfg), hfits cfg hcfg⟩

theorem Opens.tenantLimit (h : Billed db) (hopens : Opens zones db scope nowMs adm)
    (hfits : ∀ cfg, loadTenantConfig db scope.tenantId = some cfg →
      (Bucket.ofTenant scope.tenantId adm.tenantPeriod).held db nowMs < 2 ^ 63) (l : I64)
    (hlimit : (loadTenantConfig db scope.tenantId).map TenantConfig.limitMinor = some l) :
    0 ≤ l.val ∧ (Bucket.ofTenant scope.tenantId adm.tenantPeriod).held db nowMs < 2 ^ 63 := by
  obtain ⟨cfg, hcfg, rfl⟩ := Option.map_eq_some_iff.mp hlimit
  exact ⟨h.limit_nonneg (hopens.tenantDimension hcfg), hfits cfg hcfg⟩

/-- What is reported as exceeded is over budget. -/
theorem Billed.overBudget_of_exceeds (h : Billed db)
    (hexceeds : reportsExceeded (admitReservation zones ledger scope (.known estimate) persist id
      clock db).1 = true) :
    validateScope scope = .ok () ∧ rejectAmountOverflow db scope.tenantId none = .ok () ∧
      OverBudget zones db scope clock.nowMs estimate.val := by
  obtain ⟨hvalid, hestimate, adm, hopens, ⟨r, hreject⟩ | ⟨r, hreject⟩⟩ := admit_exceeds hexceeds
  · rw [checkScopeLimit_eq hopens] at hreject
    obtain ⟨hchecked, hfits⟩ := h.bucketCheck_rejects hreject
    refine ⟨hvalid, hopens.clear, hchecked, ?_⟩
    rcases h.bucketCheck hestimate hchecked (hopens.scopeLimit h fun _ _ => hfits) with
      ⟨_, _, hlimit, -, hover, -⟩ | ⟨-, hpass⟩
    · obtain ⟨cfg, hcfg, rfl⟩ := Option.map_eq_some_iff.mp hlimit
      exact ⟨_, _, hopens.scopeDimension hcfg, hover⟩
    · rw [hpass] at hreject
      cases hreject
  · rw [checkTenantLimit_eq hopens] at hreject
    obtain ⟨hchecked, hfits⟩ := h.bucketCheck_rejects hreject
    refine ⟨hvalid, hopens.clear, hchecked, ?_⟩
    rcases h.bucketCheck hestimate hchecked (hopens.tenantLimit h fun _ _ => hfits) with
      ⟨_, _, hlimit, -, hover, -⟩ | ⟨-, hpass⟩
    · obtain ⟨cfg, hcfg, rfl⟩ := Option.map_eq_some_iff.mp hlimit
      exact ⟨_, _, hopens.tenantDimension hcfg, hover⟩
    · rw [hpass] at hreject
      cases hreject

/-- One of the two checks rejects what is over budget, when the sums can be taken. -/
theorem Billed.rejects_of_overBudget (h : Billed db) (hsums : SumsFit zones db scope nowMs)
    (hopens : Opens zones db scope nowMs adm) (hover : OverBudget zones db scope nowMs estimate.val) :
    ∃ r, r.isExceeded = true ∧ (checkScopeLimit adm scope estimate nowMs = .ok (some r) ∨
      checkScopeLimit adm scope estimate nowMs = .ok none ∧
        checkTenantLimit adm scope estimate nowMs = .ok (some r)) := by
  obtain ⟨hchecked, b, limit, hdim, hbucket⟩ := hover
  have hnonneg : 0 ≤ estimate.val := by
    rcases hbucket with ⟨hpriced, -⟩ | ⟨hfree, -⟩ <;> omega
  rw [checkScopeLimit_eq hopens, checkTenantLimit_eq hopens]
  rcases h.bucketCheck hnonneg hchecked (hopens.scopeLimit h fun cfg hcfg =>
    hsums _ _ (hopens.scopeDimension hcfg)) with ⟨_, r, -, hr, -, hscope⟩ | ⟨hroom, hscope⟩
  · exact ⟨r, hr, .inl hscope⟩
  · rcases h.bucketCheck hnonneg hchecked (hopens.tenantLimit h fun cfg hcfg =>
      hsums _ _ (hopens.tenantDimension hcfg)) with
      ⟨_, r, -, hr, -, htenant⟩ | ⟨htenantRoom, -⟩
    · exact ⟨r, hr, .inr ⟨hscope, htenant⟩⟩
    · cases hdim with
      | ofScope configured current =>
        have hperiod := hopens.period
        rw [configured, admitPeriod, current, Except.ok.injEq] at hperiod
        exact absurd (hperiod ▸ hbucket)
          (hroom _ (congrArg (Option.map ScopeConfig.limitMinor) configured))
      | ofTenant configured current =>
        have hperiod := hopens.tenantPeriod
        rw [configured, admitTenantPeriod, current, Except.ok.injEq] at hperiod
        exact absurd (hperiod ▸ hbucket)
          (htenantRoom _ (congrArg (Option.map TenantConfig.limitMinor) configured))

/-- What is over budget is reported, when the sums can be taken. -/
theorem Billed.exceeds_of_overBudget (h : Billed db)
    (hsums : SumsFit zones db scope clock.nowMs) (hvalid : validateScope scope = .ok ())
    (hclear : rejectAmountOverflow db scope.tenantId none = .ok ())
    (hover : OverBudget zones db scope clock.nowMs estimate.val) :
    reportsExceeded (admitReservation zones ledger scope (.known estimate) persist id clock
      db).1 = true := by
  have ⟨_, b, limit, hdim, hbucket⟩ := hover
  have hnonneg : 0 ≤ estimate.val := by
    rcases hbucket with ⟨hpriced, -⟩ | ⟨hfree, -⟩ <;> omega
  have hestimate := estimateOf_eq_ok.mpr ⟨rfl, hnonneg⟩
  obtain ⟨adm, hopen⟩ := h.openAdmission_ok hclear hdim
  obtain ⟨r, hr, hscope | ⟨hscope, htenant⟩⟩ :=
    h.rejects_of_overBudget hsums (openAdmission_eq_ok hopen) hover
  · simp only [admitReservation, hvalid, hestimate, hopen, hscope, bind, Except.bind, pure,
      Except.pure, close_ok]
    exact hr
  · simp only [admitReservation, hvalid, hestimate, hopen, hscope, htenant, bind, Except.bind,
      pure, Except.pure, close_ok]
    exact hr

theorem reserve_reports :
    reportsExceeded (reserve zones ledger scope (.known estimate) id clock db).1 =
      reportsExceeded (admitReservation zones ledger scope (.known estimate) true id clock db).1 := by
  simp only [reserve]
  cases (admitReservation zones ledger scope (.known estimate) true id clock db).1 with
  | error e => rfl
  | ok answer =>
    cases answer with
    | none => rfl
    | some id => rfl

end Admit

/-- In every ledger file, `reserve` reports an exceeded budget only for a complete scope of a
tenant without a pending overflow whose budget is exceeded over the integers, and for every one
of these whose sums can be taken. -/
theorem admission_exact (zones : Zones) (events : List Event) (ledger : BudgetLedger)
    (scope : BudgetScope) (estimate : I64) (id : String) (clock : Readings) :
    let db := run zones events Db.empty
    (reportsExceeded (reserve zones ledger scope (.known estimate) id clock db).1 = true →
      validateScope scope = .ok () ∧ rejectAmountOverflow db scope.tenantId none = .ok () ∧
        OverBudget zones db scope clock.nowMs estimate.val) ∧
    (SumsFit zones db scope clock.nowMs → validateScope scope = .ok () →
      rejectAmountOverflow db scope.tenantId none = .ok () →
      OverBudget zones db scope clock.nowMs estimate.val →
      reportsExceeded (reserve zones ledger scope (.known estimate) id clock db).1 = true) := by
  have h := billed_run zones events
  refine ⟨?_, ?_⟩
  · rw [reserve_reports]
    exact h.overBudget_of_exceeds
  · rw [reserve_reports]
    exact h.exceeds_of_overBudget

/-- A tenant with a limit of nothing, for all its requests. -/
def tenantOfNothing : Event := .returns (.configureTenant "acme" (.lit 0) "UTC" .all (.lit 0))

/-- A scope with a blank field is refused before the budget is looked at. -/
theorem blank_scope_not_exceeded :
    ¬ ∀ (events : List Event) (ledger : BudgetLedger) (scope : BudgetScope) (estimate : I64)
        (id : String) (clock : Readings), 0 ≤ estimate.val →
      (reportsExceeded (reserve twoZones ledger scope (.known estimate) id clock
          (run twoZones events Db.empty)).1 = true ↔
        OverBudget twoZones (run twoZones events Db.empty) scope clock.nowMs estimate.val) := by
  intro h
  have hreports := (h [tenantOfNothing] ⟨.lit 50, by decide⟩ ⟨"acme", "", "provider", "model"⟩
    (.lit 1) "r1" ⟨.lit 0, .lit 0, .lit 0⟩ (by decide)).mpr
    ⟨by decide, .ofTenant "acme" "1970-01", .lit 0,
      @Dimension.ofTenant _ _ _ _ ⟨"acme", .lit 0, "UTC", .all⟩ _ (by decide) (by decide),
      .inl (by decide)⟩
  exact absurd hreports (by decide)

end Ledger
