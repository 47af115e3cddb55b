import IDoris.Ledger.Calls

/-!
# The one list of what a call can write

Every invariant of the ledger is proved by cases on `Writes`, never by opening
an operation again.
-/
namespace Ledger

open Bounded Transaction Text

/-- Everything `configure` checks before it writes. -/
structure ConfigureAccepts (db : Db) (scope : BudgetScope) (limitMinor : I64)
    (billingTimezone : String) (nowMs : I64) : Prop where
  nonblank : validateScope scope = .ok ()
  limit : 0 ≤ limitMinor.val
  known : isIanaTimeZone billingTimezone = true
  tenant : agreeOnZone scope.tenantId
    ((loadTenantConfig db scope.tenantId).map TenantConfig.billingTimezone) billingTimezone = .ok ()
  sibling : agreeOnZone scope.tenantId
    (siblingSubScopeTimezone db scope.tenantId (some scope)) billingTimezone = .ok ()
  kept : keepZoneWhileLive ((loadConfig db scope).map ScopeConfig.billingTimezone) billingTimezone
    (hasActiveReservationsForScope db scope nowMs) = .ok ()

/-- Everything `configure_tenant` checks before it writes. -/
structure ConfigureTenantAccepts (db : Db) (tenantId : String) (limitMinor : I64)
    (billingTimezone : String) (nowMs : I64) : Prop where
  nonblank : isBlank tenantId = false
  limit : 0 ≤ limitMinor.val
  known : isIanaTimeZone billingTimezone = true
  sibling : agreeOnZone tenantId (siblingSubScopeTimezone db tenantId none) billingTimezone = .ok ()
  kept : keepZoneWhileLive ((loadTenantConfig db tenantId).map TenantConfig.billingTimezone)
    billingTimezone (hasActiveReservationsForTenant db tenantId nowMs) = .ok ()

/-- What an admission found before it looked at the limits. -/
structure Opens (zones : Zones) (db : Db) (scope : BudgetScope) (nowMs : I64) (adm : Admission) :
    Prop where
  clear : rejectAmountOverflow db scope.tenantId none = .ok ()
  sub : adm.subConfig = loadConfig db scope
  tenant : adm.tenantCfg = loadTenantConfig db scope.tenantId
  period : admitPeriod zones scope (loadConfig db scope) (loadTenantConfig db scope.tenantId) nowMs =
    .ok adm.period
  tenantPeriod : admitTenantPeriod zones scope (loadConfig db scope)
    (loadTenantConfig db scope.tenantId) nowMs adm.period = .ok adm.tenantPeriod
  swept : adm.swept = sweepExpiredScope db scope adm.period nowMs

/-- The row a reservation starts as. -/
def Admit.row (a : Admit) (adm : Admission) (estimate expires : I64) : ReservationRow :=
  { id := a.id, scope := a.scope, period := adm.period, tenantPeriod := adm.tenantPeriod,
    reservedMinor := estimate, status := .active, createdAtMs := a.clock.nowMs,
    expiresAtMs := expires, actualCostMinor := none }

/-- What holds when `reserve` inserts a row. -/
structure Reserves (zones : Zones) (db : Db) (a : Admit) (adm : Admission)
    (estimate expires : I64) : Prop where
  nonblank : validateScope a.scope = .ok ()
  price : a.estimatedCost = .known estimate
  priced : 0 ≤ estimate.val
  opens : Opens zones db a.scope a.clock.nowMs adm
  scopeFits : checkScopeLimit adm a.scope estimate a.clock.nowMs = .ok none
  tenantFits : checkTenantLimit adm a.scope estimate a.clock.nowMs = .ok none
  lifetime : expires.val = a.clock.nowMs.val + a.ledger.ttlMs.val
  fresh : Table.lookup ReservationRow.id a.id db.reservations = none
  deadline : a.clock.beforeCommitMs.val < expires.val

/-- The status a charge and a release start from. -/
def ReservationRow.unfinished (row : ReservationRow) : Prop :=
  row.status = .active ∨ row.status = .expired

/-- What holds when `settle` finds a row it may charge. -/
structure Chargeable (db : Db) (s : Settlement) (row : ReservationRow) : Prop where
  cost : 0 ≤ s.actualCostMinor.val
  found : Table.lookup ReservationRow.id s.reservationId db.reservations = some row
  tenant : row.scope.tenantId = s.tenantId
  unfinished : row.unfinished
  clear : rejectAmountOverflow db s.tenantId (some s.reservationId) = .ok ()

/-- The ledger file after a charge. -/
def Settlement.charged (s : Settlement) (row : ReservationRow) (scopeTotal tenantTotal : I64)
    (events : List OverageEvent) (db : Db) : Db :=
  { db with
    budgetPeriods :=
      Table.upsert BudgetPeriod.key ⟨row.scope, row.period, scopeTotal⟩ db.budgetPeriods
    tenantPeriods :=
      Table.upsert TenantPeriod.key ⟨s.tenantId, row.tenantPeriod, tenantTotal⟩ db.tenantPeriods
    reservations := Table.update ReservationRow.id s.reservationId
      (fun r => { r with status := .settled, actualCostMinor := some s.actualCostMinor })
      db.reservations
    budgetOverageEvents := db.budgetOverageEvents ++ events }

/-- The audit row of a charge above the reserved amount. -/
def Settlement.event (s : Settlement) (row : ReservationRow) : OverageEvent :=
  { id := s.eventId, tenantId := s.tenantId, reservationId := s.reservationId,
    reservedMinor := row.reservedMinor, actualCostMinor := s.actualCostMinor,
    overageMinor := atLeastZero (checkedSubI64 s.actualCostMinor row.reservedMinor),
    createdAtMs := s.nowMs }

/-- Everything a call can leave behind, with what must hold for it. -/
inductive Writes (zones : Zones) (db : Db) : Call → Db → Prop where
  | nothing (call : Call) : Writes zones db call db
  | configured {scope : BudgetScope} {limitMinor nowMs : I64} {billingTimezone : String}
      (accepts : ConfigureAccepts db scope limitMinor billingTimezone nowMs) :
      Writes zones db (.configure scope limitMinor billingTimezone nowMs)
        (upsertConfig db ⟨scope, limitMinor, billingTimezone⟩)
  | tenantConfigured {tenantId billingTimezone : String} {limitMinor nowMs : I64}
      {gate : SpendGate}
      (accepts : ConfigureTenantAccepts db tenantId limitMinor billingTimezone nowMs) :
      Writes zones db (.configureTenant tenantId limitMinor billingTimezone gate nowMs)
        (upsertTenantConfig db ⟨tenantId, limitMinor, billingTimezone, gate⟩)
  | retained (keep : List String) : Writes zones db (.retainTenants keep) (retainTenants keep db).2
  | swept {call : Call} {a : Admit} {adm : Admission}
      (isCall : call = .reserve a ∨ call = .checkAdmission a)
      (opens : Opens zones db a.scope a.clock.nowMs adm) :
      Writes zones db call (sweepExpiredScope db a.scope adm.period a.clock.nowMs)
  | reserved {a : Admit} {adm : Admission} {estimate expires : I64}
      (reserves : Reserves zones db a adm estimate expires) :
      Writes zones db (.reserve a)
        { db with reservations :=
            (sweepExpiredScope db a.scope adm.period a.clock.nowMs).reservations ++
              [a.row adm estimate expires] }
  | charged {call : Call} {s : Settlement} {row : ReservationRow} {scopeTotal tenantTotal : I64}
      {events : List OverageEvent} (isCall : call = .settle s ∨ call = .replaySettlement s)
      (chargeable : Chargeable db s row)
      (scopeSum : scopeTotal.val = (spentFor db row.scope row.period).val + s.actualCostMinor.val)
      (tenantSum : tenantTotal.val =
        (tenantSpentFor db s.tenantId row.tenantPeriod).val + s.actualCostMinor.val)
      (audit : events = [] ∨ events = [s.event row]) :
      Writes zones db call (s.charged row scopeTotal tenantTotal events db)
  | overflowed {call : Call} {s : Settlement} {row : ReservationRow}
      (isCall : call = .settle s ∨ call = .replaySettlement s)
      (chargeable : Chargeable db s row)
      (first : Table.lookup AmountOverflow.reservationId s.reservationId
        db.budgetAmountOverflows = none) :
      Writes zones db call
        { db with budgetAmountOverflows := db.budgetAmountOverflows ++
            [⟨s.reservationId, s.tenantId, s.actualCostMinor, s.nowMs⟩] }
  | extended {ledger : BudgetLedger} {tenantId reservationId : String} {additionalTtlMs : I64}
      {clock : Readings} {row : ReservationRow} {newExpires : I64}
      (found : Table.lookup ReservationRow.id reservationId db.reservations = some row)
      (tenant : row.scope.tenantId = tenantId) (active : row.status = .active)
      (unexpired : clock.nowMs.val < row.expiresAtMs.val)
      (ttl : 0 < additionalTtlMs.val ∧ additionalTtlMs.val ≤ ledger.ttlMs.val)
      (renewed : newExpires.val = clock.nowMs.val + additionalTtlMs.val)
      (lifetime : newExpires.val ≤ row.createdAtMs.val + 4 * ledger.ttlMs.val)
      (deadline : clock.beforeCommitMs.val < newExpires.val) :
      Writes zones db (.extend ledger tenantId reservationId additionalTtlMs clock)
        (updateReservation db reservationId fun r => { r with expiresAtMs := newExpires })
  | released {tenantId reservationId : String} {row : ReservationRow}
      (found : Table.lookup ReservationRow.id reservationId db.reservations = some row)
      (tenant : row.scope.tenantId = tenantId) (unfinished : row.unfinished)
      (clear : rejectAmountOverflow db tenantId (some reservationId) = .ok ()) :
      Writes zones db (.release tenantId reservationId)
        (updateReservation db reservationId fun r => { r with status := .released })
  | sweptAll (nowMs : I64) : Writes zones db (.sweepExpired nowMs) (sweepAll db nowMs)

section Inversion

variable {zones : Zones} {db db' : Db}

theorem estimateOf_eq_ok {price : Price} {estimate : I64} :
    estimateOf price = .ok estimate ↔ price = .known estimate ∧ 0 ≤ estimate.val := by
  cases price with
  | unknown => simp [estimateOf]
  | known minor =>
    simp only [estimateOf, bind_eq_ok, refuseIf_eq_ok, exists_const, pure, Except.pure,
      Except.ok.injEq, Price.known.injEq]
    constructor
    · rintro ⟨hle, rfl⟩; exact ⟨rfl, by omega⟩
    · rintro ⟨rfl, hle⟩; exact ⟨by omega, rfl⟩

theorem checkReservationDeadline_eq_ok {id : String} {expires now : I64} {u : Unit} :
    checkReservationDeadline id expires now = .ok u ↔ now.val < expires.val := by
  simp only [checkReservationDeadline, refuseIf_eq_ok]
  omega

/-- A configuration is written exactly when its checks let it through. -/
theorem configure_accepted {scope : BudgetScope} {limitMinor nowMs : I64}
    {billingTimezone : String}
    (accepts : ConfigureAccepts db scope limitMinor billingTimezone nowMs) :
    exec zones (.configure scope limitMinor billingTimezone nowMs) db =
      upsertConfig db ⟨scope, limitMinor, billingTimezone⟩ := by
  have hlimit : ¬ limitMinor.val < 0 := by
    have := accepts.limit
    omega
  simp [exec, configure, accepts.nonblank, accepts.known, accepts.tenant, accepts.sibling,
    accepts.kept, refuseIf, hlimit, bind, Except.bind, pure, Except.pure]

theorem configure_refused {scope : BudgetScope} {limitMinor nowMs : I64}
    {billingTimezone : String}
    (refused : ¬ ConfigureAccepts db scope limitMinor billingTimezone nowMs) :
    exec zones (.configure scope limitMinor billingTimezone nowMs) db = db := by
  rcases close_cases (rfl : configure scope limitMinor billingTimezone nowMs db = (_, _)) with
    h | ⟨-, -, -, h⟩
  · simp only [bind_eq_ok, refuseIf_eq_ok, exists_const, pure, Except.pure, Except.ok.injEq] at h
    obtain ⟨_, hscope, hlimit, hknown, _, htenant, _, hsibling, _, hkept, -⟩ := h
    exact absurd ⟨hscope, by omega, by simpa using hknown, htenant, hsibling, hkept⟩ refused
  · exact h

theorem configureTenant_accepted {tenantId billingTimezone : String} {limitMinor nowMs : I64}
    {gate : SpendGate}
    (accepts : ConfigureTenantAccepts db tenantId limitMinor billingTimezone nowMs) :
    exec zones (.configureTenant tenantId limitMinor billingTimezone gate nowMs) db =
      upsertTenantConfig db ⟨tenantId, limitMinor, billingTimezone, gate⟩ := by
  have hlimit : ¬ limitMinor.val < 0 := by
    have := accepts.limit
    omega
  simp [exec, configureTenant, accepts.nonblank, accepts.known, accepts.sibling, accepts.kept,
    refuseIf, hlimit, bind, Except.bind, pure, Except.pure]

theorem configureTenant_refused {tenantId billingTimezone : String} {limitMinor nowMs : I64}
    {gate : SpendGate}
    (refused : ¬ ConfigureTenantAccepts db tenantId limitMinor billingTimezone nowMs) :
    exec zones (.configureTenant tenantId limitMinor billingTimezone gate nowMs) db = db := by
  rcases close_cases (rfl : configureTenant tenantId limitMinor billingTimezone gate nowMs db =
      (_, _)) with h | ⟨-, -, -, h⟩
  · simp only [bind_eq_ok, refuseIf_eq_ok, exists_const, pure, Except.pure, Except.ok.injEq] at h
    obtain ⟨hblank, hlimit, hknown, _, hsibling, _, hkept, -⟩ := h
    exact absurd ⟨by simpa using hblank, by omega, by simpa using hknown, hsibling, hkept⟩ refused
  · exact h

theorem configure_writes (scope : BudgetScope) (limitMinor : I64) (billingTimezone : String)
    (nowMs : I64) :
    Writes zones db (.configure scope limitMinor billingTimezone nowMs)
      (exec zones (.configure scope limitMinor billingTimezone nowMs) db) := by
  by_cases accepts : ConfigureAccepts db scope limitMinor billingTimezone nowMs
  · rw [configure_accepted accepts]
    exact .configured accepts
  · rw [configure_refused accepts]
    exact .nothing _

theorem configureTenant_writes (tenantId : String) (limitMinor : I64) (billingTimezone : String)
    (gate : SpendGate) (nowMs : I64) :
    Writes zones db (.configureTenant tenantId limitMinor billingTimezone gate nowMs)
      (exec zones (.configureTenant tenantId limitMinor billingTimezone gate nowMs) db) := by
  by_cases accepts : ConfigureTenantAccepts db tenantId limitMinor billingTimezone nowMs
  · rw [configureTenant_accepted accepts]
    exact .tenantConfigured accepts
  · rw [configureTenant_refused accepts]
    exact .nothing _

theorem openAdmission_eq_ok {scope : BudgetScope} {nowMs : I64} {adm : Admission}
    (h : openAdmission zones scope nowMs db = .ok adm) : Opens zones db scope nowMs adm := by
  simp only [openAdmission, bind_eq_ok, refuseIf_eq_ok, exists_const, pure, Except.pure,
    Except.ok.injEq] at h
  obtain ⟨_, hclear, -, period, hperiod, tenantPeriod, htenant, rfl⟩ := h
  exact ⟨hclear, rfl, rfl, hperiod, htenant, rfl⟩

/-- What an admission leaves: nothing, its sweep, or its sweep and the new row. -/
theorem admit_cases {a : Admit} {persist : Bool} {answer : Except BudgetError (Option String)}
    (h : admitReservation zones a.ledger a.scope a.estimatedCost persist a.id a.clock db = (answer, db')) :
    db' = db ∨
    (∃ adm, Opens zones db a.scope a.clock.nowMs adm ∧
      db' = sweepExpiredScope db a.scope adm.period a.clock.nowMs) ∨
    (persist = true ∧ ∃ adm estimate expires, Reserves zones db a adm estimate expires ∧
      answer = (checkReservationDeadline a.id expires a.clock.afterCommitMs).map
        (fun _ => some a.id) ∧
      db' = { db with reservations :=
        (sweepExpiredScope db a.scope adm.period a.clock.nowMs).reservations ++
          [a.row adm estimate expires] }) := by
  rcases close_cases h with h | ⟨-, -, -, rfl⟩
  · simp only [bind_eq_ok] at h
    obtain ⟨_, hscope, estimate, hestimate, adm, hopen, scopeCheck, hscopeCheck, h⟩ := h
    have hopens := openAdmission_eq_ok hopen
    cases scopeCheck with
    | some rejection =>
      cases h
      exact .inr (.inl ⟨adm, hopens, hopens.swept⟩)
    | none =>
      simp only [bind_eq_ok] at h
      obtain ⟨tenantCheck, htenantCheck, h⟩ := h
      cases tenantCheck with
      | some rejection =>
        cases h
        exact .inr (.inl ⟨adm, hopens, hopens.swept⟩)
      | none =>
        cases persist with
        | false =>
          cases h
          exact .inr (.inl ⟨adm, hopens, hopens.swept⟩)
        | true =>
          simp only [if_true, persistAdmission, bind_eq_ok, orRefuse_eq_ok,
            I64.checkedAdd_eq_some, insertReservation_eq_ok, checkReservationDeadline_eq_ok,
            exists_const, pure, Except.pure, Except.ok.injEq, Prod.mk.injEq] at h
          obtain ⟨expires, hexpires, db₁, ⟨hfresh, rfl⟩, hdeadline, hanswer, rfl⟩ := h
          obtain ⟨hprice, hpriced⟩ := estimateOf_eq_ok.mp hestimate
          refine .inr (.inr ⟨rfl, adm, estimate, expires, ⟨hscope, hprice, hpriced, hopens,
            hscopeCheck, htenantCheck, hexpires, ?_, hdeadline⟩, hanswer.symm, ?_⟩)
          · rw [hopens.swept, sweepExpiredScope, lookup_sweepWhere] at hfresh
            simpa using hfresh
          · rw [hopens.swept]
            rfl
  · exact .inl rfl

theorem reserve_writes (a : Admit) :
    Writes zones db (.reserve a)
      (reserve zones a.ledger a.scope a.estimatedCost a.id a.clock db).2 := by
  cases hadmit : admitReservation zones a.ledger a.scope a.estimatedCost true a.id a.clock db with
  | mk answer db' =>
    simp only [reserve, hadmit]
    rcases admit_cases hadmit with
      rfl | ⟨adm, hopens, rfl⟩ | ⟨-, adm, estimate, expires, hreserves, -, rfl⟩
    · exact .nothing _
    · exact .swept (.inl rfl) hopens
    · exact .reserved hreserves

theorem checkAdmission_writes (a : Admit) :
    Writes zones db (.checkAdmission a)
      (checkAdmission zones a.ledger a.scope a.estimatedCost a.clock db).2 := by
  cases hadmit : admitReservation zones a.ledger a.scope a.estimatedCost false "" a.clock db with
  | mk answer db' =>
    simp only [checkAdmission, hadmit]
    rcases admit_cases (a := { a with id := "" }) hadmit with
      rfl | ⟨adm, hopens, rfl⟩ | ⟨hpersist, -⟩
    · exact .nothing _
    · exact .swept (a := a) (.inr rfl) hopens
    · cases hpersist

theorem lateOf_unfinished {row : ReservationRow} {nowMs : I64} {late : Bool}
    (h : lateOf row nowMs = .ok late) : row.unfinished := by
  unfold lateOf at h
  split at h
  · rename_i hactive
    exact .inl hactive
  · rename_i hexpired
    exact .inr hexpired
  · cases h

/-- The writes of a charge, as one database. -/
theorem charge_eq_ok {s : Settlement} {row : ReservationRow} {scopeTotal tenantTotal : I64}
    (hid : row.id = s.reservationId)
    (h : charge row s.tenantId s.actualCostMinor scopeTotal tenantTotal s.eventId s.nowMs db =
      .ok db') :
    ∃ events, (events = [] ∨ events = [s.event row]) ∧
      db' = s.charged row scopeTotal tenantTotal events db := by
  simp only [charge, bind_eq_ok, upsertBudgetPeriod_eq_ok, upsertTenantPeriod_eq_ok] at h
  obtain ⟨_, ⟨-, rfl⟩, _, ⟨-, rfl⟩, h⟩ := h
  split at h
  · obtain ⟨-, rfl⟩ := insertOverageEvent_eq_ok.mp h
    refine ⟨[s.event row], .inr rfl, ?_⟩
    simp [Settlement.charged, Settlement.event, updateReservation, hid]
  · cases h
    refine ⟨[], .inl rfl, ?_⟩
    simp [Settlement.charged, updateReservation, hid]

/-- What a charge that commits answers and leaves. -/
structure Charges (db : Db) (s : Settlement) (row : ReservationRow)
    (answer : Except BudgetError SettleReceipt) (db' : Db) : Prop where
  chargeable : Chargeable db s row
  written : ∃ scopeTotal tenantTotal events,
    scopeTotal.val = (spentFor db row.scope row.period).val + s.actualCostMinor.val ∧
    tenantTotal.val =
      (tenantSpentFor db s.tenantId row.tenantPeriod).val + s.actualCostMinor.val ∧
    (events = [] ∨ events = [s.event row]) ∧ db' = s.charged row scopeTotal tenantTotal events db
  answered : ∃ late, lateOf row s.nowMs = .ok late ∧
    answer = settleAnswer row s.actualCostMinor late

theorem findReservation_error {tenantId id : String} {e : BudgetError}
    (h : findReservation db tenantId id = .error e) :
    e = .tenantMismatch id ∨ e = .reservationNotFound id := by
  unfold findReservation at h
  split at h
  · split at h <;> cases h
    exact .inl rfl
  · cases h
    exact .inr rfl

theorem lateOf_error {row : ReservationRow} {nowMs : I64} {e : BudgetError}
    (h : lateOf row nowMs = .error e) : e = .reservationNotActive row.id row.status.asSql := by
  unfold lateOf at h
  split at h <;> cases h
  rfl

theorem rejectAmountOverflow_error {tenantId : String} {id : Option String} {e : BudgetError}
    (h : rejectAmountOverflow db tenantId id = .error e) : ∃ i c, e = .amountOverflow i c := by
  unfold rejectAmountOverflow at h
  split at h <;> cases h
  exact ⟨_, _, rfl⟩

theorem charge_error {row : ReservationRow} {tenantId eventId : String}
    {cost scopeTotal tenantTotal nowMs : I64} {e : BudgetError}
    (h : charge row tenantId cost scopeTotal tenantTotal eventId nowMs db = .error e) :
    ∃ message, e = .storage message := by
  simp only [charge, bind_eq_error, upsertBudgetPeriod, upsertTenantPeriod] at h
  rcases h with h | ⟨db₁, -, h | ⟨db₂, -, h⟩⟩
  · split at h <;> cases h
    exact ⟨_, rfl⟩
  · split at h <;> cases h
    exact ⟨_, rfl⟩
  · unfold insertOverageEvent at h
    split at h
    · split at h <;> cases h
      exact ⟨_, rfl⟩
    · cases h

/-- The errors of `settle` that are not the answer to a committed charge. -/
def BudgetError.uncharged (e : BudgetError) : Prop :=
  ∀ id reservedMinor actualCostMinor, e ≠ .overageTooLarge id reservedMinor actualCostMinor

/-- The three exits of `settle`: a charge, a retained overflow, or an error without a trace. -/
theorem settle_cases {s : Settlement} {answer : Except BudgetError SettleReceipt}
    (h : settle s.tenantId s.reservationId s.actualCostMinor s.nowMs s.eventId db =
      (answer, db')) :
    (∃ row, Charges db s row answer db') ∨
    (∃ row, Chargeable db s row ∧
      Table.lookup AmountOverflow.reservationId s.reservationId db.budgetAmountOverflows = none ∧
      answer = .error (.amountOverflow s.reservationId s.actualCostMinor) ∧
      db' = { db with budgetAmountOverflows := db.budgetAmountOverflows ++
        [⟨s.reservationId, s.tenantId, s.actualCostMinor, s.nowMs⟩] }) ∨
    (∃ e, answer = .error e ∧ e.uncharged ∧ db' = db) := by
  rcases close_cases h with h | ⟨e, h, he, rfl⟩
  · simp only [bind_eq_ok, refuseIf_eq_ok, exists_const] at h
    obtain ⟨hcost, row, hrow, late, hlate, _, hclear, h⟩ := h
    obtain ⟨hfound, htenant⟩ := findReservation_eq_ok.mp hrow
    have hchargeable : Chargeable db s row :=
      ⟨by omega, hfound, htenant, lateOf_unfinished hlate, hclear⟩
    split at h
    · rename_i scopeTotal tenantTotal hscope htotal
      simp only [bind_eq_ok, pure, Except.pure, Except.ok.injEq, Prod.mk.injEq] at h
      obtain ⟨db₁, hcharge, rfl, rfl⟩ := h
      obtain ⟨events, haudit, rfl⟩ := charge_eq_ok (Table.lookup_key hfound) hcharge
      exact .inl ⟨row, hchargeable, ⟨scopeTotal, tenantTotal, events,
        I64.checkedAdd_eq_some.mp hscope, I64.checkedAdd_eq_some.mp htotal, haudit, rfl⟩,
        ⟨late, hlate, rfl⟩⟩
    · simp only [bind_eq_ok, insertAmountOverflow_eq_ok, pure, Except.pure, Except.ok.injEq,
        Prod.mk.injEq] at h
      obtain ⟨_, ⟨hfirst, rfl⟩, rfl, rfl⟩ := h
      exact .inr (.inl ⟨row, hchargeable, hfirst, rfl, rfl⟩)
  · refine .inr (.inr ⟨e, he, ?_, rfl⟩)
    simp only [bind_eq_error, refuseIf_eq_error, refuseIf_eq_ok, exists_const] at h
    rintro id reservedMinor actualCostMinor rfl
    rcases h with ⟨-, h⟩ | ⟨-, h | ⟨row, -, h | ⟨late, -, h | ⟨_, -, h⟩⟩⟩⟩
    · cases h
    · rcases findReservation_error h with h | h <;> cases h
    · cases lateOf_error h
    · obtain ⟨_, _, h⟩ := rejectAmountOverflow_error h
      cases h
    · split at h
      · simp only [bind_eq_error, pure, Except.pure, reduceCtorEq, and_false, exists_false,
          or_false] at h
        obtain ⟨_, h⟩ := charge_error h
        cases h
      · simp only [bind_eq_error, pure, Except.pure, reduceCtorEq, and_false, exists_false,
          or_false] at h
        unfold insertAmountOverflow at h
        split at h <;> cases h

theorem settle_writes {call : Call} (s : Settlement)
    (isCall : call = .settle s ∨ call = .replaySettlement s) :
    Writes zones db call
      (settle s.tenantId s.reservationId s.actualCostMinor s.nowMs s.eventId db).2 := by
  cases hsettle : settle s.tenantId s.reservationId s.actualCostMinor s.nowMs s.eventId db with
  | mk answer db' =>
    rcases settle_cases hsettle with ⟨row, hcharges⟩ | ⟨row, hchargeable, hfirst, -, rfl⟩ |
      ⟨e, -, -, rfl⟩
    · obtain ⟨scopeTotal, tenantTotal, events, hscope, htotal, haudit, rfl⟩ := hcharges.written
      exact .charged isCall hcharges.chargeable hscope htotal haudit
    · exact .overflowed isCall hchargeable hfirst
    · exact .nothing _

theorem extend_writes (ledger : BudgetLedger) (tenantId reservationId : String)
    (additionalTtlMs : I64) (clock : Readings) :
    Writes zones db (.extend ledger tenantId reservationId additionalTtlMs clock)
      (extend ledger tenantId reservationId additionalTtlMs clock db).2 := by
  refine close_invariant _ (.nothing _) ?_
  intro answer db' h
  simp only [bind_eq_ok, refuseIf_eq_ok, exists_const, orRefuse_eq_ok, I64.checkedAdd_eq_some,
    I64.checkedMul_eq_some, checkReservationDeadline_eq_ok, pure, Except.pure, Except.ok.injEq,
    Prod.mk.injEq, not_or, ne_eq, not_not, I64.lit_val 4 (by decide) (by decide)] at h
  obtain ⟨httl, row, hrow, ⟨hactive, hlive⟩, newExpires, hnew, maxLifetime, hlifetime, maxExpires,
    hmax, hcap, hdeadline, -, rfl⟩ := h
  obtain ⟨hfound, htenant⟩ := findReservation_eq_ok.mp hrow
  exact .extended hfound htenant hactive (by omega) (by omega) hnew (by omega) hdeadline

theorem release_writes (tenantId reservationId : String) :
    Writes zones db (.release tenantId reservationId) (release tenantId reservationId db).2 := by
  refine close_invariant _ (.nothing _) ?_
  intro answer db' h
  simp only [bind_eq_ok] at h
  obtain ⟨row, hrow, h⟩ := h
  obtain ⟨hfound, htenant⟩ := findReservation_eq_ok.mp hrow
  split at h
  · cases h
    exact .nothing _
  · cases h
  · rename_i hreleased hsettled
    simp only [bind_eq_ok, pure, Except.pure, Except.ok.injEq, Prod.mk.injEq] at h
    obtain ⟨_, hclear, -, rfl⟩ := h
    have hunfinished : row.unfinished := by
      unfold ReservationRow.unfinished
      cases hstatus : row.status <;> simp_all
    exact .released hfound htenant hunfinished hclear

/-- Every call leaves one of the listed databases. -/
theorem exec_writes (zones : Zones) (call : Call) (db : Db) :
    Writes zones db call (exec zones call db) := by
  cases call with
  | configure scope limitMinor billingTimezone nowMs => exact configure_writes ..
  | configureTenant tenantId limitMinor billingTimezone gate nowMs =>
    exact configureTenant_writes ..
  | retainTenants keep => exact .retained keep
  | reserve a => exact reserve_writes a
  | checkAdmission a => exact checkAdmission_writes a
  | settle s => exact settle_writes s (.inl rfl)
  | replaySettlement s => exact settle_writes s (.inr rfl)
  | extend ledger tenantId reservationId additionalTtlMs clock => exact extend_writes ..
  | release tenantId reservationId => exact release_writes ..
  | sweepExpired nowMs => exact .sweptAll nowMs

end Inversion

end Ledger
