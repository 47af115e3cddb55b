import IDoris.Ledger.Dormant
import IDoris.Ledger.Timed

/-!
# Failed calls leave no trace

The calls of two ledger files that look alike answer the same and leave files that
look alike again. A failed call leaves the file as it was, up to reservations that
are over.
-/
namespace Ledger

open Bounded Transaction

section Simulation

variable {α : Type} {zones : Zones} {c nowMs : I64} {hidden : List String} {db : Db}
  {rows : List ReservationRow} {tenantId id : String}

/-- Two transactions with bodies that agree. -/
theorem RowsAlike.close (h : RowsAlike c hidden db.reservations rows) {E : BudgetError → BudgetError → Prop}
    {A : Except BudgetError α → Except BudgetError α → Prop}
    {body body' : Except BudgetError (Outcome α)}
    (herror : ∀ e e', E e e' → A (.error e) (.error e'))
    (hbody : Agree E (fun done done' => A done.1 done'.1 ∧ Alike c hidden done.2 done'.2) body
      body') :
    A (close db body).1 (close { db with reservations := rows } body').1 ∧
      Alike c hidden (close db body).2 (close { db with reservations := rows } body').2 :=
  hbody.close ⟨rows, rfl, h⟩ herror

theorem error_congr {e e' : BudgetError} (h : e = e') :
    (.error e : Except BudgetError α) = .error e' := by rw [h]

theorem RowsAlike.configure (h : RowsAlike c hidden db.reservations rows)
    (hle : c.val ≤ nowMs.val) (scope : BudgetScope) (limitMinor : I64) (billingTimezone : String) :
    (configure scope limitMinor billingTimezone nowMs db).1 =
        (configure scope limitMinor billingTimezone nowMs { db with reservations := rows }).1 ∧
      Alike c hidden (configure scope limitMinor billingTimezone nowMs db).2
        (configure scope limitMinor billingTimezone nowMs { db with reservations := rows }).2 := by
  refine h.close (fun _ _ => error_congr) ?_
  rw [h.hasActiveForScope hle]
  iterate 6 refine Agree.bind_same (fun _ => rfl) fun _ _ => ?_
  exact .ok ⟨rfl, rows, rfl, h⟩

theorem RowsAlike.configureTenant (h : RowsAlike c hidden db.reservations rows)
    (hle : c.val ≤ nowMs.val) (limitMinor : I64) (billingTimezone : String) (gate : SpendGate) :
    (configureTenant tenantId limitMinor billingTimezone gate nowMs db).1 =
        (configureTenant tenantId limitMinor billingTimezone gate nowMs
          { db with reservations := rows }).1 ∧
      Alike c hidden (configureTenant tenantId limitMinor billingTimezone gate nowMs db).2
        (configureTenant tenantId limitMinor billingTimezone gate nowMs
          { db with reservations := rows }).2 := by
  refine h.close (fun _ _ => error_congr) ?_
  rw [h.hasActiveForTenant hle]
  iterate 5 refine Agree.bind_same (fun _ => rfl) fun _ _ => ?_
  exact .ok ⟨rfl, rows, rfl, h⟩

theorem RowsAlike.openAdmission (h : RowsAlike c hidden db.reservations rows)
    (scope : BudgetScope) :
    Agree Eq (fun adm adm' => ∃ swept, adm' =
        { adm with swept := { adm.swept with reservations := swept } } ∧
          RowsAlike c hidden adm.swept.reservations swept)
      (openAdmission zones scope nowMs db)
      (openAdmission zones scope nowMs { db with reservations := rows }) := by
  unfold Ledger.openAdmission
  iterate 4 refine Agree.bind_same (fun _ => rfl) fun _ _ => ?_
  exact .ok ⟨_, rfl, h.sweep _⟩

theorem checkScopeLimit_alike {adm : Admission} {swept : List ReservationRow}
    (h : RowsAlike c hidden adm.swept.reservations swept) (hle : c.val ≤ nowMs.val)
    (scope : BudgetScope) (estimate : I64) :
    checkScopeLimit { adm with swept := { adm.swept with reservations := swept } } scope estimate
      nowMs = checkScopeLimit adm scope estimate nowMs := by
  unfold checkScopeLimit
  rw [h.activeReservedFor hle]
  rfl

theorem checkTenantLimit_alike {adm : Admission} {swept : List ReservationRow}
    (h : RowsAlike c hidden adm.swept.reservations swept) (hle : c.val ≤ nowMs.val)
    (scope : BudgetScope) (estimate : I64) :
    checkTenantLimit { adm with swept := { adm.swept with reservations := swept } } scope estimate
      nowMs = checkTenantLimit adm scope estimate nowMs := by
  unfold checkTenantLimit
  rw [h.tenantActiveReservedFor hle]
  rfl

/-- An insert of a row that is not hidden finds the id free in both tables or in none. -/
theorem RowsAlike.insertReservation (h : RowsAlike c hidden db.reservations rows)
    {row : ReservationRow} (hid : row.id ∉ hidden) :
    Agree Eq (Alike c hidden) (insertReservation db row)
      (insertReservation { db with reservations := rows } row) := by
  have hlookup := h.lookup hid
  unfold Ledger.insertReservation
  cases hfound : Table.lookup ReservationRow.id row.id db.reservations with
  | none =>
    rw [hfound, Option.map_none, eq_comm, Option.map_eq_none_iff] at hlookup
    simp only [hlookup]
    exact .ok ⟨_, rfl, h.append hid⟩
  | some found =>
    rw [hfound, Option.map_some, eq_comm, Option.map_eq_some_iff] at hlookup
    obtain ⟨found', hfound', -⟩ := hlookup
    simp only [hfound']
    exact .error rfl

theorem RowsAlike.admitReservation (h : RowsAlike c hidden db.reservations rows) (zones : Zones)
    {a : Admit} (hle : c.val ≤ a.clock.nowMs.val) (persist : Bool) (id : String)
    (hid : persist = true → id ∉ hidden) :
    (admitReservation zones a.ledger a.scope a.estimatedCost persist id a.clock db).1 =
        (admitReservation zones a.ledger a.scope a.estimatedCost persist id a.clock
          { db with reservations := rows }).1 ∧
      Alike c hidden
        (admitReservation zones a.ledger a.scope a.estimatedCost persist id a.clock db).2
        (admitReservation zones a.ledger a.scope a.estimatedCost persist id a.clock
          { db with reservations := rows }).2 := by
  refine h.close (fun _ _ => error_congr) ?_
  refine Agree.bind_same (fun _ => rfl) fun _ _ => ?_
  refine Agree.bind_same (fun _ => rfl) fun estimate _ => ?_
  refine (h.openAdmission a.scope).bind fun adm adm' hadm => ?_
  obtain ⟨swept, rfl, hswept⟩ := hadm
  rw [checkScopeLimit_alike hswept hle]
  refine Agree.bind_same (fun _ => rfl) fun scopeCheck _ => ?_
  cases scopeCheck with
  | some rejection => exact .ok ⟨rfl, swept, rfl, hswept⟩
  | none =>
    dsimp only
    rw [checkTenantLimit_alike hswept hle]
    refine Agree.bind_same (fun _ => rfl) fun tenantCheck _ => ?_
    cases tenantCheck with
    | some rejection => exact .ok ⟨rfl, swept, rfl, hswept⟩
    | none =>
      cases persist with
      | false => exact .ok ⟨rfl, swept, rfl, hswept⟩
      | true =>
        refine Agree.bind_same (fun _ => rfl) fun expires _ => ?_
        refine (hswept.insertReservation (hid rfl)).bind fun done done' hdone => ?_
        refine Agree.bind_same (fun _ => rfl) fun _ _ => ?_
        exact .ok ⟨rfl, hdone⟩

/-- Whether a charge is late does not depend on how a due row is marked. -/
theorem lateOf_seen (hle : c.val ≤ nowMs.val) (row : ReservationRow) :
    lateOf (row.seen c) nowMs = lateOf row nowMs := by
  by_cases hlive : row.live c
  · rw [ReservationRow.seen_of_live hlive]
  · rw [ReservationRow.seen_of_not_live hlive]
    cases hstatus : row.status with
    | active =>
      have hdue : row.expiresAtMs.val ≤ nowMs.val := by
        have : ¬c.val < row.expiresAtMs.val := fun hahead => hlive ⟨hstatus, hahead⟩
        omega
      simp [lateOf, hstatus, hdue]
    | expired | settled | released => simp [lateOf, hstatus]

/-- A finished row looks the same whatever its deadline was. -/
theorem seen_finish (row : ReservationRow) {status : ReservationStatus} (cost : Option I64)
    (hstatus : status ≠ .active) :
    ({ row with status := status, actualCostMinor := cost } : ReservationRow).seen c =
      { row.seen c with
        status := status, actualCostMinor := cost, expiresAtMs := I64.lit 0 } := by
  have hdead : ¬({ row with status := status, actualCostMinor := cost } : ReservationRow).live c :=
    fun hlive => hstatus hlive.1
  rw [ReservationRow.seen_of_not_live hdead, ReservationRow.seen_eq c row]
  simp [hstatus]

theorem RowsAlike.settled (h : RowsAlike c hidden db.reservations rows) (hid : id ∉ hidden)
    (cost : Option I64) :
    RowsAlike c hidden
      (Table.update ReservationRow.id id
        (fun r => { r with status := .settled, actualCostMinor := cost }) db.reservations)
      (Table.update ReservationRow.id id
        (fun r => { r with status := .settled, actualCostMinor := cost }) rows) :=
  h.update (g := fun r =>
      { r with status := .settled, actualCostMinor := cost, expiresAtMs := I64.lit 0 })
    hid (fun _ => rfl) fun row _ _ => seen_finish row cost (by simp)

theorem RowsAlike.released (h : RowsAlike c hidden db.reservations rows) (hid : id ∉ hidden) :
    RowsAlike c hidden
      (Table.update ReservationRow.id id (fun r => { r with status := .released })
        db.reservations)
      (Table.update ReservationRow.id id (fun r => { r with status := .released }) rows) := by
  refine h.update (g := fun r => { r with status := .released, expiresAtMs := I64.lit 0 }) hid
    (fun _ => rfl) fun row _ _ => ?_
  have hfinish := seen_finish (c := c) row row.actualCostMinor
    (show ReservationStatus.released ≠ .active by simp)
  rw [ReservationRow.seen_eq c row] at hfinish ⊢
  exact hfinish

theorem RowsAlike.charge (h : RowsAlike c hidden db.reservations rows) {row : ReservationRow}
    (hid : row.id ∉ hidden) (eventId : String) (cost scopeTotal tenantTotal : I64) :
    Agree Eq (Alike c hidden)
      (charge row tenantId cost scopeTotal tenantTotal eventId nowMs db)
      (charge row tenantId cost scopeTotal tenantTotal eventId nowMs
        { db with reservations := rows }) := by
  have hrows := h.settled hid (some cost)
  unfold Ledger.charge upsertBudgetPeriod upsertTenantPeriod
  by_cases hscope : scopeTotal.val < 0
  · simp only [hscope, if_true]
    exact .error rfl
  · by_cases htenant : tenantTotal.val < 0
    · simp only [hscope, htenant, if_true, if_false]
      exact .error rfl
    · simp only [hscope, htenant, if_false]
      by_cases hover : 0 < (atLeastZero (checkedSubI64 cost row.reservedMinor)).val
      · simp only [hover, if_true, insertOverageEvent]
        cases hfound : Table.lookup OverageEvent.id eventId db.budgetOverageEvents with
        | none =>
          simp only [bind, Except.bind, updateReservation, hfound]
          exact .ok ⟨_, rfl, hrows⟩
        | some found =>
          simp only [bind, Except.bind, updateReservation, hfound]
          exact .error rfl
      · simp only [hover, if_false]
        exact .ok ⟨_, rfl, hrows⟩

theorem RowsAlike.settle (h : RowsAlike c hidden db.reservations rows) {s : Settlement}
    (hle : c.val ≤ s.nowMs.val) (hid : s.reservationId ∉ hidden) :
    (settle s.tenantId s.reservationId s.actualCostMinor s.nowMs s.eventId db).1 =
        (settle s.tenantId s.reservationId s.actualCostMinor s.nowMs s.eventId
          { db with reservations := rows }).1 ∧
      Alike c hidden
        (settle s.tenantId s.reservationId s.actualCostMinor s.nowMs s.eventId db).2
        (settle s.tenantId s.reservationId s.actualCostMinor s.nowMs s.eventId
          { db with reservations := rows }).2 := by
  refine h.close (fun _ _ => error_congr) ?_
  refine Agree.bind_same (fun _ => rfl) fun _ _ => ?_
  refine (h.findReservation hid).bind fun row row' hrow => ?_
  obtain ⟨hfound, -, hseen⟩ := hrow
  have hlate : lateOf row' s.nowMs = lateOf row s.nowMs := by
    rw [← lateOf_seen hle row', ← hseen, lateOf_seen hle]
  have hkey : row.id ∉ hidden := by rwa [Table.lookup_key hfound]
  rw [hlate]
  refine Agree.bind_same (fun _ => rfl) fun late _ => ?_
  refine Agree.bind_same (fun _ => rfl) fun _ _ => ?_
  -- the rows differ only in what a charge does not look at
  rw [ReservationRow.eq_of_seen hseen]
  dsimp only
  have htotals : ∀ scope period, spentFor { db with reservations := rows } scope period =
      spentFor db scope period := fun _ _ => rfl
  have htenantTotals : ∀ tenantId period,
      tenantSpentFor { db with reservations := rows } tenantId period =
        tenantSpentFor db tenantId period := fun _ _ => rfl
  rw [htotals, htenantTotals]
  split
  · refine (h.charge hkey s.eventId ..).bind fun done done' hdone => ?_
    exact .ok ⟨rfl, hdone⟩
  · refine Agree.bind (S := Alike c hidden) ?_ fun done done' hdone => .ok ⟨rfl, hdone⟩
    unfold insertAmountOverflow
    dsimp only
    split
    · exact .error rfl
    · exact .ok ⟨rows, rfl, h⟩

theorem RowsAlike.extend (h : RowsAlike c hidden db.reservations rows)
    (hids : (db.reservations.map ReservationRow.id).Nodup)
    (hids' : (rows.map ReservationRow.id).Nodup) (ledger : BudgetLedger) (additionalTtlMs : I64)
    {clock : Readings} (hle : c.val ≤ clock.nowMs.val) (hid : id ∉ hidden) :
    ((extend ledger tenantId id additionalTtlMs clock db).1 = .ok () ↔
        (extend ledger tenantId id additionalTtlMs clock { db with reservations := rows }).1 =
          .ok ()) ∧
      Alike c hidden (extend ledger tenantId id additionalTtlMs clock db).2
        (extend ledger tenantId id additionalTtlMs clock { db with reservations := rows }).2 := by
  refine h.close (E := fun _ _ => True) (A := fun a a' => a = .ok () ↔ a' = .ok ())
    (fun _ _ _ => by simp) ?_
  refine Agree.bind_same (fun _ => trivial) fun _ _ => ?_
  refine ((h.findReservation hid).weaken fun _ _ _ => trivial).bind fun row row' hrow => ?_
  obtain ⟨hfound, hfound', hseen⟩ := hrow
  by_cases hlive : row.live clock.nowMs
  · have hlive' : row.live c := ⟨hlive.1, Int.lt_of_le_of_lt hle hlive.2⟩
    obtain rfl := ReservationRow.eq_of_live hlive' hseen
    refine Agree.bind_same (fun _ => trivial) fun _ _ => ?_
    refine Agree.bind_same (fun _ => trivial) fun expires _ => ?_
    iterate 4 refine Agree.bind_same (fun _ => trivial) fun _ _ => ?_
    refine .ok ⟨Iff.rfl, _, rfl, ?_⟩
    refine h.update (g := fun r => ({ r with expiresAtMs := expires } : ReservationRow).seen c)
      hid (fun _ => rfl) ?_
    intro other hother hkey
    -- the row with the id is the live one that was found
    have hsame : other = row' := by
      obtain hmem | hmem := hother
      · have := Table.lookup_of_mem hids hmem
        rw [hkey, hfound, Option.some.injEq] at this
        exact this.symm
      · have := Table.lookup_of_mem hids' hmem
        rw [hkey, hfound', Option.some.injEq] at this
        exact this.symm
    subst hsame
    rw [ReservationRow.seen_of_live hlive']
  · have hdead' : ¬row'.live clock.nowMs := by
      intro hlive'
      have hlater : row'.live c := ⟨hlive'.1, Int.lt_of_le_of_lt hle hlive'.2⟩
      obtain rfl := ReservationRow.eq_of_live hlater hseen.symm
      exact hlive hlive'
    have hrefused : ∀ row : ReservationRow, ¬row.live clock.nowMs →
        row.status ≠ .active ∨ row.expiresAtMs.val ≤ clock.nowMs.val := by
      intro row hdead
      by_cases hactive : row.status = .active
      · have : ¬clock.nowMs.val < row.expiresAtMs.val := fun hahead => hdead ⟨hactive, hahead⟩
        exact .inr (by omega)
      · exact .inl hactive
    rw [refuseIf, refuseIf, if_pos (hrefused row hlive), if_pos (hrefused row' hdead')]
    exact .error trivial

theorem RowsAlike.release (h : RowsAlike c hidden db.reservations rows) (tenantId : String)
    (hid : id ∉ hidden) :
    (release tenantId id db).1 = (release tenantId id { db with reservations := rows }).1 ∧
      Alike c hidden (release tenantId id db).2
        (release tenantId id { db with reservations := rows }).2 := by
  refine h.close (fun _ _ => error_congr) ?_
  refine (h.findReservation hid).bind fun row row' hrow => ?_
  obtain ⟨-, -, hseen⟩ := hrow
  have hreleased := h.released hid
  have hboth : Agree Eq (fun done done' : Outcome Unit => done.1 = done'.1 ∧
        Alike c hidden done.2 done'.2)
      (do
        rejectAmountOverflow db tenantId (some id)
        pure (.ok (), updateReservation db id fun r => { r with status := .released }))
      (do
        rejectAmountOverflow { db with reservations := rows } tenantId (some id)
        pure (.ok (), updateReservation { db with reservations := rows } id
          fun r => { r with status := .released })) := by
    refine Agree.bind_same (fun _ => rfl) fun _ _ => ?_
    exact .ok ⟨rfl, _, rfl, hreleased⟩
  -- a due row is active in one table and expired in the other at most
  have hfinished : ∀ status, status = .released ∨ status = .settled →
      (row.status = status ↔ row'.status = status) := by
    intro status hfinal
    rw [← ReservationRow.status_seen c row hfinal, hseen, ReservationRow.status_seen c row' hfinal]
  have hreleased' := hfinished .released (.inl rfl)
  have hsettled' := hfinished .settled (.inr rfl)
  cases hrow : row.status with
  | released =>
    rw [hreleased'.mp hrow]
    exact .ok ⟨rfl, rows, rfl, h⟩
  | settled =>
    rw [hsettled'.mp hrow]
    exact .error rfl
  | active | expired =>
    cases hrow' : row'.status with
    | released => rw [hreleased'.mpr hrow'] at hrow; cases hrow
    | settled => rw [hsettled'.mpr hrow'] at hrow; cases hrow
    | active | expired => exact hboth

end Simulation

section Runs

variable {zones : Zones} {c : I64} {hidden : List String} {db db' : Db}

/-- Every reading of the clock that the call takes is at the instant or later. -/
def Call.notBefore (c : I64) : Call → Prop
  | .configure _ _ _ nowMs => c.val ≤ nowMs.val
  | .configureTenant _ _ _ _ nowMs => c.val ≤ nowMs.val
  | .retainTenants _ => True
  | .reserve a => c.val ≤ a.clock.nowMs.val
  | .checkAdmission a => c.val ≤ a.clock.nowMs.val
  | .settle s => c.val ≤ s.nowMs.val
  | .replaySettlement s => c.val ≤ s.nowMs.val
  | .extend _ _ _ _ clock => c.val ≤ clock.nowMs.val
  | .release _ _ => True
  | .sweepExpired nowMs => c.val ≤ nowMs.val

/-- The call is about the reservation with the id, or draws the id for a new one. -/
def Call.mentions (id : String) : Call → Prop
  | .reserve a => a.id = id
  | .settle s => s.reservationId = id
  | .replaySettlement s => s.reservationId = id
  | .extend _ _ reservationId _ _ => reservationId = id
  | .release _ reservationId => reservationId = id
  | _ => False

/-- A call answers the same in both files. The number of rows that a sweep marks and the reason
for a refused `extend` are left open. -/
def SameAnswer (zones : Zones) (db db' : Db) : Call → Prop
  | .sweepExpired _ => True
  | .extend ledger tenantId reservationId additionalTtlMs clock =>
    (extend ledger tenantId reservationId additionalTtlMs clock db).1 = .ok () ↔
      (extend ledger tenantId reservationId additionalTtlMs clock db').1 = .ok ()
  | call => answerOf zones call db = answerOf zones call db'

theorem Alike.exec (h : Alike c hidden db db') (hids : (db.reservations.map ReservationRow.id).Nodup)
    (hids' : (db'.reservations.map ReservationRow.id).Nodup) {call : Call}
    (hreadings : call.notBefore c) (hhidden : ∀ id ∈ hidden, ¬call.mentions id) :
    SameAnswer zones db db' call ∧ Alike c hidden (exec zones call db) (exec zones call db') := by
  obtain ⟨rows, rfl, hrows⟩ := h
  have hfree : ∀ id, call.mentions id → id ∉ hidden := fun id hid hmem => hhidden id hmem hid
  cases call with
  | configure scope limitMinor billingTimezone nowMs =>
    obtain ⟨hanswer, hdb⟩ := hrows.configure hreadings scope limitMinor billingTimezone
    exact ⟨congrArg Answer.unit hanswer, hdb⟩
  | configureTenant tenantId limitMinor billingTimezone gate nowMs =>
    obtain ⟨hanswer, hdb⟩ := hrows.configureTenant hreadings limitMinor billingTimezone gate
    exact ⟨congrArg Answer.unit hanswer, hdb⟩
  | retainTenants keep => exact ⟨rfl, rows, rfl, hrows⟩
  | reserve a =>
    obtain ⟨hanswer, hdb⟩ := hrows.admitReservation zones hreadings true a.id
      fun _ => hfree a.id rfl
    refine ⟨?_, hdb⟩
    simp only [SameAnswer, answerOf, reserve, hanswer]
  | checkAdmission a =>
    obtain ⟨hanswer, hdb⟩ := hrows.admitReservation zones hreadings false "" (by simp)
    refine ⟨?_, hdb⟩
    simp only [SameAnswer, answerOf, checkAdmission, hanswer]
  | settle s | replaySettlement s =>
    obtain ⟨hanswer, hdb⟩ := hrows.settle hreadings (hfree s.reservationId rfl)
    exact ⟨congrArg Answer.receipt hanswer, hdb⟩
  | extend ledger tenantId reservationId additionalTtlMs clock =>
    exact hrows.extend hids hids' ledger additionalTtlMs hreadings (hfree reservationId rfl)
  | release tenantId reservationId =>
    obtain ⟨hanswer, hdb⟩ := hrows.release tenantId (hfree reservationId rfl)
    exact ⟨congrArg Answer.unit hanswer, hdb⟩
  | sweepExpired nowMs => exact ⟨trivial, _, rfl, hrows.sweep _⟩

/-- What later calls and reads observe of two ledger files from the instant on. -/
structure NoTrace (zones : Zones) (c : I64) (hidden : List String) (db db' : Db) : Prop where
  balances : ∀ scope nowMs, c.val ≤ nowMs.val →
    balance zones scope nowMs db = balance zones scope nowMs db'
  tenantBalances : ∀ tenantId nowMs, c.val ≤ nowMs.val →
    tenantBalance zones tenantId nowMs db = tenantBalance zones tenantId nowMs db'
  readviews : ∀ tenantId nowMs, c.val ≤ nowMs.val →
    tenantReadview zones tenantId nowMs db = tenantReadview zones tenantId nowMs db'
  answers : ∀ call : Call, call.notBefore c → (∀ id ∈ hidden, ¬call.mentions id) →
    SameAnswer zones db db' call
  charges : ∀ tenantId id, settledAmount tenantId id db = settledAmount tenantId id db'
  totals : db.budgetPeriods = db'.budgetPeriods ∧ db.tenantPeriods = db'.tenantPeriods ∧
    db.budgetOverageEvents = db'.budgetOverageEvents ∧
    db.budgetAmountOverflows = db'.budgetAmountOverflows

theorem Gone.settledAmount (h : Gone c hidden db.reservations) {tenantId id : String}
    (hid : id ∈ hidden) : settledAmount tenantId id db = none := by
  unfold Ledger.settledAmount
  cases hfound : Table.lookup ReservationRow.id id db.reservations with
  | none => rfl
  | some row =>
    have hkey := Table.lookup_key hfound
    have hunsettled : row.status ≠ .settled := by
      obtain hexpired | ⟨hactive, -⟩ := h row (Table.lookup_mem hfound) (hkey ▸ hid)
      · simp [hexpired]
      · simp [hactive]
    simp [hunsettled]

theorem RowsAlike.settledAmount {rows : List ReservationRow}
    (h : RowsAlike c hidden db.reservations rows) (tenantId id : String) :
    settledAmount tenantId id db = settledAmount tenantId id { db with reservations := rows } := by
  by_cases hid : id ∈ hidden
  · have hgone : Gone c hidden ({ db with reservations := rows } : Db).reservations := h.gone'
    rw [h.gone.settledAmount hid, hgone.settledAmount hid]
  · have hamount : ∀ rows : List ReservationRow,
        ((Table.lookup ReservationRow.id id rows).filter fun row =>
          decide (row.scope.tenantId = tenantId ∧ row.status = .settled)).map
            ReservationRow.actualCostMinor =
        (((Table.lookup ReservationRow.id id rows).map (ReservationRow.seen c)).filter fun row =>
          decide (row.scope.tenantId = tenantId ∧ row.status = .settled)).map
            ReservationRow.actualCostMinor := by
      intro rows
      cases Table.lookup ReservationRow.id id rows with
      | none => rfl
      | some row =>
        have hstatus : (row.seen c).status = .settled ↔ row.status = .settled :=
          ReservationRow.status_seen c row (.inr rfl)
        have hscope : (row.seen c).scope = row.scope := by rw [ReservationRow.seen_eq]
        have hcost : (row.seen c).actualCostMinor = row.actualCostMinor := by
          rw [ReservationRow.seen_eq]
        simp only [Option.map_some, Option.filter_some, hstatus, hscope]
        by_cases hsettled : row.scope.tenantId = tenantId ∧ row.status = .settled
        · simp [hcost, hsettled]
        · simp [hsettled]
    unfold Ledger.settledAmount
    rw [hamount, h.lookup hid, ← hamount]

theorem Alike.noTrace (h : Alike c hidden db db')
    (hids : (db.reservations.map ReservationRow.id).Nodup)
    (hids' : (db'.reservations.map ReservationRow.id).Nodup) : NoTrace zones c hidden db db' := by
  constructor
  · obtain ⟨rows, rfl, hrows⟩ := h
    intro scope nowMs hle
    unfold balance
    simp only [hrows.activeReservedFor hle]
    rfl
  · obtain ⟨rows, rfl, hrows⟩ := h
    intro tenantId nowMs hle
    unfold tenantBalance
    simp only [hrows.tenantActiveReservedFor hle]
    rfl
  · obtain ⟨rows, rfl, hrows⟩ := h
    intro tenantId nowMs hle
    unfold tenantReadview
    simp only [hrows.tenantActiveReservedFor hle]
    rfl
  · intro call hreadings hhidden
    exact (h.exec hids hids' hreadings hhidden).1
  · obtain ⟨rows, rfl, hrows⟩ := h
    exact hrows.settledAmount
  · obtain ⟨rows, rfl, hrows⟩ := h
    exact ⟨rfl, rfl, rfl, rfl⟩

/-- What looks alike goes on looking alike, whatever calls come. -/
theorem Alike.run (h : Alike c hidden db db') (hconserved : Conserved db)
    (hconserved' : Conserved db') {later : List Event}
    (hlater : ∀ e ∈ later, e.call.notBefore c ∧ ∀ id ∈ hidden, ¬e.call.mentions id) :
    Alike c hidden (run zones later db) (run zones later db') := by
  induction later generalizing db db' with
  | nil => exact h
  | cons e rest ih =>
    obtain ⟨hreadings, hhidden⟩ := hlater e List.mem_cons_self
    have hrest : ∀ e ∈ rest, e.call.notBefore c ∧ ∀ id ∈ hidden, ¬e.call.mentions id :=
      fun other hother => hlater other (List.mem_cons_of_mem _ hother)
    have hstep : Alike c hidden (e.apply zones db) (e.apply zones db') := by
      cases e with
      | crashesBeforeCommit call => exact h
      | returns call | crashesAfterCommit call =>
        exact (h.exec hconserved.ids hconserved'.ids hreadings hhidden).2
    exact ih hstep (hconserved.writes (e.writes zones db)) (hconserved'.writes (e.writes zones db'))
      hrest

end Runs

section Failures

variable {zones : Zones} {c : I64} {db db' : Db}

/-- The failures that are to leave no trace, and every `check_admission`. -/
def Fails (zones : Zones) (db : Db) : Call → Prop
  | .configure scope limitMinor billingTimezone nowMs =>
    ∃ e, (configure scope limitMinor billingTimezone nowMs db).1 = .error e
  | .configureTenant tenantId limitMinor billingTimezone gate nowMs =>
    ∃ e, (configureTenant tenantId limitMinor billingTimezone gate nowMs db).1 = .error e
  | .reserve a => ∃ e, (reserve zones a.ledger a.scope a.estimatedCost a.id a.clock db).1 = .error e
  | .checkAdmission _ => True
  | .settle s => ∃ e,
    (settle s.tenantId s.reservationId s.actualCostMinor s.nowMs s.eventId db).1 = .error e ∧
      e.uncharged ∧ ∀ id cost, e ≠ .amountOverflow id cost
  | .extend ledger tenantId reservationId additionalTtlMs clock =>
    ∃ e, (extend ledger tenantId reservationId additionalTtlMs clock db).1 = .error e
  | .release tenantId reservationId => ∃ e, (release tenantId reservationId db).1 = .error e
  | _ => False

/-- Every reading of the clock that the call takes is at the instant or before. -/
def Call.notAfter (c : I64) : Call → Prop
  | .configure _ _ _ nowMs => nowMs.val ≤ c.val
  | .configureTenant _ _ _ _ nowMs => nowMs.val ≤ c.val
  | .reserve a => a.clock.nowMs.val ≤ c.val ∧ a.clock.afterCommitMs.val ≤ c.val
  | .checkAdmission a => a.clock.nowMs.val ≤ c.val
  | .settle s => s.nowMs.val ≤ c.val
  | .replaySettlement s => s.nowMs.val ≤ c.val
  | .extend _ _ _ _ clock => clock.nowMs.val ≤ c.val ∧ clock.afterCommitMs.val ≤ c.val
  | .sweepExpired nowMs => nowMs.val ≤ c.val
  | _ => True

/-- The id a `reserve` has stored a row under. -/
def storedId (zones : Zones) (db : Db) : Call → List String
  | .reserve a =>
    if (Table.lookup ReservationRow.id a.id db.reservations).isNone ∧
        (Table.lookup ReservationRow.id a.id (exec zones (.reserve a) db).reservations).isSome then
      [a.id]
    else []
  | _ => []

/-- An `extend` has written a deadline over one that is still ahead at the instant. -/
def Curtails (zones : Zones) (c : I64) (db : Db) (call : Call) : Prop :=
  exec zones call db ≠ db ∧ ∃ ledger tenantId id additionalTtlMs clock row,
    call = .extend ledger tenantId id additionalTtlMs clock ∧
      Table.lookup ReservationRow.id id db.reservations = some row ∧ c.val < row.expiresAtMs.val

theorem RowsAlike.refl (rows : List ReservationRow) : RowsAlike c [] rows rows :=
  ⟨rfl, by simp [Gone], by simp [Gone]⟩

theorem Alike.refl (db : Db) : Alike c [] db db := ⟨db.reservations, rfl, .refl _⟩

/-- A sweep by an earlier reading shows to nobody. -/
theorem view_swept {rows : List ReservationRow} {hidden : List String} {due : ReservationRow → Bool}
    (hdue : ∀ row, due row = true → row.expiresAtMs.val ≤ c.val) :
    view c hidden (rows.map fun row => row.expireIf (due row)) = view c hidden rows := by
  rw [view_sweep]
  conv_rhs => rw [← List.map_id (view c hidden rows)]
  refine List.map_congr_left fun row _ => ?_
  by_cases hlive : row.live c
  · have hahead : due row = false := by
      by_contra htrue
      rw [Bool.not_eq_false] at htrue
      have := hdue row htrue
      have := hlive.2
      omega
    rw [if_pos hlive, hahead]
    have hsame : row.expireIf false = row := by simp [ReservationRow.expireIf]
    rw [hsame, ReservationRow.seen_of_live hlive]
    rfl
  · rw [if_neg hlive]
    rfl

theorem swept_alike {a : Admit} {adm : Admission} (hle : a.clock.nowMs.val ≤ c.val) :
    Alike c [] (sweepExpiredScope db a.scope adm.period a.clock.nowMs) db := by
  refine ⟨db.reservations, rfl, ?_, by simp [Gone], by simp [Gone]⟩
  refine view_swept fun row hdue => ?_
  have := (of_decide_eq_true hdue).2.2
  omega

theorem configure_failed {scope : BudgetScope} {limitMinor nowMs : I64} {billingTimezone : String}
    {e : BudgetError} (h : (configure scope limitMinor billingTimezone nowMs db).1 = .error e) :
    (configure scope limitMinor billingTimezone nowMs db).2 = db := by
  refine close_refused ?_ h
  intro answer db' hbody
  simp only [bind_eq_ok, pure_eq_ok, Prod.mk.injEq] at hbody
  obtain ⟨_, -, _, -, _, -, _, -, _, -, _, -, hanswer, -⟩ := hbody
  exact ⟨(), hanswer.symm⟩

theorem configureTenant_failed {tenantId billingTimezone : String} {limitMinor nowMs : I64}
    {gate : SpendGate} {e : BudgetError}
    (h : (configureTenant tenantId limitMinor billingTimezone gate nowMs db).1 = .error e) :
    (configureTenant tenantId limitMinor billingTimezone gate nowMs db).2 = db := by
  refine close_refused ?_ h
  intro answer db' hbody
  simp only [bind_eq_ok, pure_eq_ok, Prod.mk.injEq] at hbody
  obtain ⟨_, -, _, -, _, -, _, -, _, -, hanswer, -⟩ := hbody
  exact ⟨(), hanswer.symm⟩

theorem release_failed {tenantId id : String} {e : BudgetError}
    (h : (release tenantId id db).1 = .error e) : (release tenantId id db).2 = db := by
  refine close_refused ?_ h
  intro answer db' hbody
  simp only [bind_eq_ok] at hbody
  obtain ⟨row, -, hbody⟩ := hbody
  split at hbody
  · cases hbody
    exact ⟨(), rfl⟩
  · cases hbody
  · simp only [bind_eq_ok, pure_eq_ok, Prod.mk.injEq] at hbody
    obtain ⟨_, -, hanswer, -⟩ := hbody
    exact ⟨(), hanswer.symm⟩

theorem settle_failed {s : Settlement} {e : BudgetError}
    (h : settle s.tenantId s.reservationId s.actualCostMinor s.nowMs s.eventId db = (.error e, db'))
    (huncharged : e.uncharged) (hfits : ∀ id cost, e ≠ .amountOverflow id cost) : db' = db := by
  obtain ⟨row, hcharges⟩ | ⟨row, -, -, hanswer, -⟩ | ⟨_, -, -, hsame⟩ := settle_cases h
  · obtain ⟨late, -, hreceipt⟩ := hcharges.answered
    rw [settleAnswer] at hreceipt
    split at hreceipt
    · cases hreceipt
      exact absurd rfl (huncharged _ _ _)
    · cases hreceipt
  · rw [Except.error.injEq] at hanswer
    exact absurd hanswer (hfits _ _)
  · exact hsame

/-- What an `extend` leaves: nothing, or the new deadline, checked once more after the commit. -/
theorem extend_cases {ledger : BudgetLedger} {tenantId id : String} {additionalTtlMs : I64}
    {clock : Readings} {answer : Except BudgetError Unit}
    (h : extend ledger tenantId id additionalTtlMs clock db = (answer, db')) :
    db' = db ∨ ∃ row expires, Table.lookup ReservationRow.id id db.reservations = some row ∧
      row.status = .active ∧
      answer = checkReservationDeadline id expires clock.afterCommitMs ∧
      db' = updateReservation db id fun r => { r with expiresAtMs := expires } := by
  obtain h | ⟨-, -, -, rfl⟩ := close_cases h
  · simp only [bind_eq_ok, refuseIf_eq_ok, exists_const, pure_eq_ok, Prod.mk.injEq, not_or,
      ne_eq, not_not] at h
    obtain ⟨-, row, hrow, ⟨hactive, -⟩, expires, -, _, -, _, -, -, _, -, hanswer, rfl⟩ := h
    exact .inr ⟨row, expires, (findReservation_eq_ok.mp hrow).1, hactive, hanswer.symm, rfl⟩
  · exact .inl rfl

/-- Moving a deadline that is over to another one that is over shows to nobody. -/
theorem lapsed_alike {id : String} {row : ReservationRow} {expires : I64}
    (hids : (db.reservations.map ReservationRow.id).Nodup)
    (hfound : Table.lookup ReservationRow.id id db.reservations = some row)
    (hover : row.expiresAtMs.val ≤ c.val) (hlapsed : expires.val ≤ c.val) :
    Alike c [] (updateReservation db id fun r => { r with expiresAtMs := expires }) db := by
  refine ⟨db.reservations, rfl, ?_, by simp [Gone], by simp [Gone]⟩
  have hview : view c [] (Table.update ReservationRow.id id
        (fun r => { r with expiresAtMs := expires }) db.reservations) =
      Table.update ReservationRow.id id (fun r => r) (view c [] db.reservations) := by
    refine view_update (by simp) (fun _ => rfl) ?_
    intro other hother hkey
    have hsame := Table.lookup_of_mem hids hother
    rw [hkey, hfound, Option.some.injEq] at hsame
    subst hsame
    have hdead : ¬row.live c := fun hlive => by
      have := hlive.2
      omega
    have hdead' : ¬({ row with expiresAtMs := expires } : ReservationRow).live c := fun hlive => by
      have := hlive.2
      simp only at this
      omega
    rw [ReservationRow.seen_of_not_live hdead, ReservationRow.seen_of_not_live hdead']
  rw [updateReservation, hview]
  simp [Table.update]

theorem extend_failed {ledger : BudgetLedger} {tenantId id : String} {additionalTtlMs : I64}
    {clock : Readings} {e : BudgetError}
    (hids : (db.reservations.map ReservationRow.id).Nodup)
    (h : extend ledger tenantId id additionalTtlMs clock db = (.error e, db'))
    (hle : clock.afterCommitMs.val ≤ c.val)
    (hkeeps : ¬Curtails zones c db (.extend ledger tenantId id additionalTtlMs clock)) :
    Alike c [] db' db := by
  obtain rfl | ⟨row, expires, hfound, -, hanswer, hupdate⟩ := extend_cases h
  · exact .refl _
  · by_cases hwrote : db' = db
    · rw [hwrote]
      exact .refl db
    · have hover : row.expiresAtMs.val ≤ c.val := by
        by_contra hahead
        refine hkeeps ⟨?_, _, _, _, _, _, row, rfl, hfound, by omega⟩
        rwa [exec, h]
      have hlapsed : expires.val ≤ clock.afterCommitMs.val := by
        rw [eq_comm, checkReservationDeadline, refuseIf_eq_error] at hanswer
        exact hanswer.1
      rw [hupdate]
      exact lapsed_alike hids hfound hover (by omega)

/-- A stored row that is over shows to nobody who does not know its id. -/
theorem stored_alike {a : Admit} {adm : Admission} {estimate expires : I64}
    (hreserves : Reserves zones db a adm estimate expires) (hle : a.clock.nowMs.val ≤ c.val)
    (hlapsed : expires.val ≤ c.val) :
    Alike c [a.id]
      { db with reservations :=
          (sweepExpiredScope db a.scope adm.period a.clock.nowMs).reservations ++
            [a.row adm estimate expires] } db := by
  have hfree : ∀ row ∈ db.reservations, row.id ≠ a.id := Table.lookup_eq_none.mp hreserves.fresh
  refine ⟨db.reservations, rfl, ?_, ?_, ?_⟩
  · have hswept : view c [a.id]
        (sweepExpiredScope db a.scope adm.period a.clock.nowMs).reservations =
        view c [a.id] db.reservations := by
      refine view_swept fun row hdue => ?_
      have := (of_decide_eq_true hdue).2.2
      omega
    have hhidden : view c [a.id] [a.row adm estimate expires] = [] := by simp [view, Admit.row]
    have happend : ∀ xs ys : List ReservationRow,
        view c [a.id] (xs ++ ys) = view c [a.id] xs ++ view c [a.id] ys := by
      intro xs ys
      simp [view]
    rw [happend, hhidden, List.append_nil, hswept]
  · intro row hrow hid
    obtain hold | hnew := List.mem_append.mp hrow
    · obtain ⟨old, hmem, rfl⟩ := List.mem_map.mp hold
      exact absurd (List.mem_singleton.mp hid) (hfree old hmem)
    · rw [List.mem_singleton.mp hnew]
      exact .inr ⟨rfl, hlapsed⟩
  · intro row hrow hid
    exact absurd (List.mem_singleton.mp hid) (hfree row hrow)

theorem storedId_eq_nil {call : Call}
    (h : ∀ a, call = .reserve a →
      ((Table.lookup ReservationRow.id a.id (exec zones call db).reservations).isSome →
        (Table.lookup ReservationRow.id a.id db.reservations).isSome)) :
    storedId zones db call = [] := by
  cases call with
  | reserve a =>
    refine if_neg ?_
    rintro ⟨hnone, hsome⟩
    have := h a rfl hsome
    rw [Option.isNone_iff_eq_none] at hnone
    simp [hnone] at this
  | _ => rfl

theorem reserve_failed {a : Admit} {e : BudgetError}
    (h : (reserve zones a.ledger a.scope a.estimatedCost a.id a.clock db).1 = .error e)
    (hreadings : (Call.reserve a).notAfter c) :
    Alike c (storedId zones db (.reserve a)) (exec zones (.reserve a) db) db := by
  have hexec : ∀ answer db', admitReservation zones a.ledger a.scope a.estimatedCost true a.id
      a.clock db = (answer, db') → exec zones (.reserve a) db = db' := by
    intro answer db' hadmit
    simp only [exec, reserve, hadmit]
  cases hadmit : admitReservation zones a.ledger a.scope a.estimatedCost true a.id a.clock db with
  | mk answer db' =>
    have hafter := hexec answer db' hadmit
    obtain rfl | ⟨adm, -, rfl⟩ | ⟨-, adm, estimate, expires, hreserves, hanswer, rfl⟩ :=
      admit_cases hadmit
    · rw [storedId_eq_nil, hafter]
      · exact .refl _
      · rintro _ ⟨⟩ hsome
        rwa [hafter] at hsome
    · rw [storedId_eq_nil, hafter]
      · exact swept_alike hreadings.1
      · rintro _ ⟨⟩ hsome
        rw [hafter, sweepExpiredScope, lookup_sweepWhere] at hsome
        simpa using hsome
    · have hstored : storedId zones db (.reserve a) = [a.id] := by
        refine if_pos ⟨by rw [hreserves.fresh]; rfl, ?_⟩
        rw [hafter, Table.lookup, List.find?_isSome]
        exact ⟨a.row adm estimate expires, List.mem_append_right _ List.mem_cons_self,
          by simp [Admit.row]⟩
      have hlapsed : expires.val ≤ a.clock.afterCommitMs.val := by
        simp only [reserve, hadmit, hanswer, checkReservationDeadline, refuseIf] at h
        by_contra hahead
        rw [if_neg hahead] at h
        cases h
      have hle := hreadings.2
      rw [hstored, hafter]
      exact stored_alike hreserves hreadings.1 (by omega)

theorem checkAdmission_alike {a : Admit} (hle : a.clock.nowMs.val ≤ c.val) :
    Alike c [] (exec zones (.checkAdmission a) db) db := by
  cases hadmit : admitReservation zones a.ledger a.scope a.estimatedCost false "" a.clock db with
  | mk answer db' =>
    have hafter : exec zones (.checkAdmission a) db = db' := by
      simp only [exec, checkAdmission, hadmit]
    rw [hafter]
    obtain rfl | ⟨adm, -, rfl⟩ | ⟨hpersist, -⟩ :=
      admit_cases (a := { a with id := "" }) hadmit
    · exact .refl _
    · exact swept_alike hle
    · cases hpersist

/-- A failed call leaves a file that looks like the one it found. -/
theorem Fails.alike {call : Call} (hfails : Fails zones db call)
    (hids : (db.reservations.map ReservationRow.id).Nodup) (hreadings : call.notAfter c)
    (hkeeps : ¬Curtails zones c db call) :
    Alike c (storedId zones db call) (exec zones call db) db := by
  cases call with
  | configure scope limitMinor billingTimezone nowMs =>
    obtain ⟨e, he⟩ := hfails
    have hsame := configure_failed he
    rw [exec, hsame]
    exact .refl db
  | configureTenant tenantId limitMinor billingTimezone gate nowMs =>
    obtain ⟨e, he⟩ := hfails
    have hsame := configureTenant_failed he
    rw [exec, hsame]
    exact .refl db
  | reserve a =>
    obtain ⟨e, he⟩ := hfails
    exact reserve_failed he hreadings
  | checkAdmission a => exact checkAdmission_alike hreadings
  | settle s =>
    obtain ⟨e, he, huncharged, hfits⟩ := hfails
    have hsame : exec zones (.settle s) db = db := settle_failed (Prod.ext he rfl) huncharged hfits
    rw [hsame]
    exact .refl db
  | extend ledger tenantId id additionalTtlMs clock =>
    obtain ⟨e, he⟩ := hfails
    exact extend_failed hids (Prod.ext he rfl) hreadings.2 hkeeps
  | release tenantId id =>
    obtain ⟨e, he⟩ := hfails
    have hsame := release_failed he
    rw [exec, hsame]
    exact .refl db
  | retainTenants | replaySettlement | sweepExpired => exact hfails.elim

end Failures

section Result

/-- After a failed call every later sequence of calls leads to observations that would be the
same without it. -/
theorem failed_call_leaves_no_trace (zones : Zones) (history later : List Event) (call : Call)
    (c : I64) (hfails : Fails zones (run zones history Db.empty) call)
    (hreadings : call.notAfter c)
    (hkeeps : ¬Curtails zones c (run zones history Db.empty) call)
    (hlater : ∀ e ∈ later, e.call.notBefore c ∧
      ∀ id ∈ storedId zones (run zones history Db.empty) call, ¬e.call.mentions id) :
    NoTrace zones c (storedId zones (run zones history Db.empty) call)
      (run zones later (exec zones call (run zones history Db.empty)))
      (run zones later (run zones history Db.empty)) := by
  have hconserved := conserved_run zones history
  have hexec := hconserved.writes (exec_writes zones call _)
  have hconserved_later : ∀ db, Conserved db → Conserved (run zones later db) := fun db h =>
    run_invariant Conserved (fun db call h => h.writes (exec_writes zones call db)) h later
  have halike := hfails.alike hconserved.ids hreadings hkeeps
  exact (halike.run hexec hconserved hlater).noTrace (hconserved_later _ hexec).ids
    (hconserved_later _ hconserved).ids

/-- A tenant with a limit of 100 and a reservation of 60 until 60. -/
def heldHistory : List Event :=
  [.returns (.configureTenant "acme" (.lit 100) "UTC" .all (.lit 0)),
    .returns (.reserve
      { ledger := ledgerOfFifty, scope := ⟨"acme", "key", "provider", "model"⟩,
        estimatedCost := .known (.lit 60), id := "r1", clock := ⟨.lit 10, .lit 10, .lit 10⟩ })]

/-- A second reservation of 60, which does not fit. -/
def reserveTooMuch : Admit :=
  { ledger := ledgerOfFifty, scope := ⟨"acme", "key", "provider", "model"⟩,
    estimatedCost := .known (.lit 60), id := "r2", clock := ⟨.lit 20, .lit 20, .lit 20⟩ }

theorem failed_call_leaves_no_trace_rejected :
    NoTrace twoZones (.lit 20)
      (storedId twoZones (run twoZones heldHistory Db.empty) (.reserve reserveTooMuch))
      (run twoZones [] (exec twoZones (.reserve reserveTooMuch)
        (run twoZones heldHistory Db.empty)))
      (run twoZones [] (run twoZones heldHistory Db.empty)) := by
  refine failed_call_leaves_no_trace twoZones heldHistory [] (.reserve reserveTooMuch) (.lit 20)
    ⟨.exceededBy "acme" (.lit 100) (.lit 60) (.lit 60), by decide +kernel⟩ ⟨by decide, by decide⟩ ?_ (by simp)
  rintro ⟨-, _, _, _, _, _, _, hextend, -⟩
  cases hextend

/-- An `extend` by 1 at 20 whose commit takes until 21. -/
def extendByOne : Call :=
  .extend ledgerOfFifty "acme" "r1" (.lit 1) ⟨.lit 20, .lit 20, .lit 21⟩

/-- A `reserve` of 10 at 20 whose commit takes until its deadline at 70. -/
def reserveSlowly : Admit :=
  { ledger := ledgerOfFifty, scope := ⟨"acme", "key", "provider", "model"⟩,
    estimatedCost := .known (.lit 10), id := "r2", clock := ⟨.lit 20, .lit 20, .lit 70⟩ }

/-- Two errors after the commit: an `extend` that ends the hold of 60 early, and a `reserve`
whose row can be settled by the id that its error names. -/
theorem failed_call_leaves_traces :
    (Fails twoZones (run twoZones heldHistory Db.empty) extendByOne ∧
      extendByOne.notAfter (.lit 21) ∧
      tenantBalance twoZones "acme" (.lit 21)
        (exec twoZones extendByOne (run twoZones heldHistory Db.empty)) = .ok (.lit 100) ∧
      tenantBalance twoZones "acme" (.lit 21) (run twoZones heldHistory Db.empty) =
        .ok (.lit 40)) ∧
    (Fails twoZones (run twoZones heldHistory Db.empty) (.reserve reserveSlowly) ∧
      (Call.reserve reserveSlowly).notAfter (.lit 70) ∧
      (settle "acme" "r2" (.lit 5) (.lit 80) "e"
        (exec twoZones (.reserve reserveSlowly) (run twoZones heldHistory Db.empty))).1 =
        .ok ⟨.lit 10, .lit 5, .lit 5, true, .lit 0⟩ ∧
      (settle "acme" "r2" (.lit 5) (.lit 80) "e" (run twoZones heldHistory Db.empty)).1 =
        .error (.reservationNotFound "r2")) := by
  refine ⟨⟨⟨.reservationNotActive "r1" "expired", by decide +kernel⟩, ?_, by decide +kernel,
    by decide +kernel⟩, ⟨⟨.reservationNotActive "r2" "expired", by decide +kernel⟩, ?_,
    by decide +kernel, by decide +kernel⟩⟩
  · exact ⟨by decide, by decide⟩
  · exact ⟨by decide, by decide⟩

end Result

end Ledger
