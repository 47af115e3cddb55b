import IDoris.Ledger.Writes

/-!
# The life of one reservation

What any call does to the rows that were there: each one stays, or takes one of
four steps. Only `reserve` adds a row.
-/
namespace Ledger

open Bounded

/-- The reading by which a call turns due rows expired. -/
def Call.sweeps : Call → I64 → Prop
  | .reserve a, nowMs => nowMs = a.clock.nowMs
  | .checkAdmission a, nowMs => nowMs = a.clock.nowMs
  | .sweepExpired reading, nowMs => nowMs = reading
  | _, _ => False

/-- The steps of a row under a call. -/
inductive RowStep (call : Call) (row : ReservationRow) : ReservationRow → Prop where
  | same : RowStep call row row
  | expired {nowMs : I64} (sweeps : call.sweeps nowMs) (active : row.status = .active)
      (due : row.expiresAtMs.val ≤ nowMs.val) : RowStep call row { row with status := .expired }
  | settled {s : Settlement} (isCall : call = .settle s ∨ call = .replaySettlement s)
      (id : row.id = s.reservationId) (tenant : row.scope.tenantId = s.tenantId)
      (unfinished : row.unfinished) :
      RowStep call row { row with status := .settled, actualCostMinor := some s.actualCostMinor }
  | extended {ledger : BudgetLedger} {tenantId reservationId : String} {additionalTtlMs : I64}
      {clock : Readings} {newExpires : I64}
      (isCall : call = .extend ledger tenantId reservationId additionalTtlMs clock)
      (active : row.status = .active) (unexpired : clock.nowMs.val < row.expiresAtMs.val)
      (renewed : newExpires.val = clock.nowMs.val + additionalTtlMs.val)
      (lifetime : newExpires.val ≤ row.createdAtMs.val + 4 * ledger.ttlMs.val) :
      RowStep call row { row with expiresAtMs := newExpires }
  | released (unfinished : row.unfinished) : RowStep call row { row with status := .released }

variable {zones : Zones} {db db' : Db} {call : Call} {row row' : ReservationRow}

theorem RowStep.id (h : RowStep call row row') : row'.id = row.id := by cases h <;> rfl

theorem RowStep.scope (h : RowStep call row row') : row'.scope = row.scope := by cases h <;> rfl

theorem RowStep.period (h : RowStep call row row') : row'.period = row.period := by cases h <;> rfl

theorem RowStep.tenantPeriod (h : RowStep call row row') :
    row'.tenantPeriod = row.tenantPeriod := by cases h <;> rfl

theorem RowStep.reservedMinor (h : RowStep call row row') :
    row'.reservedMinor = row.reservedMinor := by cases h <;> rfl

theorem RowStep.createdAtMs (h : RowStep call row row') :
    row'.createdAtMs = row.createdAtMs := by cases h <;> rfl

/-- A row that is live after a call was live before it. -/
theorem RowStep.active (h : RowStep call row row') (hactive : row'.status = .active) :
    row.status = .active := by
  cases h with
  | same => exact hactive
  | expired sweeps active due => exact active
  | settled isCall id tenant unfinished => cases hactive
  | extended isCall active unexpired renewed lifetime => exact active
  | released unfinished => cases hactive

theorem RowStep.expireIf {nowMs : I64} {due : Bool} (sweeps : call.sweeps nowMs)
    (hdue : due = true → row.expiresAtMs.val ≤ nowMs.val) :
    RowStep call row (row.expireIf due) := by
  by_cases hactive : row.status = .active
  · cases due with
    | false =>
      have hsame : row.expireIf false = row := by simp [ReservationRow.expireIf]
      rw [hsame]
      exact .same
    | true =>
      have hexpired : row.expireIf true = { row with status := .expired } := by
        simp [ReservationRow.expireIf, hactive]
      rw [hexpired]
      exact .expired sweeps hactive (hdue rfl)
  · rw [ReservationRow.expireIf_of_not_active hactive]
    exact .same

/-- How the reservations table after a call comes from the one before. -/
inductive RowsStep (zones : Zones) (db : Db) (call : Call) : List ReservationRow → Prop where
  | mapped (f : ReservationRow → ReservationRow)
      (each : ∀ row ∈ db.reservations, RowStep call row (f row)) :
      RowsStep zones db call (db.reservations.map f)
  | joined {a : Admit} {adm : Admission} {estimate expires : I64} (isCall : call = .reserve a)
      (reserves : Reserves zones db a adm estimate expires) :
      RowsStep zones db call
        ((sweepExpiredScope db a.scope adm.period a.clock.nowMs).reservations ++
          [a.row adm estimate expires])

theorem sweepExpiredScope_rows {scope : BudgetScope} {period : String} {nowMs : I64}
    (sweeps : call.sweeps nowMs) :
    RowsStep zones db call (sweepExpiredScope db scope period nowMs).reservations :=
  .mapped _ fun _ _ => .expireIf sweeps fun hdue => (of_decide_eq_true hdue).2.2

/-- Updating the row with one id is a step of every row. -/
theorem updateReservation_rows (hids : (db.reservations.map ReservationRow.id).Nodup)
    {id : String} {f : ReservationRow → ReservationRow}
    (hfound : Table.lookup ReservationRow.id id db.reservations = some row)
    (hstep : RowStep call row (f row)) :
    RowsStep zones db call (updateReservation db id f).reservations := by
  refine .mapped _ ?_
  intro r hr
  split
  · rename_i hid
    have hsame := Table.lookup_of_mem hids hr
    rw [hid, hfound, Option.some.injEq] at hsame
    rw [← hsame]
    exact hstep
  · exact .same

theorem Writes.rows (hids : (db.reservations.map ReservationRow.id).Nodup)
    (h : Writes zones db call db') : RowsStep zones db call db'.reservations := by
  have hsame : RowsStep zones db call db.reservations := by
    have hmapped : RowsStep zones db call (db.reservations.map id) := .mapped id fun _ _ => .same
    rwa [List.map_id] at hmapped
  cases h with
  | nothing => exact hsame
  | configured accepts => exact hsame
  | tenantConfigured accepts => exact hsame
  | retained keep => exact hsame
  | swept isCall opens =>
    apply sweepExpiredScope_rows
    rcases isCall with rfl | rfl <;> rfl
  | reserved reserves => exact .joined rfl reserves
  | charged isCall chargeable scopeSum tenantSum audit =>
    exact updateReservation_rows hids chargeable.found
      (.settled isCall (Table.lookup_key chargeable.found) chargeable.tenant chargeable.unfinished)
  | overflowed isCall chargeable first => exact hsame
  | extended found tenant active unexpired ttl renewed lifetime deadline =>
    exact updateReservation_rows hids found (.extended rfl active unexpired renewed lifetime)
  | released found tenant unfinished clear =>
    exact updateReservation_rows hids found (.released unfinished)
  | sweptAll nowMs => exact .mapped _ fun _ _ => .expireIf rfl of_decide_eq_true

/-- Every row after a call is the step of an old row or the row of a `reserve`. -/
theorem RowsStep.origin {rows : List ReservationRow} (h : RowsStep zones db call rows)
    (hrow : row' ∈ rows) :
    (∃ row ∈ db.reservations, RowStep call row row') ∨
    ∃ a adm estimate expires, call = .reserve a ∧ Reserves zones db a adm estimate expires ∧
      row' = a.row adm estimate expires := by
  cases h with
  | mapped f each =>
    obtain ⟨row, hmem, rfl⟩ := List.mem_map.mp hrow
    exact .inl ⟨row, hmem, each row hmem⟩
  | joined isCall reserves =>
    rcases List.mem_append.mp hrow with hrow | hrow
    · obtain ⟨row, hmem, rfl⟩ := List.mem_map.mp hrow
      refine .inl ⟨row, hmem, .expireIf ?_ fun hdue => (of_decide_eq_true hdue).2.2⟩
      rw [isCall]
      rfl
    · exact .inr ⟨_, _, _, _, isCall, reserves, List.mem_singleton.mp hrow⟩

end Ledger
