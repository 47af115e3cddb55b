import IDoris.Ledger.Zone
import IDoris.Ledger.Overspend

/-!
# The amounts in a ledger file

What holds in every ledger file whatever its calls have read off their clocks, and
when the sum over the live reservations of a bucket can be taken.
-/
namespace Ledger

open Bounded Transaction

/-- The invariant of the ledger file that no clock has a say in. -/
structure Billed (db : Db) : Prop where
  conserved : Conserved db
  keys : ConfigKeys db
  reserved : ∀ row ∈ db.reservations, 0 ≤ row.reservedMinor.val
  periods : ∀ row ∈ db.reservations, row.period = row.tenantPeriod
  scopeLimits : ∀ cfg ∈ db.budgetConfig, 0 ≤ cfg.limitMinor.val
  tenantLimits : ∀ cfg ∈ db.tenantConfig, 0 ≤ cfg.limitMinor.val
  one : ∀ tenantId zone zone', HasZone db tenantId zone → HasZone db tenantId zone' → zone = zone'

/-- The sum of the live reservations of a bucket, over the integers. -/
def Bucket.held (b : Bucket) (db : Db) (nowMs : I64) : Int :=
  Table.tally (b.heldBy nowMs) db.reservations

/-- The same sum, as the ledger's statement takes it. -/
def Bucket.reserved : Bucket → Db → I64 → Except BudgetError I64
  | .ofScope scope period, db, nowMs => activeReservedFor db scope period nowMs
  | .ofTenant tenantId period, db, nowMs => tenantActiveReservedFor db tenantId period nowMs

variable {zones : Zones} {db db' : Db} {call : Call} {b : Bucket} {nowMs : I64}

theorem billed_empty : Billed Db.empty where
  conserved := conserved_empty
  keys := ⟨by simp [Db.empty], by simp [Db.empty]⟩
  reserved := by simp [Db.empty]
  periods := by simp [Db.empty]
  scopeLimits := by simp [Db.empty]
  tenantLimits := by simp [Db.empty]
  one := by simp [HasZone, Db.empty]

/-- An admission finds a configuration, so its tenant has a zone. -/
theorem Opens.hasZone {scope : BudgetScope} {adm : Admission}
    (h : Opens zones db scope nowMs adm) : ∃ zone, HasZone db scope.tenantId zone := by
  have hperiod := h.period
  cases hcfg : loadConfig db scope with
  | some cfg =>
    have hscope := Table.lookup_key hcfg
    exact ⟨_, .inr ⟨cfg, Table.lookup_mem hcfg, by rw [hscope], rfl⟩⟩
  | none =>
    cases hten : loadTenantConfig db scope.tenantId with
    | some ten => exact ⟨_, .inl ⟨ten, Table.lookup_mem hten, Table.lookup_key hten, rfl⟩⟩
    | none =>
      rw [hcfg, hten] at hperiod
      cases hperiod

/-- Both dimensions of a reservation are billed in one period. -/
theorem Reserves.periods {a : Admit} {adm : Admission} {estimate expires : I64}
    (h : Reserves zones db a adm estimate expires)
    (hone : ∀ z z', HasZone db a.scope.tenantId z → HasZone db a.scope.tenantId z' → z = z') :
    adm.period = adm.tenantPeriod := by
  obtain ⟨zone, hzone⟩ := h.opens.hasZone
  obtain ⟨hperiod, htenant⟩ := h.inZone hone hzone
  rw [hperiod] at htenant
  exact Except.ok.inj htenant

/-- Every call leaves each tenant with one zone. -/
theorem Writes.one (h : Writes zones db call db') (hkeys : ConfigKeys db)
    (hone : ∀ t z z', HasZone db t z → HasZone db t z' → z = z') :
    ∀ t z z', HasZone db' t z → HasZone db' t z' → z = z' := by
  intro t z z' hz hz'
  cases h with
  | configured accepts =>
    exact (configured_configures hkeys (hone _) accepts (Int.le_refl _)).one hone hz hz'
  | tenantConfigured accepts =>
    exact (tenantConfigured_configures hkeys (hone _) accepts (Int.le_refl _)).one hone hz hz'
  | retained keep =>
    have hkept : ∀ zone, HasZone (retainTenants keep db).2 t zone → HasZone db t zone := by
      rintro zone (⟨cfg, hcfg, hrest⟩ | ⟨cfg, hcfg, hrest⟩)
      · exact .inl ⟨cfg, List.mem_of_mem_filter hcfg, hrest⟩
      · exact .inr ⟨cfg, List.mem_of_mem_filter hcfg, hrest⟩
    exact hone t z z' (hkept z hz) (hkept z' hz')
  | _ => exact hone t z z' hz hz'

theorem Billed.writes (h : Billed db) (hwrites : Writes zones db call db') : Billed db' where
  conserved := h.conserved.writes hwrites
  keys := h.keys.writes hwrites
  reserved := by
    intro row' hrow'
    rcases (hwrites.rows h.conserved.ids).origin hrow' with
      ⟨row, hrow, hstep⟩ | ⟨a, adm, estimate, expires, -, hreserves, rfl⟩
    · rw [hstep.reservedMinor]
      exact h.reserved row hrow
    · exact hreserves.priced
  periods := by
    intro row' hrow'
    rcases (hwrites.rows h.conserved.ids).origin hrow' with
      ⟨row, hrow, hstep⟩ | ⟨a, adm, estimate, expires, -, hreserves, rfl⟩
    · rw [hstep.period, hstep.tenantPeriod]
      exact h.periods row hrow
    · exact hreserves.periods (h.one _)
  scopeLimits := hwrites.scopeLimits h.scopeLimits
  tenantLimits := hwrites.tenantLimits h.tenantLimits
  one := hwrites.one h.keys h.one

theorem billed_run (zones : Zones) (events : List Event) : Billed (run zones events Db.empty) :=
  run_invariant Billed (fun db call h => h.writes (exec_writes zones call db)) billed_empty events

/-- A bucket's settled total is not negative. -/
theorem Billed.spent_nonneg (h : Billed db) (b : Bucket) : 0 ≤ (b.spent db).val := by
  rw [h.conserved.totals b]
  have hzero : Table.tally (fun _ => 0) db.reservations ≤
      Table.tally b.weight db.reservations := by
    refine Table.tally_le fun row hrow => ?_
    unfold Bucket.weight
    split
    · rename_i hsettled
      obtain ⟨cost, hcost, hle⟩ := h.conserved.costs row hrow hsettled.1
      simpa [ReservationRow.cost, hcost] using hle
    · omega
  simpa [Table.tally] using hzero

theorem Billed.held_nonneg (h : Billed db) (b : Bucket) (nowMs : I64) : 0 ≤ b.held db nowMs := by
  have hzero : Table.tally (fun _ => 0) db.reservations ≤ b.held db nowMs :=
    Table.tally_le fun row hrow => Bucket.heldBy_nonneg (h.reserved row hrow)
  simpa [Table.tally] using hzero

theorem Bucket.reserved_eq {total : I64} (h : b.reserved db nowMs = .ok total) :
    total.val = b.held db nowMs := by
  cases b with
  | ofScope scope period => exact activeReservedFor_eq h
  | ofTenant tenantId period => exact tenantActiveReservedFor_eq h

/-- The sum over a column, of the rows that a bucket holds. -/
theorem Bucket.reserved_sum (b : Bucket) (db : Db) (nowMs : I64) :
    b.reserved db nowMs = sumColumn
      ((db.reservations.filter fun row => b.has row && row.counts nowMs).map
        ReservationRow.reservedMinor) := by
  cases b <;> rfl

theorem Bucket.held_sum (b : Bucket) (db : Db) (nowMs : I64) :
    b.held db nowMs = (((db.reservations.filter fun row => b.has row && row.counts nowMs).map
      ReservationRow.reservedMinor).map I64.val).sum := by
  rw [List.map_map, Function.comp_def, Table.sum_filter_map]
  exact Table.tally_congr fun row _ => by simp [Bucket.heldBy]

/-- The sum over the live reservations of a bucket is taken exactly when it fits the column. -/
theorem Billed.reserved_iff (h : Billed db) (b : Bucket) (nowMs : I64) :
    (∃ total, b.reserved db nowMs = .ok total) ↔ b.held db nowMs < 2 ^ 63 := by
  constructor
  · rintro ⟨total, htotal⟩
    rw [← Bucket.reserved_eq htotal]
    exact total.upper
  · intro hfits
    rw [Bucket.held_sum] at hfits
    obtain ⟨total, htotal⟩ := I64.sum_of_fits (by
      intro x hx
      obtain ⟨row, hrow, rfl⟩ := List.mem_map.mp hx
      exact h.reserved row (List.mem_of_mem_filter hrow)) hfits
    exact ⟨total, by rw [Bucket.reserved_sum, sumColumn, htotal]⟩

/-- What a sweep at an instant marks no longer counts then. -/
theorem ReservationRow.counts_expireIf {row : ReservationRow} {due : Bool}
    (hdue : due = true → row.expiresAtMs.val ≤ nowMs.val) :
    (row.expireIf due).counts nowMs = row.counts nowMs := by
  have hiff : (row.expireIf due).counts nowMs = true ↔ row.counts nowMs = true := by
    rw [ReservationRow.counts_iff, ReservationRow.counts_iff, ReservationRow.expireIf_active]
    cases due with
    | false => simp
    | true =>
      have hle := hdue rfl
      simp only [ReservationRow.expireIf_expiresAtMs]
      constructor
      · rintro ⟨⟨-, hfalse⟩, -⟩
        cases hfalse
      · rintro ⟨-, hlt⟩
        omega
  exact Bool.eq_iff_iff.mpr hiff

/-- An admission's own sweep does not change the sums it reads. -/
theorem Bucket.reserved_swept (b : Bucket) (db : Db) (scope : BudgetScope) (period : String)
    (nowMs : I64) :
    b.reserved (sweepExpiredScope db scope period nowMs) nowMs = b.reserved db nowMs := by
  have hcounts : ∀ row : ReservationRow,
      (row.expireIf (decide (row.scope = scope ∧ row.period = period ∧
        row.expiresAtMs.val ≤ nowMs.val))).counts nowMs = row.counts nowMs :=
    fun row => ReservationRow.counts_expireIf fun hdue => (of_decide_eq_true hdue).2.2
  rw [Bucket.reserved_sum, Bucket.reserved_sum, sweepExpiredScope, sweepWhere, List.filter_map,
    List.map_map]
  simp only [Function.comp_def, Bucket.has_expireIf, hcounts,
    ReservationRow.expireIf_reservedMinor]

@[simp] theorem Bucket.spent_swept (b : Bucket) (db : Db) (scope : BudgetScope) (period : String)
    (nowMs : I64) : b.spent (sweepExpiredScope db scope period nowMs) = b.spent db := by
  cases b <;> rfl

end Ledger
