import IDoris.Ledger.Exact
import IDoris.Ledger.Reads

/-!
# Sums that fit their column

Every reservation was compared with the limits of its own time, so the live ones of a
tenant can add up to more than a 64-bit sum holds. They do not while each new one
leaves room for the tenant's others in the column.
-/
namespace Ledger

open Bounded Transition

/-- What a row still marked active is set aside for in a bucket, whatever the time. -/
def Bucket.markedBy (b : Bucket) (row : ReservationRow) : Int :=
  if b.has row = true ∧ row.status = .active then row.reservedMinor.val else 0

/-- The total of a bucket's rows still marked active. -/
def Bucket.marked (b : Bucket) (db : Db) : Int := Table.tally b.markedBy db.reservations

/-- The condition on a call: what `reserve` sets aside is over budget, or fits into a 64-bit sum
together with the tenant's rows of the period that are still marked active. -/
def LeavesRoom (zones : Zones) (db : Db) : Call → Prop
  | .reserve a => ∀ estimate adm, a.estimatedCost = .known estimate →
      Opens zones db a.scope a.clock.nowMs adm →
      OverBudget zones db a.scope a.clock.nowMs estimate.val ∨
        (Bucket.ofTenant a.scope.tenantId adm.tenantPeriod).marked db + estimate.val < 2 ^ 63
  | _ => True

/-- The condition on a step; a call that crashes before its commit sets nothing aside. -/
def EventLeavesRoom (zones : Zones) (db : Db) : Event → Prop
  | .returns call => LeavesRoom zones db call
  | .crashesBeforeCommit _ => True
  | .crashesAfterCommit call => LeavesRoom zones db call

/-- The amounts of a ledger file, and column sums with room for every tenant's reservations. -/
structure Roomy (db : Db) : Prop where
  billed : Billed db
  fits : ∀ tenantId period, (Bucket.ofTenant tenantId period).marked db < 2 ^ 63

variable {zones : Zones} {db db' : Db} {call : Call} {b : Bucket} {row row' : ReservationRow}
  {nowMs : I64}

theorem roomy_empty : Roomy Db.empty where
  billed := billed_empty
  fits := by simp [Bucket.marked, Db.empty]

theorem Bucket.markedBy_nonneg (h : 0 ≤ row.reservedMinor.val) : 0 ≤ b.markedBy row := by
  unfold Bucket.markedBy
  split <;> omega

theorem Bucket.markedBy_of_active (hhas : b.has row = true) (hactive : row.status = .active) :
    b.markedBy row = row.reservedMinor.val := if_pos ⟨hhas, hactive⟩

theorem Bucket.markedBy_of_not_has (h : ¬b.has row = true) : b.markedBy row = 0 :=
  if_neg fun hmarked => h hmarked.1

/-- A step of a row sets nothing more aside. -/
theorem RowStep.markedBy_le (h : RowStep call row row') (hreserved : 0 ≤ row.reservedMinor.val) :
    b.markedBy row' ≤ b.markedBy row := by
  by_cases hmarked : b.has row' = true ∧ row'.status = .active
  · rw [Bucket.markedBy_of_active hmarked.1 hmarked.2,
      Bucket.markedBy_of_active (h.has.symm.trans hmarked.1) (h.active hmarked.2), h.reservedMinor]
  · rw [Bucket.markedBy, if_neg hmarked]
    exact Bucket.markedBy_nonneg hreserved

/-- A bucket of a scope holds at most what its tenant's bucket of the period sets aside. -/
theorem Billed.held_le_marked (h : Billed db) (b : Bucket) (nowMs : I64) :
    ∃ period, b.held db nowMs ≤ (Bucket.ofTenant b.tenantId period).marked db := by
  have hrow : ∀ period, (∀ row, row.period = row.tenantPeriod → b.has row = true →
      (Bucket.ofTenant b.tenantId period).has row = true) →
      b.held db nowMs ≤ (Bucket.ofTenant b.tenantId period).marked db := by
    refine fun period htenant => Table.tally_le fun row hmem => ?_
    have hreserved := h.reserved row hmem
    by_cases hheld : b.has row = true ∧ row.counts nowMs = true
    · have hactive := (ReservationRow.counts_iff.mp hheld.2).1
      rw [Bucket.heldBy_of_counts hheld.1 hheld.2,
        Bucket.markedBy_of_active (htenant row (h.periods row hmem) hheld.1) hactive]
    · rw [Bucket.heldBy, if_neg hheld]
      exact Bucket.markedBy_nonneg hreserved
  cases b with
  | ofTenant tenantId period => exact ⟨period, hrow period fun row _ hhas => hhas⟩
  | ofScope scope period =>
    refine ⟨period, hrow period fun row hperiods hhas => ?_⟩
    obtain ⟨rfl, rfl⟩ := of_decide_eq_true hhas
    exact decide_eq_true ⟨rfl, hperiods.symm⟩

/-- Every sum over the live reservations of a bucket can be taken. -/
theorem Roomy.reserved_ok (h : Roomy db) (b : Bucket) (nowMs : I64) :
    ∃ total, b.reserved db nowMs = .ok total := by
  obtain ⟨period, hle⟩ := h.billed.held_le_marked b nowMs
  have hfits := h.fits b.tenantId period
  exact (h.billed.reserved_iff b nowMs).mpr (by omega)

theorem Roomy.sumsFit (h : Roomy db) (scope : BudgetScope) (nowMs : I64) :
    SumsFit zones db scope nowMs :=
  fun b _ _ => (h.billed.reserved_iff b nowMs).mp (h.reserved_ok b nowMs)

/-- A reservation that was made is not over budget. -/
theorem Roomy.not_overBudget {a : Admit} {adm : Admission} {estimate expires : I64} (h : Roomy db)
    (hreserves : Reserves zones db a adm estimate expires) :
    ¬OverBudget zones db a.scope a.clock.nowMs estimate.val := by
  intro hover
  obtain ⟨r, -, hscope | ⟨-, htenant⟩⟩ :=
    h.billed.rejects_of_overBudget (h.sumsFit a.scope _) hreserves.opens hover
  · rw [hreserves.scopeFits] at hscope
    cases hscope
  · rw [hreserves.tenantFits] at htenant
    cases htenant

/-- The total of the rows a call leaves, without the row of a new reservation. -/
theorem marked_mapped (call : Call) {rows : List ReservationRow} {f : ReservationRow → ReservationRow}
    (hreserved : ∀ row ∈ rows, 0 ≤ row.reservedMinor.val)
    (each : ∀ row ∈ rows, RowStep call row (f row)) :
    Table.tally b.markedBy (rows.map f) ≤ Table.tally b.markedBy rows := by
  rw [Table.tally_map]
  exact Table.tally_le fun row hrow => (each row hrow).markedBy_le (hreserved row hrow)

theorem Roomy.writes (h : Roomy db) (hwrites : Writes zones db call db')
    (hroom : LeavesRoom zones db call) : Roomy db' := by
  refine ⟨h.billed.writes hwrites, fun tenantId period => ?_⟩
  have hfits := h.fits tenantId period
  have hrows := hwrites.rows h.billed.conserved.ids
  generalize hafter : db'.reservations = rows at hrows
  rw [Bucket.marked, hafter]
  cases hrows with
  | mapped f each =>
    have hle := marked_mapped (b := .ofTenant tenantId period) call h.billed.reserved each
    simp only [Bucket.marked] at hfits
    omega
  | joined isCall reserves =>
    rename_i a adm estimate expires
    subst isCall
    have hle : Table.tally (Bucket.ofTenant tenantId period).markedBy
        (sweepExpiredScope db a.scope adm.period a.clock.nowMs).reservations ≤
        (Bucket.ofTenant tenantId period).marked db :=
      marked_mapped (.reserve a) h.billed.reserved fun row _ =>
        .expireIf rfl fun hdue => (of_decide_eq_true hdue).2.2
    rw [Table.tally_append, Table.tally_cons, Table.tally_nil]
    rcases hroom estimate adm reserves.price reserves.opens with hover | hfitsNew
    · exact absurd hover (h.not_overBudget reserves)
    · by_cases hsame : (Bucket.ofTenant tenantId period).has (a.row adm estimate expires) = true
      · rw [Bucket.markedBy_of_active hsame rfl]
        obtain ⟨rfl, rfl⟩ := of_decide_eq_true hsame
        simp only [Admit.row] at hle ⊢
        omega
      · rw [Bucket.markedBy_of_not_has hsame]
        omega

theorem roomy_run {events : List Event}
    (h : ((ledgerSystem zones).restrict (EventLeavesRoom zones)).Run Db.empty events db) :
    Roomy db := by
  refine h.invariant Roomy (fun db e db' hroomy hstep => ?_) roomy_empty
  obtain ⟨hroom, rfl⟩ := hstep
  cases e with
  | returns call => exact hroomy.writes (exec_writes zones call db) hroom
  | crashesBeforeCommit call => exact hroomy
  | crashesAfterCommit call => exact hroomy.writes (exec_writes zones call db) hroom

/-- In every state of every run whose reservations leave room in the column, every sum the
ledger's reads and admissions take over live reservations is an answer, and the exact one. -/
theorem sums_taken {events : List Event}
    (h : ((ledgerSystem zones).restrict (EventLeavesRoom zones)).Run Db.empty events db) :
    (∀ scope period nowMs, ∃ total, activeReservedFor db scope period nowMs = .ok total ∧
      total.val = ((db.reservations.filter fun row => row.countsForScope scope period nowMs).map
        fun row => row.reservedMinor.val).sum) ∧
    ∀ tenantId period nowMs, ∃ total, tenantActiveReservedFor db tenantId period nowMs = .ok total ∧
      total.val = ((db.reservations.filter fun row =>
        row.countsForTenant tenantId period nowMs).map fun row => row.reservedMinor.val).sum := by
  have hroomy := roomy_run h
  refine ⟨fun scope period nowMs => ?_, fun tenantId period nowMs => ?_⟩
  · obtain ⟨total, htotal⟩ := hroomy.reserved_ok (.ofScope scope period) nowMs
    refine ⟨total, htotal, ?_⟩
    rw [sumColumn_eq_ok htotal, List.map_map]
    rfl
  · obtain ⟨total, htotal⟩ := hroomy.reserved_ok (.ofTenant tenantId period) nowMs
    refine ⟨total, htotal, ?_⟩
    rw [sumColumn_eq_ok htotal, List.map_map]
    rfl

/-- A run of calls that meet a condition goes on with any that does. -/
theorem run_call {P : Db → Event → Prop} {db₀ : Db} {events : List Event}
    (h : ((ledgerSystem zones).restrict P).Run db₀ events db) (e : Event) (hP : P db e) :
    ((ledgerSystem zones).restrict P).Run db₀ (events ++ [e]) (e.apply zones db) :=
  .snoc h ⟨hP, rfl⟩

/-- Reservations of 30 and 60 leave room, so the sum of the tenant can be taken. -/
theorem sums_taken_two_reservations : ∃ total,
    tenantActiveReservedFor (run twoZones [limitedTenant, reservedThirty, reservedSixty] Db.empty)
      "acme" "1970-01" (.lit 20) = .ok total ∧ total.val = 90 := by
  have hstart : ((ledgerSystem twoZones).restrict (EventLeavesRoom twoZones)).Run Db.empty []
      Db.empty := .nil
  have hempty : (limitedTenant.apply twoZones Db.empty).reservations = [] := by decide
  have hfirst := run_call (run_call hstart limitedTenant trivial) reservedThirty (by
    rintro estimate adm ⟨⟩ -
    right
    simp only [Bucket.marked, hempty, Table.tally_nil]
    decide)
  have hone : (reservedThirty.apply twoZones (limitedTenant.apply twoZones Db.empty)).reservations =
      [⟨"r1", keyScope, "1970-01", "1970-01", .lit 30, .active, .lit 10, .lit 60, none⟩] := by decide
  have hrun := run_call hfirst reservedSixty (by
    rintro estimate adm ⟨⟩ -
    right
    simp only [Bucket.marked, hone, Table.tally_cons, Table.tally_nil, Bucket.markedBy]
    split <;> decide)
  obtain ⟨total, htotal, hsum⟩ := (sums_taken hrun).2 "acme" "1970-01" (.lit 20)
  exact ⟨total, htotal, hsum.trans (by decide)⟩

section Overflowing

/-- The largest amount, as the limit and the one reservation of a key. -/
def keyOfMaximum (keyId : String) : Event :=
  .returns (.configure ⟨"acme", keyId, "provider", "model"⟩ (.lit 9223372036854775807) "UTC" (.lit 0))

def reservedMaximum (keyId id : String) : Event := .returns (.reserve
  { ledger := ledgerOfFifty, scope := ⟨"acme", keyId, "provider", "model"⟩,
    estimatedCost := .known (.lit 9223372036854775807), id, clock := ⟨.lit 10, .lit 10, .lit 10⟩ })

/-- Two keys reserve all they may, and the tenant gets a limit afterwards. -/
def twoMaxima : List Event :=
  [keyOfMaximum "a", reservedMaximum "a" "r1", keyOfMaximum "b", reservedMaximum "b" "r2",
    limitedTenant]

/-- The tenant's sum overflows: its balance cannot be read, and nothing can be reserved. -/
theorem sums_overflow :
    (¬ ∀ (events : List Event) (tenantId period : String) (nowMs : I64),
      ∃ total, tenantActiveReservedFor (run twoZones events Db.empty) tenantId period nowMs =
        .ok total) ∧
    tenantBalance twoZones "acme" (.lit 10) (run twoZones twoMaxima Db.empty) =
      .error (.storage "integer overflow") ∧
    (reserve twoZones ledgerOfFifty ⟨"acme", "c", "provider", "model"⟩ (.known (.lit 1)) "r3"
      ⟨.lit 10, .lit 10, .lit 10⟩ (run twoZones twoMaxima Db.empty)).1 =
      .error (.storage "integer overflow") := by
  refine ⟨fun h => ?_, by decide, by decide⟩
  obtain ⟨total, htotal⟩ := h twoMaxima "acme" "1970-01" (.lit 10)
  have hfails : tenantActiveReservedFor (run twoZones twoMaxima Db.empty) "acme" "1970-01"
      (.lit 10) = .error (.storage "integer overflow") := by decide
  rw [hfails] at htotal
  cases htotal

end Overflowing

end Ledger
