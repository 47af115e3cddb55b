import IDoris.Ledger.Timed

/-!
# No overspend

For a tenant whose limits stay put while it has reservations, and whose calls are
settled within their reservation and its TTL, no bucket ever holds more than its
limit: settled spend and live reservations together.
-/
namespace Ledger

open Bounded Transition

/-- What a row holds of a bucket at an instant. -/
def Bucket.heldBy (b : Bucket) (nowMs : I64) (row : ReservationRow) : Int :=
  if b.has row = true ∧ row.counts nowMs = true then row.reservedMinor.val else 0

/-- What a row takes of a bucket: its cost once settled, its reservation while it is live. -/
def Bucket.usage (b : Bucket) (nowMs : I64) (row : ReservationRow) : Int :=
  b.weight row + b.heldBy nowMs row

def Bucket.limit : Bucket → Db → Option I64
  | .ofScope scope _, db => (loadConfig db scope).map ScopeConfig.limitMinor
  | .ofTenant tenantId _, db => (loadTenantConfig db tenantId).map TenantConfig.limitMinor

def Bucket.tenantId : Bucket → String
  | .ofScope scope _ => scope.tenantId
  | .ofTenant tenantId _ => tenantId

/-- The conditions on a step, for one tenant: its limits do not change once it has a
reservation, and each of its settlements charges at most what was reserved, in a transaction
that runs before the reservation expires. -/
structure Disciplined (zones : Zones) (tenantId : String) (w : World) (e : Event) : Prop where
  frozen : (∃ row ∈ w.db.reservations, row.scope.tenantId = tenantId) →
    ∀ b : Bucket, b.tenantId = tenantId → b.limit (e.apply zones w.db) = b.limit w.db
  settled : ∀ s, e.call = .settle s ∨ e.call = .replaySettlement s →
    ∀ row ∈ w.db.reservations, row.id = s.reservationId → row.scope.tenantId = tenantId →
      row.unfinished → s.actualCostMinor.val ≤ row.reservedMinor.val ∧
        w.clock.val < row.expiresAtMs.val

/-- The condition on a labelled step; the passage of time is free. -/
def DisciplinedTick (zones : Zones) (tenantId : String) (w : World) : Tick → Prop
  | .advance _ => True
  | .event e => Disciplined zones tenantId w e

variable {zones : Zones} {tenantId : String} {w w' : World} {db db' : Db} {call : Call}
  {b : Bucket} {row row' : ReservationRow} {nowMs later clock : I64}

theorem Bucket.tenant_of_has (h : b.has row = true) : row.scope.tenantId = b.tenantId := by
  cases b with
  | ofScope scope period =>
    obtain ⟨rfl, -⟩ := of_decide_eq_true h
    rfl
  | ofTenant tenantId period =>
    obtain ⟨rfl, -⟩ := of_decide_eq_true h
    rfl

theorem Bucket.heldBy_nonneg (h : 0 ≤ row.reservedMinor.val) : 0 ≤ b.heldBy nowMs row := by
  unfold Bucket.heldBy
  split <;> omega

theorem Bucket.heldBy_le (h : 0 ≤ row.reservedMinor.val) :
    b.heldBy nowMs row ≤ row.reservedMinor.val := by
  unfold Bucket.heldBy
  split <;> omega

theorem Bucket.heldBy_of_counts (hhas : b.has row = true) (hcounts : row.counts nowMs = true) :
    b.heldBy nowMs row = row.reservedMinor.val := by
  simp [Bucket.heldBy, hhas, hcounts]

/-- Time passing only lets reservations go. -/
theorem Bucket.heldBy_mono (h : 0 ≤ row.reservedMinor.val) (hle : nowMs.val ≤ later.val) :
    b.heldBy later row ≤ b.heldBy nowMs row := by
  unfold Bucket.heldBy
  split
  · rename_i hlater
    have hnow : b.has row = true ∧ row.counts nowMs = true :=
      ⟨hlater.1, ReservationRow.counts_mono hlater.2 hle⟩
    simp [hnow]
  · split <;> omega

theorem Bucket.heldBy_of_not_active (h : row.status ≠ .active) : b.heldBy nowMs row = 0 := by
  simp [Bucket.heldBy, ReservationRow.counts, h]

theorem Bucket.usage_of_not_has (h : b.has row = false) : b.usage nowMs row = 0 := by
  simp [Bucket.usage, Bucket.weight, Bucket.heldBy, h]

/-- What a settled row takes of a bucket it belongs to. -/
theorem Bucket.usage_settled {cost : I64} (hhas : b.has row = true) :
    b.usage nowMs { row with status := .settled, actualCostMinor := some cost } = cost.val := by
  simp [Bucket.usage, Bucket.weight, Bucket.heldBy, ReservationRow.counts, ReservationRow.cost,
    hhas]

theorem RowStep.has (h : RowStep call row row') : b.has row' = b.has row := by
  cases b <;> simp only [Bucket.has, h.scope, h.period, h.tenantPeriod]

/-- No step of a row takes more of a bucket than the row took before. -/
theorem RowStep.usage_le (h : RowStep call row row') (htimely : call.timely clock)
    (hreserved : 0 ≤ row.reservedMinor.val)
    (hexpired : row.status = .expired → row.expiresAtMs.val ≤ clock.val)
    (hsettled : ∀ s, call = .settle s ∨ call = .replaySettlement s → row.id = s.reservationId →
      b.has row = true → row.unfinished → s.actualCostMinor.val ≤ row.reservedMinor.val ∧
        clock.val < row.expiresAtMs.val) :
    b.usage (call.clockAfter clock) row' ≤ b.usage clock row := by
  have hclock := Call.clock_le htimely
  cases hhas : b.has row with
  | false =>
    have hbefore : b.usage clock row = 0 := Bucket.usage_of_not_has hhas
    have hafter : b.usage (call.clockAfter clock) row' = 0 :=
      Bucket.usage_of_not_has (h.has.trans hhas)
    omega
  | true =>
    have hheld : 0 ≤ b.heldBy clock row := Bucket.heldBy_nonneg hreserved
    cases h with
    | same =>
      have := Bucket.heldBy_mono (b := b) hreserved hclock
      unfold Bucket.usage
      omega
    | expired sweeps active due =>
      have hweight : b.weight row = 0 := Bucket.weight_of_not_settled (by simp [active])
      simp only [Bucket.usage, hweight]
      rw [Bucket.weight_of_not_settled (by simp), Bucket.heldBy_of_not_active (by simp)]
      omega
    | settled isCall id tenant unfinished =>
      obtain ⟨hcost, hlive⟩ := hsettled _ isCall id hhas unfinished
      have hactive : row.status = .active := by
        rcases unfinished with h | h
        · exact h
        · have := hexpired h
          omega
      have hcounts : row.counts clock = true := ReservationRow.counts_iff.mpr ⟨hactive, hlive⟩
      have hweight : b.weight row = 0 := Bucket.weight_of_not_settled (by simp [hactive])
      rw [Bucket.usage_settled hhas]
      simp only [Bucket.usage, hweight, Bucket.heldBy_of_counts hhas hcounts]
      omega
    | extended isCall active unexpired renewed lifetime =>
      subst isCall
      simp only [Call.timely] at htimely
      have hcounts : row.counts clock = true :=
        ReservationRow.counts_iff.mpr ⟨active, by omega⟩
      simp only [Bucket.usage, Bucket.weight_expires]
      rw [Bucket.heldBy_of_counts hhas hcounts]
      refine Int.add_le_add_left ?_ _
      refine Bucket.heldBy_le ?_
      exact hreserved
    | released unfinished =>
      have hweight : b.weight row = 0 := Bucket.weight_of_not_settled unfinished.not_settled
      simp only [Bucket.usage, hweight]
      rw [Bucket.weight_of_not_settled (by simp), Bucket.heldBy_of_not_active (by simp)]
      omega

/-- The amounts a bucket takes, over the whole table. -/
def Bucket.taken (b : Bucket) (nowMs : I64) (rows : List ReservationRow) : Int :=
  Table.tally (b.usage nowMs) rows

theorem Bucket.taken_eq (b : Bucket) (nowMs : I64) (rows : List ReservationRow) :
    b.taken nowMs rows = Table.tally b.weight rows + Table.tally (b.heldBy nowMs) rows := by
  induction rows with
  | nil => rfl
  | cons row rows ih =>
    simp only [Bucket.taken, Table.tally_cons, Bucket.usage] at ih ⊢
    omega

theorem Bucket.taken_mono {rows : List ReservationRow}
    (hreserved : ∀ row ∈ rows, 0 ≤ row.reservedMinor.val) (hle : nowMs.val ≤ later.val) :
    b.taken later rows ≤ b.taken nowMs rows :=
  Table.tally_le fun row hrow => by
    have := Bucket.heldBy_mono (b := b) (hreserved row hrow) hle
    simp only [Bucket.usage]
    omega

/-- The sum `reserve` compares with a limit is what the live rows hold of the bucket. -/
theorem activeReservedFor_eq {scope : BudgetScope} {period : String} {total : I64}
    (h : activeReservedFor db scope period nowMs = .ok total) :
    total.val = Table.tally ((Bucket.ofScope scope period).heldBy nowMs) db.reservations := by
  rw [sumColumn_eq_ok h, List.map_map, Function.comp_def, Table.sum_filter_map]
  exact Table.tally_congr fun row _ => by
    simp [Bucket.heldBy, Bucket.has, ReservationRow.countsForScope]

theorem tenantActiveReservedFor_eq {tenantId period : String} {total : I64}
    (h : tenantActiveReservedFor db tenantId period nowMs = .ok total) :
    total.val = Table.tally ((Bucket.ofTenant tenantId period).heldBy nowMs) db.reservations := by
  rw [sumColumn_eq_ok h, List.map_map, Function.comp_def, Table.sum_filter_map]
  exact Table.tally_congr fun row _ => by
    simp [Bucket.heldBy, Bucket.has, ReservationRow.countsForTenant]

/-- A dimension that lets a priced estimate pass has room for it. -/
theorem checkDimension_fits {limit spent estimate : I64} {gate : SpendGate}
    {reserved : Except BudgetError I64}
    (h : checkDimension tenantId (some limit) spent reserved estimate gate = .ok none)
    (hpriced : 0 < estimate.val) :
    ∃ total, reserved = .ok total ∧ spent.val + total.val + estimate.val ≤ limit.val := by
  simp only [checkDimension, Transaction.bind_eq_ok] at h
  obtain ⟨total, htotal, h⟩ := h
  have hroom : exceedsLimit estimate limit (checkedAddI64 spent total) gate = false := by
    by_contra hexceeds
    rw [Bool.not_eq_false] at hexceeds
    simp [hexceeds, pure, Except.pure] at h
  exact ⟨total, htotal, fits_of_not_exceeds rfl hpriced hroom⟩

/-- A reservation that joins a limited bucket left room for itself in it. -/
theorem Reserves.fits {a : Admit} {adm : Admission} {estimate expires limit : I64}
    (h : Reserves zones db a adm estimate expires) (hconserved : Conserved db)
    (hhas : b.has (a.row adm estimate expires) = true) (hlimit : b.limit db = some limit)
    (hpriced : 0 < estimate.val) :
    b.taken a.clock.nowMs
        (sweepExpiredScope db a.scope adm.period a.clock.nowMs).reservations + estimate.val ≤
      limit.val := by
  have hskip : skipZeroCost adm.tenantCfg estimate = false := by
    simp only [skipZeroCost, decide_eq_false_iff_not]
    omega
  have hswept := (hconserved.sweepWhere (fun row => decide (row.scope = a.scope ∧
    row.period = adm.period ∧ row.expiresAtMs.val ≤ a.clock.nowMs.val))).totals b
  rw [Bucket.taken_eq]
  cases b with
  | ofScope scope period =>
    obtain ⟨rfl, rfl⟩ := of_decide_eq_true hhas
    have hcheck := h.scopeFits
    simp only [checkScopeLimit, hskip, Bool.false_eq_true, if_false] at hcheck
    have hsome : adm.subConfig.map ScopeConfig.limitMinor = some limit := by
      rw [h.opens.sub]
      exact hlimit
    rw [hsome] at hcheck
    obtain ⟨total, htotal, hfits⟩ := checkDimension_fits hcheck hpriced
    rw [h.opens.swept] at htotal hfits
    have := activeReservedFor_eq htotal
    simp only [Bucket.spent, Admit.row] at hswept this hfits ⊢
    unfold sweepExpiredScope at this hfits ⊢
    omega
  | ofTenant tenantId period =>
    obtain ⟨rfl, rfl⟩ := of_decide_eq_true hhas
    have hcheck := h.tenantFits
    simp only [checkTenantLimit, hskip, Bool.false_eq_true, if_false] at hcheck
    have hsome : adm.tenantCfg.map TenantConfig.limitMinor = some limit := by
      rw [h.opens.tenant]
      exact hlimit
    rw [hsome] at hcheck
    obtain ⟨total, htotal, hfits⟩ := checkDimension_fits hcheck hpriced
    rw [h.opens.swept] at htotal hfits
    have := tenantActiveReservedFor_eq htotal
    simp only [Bucket.spent, Admit.row] at hswept this hfits ⊢
    unfold sweepExpiredScope at this hfits ⊢
    omega

theorem Bucket.taken_of_no_reservation {rows : List ReservationRow}
    (h : ∀ row ∈ rows, row.scope.tenantId ≠ b.tenantId) : b.taken nowMs rows = 0 := by
  have hzero : b.taken nowMs rows = Table.tally (fun _ => 0) rows :=
    Table.tally_congr fun row hrow => by
      refine Bucket.usage_of_not_has ?_
      by_contra hhas
      rw [Bool.not_eq_false] at hhas
      exact h row hrow (Bucket.tenant_of_has hhas)
  rw [hzero]
  simp [Table.tally]

/-- A limit that is set is not negative. -/
theorem Sound.limit_nonneg {limit : I64} (h : Sound w) (hlimit : b.limit w.db = some limit) :
    0 ≤ limit.val := by
  cases b with
  | ofScope scope period =>
    obtain ⟨cfg, hcfg, rfl⟩ := Option.map_eq_some_iff.mp hlimit
    exact h.scopeLimits cfg (Table.lookup_mem hcfg)
  | ofTenant tenantId period =>
    obtain ⟨cfg, hcfg, rfl⟩ := Option.map_eq_some_iff.mp hlimit
    exact h.tenantLimits cfg (Table.lookup_mem hcfg)

/-- The invariant: no bucket of the tenant takes more than its limit. -/
def WithinLimits (tenantId : String) (w : World) : Prop :=
  ∀ b : Bucket, b.tenantId = tenantId → ∀ limit, b.limit w.db = some limit →
    b.taken w.clock w.db.reservations ≤ limit.val

/-- A call other than a joining `reserve` lets no bucket of the tenant take more. -/
theorem taken_mapped {e : Event} (hsound : Sound w) (htimely : e.call.timely w.clock)
    (hdisciplined : Disciplined zones tenantId w e) (hb : b.tenantId = tenantId)
    {f : ReservationRow → ReservationRow}
    (each : ∀ row ∈ w.db.reservations, RowStep e.call row (f row)) :
    b.taken (e.call.clockAfter w.clock) (w.db.reservations.map f) ≤
      b.taken w.clock w.db.reservations := by
  rw [Bucket.taken, Table.tally_map]
  refine Table.tally_le ?_
  intro row hrow
  refine (each row hrow).usage_le htimely (hsound.reserved row hrow) (hsound.expired row hrow) ?_
  intro s isCall hid hhas hunfinished
  exact hdisciplined.settled s isCall row hrow hid ((Bucket.tenant_of_has hhas).trans hb)
    hunfinished

/-- A joining `reserve` stays within the limit it was checked against. -/
theorem taken_joined {a : Admit} {adm : Admission} {estimate expires limit : I64}
    (hsound : Sound w) (htimely : (Call.reserve a).timely w.clock)
    (hreserves : Reserves zones w.db a adm estimate expires)
    (hlimit : b.limit w.db = some limit)
    (hwithin : b.taken w.clock w.db.reservations ≤ limit.val) :
    b.taken a.clock.beforeCommitMs
      ((sweepExpiredScope w.db a.scope adm.period a.clock.nowMs).reservations ++
        [a.row adm estimate expires]) ≤ limit.val := by
  have hswept : ∀ row ∈ (sweepExpiredScope w.db a.scope adm.period a.clock.nowMs).reservations,
      0 ≤ row.reservedMinor.val := by
    intro row hrow
    obtain ⟨old, hold, rfl⟩ := List.mem_map.mp hrow
    exact hsound.reserved old hold
  have hmono := Bucket.taken_mono (b := b) hswept htimely.2
  have hshrinks : b.taken a.clock.nowMs
      (sweepExpiredScope w.db a.scope adm.period a.clock.nowMs).reservations ≤
        b.taken w.clock w.db.reservations := by
    rw [Bucket.taken, sweepExpiredScope, sweepWhere, Table.tally_map]
    refine Table.tally_le ?_
    intro row hrow
    -- the sweep alone is what a `check_admission` at this reading would do
    have hstep : RowStep
        (.checkAdmission { a with clock := ⟨a.clock.nowMs, a.clock.nowMs, a.clock.nowMs⟩ }) row
        (row.expireIf (decide (row.scope = a.scope ∧ row.period = adm.period ∧
          row.expiresAtMs.val ≤ a.clock.nowMs.val))) :=
      .expireIf rfl fun hdue => (of_decide_eq_true hdue).2.2
    have hreads : w.clock.val ≤ a.clock.nowMs.val ∧ a.clock.nowMs.val ≤ a.clock.nowMs.val :=
      ⟨htimely.1, Int.le_refl _⟩
    refine hstep.usage_le hreads (hsound.reserved row hrow) (hsound.expired row hrow) ?_
    rintro s (h | h) <;> cases h
  have hjoin : b.usage a.clock.beforeCommitMs (a.row adm estimate expires) ≤ estimate.val := by
    have hweight : b.weight (a.row adm estimate expires) = 0 :=
      Bucket.weight_of_not_settled (by simp [Admit.row])
    simp only [Bucket.usage, hweight, Int.zero_add]
    exact Bucket.heldBy_le hreserves.priced
  have hsum : b.taken a.clock.beforeCommitMs
      ((sweepExpiredScope w.db a.scope adm.period a.clock.nowMs).reservations ++
        [a.row adm estimate expires]) =
      b.taken a.clock.beforeCommitMs
        (sweepExpiredScope w.db a.scope adm.period a.clock.nowMs).reservations +
      b.usage a.clock.beforeCommitMs (a.row adm estimate expires) := by
    simp [Bucket.taken]
  rw [hsum]
  cases hhas : b.has (a.row adm estimate expires) with
  | false =>
    have hnone : b.usage a.clock.beforeCommitMs (a.row adm estimate expires) = 0 :=
      Bucket.usage_of_not_has hhas
    omega
  | true =>
    by_cases hpriced : 0 < estimate.val
    · have := hreserves.fits hsound.conserved hhas hlimit hpriced
      omega
    · omega

/-- `reserve` leaves every limit as it is. -/
theorem Writes.reserve_limit {a : Admit} (h : Writes zones db (.reserve a) db') :
    b.limit db' = b.limit db := by
  cases h with
  | nothing => rfl
  | swept => cases b <;> rfl
  | reserved => cases b <;> rfl
  | charged isCall => rcases isCall with h | h <;> cases h
  | overflowed isCall => rcases isCall with h | h <;> cases h

theorem WithinLimits.step (hsound : Sound w) (h : WithinLimits tenantId w) {tick : Tick}
    (hdisciplined : DisciplinedTick zones tenantId w tick)
    (hstep : (timedLedger zones).step w tick w') : WithinLimits tenantId w' := by
  intro b hb limit hlimit
  by_cases hnone : ∀ row ∈ w'.db.reservations, row.scope.tenantId ≠ b.tenantId
  · rw [Bucket.taken_of_no_reservation hnone]
    exact (hsound.step hstep).limit_nonneg hlimit
  · cases tick with
    | advance nowMs =>
      obtain ⟨hle, rfl⟩ := hstep
      have := Bucket.taken_mono (b := b) hsound.reserved hle
      have := h b hb limit hlimit
      simp only at *
      omega
    | event e =>
      obtain ⟨htimely, rfl⟩ := hstep
      have hrows := (e.writes zones w.db).rows hsound.conserved.ids
      simp only [World.after] at hnone hlimit ⊢
      generalize hafter : (e.apply zones w.db).reservations = rows at hrows hnone ⊢
      cases hrows with
      | mapped f each =>
        -- the tenant had a reservation before, so its limits were frozen
        have hsome : ∃ row ∈ w.db.reservations, row.scope.tenantId = tenantId := by
          simp only [not_forall, not_not] at hnone
          obtain ⟨row', hrow', htenant⟩ := hnone
          obtain ⟨row, hrow, rfl⟩ := List.mem_map.mp hrow'
          exact ⟨row, hrow, ((each row hrow).scope ▸ htenant).trans hb⟩
        rw [hdisciplined.frozen hsome b hb] at hlimit
        exact Int.le_trans (taken_mapped hsound htimely hdisciplined hb each) (h b hb limit hlimit)
      | joined isCall reserves =>
        rename_i a adm estimate expires
        have hwrites := e.writes zones w.db
        rw [isCall] at hwrites
        rw [hwrites.reserve_limit] at hlimit
        rw [isCall] at htimely ⊢
        exact taken_joined hsound htimely reserves hlimit (h b hb limit hlimit)

theorem withinLimits_run {ticks : List Tick} {start : I64}
    (h : ((timedLedger zones).restrict (DisciplinedTick zones tenantId)).Run (World.start start)
      ticks w) : WithinLimits tenantId w := by
  refine h.invariant_with Sound (WithinLimits tenantId) ?_ ?_ (sound_start start) ?_
  · intro w tick w' hsound hstep
    exact hsound.step hstep.2
  · intro w tick w' hsound hwithin hstep
    exact hwithin.step hsound hstep.1 hstep.2
  · intro b hb limit hlimit
    cases b <;> cases hlimit

/-- What a bucket takes is its settled total and the sum of its live reservations. -/
theorem Sound.taken_eq (h : Sound w) (b : Bucket) :
    b.taken w.clock w.db.reservations = (b.spent w.db).val +
      ((w.db.reservations.filter fun row => b.has row && row.counts w.clock).map
        fun row => row.reservedMinor.val).sum := by
  rw [Bucket.taken_eq, h.conserved.totals b, Table.sum_filter_map]
  congr 1
  exact Table.tally_congr fun row _ => by simp [Bucket.heldBy]

/-- In every state of every disciplined run, settled spend plus live reservations stay within
the limit of every configured scope, in every period, and within the tenant's limit, in every
tenant period. -/
theorem no_overspend {zones : Zones} {tenantId : String} {start : I64} {ticks : List Tick}
    {w : World}
    (h : ((timedLedger zones).restrict (DisciplinedTick zones tenantId)).Run (World.start start)
      ticks w) :
    (∀ scope cfg period, scope.tenantId = tenantId → loadConfig w.db scope = some cfg →
      (spentFor w.db scope period).val +
        ((w.db.reservations.filter fun row => row.countsForScope scope period w.clock).map
          fun row => row.reservedMinor.val).sum ≤ cfg.limitMinor.val) ∧
    (∀ cfg period, loadTenantConfig w.db tenantId = some cfg →
      (tenantSpentFor w.db tenantId period).val +
        ((w.db.reservations.filter fun row =>
          row.countsForTenant tenantId period w.clock).map
            fun row => row.reservedMinor.val).sum ≤ cfg.limitMinor.val) := by
  have hsound : Sound w :=
    h.of_restrict.invariant Sound (fun _ _ _ hs hstep => hs.step hstep) (sound_start start)
  have hwithin := withinLimits_run h
  refine ⟨?_, ?_⟩
  · intro scope cfg period htenant hcfg
    have hbound := hwithin (.ofScope scope period) htenant cfg.limitMinor
      (by simp [Bucket.limit, hcfg])
    rw [hsound.taken_eq] at hbound
    exact hbound
  · intro cfg period hcfg
    have hbound := hwithin (.ofTenant tenantId period) rfl cfg.limitMinor
      (by simp [Bucket.limit, hcfg])
    rw [hsound.taken_eq] at hbound
    exact hbound

/-- A tenant limit of 100. -/
def limitedTenant : Event := .returns (.configureTenant "acme" (.lit 100) "UTC" .all (.lit 0))

def keyScope : BudgetScope := ⟨"acme", "key", "provider", "model"⟩

def reservedThirty : Event := .returns (.reserve
  { ledger := ledgerOfFifty, scope := keyScope, estimatedCost := .known (.lit 30), id := "r1",
    clock := ⟨.lit 10, .lit 10, .lit 10⟩ })

def reservedSixty : Event := .returns (.reserve
  { ledger := ledgerOfFifty, scope := keyScope, estimatedCost := .known (.lit 60), id := "r2",
    clock := ⟨.lit 20, .lit 20, .lit 20⟩ })

/-- Less is charged than the first reservation held. -/
def twentyOfThirty : Settlement := ⟨"acme", "r1", .lit 20, .lit 15, "overage"⟩

section Sample

variable {a : Admit} {s : Settlement}

/-- Before its first reservation every call of a tenant is disciplined. -/
theorem disciplined_of_none {e : Event} (h : w.db.reservations = []) :
    Disciplined zones tenantId w e where
  frozen := by
    rintro ⟨row, hrow, -⟩
    rw [h] at hrow
    cases hrow
  settled := by
    intro s _ row hrow
    rw [h] at hrow
    cases hrow

theorem disciplined_reserve : Disciplined zones tenantId w (.returns (.reserve a)) where
  frozen _ _ _ := (exec_writes zones (.reserve a) w.db).reserve_limit
  settled := by
    rintro s (h | h) <;> cases h

theorem disciplined_settle (h : ∀ row ∈ w.db.reservations, row.id = s.reservationId →
      s.actualCostMinor.val ≤ row.reservedMinor.val ∧ w.clock.val < row.expiresAtMs.val) :
    Disciplined zones tenantId w (.returns (.settle s)) where
  frozen _ b _ := by
    have hwrites := exec_writes zones (.settle s) w.db
    simp only [Event.apply]
    generalize exec zones (.settle s) w.db = after at hwrites
    cases hwrites <;> cases b <;> rfl
  settled := by
    rintro settlement (hcall | hcall) row hrow hid - -
    · cases hcall
      exact h row hrow hid
    · cases hcall

/-- The limit, both reservations and the settlement of the first. -/
def settledAndReserved : World :=
  (((World.start (.lit 0)).after twoZones limitedTenant).after twoZones reservedThirty).after
    twoZones reservedSixty |>.after twoZones (.returns (.settle twentyOfThirty))

theorem no_overspend_two_reservations :
    settledAndReserved.db.reservations.map ReservationRow.status = [.settled, .active] ∧
      ∀ cfg period, loadTenantConfig settledAndReserved.db "acme" = some cfg →
        (tenantSpentFor settledAndReserved.db "acme" period).val +
          ((settledAndReserved.db.reservations.filter fun row =>
            row.countsForTenant "acme" period settledAndReserved.clock).map
              fun row => row.reservedMinor.val).sum ≤ cfg.limitMinor.val := by
  refine ⟨by decide, ?_⟩
  have hstart : ((timedLedger twoZones).restrict (DisciplinedTick twoZones "acme")).Run
      (World.start (.lit 0)) [] (World.start (.lit 0)) := .nil
  have hlimited := run_event (e := limitedTenant) hstart (disciplined_of_none rfl) (by decide)
  have hfirst := run_event (e := reservedThirty) hlimited disciplined_reserve (by decide)
  have hsecond := run_event (e := reservedSixty) hfirst disciplined_reserve (by decide)
  have hsettled := run_event (e := .returns (.settle twentyOfThirty)) hsecond
    (disciplined_settle (by decide)) (by decide)
  exact (no_overspend hsettled).2

end Sample

end Ledger
