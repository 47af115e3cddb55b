import IDoris.Ledger.Writes

/-!
# Conservation of the settled totals

The stored totals of both dimensions are the sums of the costs of the settled
rows, whatever calls ran and whatever their clocks showed. A bucket is one stored
total, of either dimension.
-/
namespace Ledger

open Bounded

/-- One settled total: of a scope and period, or of a tenant and tenant period. -/
inductive Bucket where
  | ofScope (scope : BudgetScope) (period : String)
  | ofTenant (tenantId period : String)

/-- The reservations that are charged to a bucket. -/
def Bucket.has : Bucket → ReservationRow → Bool
  | .ofScope scope period, row => decide (row.scope = scope ∧ row.period = period)
  | .ofTenant tenantId period, row =>
    decide (row.scope.tenantId = tenantId ∧ row.tenantPeriod = period)

/-- The stored total of a bucket. -/
def Bucket.spent : Bucket → Db → I64
  | .ofScope scope period, db => spentFor db scope period
  | .ofTenant tenantId period, db => tenantSpentFor db tenantId period

/-- What a settled row was charged. -/
def ReservationRow.cost (row : ReservationRow) : Int :=
  match row.actualCostMinor with
  | some cost => cost.val
  | none => 0

/-- What a row adds to the settled total of a bucket. -/
def Bucket.weight (b : Bucket) (row : ReservationRow) : Int :=
  if row.status = .settled ∧ b.has row = true then row.cost else 0

@[simp] theorem Bucket.has_expireIf {b : Bucket} {row : ReservationRow} {due : Bool} :
    b.has (row.expireIf due) = b.has row := by
  cases b <;> rfl

@[simp] theorem Bucket.has_settle {b : Bucket} {row : ReservationRow} {status : ReservationStatus}
    {cost : Option I64} :
    b.has { row with status := status, actualCostMinor := cost } = b.has row := by
  cases b <;> rfl

@[simp] theorem Bucket.has_expires {b : Bucket} {row : ReservationRow} {expires : I64} :
    b.has { row with expiresAtMs := expires } = b.has row := by
  cases b <;> rfl

theorem Bucket.weight_of_not_settled {b : Bucket} {row : ReservationRow}
    (h : row.status ≠ .settled) : b.weight row = 0 := by
  simp [Bucket.weight, h]

@[simp] theorem Bucket.weight_expireIf {b : Bucket} {row : ReservationRow} {due : Bool} :
    b.weight (row.expireIf due) = b.weight row := by
  simp [Bucket.weight, ReservationRow.cost]

@[simp] theorem Bucket.weight_expires {b : Bucket} {row : ReservationRow} {expires : I64} :
    b.weight { row with expiresAtMs := expires } = b.weight row := by
  simp [Bucket.weight, ReservationRow.cost]

theorem ReservationRow.unfinished.not_settled {row : ReservationRow} (h : row.unfinished) :
    row.status ≠ .settled := by
  rcases h with h | h <;> simp [h]

theorem ReservationRow.unfinished.not_released {row : ReservationRow} (h : row.unfinished) :
    row.status ≠ .released := by
  rcases h with h | h <;> simp [h]

/-- The invariant of the ledger file that conservation rests on. -/
structure Conserved (db : Db) : Prop where
  ids : (db.reservations.map ReservationRow.id).Nodup
  scopeKeys : (db.budgetPeriods.map BudgetPeriod.key).Nodup
  tenantKeys : (db.tenantPeriods.map TenantPeriod.key).Nodup
  totals : ∀ b : Bucket, (b.spent db).val = Table.tally b.weight db.reservations
  costs : ∀ row ∈ db.reservations, row.status = .settled →
    ∃ cost : I64, row.actualCostMinor = some cost ∧ 0 ≤ cost.val

variable {zones : Zones} {db db' : Db}

theorem conserved_empty : Conserved Db.empty where
  ids := by simp [Db.empty]
  scopeKeys := by simp [Db.empty]
  tenantKeys := by simp [Db.empty]
  totals b := by cases b <;> simp [Bucket.spent, spentFor, tenantSpentFor, Db.empty]
  costs := by simp [Db.empty]

/-- A database that differs in none of the three tables is conserved too. -/
theorem Conserved.frame (h : Conserved db) (hrows : db'.reservations = db.reservations)
    (hscope : db'.budgetPeriods = db.budgetPeriods)
    (htenant : db'.tenantPeriods = db.tenantPeriods) : Conserved db' where
  ids := by rw [hrows]; exact h.ids
  scopeKeys := by rw [hscope]; exact h.scopeKeys
  tenantKeys := by rw [htenant]; exact h.tenantKeys
  totals b := by
    have hspent : b.spent db' = b.spent db := by
      cases b <;> simp only [Bucket.spent, spentFor, tenantSpentFor, hscope, htenant]
    rw [hspent, hrows]
    exact h.totals b
  costs := by rw [hrows]; exact h.costs

/-- New contents of the reservations table that weigh the same keep conservation. -/
theorem Conserved.withRows (h : Conserved db) {rows : List ReservationRow}
    (hids : (rows.map ReservationRow.id).Nodup)
    (hweights : ∀ b : Bucket, Table.tally b.weight rows = Table.tally b.weight db.reservations)
    (hcosts : ∀ row ∈ rows, row.status = .settled →
      ∃ cost : I64, row.actualCostMinor = some cost ∧ 0 ≤ cost.val) :
    Conserved { db with reservations := rows } where
  ids := hids
  scopeKeys := h.scopeKeys
  tenantKeys := h.tenantKeys
  totals b := by
    have hspent : b.spent { db with reservations := rows } = b.spent db := by cases b <;> rfl
    rw [hspent, hweights b]
    exact h.totals b
  costs := hcosts

theorem Conserved.sweepWhere (h : Conserved db) (due : ReservationRow → Bool) :
    Conserved (sweepWhere due db) := by
  refine h.withRows ?_ ?_ ?_
  · rw [List.map_map]
    exact h.ids
  · intro b
    rw [Table.tally_map]
    exact Table.tally_congr fun row _ => Bucket.weight_expireIf
  · intro row hrow hsettled
    obtain ⟨old, hold, rfl⟩ := List.mem_map.mp hrow
    exact h.costs old hold (ReservationRow.expireIf_settled.mp hsettled)

/-- A row that is not settled joins without weight. -/
theorem Conserved.insert (h : Conserved db) {row : ReservationRow} (hactive : row.status = .active)
    (hfresh : Table.lookup ReservationRow.id row.id db.reservations = none) :
    Conserved { db with reservations := db.reservations ++ [row] } := by
  have hunsettled : row.status ≠ .settled := by simp [hactive]
  refine h.withRows ?_ ?_ ?_
  · rw [List.map_append, List.map_singleton, List.nodup_append]
    refine ⟨h.ids, List.nodup_singleton _, ?_⟩
    intro id hid other hother
    obtain ⟨old, hold, rfl⟩ := List.mem_map.mp hid
    rw [List.mem_singleton.mp hother]
    exact Table.lookup_eq_none.mp hfresh old hold
  · intro b
    simp [Bucket.weight_of_not_settled hunsettled]
  · intro r hr hsettled
    rcases List.mem_append.mp hr with hr | hr
    · exact h.costs r hr hsettled
    · rw [List.mem_singleton.mp hr] at hsettled
      exact absurd hsettled hunsettled

/-- An update of one row that stays unsettled, or settles nothing new, keeps conservation. -/
theorem Conserved.updateRow (h : Conserved db) {id : String}
    {f : ReservationRow → ReservationRow} {row : ReservationRow}
    (hfound : Table.lookup ReservationRow.id id db.reservations = some row)
    (hid : ∀ r, (f r).id = r.id) (hbefore : row.status ≠ .settled)
    (hafter : (f row).status ≠ .settled) : Conserved (updateReservation db id f) := by
  refine h.withRows ?_ ?_ ?_
  · rw [Table.update_keys fun r hr => (hid r).trans hr]
    exact h.ids
  · intro b
    rw [Table.tally_update b.weight h.ids hfound, Bucket.weight_of_not_settled hbefore,
      Bucket.weight_of_not_settled hafter]
    omega
  · intro r hr hsettled
    obtain ⟨old, hold, rfl⟩ := Table.mem_update.mp hr
    split at hsettled
    · rename_i hkey
      have hsame := Table.lookup_of_mem h.ids hold
      rw [hkey, hfound, Option.some.injEq] at hsame
      rw [← hsame] at hsettled
      exact absurd hsettled hafter
    · rename_i hkey
      rw [if_neg hkey]
      exact h.costs old hold hsettled

section Charge

variable {s : Settlement} {row : ReservationRow} {scopeTotal tenantTotal : I64}
  {events : List OverageEvent}

theorem spentFor_charged (scope : BudgetScope) (period : String) :
    spentFor (s.charged row scopeTotal tenantTotal events db) scope period =
      if row.scope = scope ∧ row.period = period then scopeTotal else spentFor db scope period := by
  simp only [spentFor, Settlement.charged, Table.lookup_upsert, BudgetPeriod.key, Prod.mk.injEq]
  by_cases h : row.scope = scope ∧ row.period = period <;> simp [h]

theorem tenantSpentFor_charged (tenantId period : String) :
    tenantSpentFor (s.charged row scopeTotal tenantTotal events db) tenantId period =
      if s.tenantId = tenantId ∧ row.tenantPeriod = period then tenantTotal
      else tenantSpentFor db tenantId period := by
  simp only [tenantSpentFor, Settlement.charged, Table.lookup_upsert, TenantPeriod.key,
    Prod.mk.injEq]
  by_cases h : s.tenantId = tenantId ∧ row.tenantPeriod = period <;> simp [h]

/-- The buckets the charged row belongs to grow by the cost, and no other does. -/
theorem spent_charged (htenant : row.scope.tenantId = s.tenantId)
    (hscope : scopeTotal.val = (spentFor db row.scope row.period).val + s.actualCostMinor.val)
    (htotal : tenantTotal.val =
      (tenantSpentFor db s.tenantId row.tenantPeriod).val + s.actualCostMinor.val) (b : Bucket) :
    (b.spent (s.charged row scopeTotal tenantTotal events db)).val =
      (b.spent db).val + if b.has row = true then s.actualCostMinor.val else 0 := by
  cases b with
  | ofScope scope period =>
    simp only [Bucket.spent, Bucket.has, spentFor_charged, decide_eq_true_eq]
    split
    · rename_i h
      rw [hscope, h.1, h.2]
    · omega
  | ofTenant tenantId period =>
    simp only [Bucket.spent, Bucket.has, tenantSpentFor_charged, decide_eq_true_eq, htenant]
    split
    · rename_i h
      rw [htotal, h.1, h.2]
    · omega

/-- A charge moves the totals of both dimensions together with the row it settles. -/
theorem Conserved.charge (h : Conserved db) (hchargeable : Chargeable db s row)
    (hscope : scopeTotal.val = (spentFor db row.scope row.period).val + s.actualCostMinor.val)
    (htotal : tenantTotal.val =
      (tenantSpentFor db s.tenantId row.tenantPeriod).val + s.actualCostMinor.val) :
    Conserved (s.charged row scopeTotal tenantTotal events db) where
  ids := by
    simp only [Settlement.charged]
    rw [Table.update_keys]
    · exact h.ids
    · intro r hr
      exact hr
  scopeKeys := Table.upsert_keys_nodup h.scopeKeys
  tenantKeys := Table.upsert_keys_nodup h.tenantKeys
  totals b := by
    rw [spent_charged hchargeable.tenant hscope htotal, h.totals b]
    simp only [Settlement.charged]
    rw [Table.tally_update b.weight h.ids hchargeable.found,
      Bucket.weight_of_not_settled hchargeable.unfinished.not_settled]
    simp [Bucket.weight, ReservationRow.cost]
  costs := by
    intro r hr hsettled
    obtain ⟨old, hold, rfl⟩ := Table.mem_update.mp hr
    split at hsettled
    · rename_i hkey
      rw [if_pos hkey]
      exact ⟨s.actualCostMinor, rfl, hchargeable.cost⟩
    · rename_i hkey
      rw [if_neg hkey]
      exact h.costs old hold hsettled

end Charge

/-- One call of any kind keeps the ledger file conserved. -/
theorem Conserved.writes {call : Call} (h : Conserved db) (hwrites : Writes zones db call db') :
    Conserved db' := by
  cases hwrites with
  | nothing => exact h
  | configured accepts => exact h.frame rfl rfl rfl
  | tenantConfigured accepts => exact h.frame rfl rfl rfl
  | retained keep => exact h.frame rfl rfl rfl
  | swept isCall opens => exact h.sweepWhere _
  | reserved reserves =>
    have hfresh := reserves.fresh
    refine (h.sweepWhere _).insert rfl ?_
    rw [lookup_sweepWhere]
    simpa [Admit.row] using hfresh
  | charged isCall chargeable scopeSum tenantSum audit => exact h.charge chargeable scopeSum tenantSum
  | overflowed isCall chargeable first => exact h.frame rfl rfl rfl
  | extended found tenant active unexpired ttl renewed lifetime deadline =>
    have hbefore : ReservationStatus.active ≠ .settled := by simp
    exact h.updateRow found (fun _ => rfl) (active ▸ hbefore) (active ▸ hbefore)
  | released found tenant unfinished clear =>
    exact h.updateRow found (fun _ => rfl) unfinished.not_settled (by simp)
  | sweptAll nowMs => exact h.sweepWhere _

theorem Event.apply_cases (zones : Zones) (db : Db) (event : Event) :
    event.apply zones db = db ∨ ∃ call, event.apply zones db = exec zones call db := by
  cases event with
  | returns call => exact .inr ⟨call, rfl⟩
  | crashesBeforeCommit call => exact .inl rfl
  | crashesAfterCommit call => exact .inr ⟨call, rfl⟩

/-- What every call keeps, every run keeps. -/
theorem run_invariant (I : Db → Prop) (hexec : ∀ db call, I db → I (exec zones call db))
    (hdb : I db) (events : List Event) : I (run zones events db) := by
  refine (run_is_run zones events db).invariant I ?_ hdb
  rintro db event db' hdb rfl
  rcases event.apply_cases zones db with h | ⟨call, h⟩
  · rw [h]; exact hdb
  · rw [h]; exact hexec db call hdb

theorem conserved_run (zones : Zones) (events : List Event) :
    Conserved (run zones events Db.empty) :=
  run_invariant Conserved (fun db call h => h.writes (exec_writes zones call db)) conserved_empty
    events

/-- A settled or released row is never written again. -/
theorem finished_kept {call : Call} {id : String} {row : ReservationRow}
    (hwrites : Writes zones db call db')
    (hfound : Table.lookup ReservationRow.id id db.reservations = some row)
    (hfinished : row.status = .settled ∨ row.status = .released) :
    Table.lookup ReservationRow.id id db'.reservations = some row := by
  have hsweep : ∀ due, Table.lookup ReservationRow.id id (sweepWhere due db).reservations =
      some row := by
    intro due
    rw [lookup_sweepWhere, hfound, Option.map_some, ReservationRow.expireIf_of_not_active]
    rcases hfinished with h | h <;> simp [h]
  have hother : ∀ {other : ReservationRow} {key : String} {f : ReservationRow → ReservationRow},
      Table.lookup ReservationRow.id key db.reservations = some other → other.unfinished →
      (∀ r, r.id = key → (f r).id = key) →
      Table.lookup ReservationRow.id id (updateReservation db key f).reservations = some row := by
    intro other key f hkey hunfinished hf
    have hne : id ≠ key := by
      rintro rfl
      rw [hfound, Option.some.injEq] at hkey
      subst hkey
      rcases hfinished with h | h
      · exact hunfinished.not_settled h
      · exact hunfinished.not_released h
    simpa [updateReservation, Table.lookup_update_other hf hne] using hfound
  cases hwrites with
  | nothing => exact hfound
  | configured accepts => exact hfound
  | tenantConfigured accepts => exact hfound
  | retained keep => exact hfound
  | swept isCall opens => exact hsweep _
  | reserved reserves => exact Table.lookup_append_of_some (hsweep _)
  | charged isCall chargeable scopeSum tenantSum audit =>
    exact hother chargeable.found chargeable.unfinished fun r hr => hr
  | overflowed isCall chargeable first => exact hfound
  | extended found tenant active unexpired ttl renewed lifetime deadline =>
    exact hother found (.inl active) fun r hr => hr
  | released found tenant unfinished clear => exact hother found unfinished fun r hr => hr
  | sweptAll nowMs => exact hsweep _

/-- The settled total of a bucket, as the sum over its settled rows. -/
theorem Bucket.tally_eq_sum (b : Bucket) (rows : List ReservationRow) :
    Table.tally b.weight rows = ((rows.filter fun row =>
      decide (row.status = .settled) && b.has row).map ReservationRow.cost).sum := by
  rw [Table.sum_filter_map]
  exact Table.tally_congr fun row _ => by simp [Bucket.weight]

/-- After any run, each stored total is the sum of the costs of exactly the settled
reservations of its bucket, every settled row has its cost, and no settled or released row
changes in any continuation. -/
theorem budget_conservation (zones : Zones) (events : List Event) :
    (∀ scope period, (spentFor (run zones events Db.empty) scope period).val =
      (((run zones events Db.empty).reservations.filter fun row =>
        decide (row.status = .settled) && decide (row.scope = scope ∧ row.period = period)).map
          ReservationRow.cost).sum) ∧
    (∀ tenantId period, (tenantSpentFor (run zones events Db.empty) tenantId period).val =
      (((run zones events Db.empty).reservations.filter fun row =>
        decide (row.status = .settled) &&
          decide (row.scope.tenantId = tenantId ∧ row.tenantPeriod = period)).map
          ReservationRow.cost).sum) ∧
    (∀ row ∈ (run zones events Db.empty).reservations, row.status = .settled →
      ∃ cost : I64, row.actualCostMinor = some cost ∧ 0 ≤ cost.val) ∧
    ∀ (later : List Event) (id : String) (row : ReservationRow),
      Table.lookup ReservationRow.id id (run zones events Db.empty).reservations = some row →
      row.status = .settled ∨ row.status = .released →
      Table.lookup ReservationRow.id id (run zones later (run zones events Db.empty)).reservations =
        some row := by
  have h := conserved_run zones events
  refine ⟨?_, ?_, h.costs, ?_⟩
  · intro scope period
    exact (h.totals (.ofScope scope period)).trans (Bucket.tally_eq_sum _ _)
  · intro tenantId period
    exact (h.totals (.ofTenant tenantId period)).trans (Bucket.tally_eq_sum _ _)
  · intro later id row hfound hfinished
    exact run_invariant (fun db => Table.lookup ReservationRow.id id db.reservations = some row)
      (fun db call hrow => finished_kept (exec_writes zones call db) hrow hfinished) hfound later

end Ledger
