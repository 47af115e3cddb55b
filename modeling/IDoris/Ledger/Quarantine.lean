import IDoris.Ledger.Conservation
import IDoris.Ledger.Replay

/-!
# The quarantine of a charge that does not fit

A cost that would leave the 64-bit range is kept in a side table. From then on its
tenant gets no admission and its reservation is neither charged nor released, while
no other tenant notices.
-/
namespace Ledger

open Bounded Transaction

variable {zones : Zones} {db db' : Db} {overflow : AmountOverflow} {tenantId : String}

/-- Each kept cost belongs to one reservation of its tenant that is not finished. -/
structure Pending (db : Db) : Prop where
  distinct : (db.budgetAmountOverflows.map AmountOverflow.reservationId).Nodup
  unfinished : ∀ overflow ∈ db.budgetAmountOverflows, ∃ row,
    Table.lookup ReservationRow.id overflow.reservationId db.reservations = some row ∧
      row.scope.tenantId = overflow.tenantId ∧ row.unfinished

theorem pending_empty : Pending Db.empty := ⟨by simp [Db.empty], by simp [Db.empty]⟩

theorem rejectAmountOverflow_reservation {id : String} :
    rejectAmountOverflow db tenantId (some id) = .ok () ↔
      ∀ overflow ∈ db.budgetAmountOverflows,
        overflow.tenantId = tenantId → overflow.reservationId ≠ id := by
  unfold rejectAmountOverflow
  split
  · rename_i found hfound
    have hmem := List.mem_of_find?_eq_some hfound
    have hboth := List.find?_some hfound
    simp only [Bool.and_eq_true, decide_eq_true_eq] at hboth
    simp only [reduceCtorEq, false_iff, not_forall, not_not]
    exact ⟨found, hmem, hboth.1, hboth.2⟩
  · rename_i hnone
    simpa using hnone

/-- The lookup of a kept cost's reservation finds it unfinished after the sweeps. -/
theorem unfinished_expireIf {row : ReservationRow} {due : Bool} (h : row.unfinished) :
    (row.expireIf due).unfinished := by
  unfold ReservationRow.unfinished at h ⊢
  rw [ReservationRow.expireIf_active, ReservationRow.expireIf_expired]
  cases due <;> simp <;> tauto

/-- Every call leaves a reservation with a kept cost unfinished. -/
theorem Pending.kept {call : Call} (h : Pending db) (hwrites : Writes zones db call db')
    (hoverflow : overflow ∈ db.budgetAmountOverflows) :
    ∃ row, Table.lookup ReservationRow.id overflow.reservationId db'.reservations = some row ∧
      row.scope.tenantId = overflow.tenantId ∧ row.unfinished := by
  obtain ⟨row, hfound, htenant, hunfinished⟩ := h.unfinished overflow hoverflow
  have hsweep : ∀ due, Table.lookup ReservationRow.id overflow.reservationId
      (sweepWhere due db).reservations = some (row.expireIf (due row)) := by
    intro due
    rw [lookup_sweepWhere, hfound, Option.map_some]
  -- a call that finishes a reservation has found no cost kept for it
  have hother : ∀ {other : ReservationRow} {key tenant : String}
      {f : ReservationRow → ReservationRow},
      Table.lookup ReservationRow.id key db.reservations = some other →
      other.scope.tenantId = tenant → rejectAmountOverflow db tenant (some key) = .ok () →
      (∀ r, r.id = key → (f r).id = key) →
      Table.lookup ReservationRow.id overflow.reservationId
        (Table.update ReservationRow.id key f db.reservations) = some row := by
    intro other key tenant f hkey hother hclear hf
    have hne : overflow.reservationId ≠ key := by
      rintro rfl
      rw [hfound, Option.some.injEq] at hkey
      subst hkey
      exact rejectAmountOverflow_reservation.mp hclear overflow hoverflow
        (htenant.symm.trans hother) rfl
    rwa [Table.lookup_update_other hf hne]
  cases hwrites with
  | nothing => exact ⟨row, hfound, htenant, hunfinished⟩
  | configured accepts => exact ⟨row, hfound, htenant, hunfinished⟩
  | tenantConfigured accepts => exact ⟨row, hfound, htenant, hunfinished⟩
  | retained keep => exact ⟨row, hfound, htenant, hunfinished⟩
  | swept isCall opens => exact ⟨_, hsweep _, htenant, unfinished_expireIf hunfinished⟩
  | reserved reserves =>
    exact ⟨_, Table.lookup_append_of_some (hsweep _), htenant, unfinished_expireIf hunfinished⟩
  | charged isCall chargeable scopeSum tenantSum audit =>
    exact ⟨row, hother chargeable.found chargeable.tenant chargeable.clear fun r hr => hr, htenant,
      hunfinished⟩
  | overflowed isCall chargeable first => exact ⟨row, hfound, htenant, hunfinished⟩
  | extended found tenant active unexpired ttl renewed lifetime deadline =>
    rename_i reservationId _ _ other newExpires
    by_cases hid : overflow.reservationId = reservationId
    · rw [hid, found, Option.some.injEq] at hfound
      subst hfound
      refine ⟨{ other with expiresAtMs := newExpires }, ?_, htenant, hunfinished⟩
      rw [hid]
      exact Table.lookup_update_self (fun r hr => hr) found
    · refine ⟨row, ?_, htenant, hunfinished⟩
      have hkept : Table.lookup ReservationRow.id overflow.reservationId
          (Table.update ReservationRow.id reservationId
            (fun r => { r with expiresAtMs := newExpires }) db.reservations) =
          Table.lookup ReservationRow.id overflow.reservationId db.reservations :=
        Table.lookup_update_other (fun r hr => hr) hid
      exact hkept.trans hfound
  | released found tenant unfinished clear =>
    exact ⟨row, hother found tenant clear fun r hr => hr, htenant, hunfinished⟩
  | sweptAll nowMs => exact ⟨_, hsweep _, htenant, unfinished_expireIf hunfinished⟩

/-- The side table only grows, by a cost of a reservation that had none. -/
theorem Writes.overflows {call : Call} (h : Writes zones db call db') :
    db'.budgetAmountOverflows = db.budgetAmountOverflows ∨
    ∃ (s : Settlement) (row : ReservationRow), Chargeable db s row ∧
      Table.lookup AmountOverflow.reservationId s.reservationId db.budgetAmountOverflows = none ∧
      db'.budgetAmountOverflows = db.budgetAmountOverflows ++
        [⟨s.reservationId, s.tenantId, s.actualCostMinor, s.nowMs⟩] := by
  cases h with
  | overflowed isCall chargeable first => exact .inr ⟨_, _, chargeable, first, rfl⟩
  | _ => exact .inl rfl

theorem Pending.writes {call : Call} (h : Pending db) (hwrites : Writes zones db call db') :
    Pending db' := by
  obtain hsame | ⟨s, row, hchargeable, hfirst, hgrown⟩ := hwrites.overflows
  · constructor
    · rw [hsame]
      exact h.distinct
    · intro overflow hoverflow
      rw [hsame] at hoverflow
      exact h.kept hwrites hoverflow
  · constructor
    · rw [hgrown, List.map_append, List.map_singleton, List.nodup_append]
      refine ⟨h.distinct, List.nodup_singleton _, ?_⟩
      intro id hid other hother
      obtain ⟨old, hold, rfl⟩ := List.mem_map.mp hid
      rw [List.mem_singleton.mp hother]
      exact Table.lookup_eq_none.mp hfirst old hold
    · intro overflow hoverflow
      rw [hgrown] at hoverflow
      obtain hold | hnew := List.mem_append.mp hoverflow
      · exact h.kept hwrites hold
      · rw [List.mem_singleton.mp hnew]
        -- only the side table is written with a new cost
        have hrows : db'.reservations = db.reservations := by
          cases hwrites with
          | overflowed => rfl
          | nothing | configured | tenantConfigured | retained | swept | reserved | charged
            | extended | released | sweptAll => exact absurd hgrown (by simp [Settlement.charged,
              retainTenants, sweepExpiredScope, sweepAll, sweepWhere, updateReservation,
              upsertConfig, upsertTenantConfig])
        rw [hrows]
        exact ⟨row, hchargeable.found, hchargeable.tenant, hchargeable.unfinished⟩

theorem pending_run (zones : Zones) (events : List Event) :
    Pending (run zones events Db.empty) :=
  run_invariant Pending (fun db call h => h.writes (exec_writes zones call db)) pending_empty events

/-- A kept cost stays in every continuation. -/
theorem overflow_kept (zones : Zones) (events : List Event)
    (h : overflow ∈ db.budgetAmountOverflows) :
    overflow ∈ (run zones events db).budgetAmountOverflows := by
  refine run_invariant (fun db => overflow ∈ db.budgetAmountOverflows) ?_ h events
  intro db call hmem
  obtain hsame | ⟨_, _, -, -, hgrown⟩ := (exec_writes zones call db).overflows
  · rwa [hsame]
  · rw [hgrown]
    exact List.mem_append_left _ hmem

/-- It is the only one of its reservation. -/
theorem Pending.only (h : Pending db) (hoverflow : overflow ∈ db.budgetAmountOverflows) :
    db.budgetAmountOverflows.filter
      (fun other => decide (other.reservationId = overflow.reservationId)) = [overflow] := by
  obtain ⟨before, after, hsplit⟩ := List.append_of_mem hoverflow
  have hdistinct := h.distinct
  rw [hsplit, List.map_append, List.map_cons, List.nodup_append, List.nodup_cons] at hdistinct
  obtain ⟨-, ⟨hafter, -⟩, hbefore⟩ := hdistinct
  have hnone : before.filter
      (fun other => decide (other.reservationId = overflow.reservationId)) = [] := by
    rw [List.filter_eq_nil_iff]
    intro other hother hid
    exact hbefore _ (List.mem_map_of_mem hother) _ List.mem_cons_self (of_decide_eq_true hid)
  have hrest : after.filter
      (fun other => decide (other.reservationId = overflow.reservationId)) = [] := by
    rw [List.filter_eq_nil_iff]
    intro other hother hid
    exact hafter (List.mem_map.mpr ⟨other, hother, of_decide_eq_true hid⟩)
  rw [hsplit, List.filter_append, hnone, List.filter_cons_of_pos (by simp), hrest]
  rfl

section Refusals

/-- The select by reservation finds the kept cost. -/
theorem Pending.rejects (h : Pending db) (hoverflow : overflow ∈ db.budgetAmountOverflows) :
    rejectAmountOverflow db overflow.tenantId (some overflow.reservationId) =
      .error (.amountOverflow overflow.reservationId overflow.actualCostMinor) := by
  unfold rejectAmountOverflow
  split
  · rename_i found hfound
    have hmem := List.mem_of_find?_eq_some hfound
    have hboth := List.find?_some hfound
    simp only [Bool.and_eq_true, decide_eq_true_eq] at hboth
    have honly : found ∈ db.budgetAmountOverflows.filter
        (fun other => decide (other.reservationId = overflow.reservationId)) :=
      List.mem_filter.mpr ⟨hmem, by simpa using hboth.2⟩
    rw [h.only hoverflow, List.mem_singleton] at honly
    rw [honly]
  · rename_i hnone
    exact absurd (List.find?_eq_none.mp hnone overflow hoverflow) (by simp)

/-- What a refused `settle` answers about a quarantined reservation. -/
def quarantineAnswer (s : Settlement) (overflow : AmountOverflow) : BudgetError :=
  if s.actualCostMinor.val < 0 then .invalidActualCost s.actualCostMinor
  else if s.tenantId = overflow.tenantId then
    .amountOverflow overflow.reservationId overflow.actualCostMinor
  else .tenantMismatch s.reservationId

theorem Pending.settle_eq (h : Pending db) {s : Settlement}
    (hoverflow : overflow ∈ db.budgetAmountOverflows)
    (hid : s.reservationId = overflow.reservationId) :
    settle s.tenantId s.reservationId s.actualCostMinor s.nowMs s.eventId db =
      (.error (quarantineAnswer s overflow), db) := by
  obtain ⟨row, hfound, htenant, hunfinished⟩ := h.unfinished overflow hoverflow
  by_cases hcost : s.actualCostMinor.val < 0
  · simp [settle, quarantineAnswer, refuseIf, hcost, bind, Except.bind]
  · by_cases hsame : s.tenantId = overflow.tenantId
    · have hrow : findReservation db s.tenantId s.reservationId = .ok row :=
        findReservation_eq_ok.mpr ⟨hid ▸ hfound, htenant.trans hsame.symm⟩
      obtain ⟨late, hlate⟩ : ∃ late, lateOf row s.nowMs = .ok late := by
        obtain hstatus | hstatus := hunfinished
        · exact ⟨_, by rw [lateOf, hstatus]⟩
        · exact ⟨_, by rw [lateOf, hstatus]⟩
      have hreject := h.rejects hoverflow
      rw [← hsame, ← hid] at hreject
      have hanswer : quarantineAnswer s overflow =
          .amountOverflow s.reservationId overflow.actualCostMinor := by
        simp [quarantineAnswer, hcost, hsame, hid]
      rw [hanswer]
      simp [settle, refuseIf, hcost, bind, Except.bind, hrow, hlate, hreject]
    · have hrow : findReservation db s.tenantId s.reservationId =
          .error (.tenantMismatch s.reservationId) := by
        have hother : ¬row.scope.tenantId = s.tenantId := by
          rw [htenant]
          exact fun heq => hsame heq.symm
        rw [findReservation, hid, hfound]
        exact if_neg hother
      simp [settle, quarantineAnswer, refuseIf, hcost, hsame, bind, Except.bind, hrow]

theorem Pending.release_eq (h : Pending db) (hoverflow : overflow ∈ db.budgetAmountOverflows)
    (tenantId : String) :
    ∃ e, release tenantId overflow.reservationId db = (.error e, db) := by
  obtain ⟨row, hfound, htenant, hunfinished⟩ := h.unfinished overflow hoverflow
  by_cases hsame : tenantId = overflow.tenantId
  · have hrow : findReservation db tenantId overflow.reservationId = .ok row :=
      findReservation_eq_ok.mpr ⟨hfound, htenant.trans hsame.symm⟩
    have hreject := h.rejects hoverflow
    refine ⟨.amountOverflow overflow.reservationId overflow.actualCostMinor, ?_⟩
    subst hsame
    obtain hstatus | hstatus := hunfinished <;>
      simp [release, hrow, hstatus, hreject, bind, Except.bind]
  · have hother : ¬row.scope.tenantId = tenantId := by
      rw [htenant]
      exact fun heq => hsame heq.symm
    refine ⟨.tenantMismatch overflow.reservationId, ?_⟩
    simp [release, findReservation, hfound, hother, bind, Except.bind]

/-- An admission of a tenant with a kept cost fails, whether or not it would persist. -/
theorem admission_quarantined (zones : Zones) (hoverflow : overflow ∈ db.budgetAmountOverflows)
    {a : Admit} (htenant : a.scope.tenantId = overflow.tenantId) : ∃ e,
      (∀ persist id, admitReservation zones a.ledger a.scope a.estimatedCost persist id a.clock db =
        (.error e, db)) ∧
      (validateScope a.scope = .error e ∨ estimateOf a.estimatedCost = .error e ∨
        ∃ other ∈ db.budgetAmountOverflows, other.tenantId = overflow.tenantId ∧
          e = .amountOverflow other.reservationId other.actualCostMinor) := by
  unfold admitReservation
  cases hscope : validateScope a.scope with
  | error e => exact ⟨e, fun _ _ => rfl, .inl rfl⟩
  | ok _ =>
    cases hestimate : estimateOf a.estimatedCost with
    | error e => exact ⟨e, fun _ _ => rfl, .inr (.inl rfl)⟩
    | ok estimate =>
      have hfind : ∃ other, db.budgetAmountOverflows.find? (fun row =>
          decide (row.tenantId = a.scope.tenantId) && true) = some other := by
        rw [← Option.isSome_iff_exists, List.find?_isSome]
        exact ⟨overflow, hoverflow, by simp [htenant]⟩
      obtain ⟨other, hother⟩ := hfind
      have hmem := List.mem_of_find?_eq_some hother
      have hsame := List.find?_some hother
      simp only [Bool.and_true, decide_eq_true_eq] at hsame
      refine ⟨.amountOverflow other.reservationId other.actualCostMinor, fun _ _ => ?_,
        .inr (.inr ⟨other, hmem, hsame.trans htenant, rfl⟩)⟩
      have hreject : rejectAmountOverflow db a.scope.tenantId none =
          .error (.amountOverflow other.reservationId other.actualCostMinor) := by
        rw [rejectAmountOverflow, hother]
      simp [openAdmission, hreject, bind, Except.bind]

end Refusals

section Isolation

/-- The ledger file without the kept costs of one tenant. -/
def Db.clear (tenantId : String) (db : Db) : Db :=
  { db with budgetAmountOverflows :=
      db.budgetAmountOverflows.filter fun overflow => decide (overflow.tenantId ≠ tenantId) }

variable {α : Type} {other : String}

/-- A transaction that does not see the kept costs of the tenant. -/
theorem close_clear {body body' : Except BudgetError (Outcome α)}
    (h : Agree Eq (fun done done' => done.1 = done'.1 ∧ done.2.clear tenantId = done'.2) body
      body') :
    close (db.clear tenantId) body' = ((close db body).1, (close db body).2.clear tenantId) := by
  obtain ⟨hanswer, hdb⟩ := Agree.close (R := fun done done' : Db => done.clear tenantId = done')
    (A := Eq) h rfl fun _ _ he => congrArg Except.error he
  rw [hanswer, hdb]

theorem rejectAmountOverflow_clear (hother : other ≠ tenantId) (id : Option String) :
    rejectAmountOverflow (db.clear tenantId) other id = rejectAmountOverflow db other id := by
  have hfind : ∀ p : AmountOverflow → Bool,
      ((db.budgetAmountOverflows.filter fun row => decide (row.tenantId ≠ tenantId)).find?
        fun row => decide (row.tenantId = other) && p row) =
      db.budgetAmountOverflows.find? fun row => decide (row.tenantId = other) && p row := by
    intro p
    rw [List.find?_filter]
    congr 1
    funext row
    by_cases h : row.tenantId = other
    · simp [h, hother]
    · simp [h]
  unfold rejectAmountOverflow Db.clear
  rw [hfind]

theorem configure_clear (scope : BudgetScope) (limitMinor : I64) (billingTimezone : String)
    (nowMs : I64) :
    configure scope limitMinor billingTimezone nowMs (db.clear tenantId) =
      ((configure scope limitMinor billingTimezone nowMs db).1,
        (configure scope limitMinor billingTimezone nowMs db).2.clear tenantId) := by
  refine close_clear ?_
  iterate 6 refine Agree.bind_same (fun _ => rfl) fun _ _ => ?_
  exact .ok ⟨rfl, rfl⟩

theorem configureTenant_clear (tenantId' : String) (limitMinor : I64) (billingTimezone : String)
    (gate : SpendGate) (nowMs : I64) :
    configureTenant tenantId' limitMinor billingTimezone gate nowMs (db.clear tenantId) =
      ((configureTenant tenantId' limitMinor billingTimezone gate nowMs db).1,
        (configureTenant tenantId' limitMinor billingTimezone gate nowMs db).2.clear tenantId) := by
  refine close_clear ?_
  iterate 5 refine Agree.bind_same (fun _ => rfl) fun _ _ => ?_
  exact .ok ⟨rfl, rfl⟩

theorem openAdmission_clear {scope : BudgetScope} (hother : scope.tenantId ≠ tenantId)
    (nowMs : I64) :
    Agree Eq (fun adm adm' => adm' = { adm with swept := adm.swept.clear tenantId })
      (openAdmission zones scope nowMs db) (openAdmission zones scope nowMs (db.clear tenantId)) := by
  unfold openAdmission
  rw [rejectAmountOverflow_clear hother]
  iterate 4 refine Agree.bind_same (fun _ => rfl) fun _ _ => ?_
  exact .ok rfl

theorem admitReservation_clear {a : Admit} (hother : a.scope.tenantId ≠ tenantId) (persist : Bool)
    (id : String) :
    admitReservation zones a.ledger a.scope a.estimatedCost persist id a.clock (db.clear tenantId) =
      ((admitReservation zones a.ledger a.scope a.estimatedCost persist id a.clock db).1,
        (admitReservation zones a.ledger a.scope a.estimatedCost persist id a.clock
          db).2.clear tenantId) := by
  refine close_clear ?_
  refine Agree.bind_same (fun _ => rfl) fun _ _ => ?_
  refine Agree.bind_same (fun _ => rfl) fun estimate _ => ?_
  refine (openAdmission_clear hother _).bind fun adm adm' hadm => ?_
  subst hadm
  refine Agree.bind_same (fun _ => rfl) fun scopeCheck _ => ?_
  cases scopeCheck with
  | some rejection => exact .ok ⟨rfl, rfl⟩
  | none =>
    refine Agree.bind_same (fun _ => rfl) fun tenantCheck _ => ?_
    cases tenantCheck with
    | some rejection => exact .ok ⟨rfl, rfl⟩
    | none =>
      cases persist with
      | false => exact .ok ⟨rfl, rfl⟩
      | true =>
        refine Agree.bind_same (fun _ => rfl) fun expires _ => ?_
        have hinsert : ∀ row, Agree Eq (fun done done' => done.clear tenantId = done')
            (insertReservation adm.swept row)
            (insertReservation (adm.swept.clear tenantId) row) := by
          intro row
          unfold insertReservation
          have hsame : (adm.swept.clear tenantId).reservations = adm.swept.reservations := rfl
          rw [hsame]
          cases Table.lookup ReservationRow.id row.id adm.swept.reservations with
          | none => exact .ok rfl
          | some found => exact .error rfl
        refine (hinsert _).bind fun done done' hdone => ?_
        subst hdone
        refine Agree.bind_same (fun _ => rfl) fun _ _ => ?_
        exact .ok ⟨rfl, rfl⟩

theorem reserve_clear {a : Admit} (hother : a.scope.tenantId ≠ tenantId) :
    reserve zones a.ledger a.scope a.estimatedCost a.id a.clock (db.clear tenantId) =
      ((reserve zones a.ledger a.scope a.estimatedCost a.id a.clock db).1,
        (reserve zones a.ledger a.scope a.estimatedCost a.id a.clock db).2.clear tenantId) := by
  simp only [reserve, admitReservation_clear hother]

theorem checkAdmission_clear {a : Admit} (hother : a.scope.tenantId ≠ tenantId) :
    checkAdmission zones a.ledger a.scope a.estimatedCost a.clock (db.clear tenantId) =
      ((checkAdmission zones a.ledger a.scope a.estimatedCost a.clock db).1,
        (checkAdmission zones a.ledger a.scope a.estimatedCost a.clock db).2.clear tenantId) := by
  simp only [checkAdmission, admitReservation_clear hother]

theorem charge_clear (row : ReservationRow) (other eventId : String)
    (cost scopeTotal tenantTotal nowMs : I64) :
    Agree Eq (fun done done' => done.clear tenantId = done')
      (charge row other cost scopeTotal tenantTotal eventId nowMs db)
      (charge row other cost scopeTotal tenantTotal eventId nowMs (db.clear tenantId)) := by
  unfold charge upsertBudgetPeriod upsertTenantPeriod
  by_cases hscope : scopeTotal.val < 0
  · simp only [hscope, if_true]
    exact .error rfl
  · by_cases htenant : tenantTotal.val < 0
    · simp only [hscope, htenant, if_true, if_false]
      exact .error rfl
    · simp only [hscope, htenant, if_false]
      by_cases hover : 0 < (atLeastZero (checkedSubI64 cost row.reservedMinor)).val
      · simp only [hover, if_true, insertOverageEvent]
        cases hfound : Table.lookup OverageEvent.id eventId db.budgetOverageEvents with
        | none =>
          simp only [bind, Except.bind, updateReservation, Db.clear, hfound]
          exact .ok rfl
        | some found =>
          simp only [bind, Except.bind, updateReservation, Db.clear, hfound]
          exact .error rfl
      · simp only [hover, if_false]
        exact .ok rfl

/-- With no cost kept for it by its own tenant, a reservation has none kept at all. -/
theorem Pending.lookup_eq_none (h : Pending db) {row : ReservationRow} {id : String}
    (hfound : Table.lookup ReservationRow.id id db.reservations = some row)
    (hclear : rejectAmountOverflow db row.scope.tenantId (some id) = .ok ()) :
    Table.lookup AmountOverflow.reservationId id db.budgetAmountOverflows = none := by
  rw [Table.lookup_eq_none]
  intro overflow hoverflow hid
  obtain ⟨found, hlookup, htenant, -⟩ := h.unfinished overflow hoverflow
  rw [hid, hfound, Option.some.injEq] at hlookup
  subst hlookup
  exact rejectAmountOverflow_reservation.mp hclear overflow hoverflow htenant.symm hid

theorem Pending.settle_clear (h : Pending db) {s : Settlement} (hother : s.tenantId ≠ tenantId) :
    settle s.tenantId s.reservationId s.actualCostMinor s.nowMs s.eventId (db.clear tenantId) =
      ((settle s.tenantId s.reservationId s.actualCostMinor s.nowMs s.eventId db).1,
        (settle s.tenantId s.reservationId s.actualCostMinor s.nowMs s.eventId
          db).2.clear tenantId) := by
  refine close_clear ?_
  rw [rejectAmountOverflow_clear hother]
  refine Agree.bind_same (fun _ => rfl) fun _ _ => ?_
  refine Agree.bind_same (fun _ => rfl) fun row hrow => ?_
  refine Agree.bind_same (fun _ => rfl) fun late _ => ?_
  refine Agree.bind_same (fun _ => rfl) fun _ hclear => ?_
  obtain ⟨hfound, htenant⟩ := findReservation_eq_ok.mp hrow
  have hnone := h.lookup_eq_none hfound (htenant ▸ hclear)
  have hnone' : Table.lookup AmountOverflow.reservationId s.reservationId
      (db.clear tenantId).budgetAmountOverflows = none := by
    rw [Table.lookup_eq_none] at hnone ⊢
    exact fun overflow hmem => hnone overflow (List.mem_of_mem_filter hmem)
  have hoverflow : Agree Eq
      (fun done done' : Outcome SettleReceipt => done.1 = done'.1 ∧ done.2.clear tenantId = done'.2)
      (do
        let db ← insertAmountOverflow db ⟨s.reservationId, s.tenantId, s.actualCostMinor, s.nowMs⟩
        pure (.error (.amountOverflow s.reservationId s.actualCostMinor), db))
      (do
        let db ← insertAmountOverflow (db.clear tenantId)
          ⟨s.reservationId, s.tenantId, s.actualCostMinor, s.nowMs⟩
        pure (.error (.amountOverflow s.reservationId s.actualCostMinor), db)) := by
    unfold insertAmountOverflow
    rw [hnone, hnone']
    refine .ok ⟨rfl, ?_⟩
    simp [Db.clear, List.filter_append, hother]
  have hspent : spentFor (db.clear tenantId) row.scope row.period =
      spentFor db row.scope row.period := rfl
  have htotal : tenantSpentFor (db.clear tenantId) s.tenantId row.tenantPeriod =
      tenantSpentFor db s.tenantId row.tenantPeriod := rfl
  rw [hspent, htotal]
  split
  · refine (charge_clear ..).bind fun done done' hdone => ?_
    exact .ok ⟨rfl, hdone⟩
  · exact hoverflow

theorem extend_clear (ledger : BudgetLedger) (other id : String) (additionalTtlMs : I64)
    (clock : Readings) :
    extend ledger other id additionalTtlMs clock (db.clear tenantId) =
      ((extend ledger other id additionalTtlMs clock db).1,
        (extend ledger other id additionalTtlMs clock db).2.clear tenantId) := by
  refine close_clear ?_
  iterate 8 refine Agree.bind_same (fun _ => rfl) fun _ _ => ?_
  exact .ok ⟨rfl, rfl⟩

theorem release_clear (hother : other ≠ tenantId) (id : String) :
    release other id (db.clear tenantId) =
      ((release other id db).1, (release other id db).2.clear tenantId) := by
  refine close_clear ?_
  rw [rejectAmountOverflow_clear hother]
  refine Agree.bind_same (fun _ => rfl) fun row _ => ?_
  cases row.status with
  | released => exact .ok ⟨rfl, rfl⟩
  | settled => exact .error rfl
  | active | expired =>
    refine Agree.bind_same (fun _ => rfl) fun _ _ => ?_
    exact .ok ⟨rfl, rfl⟩

/-- A call that is not made for the tenant answers and writes the same without its kept costs. -/
theorem Pending.isolated (h : Pending db) {call : Call} (hcall : call.tenant ≠ some tenantId) :
    answerOf zones call (db.clear tenantId) = answerOf zones call db ∧
      exec zones call (db.clear tenantId) = (exec zones call db).clear tenantId := by
  cases call with
  | configure scope limitMinor billingTimezone nowMs =>
    simp only [answerOf, exec, configure_clear, and_self]
  | configureTenant other limitMinor billingTimezone gate nowMs =>
    simp only [answerOf, exec, configureTenant_clear, and_self]
  | retainTenants keep => exact ⟨rfl, rfl⟩
  | reserve a =>
    have hother : a.scope.tenantId ≠ tenantId := by simpa [Call.tenant] using hcall
    simp only [answerOf, exec, reserve_clear hother, and_self]
  | checkAdmission a =>
    have hother : a.scope.tenantId ≠ tenantId := by simpa [Call.tenant] using hcall
    simp only [answerOf, exec, checkAdmission_clear hother, and_self]
  | settle s | replaySettlement s =>
    have hother : s.tenantId ≠ tenantId := by simpa [Call.tenant] using hcall
    simp only [answerOf, exec, h.settle_clear hother, and_self]
  | extend ledger other id additionalTtlMs clock =>
    simp only [answerOf, exec, extend_clear, and_self]
  | release other id =>
    have hother : other ≠ tenantId := by simpa [Call.tenant] using hcall
    simp only [answerOf, exec, release_clear hother, and_self]
  | sweepExpired nowMs => exact ⟨rfl, rfl⟩

end Isolation

section Result

/-- What holds at every state after a cost was kept. -/
structure Quarantined (zones : Zones) (overflow : AmountOverflow) (db : Db) : Prop where
  kept : db.budgetAmountOverflows.filter
    (fun other => decide (other.reservationId = overflow.reservationId)) = [overflow]
  admissions : ∀ a : Admit, a.scope.tenantId = overflow.tenantId → ∃ e,
    reserve zones a.ledger a.scope a.estimatedCost a.id a.clock db = (.error e, db) ∧
      checkAdmission zones a.ledger a.scope a.estimatedCost a.clock db = (.error e, db) ∧
      (validateScope a.scope = .error e ∨ estimateOf a.estimatedCost = .error e ∨
        ∃ id cost, e = .amountOverflow id cost)
  settles : ∀ s : Settlement, s.reservationId = overflow.reservationId → ∃ e,
    settle s.tenantId s.reservationId s.actualCostMinor s.nowMs s.eventId db = (.error e, db)
  replays : ∀ (s : Settlement) (between : List Event), s.reservationId = overflow.reservationId →
    ∃ e, replaySettlement zones s between db = (.error e, run zones between db)
  releases : ∀ tenantId, ∃ e, release tenantId overflow.reservationId db = (.error e, db)
  unfinished : ∃ row, Table.lookup ReservationRow.id overflow.reservationId db.reservations =
    some row ∧ row.status ≠ .settled ∧ row.status ≠ .released
  isolated : ∀ call : Call, call.tenant ≠ some overflow.tenantId →
    answerOf zones call (db.clear overflow.tenantId) = answerOf zones call db ∧
      exec zones call (db.clear overflow.tenantId) =
        (exec zones call db).clear overflow.tenantId

theorem Pending.replay_eq (h : Pending db) {s : Settlement} (between : List Event)
    (hoverflow : overflow ∈ db.budgetAmountOverflows)
    (hid : s.reservationId = overflow.reservationId) :
    ∃ e, replaySettlement zones s between db = (.error e, run zones between db) := by
  refine ⟨quarantineAnswer s overflow, ?_⟩
  have hanswer : ∀ later, replayAnswer s.tenantId s.reservationId s.actualCostMinor
      (.error (quarantineAnswer s overflow)) later = .error (quarantineAnswer s overflow) := by
    intro later
    unfold quarantineAnswer
    split
    · rfl
    · split <;> rfl
  simp only [replaySettlement, h.settle_eq hoverflow hid, hanswer]

theorem admissions_refused (h : overflow ∈ db.budgetAmountOverflows) {a : Admit}
    (htenant : a.scope.tenantId = overflow.tenantId) : ∃ e,
    reserve zones a.ledger a.scope a.estimatedCost a.id a.clock db = (.error e, db) ∧
      checkAdmission zones a.ledger a.scope a.estimatedCost a.clock db = (.error e, db) ∧
      (validateScope a.scope = .error e ∨ estimateOf a.estimatedCost = .error e ∨
        ∃ id cost, e = .amountOverflow id cost) := by
  obtain ⟨e, hrefused, he⟩ := admission_quarantined zones h htenant
  refine ⟨e, ?_, ?_, he.imp_right (.imp_right ?_)⟩
  · simp only [reserve, hrefused]
    rfl
  · simp only [checkAdmission, hrefused]
    rfl
  · rintro ⟨other, -, -, heq⟩
    exact ⟨_, _, heq⟩

theorem Pending.quarantined (h : Pending db) (hoverflow : overflow ∈ db.budgetAmountOverflows) :
    Quarantined zones overflow db := by
  constructor
  · exact h.only hoverflow
  · intro a htenant
    exact admissions_refused hoverflow htenant
  · intro s hid
    exact ⟨_, h.settle_eq hoverflow hid⟩
  · intro s between hid
    exact h.replay_eq between hoverflow hid
  · intro tenantId
    exact h.release_eq hoverflow tenantId
  · obtain ⟨row, hfound, -, hunfinished⟩ := h.unfinished overflow hoverflow
    exact ⟨row, hfound, hunfinished.not_settled, hunfinished.not_released⟩
  · intro call hcall
    exact h.isolated hcall

theorem rejectAmountOverflow_eq_error {id : String} {e : BudgetError}
    (h : rejectAmountOverflow db tenantId (some id) = .error e) :
    ∃ overflow ∈ db.budgetAmountOverflows, overflow.reservationId = id ∧
      overflow.tenantId = tenantId ∧ e = .amountOverflow id overflow.actualCostMinor := by
  unfold rejectAmountOverflow at h
  split at h
  · rename_i found hfound
    cases h
    have hboth := List.find?_some hfound
    simp only [Bool.and_eq_true, decide_eq_true_eq] at hboth
    exact ⟨found, List.mem_of_find?_eq_some hfound, hboth.2, hboth.1, by rw [hboth.2]⟩
  · cases h

/-- A reported overflow that wrote nothing was kept before. -/
theorem settle_reports {s : Settlement} {cost : I64}
    (h : settle s.tenantId s.reservationId s.actualCostMinor s.nowMs s.eventId db =
      (.error (.amountOverflow s.reservationId cost), db)) :
    ∃ overflow ∈ db.budgetAmountOverflows, overflow.reservationId = s.reservationId ∧
      overflow.tenantId = s.tenantId ∧ overflow.actualCostMinor = cost := by
  obtain h | ⟨e, h, he, -⟩ := close_cases h
  · simp only [bind_eq_ok] at h
    obtain ⟨_, -, row, -, late, -, _, -, h⟩ := h
    split at h
    · simp only [bind_eq_ok, pure, Except.pure, Except.ok.injEq, Prod.mk.injEq] at h
      obtain ⟨_, -, hanswer, -⟩ := h
      unfold settleAnswer at hanswer
      split at hanswer <;> cases hanswer
    · simp only [bind_eq_ok, insertAmountOverflow_eq_ok, pure, Except.pure, Except.ok.injEq,
        Prod.mk.injEq] at h
      obtain ⟨_, ⟨-, rfl⟩, -, hgrown⟩ := h
      have := congrArg (fun db => db.budgetAmountOverflows.length) hgrown
      simp at this
  · rw [Except.error.injEq] at he
    subst he
    simp only [bind_eq_error, refuseIf_eq_error] at h
    obtain ⟨-, h⟩ | ⟨_, -, h | ⟨row, -, h | ⟨late, -, h | ⟨_, -, h⟩⟩⟩⟩ := h
    · cases h
    · obtain h | h := findReservation_error h <;> cases h
    · cases lateOf_error h
    · obtain ⟨overflow, hmem, hid, htenant, heq⟩ := rejectAmountOverflow_eq_error h
      rw [BudgetError.amountOverflow.injEq] at heq
      exact ⟨overflow, hmem, hid, htenant, heq.2.symm⟩
    · split at h
      · simp only [bind_eq_error, pure, Except.pure, reduceCtorEq, and_false, exists_false,
          or_false] at h
        obtain ⟨_, h⟩ := charge_error h
        cases h
      · simp only [bind_eq_error, pure, Except.pure, reduceCtorEq, and_false, exists_false,
          or_false] at h
        unfold insertAmountOverflow at h
        split at h <;> cases h

/-- The cost kept for the reservation once it overflows: the first one is never replaced. -/
def Settlement.kept (s : Settlement) (db : Db) : AmountOverflow :=
  (Table.lookup AmountOverflow.reservationId s.reservationId db.budgetAmountOverflows).getD
    ⟨s.reservationId, s.tenantId, s.actualCostMinor, s.nowMs⟩

/-- An overflow that `settle` reports is kept under the reservation, with the reported cost. -/
theorem overflow_reported (s : Settlement) {cost : I64}
    {answer : Except BudgetError SettleReceipt} (hpending : Pending db)
    (hsettle : settle s.tenantId s.reservationId s.actualCostMinor s.nowMs s.eventId db =
      (answer, db')) (hanswer : answer = .error (.amountOverflow s.reservationId cost)) :
    db' = { db with budgetAmountOverflows := db'.budgetAmountOverflows } ∧
      s.kept db ∈ db'.budgetAmountOverflows ∧ (s.kept db).reservationId = s.reservationId ∧
        (s.kept db).tenantId = s.tenantId ∧ (s.kept db).actualCostMinor = cost := by
  obtain ⟨row, hcharges⟩ | ⟨row, hchargeable, hfirst, hcost, rfl⟩ | ⟨e, he, -, rfl⟩ :=
    settle_cases hsettle
  · obtain ⟨late, -, hreceipt⟩ := hcharges.answered
    rw [hanswer, settleAnswer] at hreceipt
    split at hreceipt <;> cases hreceipt
  · rw [hcost, Except.error.injEq, BudgetError.amountOverflow.injEq] at hanswer
    have hkept : s.kept db = ⟨s.reservationId, s.tenantId, s.actualCostMinor, s.nowMs⟩ := by
      rw [Settlement.kept, hfirst]
      rfl
    rw [hkept]
    exact ⟨rfl, List.mem_append_right _ List.mem_cons_self, rfl, rfl, hanswer.2⟩
  · obtain ⟨overflow, hmem, hid, htenant, hkept⟩ := settle_reports (hanswer ▸ hsettle)
    have hsame : s.kept db' = overflow := by
      rw [Settlement.kept, ← hid, Table.lookup_of_mem hpending.distinct hmem]
      rfl
    rw [hsame]
    exact ⟨rfl, hmem, hid, htenant, hkept⟩

/-- A `settle` that reports an overflow writes nothing but the kept cost, its own unless one was
kept before, and every state from then on is quarantined by it. -/
theorem amount_overflow_quarantine (zones : Zones) (history : List Event) (s : Settlement)
    (cost : I64)
    (hoverflow : (settle s.tenantId s.reservationId s.actualCostMinor s.nowMs s.eventId
      (run zones history Db.empty)).1 = .error (.amountOverflow s.reservationId cost)) :
    let db := run zones history Db.empty
    let settled := (settle s.tenantId s.reservationId s.actualCostMinor s.nowMs s.eventId db).2
    settled = { db with budgetAmountOverflows := settled.budgetAmountOverflows } ∧
      ∃ overflow : AmountOverflow, overflow.reservationId = s.reservationId ∧
        overflow.tenantId = s.tenantId ∧ overflow.actualCostMinor = cost ∧
        (∀ earlier ∈ db.budgetAmountOverflows, earlier.reservationId = s.reservationId →
          overflow = earlier) ∧
        ((∀ earlier ∈ db.budgetAmountOverflows, earlier.reservationId ≠ s.reservationId) →
          overflow.actualCostMinor = s.actualCostMinor) ∧
        ∀ later, Quarantined zones overflow (run zones later settled) := by
  intro db settled
  have hbefore : Pending db := pending_run zones history
  obtain ⟨hwritten, hmem, hid, htenant, hcost⟩ :=
    overflow_reported s hbefore (rfl : _ = (_, settled)) hoverflow
  refine ⟨hwritten, s.kept db, hid, htenant, hcost, ?_, ?_, ?_⟩
  · intro earlier hearlier hsame
    rw [Settlement.kept, ← hsame, Table.lookup_of_mem hbefore.distinct hearlier]
    rfl
  · intro hfirst
    rw [Settlement.kept, Table.lookup_eq_none.mpr hfirst]
    rfl
  intro later
  have hreach : run zones later settled =
      run zones (history ++ .returns (.settle s) :: later) Db.empty := by
    rw [run_append]
    rfl
  have hkept := overflow_kept zones later hmem
  have hpending : Pending (run zones later settled) := by
    rw [hreach]
    exact pending_run zones _
  exact hpending.quarantined hkept

/-- A tenant whose settled total is 1 and whose second reservation is still open. -/
def almostFull : List Event :=
  let scope : BudgetScope := ⟨"acme", "key", "provider", "model"⟩
  let reserveOne (id : String) : Event := .returns (.reserve
    { ledger := ledgerOfFifty, scope, estimatedCost := .known (.lit 1), id,
      clock := ⟨.lit 10, .lit 10, .lit 10⟩ })
  [.returns (.configureTenant "acme" (.lit (2 ^ 63 - 1)) "UTC" .all (.lit 0)), reserveOne "r1",
    .returns (.settle ⟨"acme", "r1", .lit 1, .lit 10, "e"⟩), reserveOne "r2"]

def settleMax : Settlement := ⟨"acme", "r2", .lit (2 ^ 63 - 1), .lit 20, "e"⟩

theorem settleMax_overflows :
    (settle "acme" "r2" (.lit (2 ^ 63 - 1)) (.lit 20) "e" (run twoZones almostFull Db.empty)).1 =
      .error (.amountOverflow "r2" (.lit (2 ^ 63 - 1))) := by
  decide +kernel

/-- The overflow is reported once more for another cost, and the hold runs out. -/
def afterOverflow : List Event :=
  [.returns (.settle ⟨"acme", "r2", .lit (2 ^ 63 - 2), .lit 30, "e"⟩),
    .returns (.sweepExpired (.lit 1000000))]

theorem amount_overflow_quarantine_max :
    ∃ overflow : AmountOverflow, overflow.reservationId = "r2" ∧
      overflow.actualCostMinor = settleMax.actualCostMinor ∧
      Quarantined twoZones overflow (run twoZones afterOverflow
        (settle "acme" "r2" (.lit (2 ^ 63 - 1)) (.lit 20) "e"
          (run twoZones almostFull Db.empty)).2) := by
  obtain ⟨-, overflow, hid, -, -, -, hexact, hlater⟩ :=
    amount_overflow_quarantine twoZones almostFull settleMax _ settleMax_overflows
  have hempty : (run twoZones almostFull Db.empty).budgetAmountOverflows = [] := by decide +kernel
  refine ⟨overflow, hid, hexact ?_, hlater afterOverflow⟩
  rw [hempty]
  exact fun earlier => nofun

/-- With an unknown price a quarantined tenant's `reserve` still fails with the error about its
price. -/
theorem quarantine_reports_price_first :
    ¬∀ (zones : Zones) (history later : List Event) (s : Settlement) (cost : I64) (a : Admit),
      (settle s.tenantId s.reservationId s.actualCostMinor s.nowMs s.eventId
        (run zones history Db.empty)).1 = .error (.amountOverflow s.reservationId cost) →
      a.scope.tenantId = s.tenantId →
      ∃ id cost', (reserve zones a.ledger a.scope a.estimatedCost a.id a.clock
        (run zones later (settle s.tenantId s.reservationId s.actualCostMinor s.nowMs s.eventId
          (run zones history Db.empty)).2)).1 = .error (.amountOverflow id cost') := by
  intro h
  obtain ⟨id, cost, hanswer⟩ := h twoZones almostFull [] settleMax _
    { ledger := ledgerOfFifty, scope := ⟨"acme", "key", "provider", "model"⟩,
      estimatedCost := .unknown, id := "r3", clock := ⟨.lit 30, .lit 30, .lit 30⟩ }
    settleMax_overflows rfl
  cases hanswer

end Result

end Ledger
