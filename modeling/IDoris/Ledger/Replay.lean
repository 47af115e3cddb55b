import IDoris.Ledger.Conservation

/-!
# Replaying a settlement

`replay_settlement` is a `settle` and, after one of its errors, a second read that
other connections may have overtaken. It charges at most once and answers by the
cost that is stored.
-/
namespace Ledger

open Bounded Transaction

/-- A replayed settlement, with what other connections do before its second read. -/
def replaySettlement (zones : Zones) (s : Settlement) (between : List Event) (db : Db) :
    Outcome Unit :=
  let (settled, db) := settle s.tenantId s.reservationId s.actualCostMinor s.nowMs s.eventId db
  let later := run zones between db
  (replayAnswer s.tenantId s.reservationId s.actualCostMinor settled later, later)

variable {zones : Zones} {db db' : Db} {s : Settlement}

/-- The stored cost of a settled row, read back. -/
theorem settledAmount_eq_some {tenantId id : String} {cost : I64} :
    settledAmount tenantId id db = some (some cost) ↔
      ∃ row, Table.lookup ReservationRow.id id db.reservations = some row ∧
        row.scope.tenantId = tenantId ∧ row.status = .settled ∧ row.actualCostMinor = some cost := by
  simp only [settledAmount, Option.map_eq_some_iff, Option.filter_eq_some_iff, decide_eq_true_eq]
  constructor
  · rintro ⟨row, ⟨hfound, htenant, hsettled⟩, hcost⟩
    exact ⟨row, hfound, htenant, hsettled, hcost⟩
  · rintro ⟨row, hfound, htenant, hsettled, hcost⟩
    exact ⟨row, ⟨hfound, htenant, hsettled⟩, hcost⟩

/-- A stored cost stays what it is in every continuation. -/
theorem settledAmount_kept (zones : Zones) {tenantId id : String} {cost : I64}
    (events : List Event)
    (h : settledAmount tenantId id db = some (some cost)) :
    settledAmount tenantId id (run zones events db) = some (some cost) := by
  obtain ⟨row, hfound, htenant, hsettled, hcost⟩ := settledAmount_eq_some.mp h
  refine settledAmount_eq_some.mpr ⟨row, ?_, htenant, hsettled, hcost⟩
  exact run_invariant (fun db => Table.lookup ReservationRow.id id db.reservations = some row)
    (fun db call hrow => finished_kept (exec_writes zones call db) hrow (.inl hsettled)) hfound
    events

/-- The row a charge leaves under its id. -/
theorem Chargeable.lookup_settled {row : ReservationRow} (h : Chargeable db s row) :
    Table.lookup ReservationRow.id s.reservationId
      (Table.update ReservationRow.id s.reservationId
        (fun r => { r with status := .settled, actualCostMinor := some s.actualCostMinor })
        db.reservations) =
      some { row with status := .settled, actualCostMinor := some s.actualCostMinor } :=
  Table.lookup_update_self (fun _ hr => hr) h.found

theorem Charges.settledAmount {row : ReservationRow} {answer : Except BudgetError SettleReceipt}
    (h : Charges db s row answer db') :
    settledAmount s.tenantId s.reservationId db' = some (some s.actualCostMinor) := by
  obtain ⟨scopeTotal, tenantTotal, events, -, -, -, rfl⟩ := h.written
  have hfound := h.chargeable.lookup_settled
  exact settledAmount_eq_some.mpr ⟨_, hfound, h.chargeable.tenant, rfl, rfl⟩

/-- An answer that counts as success comes from a charge that committed. -/
theorem settle_charged {answer : Except BudgetError SettleReceipt}
    (h : settle s.tenantId s.reservationId s.actualCostMinor s.nowMs s.eventId db = (answer, db'))
    (hsuccess : (∃ receipt, answer = .ok receipt) ∨
      ∃ id reserved cost, answer = .error (.overageTooLarge id reserved cost)) :
    settledAmount s.tenantId s.reservationId db' = some (some s.actualCostMinor) := by
  rcases settle_cases h with ⟨row, hcharges⟩ | ⟨row, -, -, rfl, -⟩ | ⟨e, rfl, hnot, -⟩
  · exact hcharges.settledAmount
  · rcases hsuccess with ⟨_, h⟩ | ⟨_, _, _, h⟩ <;> cases h
  · rcases hsuccess with ⟨_, h⟩ | ⟨id, reserved, cost, h⟩
    · cases h
    · cases h
      exact absurd rfl (hnot id reserved cost)

/-- On a settled row `settle` changes nothing, and reports the status unless the amount is
refused before the row is read. -/
theorem settle_settled {stored : I64}
    (h : settledAmount s.tenantId s.reservationId db = some (some stored)) :
    settle s.tenantId s.reservationId s.actualCostMinor s.nowMs s.eventId db =
      (.error (if s.actualCostMinor.val < 0 then .invalidActualCost s.actualCostMinor
        else .reservationNotActive s.reservationId ReservationStatus.settled.asSql), db) := by
  obtain ⟨row, hfound, htenant, hsettled, -⟩ := settledAmount_eq_some.mp h
  have hrow : findReservation db s.tenantId s.reservationId = .ok row :=
    findReservation_eq_ok.mpr ⟨hfound, htenant⟩
  have hid : row.id = s.reservationId := Table.lookup_key hfound
  by_cases hcost : s.actualCostMinor.val < 0
  · simp [settle, refuseIf, hcost, bind, Except.bind]
  · simp [settle, refuseIf, hcost, bind, Except.bind, hrow, lateOf, hsettled, hid]

/-- The answer of a replay on a row that is already settled. -/
theorem replay_settled (zones : Zones) {stored : I64} (hstored : 0 ≤ stored.val) (between : List Event)
    (h : settledAmount s.tenantId s.reservationId db = some (some stored)) :
    (replaySettlement zones s between db).2 = run zones between db ∧
      (s.actualCostMinor = stored → (replaySettlement zones s between db).1 = .ok ()) ∧
      (s.actualCostMinor ≠ stored → ∃ e, (replaySettlement zones s between db).1 = .error e) := by
  have hlater := settledAmount_kept zones between h
  simp only [replaySettlement, settle_settled h]
  refine ⟨trivial, ?_, ?_⟩
  · intro heq
    subst heq
    have hcost : ¬ s.actualCostMinor.val < 0 := by omega
    simp [replayAnswer, hcost, hlater]
  · intro hne
    by_cases hcost : s.actualCostMinor.val < 0
    · exact ⟨_, by simp only [hcost, if_true, replayAnswer]; rfl⟩
    · refine ⟨.reservationNotActive s.reservationId ReservationStatus.settled.asSql, ?_⟩
      simp [replayAnswer, hcost, hlater, Ne.symm hne]

/-- A replay answers `Ok` only with its own cost stored. -/
theorem replay_ok {between : List Event} (h : (replaySettlement zones s between db).1 = .ok ()) :
    settledAmount s.tenantId s.reservationId (replaySettlement zones s between db).2 =
      some (some s.actualCostMinor) := by
  cases hsettle : settle s.tenantId s.reservationId s.actualCostMinor s.nowMs s.eventId db with
  | mk answer db₁ =>
    simp only [replaySettlement, hsettle] at h ⊢
    have hcharged := settle_charged hsettle
    unfold replayAnswer at h
    split at h
    · exact settledAmount_kept zones between (hcharged (.inl ⟨_, rfl⟩))
    · exact settledAmount_kept zones between (hcharged (.inr ⟨_, _, _, rfl⟩))
    · split at h
      · rename_i hread
        exact hread
      · cases h
    · cases h

/-- Every overage event belongs to a settled row, and no two to the same one. -/
structure Audited (db : Db) : Prop where
  distinct : (db.budgetOverageEvents.map OverageEvent.reservationId).Nodup
  settled : ∀ event ∈ db.budgetOverageEvents, ∃ row,
    Table.lookup ReservationRow.id event.reservationId db.reservations = some row ∧
      row.status = .settled

theorem Audited.writes {call : Call} (h : Audited db) (hwrites : Writes zones db call db') :
    Audited db' := by
  have hkept : ∀ event ∈ db.budgetOverageEvents, ∃ row,
      Table.lookup ReservationRow.id event.reservationId db'.reservations = some row ∧
        row.status = .settled := by
    intro event hevent
    obtain ⟨row, hfound, hsettled⟩ := h.settled event hevent
    exact ⟨row, finished_kept hwrites hfound (.inl hsettled), hsettled⟩
  cases hwrites with
  | charged isCall chargeable scopeSum tenantSum audit =>
    rename_i s row scopeTotal tenantTotal events
    rcases audit with rfl | rfl
    · exact ⟨by simpa [Settlement.charged] using h.distinct, by
        simpa [Settlement.charged] using hkept⟩
    · have hnew : ∀ event ∈ db.budgetOverageEvents, event.reservationId ≠ s.reservationId := by
        intro event hevent heq
        obtain ⟨other, hfound, hsettled⟩ := h.settled event hevent
        rw [heq, chargeable.found, Option.some.injEq] at hfound
        subst hfound
        exact chargeable.unfinished.not_settled hsettled
      refine ⟨?_, ?_⟩
      · simp only [Settlement.charged, List.map_append, List.map_singleton, List.nodup_append]
        refine ⟨h.distinct, List.nodup_singleton _, ?_⟩
        intro id hid other hother
        obtain ⟨event, hevent, rfl⟩ := List.mem_map.mp hid
        rw [List.mem_singleton.mp hother]
        exact hnew event hevent
      · intro event hevent
        rcases List.mem_append.mp hevent with hevent | hevent
        · exact hkept event hevent
        · rw [List.mem_singleton.mp hevent]
          exact ⟨_, chargeable.lookup_settled, rfl⟩
  | nothing => exact ⟨h.distinct, hkept⟩
  | configured accepts => exact ⟨h.distinct, hkept⟩
  | tenantConfigured accepts => exact ⟨h.distinct, hkept⟩
  | retained keep => exact ⟨h.distinct, hkept⟩
  | swept isCall opens => exact ⟨h.distinct, hkept⟩
  | reserved reserves => exact ⟨h.distinct, hkept⟩
  | overflowed isCall chargeable first => exact ⟨h.distinct, hkept⟩
  | extended found tenant active unexpired ttl renewed lifetime deadline =>
    exact ⟨h.distinct, hkept⟩
  | released found tenant unfinished clear => exact ⟨h.distinct, hkept⟩
  | sweptAll nowMs => exact ⟨h.distinct, hkept⟩

theorem Audited.at_most_one (h : Audited db) (id : String) :
    (db.budgetOverageEvents.filter fun event => decide (event.reservationId = id)).length ≤ 1 := by
  have hcount := List.nodup_iff_count_le_one.mp h.distinct id
  rw [List.count, List.countP_map, List.countP_eq_length_filter] at hcount
  exact hcount

theorem audited_run (zones : Zones) (events : List Event) :
    Audited (run zones events Db.empty) := by
  refine run_invariant Audited (fun db call h => h.writes (exec_writes zones call db)) ?_ events
  exact ⟨by simp [Db.empty], by simp [Db.empty]⟩

/-- In every reachable ledger file: a replay answers `Ok` only with exactly its cost stored,
and always when that cost was stored before; from then on, whatever other calls run in
between, every replay of the cost answers `Ok`, every replay of another amount and every
`settle` fails, none of them writes anything, and there is at most one overage event. -/
theorem replay_settlement_exactly_once (zones : Zones) (history between : List Event)
    (s : Settlement) :
    let db := run zones history Db.empty
    let replay := replaySettlement zones s between db
    (replay.1 = .ok () →
      settledAmount s.tenantId s.reservationId replay.2 = some (some s.actualCostMinor)) ∧
    (settledAmount s.tenantId s.reservationId db = some (some s.actualCostMinor) →
      replay.1 = .ok ()) ∧
    (∀ id, (replay.2.budgetOverageEvents.filter
      fun event => decide (event.reservationId = id)).length ≤ 1) ∧
    (replay.1 = .ok () → ∀ (later between' : List Event) (s' : Settlement),
      s'.tenantId = s.tenantId → s'.reservationId = s.reservationId →
      let db' := run zones later replay.2
      let settle' :=
        settle s'.tenantId s'.reservationId s'.actualCostMinor s'.nowMs s'.eventId db'
      let replay' := replaySettlement zones s' between' db'
      settle'.2 = db' ∧ (∃ e, settle'.1 = .error e) ∧
      replay'.2 = run zones between' db' ∧
      (s'.actualCostMinor = s.actualCostMinor → replay'.1 = .ok ()) ∧
      (s'.actualCostMinor ≠ s.actualCostMinor → ∃ e, replay'.1 = .error e) ∧
      ∀ id, (db'.budgetOverageEvents.filter
        fun event => decide (event.reservationId = id)).length ≤ 1) := by
  intro db replay
  -- the replay is itself a run: its `settle`, then the calls before its second read
  have hreach : replay.2 = run zones (history ++ .returns (.replaySettlement s) :: between)
      Db.empty := by
    rw [run_append]
    rfl
  have hstored : ∀ {events : List Event} {tenantId id : String} {cost : I64},
      settledAmount tenantId id (run zones events Db.empty) = some (some cost) → 0 ≤ cost.val := by
    intro events tenantId id cost h
    obtain ⟨row, hfound, -, hsettled, hcost⟩ := settledAmount_eq_some.mp h
    obtain ⟨cost', hcost', hle⟩ :=
      (conserved_run zones events).costs row (Table.lookup_mem hfound) hsettled
    rw [hcost, Option.some.injEq] at hcost'
    rw [hcost']
    exact hle
  refine ⟨replay_ok, ?_, ?_, ?_⟩
  · intro h
    exact (replay_settled zones (hstored h) between h).2.1 rfl
  · intro id
    rw [hreach]
    exact (audited_run zones _).at_most_one id
  · intro hok later between' s' htenant hid db' settle' replay'
    have hnow : settledAmount s.tenantId s.reservationId db' = some (some s.actualCostMinor) :=
      settledAmount_kept zones later (replay_ok hok)
    have hreach' : db' = run zones
        ((history ++ .returns (.replaySettlement s) :: between) ++ later) Db.empty := by
      rw [run_append, ← hreach]
    have hcost : 0 ≤ s.actualCostMinor.val := hstored (hreach' ▸ hnow)
    rw [← htenant, ← hid] at hnow
    obtain ⟨hsame, hok', herror⟩ := replay_settled zones hcost between' hnow
    refine ⟨?_, ?_, hsame, hok', herror, ?_⟩
    · simp only [settle', settle_settled hnow]
    · exact ⟨_, by simp only [settle', settle_settled hnow]; rfl⟩
    · intro id
      rw [hreach']
      exact (audited_run zones _).at_most_one id

end Ledger
