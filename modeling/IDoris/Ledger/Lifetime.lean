import IDoris.Ledger.Amounts
import IDoris.Ledger.Late

/-!
# How long a reservation counts

A renewal puts the expiry at its own reading plus the time it asks for, wherever the
expiry was before. No renewal gets past four times the ledger's TTL from the creation,
and no row turns active again.
-/
namespace Ledger

open Bounded Transaction

/-- Everything `extend` checks before its renewal is stored. -/
structure Renews (ledger : BudgetLedger) (tenantId : String) (additionalTtlMs : I64)
    (clock : Readings) (row : ReservationRow) : Prop where
  tenant : row.scope.tenantId = tenantId
  active : row.status = .active
  unexpired : clock.nowMs.val < row.expiresAtMs.val
  ttl : 0 < additionalTtlMs.val ∧ additionalTtlMs.val ≤ ledger.ttlMs.val
  fits : clock.nowMs.val + additionalTtlMs.val < 2 ^ 63
  cap : 4 * ledger.ttlMs.val < 2 ^ 63
  capFits : row.createdAtMs.val + 4 * ledger.ttlMs.val < 2 ^ 63
  lifetime : clock.nowMs.val + additionalTtlMs.val ≤ row.createdAtMs.val + 4 * ledger.ttlMs.val
  deadline : clock.beforeCommitMs.val < clock.nowMs.val + additionalTtlMs.val

variable {zones : Zones} {db db' : Db} {call : Call} {ledger : BudgetLedger}
  {tenantId reservationId : String} {additionalTtlMs : I64} {clock : Readings}
  {row : ReservationRow}

/-- A renewal that passes its checks is stored, whatever the answer then is. -/
theorem extend_renewed (hfound : Table.lookup ReservationRow.id reservationId db.reservations =
      some row) (h : Renews ledger tenantId additionalTtlMs clock row) :
    ∃ newExpires : I64, newExpires.val = clock.nowMs.val + additionalTtlMs.val ∧
      (extend ledger tenantId reservationId additionalTtlMs clock db).2 =
        updateReservation db reservationId fun r => { r with expiresAtMs := newExpires } := by
  obtain ⟨htenant, hactive, hunexpired, ⟨hpositive, httl⟩, hfits, hcap, hcapFits, hlifetime,
    hdeadline⟩ := h
  have hnow := clock.nowMs.lower
  have hcreated := row.createdAtMs.lower
  have hledger := ledger.positive
  let newExpires : I64 := ⟨clock.nowMs.val + additionalTtlMs.val, by omega, hfits⟩
  let maxLifetime : I64 := ⟨4 * ledger.ttlMs.val, by omega, hcap⟩
  let maxExpires : I64 := ⟨row.createdAtMs.val + 4 * ledger.ttlMs.val, by omega, hcapFits⟩
  have hrange : ¬(additionalTtlMs.val ≤ 0 ∨ ledger.ttlMs.val < additionalTtlMs.val) := by omega
  have hlive : ¬(row.status ≠ .active ∨ row.expiresAtMs.val ≤ clock.nowMs.val) := by
    rintro (hne | hle)
    · exact hne hactive
    · omega
  have hrow : findReservation db tenantId reservationId = .ok row :=
    findReservation_eq_ok.mpr ⟨hfound, htenant⟩
  have hnew : clock.nowMs.checkedAdd additionalTtlMs = some newExpires :=
    I64.checkedAdd_eq_some.mpr rfl
  have hmax : ledger.ttlMs.checkedMul (I64.lit 4) = some maxLifetime :=
    I64.checkedMul_eq_some.mpr (Int.mul_comm _ _)
  have hmaxExpires : row.createdAtMs.checkedAdd maxLifetime = some maxExpires :=
    I64.checkedAdd_eq_some.mpr rfl
  have hwithin : ¬maxExpires.val < newExpires.val := by
    simp only [maxExpires, newExpires]
    omega
  have hopen : checkReservationDeadline reservationId newExpires clock.beforeCommitMs = .ok () :=
    checkReservationDeadline_eq_ok.mpr hdeadline
  refine ⟨newExpires, rfl, ?_⟩
  simp only [extend, refuseIf, if_neg hrange, hrow, if_neg hlive, hnew, hmax, hmaxExpires,
    if_neg hwithin, hopen, orRefuse, bind, Except.bind, pure, Except.pure, close_ok]

/-- A renewal that fails one of its checks leaves the ledger file as it was. -/
theorem extend_refused (hfound : Table.lookup ReservationRow.id reservationId db.reservations =
      some row) (h : ¬Renews ledger tenantId additionalTtlMs clock row) :
    (extend ledger tenantId reservationId additionalTtlMs clock db).2 = db := by
  rcases close_cases (rfl : extend ledger tenantId reservationId additionalTtlMs clock db =
      (_, _)) with hbody | ⟨-, -, -, hsame⟩
  · simp only [bind_eq_ok, refuseIf_eq_ok, exists_const, orRefuse_eq_ok, I64.checkedAdd_eq_some,
      I64.checkedMul_eq_some, checkReservationDeadline_eq_ok, not_or, ne_eq, not_not,
      I64.lit_val 4 (by decide) (by decide)] at hbody
    obtain ⟨httl, found, hrow, ⟨hactive, hlive⟩, newExpires, hnew, maxLifetime, hlifetime,
      maxExpires, hmax, hcap, hdeadline, -⟩ := hbody
    obtain ⟨hsame, htenant⟩ := findReservation_eq_ok.mp hrow
    cases hfound.symm.trans hsame
    have hnewUpper := newExpires.upper
    have hlifetimeUpper := maxLifetime.upper
    have hmaxUpper := maxExpires.upper
    exact absurd ⟨htenant, hactive, by omega, by omega, by omega, by omega, by omega, by omega,
      by omega⟩ h
  · exact hsame

/-- What an `extend` does to the reservation it names. -/
theorem extend_found (ledger : BudgetLedger) (tenantId : String) (additionalTtlMs : I64)
    (clock : Readings)
    (hfound : Table.lookup ReservationRow.id reservationId db.reservations = some row) :
    (Renews ledger tenantId additionalTtlMs clock row ∧ ∃ newExpires : I64,
      newExpires.val = clock.nowMs.val + additionalTtlMs.val ∧
      Table.lookup ReservationRow.id reservationId
        (extend ledger tenantId reservationId additionalTtlMs clock db).2.reservations =
        some { row with expiresAtMs := newExpires }) ∨
    (¬Renews ledger tenantId additionalTtlMs clock row ∧
      Table.lookup ReservationRow.id reservationId
        (extend ledger tenantId reservationId additionalTtlMs clock db).2.reservations =
        some row) := by
  by_cases h : Renews ledger tenantId additionalTtlMs clock row
  · obtain ⟨newExpires, hnew, hafter⟩ := extend_renewed hfound h
    refine .inl ⟨h, newExpires, hnew, ?_⟩
    rw [hafter]
    exact Table.lookup_update_self (fun r hr => hr) hfound
  · exact .inr ⟨h, by rw [extend_refused hfound h, hfound]⟩

/-- An `extend` moves the expiry of its reservation to its reading plus the time asked for, or
leaves it alone. The reservation goes on counting at every instant before that, and at every
instant at all exactly unless a stored renewal ends before the expiry it replaces. -/
theorem extend_from_now (zones : Zones) (events : List Event) (ledger : BudgetLedger)
    (tenantId reservationId : String) (additionalTtlMs : I64) (clock : Readings)
    (row : ReservationRow)
    (hfound : Table.lookup ReservationRow.id reservationId
      (run zones events Db.empty).reservations = some row) :
    ∃ row', Table.lookup ReservationRow.id reservationId
        (extend ledger tenantId reservationId additionalTtlMs clock
          (run zones events Db.empty)).2.reservations = some row' ∧
      (∀ t : I64, row.counts t = true → t.val < clock.nowMs.val + additionalTtlMs.val →
        row'.counts t = true) ∧
      ((∀ t : I64, row.counts t = true → row'.counts t = true) ↔
        ¬(Renews ledger tenantId additionalTtlMs clock row ∧
          clock.nowMs.val + additionalTtlMs.val < row.expiresAtMs.val)) := by
  rcases extend_found ledger tenantId additionalTtlMs clock hfound with
    ⟨hrenews, newExpires, hnew, hafter⟩ | ⟨hnot, hafter⟩
  · refine ⟨_, hafter, ?_, ?_⟩
    · intro t hcounts hlt
      rw [ReservationRow.counts_iff] at hcounts ⊢
      exact ⟨hcounts.1, by simp only; omega⟩
    · constructor
      · rintro hall ⟨-, hshorter⟩
        have hcounts := hall newExpires
          (ReservationRow.counts_iff.mpr ⟨hrenews.active, by omega⟩)
        have hlt := (ReservationRow.counts_iff.mp hcounts).2
        simp only at hlt
        omega
      · intro hlonger t hcounts
        have hle : row.expiresAtMs.val ≤ clock.nowMs.val + additionalTtlMs.val := by
          by_contra hshorter
          exact hlonger ⟨hrenews, by omega⟩
        rw [ReservationRow.counts_iff] at hcounts ⊢
        exact ⟨hcounts.1, by simp only; omega⟩
  · refine ⟨row, hafter, fun t hcounts _ => hcounts, ?_⟩
    exact iff_of_true (fun t hcounts => hcounts) fun h => hnot h.1

/-- A renewal by 20 instead of 5 leaves the reservation of 30 its whole time and more. -/
theorem extend_from_now_longer :
    let db := run twoZones [limitedTenant, reservedThirty] Db.empty
    let row : ReservationRow := ⟨"r1", ⟨"acme", "key", "provider", "model"⟩, "1970-01", "1970-01",
      .lit 30, .active, .lit 10, .lit 60, none⟩
    ∃ row', Table.lookup ReservationRow.id "r1" (extend ⟨.lit 50, by decide⟩ "acme" "r1" (.lit 20)
        ⟨.lit 45, .lit 45, .lit 45⟩ db).2.reservations = some row' ∧
      ∀ t : I64, row.counts t = true → row'.counts t = true := by
  obtain ⟨row', hafter, -, hall⟩ := extend_from_now twoZones [limitedTenant, reservedThirty]
    ⟨.lit 50, by decide⟩ "acme" "r1" (.lit 20) ⟨.lit 45, .lit 45, .lit 45⟩
    ⟨"r1", ⟨"acme", "key", "provider", "model"⟩, "1970-01", "1970-01", .lit 30, .active, .lit 10,
      .lit 60, none⟩ (by decide)
  exact ⟨row', hafter, hall.mpr fun h => absurd h.2 (by decide)⟩

/-- A renewal by 5 at 20 gives back a reservation that would have counted until 60. -/
theorem extend_shortens :
    ¬ ∀ (events : List Event) (ledger : BudgetLedger) (tenantId reservationId : String)
        (additionalTtlMs : I64) (clock : Readings) (row row' : ReservationRow) (t : I64),
      Table.lookup ReservationRow.id reservationId (run twoZones events Db.empty).reservations =
        some row →
      Table.lookup ReservationRow.id reservationId
        (extend ledger tenantId reservationId additionalTtlMs clock
          (run twoZones events Db.empty)).2.reservations = some row' →
      row.counts t = true → row'.counts t = true := by
  intro h
  have hcounts := h [limitedTenant, reservedThirty] ⟨.lit 50, by decide⟩ "acme" "r1" (.lit 5)
    ⟨.lit 20, .lit 20, .lit 20⟩
    ⟨"r1", ⟨"acme", "key", "provider", "model"⟩, "1970-01", "1970-01", .lit 30, .active, .lit 10,
      .lit 60, none⟩
    ⟨"r1", ⟨"acme", "key", "provider", "model"⟩, "1970-01", "1970-01", .lit 30, .active, .lit 10,
      .lit 25, none⟩ (.lit 40) (by decide) (by decide) (by decide)
  exact absurd hcounts (by decide)

/-- A call whose handle has this TTL, if it uses one. -/
def Call.hasTtl (ttlMs : I64) : Call → Prop
  | .reserve a => a.ledger.ttlMs = ttlMs
  | .extend ledger _ _ _ _ => ledger.ttlMs = ttlMs
  | _ => True

/-- The reading and the time from which a call computed the expiry of a reservation. -/
def Call.renews (id : String) (nowMs durationMs : I64) : Call → Prop
  | .reserve a => a.id = id ∧ a.clock.nowMs = nowMs ∧ a.ledger.ttlMs = durationMs
  | .extend _ _ reservationId additionalTtlMs clock =>
    reservationId = id ∧ clock.nowMs = nowMs ∧ additionalTtlMs = durationMs
  | _ => False

/-- An expiry is the exact sum of a reading and a time that some call had, within four times the
TTL from the creation. -/
structure Timed (ttlMs : I64) (calls : List Call) (row : ReservationRow) : Prop where
  exact : ∃ call ∈ calls, ∃ nowMs durationMs : I64, call.renews row.id nowMs durationMs ∧
    0 < durationMs.val ∧ durationMs.val ≤ ttlMs.val ∧
    row.expiresAtMs.val = nowMs.val + durationMs.val
  bounded : row.expiresAtMs.val ≤ row.createdAtMs.val + 4 * ttlMs.val

theorem Timed.mono {ttlMs : I64} {calls more : List Call} (h : Timed ttlMs calls row) :
    Timed ttlMs (calls ++ more) row := by
  obtain ⟨⟨call, hcall, hexact⟩, hbounded⟩ := h
  exact ⟨⟨call, List.mem_append.mpr (.inl hcall), hexact⟩, hbounded⟩

/-- A step of a row leaves its expiry alone, or is a renewal of it. -/
theorem RowStep.expiry {row' : ReservationRow} (h : RowStep call row row') :
    row'.expiresAtMs = row.expiresAtMs ∨
      ∃ ledger tenantId reservationId additionalTtlMs clock,
        call = .extend ledger tenantId reservationId additionalTtlMs clock ∧
        row'.expiresAtMs.val = clock.nowMs.val + additionalTtlMs.val ∧
        row'.expiresAtMs.val ≤ row.createdAtMs.val + 4 * ledger.ttlMs.val := by
  cases h with
  | same => exact .inl rfl
  | expired sweeps active due => exact .inl rfl
  | settled isCall id tenant unfinished => exact .inl rfl
  | extended isCall active unexpired renewed lifetime =>
    exact .inr ⟨_, _, _, _, _, isCall, renewed, lifetime⟩
  | released unfinished => exact .inl rfl

theorem Timed.of_same {ttlMs : I64} {calls : List Call} {row' : ReservationRow}
    (h : Timed ttlMs calls row) (hid : row'.id = row.id)
    (hcreated : row'.createdAtMs = row.createdAtMs) (hexpires : row'.expiresAtMs = row.expiresAtMs) :
    Timed ttlMs calls row' := by
  obtain ⟨hexact, hbounded⟩ := h
  exact ⟨by rw [hid, hexpires]; exact hexact, by rw [hcreated, hexpires]; exact hbounded⟩

/-- One more call keeps every expiry timed. -/
theorem Timed.writes {ttlMs : I64} {calls : List Call} (hconserved : Conserved db)
    (hall : ∀ row ∈ db.reservations, Timed ttlMs calls row) (hwrites : Writes zones db call db')
    (httl : call.hasTtl ttlMs) : ∀ row ∈ db'.reservations, Timed ttlMs (calls ++ [call]) row := by
  intro row' hrow'
  rcases (hwrites.rows hconserved.ids).origin hrow' with
    ⟨row, hrow, hstep⟩ | ⟨a, adm, estimate, expires, rfl, hreserves, rfl⟩
  · rcases hstep.expiry with hsame | ⟨ledger, tenantId, id, additionalTtlMs, clock, rfl, -, -⟩
    · exact (hall row hrow).mono.of_same hstep.id hstep.createdAtMs hsame
    · cases hwrites with
      | nothing => exact (hall row' hrow').mono
      | swept isCall opens => rcases isCall with h | h <;> cases h
      | charged isCall chargeable scopeSum tenantSum audit => rcases isCall with h | h <;> cases h
      | overflowed isCall chargeable first => rcases isCall with h | h <;> cases h
      | extended found tenant active unexpired ttl renewed lifetime deadline =>
        obtain ⟨old, hold, rfl⟩ := Table.mem_update.mp hrow'
        split
        · rename_i hid
          have hfound := Table.lookup_of_mem hconserved.ids hold
          rw [hid] at hfound
          cases hfound.symm.trans found
          have hledger : ledger.ttlMs = ttlMs := httl
          rw [hledger] at ttl lifetime
          exact ⟨⟨_, List.mem_append.mpr (.inr (List.mem_singleton.mpr rfl)), _, _,
            ⟨hid.symm, rfl, rfl⟩, ttl.1, ttl.2, renewed⟩, lifetime⟩
        · exact (hall old hold).mono
  · have hledger : a.ledger.ttlMs = ttlMs := httl
    have hpositive := a.ledger.positive
    have hlifetime := hreserves.lifetime
    rw [hledger] at hpositive hlifetime
    refine ⟨⟨_, List.mem_append.mpr (.inr (List.mem_singleton.mpr rfl)), _, _,
      ⟨rfl, rfl, hledger⟩, hpositive, Int.le_refl _, hlifetime⟩, ?_⟩
    simp only [Admit.row]
    omega

theorem timed_run {ttlMs : I64} {events : List Event} (h : ∀ e ∈ events, e.call.hasTtl ttlMs) :
    ∀ row ∈ (run zones events Db.empty).reservations,
      Timed ttlMs (events.map Event.call) row := by
  induction events using List.reverseRecOn with
  | nil => simp [run, Db.empty]
  | append_singleton events e ih =>
    rw [run_append, List.map_append, List.map_singleton]
    exact Timed.writes (conserved_run zones events) (ih fun e he => h e (by simp [he]))
      (e.writes zones _) (h e (by simp))

/-- A row that is no longer active stays in the table and is never active again. -/
theorem inactive_run {id : String} (hconserved : Conserved db)
    (hfound : Table.lookup ReservationRow.id id db.reservations = some row)
    (hinactive : row.status ≠ .active) (later : List Event) :
    ∃ row', Table.lookup ReservationRow.id id (run zones later db).reservations = some row' ∧
      row'.status ≠ .active := by
  have hexec : ∀ (db : Db) (call : Call), (Conserved db ∧ ∃ row',
      Table.lookup ReservationRow.id id db.reservations = some row' ∧ row'.status ≠ .active) →
      Conserved (exec zones call db) ∧ ∃ row',
        Table.lookup ReservationRow.id id (exec zones call db).reservations = some row' ∧
          row'.status ≠ .active := by
    rintro db call ⟨hconserved, row, hfound, hinactive⟩
    have hwrites := exec_writes zones call db
    obtain ⟨row', hrow', hstep⟩ :=
      (hwrites.rows hconserved.ids).present (Table.lookup_mem hfound)
    have hafter := Table.lookup_of_mem (hconserved.writes hwrites).ids hrow'
    rw [hstep.id, Table.lookup_key hfound] at hafter
    exact ⟨hconserved.writes hwrites, row', hafter, fun hactive => hinactive (hstep.active hactive)⟩
  exact (run_invariant _ hexec ⟨hconserved, row, hfound, hinactive⟩ later).2

/-- In every run with one TTL, whatever its clocks read: no reservation counts four times the TTL
after its creation or later, none that has been marked expired, settled or released is active
again in any continuation, and each expiry is the exact sum of the reading and the time of the
call that stored it. -/
theorem bounded_lifetime {zones : Zones} {ttlMs : I64} {events : List Event}
    (h : ∀ e ∈ events, e.call.hasTtl ttlMs) :
    (∀ row ∈ (run zones events Db.empty).reservations, ∀ nowMs : I64,
      row.createdAtMs.val + 4 * ttlMs.val ≤ nowMs.val → row.counts nowMs = false) ∧
    (∀ row ∈ (run zones events Db.empty).reservations, row.status ≠ .active →
      ∀ later : List Event, ∃ row', Table.lookup ReservationRow.id row.id
          (run zones later (run zones events Db.empty)).reservations = some row' ∧
        row'.status ≠ .active ∧ ∀ nowMs, row'.counts nowMs = false) ∧
    ∀ row ∈ (run zones events Db.empty).reservations, ∃ e ∈ events, ∃ nowMs durationMs : I64,
      e.call.renews row.id nowMs durationMs ∧ 0 < durationMs.val ∧ durationMs.val ≤ ttlMs.val ∧
        row.expiresAtMs.val = nowMs.val + durationMs.val := by
  have htimed : ∀ row ∈ (run zones events Db.empty).reservations, Timed ttlMs _ row := timed_run h
  have hconserved := conserved_run zones events
  refine ⟨?_, ?_, ?_⟩
  · intro row hrow nowMs hlate
    have hbounded := (htimed row hrow).bounded
    rw [← Bool.not_eq_true, ReservationRow.counts_iff]
    rintro ⟨-, hlt⟩
    omega
  · intro row hrow hinactive later
    obtain ⟨row', hafter, hstays⟩ :=
      inactive_run hconserved (Table.lookup_of_mem hconserved.ids hrow) hinactive later
    exact ⟨row', hafter, hstays, fun nowMs => by simp [ReservationRow.counts, hstays]⟩
  · intro row hrow
    obtain ⟨call, hcall, hexact⟩ := (htimed row hrow).exact
    obtain ⟨e, he, rfl⟩ := List.mem_map.mp hcall
    exact ⟨e, he, hexact⟩

/-- One of two reservations is renewed, the other one is released. -/
def renewedAndReleased : List Event :=
  [limitedTenant, reservedThirty, reservedSixty,
    .returns (.extend ledgerOfFifty "acme" "r1" (.lit 40) ⟨.lit 45, .lit 45, .lit 45⟩),
    .returns (.release "acme" "r2")]

/-- Under a TTL of 50 the renewed reservation of 30 no longer counts at 210. -/
theorem bounded_lifetime_renewed :
    (run twoZones renewedAndReleased Db.empty).reservations.map
        (fun row => (row.status, row.expiresAtMs)) = [(.active, .lit 85), (.released, .lit 70)] ∧
      ∀ row ∈ (run twoZones renewedAndReleased Db.empty).reservations, ∀ nowMs : I64,
        row.createdAtMs.val + 4 * (I64.lit 50).val ≤ nowMs.val → row.counts nowMs = false := by
  have hfixed : ∀ e ∈ renewedAndReleased, e.call.hasTtl (.lit 50) := by
    intro e he
    simp only [renewedAndReleased, List.mem_cons, List.not_mem_nil, or_false] at he
    rcases he with rfl | rfl | rfl | rfl | rfl
    · trivial
    · rfl
    · rfl
    · rfl
    · trivial
  exact ⟨by decide, (bounded_lifetime hfixed).1⟩

end Ledger
