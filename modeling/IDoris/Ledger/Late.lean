import IDoris.Ledger.Timed

/-!
# The late flag of a settlement

`settle` decides its late flag by a reading from before it waited for the write
lock. The flag is truthful as long as the reservation does not expire during that
wait; when it does, another sub-scope's `reserve` can already have counted the
amount as free.
-/
namespace Ledger

open Bounded Transition

/-- A `reserve` on this ledger file leaves the amount of an unfinished row out of a sum that it
compares with a limit, in the scope dimension or in the tenant dimension. -/
def TreatsAsExpired (zones : Zones) (db : Db) (a : Admit) (row : ReservationRow) : Prop :=
  ∃ estimate adm, estimateOf a.estimatedCost = .ok estimate ∧
    openAdmission zones a.scope a.clock.nowMs db = .ok adm ∧
    skipZeroCost adm.tenantCfg estimate = false ∧
    row ∈ db.reservations ∧ row.unfinished ∧ row.counts a.clock.nowMs = false ∧
    (adm.subConfig.isSome = true ∧ row.scope = a.scope ∧ row.period = adm.period ∨
      adm.tenantCfg.isSome = true ∧ row.scope.tenantId = a.scope.tenantId ∧
        row.tenantPeriod = adm.tenantPeriod ∧
        checkScopeLimit adm a.scope estimate a.clock.nowMs = .ok none)

/-- In every run of the system: when `settle` answers with a receipt that is not late, no
`reserve` before it had treated that reservation as expired. -/
def LateFlagTruthful (zones : Zones) (S : System World Tick) : Prop :=
  ∀ (start : I64) (before between : List Tick) (w₁ w₂ w₃ w₄ : World) (e : Event) (a : Admit)
    (s : Settlement) (receipt : SettleReceipt) (row : ReservationRow),
    S.Run (World.start start) before w₁ → e.call = .reserve a → S.step w₁ (.event e) w₂ →
    S.Run w₂ between w₃ → S.step w₃ (.event (.returns (.settle s))) w₄ →
    (settle s.tenantId s.reservationId s.actualCostMinor s.nowMs s.eventId w₃.db).1 =
      .ok receipt →
    receipt.late = false → TreatsAsExpired zones w₁.db a row → row.id ≠ s.reservationId

/-- The reservation does not expire between the reading of `settle` and its transaction. -/
def FreshReading (w : World) (s : Settlement) : Prop :=
  ∀ row ∈ w.db.reservations, row.id = s.reservationId →
    ¬ (s.nowMs.val < row.expiresAtMs.val ∧ row.expiresAtMs.val ≤ w.clock.val)

def FreshTick (w : World) : Tick → Prop
  | .event e => ∀ s, e.call = .settle s → FreshReading w s
  | .advance _ => True

/-- The row is there, and while it is unfinished its deadline lies in the past. -/
structure Lapsed (id : String) (w : World) : Prop where
  present : ∃ row ∈ w.db.reservations, row.id = id
  past : ∀ row ∈ w.db.reservations, row.id = id → row.unfinished →
    row.expiresAtMs.val ≤ w.clock.val

variable {zones : Zones} {w w' : World} {db : Db} {call : Call} {rows : List ReservationRow}
  {row row' : ReservationRow} {id : String} {tick : Tick}

theorem ReservationRow.expires_of_not_counts {nowMs clock : I64} (hunfinished : row.unfinished)
    (hcounts : row.counts nowMs = false)
    (hexpired : row.status = .expired → row.expiresAtMs.val ≤ clock.val)
    (hle : clock.val ≤ nowMs.val) : row.expiresAtMs.val ≤ nowMs.val := by
  rcases hunfinished with hactive | hstatus
  · by_contra hlt
    have : row.counts nowMs = true := ReservationRow.counts_iff.mpr ⟨hactive, by omega⟩
    rw [hcounts] at this
    cases this
  · have := hexpired hstatus
    omega

/-- Rows are never deleted. -/
theorem RowsStep.present (h : RowsStep zones db call rows) (hrow : row ∈ db.reservations) :
    ∃ row' ∈ rows, RowStep call row row' := by
  cases h with
  | mapped f each => exact ⟨f row, List.mem_map_of_mem hrow, each row hrow⟩
  | joined isCall reserves =>
    refine ⟨_, List.mem_append_left _ (List.mem_map_of_mem hrow), ?_⟩
    refine .expireIf ?_ fun hdue => (of_decide_eq_true hdue).2.2
    rw [isCall]
    rfl

/-- A row with an id that is already there is not a new one. -/
theorem RowsStep.origin_of_present (h : RowsStep zones db call rows) (hrow' : row' ∈ rows)
    (hpresent : ∃ row ∈ db.reservations, row.id = row'.id) :
    ∃ row ∈ db.reservations, row.id = row'.id ∧ RowStep call row row' := by
  rcases h.origin hrow' with ⟨row, hrow, hstep⟩ | ⟨a, adm, estimate, expires, -, hreserves, rfl⟩
  · exact ⟨row, hrow, hstep.id.symm, hstep⟩
  · obtain ⟨row, hrow, hid⟩ := hpresent
    exact absurd hid (Table.lookup_eq_none.mp hreserves.fresh row hrow)

/-- Nothing but `extend` moves a deadline, and it refuses a row whose deadline has come. -/
theorem RowStep.expires_le {clock : I64} (h : RowStep call row row')
    (htimely : call.timely clock) (hpast : row.expiresAtMs.val ≤ clock.val) :
    row'.expiresAtMs = row.expiresAtMs := by
  cases h with
  | extended isCall active unexpired renewed lifetime =>
    subst isCall
    simp only [Call.timely] at htimely
    omega
  | _ => rfl

/-- A step back into an unfinished state starts from one. -/
theorem RowStep.unfinished (h : RowStep call row row') (hunfinished : row'.unfinished) :
    row.unfinished := by
  cases h with
  | same => exact hunfinished
  | expired sweeps active due => exact .inl active
  | settled isCall id tenant unfinished => exact unfinished
  | extended isCall active unexpired renewed lifetime => exact .inl active
  | released unfinished => exact unfinished

theorem Lapsed.step (hsound : Sound w) (h : Lapsed id w)
    (hstep : (timedLedger zones).step w tick w') : Lapsed id w' := by
  have hclock := clock_mono hstep
  rcases timed_step hstep with ⟨-, hsame⟩ | ⟨call, htimely, -, hwrites⟩
  · refine ⟨hsame ▸ h.present, ?_⟩
    intro row hrow hid hunfinished
    have := h.past row (hsame ▸ hrow) hid hunfinished
    omega
  · have hrows := hwrites.rows hsound.conserved.ids
    obtain ⟨old, hold, holdId⟩ := h.present
    obtain ⟨new, hnew, hnewStep⟩ := hrows.present hold
    refine ⟨⟨new, hnew, hnewStep.id.trans holdId⟩, ?_⟩
    intro row' hrow' hid hunfinished
    obtain ⟨row, hrow, hrowId, hrowStep⟩ :=
      hrows.origin_of_present hrow' ⟨old, hold, holdId.trans hid.symm⟩
    have hpast := h.past row hrow (hrowId.trans hid) (hrowStep.unfinished hunfinished)
    rw [hrowStep.expires_le htimely hpast]
    omega

/-- A `reserve` that treats a row as expired runs after the row's deadline. -/
theorem Lapsed.of_treats {a : Admit} {e : Event} (hsound : Sound w)
    (htreats : TreatsAsExpired zones w.db a row) (hcall : e.call = .reserve a)
    (hstep : (timedLedger zones).step w (.event e) w') : Lapsed row.id w' := by
  obtain ⟨estimate, adm, -, -, -, hrow, hunfinished, hcounts, -⟩ := htreats
  obtain ⟨htimely, rfl⟩ := hstep
  rw [hcall] at htimely
  have hpast := ReservationRow.expires_of_not_counts hunfinished hcounts
    (hsound.expired row hrow) htimely.1
  -- the reading of the `reserve`, not the clock before it, is what the deadline lies behind
  have hlater : Lapsed row.id ⟨w.db, a.clock.nowMs⟩ := by
    refine ⟨⟨row, hrow, rfl⟩, ?_⟩
    intro other hother hid _
    have hfound := Table.lookup_of_mem hsound.conserved.ids hrow
    have hsame := Table.lookup_of_mem hsound.conserved.ids hother
    rw [hid, hfound, Option.some.injEq] at hsame
    rw [← hsame]
    exact hpast
  have hwaits : (timedLedger zones).step w (.advance a.clock.nowMs) ⟨w.db, a.clock.nowMs⟩ :=
    ⟨htimely.1, rfl⟩
  have hruns : (timedLedger zones).step ⟨w.db, a.clock.nowMs⟩ (.event e) (w.after zones e) := by
    refine ⟨?_, ?_⟩
    · rw [hcall]
      exact ⟨Int.le_refl _, htimely.2⟩
    · simp only [World.after, hcall, Call.clockAfter]
  exact hlater.step (hsound.step hwaits) hruns

/-- A receipt that is not late was given for an active row by a reading before its deadline. -/
theorem settle_not_late {s : Settlement} {receipt : SettleReceipt} {db' : Db}
    (hsettle : settle s.tenantId s.reservationId s.actualCostMinor s.nowMs s.eventId db =
      (.ok receipt, db')) (hlate : receipt.late = false) :
    ∃ row ∈ db.reservations, row.id = s.reservationId ∧ row.unfinished ∧
      s.nowMs.val < row.expiresAtMs.val := by
  rcases settle_cases hsettle with ⟨row, hcharges⟩ | ⟨row, -, -, h, -⟩ | ⟨e, h, -, -⟩
  · obtain ⟨late, hlateOf, hanswer⟩ := hcharges.answered
    refine ⟨row, Table.lookup_mem hcharges.chargeable.found,
      Table.lookup_key hcharges.chargeable.found, hcharges.chargeable.unfinished, ?_⟩
    unfold settleAnswer at hanswer
    split at hanswer
    · cases hanswer
    · cases hanswer
      simp only at hlate
      subst hlate
      unfold lateOf at hlateOf
      split at hlateOf
      · simp only [Except.ok.injEq, decide_eq_false_iff_not] at hlateOf
        omega
      · cases hlateOf
      · cases hlateOf
  · cases h
  · cases h

/-- In every run in which no reservation expires while its `settle` waits for the write lock,
the late flag is truthful. -/
theorem late_flag_truthful (zones : Zones) :
    LateFlagTruthful zones ((timedLedger zones).restrict FreshTick) := by
  intro start before between w₁ w₂ w₃ w₄ e a s receipt treated hbefore hcall hreserve hbetween
    hstep hanswer hlate htreats hid
  have hsound := sound_run hbefore.of_restrict
  have hlapsed : Lapsed treated.id w₃ :=
    hbetween.of_restrict.invariant_with Sound (Lapsed treated.id)
      (fun _ _ _ hs hst => hs.step hst) (fun _ _ _ hs hl hst => hl.step hs hst)
      (hsound.step hreserve.2) (Lapsed.of_treats hsound htreats hcall hreserve.2)
  obtain ⟨row, hrow, hrowId, hunfinished, hbefore⟩ :=
    settle_not_late (Prod.ext hanswer rfl) hlate
  have hpast := hlapsed.past row hrow (hrowId.trans hid.symm) hunfinished
  exact hstep.1 s rfl row hrow hrowId ⟨hbefore, hpast⟩

section Stale

/-- A tenant with a limit of 100, and reservations of 60 with a TTL of 50 under any of its keys. -/
def tenantOfHundred : Event :=
  .returns (.configureTenant "acme" (.lit 100) "UTC" .paidOnly (.lit 0))

def reserveSixty (keyId id : String) (nowMs : I64) : Admit :=
  { ledger := ledgerOfFifty, scope := ⟨"acme", keyId, "provider", "model"⟩,
    estimatedCost := .known (.lit 60), id, clock := ⟨nowMs, nowMs, nowMs⟩ }

def settleSixty (id : String) (nowMs : I64) : Settlement :=
  { tenantId := "acme", reservationId := id, actualCostMinor := .lit 60, nowMs, eventId := "e" }

def sixtyRow (keyId id : String) (createdAtMs expiresAtMs : I64) : ReservationRow :=
  { id, scope := ⟨"acme", keyId, "provider", "model"⟩, period := "1970-01",
    tenantPeriod := "1970-01", reservedMinor := .lit 60, status := .active, createdAtMs,
    expiresAtMs, actualCostMinor := none }

/-- The tenant is configured and key `a` holds 60 until 60. -/
def heldUntilSixty : World :=
  ((World.start (.lit 0)).after twoZones tenantOfHundred).after twoZones
    (.returns (.reserve (reserveSixty "a" "r1" (.lit 10))))

/-- At 70 key `b` gets 60 as well: the tenant's sum no longer counts the first reservation. -/
def bothAdmitted : World :=
  heldUntilSixty.after twoZones (.returns (.reserve (reserveSixty "b" "r2" (.lit 70))))

theorem treated_at_seventy :
    TreatsAsExpired twoZones heldUntilSixty.db (reserveSixty "b" "r2" (.lit 70))
      (sixtyRow "a" "r1" (.lit 10) (.lit 60)) := by
  refine ⟨.lit 60, ⟨none, some ⟨"acme", .lit 100, "UTC", .paidOnly⟩, "1970-01", "1970-01",
    heldUntilSixty.db⟩, by decide, by decide, by decide, by decide, .inl rfl, by decide,
    .inr ⟨rfl, rfl, rfl, by decide⟩⟩

theorem run_to_held {P : World → Tick → Prop}
    (hP : ∀ w e, (∀ s, e.call ≠ .settle s) → P w (.event e)) :
    ((timedLedger twoZones).restrict P).Run (World.start (.lit 0))
      [.event tenantOfHundred, .event (.returns (.reserve (reserveSixty "a" "r1" (.lit 10))))]
      heldUntilSixty := by
  have hfirst : ((timedLedger twoZones).restrict P).Run (World.start (.lit 0))
      ([] ++ [.event tenantOfHundred]) ((World.start (.lit 0)).after twoZones tenantOfHundred) :=
    run_event .nil (hP _ _ (by intro s h; cases h)) (by decide)
  exact run_event hfirst (hP _ _ (by intro s h; cases h)) (by decide)

/-- With a fresh reading the flag of the second reservation is truthful: what was treated as
expired before is another one. -/
theorem late_flag_truthful_at_seventy :
    (sixtyRow "a" "r1" (.lit 10) (.lit 60)).id ≠ (settleSixty "r2" (.lit 70)).reservationId := by
  have hbefore : ((timedLedger twoZones).restrict FreshTick).Run _ _ _ :=
    run_to_held fun w e hnot s hs => absurd hs (hnot s)
  have hfresh : FreshTick bothAdmitted (.event (.returns (.settle (settleSixty "r2" (.lit 70))))) := by
    intro s hs row _ _ hstale
    cases hs
    have : bothAdmitted.clock = .lit 70 := rfl
    rw [this] at hstale
    exact absurd (Int.lt_of_lt_of_le hstale.1 hstale.2) (by decide)
  exact late_flag_truthful twoZones (.lit 0) _ [] heldUntilSixty bothAdmitted bothAdmitted _
    (.returns (.reserve (reserveSixty "b" "r2" (.lit 70)))) _ _
    ⟨.lit 60, .lit 60, .lit 0, false, .lit 0⟩ _ hbefore rfl
    ⟨fun s hs => Call.noConfusion hs, by decide, rfl⟩ .nil ⟨hfresh, by decide, rfl⟩ (by decide)
    rfl treated_at_seventy

/-- A `settle` that read the clock at 50 and got the lock at 70 is not late, although the
`reserve` at 70, which committed, had given the amount away. -/
theorem late_flag_stale :
    ¬ LateFlagTruthful twoZones (timedLedger twoZones) ∧
      (reserve twoZones (reserveSixty "b" "r2" (.lit 70)).ledger
        (reserveSixty "b" "r2" (.lit 70)).scope (.known (.lit 60)) "r2"
        ⟨.lit 70, .lit 70, .lit 70⟩ heldUntilSixty.db).1 = .ok "r2" := by
  refine ⟨?_, by decide⟩
  intro h
  have hbefore := (run_to_held (P := fun _ _ => True) fun _ _ _ => trivial).of_restrict
  exact h (.lit 0) _ [] heldUntilSixty bothAdmitted bothAdmitted _
    (.returns (.reserve (reserveSixty "b" "r2" (.lit 70)))) _ (settleSixty "r1" (.lit 50))
    ⟨.lit 60, .lit 60, .lit 0, false, .lit 0⟩ (sixtyRow "a" "r1" (.lit 10) (.lit 60)) hbefore rfl
    ⟨by decide, rfl⟩ .nil ⟨by decide, rfl⟩ (by decide) rfl treated_at_seventy rfl

end Stale

end Ledger
