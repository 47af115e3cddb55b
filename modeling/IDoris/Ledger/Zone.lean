import IDoris.Ledger.Timed

/-!
# One billing zone for each tenant

Three guards keep the zones of a tenant's configurations equal and the periods of
its live reservations in step with them. They look at configuration rows, so they
miss the reservations whose rows `retain_tenants` has revoked.
-/
namespace Ledger

open Bounded Transition

/-- Some configuration row of the tenant carries the zone. -/
def HasZone (db : Db) (tenantId zone : String) : Prop :=
  (∃ cfg ∈ db.tenantConfig, cfg.tenantId = tenantId ∧ cfg.billingTimezone = zone) ∨
    ∃ cfg ∈ db.budgetConfig, cfg.scope.tenantId = tenantId ∧ cfg.billingTimezone = zone

/-- Both periods of a reservation are those of its creation in the zone. -/
def InZone (zones : Zones) (row : ReservationRow) (zone : String) : Prop :=
  billingPeriodKey zones row.createdAtMs zone = .ok row.period ∧
    billingPeriodKey zones row.createdAtMs zone = .ok row.tenantPeriod

/-- All configuration rows of a tenant carry one zone, and its live reservations the periods of
that zone. -/
structure Coherent (zones : Zones) (w : World) : Prop where
  one : ∀ tenantId zone zone', HasZone w.db tenantId zone → HasZone w.db tenantId zone' →
    zone = zone'
  periods : ∀ row ∈ w.db.reservations, row.counts w.clock = true → ∀ zone,
    HasZone w.db row.scope.tenantId zone → InZone zones row zone

/-- A configuration that `reserve` would read for this reservation is still there. -/
def Covered (db : Db) (row : ReservationRow) : Prop :=
  (∃ cfg ∈ db.tenantConfig, cfg.tenantId = row.scope.tenantId) ∨
    ∃ cfg ∈ db.budgetConfig, cfg.scope = row.scope

/-- The zone fits the tenant's live reservations whose configuration has been revoked. -/
def FitsRevoked (zones : Zones) (w : World) (tenantId zone : String) : Prop :=
  ∀ row ∈ w.db.reservations, row.counts w.clock = true → row.scope.tenantId = tenantId →
    ¬ Covered w.db row → InZone zones row zone

/-- The condition on a call: a configuration that its checks let through fits the revoked
reservations. -/
def CallFits (zones : Zones) (w : World) : Call → Prop
  | .configure scope limitMinor zone nowMs =>
    ConfigureAccepts w.db scope limitMinor zone nowMs → FitsRevoked zones w scope.tenantId zone
  | .configureTenant tenantId limitMinor zone _ nowMs =>
    ConfigureTenantAccepts w.db tenantId limitMinor zone nowMs →
      FitsRevoked zones w tenantId zone
  | _ => True

/-- The condition on a step; a call that crashes before its commit configures nothing. -/
def TickFits (zones : Zones) (w : World) : Tick → Prop
  | .advance _ => True
  | .event (.returns call) => CallFits zones w call
  | .event (.crashesBeforeCommit _) => True
  | .event (.crashesAfterCommit call) => CallFits zones w call

/-- The keys of both configuration tables are unique. -/
structure ConfigKeys (db : Db) : Prop where
  scopes : (db.budgetConfig.map ScopeConfig.scope).Nodup
  tenants : (db.tenantConfig.map TenantConfig.tenantId).Nodup

variable {zones : Zones} {w w' : World} {db db' : Db} {call : Call} {tick : Tick}
  {row row' : ReservationRow} {tenantId zone zone' : String} {scope : BudgetScope}
  {limitMinor nowMs : I64}

theorem ConfigKeys.writes (h : ConfigKeys db) (hwrites : Writes zones db call db') :
    ConfigKeys db' := by
  cases hwrites with
  | configured accepts => exact ⟨Table.upsert_keys_nodup h.scopes, h.tenants⟩
  | tenantConfigured accepts => exact ⟨h.scopes, Table.upsert_keys_nodup h.tenants⟩
  | retained keep =>
    exact ⟨h.scopes.sublist (List.filter_sublist.map _), h.tenants.sublist (List.filter_sublist.map _)⟩
  | _ => exact ⟨h.scopes, h.tenants⟩

theorem agreeOnZone_eq_ok {existing : Option String} {u : Unit} :
    agreeOnZone tenantId existing zone = .ok u ↔ ∀ z, existing = some z → z = zone := by
  cases existing with
  | none => simp [agreeOnZone]
  | some z => simp [agreeOnZone]

theorem keepZoneWhileLive_eq_ok {existing : Option String} {live : Bool} {u : Unit} :
    keepZoneWhileLive existing zone live = .ok u ↔
      ∀ z, existing = some z → live = true → z = zone := by
  cases existing with
  | none => simp [keepZoneWhileLive]
  | some z => cases live <;> simp [keepZoneWhileLive]

/-- The sibling check sees the zone of every other sub-scope row, when they all agree. -/
theorem sibling_zone {exclude : Option BudgetScope} {cfg : ScopeConfig}
    (hone : ∀ z z', HasZone db tenantId z → HasZone db tenantId z' → z = z')
    (hsibling : agreeOnZone tenantId (siblingSubScopeTimezone db tenantId exclude) zone = .ok ())
    (hcfg : cfg ∈ db.budgetConfig) (htenant : cfg.scope.tenantId = tenantId)
    (hother : ∀ ex, exclude = some ex → ex.tenantId = tenantId ∧ cfg.scope ≠ ex) :
    cfg.billingTimezone = zone := by
  have hfound : ∃ first, siblingSubScopeTimezone db tenantId exclude = some first ∧
      HasZone db tenantId first := by
    unfold siblingSubScopeTimezone
    cases hfind : db.budgetConfig.find? _ with
    | none =>
      have hnot := List.find?_eq_none.mp hfind cfg hcfg
      cases exclude with
      | none => simp [htenant] at hnot
      | some ex =>
        obtain ⟨hex, hne⟩ := hother ex rfl
        have hkeys : ex.keyId = cfg.scope.keyId ∧ ex.providerId = cfg.scope.providerId ∧
            ex.modelId = cfg.scope.modelId := by simpa [htenant] using hnot
        refine absurd ?_ hne
        exact BudgetScope.ext (htenant.trans hex.symm) hkeys.1.symm hkeys.2.1.symm hkeys.2.2.symm
    | some first =>
      have hmem := List.mem_of_find?_eq_some hfind
      have hfirst := List.find?_some hfind
      rw [Bool.and_eq_true, decide_eq_true_eq] at hfirst
      exact ⟨first.billingTimezone, rfl, .inr ⟨first, hmem, hfirst.1, rfl⟩⟩
  obtain ⟨first, hsome, hzone⟩ := hfound
  rw [← agreeOnZone_eq_ok.mp hsibling first hsome]
  exact hone _ _ (.inr ⟨cfg, hcfg, htenant, rfl⟩) hzone

/-- What a configuration with a zone changes, and what its checks guarantee: the tenant's zones
are the new one afterwards, and were before for every live reservation it could see. -/
structure Configures (db db' : Db) (tenantId zone : String) (clock : I64) : Prop where
  rows : db'.reservations = db.reservations
  zones : ∀ t z, HasZone db' t z → (t = tenantId ∧ z = zone) ∨ (t ≠ tenantId ∧ HasZone db t z)
  self : HasZone db' tenantId zone
  seen : ∀ row ∈ db.reservations, row.counts clock = true → row.scope.tenantId = tenantId →
    Covered db row → HasZone db tenantId zone

theorem hasActiveForScope {clock : I64} (hrow : row ∈ db.reservations)
    (hcounts : row.counts clock = true) (hle : nowMs.val ≤ clock.val) :
    hasActiveReservationsForScope db row.scope nowMs = true := by
  refine List.any_eq_true.mpr ⟨row, hrow, ?_⟩
  simp [ReservationRow.counts_mono hcounts hle]

theorem hasActiveForTenant {clock : I64} (hrow : row ∈ db.reservations)
    (hcounts : row.counts clock = true) (hle : nowMs.val ≤ clock.val) :
    hasActiveReservationsForTenant db row.scope.tenantId nowMs = true := by
  refine List.any_eq_true.mpr ⟨row, hrow, ?_⟩
  simp [ReservationRow.counts_mono hcounts hle]

theorem configured_configures {clock : I64} (hkeys : ConfigKeys db)
    (hone : ∀ z z', HasZone db scope.tenantId z → HasZone db scope.tenantId z' → z = z')
    (accepts : ConfigureAccepts db scope limitMinor zone nowMs) (hle : nowMs.val ≤ clock.val) :
    Configures db (upsertConfig db ⟨scope, limitMinor, zone⟩) scope.tenantId zone clock := by
  have htenant : ∀ cfg ∈ db.tenantConfig, cfg.tenantId = scope.tenantId →
      cfg.billingTimezone = zone := by
    intro cfg hcfg hid
    have hload := Table.lookup_of_mem hkeys.tenants hcfg
    rw [hid] at hload
    exact agreeOnZone_eq_ok.mp accepts.tenant _ (by rw [loadTenantConfig, hload]; rfl)
  have hsub : ∀ cfg ∈ db.budgetConfig, cfg.scope.tenantId = scope.tenantId → cfg.scope ≠ scope →
      cfg.billingTimezone = zone := by
    intro cfg hcfg hid hne
    refine sibling_zone hone accepts.sibling hcfg hid ?_
    intro ex hex
    cases hex
    exact ⟨rfl, hne⟩
  refine ⟨rfl, ?_, ?_, ?_⟩
  · rintro t z (⟨cfg, hcfg, rfl, rfl⟩ | ⟨cfg, hcfg, rfl, rfl⟩)
    · by_cases h : cfg.tenantId = scope.tenantId
      · exact .inl ⟨h, htenant cfg hcfg h⟩
      · exact .inr ⟨h, .inl ⟨cfg, hcfg, rfl, rfl⟩⟩
    · rcases (Table.mem_upsert hkeys.scopes).mp hcfg with rfl | ⟨hcfg, hne⟩
      · exact .inl ⟨rfl, rfl⟩
      · by_cases h : cfg.scope.tenantId = scope.tenantId
        · exact .inl ⟨h, hsub cfg hcfg h hne⟩
        · exact .inr ⟨h, .inr ⟨cfg, hcfg, rfl, rfl⟩⟩
  · exact .inr ⟨⟨scope, limitMinor, zone⟩, (Table.mem_upsert hkeys.scopes).mpr (.inl rfl), rfl, rfl⟩
  · rintro row hrow hcounts hid (⟨cfg, hcfg, hcfgId⟩ | ⟨cfg, hcfg, hcfgScope⟩)
    · have h := hcfgId.trans hid
      exact .inl ⟨cfg, hcfg, h, htenant cfg hcfg h⟩
    · refine .inr ⟨cfg, hcfg, hcfgScope ▸ hid, ?_⟩
      by_cases hown : cfg.scope = scope
      · have hload := Table.lookup_of_mem hkeys.scopes hcfg
        rw [hown] at hload
        refine keepZoneWhileLive_eq_ok.mp accepts.kept _ (by rw [loadConfig, hload]; rfl) ?_
        rw [← hown, hcfgScope]
        exact hasActiveForScope hrow hcounts hle
      · exact hsub cfg hcfg (hcfgScope ▸ hid) hown

theorem tenantConfigured_configures {clock : I64} {gate : SpendGate} (hkeys : ConfigKeys db)
    (hone : ∀ z z', HasZone db tenantId z → HasZone db tenantId z' → z = z')
    (accepts : ConfigureTenantAccepts db tenantId limitMinor zone nowMs)
    (hle : nowMs.val ≤ clock.val) :
    Configures db (upsertTenantConfig db ⟨tenantId, limitMinor, zone, gate⟩) tenantId zone
      clock := by
  have hsub : ∀ cfg ∈ db.budgetConfig, cfg.scope.tenantId = tenantId →
      cfg.billingTimezone = zone :=
    fun cfg hcfg hid => sibling_zone hone accepts.sibling hcfg hid (by simp)
  refine ⟨rfl, ?_, ?_, ?_⟩
  · rintro t z (⟨cfg, hcfg, rfl, rfl⟩ | ⟨cfg, hcfg, rfl, rfl⟩)
    · rcases (Table.mem_upsert hkeys.tenants).mp hcfg with rfl | ⟨hcfg, hne⟩
      · exact .inl ⟨rfl, rfl⟩
      · exact .inr ⟨hne, .inl ⟨cfg, hcfg, rfl, rfl⟩⟩
    · by_cases h : cfg.scope.tenantId = tenantId
      · exact .inl ⟨h, hsub cfg hcfg h⟩
      · exact .inr ⟨h, .inr ⟨cfg, hcfg, rfl, rfl⟩⟩
  · exact .inl ⟨⟨tenantId, limitMinor, zone, gate⟩,
      (Table.mem_upsert hkeys.tenants).mpr (.inl rfl), rfl, rfl⟩
  · rintro row hrow hcounts hid (⟨cfg, hcfg, hcfgId⟩ | ⟨cfg, hcfg, hcfgScope⟩)
    · have h := hcfgId.trans hid
      refine .inl ⟨cfg, hcfg, h, ?_⟩
      have hload := Table.lookup_of_mem hkeys.tenants hcfg
      rw [h] at hload
      refine keepZoneWhileLive_eq_ok.mp accepts.kept _ (by rw [loadTenantConfig, hload]; rfl) ?_
      rw [← hid]
      exact hasActiveForTenant hrow hcounts hle
    · exact .inr ⟨cfg, hcfg, hcfgScope ▸ hid, hsub cfg hcfg (hcfgScope ▸ hid)⟩

/-- A configuration leaves every tenant with one zone. -/
theorem Configures.one {clock : I64} (hconf : Configures db db' tenantId zone clock)
    (hone : ∀ t z z', HasZone db t z → HasZone db t z' → z = z') {t z z' : String}
    (hz : HasZone db' t z) (hz' : HasZone db' t z') : z = z' := by
  rcases hconf.zones t z hz with ⟨ht, rfl⟩ | ⟨ht, hold⟩
  · rcases hconf.zones t z' hz' with ⟨-, rfl⟩ | ⟨ht', -⟩
    · rfl
    · exact absurd ht ht'
  · rcases hconf.zones t z' hz' with ⟨ht', -⟩ | ⟨-, hold'⟩
    · exact absurd ht' ht
    · exact hone t z z' hold hold'

/-- A configuration keeps coherence exactly when it fits the revoked reservations. -/
theorem Configures.coherent_iff (h : Coherent zones w) {clock : I64}
    (hclock : clock = w.clock) (hconf : Configures w.db db' tenantId zone clock) :
    Coherent zones ⟨db', w.clock⟩ ↔ FitsRevoked zones w tenantId zone := by
  subst hclock
  constructor
  · intro h' row hrow hcounts hid _
    exact h'.periods row (hconf.rows ▸ hrow) hcounts zone (hid ▸ hconf.self)
  · intro hfits
    refine ⟨?_, ?_⟩
    · intro t z z' hz hz'
      exact hconf.one h.one hz hz'
    · intro row hrow hcounts z hz
      rw [hconf.rows] at hrow
      rcases hconf.zones _ z hz with ⟨hid, rfl⟩ | ⟨-, hold⟩
      · by_cases hcovered : Covered w.db row
        · exact h.periods row hrow hcounts z (hid ▸ hconf.seen row hrow hcounts hid hcovered)
        · exact hfits row hrow hcounts hid hcovered
      · exact h.periods row hrow hcounts z hold

/-- Only the two configuring operations add a zone. -/
theorem Writes.hasZone (h : Writes zones db call db')
    (hsub : ∀ scope limitMinor zone nowMs, call ≠ .configure scope limitMinor zone nowMs)
    (htenant : ∀ t limitMinor zone gate nowMs,
      call ≠ .configureTenant t limitMinor zone gate nowMs)
    (hzone : HasZone db' tenantId zone) : HasZone db tenantId zone := by
  cases h with
  | configured accepts => exact absurd rfl (hsub _ _ _ _)
  | tenantConfigured accepts => exact absurd rfl (htenant _ _ _ _ _)
  | retained keep =>
    rcases hzone with ⟨cfg, hcfg, hrest⟩ | ⟨cfg, hcfg, hrest⟩
    · exact .inl ⟨cfg, List.mem_of_mem_filter hcfg, hrest⟩
    · exact .inr ⟨cfg, List.mem_of_mem_filter hcfg, hrest⟩
  | _ => exact hzone

/-- A row that is live after a call was live before it. -/
theorem RowStep.counts {clock : I64} (h : RowStep call row row') (htimely : call.timely clock)
    (hcounts : row'.counts (call.clockAfter clock) = true) : row.counts clock = true := by
  have hclock := Call.clock_le htimely
  obtain ⟨hactive, hlive⟩ := ReservationRow.counts_iff.mp hcounts
  refine ReservationRow.counts_iff.mpr ⟨h.active hactive, ?_⟩
  cases h with
  | same => omega
  | expired sweeps active due => cases hactive
  | settled isCall id tenant unfinished => cases hactive
  | extended isCall active unexpired renewed lifetime =>
    subst isCall
    simp only [Call.timely] at htimely
    omega
  | released unfinished => cases hactive

theorem RowStep.inZone (h : RowStep call row row') (hzone : InZone zones row zone) :
    InZone zones row' zone := by
  simpa only [InZone, h.createdAtMs, h.period, h.tenantPeriod] using hzone

/-- A reservation starts with the periods of its tenant's zone. -/
theorem Reserves.inZone {a : Admit} {adm : Admission} {estimate expires : I64}
    (h : Reserves zones db a adm estimate expires)
    (hone : ∀ z z', HasZone db a.scope.tenantId z → HasZone db a.scope.tenantId z' → z = z')
    (hzone : HasZone db a.scope.tenantId zone) : InZone zones (a.row adm estimate expires) zone := by
  have hsub : ∀ cfg, loadConfig db a.scope = some cfg → cfg.billingTimezone = zone := by
    intro cfg hcfg
    have hscope := Table.lookup_key hcfg
    exact hone _ _ (.inr ⟨cfg, Table.lookup_mem hcfg, by rw [hscope], rfl⟩) hzone
  have htenant : ∀ cfg, loadTenantConfig db a.scope.tenantId = some cfg →
      cfg.billingTimezone = zone := by
    intro cfg hcfg
    exact hone _ _ (.inl ⟨cfg, Table.lookup_mem hcfg, Table.lookup_key hcfg, rfl⟩) hzone
  have hperiod := h.opens.period
  have htenantPeriod := h.opens.tenantPeriod
  cases hcfg : loadConfig db a.scope with
  | some cfg =>
    rw [hcfg, admitPeriod, hsub cfg hcfg] at hperiod
    cases hten : loadTenantConfig db a.scope.tenantId with
    | some ten =>
      rw [hten, admitTenantPeriod, htenant ten hten] at htenantPeriod
      exact ⟨hperiod, htenantPeriod⟩
    | none =>
      rw [hten, hcfg, admitTenantPeriod, Except.ok.injEq] at htenantPeriod
      refine ⟨hperiod, ?_⟩
      simp only [Admit.row, ← htenantPeriod]
      exact hperiod
  | none =>
    cases hten : loadTenantConfig db a.scope.tenantId with
    | some ten =>
      rw [hten, admitTenantPeriod, htenant ten hten] at htenantPeriod
      rw [hcfg, hten, admitPeriod, htenant ten hten] at hperiod
      exact ⟨hperiod, htenantPeriod⟩
    | none =>
      rw [hcfg, hten] at hperiod
      cases hperiod

/-- Every call that configures nothing keeps coherence. -/
theorem Coherent.keeps (hsound : Sound w) (h : Coherent zones w) (htimely : call.timely w.clock)
    (hwrites : Writes zones w.db call db')
    (hsub : ∀ scope limitMinor zone nowMs, call ≠ .configure scope limitMinor zone nowMs)
    (htenant : ∀ t limitMinor zone gate nowMs,
      call ≠ .configureTenant t limitMinor zone gate nowMs) :
    Coherent zones ⟨db', call.clockAfter w.clock⟩ := by
  have hzones : ∀ {t z}, HasZone db' t z → HasZone w.db t z :=
    fun hz => hwrites.hasZone hsub htenant hz
  refine ⟨fun t z z' hz hz' => h.one t z z' (hzones hz) (hzones hz'), ?_⟩
  intro row' hrow' hcounts z hz
  rcases (hwrites.rows hsound.conserved.ids).origin hrow' with
    ⟨row, hrow, hstep⟩ | ⟨a, adm, estimate, expires, -, hreserves, rfl⟩
  · refine hstep.inZone (h.periods row hrow (hstep.counts htimely hcounts) z ?_)
    rw [← hstep.scope]
    exact hzones hz
  · exact hreserves.inZone (fun z z' => h.one _ z z') (hzones hz)

/-- One call keeps coherence exactly when it meets its condition. -/
theorem Coherent.exec_iff (hsound : Sound w) (hkeys : ConfigKeys w.db) (h : Coherent zones w)
    (htimely : call.timely w.clock) :
    Coherent zones ⟨exec zones call w.db, call.clockAfter w.clock⟩ ↔ CallFits zones w call := by
  have hwrites := exec_writes zones call w.db
  cases call with
  | configure scope limitMinor zone nowMs =>
    by_cases accepts : ConfigureAccepts w.db scope limitMinor zone nowMs
    · have hconf := configured_configures hkeys (h.one _) accepts htimely
      rw [configure_accepted accepts]
      exact (hconf.coherent_iff h rfl).trans ⟨fun hfits _ => hfits, fun hfits => hfits accepts⟩
    · rw [configure_refused accepts]
      exact ⟨fun _ haccepts => absurd haccepts accepts, fun _ => h⟩
  | configureTenant t limitMinor zone gate nowMs =>
    by_cases accepts : ConfigureTenantAccepts w.db t limitMinor zone nowMs
    · have hconf : Configures w.db (upsertTenantConfig w.db ⟨t, limitMinor, zone, gate⟩) t zone
          w.clock := tenantConfigured_configures hkeys (h.one _) accepts htimely
      rw [configureTenant_accepted accepts]
      exact (hconf.coherent_iff h rfl).trans ⟨fun hfits _ => hfits, fun hfits => hfits accepts⟩
    · rw [configureTenant_refused accepts]
      exact ⟨fun _ haccepts => absurd haccepts accepts, fun _ => h⟩
  | _ => exact ⟨fun _ => trivial, fun _ => h.keeps hsound htimely hwrites (by simp) (by simp)⟩

theorem Coherent.step_iff (hsound : Sound w) (hkeys : ConfigKeys w.db) (h : Coherent zones w)
    (hstep : (timedLedger zones).step w tick w') : Coherent zones w' ↔ TickFits zones w tick := by
  have hnothing : ∀ {clock : I64}, w.clock.val ≤ clock.val → Coherent zones ⟨w.db, clock⟩ := by
    intro clock hle
    exact ⟨h.one, fun row hrow hcounts =>
      h.periods row hrow (ReservationRow.counts_mono hcounts hle)⟩
  cases tick with
  | advance nowMs =>
    obtain ⟨hle, rfl⟩ := hstep
    exact ⟨fun _ => trivial, fun _ => hnothing hle⟩
  | event e =>
    obtain ⟨htimely, rfl⟩ := hstep
    cases e with
    | returns call => exact h.exec_iff hsound hkeys htimely
    | crashesBeforeCommit call =>
      exact ⟨fun _ => trivial, fun _ => hnothing (Call.clock_le htimely)⟩
    | crashesAfterCommit call => exact h.exec_iff hsound hkeys htimely

theorem coherent_start (start : I64) : Coherent zones (World.start start) where
  one := by
    rintro t z z' (⟨cfg, hcfg, -⟩ | ⟨cfg, hcfg, -⟩) <;> cases hcfg
  periods := by
    intro row hrow
    cases hrow

theorem ConfigKeys.step (h : ConfigKeys w.db) (hstep : (timedLedger zones).step w tick w') :
    ConfigKeys w'.db := by
  rcases timed_step hstep with ⟨-, hsame⟩ | ⟨call, -, -, hwrites⟩
  · exact hsame ▸ h
  · exact h.writes hwrites

/-- The runs all of whose states are coherent are exactly the runs in which every configuration
that is let through fits the live reservations whose own configuration has been revoked. -/
theorem billing_zone_coherent_iff (zones : Zones) (start : I64) (ticks : List Tick) (w : World) :
    ((timedLedger zones).restrict (TickFits zones)).Run (World.start start) ticks w ↔
      ((timedLedger zones).restrict fun w _ => Coherent zones w).Run (World.start start) ticks w ∧
        Coherent zones w := by
  refine System.Run.restrict_iff (fun w => Sound w ∧ ConfigKeys w.db) (Coherent zones) ?_ ?_
    ⟨sound_start start, by simp [World.start, Db.empty], by simp [World.start, Db.empty]⟩
    (coherent_start start)
  · intro w tick w' hw hstep
    exact ⟨hw.1.step hstep, hw.2.step hstep⟩
  · intro w tick w' hw hcoherent hstep
    exact hcoherent.step_iff hw.1 hw.2 hstep

section Revoked

/-- Half past midnight of a first of September in Bangkok, still August in UTC. -/
def bangkokSeptember : I64 := .lit 1788197400000

def meteredScope : BudgetScope := ⟨"acme", "key", "provider", "model"⟩

def bangkokRow : ReservationRow :=
  { id := "r1", scope := meteredScope, period := "2026-09", tenantPeriod := "2026-09",
    reservedMinor := .lit 60, status := .active, createdAtMs := bangkokSeptember,
    expiresAtMs := .lit 1788197700000, actualCostMinor := none }

/-- A scope configured for Bangkok and one reservation in it. -/
def reservedInBangkok : World :=
  ((World.start bangkokSeptember).after twoZones (.returns
    (.configure meteredScope (.lit 100) "Asia/Bangkok" bangkokSeptember))).after twoZones (.returns
      (.reserve
        { ledger := ⟨.lit 300000, by decide⟩, scope := meteredScope,
          estimatedCost := .known (.lit 60), id := "r1",
          clock := ⟨bangkokSeptember, bangkokSeptember, bangkokSeptember⟩ }))

/-- The configuration is revoked and the scope configured again, for UTC. -/
def movedToUtc : World :=
  (reservedInBangkok.after twoZones (.returns (.retainTenants []))).after twoZones
    (.returns (.configure meteredScope (.lit 100) "UTC" bangkokSeptember))

/-- The revoked configuration lets the zone change under a live reservation: its periods are
those of Bangkok, while its tenant is now billed in UTC. -/
theorem billing_zone_broken :
    ¬ ∀ (start : I64) (ticks : List Tick) (w : World),
      (timedLedger twoZones).Run (World.start start) ticks w → Coherent twoZones w := by
  intro h
  have hstart : ((timedLedger twoZones).restrict fun _ _ => True).Run
    (World.start bangkokSeptember) [] (World.start bangkokSeptember) := .nil
  have hconfigured := run_event (e := .returns
    (.configure meteredScope (.lit 100) "Asia/Bangkok" bangkokSeptember)) hstart trivial (by decide)
  have hreserved := run_event (e := .returns (.reserve
    { ledger := ⟨.lit 300000, by decide⟩, scope := meteredScope,
      estimatedCost := .known (.lit 60), id := "r1",
      clock := ⟨bangkokSeptember, bangkokSeptember, bangkokSeptember⟩ })) hconfigured trivial
    (by decide)
  have hrevoked := run_event (e := .returns (.retainTenants [])) hreserved trivial trivial
  have hmoved := run_event (e := .returns
    (.configure meteredScope (.lit 100) "UTC" bangkokSeptember)) hrevoked trivial (by decide)
  have hcoherent : Coherent twoZones movedToUtc := h _ _ _ hmoved.of_restrict
  have hzone : HasZone movedToUtc.db "acme" "UTC" :=
    .inr ⟨⟨meteredScope, .lit 100, "UTC"⟩, by decide, rfl, rfl⟩
  have hperiods : InZone twoZones bangkokRow "UTC" :=
    hcoherent.periods bangkokRow (by decide) (by decide) "UTC" hzone
  exact absurd hperiods.1 (by decide)

end Revoked

end Ledger
