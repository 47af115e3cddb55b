import IDoris.Ledger.Conservation
import IDoris.Ledger.Rows

/-!
# The ledger under one clock

Connections share a clock that never goes back. `reserve`, `check_admission` and
`extend` read it under the write lock; `configure`, `configure_tenant`, `settle`
and `sweep_expired` have read it before they got the lock, so their reading may
be older than the clock their transaction runs at.
-/
namespace Ledger

open Bounded Transition

/-- The ledger file and the clock at the last commit. -/
structure World where
  db : Db
  clock : I64

inductive Tick where
  | advance (nowMs : I64)
  | event (e : Event)

def Event.call : Event → Call
  | .returns call => call
  | .crashesBeforeCommit call => call
  | .crashesAfterCommit call => call

/-- The readings a call can have taken when it gets the lock at this clock. -/
def Call.timely (clock : I64) : Call → Prop
  | .configure _ _ _ nowMs => nowMs.val ≤ clock.val
  | .configureTenant _ _ _ _ nowMs => nowMs.val ≤ clock.val
  | .sweepExpired nowMs => nowMs.val ≤ clock.val
  | .settle s => s.nowMs.val ≤ clock.val
  | .replaySettlement s => s.nowMs.val ≤ clock.val
  | .reserve a => clock.val ≤ a.clock.nowMs.val ∧ a.clock.nowMs.val ≤ a.clock.beforeCommitMs.val
  | .checkAdmission a =>
    clock.val ≤ a.clock.nowMs.val ∧ a.clock.nowMs.val ≤ a.clock.beforeCommitMs.val
  | .extend _ _ _ _ r => clock.val ≤ r.nowMs.val ∧ r.nowMs.val ≤ r.beforeCommitMs.val
  | .retainTenants _ => True
  | .release _ _ => True

instance (clock : I64) (call : Call) : Decidable (call.timely clock) := by
  cases call <;> unfold Call.timely <;> infer_instance

/-- The clock when the call's transaction ends. -/
def Call.clockAfter (clock : I64) : Call → I64
  | .reserve a => a.clock.beforeCommitMs
  | .checkAdmission a => a.clock.beforeCommitMs
  | .extend _ _ _ _ r => r.beforeCommitMs
  | _ => clock

def World.after (zones : Zones) (w : World) (e : Event) : World :=
  ⟨e.apply zones w.db, e.call.clockAfter w.clock⟩

def timedLedger (zones : Zones) : System World Tick where
  step
    | w, .advance nowMs, w' => w.clock.val ≤ nowMs.val ∧ w' = { w with clock := nowMs }
    | w, .event e, w' => e.call.timely w.clock ∧ w' = w.after zones e

/-- A ledger file just created, at any time. -/
def World.start (clock : I64) : World := ⟨Db.empty, clock⟩

variable {zones : Zones} {w w' : World} {tick : Tick} {ticks : List Tick} {start : I64}

theorem Call.clock_le {clock : I64} {call : Call} (h : call.timely clock) :
    clock.val ≤ (call.clockAfter clock).val := by
  cases call <;> simp only [Call.timely, Call.clockAfter] at h ⊢ <;> omega

/-- What an event leaves is one of the writes of its call. -/
theorem Event.writes (zones : Zones) (db : Db) (e : Event) :
    Writes zones db e.call (e.apply zones db) := by
  cases e with
  | returns call => exact exec_writes zones call db
  | crashesBeforeCommit call => exact .nothing call
  | crashesAfterCommit call => exact exec_writes zones call db

/-- Every step is time passing, or one of the listed writes at its call's time. -/
theorem timed_step (h : (timedLedger zones).step w tick w') :
    (w.clock.val ≤ w'.clock.val ∧ w'.db = w.db) ∨
    ∃ call, call.timely w.clock ∧ w'.clock = call.clockAfter w.clock ∧
      Writes zones w.db call w'.db := by
  cases tick with
  | advance nowMs =>
    obtain ⟨hle, rfl⟩ := h
    exact .inl ⟨hle, rfl⟩
  | event e =>
    obtain ⟨htimely, rfl⟩ := h
    exact .inr ⟨e.call, htimely, rfl, e.writes zones w.db⟩

theorem clock_mono (h : (timedLedger zones).step w tick w') : w.clock.val ≤ w'.clock.val := by
  rcases timed_step h with ⟨hle, -⟩ | ⟨call, htimely, hclock, -⟩
  · exact hle
  · rw [hclock]
    exact Call.clock_le htimely

/-- A run that meets a condition on its steps goes on with any call that meets it. -/
theorem run_event {P : World → Tick → Prop} {w₀ : World} {e : Event}
    (h : ((timedLedger zones).restrict P).Run w₀ ticks w) (hP : P w (.event e))
    (htimely : e.call.timely w.clock) :
    ((timedLedger zones).restrict P).Run w₀ (ticks ++ [.event e]) (w.after zones e) :=
  .snoc h ⟨hP, htimely, rfl⟩

theorem sweeps_le_clockAfter {clock nowMs : I64} {call : Call} (h : call.timely clock)
    (sweeps : call.sweeps nowMs) : nowMs.val ≤ (call.clockAfter clock).val := by
  cases call <;> simp only [Call.sweeps, Call.timely, Call.clockAfter] at sweeps h ⊢ <;>
    subst sweeps <;> omega

/-- What the amounts, the statuses and the limits satisfy while the clock never goes back. -/
structure Sound (w : World) : Prop where
  conserved : Conserved w.db
  reserved : ∀ row ∈ w.db.reservations, 0 ≤ row.reservedMinor.val
  expired : ∀ row ∈ w.db.reservations, row.status = .expired → row.expiresAtMs.val ≤ w.clock.val
  scopeLimits : ∀ cfg ∈ w.db.budgetConfig, 0 ≤ cfg.limitMinor.val
  tenantLimits : ∀ cfg ∈ w.db.tenantConfig, 0 ≤ cfg.limitMinor.val

theorem sound_start (start : I64) : Sound (World.start start) where
  conserved := conserved_empty
  reserved := by simp [World.start, Db.empty]
  expired := by simp [World.start, Db.empty]
  scopeLimits := by simp [World.start, Db.empty]
  tenantLimits := by simp [World.start, Db.empty]

/-- Only `configure` adds a sub-scope configuration, with a limit it has checked. -/
theorem Writes.scopeLimits {db db' : Db} {call : Call} (h : Writes zones db call db')
    (hlimits : ∀ cfg ∈ db.budgetConfig, 0 ≤ cfg.limitMinor.val) :
    ∀ cfg ∈ db'.budgetConfig, 0 ≤ cfg.limitMinor.val := by
  intro cfg hcfg
  cases h with
  | configured accepts =>
    rcases Table.mem_of_mem_upsert hcfg with rfl | hcfg
    · exact accepts.limit
    · exact hlimits cfg hcfg
  | retained keep => exact hlimits cfg (List.mem_of_mem_filter hcfg)
  | _ => exact hlimits cfg hcfg

theorem Writes.tenantLimits {db db' : Db} {call : Call} (h : Writes zones db call db')
    (hlimits : ∀ cfg ∈ db.tenantConfig, 0 ≤ cfg.limitMinor.val) :
    ∀ cfg ∈ db'.tenantConfig, 0 ≤ cfg.limitMinor.val := by
  intro cfg hcfg
  cases h with
  | tenantConfigured accepts =>
    rcases Table.mem_of_mem_upsert hcfg with rfl | hcfg
    · exact accepts.limit
    · exact hlimits cfg hcfg
  | retained keep => exact hlimits cfg (List.mem_of_mem_filter hcfg)
  | _ => exact hlimits cfg hcfg

/-- A row turns expired only by a reading the clock has reached. -/
theorem RowStep.expired_le {call : Call} {row row' : ReservationRow} {clock : I64}
    (h : RowStep call row row') (htimely : call.timely clock) (hexpired : row'.status = .expired)
    (hrow : row.status = .expired → row.expiresAtMs.val ≤ clock.val) :
    row'.expiresAtMs.val ≤ (call.clockAfter clock).val := by
  have hclock := Call.clock_le htimely
  cases h with
  | same =>
    have := hrow hexpired
    omega
  | expired sweeps active due =>
    have := sweeps_le_clockAfter htimely sweeps
    simp only
    omega
  | settled isCall id tenant unfinished => cases hexpired
  | extended isCall active unexpired renewed lifetime =>
    rw [active] at hexpired
    cases hexpired
  | released unfinished => cases hexpired

theorem Sound.step (h : Sound w) (hstep : (timedLedger zones).step w tick w') : Sound w' := by
  have hclock := clock_mono hstep
  rcases timed_step hstep with ⟨-, hsame⟩ | ⟨call, htimely, hafter, hwrites⟩
  · refine ⟨hsame ▸ h.conserved, hsame ▸ h.reserved, ?_, hsame ▸ h.scopeLimits,
      hsame ▸ h.tenantLimits⟩
    intro row hrow hexpired
    have := h.expired row (hsame ▸ hrow) hexpired
    omega
  · have hrows := hwrites.rows h.conserved.ids
    refine ⟨h.conserved.writes hwrites, ?_, ?_, hwrites.scopeLimits h.scopeLimits,
      hwrites.tenantLimits h.tenantLimits⟩
    · intro row' hrow'
      rcases hrows.origin hrow' with ⟨row, hrow, hrowStep⟩ | ⟨a, adm, estimate, expires, -, hr, rfl⟩
      · rw [hrowStep.reservedMinor]
        exact h.reserved row hrow
      · exact hr.priced
    · intro row' hrow' hexpired
      rw [hafter]
      rcases hrows.origin hrow' with ⟨row, hrow, hrowStep⟩ | ⟨a, adm, estimate, expires, -, -, rfl⟩
      · exact hrowStep.expired_le htimely hexpired (h.expired row hrow)
      · cases hexpired

theorem sound_run (h : (timedLedger zones).Run (World.start start) ticks w) : Sound w :=
  h.invariant Sound (fun _ _ _ hs hstep => hs.step hstep) (sound_start start)

end Ledger
