import IDoris.Proxy.Handover

/-!
# At most one POST for a key

Two callers are never in the send step for one key, and once the POST of a key may have been
executed nobody sends for it again until the window is over.
-/
namespace Proxy

open Interaction Program Slots Transition

variable {E : Type} {config : ProxyConfig}

section Minds

variable {c m : Caller E} {mandate : Mandate} {op : Action}

/-- Where a caller with this mandate stands. -/
def Mandate.Fits (c : Caller E) : Mandate → Prop
  | .free => c.call.key = none ∧ c.flight = none
  | .outside => c.phase = .outside ∧ c.flight = none
  | .joined => c.phase = .joined
  | .locked => c.phase = .locked
  | .sending | .spent => c.guarded = some true ∧ c.phase.Began
  | .ended => True

theorem Mandate.Fits.spend (h : mandate.Fits c) : mandate.spend.Fits c := by
  cases mandate <;> exact h

theorem Mandate.Fits.next (h : mandate.Fits c) (hallowed : mandate.Allows op)
    (answer : op.Answer E) (program : Forward E (Except E ForwardOutcome)) :
    (mandate.next op answer).Fits { c with
      program := program
      stage := .between
      phase := c.phase.next op answer
      guarded := op.guards c.guarded } := by
  have hspent : ∀ spends : Bool, (if spends then mandate.spend else mandate).Fits c := by
    intro spends
    cases spends with
    | true => exact h.spend
    | false => exact h
  cases op with
  | acquirePermit | lookup | claimSend | observe | sleepRetry _ | remember _ => exact h
  | send | read _ | gate _ | completed _ => exact hspent (Action.spends _ answer)
  | enter =>
    cases answer with
    | flight _ => rfl
    | hit _ | full => exact h
  | lockOutcome =>
    cases answer with
    | none => rfl
    | some _ => trivial
  | begin => exact ⟨rfl, .inl rfl⟩
  | resize replay =>
    cases answer with
    | false => exact h
    | true =>
      obtain rfl | rfl := hallowed
      · exact ⟨h.1, .inr ⟨replay, rfl⟩⟩
      · exact ⟨h.1, .inr ⟨replay, rfl⟩⟩
  | retainCompleted | disarm | reset | publish _ => trivial

namespace Caller

/-- The rest of the program keeps to a mandate that fits where the caller stands. -/
def Minds (c : Caller E) : Prop :=
  ∃ mandate, Safe (Mandate.watch E) (fun _ _ => True) c.program mandate ∧ mandate.Fits c

/-- The caller waits for the outcome, or has nothing left to send for. -/
def Idle (c : Caller E) : Prop :=
  ∃ mandate, Safe (Mandate.watch E) (fun _ _ => True) c.program mandate ∧
    (mandate = .joined ∧ c.phase = .joined ∨ mandate.Done)

theorem Minds.step (h : c.Minds) (hstep : c.Step m) (hstage : m.stage ≠ .leaving) : m.Minds := by
  obtain ⟨mandate, hsafe, hfits⟩ := h
  cases hstep with
  | waits stage _ => exact ⟨mandate, hsafe, hfits⟩
  | joins next theirs f hprogram _ =>
    rw [hprogram] at hsafe
    exact ⟨.joined, hsafe.2 (.flight theirs), rfl⟩
  | answered op next answer hprogram _ =>
    rw [hprogram] at hsafe
    exact ⟨mandate.next op answer, hsafe.2 answer, hfits.next hsafe.1 answer (next answer)⟩
  | leaves _ _ hleaves => exact absurd hleaves hstage

/-- Who comes to a flight waits for its outcome. -/
theorem Minds.joins (h : c.Minds) (hstep : c.Step m) (hflight : m.flight ≠ c.flight)
    (hstage : m.stage ≠ .leaving) : m.Idle := by
  obtain ⟨mandate, hsafe, -⟩ := h
  cases hstep with
  | waits _ _ | answered _ _ _ _ _ => exact absurd rfl hflight
  | joins next theirs f hprogram _ =>
    rw [hprogram] at hsafe
    exact ⟨.joined, hsafe.2 (.flight theirs), .inl ⟨rfl, rfl⟩⟩
  | leaves _ _ hleaves => exact absurd hleaves hstage

theorem Idle.step (h : c.Idle) (hstep : c.Step m) (hlocked : m.phase = .locked → c.phase = .locked)
    (hstage : m.stage ≠ .leaving) : m.Idle := by
  obtain ⟨mandate, hsafe, hidle⟩ := h
  cases hstep with
  | waits stage _ => exact ⟨mandate, hsafe, hidle⟩
  | joins next theirs f hprogram _ =>
    rw [hprogram] at hsafe
    exact ⟨.joined, hsafe.2 (.flight theirs), .inl ⟨rfl, rfl⟩⟩
  | answered op next answer hprogram _ =>
    rw [hprogram] at hsafe
    refine ⟨mandate.next op answer, hsafe.2 answer, ?_⟩
    obtain ⟨rfl, hphase⟩ | hdone := hidle
    · cases op with
      | acquirePermit | lookup => exact .inl ⟨rfl, hphase⟩
      | lockOutcome =>
        cases answer with
        | none =>
          have hjoined := hlocked rfl
          rw [hphase] at hjoined
          cases hjoined
        | some _ => exact .inr (.inr rfl)
      | enter | begin | disarm | reset => cases hsafe.1
      | claimSend | observe | send | sleepRetry _ | read _ | remember _ | resize _
        | retainCompleted => exact (hsafe.1.elim nofun nofun)
      | gate _ | completed _ | publish _ => exact (hsafe.1.elim nofun (Or.elim · nofun nofun))
    · exact .inr (hdone.next hsafe.1 answer)
  | leaves _ _ hleaves => exact absurd hleaves hstage

/-- An idle caller neither sends nor takes back what another one did. -/
theorem Idle.refrains {next : op.Answer E → Forward E (Except E ForwardOutcome)} (h : c.Idle)
    (hprogram : c.program = .ask op next) :
    op.isSend = false ∧ op ≠ .disarm ∧ op ≠ .reset := by
  obtain ⟨mandate, hsafe, hidle⟩ := h
  rw [hprogram] at hsafe
  have hallowed := hsafe.1
  refine ⟨?_, ?_, ?_⟩
  · obtain ⟨rfl, -⟩ | hdone := hidle
    · cases op with
      | send | sleepRetry _ | read _ => exact (hallowed.elim nofun nofun)
      | _ => rfl
    · cases hsend : op.isSend with
      | false => rfl
      | true => exact absurd hallowed (hdone.not_sends hsend)
  · rintro rfl
    obtain ⟨rfl, -⟩ | rfl | rfl := hidle
    · cases hallowed
    · cases hallowed
    · cases hallowed
  · rintro rfl
    obtain ⟨rfl, -⟩ | rfl | rfl := hidle
    · cases hallowed
    · cases hallowed
    · cases hallowed

end Caller

end Minds

namespace Caller

/-- The caller is in the send step for a key. -/
def Sends (c : Caller E) (key : String) : Prop :=
  c.call.key = some key ∧ c.stage ≠ .leaving ∧
    ∃ op next, c.program = .ask op next ∧ op.isSend = true

theorem key_of_some {c : Caller E} {key : String} (h : c.call.key = some key) : c.key = key := by
  rw [Caller.key, h]
  rfl

end Caller

namespace World

/-- Every caller minds its mandate, and the flight it holds is the one of its key. -/
structure Minded (w : World E) : Prop where
  minds : ∀ c ∈ w.callers, c.stage ≠ .leaving → c.Minds
  located : ∀ c ∈ w.callers, ∀ f, c.flight = some f → w.shared.flights.get c.key = some f
  timely : ∀ c ∈ w.callers, ∀ now left, c.stage = .scanning now left → now ≤ w.shared.clock
  stocked : ∀ c ∈ w.callers, c.phase.Began →
    ∃ f, c.flight = some f ∧ (w.shared.heap f).outcome.isSome = true

section Steps

variable {w w' : World E} {i j : Nat} {c d m : Caller E} {key : String} {event : Event E}

theorem Sound.owns (h : w.Sound config) (hi : w.callers[i]? = some c) (hbegan : c.phase.Began) :
    ∃ f, c.Owns w.shared i f := by
  have hagrees := (h.fits i c hi).agrees
  obtain hphase | ⟨replay, hphase⟩ := hbegan
  · simp only [Caller.Agrees, hphase] at hagrees
    exact hagrees.imp fun _ hf => hf.1
  · simp only [Caller.Agrees, hphase] at hagrees
    exact hagrees.imp fun _ hf => hf.1

/-- Two leaders of a flight are one. -/
theorem Sound.leader_unique {f : Nat} (h : w.Sound config) (hi : w.callers[i]? = some c)
    (hj : w.callers[j]? = some d) (hc : c.phase.Began) (hd : d.phase.Began)
    (hcf : c.flight = some f) (hdf : d.flight = some f) : i = j := by
  obtain ⟨g, howns⟩ := h.owns hi hc
  obtain ⟨g', howns'⟩ := h.owns hj hd
  obtain rfl : g = f := Option.some.inj (howns.1.symm.trans hcf)
  obtain rfl : g' = g := Option.some.inj (howns'.1.symm.trans hdf)
  exact Option.some.inj (howns.2.symm.trans howns'.2)

theorem Sound.registered_of_mem {f : Nat} (h : w.Sound config) (hc : c ∈ w.callers)
    (hf : c.flight = some f) : f ∈ w.shared.flights.values := by
  obtain ⟨i, hi⟩ := List.mem_iff_getElem?.mp hc
  exact (h.fits i c hi).registered f hf

/-- A held flight stays where it is. -/
theorem Turned.held {f : Nat} (h : w.Turned config w' i c m) (hd : d ∈ w.callers)
    (hf : d.flight = some f) (hget : w.shared.flights.get key = some f) :
    w'.shared.flights.get key = some f := by
  obtain hkept | ⟨hunheld, -⟩ := h.kept key f hget
  · exact hkept
  · exact absurd hf (hunheld d hd)

theorem Minded.turned (hsound : w.Sound config) (h : w.Minded) (hi : w.callers[i]? = some c)
    (hturned : w.Turned config w' i c m) : w'.Minded := by
  have hmem := mem_of_get hi
  have hcases : ∀ d ∈ w'.callers, d = m ∨ ∃ j, j ≠ i ∧ w.callers[j]? = some d := by
    intro d hd
    rw [hturned.callers] at hd
    exact mem_set hd
  constructor
  · intro d hd hstage
    obtain rfl | ⟨j, -, hj⟩ := hcases d hd
    · exact (h.minds c hmem (hturned.step.stays hstage)).step hturned.step hstage
    · exact h.minds d (mem_of_get hj) hstage
  · intro d hd f hf
    obtain rfl | ⟨j, -, hj⟩ := hcases d hd
    · rw [hturned.step.key]
      obtain hold | hnew := hturned.found f hf
      · exact hturned.held hmem hold (h.located c hmem f hold)
      · exact hnew
    · exact hturned.held (mem_of_get hj) hf (h.located d (mem_of_get hj) f hf)
  · intro d hd now left hstage
    rw [hturned.clock]
    obtain rfl | ⟨j, -, hj⟩ := hcases d hd
    · obtain rfl | ⟨all, hscan⟩ := hturned.timely now left hstage
      · exact Nat.le_refl _
      · exact h.timely c hmem now all hscan
    · exact h.timely d (mem_of_get hj) now left hstage
  · intro d hd hbegan
    obtain rfl | ⟨j, hne, hj⟩ := hcases d hd
    · obtain ⟨hflight, hbefore | ⟨f, hf, hsome⟩⟩ := hturned.began hbegan
      · obtain ⟨f, hf, hsome⟩ := h.stocked c hmem hbefore
        obtain hstill | ⟨-, hended, -⟩ :=
          hturned.stored f (hsound.registered_of_mem hmem hf) hsome
        · exact ⟨f, hflight.trans hf, hstill⟩
        · exact absurd hbegan hended
      · exact ⟨f, hflight.trans hf, hsome⟩
    · obtain ⟨f, hf, hsome⟩ := h.stocked d (mem_of_get hj) hbegan
      obtain hstill | ⟨hcf, -, hleaving, next, hprogram⟩ :=
        hturned.stored f (hsound.registered_of_mem (mem_of_get hj) hf) hsome
      · exact ⟨f, hf, hstill⟩
      · have hleads : c.phase.Began := .inl (hsound.allowed hi hprogram hleaving)
        exact absurd (hsound.leader_unique hj hi hbegan hleads hf hcf) hne

theorem Minded.arrive (h : w.Minded) (call : ForwardCall) :
    Minded { w with callers := w.callers ++ [newCaller config call] } := by
  have hcases : ∀ d ∈ w.callers ++ [newCaller config call],
      d = newCaller config call ∨ d ∈ w.callers := by
    intro d hd
    exact (List.mem_append.mp hd).symm.imp_left List.mem_singleton.mp
  constructor
  · intro d hd hstage
    obtain rfl | hd := hcases d hd
    · refine ⟨call.firstMandate, mandated_forwardBuffered call, ?_⟩
      unfold ForwardCall.firstMandate
      cases hkey : call.key with
      | none => exact ⟨hkey, rfl⟩
      | some _ => exact ⟨rfl, rfl⟩
    · exact h.minds d hd hstage
  · intro d hd f hf
    obtain rfl | hd := hcases d hd
    · cases hf
    · exact h.located d hd f hf
  · intro d hd now left hstage
    obtain rfl | hd := hcases d hd
    · cases hstage
    · exact h.timely d hd now left hstage
  · intro d hd hbegan
    obtain rfl | hd := hcases d hd
    · obtain hphase | ⟨_, hphase⟩ := hbegan
      · cases hphase
      · cases hphase
    · exact h.stocked d hd hbegan

theorem cancel_eq (hstep : w.cancel i c = some w') : w' = w.depart i c := by
  unfold World.cancel at hstep
  split at hstep
  · split at hstep
    · exact (Option.some.inj hstep).symm
    · cases hstep
  · cases hstep

theorem Minded.step (hsound : w.Sound config) (h : w.Minded)
    (hstep : w.step config event = some w') : w'.Minded := by
  cases event with
  | arrive call =>
    obtain rfl := Option.some.inj hstep
    exact h.arrive call
  | turn i replies =>
    obtain ⟨c, hi, hturn⟩ := Option.bind_eq_some_iff.mp hstep
    obtain ⟨m, hturned⟩ := hsound.turned hi hturn
    exact h.turned hsound hi hturned
  | drop i =>
    obtain ⟨c, hi, hcancel⟩ := Option.bind_eq_some_iff.mp hstep
    obtain rfl := cancel_eq hcancel
    exact h.turned hsound hi turned_depart
  | tick elapsed =>
    obtain rfl := Option.some.inj hstep
    exact ⟨h.minds, h.located, fun c hc now left hstage =>
      Nat.le_add_right_of_le (h.timely c hc now left hstage), h.stocked⟩
  | rehash n =>
    obtain rfl := Option.some.inj hstep
    exact ⟨h.minds, fun c hc f hf => Keyed.Map.get_exchange.trans (h.located c hc f hf),
      h.timely, h.stocked⟩

theorem minded_start : Minded (start config : World E) := by
  constructor
  · intro c hc
    cases hc
  · intro c hc
    cases hc
  · intro c hc
    cases hc
  · intro c hc
    cases hc

end Steps

section Protection

variable {w w' : World E} {i j : Nat} {c d m : Caller E} {key : String} {event : Event E}
  {since f : Nat}

/-- The flight of the key keeps others from sending: everyone that has it is idle, and it stays
for the window after its guard, or was stamped since. -/
structure Guards (w : World E) (key : String) (since f : Nat) : Prop where
  registered : w.shared.flights.get key = some f
  stored : (w.shared.heap f).outcome.isSome = true
  idle : ∀ c ∈ w.callers, c.flight = some f → c.stage ≠ .leaving → c.Idle
  kept : (∃ t, since ≤ t ∧ (w.shared.heap f).cancelledAt = some t) ∨
    ∃ c ∈ w.callers, c.flight = some f ∧ c.guarded = some true

/-- Nobody sends for the key until the window since then is over. -/
def Protected (config : ProxyConfig) (w : World E) (key : String) (since : Nat) : Prop :=
  since + config.window ≤ w.shared.clock ∨ since ≤ w.shared.clock ∧ ∃ f, w.Guards key since f

/-- A step of the guarding flight's own holder, or of another caller, leaves it guarding. -/
theorem Guards.idle_turned (hminded : w.Minded) (h : w.Guards key since f)
    (hi : w.callers[i]? = some c) (hturned : w.Turned config w' i c m) (hf : m.flight = some f)
    (hstage : m.stage ≠ .leaving) : m.Idle := by
  have hmem := mem_of_get hi
  have hleaving := hturned.step.stays hstage
  by_cases hsame : m.flight = c.flight
  · have hcf : c.flight = some f := hsame ▸ hf
    refine (h.idle c hmem hcf hleaving).step hturned.step ?_ hstage
    intro hlocked
    obtain hphase | ⟨g, hg, hnone⟩ := hturned.locked hlocked
    · exact hphase
    · obtain rfl : g = f := Option.some.inj (hg.symm.trans hcf)
      have hstored := h.stored
      rw [hnone] at hstored
      cases hstored
  · exact (hminded.minds c hmem hleaving).joins hturned.step hsame hstage

theorem Guards.kept_turned (h : w.Guards key since f) (hsince : since ≤ w.shared.clock)
    (hi : w.callers[i]? = some c) (hturned : w.Turned config w' i c m) :
    (∃ t, since ≤ t ∧ (w'.shared.heap f).cancelledAt = some t) ∨
      ∃ c ∈ w'.callers, c.flight = some f ∧ c.guarded = some true := by
  have hmem := mem_of_get hi
  have hregistered : f ∈ w.shared.flights.values := Keyed.Map.mem_values.mpr ⟨key, h.registered⟩
  rw [hturned.callers]
  obtain ⟨t, ht, hstamp⟩ | ⟨d, hd, hdf, harmed⟩ := h.kept
  · refine .inl ?_
    obtain hsame | hnew := hturned.retained f hregistered
    · exact ⟨t, ht, hsame.trans hstamp⟩
    · exact ⟨w.shared.clock, hsince, hnew⟩
  · obtain ⟨j, hj⟩ := List.mem_iff_getElem?.mp hd
    by_cases hne : j = i
    · subst hne
      obtain rfl := Option.some.inj (hj.symm.trans hi)
      obtain ⟨hstill, hflight⟩ | ⟨hleaving, op, next, hprogram, hop⟩ | hstamp :=
        hturned.guard harmed
      · exact .inr ⟨m, mem_set_self hi, hflight.trans hdf, hstill⟩
      · obtain ⟨-, hdisarm, hreset⟩ := (h.idle d hd hdf hleaving).refrains hprogram
        exact (hop.elim hdisarm hreset).elim
      · exact .inl ⟨w.shared.clock, hsince, hstamp f hdf⟩
    · exact .inr ⟨d, mem_set_of_ne hne hj, hdf, harmed⟩

theorem Guards.turned (hminded : w.Minded) (h : w.Guards key since f)
    (hsince : since ≤ w.shared.clock) (hi : w.callers[i]? = some c)
    (hturned : w.Turned config w' i c m) : w'.Protected config key since := by
  have hmem := mem_of_get hi
  have hregistered : f ∈ w.shared.flights.values := Keyed.Map.mem_values.mpr ⟨key, h.registered⟩
  rw [Protected, hturned.clock]
  obtain hget | ⟨hunheld, now, left, hscan, hexpired⟩ := hturned.kept key f h.registered
  · refine .inr ⟨hsince, f, ?_⟩
    constructor
    · exact hget
    · obtain hstored | ⟨hcf, -, hleaving, next, hprogram⟩ :=
        hturned.stored f hregistered h.stored
      · exact hstored
      · exact absurd rfl ((h.idle c hmem hcf hleaving).refrains hprogram).2.2
    · intro d hd hdf hstage
      rw [hturned.callers] at hd
      obtain rfl | ⟨j, -, hj⟩ := mem_set hd
      · exact h.idle_turned hminded hi hturned hdf hstage
      · exact h.idle d (mem_of_get hj) hdf hstage
    · exact h.kept_turned hsince hi hturned
  · refine .inl ?_
    obtain ⟨t, ht, hstamp⟩ | ⟨d, hd, hdf, -⟩ := h.kept
    · have hwindow := hexpired t hstamp
      have hnow := hminded.timely c hmem now left hscan
      omega
    · exact absurd hdf (hunheld d hd)

theorem Protected.turned (hminded : w.Minded) (h : w.Protected config key since)
    (hi : w.callers[i]? = some c) (hturned : w.Turned config w' i c m) :
    w'.Protected config key since := by
  obtain hover | ⟨hsince, f, hguards⟩ := h
  · rw [← hturned.clock] at hover
    exact .inl hover
  · exact hguards.turned hminded hsince hi hturned

/-- Somebody who comes, time and another iteration order change nothing for the key. -/
theorem Guards.congr {callers : List (Caller E)} {shared : Shared} (h : w.Guards key since f)
    (hget : shared.flights.get key = w.shared.flights.get key) (hheap : shared.heap = w.shared.heap)
    (hold : ∀ c ∈ w.callers, c ∈ callers)
    (hnew : ∀ c ∈ callers, c.flight = some f → c ∈ w.callers) :
    Guards { w with shared := shared, callers := callers } key since f where
  registered := hget.trans h.registered
  stored := by
    rw [← h.stored, hheap]
  idle c hc hf := h.idle c (hnew c hc hf) hf
  kept := by
    obtain ⟨t, ht, hstamp⟩ | ⟨c, hc, harmed⟩ := h.kept
    · exact .inl ⟨t, ht, hheap ▸ hstamp⟩
    · exact .inr ⟨c, hold c hc, harmed⟩

theorem Protected.step (hsound : w.Sound config) (hminded : w.Minded)
    (h : w.Protected config key since) (hstep : w.step config event = some w') :
    w'.Protected config key since := by
  cases event with
  | arrive call =>
    obtain rfl := Option.some.inj hstep
    refine h.imp_right fun ⟨hsince, f, hguards⟩ => ⟨hsince, f, hguards.congr rfl rfl ?_ ?_⟩
    · exact fun c hc => List.mem_append_left _ hc
    · intro c hc hf
      obtain hc | hc := List.mem_append.mp hc
      · exact hc
      · rw [List.mem_singleton.mp hc] at hf
        cases hf
  | turn i replies =>
    obtain ⟨c, hi, hturn⟩ := Option.bind_eq_some_iff.mp hstep
    obtain ⟨m, hturned⟩ := hsound.turned hi hturn
    exact h.turned hminded hi hturned
  | drop i =>
    obtain ⟨c, hi, hcancel⟩ := Option.bind_eq_some_iff.mp hstep
    obtain rfl := cancel_eq hcancel
    exact h.turned hminded hi turned_depart
  | tick elapsed =>
    obtain rfl := Option.some.inj hstep
    refine Or.imp (Nat.le_add_right_of_le ·) ?_ h
    exact fun ⟨hsince, f, hguards⟩ => ⟨Nat.le_add_right_of_le hsince, f,
      hguards.congr rfl rfl (fun _ hc => hc) fun _ hc _ => hc⟩
  | rehash n =>
    obtain rfl := Option.some.inj hstep
    refine h.imp_right fun ⟨hsince, f, hguards⟩ => ⟨hsince, f, ?_⟩
    exact hguards.congr Keyed.Map.get_exchange rfl (fun _ hc => hc) fun _ hc _ => hc

end Protection

end World

section Leading

variable {c : Caller E} {op : Action} {key : String}

/-- Who is in the send step for a key, or hears that its POST may have been executed, leads the
flight behind an armed guard. -/
theorem Caller.Minds.leads {next : op.Answer E → Forward E (Except E ForwardOutcome)}
    (h : c.Minds) (hprogram : c.program = .ask op next) (hkey : c.call.key = some key)
    (hop : op.isSend = true ∨ ∃ answer : op.Answer E, op.spends answer = true) :
    ∃ mandate, (mandate = .sending ∨ mandate = .spent) ∧
      Safe (Mandate.watch E) (fun _ _ => True) (.ask op next) mandate ∧
      c.guarded = some true ∧ c.phase.Began := by
  obtain ⟨mandate, hsafe, hfits⟩ := h
  rw [hprogram] at hsafe
  have hmandate : mandate = .free ∨ mandate = .sending ∨ mandate = .spent := by
    have hallowed := hsafe.1
    cases op with
    | claimSend | observe | send | sleepRetry _ | read _ => exact hallowed.imp_right .inl
    | gate _ | completed _ => exact hallowed
    | _ =>
      obtain hsend | ⟨answer, hspends⟩ := hop
      · cases hsend
      · cases hspends
  obtain rfl | rfl | rfl := hmandate
  · rw [hfits.1] at hkey
    cases hkey
  · exact ⟨_, .inl rfl, hsafe, hfits⟩
  · exact ⟨_, .inr rfl, hsafe, hfits⟩

/-- Once the POST may have been executed, there is nothing left to send for. -/
theorem spent_next {mandate : Mandate} {answer : op.Answer E}
    (h : mandate = .sending ∨ mandate = .spent) (hspends : op.spends answer = true) :
    mandate.next op answer = .spent := by
  have hspent : mandate.spend = .spent := by
    obtain rfl | rfl := h
    · rfl
    · rfl
  cases op with
  | send | read _ | gate _ | completed _ => exact (if_pos hspends).trans hspent
  | _ => cases hspends

end Leading

/-- Whether what the upstream, the gates and the observers answer says that the POST may have
been executed. -/
def Replies.spends (config : ProxyConfig) (replies : Replies E) : Action → Bool
  | .send => Action.spends (E := E) .send replies.sent
  | .read resp => Action.spends (E := E) (.read resp) (readBuffered config resp replies.received)
  | .gate outcome => Action.spends (E := E) (.gate outcome) replies.gated
  | .completed outcome => Action.spends (.completed outcome) replies.completed
  | _ => false

namespace World

/-- From this event on the POST of the key may have been executed: its caller hears so, or is
dropped in the send step. -/
def Spends (config : ProxyConfig) (w : World E) (key : String) : Event E → Prop
  | .turn i replies => ∃ c op next, w.callers[i]? = some c ∧ c.call.key = some key ∧
      c.stage ≠ .leaving ∧ c.program = .ask op next ∧ replies.spends config op = true
  | .drop i => ∃ c, w.callers[i]? = some c ∧ c.Sends key
  | _ => False

section Spending

variable {w w' : World E} {i j : Nat} {c d m : Caller E} {key : String} {event : Event E}
  {since f : Nat}

/-- Beside its leader, whoever has a flight waits for it or is done with it. -/
theorem Minded.others_idle (hsound : w.Sound config) (h : w.Minded) (hi : w.callers[i]? = some c)
    (hbegan : c.phase.Began) (hcf : c.flight = some f) (hj : w.callers[j]? = some d) (hne : j ≠ i)
    (hdf : d.flight = some f) (hstage : d.stage ≠ .leaving) : d.Idle := by
  obtain ⟨mandate, hsafe, hfits⟩ := h.minds d (mem_of_get hj) hstage
  cases mandate with
  | free | outside =>
    rw [hfits.2] at hdf
    cases hdf
  | joined => exact ⟨_, hsafe, .inl ⟨rfl, hfits⟩⟩
  | locked =>
    have hagrees := (hsound.fits j d hj).agrees
    simp only [Caller.Agrees, show d.phase = .locked from hfits] at hagrees
    obtain ⟨g, howns, -⟩ := hagrees
    obtain ⟨g', howns'⟩ := hsound.owns hi hbegan
    obtain rfl : g = f := Option.some.inj (howns.1.symm.trans hdf)
    obtain rfl : g' = g := Option.some.inj (howns'.1.symm.trans hcf)
    exact absurd (Option.some.inj (howns.2.symm.trans howns'.2)) hne
  | sending | spent => exact absurd (hsound.leader_unique hj hi hfits.2 hbegan hdf hcf) hne
  | ended => exact ⟨_, hsafe, .inr (.inr rfl)⟩

/-- A leader that has nothing left to send for, or leaves, leaves the key protected. -/
theorem protected_of_leader (hsound : w.Sound config) (hminded : w.Minded)
    (hi : w.callers[i]? = some c) (hkey : c.call.key = some key) (hbegan : c.phase.Began)
    (harmed : c.guarded = some true) (hturned : w.Turned config w' i c m)
    (hreset : ∀ next, c.program ≠ .ask .reset next) (harmed' : m.guarded = c.guarded)
    (hflight : m.flight = c.flight) (hidle : m.stage ≠ .leaving → m.Idle) :
    w'.Protected config key w.shared.clock := by
  have hmem := mem_of_get hi
  obtain ⟨f, hf, hsome⟩ := hminded.stocked c hmem hbegan
  have hget := hminded.located c hmem f hf
  rw [Caller.key_of_some hkey] at hget
  refine .inr ⟨Nat.le_of_eq hturned.clock.symm, f, ?_⟩
  constructor
  · exact hturned.held hmem hf hget
  · obtain hstored | ⟨-, -, -, next, hprogram⟩ :=
      hturned.stored f (hsound.registered_of_mem hmem hf) hsome
    · exact hstored
    · exact absurd hprogram (hreset next)
  · intro d hd hdf hstage
    rw [hturned.callers] at hd
    obtain rfl | ⟨j, hne, hj⟩ := mem_set hd
    · exact hidle hstage
    · exact hminded.others_idle hsound hi hbegan hf hj hne hdf hstage
  · refine .inr ⟨m, ?_, hflight.trans hf, harmed'.trans harmed⟩
    rw [hturned.callers]
    exact mem_set_self hi

theorem protected_of_answer {op : Action} {next : op.Answer E → Forward E (Except E ForwardOutcome)}
    {answer : op.Answer E} (hsound : w.Sound config) (hminded : w.Minded)
    (hi : w.callers[i]? = some c) (hkey : c.call.key = some key) (hstage : c.stage ≠ .leaving)
    (hprogram : c.program = .ask op next) (hspends : op.spends answer = true)
    (hturned : w.Turned config w' i c { c with
      program := next answer
      stage := .between
      phase := c.phase.next op answer }) : w'.Protected config key w.shared.clock := by
  obtain ⟨mandate, hmandate, hsafe, harmed, hbegan⟩ :=
    (hminded.minds c (mem_of_get hi) hstage).leads hprogram hkey (.inr ⟨answer, hspends⟩)
  refine protected_of_leader hsound hminded hi hkey hbegan harmed hturned ?_ rfl rfl fun _ => ?_
  · intro next' hreset
    rw [hprogram] at hreset
    injection hreset with hop
    subst hop
    cases hspends
  · refine ⟨_, hsafe.2 answer, .inr (.inl ?_)⟩
    exact spent_next hmandate hspends

/-- From the event on that spends the POST of a key, the key is protected. -/
theorem protected_of_spends (hsound : w.Sound config) (hminded : w.Minded)
    (hstep : w.step config event = some w') (hspends : w.Spends config key event) :
    w'.Protected config key w.shared.clock := by
  cases event with
  | turn i replies =>
    obtain ⟨c, op, next, hi, hkey, hstage, hprogram, hspent⟩ := hspends
    obtain ⟨c', hi', hturn⟩ := Option.bind_eq_some_iff.mp hstep
    obtain rfl : c = c' := Option.some.inj (hi.symm.trans hi')
    have hperform : w.perform config i c replies op next = some w' := by
      unfold World.turn at hturn
      rw [hprogram] at hturn
      split at hturn
      · next hleaving => exact absurd hleaving hstage
      · next hret _ => cases hret
      · next op' next' hask _ =>
        cases hask
        exact hturn
    have hprotected : ∀ answer : op.Answer E, op.spends answer = true →
        c.phase.next op answer = c.phase → op.guards c.guarded = c.guarded →
        (w.resume i c op next answer).Protected config key w.shared.clock := by
      intro answer hanswer hphase hguards
      have hturn := Caller.Step.answered op next answer hprogram hstage
      rw [hguards] at hturn
      exact protected_of_answer hsound hminded hi hkey hstage hprogram hanswer
        (turned_resume hturn hphase rfl rfl rfl)
    cases op with
    | send | read _ | gate _ | completed _ =>
      obtain rfl := Option.some.inj hperform
      exact hprotected _ hspent rfl rfl
    | _ => cases hspent
  | drop i =>
    obtain ⟨c, hi, hkey, hstage, op, next, hprogram, hop⟩ := hspends
    obtain ⟨c', hi', hcancel⟩ := Option.bind_eq_some_iff.mp hstep
    obtain rfl : c = c' := Option.some.inj (hi.symm.trans hi')
    obtain rfl := cancel_eq hcancel
    obtain ⟨-, -, -, harmed, hbegan⟩ :=
      (hminded.minds c (mem_of_get hi) hstage).leads hprogram hkey (.inl hop)
    refine protected_of_leader hsound hminded hi hkey hbegan harmed turned_depart ?_ rfl rfl ?_
    · intro next' hreset
      rw [hprogram] at hreset
      injection hreset with hsame
      subst hsame
      cases hop
    · exact fun hleaving => absurd rfl hleaving
  | arrive _ | tick _ | rehash _ => cases hspends

/-- Nobody is in the send step for a protected key before its window is over. -/
theorem Protected.expired (hminded : w.Minded) (h : w.Protected config key since)
    (hc : c ∈ w.callers) (hsends : c.Sends key) : since + config.window ≤ w.shared.clock := by
  obtain hover | ⟨-, f, hguards⟩ := h
  · exact hover
  · obtain ⟨hkey, hstage, op, next, hprogram, hop⟩ := hsends
    obtain ⟨-, -, -, -, hbegan⟩ := (hminded.minds c hc hstage).leads hprogram hkey (.inl hop)
    obtain ⟨g, hg, -⟩ := hminded.stocked c hc hbegan
    have hget := hminded.located c hc g hg
    rw [Caller.key_of_some hkey] at hget
    obtain rfl : g = f := Option.some.inj (hget.symm.trans hguards.registered)
    obtain ⟨hrefrains, -⟩ := (hguards.idle c hc hg hstage).refrains hprogram
    rw [hop] at hrefrains
    cases hrefrains

end Spending

section Results

variable {w w' v : World E} {i j : Nat} {c d : Caller E} {key : String} {event : Event E}
  {events before after : List (Event E)}

theorem minded_of_run (h : (system config E).Run (start config) events w) :
    w.Sound config ∧ w.Minded := by
  refine h.invariant (fun w => w.Sound config ∧ w.Minded) ?_ ⟨sound_start, minded_start⟩
  exact fun _ _ _ hboth hstep => ⟨hboth.1.step hstep, hboth.2.step hboth.1 hstep⟩

/-- The send step of a key has one caller: the leader of its flight. -/
theorem Minded.sender_unique (hsound : w.Sound config) (hminded : w.Minded)
    (hi : w.callers[i]? = some c) (hj : w.callers[j]? = some d) (hc : c.Sends key)
    (hd : d.Sends key) : i = j := by
  have hleads : ∀ (k : Nat) (e : Caller E), w.callers[k]? = some e → e.Sends key →
      e.phase.Began ∧ e.flight = w.shared.flights.get key := by
    rintro k e hk ⟨hkey, hstage, op, next, hprogram, hop⟩
    have hmem := mem_of_get hk
    obtain ⟨-, -, -, -, hbegan⟩ := (hminded.minds e hmem hstage).leads hprogram hkey (.inl hop)
    obtain ⟨f, hf, -⟩ := hminded.stocked e hmem hbegan
    have hget := hminded.located e hmem f hf
    rw [Caller.key_of_some hkey] at hget
    exact ⟨hbegan, hf.trans hget.symm⟩
  obtain ⟨hbegan, hflight⟩ := hleads i c hi hc
  obtain ⟨hbegan', hflight'⟩ := hleads j d hj hd
  obtain ⟨f, hf, -⟩ := hminded.stocked c (mem_of_get hi) hbegan
  exact hsound.leader_unique hi hj hbegan hbegan' hf (hflight'.trans (hflight.symm.trans hf))

/-- The key stays protected until the window since its POST is over. -/
theorem Minded.sends_late (hsound : w.Sound config) (hminded : w.Minded)
    (hstep : (system config E).step w event w') (hspends : w.Spends config key event)
    (hafter : (system config E).Run w' after v) (hc : c ∈ v.callers) (hsends : c.Sends key) :
    w.shared.clock + config.window ≤ v.shared.clock := by
  have hkeeps := hafter.invariant
    (fun v => v.Sound config ∧ v.Minded ∧ v.Protected config key w.shared.clock)
    (fun _ _ _ hall hnext => ⟨hall.1.step hnext, hall.2.1.step hall.1 hnext,
      hall.2.2.step hall.1 hall.2.1 hnext⟩)
    ⟨hsound.step hstep, hminded.step hsound hstep,
      protected_of_spends hsound hminded hstep hspends⟩
  exact hkeeps.2.2.expired hkeeps.2.1 hc hsends

/-- However forwards arrive, interleave and are dropped, two of them are never in the send step
for one key. -/
theorem send_exclusive (h : (system config E).Run (start config) events w)
    (hi : w.callers[i]? = some c) (hj : w.callers[j]? = some d) (hc : c.Sends key)
    (hd : d.Sends key) : i = j := by
  obtain ⟨hsound, hminded⟩ := minded_of_run h
  exact hminded.sender_unique hsound hi hj hc hd

/-- Once the POST of a key may have been executed, nobody is in the send step for that key before
the window since that moment is over. -/
theorem sent_at_most_once (h : (system config E).Run (start config) before w)
    (hstep : (system config E).step w event w') (hspends : w.Spends config key event)
    (hafter : (system config E).Run w' after v) (hc : c ∈ v.callers) (hsends : c.Sends key) :
    w.shared.clock + config.window ≤ v.shared.clock := by
  obtain ⟨hsound, hminded⟩ := minded_of_run h
  exact hminded.sends_late hsound hstep hspends hafter hc hsends

/-- What holds of a key wherever a run has come: one caller is in its send step, and once its
POST may have been executed, the next one begins after the window. -/
structure PostsOnce (config : ProxyConfig) (w : World E) (key : String) : Prop where
  exclusive : ∀ (i j : Nat) (c d : Caller E), w.callers[i]? = some c → w.callers[j]? = some d →
    c.Sends key → d.Sends key → i = j
  spent : ∀ (event : Event E) (w' : World E) (after : List (Event E)) (v : World E),
    (system config E).step w event w' → w.Spends config key event →
    (system config E).Run w' after v → ∀ c ∈ v.callers, c.Sends key →
      w.shared.clock + config.window ≤ v.shared.clock

/-- However forwards arrive, interleave, are pruned and dropped, the POST of a key is sent at
most once in each window. -/
theorem posts_once (h : (system config E).Run (start config) events w) (key : String) :
    w.PostsOnce config key := by
  obtain ⟨hsound, hminded⟩ := minded_of_run h
  constructor
  · intro i j c d hi hj hc hd
    exact hminded.sender_unique hsound hi hj hc hd
  · intro event w' after v hstep hspends hafter c hc hsends
    exact hminded.sends_late hsound hstep hspends hafter hc hsends

end Results

section Samples

def sampleKey : String := keyedCall.key.getD ""

def sendsSample (c : Caller Unit) : Bool :=
  decide (c.call.key = some sampleKey) && (match c.stage with | .leaving => false | _ => true) &&
    (match c.program with | .ask op _ => op.isSend | .ret _ => false)

theorem sends_of_sendsSample {c : Caller Unit} (h : sendsSample c = true) : c.Sends sampleKey := by
  simp only [sendsSample, Bool.and_eq_true, decide_eq_true_eq] at h
  obtain ⟨⟨hkey, hstage⟩, hprogram⟩ := h
  refine ⟨hkey, ?_, ?_⟩
  · intro hleaving
    rw [hleaving] at hstage
    cases hstage
  · cases hask : c.program with
    | ret _ =>
      rw [hask] at hprogram
      cases hprogram
    | ask op next =>
      rw [hask] at hprogram
      exact ⟨op, next, rfl, hprogram⟩

/-- A forward up to its POST, and a second one for the same key that waits for it. -/
def sendingRun : List (Event Unit) :=
  .arrive keyedCall :: .arrive keyedCall :: List.replicate 10 (.turn 0 notFound) ++
    List.replicate 5 (.turn 1 notFound)

theorem sendingRun_sends : (sendingRun.foldlM (step tinyConfig) (start tinyConfig)).any
    (fun w => w.callers[0]?.any sendsSample && w.callers[1]?.any fun d =>
      decide (d.call.key = some sampleKey)) = true := by
  decide +kernel

theorem run_sendingRun : ∃ (w : World Unit) (c d : Caller Unit),
    (system tinyConfig Unit).Run (start tinyConfig) sendingRun w ∧ w.callers[0]? = some c ∧
      c.Sends sampleKey ∧ w.callers[1]? = some d ∧ d.call.key = some sampleKey := by
  obtain ⟨w, hrun, hboth⟩ := Option.any_eq_true _ _ |>.mp sendingRun_sends
  obtain ⟨hfirst, hsecond⟩ := Bool.and_eq_true _ _ |>.mp hboth
  obtain ⟨c, hc, hsends⟩ := Option.any_eq_true _ _ |>.mp hfirst
  obtain ⟨d, hd, hkey⟩ := Option.any_eq_true _ _ |>.mp hsecond
  exact ⟨w, c, d, System.run_of_foldlM (fun _ _ _ h => h) hrun, hc, sends_of_sendsSample hsends,
    hd, of_decide_eq_true hkey⟩

theorem send_exclusive_waiting : ∃ (w : World Unit) (c d : Caller Unit),
    w.callers[0]? = some c ∧ w.callers[1]? = some d ∧ c.Sends sampleKey ∧
      d.call.key = some sampleKey ∧ ¬d.Sends sampleKey := by
  obtain ⟨w, c, d, hrun, hc, hsends, hd, hkey⟩ := run_sendingRun
  refine ⟨w, c, d, hc, hd, hsends, hkey, fun hsecond => ?_⟩
  have hsame := send_exclusive hrun hc hd hsends hsecond
  cases hsame

/-- The first forward is dropped at its POST, the second one ends with the placeholder, and a
third one sends after the window. -/
def resendingRun : List (Event Unit) :=
  List.replicate 3 (.turn 0 notFound) ++ List.replicate 5 (.turn 1 notFound) ++
    .tick 60 :: .arrive keyedCall :: List.replicate 11 (.turn 2 notFound)

theorem resendingRun_sends : (sendingRun.foldlM (step tinyConfig) (start tinyConfig)).any
    (fun w => w.callers[0]?.any sendsSample && (w.step tinyConfig (.drop 0)).any fun w' =>
      (resendingRun.foldlM (step tinyConfig) w').any fun v => v.callers.any sendsSample) = true := by
  decide +kernel

theorem sent_at_most_once_dropped : ∃ w v : World Unit,
    (∃ c, w.callers[0]? = some c ∧ c.Sends sampleKey) ∧ (∃ c ∈ v.callers, c.Sends sampleKey) ∧
      w.shared.clock + tinyConfig.window ≤ v.shared.clock := by
  obtain ⟨w, hrun, hall⟩ := Option.any_eq_true _ _ |>.mp resendingRun_sends
  obtain ⟨hfirst, hrest⟩ := Bool.and_eq_true _ _ |>.mp hall
  obtain ⟨c, hc, hsends⟩ := Option.any_eq_true _ _ |>.mp hfirst
  obtain ⟨w', hstep, hlater⟩ := Option.any_eq_true _ _ |>.mp hrest
  obtain ⟨v, hafter, hany⟩ := Option.any_eq_true _ _ |>.mp hlater
  obtain ⟨d, hd, hagain⟩ := List.any_eq_true.mp hany
  have hfirst := sends_of_sendsSample hsends
  have hlast := sends_of_sendsSample hagain
  refine ⟨w, v, ⟨c, hc, hfirst⟩, ⟨d, hd, hlast⟩, ?_⟩
  exact sent_at_most_once (System.run_of_foldlM (fun _ _ _ h => h) hrun) hstep
    ⟨c, hc, hfirst⟩ (System.run_of_foldlM (fun _ _ _ h => h) hafter) hd hlast

/-- The second forward waits while the first one sends, and the third one sends after the
window. -/
theorem posts_once_resent : ∃ w v : World Unit,
    (∃ c d, w.callers[0]? = some c ∧ w.callers[1]? = some d ∧ c.Sends sampleKey ∧
      d.call.key = some sampleKey ∧ ¬d.Sends sampleKey) ∧
      (∃ c ∈ v.callers, c.Sends sampleKey) ∧ w.shared.clock + tinyConfig.window ≤ v.shared.clock := by
  obtain ⟨w, hrun, hall⟩ := Option.any_eq_true _ _ |>.mp resendingRun_sends
  have hwaits := sendingRun_sends
  rw [hrun, Option.any_some, Bool.and_eq_true] at hwaits
  obtain ⟨d, hd, hkey⟩ := Option.any_eq_true _ _ |>.mp hwaits.2
  obtain ⟨hfirst, hrest⟩ := Bool.and_eq_true _ _ |>.mp hall
  obtain ⟨c, hc, hsends⟩ := Option.any_eq_true _ _ |>.mp hfirst
  obtain ⟨w', hstep, hlater⟩ := Option.any_eq_true _ _ |>.mp hrest
  obtain ⟨v, hafter, hany⟩ := Option.any_eq_true _ _ |>.mp hlater
  obtain ⟨e, he, hagain⟩ := List.any_eq_true.mp hany
  have hreached : (system tinyConfig Unit).Run (start tinyConfig) sendingRun w :=
    System.run_of_foldlM (fun _ _ _ h => h) hrun
  have honce := posts_once hreached sampleKey
  have hfirst := sends_of_sendsSample hsends
  refine ⟨w, v, ⟨c, d, hc, hd, hfirst, of_decide_eq_true hkey, fun hsecond => ?_⟩,
    ⟨e, he, sends_of_sendsSample hagain⟩, ?_⟩
  · cases honce.exclusive 0 1 c d hc hd hfirst hsecond
  · exact honce.spent _ _ _ _ hstep ⟨c, hc, hfirst⟩ (System.run_of_foldlM (fun _ _ _ h => h) hafter)
      e he (sends_of_sendsSample hagain)

end Samples

end World

end Proxy
