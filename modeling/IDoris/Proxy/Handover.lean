import IDoris.Proxy.Mandates
import IDoris.Proxy.FlightBytes

/-!
# What a turn changes

A turn of one caller, as far as it matters for who may send: its own state, the flights that are
registered, and the outcomes and the timestamps in them.
-/
namespace Proxy

open Interaction Program Slots Transition

variable {E : Type} {config : ProxyConfig}

/-- The caller leads its flight, and the placeholder is there. -/
def Phase.Began (phase : Phase) : Prop := phase = .begun ∨ ∃ replay, phase = .stored replay

/-- The cancellation guard after an action. -/
def Action.guards : Action → Option Bool → Option Bool
  | .begin, _ => some true
  | .retainCompleted, _ | .disarm, _ | .reset, _ => some false
  | _, guarded => guarded

/-- What a turn makes of the caller itself. -/
inductive Caller.Step (c : Caller E) : Caller E → Prop where
  | waits (stage : Stage) (hstage : c.stage ≠ .leaving) : c.Step { c with stage := stage }
  | joins (next : Entered → Forward E (Except E ForwardOutcome)) (theirs : Fingerprint) (f : Nat)
      (hprogram : c.program = .ask .enter next) (hstage : c.stage ≠ .leaving) :
      c.Step { c with
        program := next (.flight theirs)
        stage := .between
        phase := .joined
        flight := some f }
  | answered (op : Action) (next : op.Answer E → Forward E (Except E ForwardOutcome))
      (answer : op.Answer E) (hprogram : c.program = .ask op next) (hstage : c.stage ≠ .leaving) :
      c.Step { c with
        program := next answer
        stage := .between
        phase := c.phase.next op answer
        guarded := op.guards c.guarded }
  | leaves (m : Caller E) (hcall : m.call = c.call) (hstage : m.stage = .leaving) : c.Step m

theorem Caller.Step.call {c m : Caller E} (h : c.Step m) : m.call = c.call := by
  cases h with
  | waits _ _ | joins _ _ _ _ _ | answered _ _ _ _ _ => rfl
  | leaves _ hcall _ => exact hcall

theorem Caller.Step.key {c m : Caller E} (h : c.Step m) : m.key = c.key := by
  rw [Caller.key, Caller.key, h.call]

/-- A caller that has begun to leave does nothing else. -/
theorem Caller.Step.stays {c m : Caller E} (h : c.Step m) (hstage : m.stage ≠ .leaving) :
    c.stage ≠ .leaving := by
  cases h with
  | waits _ hleaving | joins _ _ _ _ hleaving | answered _ _ _ _ hleaving => exact hleaving
  | leaves _ _ hleaves => exact absurd hleaves hstage

theorem not_began_ended : ¬Phase.ended.Began := by
  rintro (h | ⟨_, h⟩)
  · cases h
  · cases h

namespace World

/-- What the turn of a caller leaves. -/
structure Turned (config : ProxyConfig) (w w' : World E) (i : Nat) (c m : Caller E) : Prop where
  callers : w'.callers = w.callers.set i m
  clock : w'.shared.clock = w.shared.clock
  step : c.Step m
  timely : ∀ now left, m.stage = .scanning now left →
    now = w.shared.clock ∨ ∃ all, c.stage = .scanning now all
  kept : ∀ key f, w.shared.flights.get key = some f → w'.shared.flights.get key = some f ∨
    (∀ d ∈ w.callers, d.flight ≠ some f) ∧ ∃ now left, c.stage = .scanning now left ∧
      ∀ t, (w.shared.heap f).cancelledAt = some t → config.window ≤ now - t
  found : ∀ f, m.flight = some f → c.flight = some f ∨ w'.shared.flights.get c.key = some f
  stored : ∀ f ∈ w.shared.flights.values, (w.shared.heap f).outcome.isSome = true →
    (w'.shared.heap f).outcome.isSome = true ∨ c.flight = some f ∧ ¬m.phase.Began ∧
      c.stage ≠ .leaving ∧ ∃ next, c.program = .ask .reset next
  began : m.phase.Began → m.flight = c.flight ∧ (c.phase.Began ∨
    ∃ f, c.flight = some f ∧ (w'.shared.heap f).outcome.isSome = true)
  locked : m.phase = .locked → c.phase = .locked ∨
    ∃ f, c.flight = some f ∧ (w.shared.heap f).outcome = none
  retained : ∀ f ∈ w.shared.flights.values,
    (w'.shared.heap f).cancelledAt = (w.shared.heap f).cancelledAt ∨
      (w'.shared.heap f).cancelledAt = some w.shared.clock
  guard : c.guarded = some true → (m.guarded = some true ∧ m.flight = c.flight) ∨
    (c.stage ≠ .leaving ∧ ∃ op next, c.program = .ask op next ∧ (op = .disarm ∨ op = .reset)) ∨
    ∀ f, c.flight = some f → (w'.shared.heap f).cancelledAt = some w.shared.clock

section Turns

variable {w w' : World E} {i f : Nat} {c m : Caller E}

/-- No flight is written. -/
theorem Turned.of_same (hcallers : w'.callers = w.callers.set i m)
    (hclock : w'.shared.clock = w.shared.clock) (hflights : w'.shared.flights = w.shared.flights)
    (hheap : w'.shared.heap = w.shared.heap) (hstep : c.Step m)
    (htimely : ∀ now left, m.stage = .scanning now left →
      now = w.shared.clock ∨ ∃ all, c.stage = .scanning now all)
    (hfound : ∀ f, m.flight = some f → c.flight = some f ∨ w.shared.flights.get c.key = some f)
    (hbegan : m.phase.Began → m.flight = c.flight ∧ c.phase.Began)
    (hlocked : m.phase = .locked → c.phase = .locked)
    (hguard : c.guarded = some true → m.guarded = some true ∧ m.flight = c.flight) :
    w.Turned config w' i c m where
  callers := hcallers
  clock := hclock
  step := hstep
  timely := htimely
  kept key f hf := .inl (by rw [hflights]; exact hf)
  found f hf := (hfound f hf).imp_right fun hget => by rw [hflights]; exact hget
  stored f _ hf := .inl (by rw [hheap]; exact hf)
  began hm := ⟨(hbegan hm).1, .inl (hbegan hm).2⟩
  locked hm := .inl (hlocked hm)
  retained f _ := .inl (by rw [hheap])
  guard hc := .inl (hguard hc)

/-- The caller is answered, and nothing of that is about the flight. -/
theorem turned_resume {op : Action} {next : op.Answer E → Forward E (Except E ForwardOutcome)}
    {answer : op.Answer E} {shared : Shared}
    (hstep : c.Step { c with
      program := next answer
      stage := .between
      phase := c.phase.next op answer }) (hphase : c.phase.next op answer = c.phase)
    (hclock : shared.clock = w.shared.clock) (hflights : shared.flights = w.shared.flights)
    (hheap : shared.heap = w.shared.heap) :
    w.Turned config (({ w with shared := shared } : World E).resume i c op next answer) i c
      { c with
        program := next answer
        stage := .between
        phase := c.phase.next op answer } := by
  apply Turned.of_same rfl hclock hflights hheap hstep
  · intro now left hstage
    cases hstage
  · exact fun f hf => .inl hf
  · exact fun hm => ⟨rfl, hphase ▸ hm⟩
  · exact fun hm => hphase ▸ hm
  · exact fun hc => ⟨hc, rfl⟩

/-- The program is over, or dropped. -/
theorem turned_depart : w.Turned config (w.depart i c) i c
    { c with
      stage := .leaving
      phase := .ended } := by
  refine Turned.of_same rfl rfl rfl rfl (.leaves _ rfl rfl) ?_ ?_ ?_ ?_ ?_
  · intro now left hstage
    cases hstage
  · exact fun f hf => .inl hf
  · exact fun hm => absurd hm not_began_ended
  · intro hm
    cases hm
  · exact fun hc => ⟨hc, rfl⟩

/-- The caller writes its flight. -/
theorem Turned.of_write {g : Flight → Flight} (hf : c.flight = some f)
    (hcallers : w'.callers = w.callers.set i m) (hclock : w'.shared.clock = w.shared.clock)
    (hflights : w'.shared.flights = w.shared.flights)
    (hheap : w'.shared.heap = (w.shared.modifyFlight f g).heap) (hstep : c.Step m)
    (hstage : m.stage = .between ∨ m.stage = .leaving) (hflight : m.flight = c.flight)
    (hstored : (w.shared.heap f).outcome.isSome = true →
      (g (w.shared.heap f)).outcome.isSome = true ∨ ¬m.phase.Began ∧ c.stage ≠ .leaving ∧
        ∃ next, c.program = .ask .reset next)
    (hbegan : m.phase.Began → c.phase.Began ∨ (g (w.shared.heap f)).outcome.isSome = true)
    (hlocked : m.phase = .locked → c.phase = .locked ∨ (w.shared.heap f).outcome = none)
    (hretained : (g (w.shared.heap f)).cancelledAt = (w.shared.heap f).cancelledAt ∨
      (g (w.shared.heap f)).cancelledAt = some w.shared.clock)
    (hguard : c.guarded = some true → m.guarded = some true ∨
      (c.stage ≠ .leaving ∧ ∃ op next, c.program = .ask op next ∧ (op = .disarm ∨ op = .reset)) ∨
      (g (w.shared.heap f)).cancelledAt = some w.shared.clock) :
    w.Turned config w' i c m where
  callers := hcallers
  clock := hclock
  step := hstep
  timely now left hscan := by
    obtain h | h := hstage
    · rw [h] at hscan
      cases hscan
    · rw [h] at hscan
      cases hscan
  kept key f hf := .inl (by rw [hflights]; exact hf)
  found f hf := .inl (hflight ▸ hf)
  stored f' _ hsome := by
    rw [hheap]
    exact Shared.heap_modifyFlight_cases
      (P := fun f' flight => (w.shared.heap f').outcome.isSome = true →
        flight.outcome.isSome = true ∨ c.flight = some f' ∧ ¬m.phase.Began ∧
          c.stage ≠ .leaving ∧ ∃ next, c.program = .ask .reset next)
      f' (fun h => (hstored h).imp_right fun h => ⟨hf, h⟩) (fun _ h => .inl h) hsome
  began hm := by
    refine ⟨hflight, (hbegan hm).imp_right fun h => ⟨f, hf, ?_⟩⟩
    rw [hheap, Shared.heap_modifyFlight_self]
    exact h
  locked hm := (hlocked hm).imp_right fun h => ⟨f, hf, h⟩
  retained f' _ := by
    rw [hheap]
    exact Shared.heap_modifyFlight_cases
      (P := fun f' flight => flight.cancelledAt = (w.shared.heap f').cancelledAt ∨
        flight.cancelledAt = some w.shared.clock) f' hretained fun _ => .inl rfl
  guard hc := by
    obtain h | h | h := hguard hc
    · exact .inl ⟨h, hflight⟩
    · exact .inr (.inl h)
    · refine .inr (.inr fun f' hf' => ?_)
      obtain rfl : f = f' := Option.some.inj (hf.symm.trans hf')
      rw [hheap, Shared.heap_modifyFlight_self]
      exact h

/-- The caller drops a local. -/
theorem Sound.turned_leave (h : w.Sound config) (hi : w.callers[i]? = some c)
    (hstage : c.stage = .leaving) (hstep : w.leave i c = some w') :
    ∃ m, w.Turned config w' i c m := by
  have hfits := h.fits i c hi
  have hended : c.phase = .ended := by
    have hstaged := hfits.staged
    simpa only [Caller.Staged, hstage] using hstaged
  have hnot : ¬c.phase.Began := hended ▸ not_began_ended
  have hunlocked : c.phase ≠ .locked := by
    rw [hended]
    rintro ⟨⟩
  unfold World.leave at hstep
  obtain ⟨f, hf, hstep⟩ := Option.map_eq_some_iff.mp hstep
  have hmem := hfits.registered f hf
  split at hstep
  · next armed hguarded =>
    subst hstep
    refine ⟨{ c with guarded := none }, ?_⟩
    rw [dropHandle_of_mem]
    · refine Turned.of_write hf rfl rfl rfl rfl (.leaves _ rfl hstage) (.inr hstage) rfl ?_
        (fun hm => absurd hm hnot) (fun hm => absurd hm hunlocked) ?_ ?_
      · intro hsome
        refine .inl ?_
        split
        · exact hsome
        · exact hsome
      · split
        · exact .inr rfl
        · exact .inl rfl
      · intro harmed
        rw [hguarded] at harmed
        obtain rfl := Option.some.inj harmed
        exact .inr (.inr rfl)
    · exact hmem
  · next hguarded =>
    have hunarmed : c.guarded ≠ some true := by
      rw [hguarded]
      rintro ⟨⟩
    split at hstep
    · subst hstep
      refine ⟨c, ?_⟩
      exact Turned.of_write hf (congrArg World.callers (setCaller_self hi)).symm rfl rfl rfl
        (.leaves _ rfl hstage) (.inr hstage) rfl .inl (fun hm => absurd hm hnot)
        (fun hm => absurd hm hunlocked) (.inl rfl) (fun harmed => absurd harmed hunarmed)
    · subst hstep
      refine ⟨{ c with flight := none }, ?_⟩
      rw [dropHandle_of_mem]
      · refine Turned.of_same rfl rfl rfl rfl (.leaves _ rfl hstage) ?_ ?_
          (fun hm => absurd hm hnot) (fun hm => hm) (fun harmed => absurd harmed hunarmed)
        · intro now left hscan
          exact .inr ⟨left, hscan⟩
        · intro f' hf'
          cases hf'
      · exact hmem

section Enter

variable {next : Entered → Forward E (Except E ForwardOutcome)}

theorem turned_lockRegistry (hleaving : c.stage ≠ .leaving)
    (hstep : w.lockRegistry i c = some w') : ∃ m, w.Turned config w' i c m := by
  unfold World.lockRegistry at hstep
  split at hstep
  · obtain rfl := Option.some.inj hstep
    refine ⟨_, Turned.of_same rfl rfl rfl rfl (.waits _ hleaving) ?_ (fun _ => .inl)
      (fun hm => ⟨rfl, hm⟩) (fun hm => hm) (fun hc => ⟨hc, rfl⟩)⟩
    intro now left hscan
    injection hscan with hnow
    exact .inl hnow.symm
  · cases hstep

theorem dropHandle_shared : (w.dropHandle f).callers = w.callers ∧
    (w.dropHandle f).shared.clock = w.shared.clock ∧
    (w.dropHandle f).shared.flights = w.shared.flights ∧
    (w.dropHandle f).shared.heap = w.shared.heap := by
  unfold dropHandle
  split
  · exact ⟨rfl, rfl, rfl, rfl⟩
  · exact ⟨rfl, rfl, rfl, rfl⟩

/-- An entry goes only if nobody holds its flight and its window is over. -/
theorem Sound.turned_scan {e : String × Nat} {rest : List (String × Nat)} {now : Nat}
    (h : w.Sound config) (hi : w.callers[i]? = some c)
    (hstage : c.stage = .scanning now (e :: rest)) :
    ∃ m, w.Turned config (w.scan config i c now e rest) i c m := by
  have hleaving : c.stage ≠ .leaving := by
    rw [hstage]
    rintro ⟨⟩
  have htimely : ∀ now' left, Stage.scanning now rest = .scanning now' left →
      now' = w.shared.clock ∨ ∃ all, c.stage = .scanning now' all := by
    rintro now' left ⟨⟩
    exact .inr ⟨e :: rest, hstage⟩
  unfold World.scan
  split
  · exact ⟨_, Turned.of_same rfl rfl rfl rfl (.waits (.scanning now rest) hleaving) htimely
      (fun _ => .inl) (fun hm => ⟨rfl, hm⟩) (fun hm => hm) (fun hc => ⟨hc, rfl⟩)⟩
  · next hgone =>
    obtain ⟨key, g⟩ := e
    have hstaged := (h.fits i c hi).staged
    simp only [Caller.Staged, hstage] at hstaged
    have hget : w.shared.flights.get key = some g :=
      Keyed.Map.mem_entries.mp (hstaged.2.2.1 _ List.mem_cons_self)
    simp only [Shared.stays, Bool.or_eq_true, decide_eq_true_eq, not_or, Option.any_eq_true,
      not_exists, not_and] at hgone
    have hunheld : ∀ d ∈ w.callers, d.flight ≠ some g :=
      unheld_of_strongCount (Keyed.Map.mem_values.mpr ⟨key, hget⟩) (by omega)
    obtain ⟨hcallers, hclock, hflights, hheap⟩ := dropHandle_shared (f := g)
      (w := { w.setCaller i { c with stage := .scanning now rest } with
        shared := { w.shared with flights := w.shared.flights.remove key } })
    refine ⟨{ c with stage := .scanning now rest }, ?_⟩
    constructor
    · exact hcallers
    · exact hclock
    · exact .waits _ hleaving
    · exact htimely
    · intro key' f hf
      by_cases hkey : key' = key
      · subst hkey
        obtain rfl : g = f := Option.some.inj (hget.symm.trans hf)
        refine .inr ⟨hunheld, now, _, hstage, fun t ht => ?_⟩
        have hexpired := hgone.2 t ht
        omega
      · refine .inl ?_
        rw [hflights]
        exact (Keyed.Map.get_remove_of_ne hkey).trans hf
    · exact fun f hf => .inl hf
    · intro f _ hsome
      rw [hheap]
      exact .inl hsome
    · exact fun hm => ⟨rfl, .inl hm⟩
    · exact fun hm => .inl hm
    · intro f _
      rw [hheap]
      exact .inl rfl
    · exact fun hc => .inl ⟨hc, rfl⟩

/-- A caller leaves the registry without a flight. -/
theorem turned_entered {answer : Entered} (hprogram : c.program = .ask .enter next)
    (hleaving : c.stage ≠ .leaving) (hphase : c.phase.next (E := E) .enter answer = c.phase) :
    ∃ m, w.Turned config (w.entered i c next answer) i c m := by
  refine ⟨_, Turned.of_same rfl rfl rfl rfl (.answered .enter next answer hprogram hleaving)
    ?_ (fun _ => .inl) (fun hm => ⟨rfl, hphase ▸ hm⟩) (fun hm => hphase ▸ hm)
    (fun hc => ⟨hc, rfl⟩)⟩
  intro now left hscan
  cases hscan

theorem Sound.turned_find {now : Nat} (h : w.Sound config) (hi : w.callers[i]? = some c)
    (hprogram : c.program = .ask .enter next) (hstage : c.stage = .scanning now []) :
    ∃ m, w.Turned config (w.find config i c next) i c m := by
  have hleaving : c.stage ≠ .leaving := by
    rw [hstage]
    rintro ⟨⟩
  have hphase := h.outside hi hprogram hleaving
  have hagrees := (h.fits i c hi).agrees
  simp only [Caller.Agrees, hphase] at hagrees
  unfold World.find
  split
  · next f hf =>
    refine ⟨_, Turned.of_same rfl rfl rfl rfl (.joins next _ f hprogram hleaving) ?_ ?_ ?_ ?_ ?_⟩
    · intro now left hscan
      cases hscan
    · intro f' hf'
      obtain rfl := Option.some.inj hf'
      exact .inr hf
    · rintro (hm | ⟨_, hm⟩)
      · cases hm
      · cases hm
    · intro hm
      cases hm
    · intro hc
      rw [hagrees] at hc
      cases hc
  · split
    · split
      · exact turned_entered hprogram hleaving rfl
      · exact turned_entered hprogram hleaving rfl
    · split
      · next reserved hreserved =>
        obtain ⟨rfl, -⟩ := reserveBytes_eq h.bounded hreserved
        refine ⟨_, Turned.of_same rfl rfl rfl rfl (.waits .reserved hleaving) ?_ (fun _ => .inl)
          (fun hm => ⟨rfl, hm⟩) (fun hm => hm) (fun hc => ⟨hc, rfl⟩)⟩
        intro now left hscan
        cases hscan
      · exact turned_entered hprogram hleaving rfl

theorem Sound.turned_insertFlight (h : w.Sound config) (hi : w.callers[i]? = some c)
    (hprogram : c.program = .ask .enter next) (hstage : c.stage = .reserved) :
    ∃ m, w.Turned config (w.insertFlight config i c next) i c m := by
  have hleaving : c.stage ≠ .leaving := by
    rw [hstage]
    rintro ⟨⟩
  have hphase := h.outside hi hprogram hleaving
  have hagrees := (h.fits i c hi).agrees
  simp only [Caller.Agrees, hphase] at hagrees
  have hstaged := (h.fits i c hi).staged
  simp only [Caller.Staged, hstage] at hstaged
  have hnone := hstaged.2.2
  have hheap : ∀ f ∈ w.shared.flights.values,
      (w.shared.insertFlight c.key (c.newFlight config)).heap f = w.shared.heap f := by
    intro f hf
    exact Function.update_of_ne (Nat.ne_of_lt (h.fresh f hf)) ..
  refine ⟨{ c with
    program := next (.flight c.fingerprint)
    stage := .between
    phase := .joined
    flight := some w.shared.nextFlight }, ?_⟩
  constructor
  · rfl
  · rfl
  · exact .joins next c.fingerprint w.shared.nextFlight hprogram hleaving
  · intro now left hscan
    cases hscan
  · intro key f hf
    have hne : c.key ≠ key := by
      rintro rfl
      rw [hnone] at hf
      cases hf
    exact .inl (Keyed.Map.get_insert.trans ((if_neg hne).trans hf))
  · intro f hf
    obtain rfl := Option.some.inj hf
    exact .inr Keyed.Map.get_insert_self
  · intro f hf hsome
    refine .inl ?_
    change ((w.shared.insertFlight c.key (c.newFlight config)).heap f).outcome.isSome = true
    rw [hheap f hf]
    exact hsome
  · rintro (hm | ⟨_, hm⟩)
    · cases hm
    · cases hm
  · intro hm
    cases hm
  · intro f hf
    refine .inl ?_
    change ((w.shared.insertFlight c.key (c.newFlight config)).heap f).cancelledAt = _
    rw [hheap f hf]
  · intro hc
    rw [hagrees] at hc
    cases hc

theorem Sound.turned_enter (h : w.Sound config) (hi : w.callers[i]? = some c)
    (hprogram : c.program = .ask .enter next) (hleaving : c.stage ≠ .leaving)
    (hstep : w.enter config i c next = some w') : ∃ m, w.Turned config w' i c m := by
  unfold World.enter at hstep
  split at hstep
  · next now e rest hstage =>
    obtain rfl := Option.some.inj hstep
    exact h.turned_scan hi hstage
  · next now hstage =>
    obtain rfl := Option.some.inj hstep
    exact h.turned_find hi hprogram hstage
  · next hstage =>
    obtain rfl := Option.some.inj hstep
    exact h.turned_insertFlight hi hprogram hstage
  · exact turned_lockRegistry hleaving hstep

end Enter

section Outcome

variable {replies : Replies E}

theorem turned_lockOutcome {next : Option ForwardOutcome → Forward E (Except E ForwardOutcome)}
    (hprogram : c.program = .ask .lockOutcome next) (hleaving : c.stage ≠ .leaving)
    (hf : c.flight = some f) (hstep : w.lockOutcome i c f next = some w') :
    ∃ m, w.Turned config w' i c m := by
  unfold World.lockOutcome at hstep
  split at hstep
  · obtain rfl := Option.some.inj hstep
    refine ⟨_, Turned.of_write hf rfl rfl rfl rfl
      (.answered .lockOutcome next (w.shared.heap f).outcome hprogram hleaving) (.inl rfl) rfl
      .inl ?_ ?_ (.inl rfl) .inl⟩
    · intro hm
      cases hout : (w.shared.heap f).outcome with
      | none =>
        rw [hout] at hm
        obtain hm | ⟨_, hm⟩ := hm
        · cases hm
        · cases hm
      | some _ => exact .inr rfl
    · intro hm
      cases hout : (w.shared.heap f).outcome with
      | none => exact .inr rfl
      | some _ =>
        rw [hout] at hm
        cases hm
  · cases hstep

/-- The charge of the flight follows its next result. -/
theorem Sound.turned_resize {replay : ForwardOutcome}
    {next : Bool → Forward E (Except E ForwardOutcome)} (h : w.Sound config)
    (hprogram : c.program = .ask (.resize replay) next) (hleaving : c.stage ≠ .leaving)
    (hf : c.flight = some f) (hphase : c.phase = .begun) :
    ∃ m, w.Turned config (w.resize config i c f replay next) i c m := by
  have hbegan : c.phase.Began := .inl hphase
  unfold World.resize
  split
  · exact ⟨_, Turned.of_write hf rfl rfl rfl rfl
      (.answered (.resize replay) next true hprogram hleaving) (.inl rfl) rfl .inl
      (fun _ => .inl hbegan) (fun hm => by cases hm) (.inl rfl) .inl⟩
  · have hadjusted : ∀ now left retained, Stage.adjusted retained = .scanning now left →
        now = w.shared.clock ∨ ∃ all, c.stage = .scanning now all := by
      intro now left retained hscan
      cases hscan
    unfold World.adjust
    dsimp only
    split
    · exact ⟨_, Turned.of_same rfl rfl rfl rfl (.waits _ hleaving) (fun now left => hadjusted now left _)
        (fun _ => .inl) (fun hm => ⟨rfl, hm⟩) (fun hm => hm) (fun hc => ⟨hc, rfl⟩)⟩
    · split
      · next reserved hreserved =>
        obtain ⟨rfl, -⟩ := reserveBytes_eq h.bounded hreserved
        exact ⟨_, Turned.of_same rfl rfl rfl rfl (.waits _ hleaving)
          (fun now left => hadjusted now left _) (fun _ => .inl) (fun hm => ⟨rfl, hm⟩)
          (fun hm => hm) (fun hc => ⟨hc, rfl⟩)⟩
      · exact ⟨_, turned_resume (.answered (.resize replay) next false hprogram hleaving)
          rfl rfl rfl rfl⟩

theorem Sound.turned_perform {op : Action}
    {next : op.Answer E → Forward E (Except E ForwardOutcome)} (h : w.Sound config)
    (hi : w.callers[i]? = some c) (hprogram : c.program = .ask op next)
    (hleaving : c.stage ≠ .leaving) (hstep : w.perform config i c replies op next = some w') :
    ∃ m, w.Turned config w' i c m := by
  have hallowed := h.allowed hi hprogram hleaving
  cases op with
  | acquirePermit | lookup | claimSend | observe | send | sleepRetry _ | read _ | gate _
    | completed _ | remember _ =>
    obtain rfl := Option.some.inj hstep
    exact ⟨_, turned_resume (.answered _ next _ hprogram hleaving) rfl rfl rfl rfl⟩
  | enter => exact h.turned_enter hi hprogram hleaving hstep
  | lockOutcome =>
    obtain ⟨f, hf, hlock⟩ := Option.bind_eq_some_iff.mp hstep
    exact turned_lockOutcome hprogram hleaving hf hlock
  | begin =>
    obtain ⟨f, hf, rfl⟩ := Option.map_eq_some_iff.mp hstep
    exact ⟨_, Turned.of_write hf rfl rfl rfl rfl (.answered .begin next () hprogram hleaving)
      (.inl rfl) rfl (fun _ => .inl rfl) (fun _ => .inr rfl) (fun hm => by cases hm) (.inl rfl)
      (fun _ => .inl rfl)⟩
  | resize replay =>
    obtain ⟨f, hf, rfl⟩ := Option.map_eq_some_iff.mp hstep
    exact h.turned_resize hprogram hleaving hf hallowed
  | retainCompleted =>
    obtain ⟨f, hf, rfl⟩ := Option.map_eq_some_iff.mp hstep
    exact ⟨_, Turned.of_write hf rfl rfl rfl rfl
      (.answered .retainCompleted next () hprogram hleaving) (.inl rfl) rfl .inl .inl .inl
      (.inr rfl) (fun _ => .inr (.inr rfl))⟩
  | disarm =>
    obtain ⟨f, hf, rfl⟩ := Option.map_eq_some_iff.mp hstep
    exact ⟨_, Turned.of_write hf rfl rfl rfl rfl (.answered .disarm next () hprogram hleaving)
      (.inl rfl) rfl .inl .inl .inl (.inl rfl)
      (fun _ => .inr (.inl ⟨hleaving, .disarm, next, hprogram, .inl rfl⟩))⟩
  | reset =>
    obtain ⟨f, hf, rfl⟩ := Option.map_eq_some_iff.mp hstep
    exact ⟨_, Turned.of_write hf rfl rfl rfl rfl (.answered .reset next () hprogram hleaving)
      (.inl rfl) rfl (fun _ => .inr ⟨not_began_ended, hleaving, next, hprogram⟩)
      (fun hm => absurd hm not_began_ended) (fun hm => by cases hm) (.inl rfl)
      (fun _ => .inr (.inl ⟨hleaving, .reset, next, hprogram, .inr rfl⟩))⟩
  | publish outcome =>
    obtain ⟨f, hf, rfl⟩ := Option.map_eq_some_iff.mp hstep
    exact ⟨_, Turned.of_write hf rfl rfl rfl rfl
      (.answered (.publish outcome) next () hprogram hleaving) (.inl rfl) rfl
      (fun _ => .inl rfl) (fun hm => absurd hm not_began_ended) (fun hm => by cases hm) (.inl rfl)
      .inl⟩

/-- Whatever the caller is answered. -/
theorem Sound.turned (h : w.Sound config) (hi : w.callers[i]? = some c)
    (hstep : w.turn config i c replies = some w') : ∃ m, w.Turned config w' i c m := by
  unfold World.turn at hstep
  split at hstep
  · next hstage => exact h.turned_leave hi hstage hstep
  · obtain rfl := Option.some.inj hstep
    exact ⟨_, turned_depart⟩
  · next op next hprogram hleaving => exact h.turned_perform hi hprogram hleaving hstep

end Outcome

end Turns

end World

end Proxy
