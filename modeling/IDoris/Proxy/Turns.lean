import IDoris.Proxy.Accounts

/-!
# Turns at the flight

What a caller with the outcome locked writes, and what it leaves behind, keeps the accounts.
-/
namespace Proxy

open Interaction Program Slots Transition

variable {E : Type} {config : ProxyConfig}

namespace World

section Answers

variable {w : World E} {i : Nat} {c : Caller E} {outcome replay : ForwardOutcome}

theorem Sound.allowed {op : Action} {next : op.Answer E → Forward E (Except E ForwardOutcome)}
    (h : w.Sound config) (hi : w.callers[i]? = some c) (hprogram : c.program = .ask op next)
    (hleaving : c.stage ≠ .leaving) : c.phase.Allows config op := by
  have hsafe := (h.fits i c hi).safe hleaving
  rw [hprogram] at hsafe
  exact hsafe.1

theorem Sound.begin {next : Unit → Forward E (Except E ForwardOutcome)} (h : w.Sound config)
    (hi : w.callers[i]? = some c) (hprogram : c.program = .ask .begin next)
    (hbetween : c.stage = .between) {f : Nat} (hf : c.flight = some f) :
    (w.write i c f (fun flight => { flight with outcome := some Shared.fallback }) (some true)
      .begin next ()).Sound config := by
  have hphase : c.phase = .locked := h.allowed hi hprogram (by rw [hbetween]; rintro ⟨⟩)
  have hagrees := (h.fits i c hi).agrees
  simp only [Caller.Agrees, hphase] at hagrees
  obtain ⟨g, howns, hempty⟩ := hagrees
  obtain rfl : g = f := Option.some.inj (howns.1.symm.trans hf)
  have hretained : (w.shared.heap g).retainedBytes = (w.shared.heap g).baseBytes +
      config.layout.outcomeBytes Shared.fallback := by
    obtain hsettled | ⟨d, hd, hflight, replay, hstored⟩ :=
      h.settled g ((h.fits i c hi).registered g hf)
    · exact hsettled.empty hempty
    · obtain ⟨j, hj⟩ := List.mem_iff_getElem?.mp hd
      have hleader := (h.fits j d hj).agrees
      simp only [Caller.Agrees, hstored] at hleader
      obtain ⟨g', howns', -⟩ := hleader
      obtain rfl : g' = g := Option.some.inj (howns'.1.symm.trans hflight)
      obtain rfl : j = i := Option.some.inj (howns'.2.symm.trans howns.2)
      rw [hi] at hj
      cases hj
      rw [hphase] at hstored
      cases hstored
  have hnew : (w.shared.heap g).Settled config → Flight.Settled config
      { w.shared.heap g with outcome := some Shared.fallback } := by
    intro _
    constructor
    · rintro ⟨⟩
    · intro outcome houtcome
      obtain rfl := Option.some.inj houtcome
      exact Nat.le_of_eq hretained.symm
  apply h.write hi hprogram hbetween howns rfl rfl rfl
  · intro d s hd howns' hheap
    simp only [Caller.Agrees, hd, Phase.next]
    exact ⟨g, howns', by rw [hheap]; exact hretained⟩
  · exact hnew
  · intro replay hstored
    rw [hphase] at hstored
    cases hstored

/-- The guard is settled while the flight's charge, or its replay's, is in place. -/
theorem Sound.settleGuard {op : Action} {next : op.Answer E → Forward E (Except E ForwardOutcome)}
    {answer : op.Answer E} {f : Nat} {g : Flight → Flight} (h : w.Sound config)
    (hi : w.callers[i]? = some c) (hprogram : c.program = .ask op next)
    (hbetween : c.stage = .between) (hf : c.flight = some f)
    (hallowed : c.phase = .begun ∨ ∃ replay, c.phase = .stored replay)
    (hnext : c.phase.next op answer = c.phase)
    (hg : ∀ flight, (g flight).outcome = flight.outcome ∧ (g flight).holder = flight.holder ∧
      (g flight).retainedBytes = flight.retainedBytes ∧ (g flight).baseBytes = flight.baseBytes)
    (guarded : Option Bool) : (w.write i c f g guarded op next answer).Sound config := by
  obtain ⟨houtcome, hholder, hretained, hbase⟩ := hg (w.shared.heap f)
  have hsettled : (w.shared.heap f).Settled config → (g (w.shared.heap f)).Settled config := by
    intro hold
    constructor
    · rw [houtcome, hretained, hbase]
      exact hold.empty
    · rw [houtcome, hretained, hbase]
      exact hold.covers
  have hagrees := (h.fits i c hi).agrees
  obtain hphase | ⟨replay, hphase⟩ := hallowed
  · simp only [Caller.Agrees, hphase] at hagrees
    obtain ⟨f', howns, hcharged⟩ := hagrees
    obtain rfl : f' = f := Option.some.inj (howns.1.symm.trans hf)
    apply h.write hi hprogram hbetween howns hholder hretained hbase
    · intro d s hd howns' hheap
      have hbegun : d.phase = .begun := hd.trans (hnext.trans hphase)
      simp only [Caller.Agrees, hbegun]
      exact ⟨f', howns', by rw [hheap, hretained, hbase]; exact hcharged⟩
    · exact hsettled
    · exact fun replay hstored => .inr (hnext.trans hstored)
  · simp only [Caller.Agrees, hphase] at hagrees
    obtain ⟨f', howns, hcharged⟩ := hagrees
    obtain rfl : f' = f := Option.some.inj (howns.1.symm.trans hf)
    apply h.write hi hprogram hbetween howns hholder hretained hbase
    · intro d s hd howns' hheap
      have hstored : d.phase = .stored replay := hd.trans (hnext.trans hphase)
      simp only [Caller.Agrees, hstored]
      exact ⟨f', howns', by rw [hheap, hretained, hbase]; exact hcharged⟩
    · exact hsettled
    · exact fun replay hstored => .inr (hnext.trans hstored)

theorem Sound.reset {next : Unit → Forward E (Except E ForwardOutcome)} (h : w.Sound config)
    (hi : w.callers[i]? = some c) (hprogram : c.program = .ask .reset next)
    (hbetween : c.stage = .between) {f : Nat} (hf : c.flight = some f) :
    (w.write i c f (fun flight => { flight with outcome := none }) (some false)
      .reset next ()).Sound config := by
  have hphase : c.phase = .begun := h.allowed hi hprogram (by rw [hbetween]; rintro ⟨⟩)
  obtain ⟨g, howns, hcharged⟩ := (h.fits i c hi).agrees.begun hphase
  obtain rfl : g = f := Option.some.inj (howns.1.symm.trans hf)
  apply h.write hi hprogram hbetween howns rfl rfl rfl
  · intro d s hd howns' _
    simp only [Caller.Agrees, hd, Phase.next]
    exact fun _ => ⟨_, howns'⟩
  · exact fun _ => ⟨fun _ => hcharged, (by rintro _ ⟨⟩)⟩
  · exact fun _ _ => .inl ⟨fun _ => hcharged, (by rintro _ ⟨⟩)⟩

/-- The result is put where its charge is stored. -/
theorem Sound.publish {next : Unit → Forward E (Except E ForwardOutcome)} (h : w.Sound config)
    (hi : w.callers[i]? = some c) (hprogram : c.program = .ask (.publish outcome) next)
    (hbetween : c.stage = .between) {f : Nat} (hf : c.flight = some f) :
    (w.write i c f (fun flight => { flight with outcome := some outcome }) c.guarded
      (.publish outcome) next ()).Sound config := by
  have hallowed : c.phase = .stored outcome ∨ c.phase = .begun ∧
      config.layout.outcomeBytes outcome = config.layout.outcomeBytes Shared.fallback :=
    h.allowed hi hprogram (by rw [hbetween]; rintro ⟨⟩)
  have hcharged : c.Owns w.shared i f ∧ (w.shared.heap f).retainedBytes =
      (w.shared.heap f).baseBytes + config.layout.outcomeBytes outcome := by
    have hagrees := (h.fits i c hi).agrees
    obtain hphase | ⟨hphase, hsize⟩ := hallowed
    · simp only [Caller.Agrees, hphase] at hagrees
      obtain ⟨g, howns, hcharged⟩ := hagrees
      obtain rfl : g = f := Option.some.inj (howns.1.symm.trans hf)
      exact ⟨howns, hcharged⟩
    · obtain ⟨g, howns, hcharged⟩ := hagrees.begun hphase
      obtain rfl : g = f := Option.some.inj (howns.1.symm.trans hf)
      exact ⟨howns, by rw [hsize]; exact hcharged⟩
  have hnew : Flight.Settled config { w.shared.heap f with outcome := some outcome } := by
    constructor
    · rintro ⟨⟩
    · intro o ho
      obtain rfl := Option.some.inj ho
      exact Nat.le_of_eq hcharged.2.symm
  apply h.write hi hprogram hbetween hcharged.1 rfl rfl rfl
  · intro d s hd howns' _
    simp only [Caller.Agrees, hd, Phase.next]
    exact fun _ => ⟨_, howns'⟩
  · exact fun _ => hnew
  · exact fun _ _ => .inl hnew

/-- The outcome is locked by a caller that finds it free. -/
theorem Sound.lockOutcome {next : Option ForwardOutcome → Forward E (Except E ForwardOutcome)}
    (h : w.Sound config) (hi : w.callers[i]? = some c)
    (hprogram : c.program = .ask .lockOutcome next) (hbetween : c.stage = .between) {f : Nat}
    (hf : c.flight = some f) {w' : World E} (hstep : w.lockOutcome i c f next = some w') :
    w'.Sound config := by
  have hphase : c.phase = .joined := h.allowed hi hprogram (by rw [hbetween]; rintro ⟨⟩)
  unfold World.lockOutcome at hstep
  split at hstep
  · next hfree =>
    obtain rfl := Option.some.inj hstep
    have hnone : (w.shared.heap f).holder = none := by simpa using hfree
    have hself := w.shared.heap_modifyFlight_self f fun flight => { flight with holder := some i }
    apply h.answered hi hprogram hbetween
      (t := w.shared.modifyFlight f fun flight => { flight with holder := some i })
      rfl rfl rfl _ _ c.guarded
    · intro d hd hflight hguarded
      have hagrees := (h.fits i c hi).agrees
      simp only [Caller.Agrees, hphase] at hagrees
      cases hout : (w.shared.heap f).outcome with
      | none =>
        rw [hout] at hd
        simp only [Caller.Agrees, hd, Phase.next]
        exact ⟨f, ⟨hflight.trans hf, by rw [hself]⟩, by rw [hself]; exact hout⟩
      | some o =>
        rw [hout] at hd
        simp only [Caller.Agrees, hd, Phase.next, hguarded, hagrees]
        rintro ⟨⟩
    · intro f'
      exact Shared.heap_modifyFlight_cases
        (P := fun f' flight => (w.shared.heap f').Settled config → flight.Settled config)
        f' (fun hsettled => ⟨hsettled.empty, hsettled.covers⟩) fun _ hsettled => hsettled
    · intro f' _ replay hstored
      rw [hphase] at hstored
      cases hstored
    · intro f'
      exact Shared.heap_modifyFlight_cases
        (P := fun f' flight => flight.retainedBytes = (w.shared.heap f').retainedBytes)
        f' rfl fun _ => rfl
    · intro j _ f' hj
      apply Shared.heap_modifyFlight_of_ne
      rintro rfl
      rw [hnone] at hj
      cases hj
  · cases hstep

end Answers

section Counts

variable {w : World E} {i f : Nat} {c : Caller E}

theorem strongCount_pos (h : f ∈ w.shared.flights.values) : 0 < w.strongCount f :=
  Nat.lt_of_lt_of_le (List.count_pos_iff.mpr h) (Nat.le_add_right _ _)

/-- A registered flight is not dropped. -/
theorem dropHandle_of_mem (h : f ∈ w.shared.flights.values) : w.dropHandle f = w := by
  unfold dropHandle
  rw [if_neg]
  have := strongCount_pos h
  omega

theorem handles_eq_zero : c.handles f = 0 ↔ c.flight ≠ some f := by
  unfold Caller.handles
  split
  · next h =>
    simp only [h]
    split <;> simp
  · next h => simp [h]

theorem strongCount_eq_zero : w.strongCount f = 0 ↔
    f ∉ w.shared.flights.values ∧ ∀ c ∈ w.callers, c.flight ≠ some f := by
  unfold strongCount
  rw [Nat.add_eq_zero_iff, List.count_eq_zero, List.sum_eq_zero_iff]
  simp only [List.mem_map, forall_exists_index, and_imp, forall_apply_eq_imp_iff₂, handles_eq_zero]

/-- A registered flight with one reference is held by no caller. -/
theorem unheld_of_strongCount (h : f ∈ w.shared.flights.values) (hone : w.strongCount f ≤ 1) :
    ∀ c ∈ w.callers, c.flight ≠ some f := by
  intro c hc
  have hcount : 0 < w.shared.flights.values.count f := List.count_pos_iff.mpr h
  have hle : c.handles f ≤ (w.callers.map fun c => c.handles f).sum :=
    List.single_le_sum (fun _ _ => Nat.zero_le _) _ (List.mem_map_of_mem hc)
  unfold strongCount at hone
  exact handles_eq_zero.mp (by omega)

end Counts

section Leaving

variable {w w' : World E} {i f : Nat} {c : Caller E}

/-- The program is over, or dropped where it awaits. -/
theorem Sound.depart (h : w.Sound config) (hi : w.callers[i]? = some c)
    (hquiet : c.stage.adjusting = false) (hwhole : c.phase.Whole) :
    (w.depart i c).Sound config := by
  have hold := h.fits i c hi
  apply h.update (t := w.shared) hi hquiet rfl rfl rfl rfl (fun _ => rfl) (fun _ _ _ _ => rfl)
    (fun _ _ hj => hj)
  · constructor
    · exact fun hleaving => absurd rfl hleaving
    · exact hold.registered
    · exact hold.agrees.guarded
    · rfl
  · exact fun _ hf => .inl hf
  · exact fun f hstored => absurd hstored (Caller.not_storing hwhole)

/-- A caller that leaves writes a flight that no other one has locked. -/
theorem Sound.modify {g : Flight → Flight} {m : Caller E} (h : w.Sound config)
    (hi : w.callers[i]? = some c) (hstage : c.stage = .leaving) (hstage' : m.stage = .leaving)
    (hunlocked : ∀ j, (w.shared.heap f).holder = some j → j = i)
    (hretained : (g (w.shared.heap f)).retainedBytes = (w.shared.heap f).retainedBytes)
    (hsettled : (w.shared.heap f).Settled config → (g (w.shared.heap f)).Settled config)
    (hflight : m.flight = c.flight) (hphase : m.phase = .ended) (hguarded : m.guarded = none) :
    ((w.modifyFlight f g).setCaller i m).Sound config := by
  have hold := h.fits i c hi
  have hended : c.phase = .ended := by
    have hstaged := hold.staged
    simpa only [Caller.Staged, hstage] using hstaged
  apply h.update hi (by rw [hstage]; rfl) (by rw [hstage']; rfl) rfl rfl rfl
    (t := w.shared.modifyFlight f g)
  · intro f'
    exact Shared.heap_modifyFlight_cases
      (P := fun f' flight => flight.retainedBytes = (w.shared.heap f').retainedBytes)
      f' hretained fun _ => rfl
  · intro j hne f' hj
    apply Shared.heap_modifyFlight_of_ne
    rintro rfl
    exact hne (hunlocked j hj)
  · exact fun _ _ hj => hj
  · constructor
    · exact fun hleaving => absurd hstage' hleaving
    · intro f' hf'
      rw [hflight] at hf'
      exact hold.registered f' hf'
    · simp only [Caller.Agrees, hphase, hguarded]
      rintro ⟨⟩
    · simp only [Caller.Staged, hstage', hphase]
  · intro f' hf'
    refine .inl ?_
    exact Shared.heap_modifyFlight_cases
      (P := fun f' flight => (w.shared.heap f').Settled config → flight.Settled config)
      f' hsettled (fun _ hold => hold) hf'
  · exact fun f' hstored => absurd hstored (Caller.not_storing (by rw [hended]; rintro _ ⟨⟩))

theorem setCaller_self (hi : w.callers[i]? = some c) : w.setCaller i c = w := by
  obtain ⟨hlt, rfl⟩ := List.getElem?_eq_some_iff.mp hi
  simp [setCaller]

/-- A local of the caller goes. -/
theorem Sound.leave (h : w.Sound config) (hi : w.callers[i]? = some c) (hstage : c.stage = .leaving)
    (hstep : w.leave i c = some w') : w'.Sound config := by
  have hold := h.fits i c hi
  have hquiet : c.stage.adjusting = false := by rw [hstage]; rfl
  have hphase : c.phase = .ended := by
    have hstaged := hold.staged
    simpa only [Caller.Staged, hstage] using hstaged
  unfold World.leave at hstep
  obtain ⟨f, hf, hstep⟩ := Option.map_eq_some_iff.mp hstep
  have hmem := hold.registered f hf
  split at hstep
  · next armed hguarded =>
    subst hstep
    obtain ⟨g, howns⟩ := hold.agrees.guarded (by rw [hguarded]; rfl)
    obtain rfl : g = f := Option.some.inj (howns.1.symm.trans hf)
    rw [dropHandle_of_mem]
    · apply h.modify (m := { c with guarded := none }) hi hstage hstage
      · intro j hj
        exact Option.some.inj (hj.symm.trans howns.2)
      · split <;> rfl
      · intro hsettled
        split
        · exact ⟨hsettled.empty, hsettled.covers⟩
        · exact hsettled
      · rfl
      · exact hphase
      · rfl
    · exact hmem
  · next hguarded =>
    split at hstep
    · next hlocked =>
      subst hstep
      rw [← setCaller_self (w := w.modifyFlight f _) hi]
      apply h.modify hi hstage hstage
      · intro j hj
        exact Option.some.inj (hj.symm.trans hlocked)
      · rfl
      · exact fun hsettled => ⟨hsettled.empty, hsettled.covers⟩
      · rfl
      · exact hphase
      · exact hguarded
    · subst hstep
      rw [dropHandle_of_mem]
      · apply h.update (t := w.shared) (m := { c with flight := none }) hi hquiet hquiet
          rfl rfl rfl (fun _ => rfl) (fun _ _ _ _ => rfl) (fun _ _ hj => hj)
        · constructor
          · exact fun hleaving => absurd hstage hleaving
          · rintro _ ⟨⟩
          · simp only [Caller.Agrees, hphase, hguarded]
            rintro ⟨⟩
          · simp only [Caller.Staged, hstage, hphase]
        · exact fun _ hf => .inl hf
        · exact fun f' hstored => absurd hstored (Caller.not_storing (by rw [hphase]; rintro _ ⟨⟩))
      · exact hmem

end Leaving

end World

end Proxy
