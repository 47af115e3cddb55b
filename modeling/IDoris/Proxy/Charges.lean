import IDoris.Proxy.Turns

/-!
# Turns at the counter

A flight that is inserted, resized or pruned takes its charge from the counter or gives it back.
-/
namespace Proxy

open Interaction Program Slots Transition

variable {E : Type} {config : ProxyConfig}

namespace World

section Registry

variable {w w' : World E} {i : Nat} {c : Caller E}
  {next : Entered → Forward E (Except E ForwardOutcome)}

theorem Sound.outside (h : w.Sound config) (hi : w.callers[i]? = some c)
    (hprogram : c.program = .ask .enter next) (hleaving : c.stage ≠ .leaving) :
    c.phase = .outside :=
  h.allowed hi hprogram hleaving

/-- The registry is locked by a caller that finds it free. -/
theorem Sound.lockRegistry (h : w.Sound config) (hi : w.callers[i]? = some c)
    (hprogram : c.program = .ask .enter next) (hbetween : c.stage = .between)
    (hstep : w.lockRegistry i c = some w') : w'.Sound config := by
  have hold := h.fits i c hi
  unfold World.lockRegistry at hstep
  split at hstep
  · next hfree =>
    obtain rfl := Option.some.inj hstep
    have hnone : w.registryHolder = none := by simpa using hfree
    apply h.update (t := w.shared) hi (by rw [hbetween]; rfl) rfl rfl rfl rfl (fun _ => rfl)
      (fun _ _ _ _ => rfl)
    · intro j _ hj
      rw [hnone] at hj
      cases hj
    · constructor
      · exact fun _ => hold.safe (by rw [hbetween]; exact nofun)
      · exact hold.registered
      · exact hold.agrees.congr rfl rfl rfl
      · exact ⟨rfl, ⟨next, hprogram⟩, fun e he => he, w.shared.flights.nodup⟩
    · exact fun _ hf => .inl hf
    · exact fun _ hf => .inr hf
  · cases hstep

/-- A caller leaves the registry, with or without the flight it found. -/
theorem Sound.entered (h : w.Sound config) (hi : w.callers[i]? = some c)
    (hprogram : c.program = .ask .enter next) (hquiet : c.stage.adjusting = false)
    (hleaving : c.stage ≠ .leaving) (hholder : w.registryHolder = some i) {flight : Option Nat}
    (hflight : ∀ f, flight = some f → f ∈ w.shared.flights.values) (answer : Entered) :
    (w.entered i { c with flight := flight } next answer).Sound config := by
  have hphase := h.outside hi hprogram hleaving
  apply h.update (t := w.shared) hi hquiet rfl rfl rfl rfl (fun _ => rfl) (fun _ _ _ _ => rfl)
  · intro j hne hj
    rw [hholder] at hj
    exact absurd (Option.some.inj hj).symm hne
  · have hsafe := (h.fits i c hi).safe hleaving
    rw [hprogram] at hsafe
    constructor
    · exact fun _ => hsafe.2 answer
    · exact hflight
    · have hagrees := (h.fits i c hi).agrees
      simp only [Caller.Agrees, hphase] at hagrees ⊢
      cases answer <;> simpa only [Phase.next] using hagrees
    · trivial
  · exact fun _ hf => .inl hf
  · exact fun f hstored => absurd hstored (Caller.not_storing (by rw [hphase]; rintro _ ⟨⟩))

/-- `retain` drops a flight that only the registry has, and its charge with it. -/
theorem Sound.remove {e : String × Nat} {rest : List (String × Nat)} {now now' : Nat}
    (h : w.Sound config) (hi : w.callers[i]? = some c)
    (hstage : c.stage = .scanning now (e :: rest)) (hone : w.strongCount e.2 ≤ 1) :
    ({ w.setCaller i { c with stage := .scanning now' rest } with
      shared := { w.shared with
        flights := w.shared.flights.remove e.1 } }.dropHandle e.2).Sound config := by
  obtain ⟨key, f⟩ := e
  have hold := h.fits i c hi
  have hstaged := hold.staged
  simp only [Caller.Staged, hstage] at hstaged
  obtain ⟨hholder, hprogram, hleft, hkeys⟩ := hstaged
  have hget : w.shared.flights.get key = some f :=
    Keyed.Map.mem_entries.mp (hleft _ List.mem_cons_self)
  have hmem : f ∈ w.shared.flights.values := Keyed.Map.mem_values.mpr ⟨key, hget⟩
  have hunheld := unheld_of_strongCount hmem hone
  have hvalues : ∀ f', f' ∈ (w.shared.flights.remove key).values ↔
      f' ∈ w.shared.flights.values ∧ f' ≠ f := fun _ => Keyed.Map.mem_values_remove hget h.distinct
  have hflight : ∀ d ∈ w.callers.set i { c with stage := .scanning now' rest },
      d.flight ≠ some f := by
    intro d hd
    obtain rfl | ⟨j, -, hj⟩ := mem_set hd
    · exact hunheld c (mem_of_get hi)
    · exact hunheld d (mem_of_get hj)
  obtain ⟨charge, hcharge⟩ := h.accounted
  have hretained : charge f = (w.shared.heap f).retainedBytes :=
    hcharge.plain f hmem fun d hd retained hadjusts => hunheld d hd hadjusts.1
  have htotal : ((w.shared.flights.remove key).values.map charge).sum + charge f =
      (w.shared.flights.values.map charge).sum := by
    have hremoved := Keyed.Map.total_remove (m := w.shared.flights) (k := key) charge
    rwa [hget] at hremoved
  have hbytes := hcharge.total
  unfold dropHandle
  rw [if_pos (strongCount_eq_zero.mpr ⟨fun hin => ((hvalues f).mp hin).2 rfl, hflight⟩)]
  constructor
  · apply h.fits_set hi
    · constructor
      · exact fun _ => hold.safe (by rw [hstage]; rintro ⟨⟩)
      · intro f' hf'
        refine (hvalues f').mpr ⟨hold.registered f' hf', ?_⟩
        rintro rfl
        exact hunheld c (mem_of_get hi) hf'
      · exact hold.agrees.congr rfl rfl rfl
      · refine ⟨hholder, hprogram, fun e he => ?_, (List.nodup_cons.mp hkeys).2⟩
        refine List.mem_filter.mpr ⟨hleft e (List.mem_cons_of_mem _ he), ?_⟩
        have hne : e.1 ≠ key := by
          rintro rfl
          exact (List.nodup_cons.mp hkeys).1 (List.mem_map.mpr ⟨e, he, rfl⟩)
        simpa using hne
    · exact fun _ _ _ _ _ _ => rfl
    · intro j d _ hj f' hf'
      refine (hvalues f').mpr ⟨(h.fits j d hj).registered f' hf', ?_⟩
      rintro rfl
      exact hunheld d (mem_of_get hj) hf'
    · intro j hne hj
      rw [hholder] at hj
      exact absurd (Option.some.inj hj).symm hne
  · exact h.distinct.sublist Keyed.Map.values_remove
  · exact fun f' hf' => h.fresh f' ((hvalues f').mp hf').1
  · exact fun f' hf' => h.settled_set hi id ((hvalues f').mp hf').1
  · refine ⟨charge, ?_⟩
    constructor
    · have hsum := sum_map_set (fun c => c.reservedBytes config) hi
        (b := { c with stage := .scanning now' rest })
      rw [Caller.reservedBytes_of_quiet (c := c) (by rw [hstage]; rfl),
        Caller.reservedBytes_of_quiet (c := { c with stage := .scanning now' rest }) rfl] at hsum
      simp only [giveBack, setCaller]
      omega
    · exact hcharge.adjusted_set rfl
    · intro f' hf' hnone
      exact hcharge.plain_set_of hi (Caller.not_adjusts_of_quiet (by rw [hstage]; rfl) f')
        ((hvalues f').mp hf').1 hnone
  · exact Nat.le_trans (Nat.sub_le _ _) h.bounded
  · simp only [giveBack, setCaller, h.covered, Bool.false_or, decide_eq_false_iff_not, not_lt]
    omega

theorem Sound.scan {e : String × Nat} {rest : List (String × Nat)} {now : Nat}
    (h : w.Sound config) (hi : w.callers[i]? = some c)
    (hstage : c.stage = .scanning now (e :: rest)) : (w.scan config i c now e rest).Sound config := by
  have hold := h.fits i c hi
  have hstaged := hold.staged
  simp only [Caller.Staged, hstage] at hstaged
  obtain ⟨hholder, hprogram, hleft, hkeys⟩ := hstaged
  unfold World.scan
  split
  · apply h.update (t := w.shared) hi (by rw [hstage]; rfl) rfl rfl rfl rfl (fun _ => rfl)
      (fun _ _ _ _ => rfl) (fun _ _ hj => hj)
    · constructor
      · exact fun _ => hold.safe (by rw [hstage]; rintro ⟨⟩)
      · exact hold.registered
      · exact hold.agrees.congr rfl rfl rfl
      · exact ⟨hholder, hprogram, fun e he => hleft e (List.mem_cons_of_mem _ he),
          (List.nodup_cons.mp hkeys).2⟩
    · exact fun _ hf => .inl hf
    · exact fun _ hf => .inr hf
  · next hgone =>
    refine h.remove hi hstage ?_
    simp only [Shared.stays, Bool.or_eq_true, decide_eq_true_eq, not_or] at hgone
    omega

theorem reserveBytes_eq {s t : Shared} {bytes : Nat} (hbound : s.flightBytes ≤ config.maxFlightBytes)
    (h : s.reserveBytes config bytes = some t) :
    t = { s with flightBytes := s.flightBytes + bytes } ∧
      s.flightBytes + bytes ≤ config.maxFlightBytes := by
  unfold Shared.reserveBytes at h
  split at h
  · cases h
  · exact ⟨(Option.some.inj h).symm, by omega⟩

/-- The bytes of a new flight are taken from the budget before the flight is there. -/
theorem Sound.reserve {now : Nat} {reserved : Shared} (h : w.Sound config)
    (hi : w.callers[i]? = some c) (hstage : c.stage = .scanning now [])
    (hnone : w.shared.flights.get c.key = none)
    (hreserved : w.shared.reserveBytes config (c.newFlight config).retainedBytes = some reserved) :
    ({ w with shared := reserved }.setCaller i { c with stage := .reserved }).Sound config := by
  have hold := h.fits i c hi
  have hstaged := hold.staged
  simp only [Caller.Staged, hstage] at hstaged
  obtain ⟨hholder, hprogram, -, -⟩ := hstaged
  obtain ⟨rfl, hle⟩ := reserveBytes_eq h.bounded hreserved
  obtain ⟨charge, hcharge⟩ := h.accounted
  constructor
  · apply h.fits_set hi
    · constructor
      · exact fun _ => hold.safe (by rw [hstage]; rintro ⟨⟩)
      · exact hold.registered
      · exact hold.agrees.congr rfl rfl rfl
      · exact ⟨hholder, hprogram, hnone⟩
    · exact fun _ _ _ _ _ _ => rfl
    · exact fun j d _ hj f hf => (h.fits j d hj).registered f hf
    · exact fun j _ hj => ⟨hj, fun _ => rfl⟩
  · exact h.distinct
  · exact h.fresh
  · exact fun f hf => h.settled_set hi id hf
  · refine ⟨charge, ?_⟩
    constructor
    · have hsum := sum_map_set (fun c => c.reservedBytes config) hi
        (b := { c with stage := .reserved })
      have hnew : Caller.reservedBytes config { c with stage := .reserved } =
          (c.newFlight config).retainedBytes := rfl
      have htotal := hcharge.total
      rw [Caller.reservedBytes_of_quiet (c := c) (by rw [hstage]; rfl), hnew] at hsum
      simp only [setCaller]
      omega
    · intro d hd f retained hadjusts
      obtain rfl | ⟨j, -, hj⟩ := mem_set hd
      · cases hadjusts.2
      · exact hcharge.adjusted d (mem_of_get hj) f retained hadjusts
    · intro f hf hnone
      exact hcharge.plain_set_of hi (Caller.not_adjusts_of_quiet (by rw [hstage]; rfl) f) hf hnone
  · exact hle
  · exact h.covered

/-- The new flight is inserted with the charge that was reserved for it. -/
theorem Sound.insertFlight (h : w.Sound config) (hi : w.callers[i]? = some c)
    (hprogram : c.program = .ask .enter next) (hstage : c.stage = .reserved) :
    (w.insertFlight config i c next).Sound config := by
  have hold := h.fits i c hi
  have hleaving : c.stage ≠ .leaving := by rw [hstage]; rintro ⟨⟩
  have hphase := h.outside hi hprogram hleaving
  have hstaged := hold.staged
  simp only [Caller.Staged, hstage] at hstaged
  obtain ⟨hholder, -, hnone⟩ := hstaged
  have hsafe := hold.safe hleaving
  rw [hprogram] at hsafe
  obtain ⟨charge, hcharge⟩ := h.accounted
  have hvalues : (w.shared.insertFlight c.key (c.newFlight config)).flights.values =
      w.shared.flights.values ++ [w.shared.nextFlight] := Keyed.Map.values_insert_of_none hnone
  have hcases : ∀ f ∈ (w.shared.insertFlight c.key (c.newFlight config)).flights.values,
      f ∈ w.shared.flights.values ∨ f = w.shared.nextFlight := by
    intro f hf
    rw [hvalues] at hf
    exact (List.mem_append.mp hf).imp_right List.mem_singleton.mp
  have hmem : ∀ f ∈ w.shared.flights.values,
      f ∈ (w.shared.insertFlight c.key (c.newFlight config)).flights.values := by
    intro f hf
    rw [hvalues]
    exact List.mem_append_left _ hf
  have hlast : w.shared.nextFlight ∈
      (w.shared.insertFlight c.key (c.newFlight config)).flights.values := by
    rw [hvalues]
    exact List.mem_append_right _ (List.mem_singleton_self _)
  have hne : ∀ f ∈ w.shared.flights.values, f ≠ w.shared.nextFlight :=
    fun f hf => Nat.ne_of_lt (h.fresh f hf)
  have hheap : ∀ f ∈ w.shared.flights.values,
      (w.shared.insertFlight c.key (c.newFlight config)).heap f = w.shared.heap f := by
    intro f hf
    simp [Shared.insertFlight, hne f hf]
  have hnew : (w.shared.insertFlight c.key (c.newFlight config)).heap w.shared.nextFlight =
      c.newFlight config := by simp [Shared.insertFlight]
  constructor
  · apply h.fits_set hi
    · constructor
      · exact fun _ => hsafe.2 (.flight c.fingerprint)
      · intro f hf
        obtain rfl := Option.some.inj hf
        exact hlast
      · have hagrees := hold.agrees
        simp only [Caller.Agrees, hphase] at hagrees
        exact hagrees
      · trivial
    · exact fun j d _ hj f howns => hheap f ((h.fits j d hj).registered f howns.1)
    · exact fun j d _ hj f hf => hmem f ((h.fits j d hj).registered f hf)
    · intro j hne hj
      rw [show w.registryHolder = some j from hj] at hholder
      exact absurd (Option.some.inj hholder) hne
  · have hdistinct : (w.shared.insertFlight c.key (c.newFlight config)).flights.values.Nodup := by
      rw [hvalues]
      refine List.nodup_append.mpr ⟨h.distinct, List.nodup_singleton _, ?_⟩
      rintro f hf g hg rfl
      exact hne f hf (List.mem_singleton.mp hg)
    exact hdistinct
  · intro f hf
    obtain hf | rfl := hcases f hf
    · exact Nat.lt_succ_of_lt (h.fresh f hf)
    · exact Nat.lt_succ_self _
  · intro f hf
    obtain hf | rfl := hcases f hf
    · have hkept := h.settled_set (m := { c with
          program := next (.flight c.fingerprint)
          stage := .between
          phase := .joined
          flight := some w.shared.nextFlight }) hi
        (fun hstored => absurd hstored (Caller.not_storing (by rw [hphase]; rintro _ ⟨⟩))) hf
      rw [← hheap f hf] at hkept
      exact hkept
    · have hsettled : (c.newFlight config).Settled config := ⟨fun _ => rfl, (by rintro _ ⟨⟩)⟩
      rw [← hnew] at hsettled
      exact .inl hsettled
  · refine ⟨Function.update charge w.shared.nextFlight (c.newFlight config).retainedBytes, ?_⟩
    have hcharge' : ∀ f ∈ w.shared.flights.values, Function.update charge w.shared.nextFlight
        (c.newFlight config).retainedBytes f = charge f := by
      intro f hf
      simp [hne f hf]
    constructor
    · have hbefore : c.reservedBytes config = (c.newFlight config).retainedBytes := by
        simp only [Caller.reservedBytes, hstage]
      have hsum : ((w.callers.set i { c with
          program := next (.flight c.fingerprint)
          stage := .between
          phase := .joined
          flight := some w.shared.nextFlight }).map fun c => c.reservedBytes config).sum +
            (c.newFlight config).retainedBytes =
          (w.callers.map fun c => c.reservedBytes config).sum := by
        rw [← hbefore]
        exact sum_map_set (fun c => c.reservedBytes config) hi
      have htotal : ((w.shared.insertFlight c.key (c.newFlight config)).flights.values.map
          (Function.update charge w.shared.nextFlight (c.newFlight config).retainedBytes)).sum =
          (w.shared.flights.values.map charge).sum + (c.newFlight config).retainedBytes := by
        rw [hvalues, List.map_append, List.map_congr_left hcharge']
        simp
      calc w.shared.flightBytes
        _ = (w.shared.flights.values.map charge).sum + (c.newFlight config).retainedBytes +
            ((w.callers.set i { c with
              program := next (.flight c.fingerprint)
              stage := .between
              phase := .joined
              flight := some w.shared.nextFlight }).map fun c => c.reservedBytes config).sum := by
          have hbytes := hcharge.total
          omega
        _ = _ := by
          rw [← htotal]
          rfl
    · intro d hd f retained hadjusts
      obtain rfl | ⟨j, -, hj⟩ := mem_set hd
      · cases hadjusts.2
      · rw [hcharge' f ((h.fits j d hj).registered f hadjusts.1)]
        exact hcharge.adjusted d (mem_of_get hj) f retained hadjusts
    · intro f hf hnone
      obtain hf | rfl := hcases f hf
      · rw [hcharge' f hf]
        refine (hcharge.plain_set_of hi ?_ hf hnone).trans ?_
        · rintro retained ⟨-, hadjusted⟩
          rw [hstage] at hadjusted
          cases hadjusted
        · exact congrArg Flight.retainedBytes (hheap f hf).symm
      · rw [Function.update_self]
        exact congrArg Flight.retainedBytes hnew.symm
  · exact h.bounded
  · exact h.covered

theorem Sound.find {now : Nat} (h : w.Sound config) (hi : w.callers[i]? = some c)
    (hprogram : c.program = .ask .enter next) (hstage : c.stage = .scanning now []) :
    (w.find config i c next).Sound config := by
  have hold := h.fits i c hi
  have hquiet : c.stage.adjusting = false := by rw [hstage]; rfl
  have hleaving : c.stage ≠ .leaving := by rw [hstage]; exact nofun
  have hstaged := hold.staged
  simp only [Caller.Staged, hstage] at hstaged
  have hleaves := h.entered hi hprogram hquiet hleaving hstaged.1 hold.registered
  unfold World.find
  split
  · next f hget =>
    apply h.entered hi hprogram hquiet hleaving hstaged.1
    intro g hg
    obtain rfl := Option.some.inj hg
    exact Keyed.Map.mem_values.mpr ⟨c.key, hget⟩
  · next hnone =>
    split
    · split
      · next hit _ => exact hleaves (.hit hit)
      · exact hleaves .full
    · split
      · next reserved hreserved => exact h.reserve hi hstage hnone hreserved
      · exact hleaves .full

theorem Sound.enter (h : w.Sound config) (hi : w.callers[i]? = some c)
    (hprogram : c.program = .ask .enter next) (hleaving : c.stage ≠ .leaving)
    (hstep : w.enter config i c next = some w') : w'.Sound config := by
  unfold World.enter at hstep
  split at hstep
  · next now e rest hstage =>
    obtain rfl := Option.some.inj hstep
    exact h.scan hi hstage
  · next now hstage =>
    obtain rfl := Option.some.inj hstep
    exact h.find hi hprogram hstage
  · next hstage =>
    obtain rfl := Option.some.inj hstep
    exact h.insertFlight hi hprogram hstage
  · next hscan hempty hreserved =>
    have hstaged := (h.fits i c hi).staged
    have hbetween : c.stage = .between := by
      cases hstage : c.stage with
      | between => rfl
      | scanning now left =>
        cases left with
        | nil => exact absurd hstage (hempty now)
        | cons e rest => exact absurd hstage (hscan now e rest)
      | reserved => exact absurd hstage hreserved
      | adjusted retained =>
        simp only [Caller.Staged, hstage] at hstaged
        obtain ⟨-, f, replay, next', -, hprogram', -⟩ := hstaged
        rw [hprogram] at hprogram'
        cases hprogram'
      | leaving => exact absurd hstage hleaving
    exact h.lockRegistry hi hprogram hbetween hstep

end Registry

section Resize

variable {w w' : World E} {i f : Nat} {c : Caller E} {replay : ForwardOutcome}
  {next : Bool → Forward E (Except E ForwardOutcome)} {charge : Nat → Nat}

theorem sum_map_update {xs : List Nat} (h : xs.Nodup) (hf : f ∈ xs) (charge : Nat → Nat) (n : Nat) :
    (xs.map (Function.update charge f n)).sum + charge f = (xs.map charge).sum + n := by
  induction xs with
  | nil => cases hf
  | cons x xs ih =>
    obtain ⟨hx, hxs⟩ := List.nodup_cons.mp h
    simp only [List.map_cons, List.sum_cons]
    by_cases hsame : f = x
    · subst hsame
      have hrest : xs.map (Function.update charge f n) = xs.map charge := by
        refine List.map_congr_left fun g hg => ?_
        have hne : g ≠ f := by
          rintro rfl
          exact hx hg
        simp [hne]
      rw [hrest, Function.update_self]
      omega
    · have hrest := ih hxs ((List.mem_cons.mp hf).resolve_left hsame)
      rw [Function.update_of_ne (Ne.symm hsame)]
      omega

/-- Two callers do not adjust one flight: both would have its outcome locked. -/
theorem Sound.adjusts_unique (h : w.Sound config) {j : Nat} {d : Caller E} {retained : Nat}
    (howns : c.Owns w.shared i f) (hj : w.callers[j]? = some d) (hadjusts : d.Adjusts f retained) :
    j = i := by
  obtain ⟨hflight, hstage⟩ := hadjusts
  have hfits := h.fits j d hj
  have hstaged := hfits.staged
  simp only [Caller.Staged, hstage] at hstaged
  obtain ⟨g, howns', -⟩ := hfits.agrees.begun hstaged.1
  obtain rfl : g = f := Option.some.inj (howns'.1.symm.trans hflight)
  exact Option.some.inj (howns'.2.symm.trans howns.2)

/-- No one adjusts a flight whose owner does not. -/
theorem Sound.unadjusted (h : w.Sound config) (hi : w.callers[i]? = some c)
    (howns : c.Owns w.shared i f) (hquiet : c.stage.adjusting = false) :
    ∀ d ∈ w.callers, ∀ retained, ¬d.Adjusts f retained := by
  intro d hd retained hadjusts
  obtain ⟨j, hj⟩ := List.mem_iff_getElem?.mp hd
  obtain rfl := h.adjusts_unique howns hj hadjusts
  rw [hi] at hj
  cases hj
  exact Caller.not_adjusts_of_quiet hquiet f retained hadjusts

/-- The counter takes the new charge of the flight. -/
theorem Sound.adjusted {bytes retained : Nat} (h : w.Sound config) (hi : w.callers[i]? = some c)
    (hprogram : c.program = .ask (.resize replay) next) (hbetween : c.stage = .between)
    (hf : c.flight = some f)
    (hretained : retained = (w.shared.heap f).baseBytes + config.layout.outcomeBytes replay)
    (hbytes : bytes + (w.shared.heap f).retainedBytes = w.shared.flightBytes + retained)
    (hbound : bytes ≤ config.maxFlightBytes) :
    (({ w with shared := { w.shared with flightBytes := bytes } } : World E).setCaller i
      { c with stage := .adjusted retained }).Sound config := by
  have hold := h.fits i c hi
  have hphase : c.phase = .begun := h.allowed hi hprogram (by rw [hbetween]; exact nofun)
  obtain ⟨g, howns, -⟩ := hold.agrees.begun hphase
  obtain rfl : g = f := Option.some.inj (howns.1.symm.trans hf)
  have hmem := hold.registered g hf
  have hquiet : c.stage.adjusting = false := by rw [hbetween]; rfl
  obtain ⟨charge, hcharge⟩ := h.accounted
  have hplain : charge g = (w.shared.heap g).retainedBytes :=
    hcharge.plain g hmem (h.unadjusted hi howns hquiet)
  constructor
  · apply h.fits_set hi
    · constructor
      · exact fun _ => hold.safe (by rw [hbetween]; exact nofun)
      · exact hold.registered
      · exact hold.agrees.congr rfl rfl rfl
      · exact ⟨hphase, g, replay, next, hf, hprogram, hretained⟩
    · exact fun _ _ _ _ _ _ => rfl
    · exact fun j d _ hj f hf => (h.fits j d hj).registered f hf
    · exact fun j _ hj => ⟨hj, fun _ => rfl⟩
  · exact h.distinct
  · exact h.fresh
  · exact fun f hmem' => h.settled_set hi id hmem'
  · refine ⟨Function.update charge g retained, ?_⟩
    constructor
    · have hsum := sum_map_set (fun c => c.reservedBytes config) hi
        (b := { c with stage := .adjusted retained })
      have hupdate := sum_map_update h.distinct hmem charge retained
      have hnew : Caller.reservedBytes config { c with stage := .adjusted retained } = 0 := rfl
      have htotal := hcharge.total
      rw [Caller.reservedBytes_of_quiet hquiet, hnew] at hsum
      simp only [setCaller]
      omega
    · intro d hd f retained' hadjusts
      obtain rfl | ⟨j, hne, hj⟩ := mem_set hd
      · obtain rfl : g = f := Option.some.inj (hf.symm.trans hadjusts.1)
        rw [Function.update_self]
        injection hadjusts.2
      · have hother : f ≠ g := by
          rintro rfl
          exact hne (h.adjusts_unique howns hj hadjusts)
        rw [Function.update_of_ne hother]
        exact hcharge.adjusted d (mem_of_get hj) f retained' hadjusts
    · intro f hmem' hnone
      have hother : f ≠ g := by
        rintro rfl
        exact hnone _ (mem_set_self hi) _ ⟨hf, rfl⟩
      rw [Function.update_of_ne hother]
      exact hcharge.plain_set_of hi (Caller.not_adjusts_of_quiet hquiet f) hmem' hnone
  · exact hbound
  · exact h.covered

theorem giveBack_eq {bytes : Nat} (h : bytes ≤ w.shared.flightBytes) : w.giveBack bytes =
    { w with shared := { w.shared with flightBytes := w.shared.flightBytes - bytes } } := by
  have hcovers : decide (w.shared.flightBytes < bytes) = false := decide_eq_false (by omega)
  simp only [giveBack, hcovers, Bool.or_false]

/-- What a flight is charged is in the counter, while no caller adjusts it. -/
theorem Sound.retained_le (h : w.Sound config) (hmem : f ∈ w.shared.flights.values)
    (hnone : ∀ d ∈ w.callers, ∀ retained, ¬d.Adjusts f retained) :
    (w.shared.heap f).retainedBytes ≤ w.shared.flightBytes := by
  obtain ⟨charge, hcharge⟩ := h.accounted
  have hle : charge f ≤ (w.shared.flights.values.map charge).sum :=
    List.single_le_sum (fun _ _ => Nat.zero_le _) _ (List.mem_map_of_mem hmem)
  rw [← hcharge.plain f hmem hnone, hcharge.total]
  exact Nat.le_trans hle (Nat.le_add_right _ _)

/-- The charge grows within the budget or shrinks; a refused growth changes nothing. -/
theorem Sound.adjust (h : w.Sound config) (hi : w.callers[i]? = some c)
    (hprogram : c.program = .ask (.resize replay) next) (hbetween : c.stage = .between)
    (hf : c.flight = some f) : (w.adjust config i c f replay next).Sound config := by
  have hphase : c.phase = .begun := h.allowed hi hprogram (by rw [hbetween]; exact nofun)
  obtain ⟨g, howns, -⟩ := (h.fits i c hi).agrees.begun hphase
  obtain rfl : g = f := Option.some.inj (howns.1.symm.trans hf)
  have hle := h.retained_le ((h.fits i c hi).registered g hf)
    (h.unadjusted hi howns (by rw [hbetween]; rfl))
  have hbound := h.bounded
  unfold World.adjust
  dsimp only
  split
  · next hshrinks =>
    rw [giveBack_eq (by omega)]
    exact h.adjusted hi hprogram hbetween hf rfl (by omega) (by omega)
  · next hgrows =>
    split
    · next reserved hreserved =>
      obtain ⟨rfl, hfits⟩ := reserveBytes_eq hbound hreserved
      exact h.adjusted hi hprogram hbetween hf rfl (by omega) hfits
    · exact h.resume hi hprogram hbetween rfl

/-- The flight takes the charge that the counter has. -/
theorem Sound.store {retained : Nat} (h : w.Sound config) (hi : w.callers[i]? = some c)
    (hprogram : c.program = .ask (.resize replay) next) (hstage : c.stage = .adjusted retained)
    (hf : c.flight = some f) :
    ((w.modifyFlight f fun flight => { flight with retainedBytes := retained }).resume i c
      (.resize replay) next true).Sound config := by
  have hold := h.fits i c hi
  have hleaving : c.stage ≠ .leaving := by rw [hstage]; rintro ⟨⟩
  have hsafe := hold.safe hleaving
  rw [hprogram] at hsafe
  have hstaged := hold.staged
  simp only [Caller.Staged, hstage] at hstaged
  obtain ⟨hphase, g, replay', next', hg, hprogram', hretained⟩ := hstaged
  obtain rfl : f = g := Option.some.inj (hf.symm.trans hg)
  rw [hprogram] at hprogram'
  injection hprogram' with hop
  injection hop with hreplay
  subst hreplay
  obtain ⟨g, howns, -⟩ := hold.agrees.begun hphase
  obtain rfl : f = g := Option.some.inj (hf.symm.trans howns.1)
  have hself := w.shared.heap_modifyFlight_self f fun flight =>
    { flight with retainedBytes := retained }
  have hother : ∀ f', f' ≠ f → (w.shared.modifyFlight f fun flight =>
      { flight with retainedBytes := retained }).heap f' = w.shared.heap f' :=
    fun f' hne => Shared.heap_modifyFlight_of_ne hne
  obtain ⟨charge, hcharge⟩ := h.accounted
  constructor
  · apply h.fits_set hi
    · constructor
      · exact fun _ => hsafe.2 true
      · exact hold.registered
      · have hstored : ∀ flight : Flight, flight = { w.shared.heap f with
            retainedBytes := retained } → flight.holder = some i ∧ flight.retainedBytes =
              flight.baseBytes + config.layout.outcomeBytes replay := by
          rintro _ rfl
          exact ⟨howns.2, hretained⟩
        exact ⟨f, ⟨hf, (hstored _ hself).1⟩, (hstored _ hself).2⟩
      · trivial
    · intro j d hne hj f' howns'
      refine hother f' ?_
      rintro rfl
      exact hne (Option.some.inj (howns'.2.symm.trans howns.2))
    · exact fun j d _ hj f' hf' => (h.fits j d hj).registered f' hf'
    · exact fun j _ hj => ⟨hj, fun _ => rfl⟩
  · exact h.distinct
  · exact h.fresh
  · intro f' hf'
    by_cases hne : f' = f
    · subst hne
      exact .inr ⟨_, mem_set_self hi, hf, replay, rfl⟩
    · have hkept := h.settled_set (m := { c with
          program := next true
          stage := .between
          phase := .stored replay }) hi
        (fun hstored => absurd hstored (Caller.not_storing (by rw [hphase]; rintro _ ⟨⟩))) hf'
      rw [← hother f' hne] at hkept
      exact hkept
  · refine ⟨charge, ?_⟩
    constructor
    · have hsum : ((w.callers.set i { c with
          program := next true
          stage := .between
          phase := .stored replay }).map fun c => c.reservedBytes config).sum =
          (w.callers.map fun c => c.reservedBytes config).sum := by
        have hset := sum_map_set (fun c => c.reservedBytes config) hi
          (b := { c with program := next true, stage := .between, phase := .stored replay })
        have hbefore : c.reservedBytes config = 0 := by simp only [Caller.reservedBytes, hstage]
        rw [hbefore] at hset
        exact hset
      exact hcharge.total.trans (congrArg _ hsum.symm)
    · exact hcharge.adjusted_set rfl
    · intro f' hf' hnone
      by_cases hne : f' = f
      · subst hne
        refine (hcharge.adjusted c (mem_of_get hi) f' retained ⟨hf, hstage⟩).trans ?_
        exact (congrArg Flight.retainedBytes hself).symm
      · refine (hcharge.plain_set_of hi ?_ hf' hnone).trans ?_
        · rintro retained' ⟨hf'', -⟩
          exact hne (Option.some.inj (hf''.symm.trans hf))
        · exact congrArg Flight.retainedBytes (hother f' hne).symm
  · exact h.bounded
  · exact h.covered

theorem Sound.resize (h : w.Sound config) (hi : w.callers[i]? = some c)
    (hprogram : c.program = .ask (.resize replay) next) (hleaving : c.stage ≠ .leaving)
    (hf : c.flight = some f) : (w.resize config i c f replay next).Sound config := by
  unfold World.resize
  split
  · next retained hstage => exact h.store hi hprogram hstage hf
  · next hadjusted =>
    have hstaged := (h.fits i c hi).staged
    have hbetween : c.stage = .between := by
      cases hstage : c.stage with
      | between => rfl
      | scanning now left =>
        simp only [Caller.Staged, hstage] at hstaged
        obtain ⟨-, ⟨next', hprogram'⟩, -⟩ := hstaged
        rw [hprogram] at hprogram'
        cases hprogram'
      | reserved =>
        simp only [Caller.Staged, hstage] at hstaged
        obtain ⟨-, ⟨next', hprogram'⟩, -⟩ := hstaged
        rw [hprogram] at hprogram'
        cases hprogram'
      | adjusted retained => exact absurd hstage (hadjusted retained)
      | leaving => exact absurd hstage hleaving
    exact h.adjust hi hprogram hbetween hf

end Resize

end World

end Proxy
