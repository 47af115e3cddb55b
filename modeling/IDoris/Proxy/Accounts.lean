import Mathlib.Algebra.Order.Group.Nat
import Mathlib.Algebra.Order.BigOperators.Group.List
import IDoris.Library.Slots
import IDoris.Proxy.Phases

/-!
# What the flights are charged

The counter is the sum of what the registered flights are charged, and every flight a caller
holds is registered. A flight is charged for the result it has; only its leader, between
storing a smaller charge and replacing the placeholder, has it charged for less.
-/
namespace Proxy

open Interaction Program Slots Transition

variable {E : Type} {config : ProxyConfig}

section Invariants

/-- Enough is charged: for the placeholder of a leader to come, and for the result. -/
structure Flight.Settled (config : ProxyConfig) (flight : Flight) : Prop where
  empty : flight.outcome = none →
    flight.retainedBytes = flight.baseBytes + config.layout.outcomeBytes Shared.fallback
  covers : ∀ outcome, flight.outcome = some outcome →
    flight.baseBytes + config.layout.outcomeBytes outcome ≤ flight.retainedBytes

namespace Caller

/-- The caller has the outcome of the flight locked. -/
def Owns (s : Shared) (i : Nat) (c : Caller E) (f : Nat) : Prop :=
  c.flight = some f ∧ (s.heap f).holder = some i

/-- The flight as its leader left it; the guard goes before the lock. -/
def Agrees (config : ProxyConfig) (s : Shared) (i : Nat) (c : Caller E) : Prop :=
  match c.phase with
  | .locked => ∃ f, c.Owns s i f ∧ (s.heap f).outcome = none
  | .begun => ∃ f, c.Owns s i f ∧ (s.heap f).retainedBytes =
      (s.heap f).baseBytes + config.layout.outcomeBytes Shared.fallback
  | .stored replay => ∃ f, c.Owns s i f ∧ (s.heap f).retainedBytes =
      (s.heap f).baseBytes + config.layout.outcomeBytes replay
  | .outside | .joined => c.guarded = none
  | .ended => c.guarded.isSome = true → ∃ f, c.Owns s i f

/-- What an action of several turns relies on from one turn to the next. -/
def Staged (config : ProxyConfig) (s : Shared) (holder : Option Nat) (i : Nat) (c : Caller E) :
    Prop :=
  match c.stage with
  | .between => True
  | .scanning _ left => holder = some i ∧ (∃ next, c.program = .ask .enter next) ∧
      (∀ e ∈ left, e ∈ s.flights.entries) ∧ (left.map Prod.fst).Nodup
  | .reserved => holder = some i ∧ (∃ next, c.program = .ask .enter next) ∧
      s.flights.get c.key = none
  | .adjusted retained => c.phase = .begun ∧ ∃ f replay next, c.flight = some f ∧
      c.program = .ask (.resize replay) next ∧
      retained = (s.heap f).baseBytes + config.layout.outcomeBytes replay
  | .leaving => c.phase = .ended

structure Fits (config : ProxyConfig) (s : Shared) (holder : Option Nat) (i : Nat) (c : Caller E) :
    Prop where
  safe : c.stage ≠ .leaving → Safe (Phase.watch config) (fun _ p => p.Whole) c.program c.phase
  registered : ∀ f, c.flight = some f → f ∈ s.flights.values
  agrees : c.Agrees config s i
  staged : c.Staged config s holder i

/-- The leader has stored the charge of the flight's next result. -/
def Storing (c : Caller E) (f : Nat) : Prop :=
  c.flight = some f ∧ ∃ replay, c.phase = .stored replay

/-- The counter already has the next charge of the flight. -/
def Adjusts (c : Caller E) (f retained : Nat) : Prop :=
  c.flight = some f ∧ c.stage = .adjusted retained

/-- The bytes of a flight that is not inserted yet. -/
def reservedBytes (config : ProxyConfig) (c : Caller E) : Nat :=
  match c.stage with
  | .reserved => (c.newFlight config).retainedBytes
  | _ => 0

end Caller

namespace World

/-- The counter is the sum of what the flights are, or are about to be, charged, and of what is
reserved for the next flight. -/
structure Accounts (config : ProxyConfig) (w : World E) (charge : Nat → Nat) : Prop where
  total : w.shared.flightBytes = (w.shared.flights.values.map charge).sum +
    (w.callers.map fun c => c.reservedBytes config).sum
  adjusted : ∀ c ∈ w.callers, ∀ f retained, c.Adjusts f retained → charge f = retained
  plain : ∀ f ∈ w.shared.flights.values, (∀ c ∈ w.callers, ∀ retained, ¬c.Adjusts f retained) →
    charge f = (w.shared.heap f).retainedBytes

structure Sound (config : ProxyConfig) (w : World E) : Prop where
  fits : ∀ i (c : Caller E), w.callers[i]? = some c → c.Fits config w.shared w.registryHolder i
  distinct : w.shared.flights.values.Nodup
  fresh : ∀ f ∈ w.shared.flights.values, f < w.shared.nextFlight
  settled : ∀ f ∈ w.shared.flights.values, (w.shared.heap f).Settled config ∨
    ∃ c ∈ w.callers, c.Storing f
  accounted : ∃ charge, w.Accounts config charge
  bounded : w.shared.flightBytes ≤ config.maxFlightBytes
  covered : w.underflowed = false

end World

end Invariants

section Frames

variable {s t : Shared} {holder holder' : Option Nat} {i : Nat} {c : Caller E}

namespace Caller

theorem Agrees.frame (h : c.Agrees config s i)
    (hheap : ∀ f, c.Owns s i f → t.heap f = s.heap f) : c.Agrees config t i := by
  have howns : ∀ f, c.Owns s i f → c.Owns t i f := by
    intro f hf
    exact ⟨hf.1, by rw [hheap f hf]; exact hf.2⟩
  unfold Agrees at *
  split
  · next hphase =>
    simp only [hphase] at h
    obtain ⟨f, hf, hout⟩ := h
    exact ⟨f, howns f hf, by rw [hheap f hf]; exact hout⟩
  · next hphase =>
    simp only [hphase] at h
    obtain ⟨f, hf, hout⟩ := h
    exact ⟨f, howns f hf, by rw [hheap f hf]; exact hout⟩
  · next replay hphase =>
    simp only [hphase] at h
    obtain ⟨f, hf, hout⟩ := h
    exact ⟨f, howns f hf, by rw [hheap f hf]; exact hout⟩
  · next hphase => simpa only [hphase] using h
  · next hphase => simpa only [hphase] using h
  · next hphase =>
    simp only [hphase] at h
    intro hguarded
    obtain ⟨f, hf⟩ := h hguarded
    exact ⟨f, howns f hf⟩

theorem Agrees.congr {m : Caller E} (h : c.Agrees config s i) (hphase : m.phase = c.phase)
    (hflight : m.flight = c.flight) (hguarded : m.guarded = c.guarded) :
    m.Agrees config s i := by
  unfold Agrees Owns at *
  rw [hphase, hflight, hguarded]
  exact h

theorem Agrees.guarded (h : c.Agrees config s i) (hguarded : c.guarded.isSome = true) :
    ∃ f, c.Owns s i f := by
  unfold Agrees at h
  split at h
  · exact h.imp fun _ hf => hf.1
  · exact h.imp fun _ hf => hf.1
  · exact h.imp fun _ hf => hf.1
  · rw [h] at hguarded
    cases hguarded
  · rw [h] at hguarded
    cases hguarded
  · exact h hguarded

theorem Agrees.begun (h : c.Agrees config s i) (hphase : c.phase = .begun) : ∃ f, c.Owns s i f ∧
    (s.heap f).retainedBytes =
      (s.heap f).baseBytes + config.layout.outcomeBytes Shared.fallback := by
  simpa only [Agrees, hphase] using h

theorem Staged.frame (h : c.Staged config s holder i) (hagrees : c.Agrees config s i)
    (hheap : ∀ f, c.Owns s i f → t.heap f = s.heap f)
    (hregistry : holder = some i → holder' = some i ∧ ∀ key, t.flights.get key = s.flights.get key) :
    c.Staged config t holder' i := by
  unfold Staged at *
  split
  · trivial
  · next now left hstage =>
    simp only [hstage] at h
    obtain ⟨hi, hprogram, hmem, hnodup⟩ := h
    refine ⟨(hregistry hi).1, hprogram, fun e he => ?_, hnodup⟩
    have hold := Keyed.Map.mem_entries.mp (hmem e he)
    rw [← (hregistry hi).2] at hold
    exact Keyed.Map.mem_entries.mpr hold
  · next hstage =>
    simp only [hstage] at h
    exact ⟨(hregistry h.1).1, h.2.1, by rw [(hregistry h.1).2]; exact h.2.2⟩
  · next retained hstage =>
    simp only [hstage] at h
    obtain ⟨hphase, f, replay, next, hf, hprogram, hretained⟩ := h
    obtain ⟨g, hg, -⟩ := hagrees.begun hphase
    have hsame : g = f := Option.some.inj (hg.1.symm.trans hf)
    subst hsame
    exact ⟨hphase, g, replay, next, hf, hprogram, by rw [hheap g hg]; exact hretained⟩
  · next hstage => simpa only [hstage] using h

/-- What a caller relies on is under a lock it holds. -/
theorem Fits.frame (h : c.Fits config s holder i)
    (hheap : ∀ f, c.Owns s i f → t.heap f = s.heap f)
    (hvalues : ∀ f, c.flight = some f → f ∈ t.flights.values)
    (hregistry : holder = some i → holder' = some i ∧ ∀ key, t.flights.get key = s.flights.get key) :
    c.Fits config t holder' i where
  safe := h.safe
  registered := hvalues
  agrees := h.agrees.frame hheap
  staged := h.staged.frame h.agrees hheap hregistry

theorem Fits.plain (h : c.Fits config s holder i) {op : Action}
    {next : op.Answer E → Forward E (Except E ForwardOutcome)} (hprogram : c.program = .ask op next)
    (hleaving : c.stage ≠ .leaving) (henter : op ≠ .enter) (hresize : ∀ replay, op ≠ .resize replay) :
    c.stage = .between := by
  have hstaged := h.staged
  unfold Staged at hstaged
  split at hstaged
  · assumption
  · obtain ⟨-, ⟨next', hprogram'⟩, -⟩ := hstaged
    rw [hprogram] at hprogram'
    injection hprogram' with hop
    exact absurd hop henter
  · obtain ⟨-, ⟨next', hprogram'⟩, -⟩ := hstaged
    rw [hprogram] at hprogram'
    injection hprogram' with hop
    exact absurd hop henter
  · obtain ⟨-, f, replay, next', -, hprogram', -⟩ := hstaged
    rw [hprogram] at hprogram'
    injection hprogram' with hop
    exact absurd hop (hresize replay)
  · next hstage => exact absurd hstage hleaving

end Caller

theorem Caller.reservedBytes_of_quiet (h : c.stage.adjusting = false) :
    c.reservedBytes config = 0 := by
  unfold reservedBytes
  split
  · next hstage =>
    rw [hstage] at h
    cases h
  · rfl

theorem Caller.not_adjusts_of_quiet (h : c.stage.adjusting = false) (f retained : Nat) :
    ¬c.Adjusts f retained := by
  rintro ⟨-, hstage⟩
  rw [hstage] at h
  cases h

end Frames

namespace World

section Updates

variable {w : World E} {i : Nat} {c m : Caller E} {t : Shared} {holder' : Option Nat}
  {charge : Nat → Nat}

theorem mem_of_get (h : w.callers[i]? = some c) : c ∈ w.callers := List.mem_of_getElem? h

/-- Who stored a charge still did, unless it is the caller that moved. -/
theorem storing_set {f : Nat} (hi : w.callers[i]? = some c)
    (h : ∃ d ∈ w.callers, d.Storing f) : c.Storing f ∨ ∃ d ∈ w.callers.set i m, d.Storing f := by
  obtain ⟨d, hd, hstoring⟩ := h
  obtain ⟨j, hj⟩ := List.mem_iff_getElem?.mp hd
  by_cases hne : j = i
  · subst hne
    rw [hi] at hj
    cases hj
    exact .inl hstoring
  · exact .inr ⟨d, mem_set_of_ne hne hj, hstoring⟩

theorem Caller.not_storing {f : Nat} (h : c.phase.Whole) : ¬c.Storing f := by
  rintro ⟨-, replay, hstored⟩
  exact h replay hstored

theorem Sound.settled_set {f : Nat} (h : w.Sound config) (hi : w.callers[i]? = some c)
    (hstoring : c.Storing f → m.Storing f) (hf : f ∈ w.shared.flights.values) :
    (w.shared.heap f).Settled config ∨ ∃ d ∈ w.callers.set i m, d.Storing f := by
  obtain hsettled | hothers := h.settled f hf
  · exact .inl hsettled
  · obtain hc | hothers := storing_set (m := m) hi hothers
    · exact .inr ⟨m, mem_set_self hi, hstoring hc⟩
    · exact .inr hothers

theorem Sound.fits_set (h : w.Sound config) (hi : w.callers[i]? = some c)
    (hfits : m.Fits config t holder' i)
    (hheap : ∀ j (d : Caller E), j ≠ i → w.callers[j]? = some d → ∀ f, d.Owns w.shared j f →
      t.heap f = w.shared.heap f)
    (hvalues : ∀ j (d : Caller E), j ≠ i → w.callers[j]? = some d → ∀ f, d.flight = some f →
      f ∈ t.flights.values)
    (hregistry : ∀ j, j ≠ i → w.registryHolder = some j → holder' = some j ∧
      ∀ key, t.flights.get key = w.shared.flights.get key) :
    ∀ j (d : Caller E), (w.callers.set i m)[j]? = some d → d.Fits config t holder' j := by
  intro j d hj
  obtain ⟨rfl, rfl⟩ | ⟨hne, hj⟩ := get_set hj
  · exact hfits
  · exact (h.fits j d hj).frame (hheap j d hne hj) (hvalues j d hne hj) (hregistry j hne)

theorem Accounts.adjusted_set (h : w.Accounts config charge) (hquiet' : m.stage.adjusting = false) :
    ∀ d ∈ w.callers.set i m, ∀ f retained, d.Adjusts f retained → charge f = retained := by
  intro d hd f retained hadjusts
  obtain rfl | ⟨j, -, hj⟩ := mem_set hd
  · exact absurd hadjusts (Caller.not_adjusts_of_quiet hquiet' f retained)
  · exact h.adjusted d (mem_of_get hj) f retained hadjusts

/-- A caller that does not adjust a flight leaves its charge plain. -/
theorem Accounts.plain_set_of {f : Nat} (h : w.Accounts config charge)
    (hi : w.callers[i]? = some c) (hc : ∀ retained, ¬c.Adjusts f retained)
    (hf : f ∈ w.shared.flights.values)
    (hnone : ∀ d ∈ w.callers.set i m, ∀ retained, ¬d.Adjusts f retained) :
    charge f = (w.shared.heap f).retainedBytes := by
  refine h.plain f hf fun d hd retained hadjusts => ?_
  obtain ⟨j, hj⟩ := List.mem_iff_getElem?.mp hd
  by_cases hne : j = i
  · subst hne
    rw [hi] at hj
    cases hj
    exact hc retained hadjusts
  · exact hnone d (mem_set_of_ne hne hj) retained hadjusts

/-- A caller that is not at the counter moves to where it is not either. -/
theorem Accounts.quiet (h : w.Accounts config charge) (hi : w.callers[i]? = some c)
    (hquiet : c.stage.adjusting = false) (hquiet' : m.stage.adjusting = false)
    (hflights : t.flights = w.shared.flights) (hbytes : t.flightBytes = w.shared.flightBytes)
    (hretained : ∀ f, (t.heap f).retainedBytes = (w.shared.heap f).retainedBytes)
    (underflowed : Bool) :
    Accounts config ⟨t, holder', w.callers.set i m, underflowed⟩ charge where
  total := by
    have hsum := sum_map_set (fun c => c.reservedBytes config) hi (b := m)
    have htotal := h.total
    rw [Caller.reservedBytes_of_quiet hquiet, Caller.reservedBytes_of_quiet hquiet'] at hsum
    simp only [hbytes, hflights]
    omega
  adjusted := h.adjusted_set hquiet'
  plain := by
    intro f hf hnone
    simp only [hflights] at hf
    rw [hretained]
    exact h.plain_set_of hi (Caller.not_adjusts_of_quiet hquiet f) hf hnone

/-- A caller moves on and writes at most under the locks it holds; no charge changes. -/
theorem Sound.update (h : w.Sound config) (hi : w.callers[i]? = some c)
    (hquiet : c.stage.adjusting = false) (hquiet' : m.stage.adjusting = false)
    (hflights : t.flights = w.shared.flights) (hnext : t.nextFlight = w.shared.nextFlight)
    (hbytes : t.flightBytes = w.shared.flightBytes)
    (hretained : ∀ f, (t.heap f).retainedBytes = (w.shared.heap f).retainedBytes)
    (hheap : ∀ j, j ≠ i → ∀ f, (w.shared.heap f).holder = some j → t.heap f = w.shared.heap f)
    (hholder : ∀ j, j ≠ i → w.registryHolder = some j → holder' = some j)
    (hfits : m.Fits config t holder' i)
    (hsettled : ∀ f, (w.shared.heap f).Settled config → (t.heap f).Settled config ∨ m.Storing f)
    (hstoring : ∀ f, c.Storing f → (t.heap f).Settled config ∨ m.Storing f) :
    Sound config ⟨t, holder', w.callers.set i m, w.underflowed⟩ where
  fits := by
    apply h.fits_set hi hfits
    · exact fun j _ hne _ f howns => hheap j hne f howns.2
    · intro j d _ hj f hf
      rw [hflights]
      exact (h.fits j d hj).registered f hf
    · intro j hne hj
      exact ⟨hholder j hne hj, fun key => by rw [hflights]⟩
  distinct := by
    simp only [hflights]
    exact h.distinct
  fresh := by
    simp only [hflights, hnext]
    exact h.fresh
  settled := by
    intro f hf
    simp only [hflights] at hf
    have hcover : (t.heap f).Settled config ∨ m.Storing f →
        (t.heap f).Settled config ∨ ∃ d ∈ w.callers.set i m, d.Storing f :=
      Or.imp_right fun hc => ⟨m, mem_set_self hi, hc⟩
    obtain hold | hold := h.settled f hf
    · exact hcover (hsettled f hold)
    · obtain hc | hothers := storing_set (m := m) hi hold
      · exact hcover (hstoring f hc)
      · exact .inr hothers
  accounted := by
    obtain ⟨charge, hcharge⟩ := h.accounted
    exact ⟨charge, hcharge.quiet hi hquiet hquiet' hflights hbytes hretained w.underflowed⟩
  bounded := by
    simp only [hbytes]
    exact h.bounded
  covered := h.covered

variable {op : Action} {next : op.Answer E → Forward E (Except E ForwardOutcome)}
  {answer : op.Answer E}

/-- A caller that is between its actions is answered, and may write under its locks. -/
theorem Sound.answered (h : w.Sound config) (hi : w.callers[i]? = some c)
    (hprogram : c.program = .ask op next) (hbetween : c.stage = .between)
    (hflights : t.flights = w.shared.flights) (hnext : t.nextFlight = w.shared.nextFlight)
    (hbytes : t.flightBytes = w.shared.flightBytes)
    (hretained : ∀ f, (t.heap f).retainedBytes = (w.shared.heap f).retainedBytes)
    (hheap : ∀ j, j ≠ i → ∀ f, (w.shared.heap f).holder = some j → t.heap f = w.shared.heap f)
    (guarded : Option Bool)
    (hagrees : ∀ d : Caller E, d.phase = c.phase.next op answer → d.flight = c.flight →
      d.guarded = guarded → d.Agrees config t i)
    (hsettled : ∀ f, (w.shared.heap f).Settled config → (t.heap f).Settled config)
    (hstoring : ∀ f, c.flight = some f → ∀ replay, c.phase = .stored replay →
      (t.heap f).Settled config ∨ c.phase.next op answer = .stored replay) :
    (({ w with shared := t } : World E).resume i { c with guarded := guarded } op next
      answer).Sound config := by
  apply h.update hi (by rw [hbetween]; rfl) rfl hflights hnext hbytes hretained hheap (fun _ _ hj => hj)
  · have hold := h.fits i c hi
    have hsafe := hold.safe (by rw [hbetween]; exact nofun)
    rw [hprogram] at hsafe
    constructor
    · exact fun _ => hsafe.2 answer
    · intro f hf
      rw [hflights]
      exact hold.registered f hf
    · exact hagrees _ rfl rfl rfl
    · trivial
  · exact fun f hf => .inl (hsettled f hf)
  · rintro f ⟨hf, replay, hphase⟩
    exact (hstoring f hf replay hphase).imp_right fun hnext => ⟨hf, replay, hnext⟩

/-- An answer that is not about the flight. -/
theorem Sound.resume (h : w.Sound config) (hi : w.callers[i]? = some c)
    (hprogram : c.program = .ask op next) (hbetween : c.stage = .between)
    (hphase : c.phase.next op answer = c.phase) : (w.resume i c op next answer).Sound config := by
  apply h.answered hi hprogram hbetween rfl rfl rfl (fun _ => rfl) (fun _ _ _ _ => rfl) c.guarded
  · intro d hd hflight hguarded
    exact (h.fits i c hi).agrees.congr (hd.trans hphase) hflight hguarded
  · exact fun _ hf => hf
  · exact fun f _ replay hstored => .inr (hphase.trans hstored)

/-- The leader writes its flight. -/
theorem Sound.write {f : Nat} {g : Flight → Flight} (h : w.Sound config)
    (hi : w.callers[i]? = some c) (hprogram : c.program = .ask op next)
    (hbetween : c.stage = .between) (howns : c.Owns w.shared i f)
    (hholder : (g (w.shared.heap f)).holder = (w.shared.heap f).holder)
    (hretained : (g (w.shared.heap f)).retainedBytes = (w.shared.heap f).retainedBytes)
    (hbase : (g (w.shared.heap f)).baseBytes = (w.shared.heap f).baseBytes)
    (guarded : Option Bool)
    (hagrees : ∀ (d : Caller E) (s : Shared), d.phase = c.phase.next op answer →
      d.Owns s i f → s.heap f = g (w.shared.heap f) → d.Agrees config s i)
    (hsettled : (w.shared.heap f).Settled config → (g (w.shared.heap f)).Settled config)
    (hstoring : ∀ replay, c.phase = .stored replay →
      (g (w.shared.heap f)).Settled config ∨ c.phase.next op answer = .stored replay) :
    (w.write i c f g guarded op next answer).Sound config := by
  have hself := w.shared.heap_modifyFlight_self f g
  apply h.answered hi hprogram hbetween rfl rfl rfl (t := w.shared.modifyFlight f g)
  · intro f'
    exact Shared.heap_modifyFlight_cases
      (P := fun f' flight => flight.retainedBytes = (w.shared.heap f').retainedBytes)
      f' hretained fun _ => rfl
  · intro j hne f' hj
    apply Shared.heap_modifyFlight_of_ne
    rintro rfl
    rw [howns.2] at hj
    exact hne (Option.some.inj hj).symm
  · intro d hphase hflight _
    refine hagrees d _ hphase ⟨hflight.trans howns.1, ?_⟩ hself
    rw [hself, hholder]
    exact howns.2
  · intro f'
    exact Shared.heap_modifyFlight_cases
      (P := fun f' flight => (w.shared.heap f').Settled config → flight.Settled config)
      f' hsettled fun _ hold => hold
  · intro f' hf' replay hstored
    have hsame : f' = f := Option.some.inj (hf'.symm.trans howns.1)
    subst hsame
    rw [hself]
    exact hstoring replay hstored

end Updates

end World

end Proxy
