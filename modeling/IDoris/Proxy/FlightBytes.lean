import IDoris.Proxy.Charges

/-!
# The bytes of the flights

In every state of every run the counter is what the live flights are charged.
-/
namespace Proxy

open Interaction Program Slots Transition

variable {E : Type} {config : ProxyConfig}

namespace World

section Runs

variable {w w' : World E} {i : Nat} {c : Caller E} {replies : Replies E} {event : Event E}

/-- The cache is no part of the accounts. -/
theorem Sound.remember {outcome : ForwardOutcome} {next : Unit → Forward E (Except E ForwardOutcome)}
    (h : w.Sound config) (hi : w.callers[i]? = some c)
    (hprogram : c.program = .ask (.remember outcome) next) (hbetween : c.stage = .between) :
    ((w.remember config c outcome).resume i c (.remember outcome) next ()).Sound config := by
  apply h.answered hi hprogram hbetween (t := (w.remember config c outcome).shared)
    rfl rfl rfl (fun _ => rfl) (fun _ _ _ _ => rfl) c.guarded
  · intro d hd hflight hguarded
    exact (h.fits i c hi).agrees.congr hd hflight hguarded
  · exact fun _ hf => hf
  · exact fun f _ replay hstored => .inr hstored

theorem Sound.perform {op : Action} {next : op.Answer E → Forward E (Except E ForwardOutcome)}
    (h : w.Sound config) (hi : w.callers[i]? = some c) (hprogram : c.program = .ask op next)
    (hleaving : c.stage ≠ .leaving) (hstep : w.perform config i c replies op next = some w') :
    w'.Sound config := by
  have hplain := (h.fits i c hi).plain hprogram hleaving
  have hallowed := h.allowed hi hprogram hleaving
  cases op with
  | acquirePermit | lookup | claimSend | observe | send | sleepRetry _ | read _ | gate _
    | completed _ =>
    obtain rfl := Option.some.inj hstep
    exact h.resume hi hprogram (hplain nofun nofun) rfl
  | remember outcome =>
    obtain rfl := Option.some.inj hstep
    exact h.remember hi hprogram (hplain nofun nofun)
  | enter => exact h.enter hi hprogram hleaving hstep
  | lockOutcome =>
    obtain ⟨f, hf, hlock⟩ := Option.bind_eq_some_iff.mp hstep
    exact h.lockOutcome hi hprogram (hplain nofun nofun) hf hlock
  | begin =>
    obtain ⟨f, hf, rfl⟩ := Option.map_eq_some_iff.mp hstep
    exact h.begin hi hprogram (hplain nofun nofun) hf
  | resize replay =>
    obtain ⟨f, hf, rfl⟩ := Option.map_eq_some_iff.mp hstep
    exact h.resize hi hprogram hleaving hf
  | retainCompleted =>
    obtain ⟨f, hf, rfl⟩ := Option.map_eq_some_iff.mp hstep
    apply h.settleGuard hi hprogram (hplain nofun nofun) hf hallowed rfl
    exact fun _ => ⟨rfl, rfl, rfl, rfl⟩
  | disarm =>
    obtain ⟨f, hf, rfl⟩ := Option.map_eq_some_iff.mp hstep
    apply h.settleGuard hi hprogram (hplain nofun nofun) hf hallowed rfl
    exact fun _ => ⟨rfl, rfl, rfl, rfl⟩
  | reset =>
    obtain ⟨f, hf, rfl⟩ := Option.map_eq_some_iff.mp hstep
    exact h.reset hi hprogram (hplain nofun nofun) hf
  | publish outcome =>
    obtain ⟨f, hf, rfl⟩ := Option.map_eq_some_iff.mp hstep
    exact h.publish hi hprogram (hplain nofun nofun) hf

theorem Sound.turn (h : w.Sound config) (hi : w.callers[i]? = some c)
    (hstep : w.turn config i c replies = some w') : w'.Sound config := by
  unfold World.turn at hstep
  split at hstep
  · next hstage => exact h.leave hi hstage hstep
  · next outcome hprogram hleaving =>
    obtain rfl := Option.some.inj hstep
    have hfits := h.fits i c hi
    have hwhole := hfits.safe hleaving
    rw [hprogram] at hwhole
    refine h.depart hi ?_ hwhole
    have hstaged := hfits.staged
    cases hstage : c.stage with
    | between | scanning _ _ | leaving => rfl
    | reserved =>
      simp only [Caller.Staged, hstage, hprogram] at hstaged
      obtain ⟨-, ⟨next, hnext⟩, -⟩ := hstaged
      cases hnext
    | adjusted retained =>
      simp only [Caller.Staged, hstage, hprogram] at hstaged
      obtain ⟨-, f, replay, next, -, hnext, -⟩ := hstaged
      cases hnext
  · next op next hprogram hleaving => exact h.perform hi hprogram hleaving hstep

theorem Sound.cancel (h : w.Sound config) (hi : w.callers[i]? = some c)
    (hstep : w.cancel i c = some w') : w'.Sound config := by
  unfold World.cancel at hstep
  split at hstep
  · next op next hbetween hprogram =>
    split at hstep
    · next hawaits =>
      obtain rfl := Option.some.inj hstep
      refine h.depart hi (by rw [hbetween]; rfl) ?_
      have hallowed := h.allowed hi hprogram (by rw [hbetween]; exact nofun)
      cases op with
      | lockOutcome =>
        rw [show c.phase = .joined from hallowed]
        exact nofun
      | observe | send | sleepRetry _ | read _ | completed _ => exact hallowed
      | _ => cases hawaits
    · cases hstep
  · cases hstep

theorem Sound.arrive (h : w.Sound config) (call : ForwardCall) :
    Sound config { w with callers := w.callers ++ [newCaller config call] } := by
  have hmem : ∀ d ∈ w.callers ++ [newCaller config call],
      d = newCaller config call ∨ d ∈ w.callers := by
    intro d hd
    exact (List.mem_append.mp hd).symm.imp_left List.mem_singleton.mp
  constructor
  · intro j d hj
    obtain ⟨-, rfl⟩ | hj := get_concat hj
    · constructor
      · exact fun _ => safe_forwardBuffered call
      · exact nofun
      · exact rfl
      · trivial
    · exact h.fits j d hj
  · exact h.distinct
  · exact h.fresh
  · intro f hf
    refine (h.settled f hf).imp_right fun ⟨d, hd, hstoring⟩ => ?_
    exact ⟨d, List.mem_append_left _ hd, hstoring⟩
  · obtain ⟨charge, hcharge⟩ := h.accounted
    refine ⟨charge, ?_⟩
    constructor
    · have hnew : Caller.reservedBytes config (newCaller (E := E) config call) = 0 := rfl
      simp only [List.map_append, List.sum_append, List.map_cons, List.map_nil, List.sum_cons,
        List.sum_nil, hnew]
      exact hcharge.total
    · intro d hd f retained hadjusts
      obtain rfl | hd := hmem d hd
      · cases hadjusts.1
      · exact hcharge.adjusted d hd f retained hadjusts
    · intro f hf hnone
      exact hcharge.plain f hf fun d hd => hnone d (List.mem_append_left _ hd)
  · exact h.bounded
  · exact h.covered

theorem Sound.tick (h : w.Sound config) (elapsed : Nat) :
    Sound config { w with shared := { w.shared with clock := w.shared.clock + elapsed } } where
  fits i c hi :=
    have hfits := h.fits i c hi
    ⟨hfits.safe, hfits.registered, hfits.agrees, hfits.staged⟩
  distinct := h.distinct
  fresh := h.fresh
  settled := h.settled
  accounted := by
    obtain ⟨charge, hcharge⟩ := h.accounted
    exact ⟨charge, hcharge.total, hcharge.adjusted, hcharge.plain⟩
  bounded := h.bounded
  covered := h.covered

theorem Sound.rehash (h : w.Sound config) (n : Nat) : Sound config
    { w with shared := { w.shared with flights := w.shared.flights.exchange n } } := by
  have hperm : (w.shared.flights.exchange n).values.Perm w.shared.flights.values :=
    Keyed.Map.values_exchange
  constructor
  · intro i c hi
    apply (h.fits i c hi).frame
    · exact fun _ _ => rfl
    · exact fun f hf => hperm.mem_iff.mpr ((h.fits i c hi).registered f hf)
    · exact fun hholder => ⟨hholder, fun _ => Keyed.Map.get_exchange⟩
  · exact hperm.nodup_iff.mpr h.distinct
  · exact fun f hf => h.fresh f (hperm.mem_iff.mp hf)
  · exact fun f hf => h.settled f (hperm.mem_iff.mp hf)
  · obtain ⟨charge, hcharge⟩ := h.accounted
    refine ⟨charge, ?_, hcharge.adjusted, fun f hf => hcharge.plain f (hperm.mem_iff.mp hf)⟩
    rw [(hperm.map charge).sum_eq]
    exact hcharge.total
  · exact h.bounded
  · exact h.covered

theorem Sound.step (h : w.Sound config) (hstep : w.step config event = some w') :
    w'.Sound config := by
  cases event with
  | arrive call =>
    obtain rfl := Option.some.inj hstep
    exact h.arrive call
  | turn i replies =>
    obtain ⟨c, hi, hturn⟩ := Option.bind_eq_some_iff.mp hstep
    exact h.turn hi hturn
  | drop i =>
    obtain ⟨c, hi, hcancel⟩ := Option.bind_eq_some_iff.mp hstep
    exact h.cancel hi hcancel
  | tick elapsed =>
    obtain rfl := Option.some.inj hstep
    exact h.tick elapsed
  | rehash n =>
    obtain rfl := Option.some.inj hstep
    exact h.rehash n

theorem sound_start : Sound config (start config : World E) := by
  constructor
  · intro i c hi
    cases hi
  · exact List.nodup_nil
  · intro f hf
    cases hf
  · intro f hf
    cases hf
  · refine ⟨fun _ => 0, rfl, ?_, ?_⟩
    · intro c hc
      cases hc
    · intro f hf
      cases hf
  · exact Nat.zero_le _
  · rfl

end Runs

section Results

variable {w : World E} {f : Nat}

/-- The leader of the flight has stored the charge of the result it is about to put in place. -/
def Replacing (config : ProxyConfig) (w : World E) (f : Nat) : Prop :=
  ∃ (i : Nat) (c : Caller E) (replay : ForwardOutcome), w.callers[i]? = some c ∧
    c.Owns w.shared i f ∧ c.phase = .stored replay ∧
    (w.shared.heap f).retainedBytes =
      (w.shared.heap f).baseBytes + config.layout.outcomeBytes replay

/-- The flight is charged for the result that is stored in it. -/
def Charged (config : ProxyConfig) (w : World E) (f : Nat) : Prop :=
  ∀ outcome, (w.shared.heap f).outcome = some outcome →
    (w.shared.heap f).baseBytes + config.layout.outcomeBytes outcome ≤
      (w.shared.heap f).retainedBytes

/-- The counter is exact while no caller is adjusting it, and always within its bounds. -/
structure Exact (config : ProxyConfig) (w : World E) : Prop where
  sum : (∀ c ∈ w.callers, c.stage.adjusting = false) →
    w.shared.flightBytes = ∑ f ∈ w.live, (w.shared.heap f).retainedBytes
  bounded : w.shared.flightBytes ≤ config.maxFlightBytes
  covered : w.underflowed = false

/-- The flights that are alive are the registered ones. -/
theorem Sound.mem_live (h : w.Sound config) : f ∈ w.live ↔ f ∈ w.shared.flights.values := by
  unfold live
  rw [Finset.mem_filter, Finset.mem_range]
  constructor
  · rintro ⟨-, hpos⟩
    by_contra hnot
    have hzero : w.strongCount f = 0 := by
      refine strongCount_eq_zero.mpr ⟨hnot, fun c hc hf => ?_⟩
      obtain ⟨i, hi⟩ := List.mem_iff_getElem?.mp hc
      exact hnot ((h.fits i c hi).registered f hf)
    omega
  · exact fun hf => ⟨h.fresh f hf, strongCount_pos hf⟩

theorem Sound.exact (h : w.Sound config) : w.Exact config where
  sum := by
    intro hquiet
    obtain ⟨charge, hcharge⟩ := h.accounted
    have hnone : (w.callers.map fun c => c.reservedBytes config).sum = 0 := by
      refine List.sum_eq_zero fun n hn => ?_
      obtain ⟨c, hc, rfl⟩ := List.mem_map.mp hn
      exact Caller.reservedBytes_of_quiet (hquiet c hc)
    have hplain : ∀ f ∈ w.shared.flights.values, charge f = (w.shared.heap f).retainedBytes :=
      fun f hf => hcharge.plain f hf fun c hc =>
        Caller.not_adjusts_of_quiet (hquiet c hc) f
    have hlive : w.live = w.shared.flights.values.toFinset := by
      ext f
      rw [List.mem_toFinset]
      exact h.mem_live
    rw [hcharge.total, hnone, Nat.add_zero, List.map_congr_left hplain, hlive,
      List.sum_toFinset _ h.distinct]
  bounded := h.bounded
  covered := h.covered

theorem Sound.charged (h : w.Sound config) (hf : f ∈ w.live) :
    w.Charged config f ∨ w.Replacing config f := by
  obtain hsettled | ⟨c, hc, hflight, replay, hstored⟩ := h.settled f (h.mem_live.mp hf)
  · exact .inl hsettled.covers
  · obtain ⟨i, hi⟩ := List.mem_iff_getElem?.mp hc
    have hagrees := (h.fits i c hi).agrees
    simp only [Caller.Agrees, hstored] at hagrees
    obtain ⟨g, howns, hretained⟩ := hagrees
    obtain rfl : g = f := Option.some.inj (howns.1.symm.trans hflight)
    exact .inr ⟨i, c, replay, hi, howns, hstored, hretained⟩

/-- Whatever forwards arrive, however they interleave and wherever they are dropped. -/
theorem flight_bytes_exact {events : List (Event E)}
    (h : (system config E).Run (start config) events w) :
    w.Exact config ∧ ∀ f ∈ w.live, w.Charged config f ∨ w.Replacing config f := by
  have hsound : w.Sound config := h.invariant (Sound config)
    (fun _ _ _ hsound hstep => hsound.step hstep) sound_start
  exact ⟨hsound.exact, fun f hf => hsound.charged hf⟩

section Samples

def tinyConfig : ProxyConfig where
  window := 60
  maxEntries := 8
  maxBodyBytes := 1024
  maxCacheBytes := 1024
  maxFlightBytes := 4096
  retries := 0
  layout :=
    { flightSize := 200
      flightSlotSize := 32
      counterSize := 8
      cacheEntrySize := 100
      capacity := String.utf8ByteSize }

def keyedCall : ForwardCall where
  endpoint := "http://localhost:1"
  path := "/v1/chat/completions"
  fingerprint := some 7
  opts :=
    { requestId := some "r"
      tenantId := some "t"
      recordId := "record"
      providerId := "provider"
      servedLocality := .loopback
      privacy := .any
      requireOpenaiUsage := false }

/-- The upstream answers 404 with an empty body. -/
def notFound : Replies Unit where
  permit := true
  claimed := true
  observed := .ok ()
  sent := .response ⟨404, none, none⟩
  received := .complete ⟨0, none⟩
  gated := .ok ()
  completed := .ok ()

/-- A forward up to where the charge of its result is stored. -/
def resizedRun : List (Event Unit) :=
  .arrive keyedCall :: List.replicate 15 (.turn 0 notFound)

/-- No caller is at the counter, and a live flight has a result it is not charged for. -/
def overdrawn (w : World Unit) : Bool :=
  w.callers.all (fun c => !c.stage.adjusting) && decide (0 < w.shared.nextFlight) &&
    decide (0 < w.strongCount 0) && (w.shared.heap 0).outcome.any fun outcome =>
      decide ((w.shared.heap 0).retainedBytes <
        (w.shared.heap 0).baseBytes + tinyConfig.layout.outcomeBytes outcome)

theorem resizedRun_overdrawn :
    (resizedRun.foldlM (step tinyConfig) (start tinyConfig)).any overdrawn = true := by
  decide +kernel

theorem run_resizedRun : ∃ w : World Unit,
    (system tinyConfig Unit).Run (start tinyConfig) resizedRun w ∧ overdrawn w = true := by
  obtain ⟨w, hrun, hover⟩ := Option.any_eq_true _ _ |>.mp resizedRun_overdrawn
  exact ⟨w, System.run_of_foldlM (fun _ _ _ h => h) hrun, hover⟩

/-- The smaller charge is stored before the placeholder is replaced. -/
theorem not_always_charged : ¬∀ (config : ProxyConfig) (events : List (Event Unit))
    (w : World Unit), (system config Unit).Run (start config) events w →
      (∀ c ∈ w.callers, c.stage.adjusting = false) →
      w.Exact config ∧ ∀ f ∈ w.live, w.Charged config f := by
  intro hclaim
  obtain ⟨w, hrun, hover⟩ := run_resizedRun
  simp only [overdrawn, Bool.and_eq_true, List.all_eq_true, Bool.not_eq_true', decide_eq_true_eq,
    Option.any_eq_true] at hover
  obtain ⟨⟨⟨hquiet, hborn⟩, hcount⟩, outcome, hstored, hless⟩ := hover
  have hlive : 0 ∈ w.live := Finset.mem_filter.mpr ⟨Finset.mem_range.mpr hborn, hcount⟩
  have hcharged := (hclaim tinyConfig resizedRun w hrun hquiet).2 0 hlive outcome hstored
  omega

theorem flight_bytes_exact_resized : ∃ w : World Unit,
    (system tinyConfig Unit).Run (start tinyConfig) resizedRun w ∧ w.Exact tinyConfig ∧
      ∀ f ∈ w.live, w.Charged tinyConfig f ∨ w.Replacing tinyConfig f := by
  obtain ⟨w, hrun, -⟩ := run_resizedRun
  exact ⟨w, hrun, flight_bytes_exact hrun⟩

end Samples

end Results

end World

end Proxy
