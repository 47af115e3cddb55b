import IDoris.Supervisor.Site
import IDoris.Supervisor.Turns

/-!
# Claim and ledger over whole runs

No other runtime touches the supervisor's key, so what it remembers stays what the ledger
holds; a spawned load runs under a claim that covers its plan.
-/
namespace Supervisor

open Bounded Transaction

variable {G : Type} [Gigabytes G]

section Plan

variable {env : Env G} {models : Models G} {req : LoadRequest G} {plan : LoadPlan G}

theorem validateCapacity_ok {field : String} {value : G} {u : Unit}
    (h : validateCapacity field value = .ok u) : Gigabytes.le (Gigabytes.zero : G) value = true := by
  unfold validateCapacity at h
  split at h
  · rename_i hvalid
    exact (Bool.and_eq_true_iff.mp hvalid).2
  · cases h

theorem forM_validateCapacity {entries : List (ModelEntry G)} {u : PUnit}
    (h : entries.forM (fun model => validateCapacity "model.memory_gb" model.memoryGb) = .ok u) :
    ∀ m ∈ entries, Gigabytes.le (Gigabytes.zero : G) m.memoryGb = true := by
  induction entries with
  | nil => exact nofun
  | cons entry rest ih =>
    have hcons : (validateCapacity "model.memory_gb" entry.memoryGb >>= fun _ =>
        rest.forM fun model => validateCapacity "model.memory_gb" model.memoryGb) = .ok u := h
    rw [bind_eq_ok] at hcons
    obtain ⟨_, hentry, hrest⟩ := hcons
    intro m hm
    obtain rfl | hm := List.mem_cons.mp hm
    · exact validateCapacity_ok hentry
    · exact ih hrest m hm

/-- The planner has checked the request and every other model. -/
theorem planEviction_nonneg {state : Snapshot G} {need : ModelReq G} {decision : EvictionPlan}
    (h : planEviction state need = .ok decision) :
    Gigabytes.le (Gigabytes.zero : G) need.memoryGb = true ∧
      ∀ m ∈ state.models, Gigabytes.le (Gigabytes.zero : G) m.memoryGb = true := by
  simp only [planEviction, bind_eq_ok] at h
  obtain ⟨_, -, _, hneed, _, hmodels, -⟩ := h
  exact ⟨validateCapacity_ok hneed, forM_validateCapacity hmodels⟩

theorem chosenVictims_ok {decision : Except (PlanEvictionError G) EvictionPlan} {id : String}
    {evict : List String} (h : chosenVictims decision id = .ok evict) :
    ∃ plan, decision = .ok plan := by
  unfold chosenVictims at h
  split at h
  · exact ⟨_, rfl⟩
  · exact ⟨_, rfl⟩
  · cases h

variable [LawfulGigabytes G]

theorem sum_nonneg {sizes : List G}
    (h : ∀ size ∈ sizes, Gigabytes.le (Gigabytes.zero : G) size = true) :
    Gigabytes.le (Gigabytes.zero : G) (Gigabytes.sum sizes) = true := by
  have hgo : ∀ acc : G, Gigabytes.le (Gigabytes.zero : G) acc = true →
      Gigabytes.le (Gigabytes.zero : G) (sizes.foldl Gigabytes.add acc) = true := by
    induction sizes with
    | nil => exact fun acc hacc => hacc
    | cons size rest ih =>
      intro acc hacc
      rw [List.foldl_cons]
      apply ih (fun s hs => h s (List.mem_cons_of_mem _ hs))
      exact LawfulGigabytes.add_nonneg _ _ hacc (h size List.mem_cons_self)
  exact hgo Gigabytes.zero LawfulGigabytes.zero_nonneg

theorem occupiedExcept_nonneg {budgetGb : G} {id : String} {evict : List String}
    (h : ∀ m ∈ (models.buildSnapshot budgetGb id).models,
      Gigabytes.le (Gigabytes.zero : G) m.memoryGb = true) :
    Gigabytes.le (Gigabytes.zero : G) (models.occupiedExcept (id :: evict)) = true := by
  apply sum_nonneg
  intro size hsize
  obtain ⟨⟨other, slot⟩, hmem, rfl⟩ := List.mem_map.mp hsize
  obtain ⟨hentry, hkept⟩ := List.mem_filter.mp hmem
  have hne : other ≠ id := by
    rintro rfl
    simp at hkept
  apply h ⟨other, slot.memoryGb, slot.state, _, slot.lastUsedSeq, slot.inflight⟩
  apply List.mem_map.mpr
  exact ⟨(other, slot), List.mem_filter.mpr ⟨hentry, by simpa using hne⟩, rfl⟩

/-- The planned total of an admitted load is not negative. -/
theorem planLoad_nonneg (h : planLoad env models req = .ok plan) :
    Gigabytes.le (Gigabytes.zero : G) plan.plannedGb = true := by
  simp only [planLoad, bind_eq_ok] at h
  obtain ⟨-, -, evict, hchosen, charges, -, h⟩ := h
  cases h
  obtain ⟨decision, hdecision⟩ := chosenVictims_ok hchosen
  obtain ⟨hneed, hmodels⟩ := planEviction_nonneg hdecision
  have hreserved : Gigabytes.le (Gigabytes.zero : G) (env.effectiveReservedGb models) = true :=
    LawfulGigabytes.le_max_right _ _ LawfulGigabytes.zero_nonneg
  apply LawfulGigabytes.add_nonneg
  · exact LawfulGigabytes.add_nonneg _ _ hreserved hneed
  · exact occupiedExcept_nonneg hmodels

end Plan

section Agreement

/-- The claim without the ledger it is held in. -/
def StartupCapacityTracking.claim (t : StartupCapacityTracking G) : G × Option CapacityCharge :=
  (t.claimedGb, t.exactClaim)

def Env.claim (env : Env G) : Option (G × Option CapacityCharge) :=
  env.runtimeCapacity.map StartupCapacityTracking.claim

def Env.ClaimAgrees (env : Env G) : Prop := ∀ t, env.runtimeCapacity = some t → t.Agrees

variable {env env' : Env G} {t : StartupCapacityTracking G} {w : World G} {actor : Actor G}
  {event : Event G} {plannedGb : G} {plannedCharge : Option CapacityCharge}

theorem Env.Covers.congr (h : env.Covers plannedGb plannedCharge) (hsame : env'.claim = env.claim) :
    env'.Covers plannedGb plannedCharge := by
  have hold : ∀ t', env'.runtimeCapacity = some t' → ∃ t, env.runtimeCapacity = some t ∧
      t.claimedGb = t'.claimedGb ∧ t.exactClaim = t'.exactClaim := by
    intro t' ht'
    simp only [Env.claim, ht', Option.map_some] at hsame
    obtain ⟨t, ht, hclaim⟩ := Option.map_eq_some_iff.mp hsame.symm
    exact ⟨t, ht, congrArg Prod.fst hclaim, congrArg Prod.snd hclaim⟩
  constructor
  · intro t' charge ht' hcharge
    obtain ⟨t, ht, -, hexact⟩ := hold t' ht'
    exact h.exact t charge ht (hexact.trans hcharge)
  · intro t' ht' hnone
    obtain ⟨t, ht, hgb, hexact⟩ := hold t' ht'
    rw [← hgb]
    exact h.estimate t ht (hexact.trans hnone)

theorem Env.Moves.agrees (h : env.Moves env') (hagrees : env.ClaimAgrees) : env'.ClaimAgrees := by
  cases h with
  | stays => exact hagrees
  | tracked t t' htracking hmoves =>
    intro other hother
    obtain rfl := Option.some.inj hother
    exact hmoves.agrees (hagrees t htracking)

/-- Another key of the ledger is another runtime's business. -/
theorem StartupCapacityTracking.Agrees.peer {key : String}
    {allocation : Option (CapacityAllocation G)} (h : t.Agrees) (hkey : key ≠ t.allocationKey) :
    StartupCapacityTracking.Agrees { t with ledger := t.ledger.assign key allocation } := by
  have hget : (t.ledger.assign key allocation).allocations.get t.allocationKey =
      t.ledger.allocations.get t.allocationKey := by
    cases allocation with
    | some a =>
      simp only [GlobalCapacityLedger.assign, Keyed.Map.get_insert, if_neg hkey]
    | none => exact Keyed.Map.get_remove_of_ne (Ne.symm hkey)
  exact {
    exact := fun charge hcharge => by
      rw [hget]
      exact h.exact charge hcharge
    estimate := fun hnone => by
      rw [hget]
      exact h.estimate hnone
    formed := h.formed }

theorem conclude_env (hactive : actor.activeOp ≠ none) {id : String}
    {result : Except BackendError Unit} :
    (actor.conclude id none result).1.env = (actor.env.settleRuntimeCapacity actor.models).2 := by
  have hconcluded := @conclude_concluded G _ actor id result hactive
  generalize (actor.conclude id none result).1 = after at hconcluded
  cases hconcluded with
  | settled env h => rw [h]
  | refused env err h => rw [h]

theorem Coherent.applied_active (hactive : w.actor.activeOp ≠ none) {id : String}
    {outcome : OpOutcome G} : (w.actor.applied id outcome).1.activeOp ≠ none := by
  rw [Actor.SameBooks.applied.activeOp]
  exact hactive

/-- The actor's environment after a turn: untouched, moved, or moved by a peer. -/
theorem World.Turn.agrees (h : w.Turn event actor) (hagrees : w.actor.env.ClaimAgrees) :
    actor.env.ClaimAgrees := by
  cases h with
  | stays => exact hagrees
  | joined => exact hagrees
  | loading req faults plan env _ _ _ hclaim =>
    exact (claimRuntimeCapacity_moves hclaim).agrees hagrees
  | stopping => exact hagrees
  | chatted model permit after hchat =>
    rw [handleChat_env hchat]
    exact hagrees
  | chatEnded chat =>
    rw [chatDone_env]
    exact hagrees
  | delivered t outcome _ _ _ hactive =>
    rw [conclude_env (Coherent.applied_active hactive)]
    apply (settleRuntimeCapacity_settlement _ _).moves.agrees
    intro tracking htracking
    rw [Actor.SameBooks.applied.runtimeCapacity] at htracking
    exact hagrees tracking htracking
  | rehashedModels => exact hagrees
  | rehashedCovered => exact hagrees
  | peer key allocation t htracking hkey =>
    intro other hother
    obtain rfl := Option.some.inj hother
    exact (hagrees t htracking).peer hkey

end Agreement

section Outstanding

variable {w : World G} {t : OpTask G} {event : Event G}

/-- The records of a run only grow. -/
theorem World.step_records (w : World G) (event : Event G) :
    w.started <+: (w.step event).started ∧ w.delivered <+: (w.step event).delivered := by
  cases event with
  | load req faults =>
    simp only [step, load]
    split
    · exact ⟨List.prefix_rfl, List.prefix_rfl⟩
    · rw [apply_started, apply_delivered]
      exact ⟨List.prefix_append _ _, List.prefix_rfl⟩
  | unload id =>
    simp only [step, unload]
    split
    · exact ⟨List.prefix_rfl, List.prefix_rfl⟩
    · rw [apply_started, apply_delivered]
      exact ⟨List.prefix_append _ _, List.prefix_rfl⟩
  | chat model permit =>
    simp only [step, chat]
    split
    · exact ⟨List.prefix_rfl, List.prefix_rfl⟩
    · split <;> exact ⟨List.prefix_rfl, List.prefix_rfl⟩
  | issue serial =>
    simp only [step, issue]
    split
    · exact ⟨List.prefix_rfl, List.prefix_rfl⟩
    · split <;> exact ⟨List.prefix_rfl, List.prefix_rfl⟩
  | respond serial responses =>
    simp only [step, respond]
    split <;> exact ⟨List.prefix_rfl, List.prefix_rfl⟩
  | panic serial message =>
    simp only [step, panic]
    split <;> exact ⟨List.prefix_rfl, List.prefix_rfl⟩
  | opDone serial =>
    simp only [step, opDone]
    split
    · exact ⟨List.prefix_rfl, List.prefix_rfl⟩
    · split
      · exact ⟨List.prefix_rfl, List.prefix_rfl⟩
      · exact ⟨List.prefix_rfl, List.prefix_append _ _⟩
  | chatReturns chat result =>
    simp only [step, chatReturns]
    split <;> exact ⟨List.prefix_rfl, List.prefix_rfl⟩
  | chatDone chat =>
    simp only [step, chatDone]
    split
    · split
      · exact ⟨List.prefix_rfl, List.prefix_rfl⟩
      · exact ⟨List.prefix_append _ _, List.prefix_rfl⟩
    · exact ⟨List.prefix_rfl, List.prefix_rfl⟩
  | rehashModels n => exact ⟨List.prefix_rfl, List.prefix_rfl⟩
  | rehashCovered n => exact ⟨List.prefix_rfl, List.prefix_rfl⟩
  | peer key allocation =>
    simp only [step, peer]
    split
    · exact ⟨List.prefix_rfl, List.prefix_rfl⟩
    · split <;> exact ⟨List.prefix_rfl, List.prefix_rfl⟩

theorem World.run_records (events : List (Event G)) :
    w.started <+: (w.run events).started ∧ w.delivered <+: (w.run events).delivered := by
  induction events generalizing w with
  | nil => exact ⟨List.prefix_rfl, List.prefix_rfl⟩
  | cons event rest ih =>
    obtain ⟨hstarted, hdelivered⟩ := w.step_records event
    obtain ⟨hstarted', hdelivered'⟩ := @ih (w.step event)
    exact ⟨hstarted.trans hstarted', hdelivered.trans hdelivered'⟩

/-- Operation `serial` has been spawned and has not reported. -/
structure World.Outstanding (w : World G) (serial : Nat) : Prop where
  started : serial ∈ w.started
  undelivered : serial ∉ w.delivered.map (·.serial)

theorem Coherent.outstanding (h : Coherent w) {serial : Nat} (ho : w.Outstanding serial) :
    ∃ t, w.tasks = [t] ∧ t.serial = serial := by
  have hstarted := ho.started
  rw [h.books.deliveries, List.mem_append] at hstarted
  obtain ⟨t, ht, hserial⟩ := List.mem_map.mp (hstarted.resolve_left ho.undelivered)
  exact ⟨t, (h.stage.of_task ht).1, hserial⟩

theorem World.Outstanding.of_step {serial : Nat} (ho : serial ∈ w.started)
    (h : serial ∉ (w.step event).delivered.map (·.serial)) : w.Outstanding serial where
  started := ho
  undelivered hd := by
    obtain ⟨d, hd, hserial⟩ := List.mem_map.mp hd
    exact h (List.mem_map.mpr ⟨d, (w.step_records event).2.subset hd, hserial⟩)

/-- While an operation is out nothing moves the claim. -/
theorem Coherent.claim_kept (h : Coherent w) {serial : Nat} (hstarted : serial ∈ w.started)
    (hout : serial ∉ (w.step event).delivered.map (·.serial)) :
    (w.step event).actor.env.claim = w.actor.env.claim := by
  obtain ⟨task, htasks, hserial⟩ := h.outstanding (.of_step hstarted hout)
  have hbusy : w.actor.activeOp ≠ none := by
    obtain ⟨-, op, hactive, -⟩ := h.stage.of_task (t := task) (by rw [htasks]; exact List.mem_cons_self)
    rw [hactive]
    exact nofun
  have hturn := h.turn event
  generalize hactor : (w.step event).actor = actor at hturn
  cases hturn with
  | stays => rfl
  | joined => rfl
  | loading req faults plan env _ hscreen => exact absurd (screenLoad_admitted hscreen).1 hbusy
  | stopping => rfl
  | chatted model permit after hchat => rw [handleChat_env hchat]
  | chatEnded chat => rw [chatDone_env]
  | delivered t outcome htask hfinished =>
    have hsame : t = task := by
      have hmem := (World.task_mem htask).1
      rw [htasks] at hmem
      exact List.mem_singleton.mp hmem
    rw [hsame] at htask hfinished
    apply absurd _ hout
    simp only [World.step, World.opDone, hsame, htask, hfinished, World.deliver, List.map_append,
      List.mem_append, List.map_cons, List.map_nil, List.mem_singleton]
    exact .inr hserial.symm
  | rehashedModels => rfl
  | rehashedCovered => rfl
  | peer key allocation t htracking hkey =>
    simp only [Env.claim, Env.withTracking, htracking, Option.map_some,
      StartupCapacityTracking.claim]

theorem Coherent.claim_kept_run (h : Coherent w) {serial : Nat} (hstarted : serial ∈ w.started)
    (events : List (Event G)) (hout : serial ∉ (w.run events).delivered.map (·.serial)) :
    (w.run events).actor.env.claim = w.actor.env.claim := by
  induction events generalizing w with
  | nil => rfl
  | cons event rest ih =>
    have hlater := (w.step_records event).1.subset hstarted
    have hrest := ih (h.step event) hlater hout
    refine hrest.trans (h.claim_kept hstarted fun hd => hout ?_)
    obtain ⟨d, hd, hserial⟩ := List.mem_map.mp hd
    exact List.mem_map.mpr ⟨d, (World.run_records rest).2.subset hd, hserial⟩

end Outstanding

section Startup

variable {t : StartupCapacityTracking G} {gb : G} {startup : Except BackendError (BackendStatus G)}
  {boot : Boot G}

/-- The ledger took the startup sample, or the blocking charge in its place. -/
def Boot.Observed (boot : Boot G) : Prop :=
  ∀ t, boot.capacity = some t → boot.startupProbe = true → (t.observe boot.startup).2 = none

theorem recordObservedClaim_agrees {units : U128} (hformed : Gigabytes.malformed gb = false)
    (hunits : toCapacityUnits "next_gb" gb .up = .ok units)
    (hget : t.ledger.allocations.get t.allocationKey = some ⟨gb, units⟩) :
    (t.recordObservedClaim gb).1.Agrees := by
  unfold StartupCapacityTracking.recordObservedClaim
  split
  · rename_i hestimate
    exact {
      exact := fun charge hcharge => by
        rw [hestimate] at hcharge
        cases hcharge
      estimate := fun _ => by rw [hget]; rfl
      formed := fun _ => hformed }
  · have hcharge : CapacityCharge.fromGb gb = .ok ⟨units⟩ := by
      have hsame := (toCapacityUnits_ok hunits "model charge").2
      rw [CapacityCharge.fromGb, hsame]
      rfl
    simp only [hcharge]
    exact {
      exact := fun charge hsome => by
        obtain rfl := Option.some.inj hsome
        rw [hget]
        rfl
      estimate := nofun
      formed := nofun }

theorem observe_agrees (h : (t.observe startup).2 = none) : (t.observe startup).1.Agrees := by
  unfold StartupCapacityTracking.observe at h ⊢
  cases startup with
  | ok status =>
    simp only at h ⊢
    split at h
    · rename_i ledger hadopt
      obtain ⟨hformed, units, hunits, rfl⟩ := compareAndSet_assigned hadopt
      exact recordObservedClaim_agrees hformed hunits (GlobalCapacityLedger.get_assign _)
    · cases h
  | error err =>
    simp only at h ⊢
    split at h
    · rename_i ledger claimedGb hblock
      unfold GlobalCapacityLedger.blockGrowthForUnknownResidency at hblock
      cases hset : t.ledger.compareAndSet t.allocationKey none (some t.ledger.budgetGb) false with
      | error err =>
        rw [hset] at hblock
        cases hblock
      | ok after =>
        rw [hset] at hblock
        cases hblock
        obtain ⟨hformed, units, hunits, rfl⟩ := compareAndSet_assigned hset
        exact recordObservedClaim_agrees hformed hunits (GlobalCapacityLedger.get_assign _)
    · cases h

theorem Boot.Observed.agrees (h : boot.Observed) (marker : Bool) :
    (boot.actor marker).env.ClaimAgrees := by
  intro t ht
  simp only [Boot.actor, Option.map_map, Option.map_eq_some_iff] at ht
  obtain ⟨tracking, hcapacity, rfl⟩ := ht
  split at hcapacity
  · rename_i hprobe
    exact observe_agrees (h tracking hcapacity hprobe)
  · cases hcapacity

/-- A refused sample fails the start. -/
theorem Boot.startupError_of_not_observed (h : ¬boot.Observed) (marker : Bool) :
    (boot.actor marker).env.startupError.isSome = true := by
  unfold Boot.Observed at h
  push Not at h
  obtain ⟨t, hcapacity, hprobe, herror⟩ := h
  obtain ⟨err, herr⟩ := Option.ne_none_iff_exists'.mp herror
  simp [Boot.actor, hcapacity, hprobe, herr]

end Startup

section Runs

variable {w : World G}

theorem Coherent.agrees_run (h : Coherent w) (hagrees : w.actor.env.ClaimAgrees)
    (events : List (Event G)) : (w.run events).actor.env.ClaimAgrees := by
  induction events generalizing w with
  | nil => exact hagrees
  | cons event rest ih => exact ih (h.step event) ((h.turn event).agrees hagrees)

/-- No claim and no settlement under this expectation is refused for being out of date. -/
structure StartupCapacityTracking.Current (t : StartupCapacityTracking G) : Prop where
  claims : ∀ (env : Env G) plannedGb plannedCharge allow, env.runtimeCapacity = some t →
    env.claimRuntimeCapacity plannedGb plannedCharge allow ≠
      .error (staleExpectation t.allocationKey)
  settles : ∀ (env : Env G) models, env.runtimeCapacity = some t →
    (env.settleRuntimeCapacity models).1 ≠ .error (staleExpectation t.allocationKey)

/-- The private claim and the ledger in one state of a run. A load is covered from the turn
that spawns it until its report. -/
structure ClaimDiscipline (w : World G) : Prop where
  agrees : w.actor.env.ClaimAgrees
  current : ∀ t, w.actor.env.runtimeCapacity = some t → t.Current
  covers : ∀ req faults task, (w.load req faults).tasks = w.tasks ++ [task] →
    ∃ plan, planLoad w.actor.env w.actor.models req = .ok plan ∧
      ∀ more, task.serial ∉ ((w.load req faults).run more).delivered.map (·.serial) →
        ((w.load req faults).run more).actor.env.Covers plan.plannedGb plan.plannedCharge
  settled : ∀ serial, (w.opDone serial).delivered ≠ w.delivered →
    (w.opDone serial).actor.poisoned = none → (w.opDone serial).actor.models.unconfirmed = false →
      (w.opDone serial).actor.env.Settled (w.opDone serial).actor.models

theorem Coherent.covers [LawfulGigabytes G] (h : Coherent w) {req : LoadRequest G}
    {faults : LoadFaults} {task : OpTask G} (htask : (w.load req faults).tasks = w.tasks ++ [task]) :
    ∃ plan, planLoad w.actor.env w.actor.models req = .ok plan ∧
      ∀ more, task.serial ∉ ((w.load req faults).run more).delivered.map (·.serial) →
        ((w.load req faults).run more).actor.env.Covers plan.plannedGb plan.plannedCharge := by
  have hafter : Coherent (w.load req faults) := h.load req faults
  have hout : task ∈ (w.load req faults).tasks := by
    rw [htask]
    exact List.mem_append_right _ List.mem_cons_self
  have hstarted : task.serial ∈ (w.load req faults).started := by
    rw [hafter.books.deliveries]
    exact List.mem_append_right _ (List.mem_map_of_mem hout)
  obtain ⟨hsame, -⟩ | ⟨-, -, plan, env, hplan, hclaim, hactor, -⟩ := w.load_cases req faults
  · rw [hsame] at htask
    exact absurd htask (by simp)
  · refine ⟨plan, hplan, fun more hout => ?_⟩
    have hcovers : (w.load req faults).actor.env.Covers plan.plannedGb plan.plannedCharge := by
      rw [hactor]
      exact claimRuntimeCapacity_covers (planLoad_nonneg hplan) hclaim
    exact hcovers.congr (hafter.claim_kept_run hstarted more hout)

theorem Coherent.settled (h : Coherent w) {serial : Nat}
    (hdelivered : (w.opDone serial).delivered ≠ w.delivered)
    (hpoisoned : (w.opDone serial).actor.poisoned = none)
    (hconfirmed : (w.opDone serial).actor.models.unconfirmed = false) :
    (w.opDone serial).actor.env.Settled (w.opDone serial).actor.models := by
  cases ht : w.task serial with
  | none =>
    simp only [World.opDone, ht] at hdelivered
    exact absurd rfl hdelivered
  | some t =>
    cases hf : t.finished with
    | none =>
      simp only [World.opDone, ht, hf] at hdelivered
      exact absurd rfl hdelivered
    | some outcome =>
      obtain ⟨hactive, -, -, hdone⟩ := h.delivers ht hf
      rw [hdone] at hpoisoned hconfirmed ⊢
      have happlied : (w.actor.applied t.id outcome).1.activeOp ≠ none :=
        Coherent.applied_active hactive
      have hconcluded := @conclude_concluded G _ _ t.id outcome.result happlied
      generalize ((w.actor.applied t.id outcome).1.conclude t.id none outcome.result).1 = after
        at hconcluded hpoisoned hconfirmed ⊢
      cases hconcluded with
      | settled env hsettle =>
        have hsettlement := settleRuntimeCapacity_settlement (w.actor.applied t.id outcome).1.env
          (w.actor.applied t.id outcome).1.models
        rw [hsettle] at hsettlement
        exact hsettlement.settled rfl hconfirmed
      | refused env err => cases hpoisoned

/-- A failed start refuses every command for good. -/
theorem World.run_inert (htasks : w.tasks = []) (hchats : w.chats = [])
    (hrefuses : w.actor.env.startupError.isSome = true) (events : List (Event G)) :
    (w.run events).tasks = [] ∧ (w.run events).actor.env.startupError.isSome = true := by
  induction events generalizing w with
  | nil => exact ⟨htasks, hrefuses⟩
  | cons event rest ih =>
    obtain ⟨-, htasks', hchats', hrefuses'⟩ := step_inert event htasks hchats hrefuses
    exact ih htasks' hchats' hrefuses'

theorem claim_discipline_of_observed [LawfulGigabytes G] {boot : Boot G} (host : Host)
    (hobserved : boot.Observed) (events : List (Event G)) :
    ClaimDiscipline ((boot.world host).run events) := by
  have hcoherent := coherent_run boot host events
  have hagrees : ((boot.world host).run events).actor.env.ClaimAgrees :=
    (coherent_start boot host).agrees_run (hobserved.agrees host.marker) events
  exact {
    agrees := hagrees
    current := fun t ht => {
      claims := fun env plannedGb plannedCharge allow henv =>
        claimRuntimeCapacity_not_stale henv (hagrees t ht)
      settles := fun env models henv =>
        (settleRuntimeCapacity_settlement env models).not_stale henv (hagrees t ht) }
    covers := fun req faults task htask => hcoherent.covers htask
    settled := fun serial hdelivered hpoisoned hconfirmed =>
      hcoherent.settled hdelivered hpoisoned hconfirmed }

/-- The claim and the ledger agree in every run; when the ledger refuses the startup sample
no command is accepted. -/
theorem claim_discipline [LawfulGigabytes G] (boot : Boot G) (host : Host)
    (events : List (Event G)) :
    (boot.Observed → ClaimDiscipline ((boot.world host).run events)) ∧
      (¬boot.Observed → ∃ err, World.refusal ((boot.world host).run events).actor = some err) :=
  ⟨fun h => claim_discipline_of_observed host h events, fun h =>
    World.refusal_of_startupError
      (World.run_inert rfl rfl (Boot.startupError_of_not_observed h host.marker) events).2⟩

end Runs

section Samples

/-- A runtime of 10 GB on an idle engine, with a shared ledger of 20 GB. -/
def idleBoot (allocations : Keyed.Map String (CapacityAllocation Int)) : Boot Int where
  config := ⟨Gigabytes.ofGb 10, 1, 1⟩
  fence := .ok ⟨"load.fence"⟩
  checkFault := .none
  capacity := some {
    ledger := ⟨Gigabytes.ofGb 20, ⟨20 * capacityUnitsPerGb, by decide⟩,
      capacityEpsilon, U128.zero, allocations⟩
    allocationKey := "runtime"
    claimedGb := 0
    exactClaim := none }
  startupProbe := true
  status := .ok ⟨.ok, 0, Gigabytes.ofGb 10, []⟩

def freshHost : Host := ⟨false, 0, []⟩

/-- An engine that does what it is asked and shows `usedGb` and `loaded`. -/
def obliging (usedGb : Int) (loaded : List String) : Responses Int where
  unload := some (.ok ())
  load := some (.ok ())
  status := some (.ok ⟨.ok, usedGb, Gigabytes.ofGb 10, loaded⟩)
  probeReady := some (.ok true)
  fault := .none

/-- The calls of an operation, each answered at once. -/
def answered (serial : Nat) (answers : List (Responses Int)) : List (Event Int) :=
  answers.flatMap fun r => [.issue serial, .respond serial r]

def loadOf (id : String) (memoryGb : Int) : Event Int :=
  .load ⟨id, memoryGb, ⟨.onDemand, .pinned false, .coexist⟩, false⟩ ⟨.none, .none⟩

def rejecting (err : BackendError) : Responses Int :=
  { obliging 0 [] with load := some (.error err) }

/-- A load of half the epsilon that the engine rejects. -/
def rejectedLoad : List (Event Int) :=
  loadOf "a" (2 ^ 51) :: answered 0 [rejecting (.upstream "no"), obliging 0 []]

def rejectedWorld : World Int :=
  (((idleBoot Keyed.Map.empty).world freshHost).run rejectedLoad).opDone 0

/-- The runtime's key already holds 1 GB. -/
def occupiedBoot : Boot Int :=
  idleBoot (Keyed.Map.empty.insert "runtime" ⟨Gigabytes.ofGb 1, U128.zero⟩)

theorem idleBoot_observed : (idleBoot Keyed.Map.empty).Observed := by
  intro t ht _
  cases ht
  decide +kernel

theorem claim_discipline_rejectedLoad :
    ClaimDiscipline (((idleBoot Keyed.Map.empty).world freshHost).run rejectedLoad) :=
  (claim_discipline (idleBoot Keyed.Map.empty) freshHost rejectedLoad).1 idleBoot_observed

/-- An amount within the epsilon stays claimed, and a refused startup sample leaves the two
sides apart. -/
theorem claim_apart :
    (¬ ∀ (boot : Boot Int) (host : Host) (events : List (Event Int)) (serial : Nat)
      (t : StartupCapacityTracking Int), boot.Observed →
        (((boot.world host).run events).opDone serial).delivered ≠
          ((boot.world host).run events).delivered →
        (((boot.world host).run events).opDone serial).actor.poisoned = none →
        (((boot.world host).run events).opDone serial).actor.models.unconfirmed = false →
        (((boot.world host).run events).opDone serial).actor.env.runtimeCapacity = some t →
        t.claimedGb = (((boot.world host).run events).opDone serial).actor.env.accountedGb
          (((boot.world host).run events).opDone serial).actor.models) ∧
    ¬ ∀ (boot : Boot Int) (host : Host) (t : StartupCapacityTracking Int),
      (boot.world host).actor.env.runtimeCapacity = some t →
        (t.ledger.allocations.get t.allocationKey).map (·.requestedGb) = some t.claimedGb := by
  constructor
  · intro h
    have hclaimed : rejectedWorld.actor.env.runtimeCapacity.map (·.claimedGb) = some (2 ^ 51) := by
      decide +kernel
    obtain ⟨t, ht, hgb⟩ := Option.map_eq_some_iff.mp hclaimed
    have hpoisoned : rejectedWorld.actor.poisoned = none := by decide +kernel
    have hconfirmed : rejectedWorld.actor.models.unconfirmed = false := by decide +kernel
    have hreported : rejectedWorld.delivered ≠
        (((idleBoot Keyed.Map.empty).world freshHost).run rejectedLoad).delivered := by
      intro heq
      exact absurd (congrArg List.length heq) (by decide +kernel)
    have hsettled : t.claimedGb =
        rejectedWorld.actor.env.accountedGb rejectedWorld.actor.models :=
      h (idleBoot Keyed.Map.empty) freshHost rejectedLoad 0 t idleBoot_observed hreported
        hpoisoned hconfirmed ht
    rw [hgb] at hsettled
    exact absurd hsettled (by decide +kernel)
  · intro h
    have hclaimed : (occupiedBoot.world freshHost).actor.env.runtimeCapacity.map
        (fun t => ((t.ledger.allocations.get t.allocationKey).map (·.requestedGb), t.claimedGb)) =
          some (some (Gigabytes.ofGb 1), 0) := by decide +kernel
    obtain ⟨t, ht, hpair⟩ := Option.map_eq_some_iff.mp hclaimed
    obtain ⟨hheld, hgb⟩ := Prod.mk.inj hpair
    have hsame := h occupiedBoot freshHost t ht
    rw [hheld, hgb] at hsame
    exact absurd hsame (by decide +kernel)

end Samples

end Supervisor
