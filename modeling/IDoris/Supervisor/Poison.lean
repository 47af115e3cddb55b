import IDoris.Supervisor.Agreement

/-!
# What poisons the actor

Of the checks that end in poison only the reconciliation after a report can fail: the
others ask for slots and an operation that the actor never loses.
-/
namespace Supervisor

open Bounded Transaction

variable {G : Type} [Gigabytes G]

/-- The accounted total is above the claim. -/
inductive Env.ExceedsClaim (env : Env G) (models : Models G) (t : StartupCapacityTracking G) :
    Prop where
  | charge (current accounted : CapacityCharge) (hcurrent : t.exactClaim = some current)
      (haccounted : env.exactCharge models models.values = .ok accounted)
      (hgrown : current.units.val < accounted.units.val)
  | estimate (hestimate : t.exactClaim = none)
      (hgrown : Gigabytes.lt t.claimedGb (env.accountedGb models) = true)

/-- The call of the ledger that replaces the claim of the runtime by the accounted total. -/
inductive Env.Reconciles (env : Env G) (models : Models G) (t : StartupCapacityTracking G) :
    CapacityCall G → Prop where
  | charge (current accounted : CapacityCharge) (hcurrent : t.exactClaim = some current)
      (haccounted : env.exactCharge models models.values = .ok accounted) :
      Reconciles env models t (.updateCharge t.allocationKey (some current) accounted
        (!decide (current.units.val < accounted.units.val)))
  | adopt (hestimate : t.exactClaim = none)
      (hgrown : Gigabytes.lt t.claimedGb (env.accountedGb models) = true) :
      Reconciles env models t (.adoptObserved t.allocationKey (some t.claimedGb)
        (env.accountedGb models))
  | resize (hestimate : t.exactClaim = none)
      (hkept : Gigabytes.lt t.claimedGb (env.accountedGb models) = false) :
      Reconciles env models t (.resize t.allocationKey (some t.claimedGb)
        (some (env.accountedGb models)))

/-- Why a reconciliation fails: the engine holds more than was claimed, or an amount cannot
be accounted for, or the ledger refuses it for another reason than a stale expectation. -/
inductive Env.Irreconcilable (env : Env G) (models : Models G) (t : StartupCapacityTracking G) :
    BackendError → Prop where
  | exceeded (hexceeds : env.ExceedsClaim models t) (hconfirmed : models.unconfirmed = false) :
      Irreconcilable env models t Env.exceededClaim
  | unaccountable (err : BackendError)
      (haccounted : env.exactCharge models models.values = .error err) :
      Irreconcilable env models t err
  | refused (call : CapacityCall G) (err : BackendError) (hreconciles : env.Reconciles models t call)
      (hcall : call.apply t.ledger = .error err)
      (hcurrent : err ≠ staleExpectation t.allocationKey) : Irreconcilable env models t err

variable {env env' : Env G} {models : Models G} {t : StartupCapacityTracking G}
  {err : BackendError} {w : World G} {event : Event G} {actor : Actor G} {msg : String}

theorem Env.Settlement.irreconcilable [LawfulGigabytes G]
    (h : env.Settlement models (.error err) env') (hagrees : env.ClaimAgrees) :
    ∃ t, env.runtimeCapacity = some t ∧ env.Irreconcilable models t err := by
  have hstale : ∀ t, env.runtimeCapacity = some t → err ≠ staleExpectation t.allocationKey :=
    fun t ht heq => h.not_stale ht (hagrees t ht) (congrArg Except.error heq)
  generalize hverdict : (Except.error err : Except BackendError Unit) = verdict at h
  cases h with
  | untracked => cases hverdict
  | unaccountable t err' htracking haccounted =>
    obtain rfl := Except.error.inj hverdict
    exact ⟨t, htracking, .unaccountable err haccounted⟩
  | keptCharge => cases hverdict
  | refusedCharge t current accounted err' htracking hcurrent haccounted hrefused =>
    obtain rfl := Except.error.inj hverdict
    exact ⟨t, htracking, .refused _ err (.charge current accounted hcurrent haccounted) hrefused
      (hstale t htracking)⟩
  | charged t current accounted htracking hcurrent haccounted hmay =>
    split at hverdict
    · rename_i hgrown
      obtain rfl := Except.error.inj hverdict
      exact ⟨t, htracking, .exceeded (.charge current accounted hcurrent haccounted hgrown.1)
        hgrown.2⟩
    · cases hverdict
  | keptEstimate => cases hverdict
  | refusedEstimate t err' htracking hestimate hrefused =>
    obtain rfl := Except.error.inj hverdict
    refine ⟨t, htracking, ?_⟩
    cases hgrown : Gigabytes.lt t.claimedGb (env.accountedGb models) with
    | true =>
      rw [hgrown] at hrefused
      exact .refused _ err (.adopt hestimate hgrown) hrefused (hstale t htracking)
    | false =>
      rw [hgrown] at hrefused
      exact .refused _ err (.resize hestimate hgrown) hrefused (hstale t htracking)
  | estimated t units htracking hestimate hformed hmay =>
    split at hverdict
    · rename_i hgrown
      obtain rfl := Except.error.inj hverdict
      exact ⟨t, htracking, .exceeded (.estimate hestimate hgrown.1) hgrown.2⟩
    · cases hverdict

/-- A turn that poisons delivers a report whose reconciliation fails. -/
theorem World.Turn.poisons (h : w.Turn event actor) (hbefore : w.actor.poisoned = none)
    (hafter : actor.poisoned = some msg) : ∃ t outcome err,
      event = .opDone t.serial ∧ w.task t.serial = some t ∧ t.finished = some outcome ∧
        ((w.actor.applied t.id outcome).1.env.settleRuntimeCapacity
          (w.actor.applied t.id outcome).1.models).1 = .error err ∧
        msg = "global capacity reconciliation failed: " ++ err.display := by
  have hkept : ∀ {after : Actor G}, after.poisoned = w.actor.poisoned →
      after.poisoned ≠ some msg := by
    intro after hsame hmsg
    rw [hsame, hbefore] at hmsg
    cases hmsg
  cases h with
  | delivered t outcome htask hfinished hviolation hactive =>
    have happlied : (w.actor.applied t.id outcome).1.activeOp ≠ none :=
      Coherent.applied_active hactive
    have hconcluded := @conclude_concluded G _ _ t.id outcome.result happlied
    generalize ((w.actor.applied t.id outcome).1.conclude t.id none outcome.result).1 = after
      at hconcluded hafter
    cases hconcluded with
    | settled env hsettle =>
      exact absurd hafter (hkept Actor.SameBooks.applied.poisoned)
    | refused env err hsettle =>
      obtain rfl := Option.some.inj hafter
      exact ⟨t, outcome, err, rfl, htask, hfinished, by rw [hsettle], rfl⟩
  | chatted model permit after hchat =>
    obtain ⟨n, -, -, -, hsame⟩ := handleChat_ok hchat
    exact absurd hafter (hkept hsame)
  | chatEnded chat hknown =>
    obtain ⟨⟨state, n⟩, hslot⟩ := Option.isSome_iff_exists.mp hknown
    exact absurd hafter (hkept (chatDone_turn hslot).2.1)
  | _ => exact absurd hafter (hkept rfl)

/-- The turns of a state that can poison the actor, and those that cannot. -/
structure PoisonDiscipline (w : World G) : Prop where
  origin : w.actor.poisoned = none → ∀ event msg, (w.step event).actor.poisoned = some msg →
    ∃ task outcome tracking err, event = .opDone task.serial ∧ w.task task.serial = some task ∧
      task.finished = some outcome ∧
      (w.actor.applied task.id outcome).1.env.runtimeCapacity = some tracking ∧
      (w.actor.applied task.id outcome).1.env.Irreconcilable
        (w.actor.applied task.id outcome).1.models tracking err ∧
      msg = "global capacity reconciliation failed: " ++ err.display
  untracked : w.actor.env.runtimeCapacity = none → w.actor.poisoned = none →
    ∀ event, (w.step event).actor.poisoned = none

theorem Coherent.poisonDiscipline [LawfulGigabytes G] (h : Coherent w)
    (hagrees : w.actor.env.ClaimAgrees) : PoisonDiscipline w := by
  have horigin : w.actor.poisoned = none → ∀ event msg,
      (w.step event).actor.poisoned = some msg →
      ∃ task outcome tracking err, event = .opDone task.serial ∧ w.task task.serial = some task ∧
        task.finished = some outcome ∧
        (w.actor.applied task.id outcome).1.env.runtimeCapacity = some tracking ∧
        (w.actor.applied task.id outcome).1.env.Irreconcilable
          (w.actor.applied task.id outcome).1.models tracking err ∧
        msg = "global capacity reconciliation failed: " ++ err.display := by
    intro hbefore event msg hafter
    obtain ⟨task, outcome, err, hevent, htask, hfinished, hsettle, hmsg⟩ :=
      (h.turn event).poisons hbefore hafter
    have hsame := Actor.SameBooks.runtimeCapacity
      (@Actor.SameBooks.applied G _ w.actor task.id outcome)
    have hreported : (w.actor.applied task.id outcome).1.env.ClaimAgrees := by
      intro tracking htracking
      rw [hsame] at htracking
      exact hagrees tracking htracking
    have hsettlement := settleRuntimeCapacity_settlement (w.actor.applied task.id outcome).1.env
      (w.actor.applied task.id outcome).1.models
    rw [hsettle] at hsettlement
    obtain ⟨tracking, htracking, hfails⟩ := hsettlement.irreconcilable hreported
    exact ⟨task, outcome, tracking, err, hevent, htask, hfinished, htracking, hfails, hmsg⟩
  refine ⟨horigin, fun hnone hbefore event => ?_⟩
  cases hafter : (w.step event).actor.poisoned with
  | none => rfl
  | some msg =>
    obtain ⟨task, outcome, tracking, err, -, -, -, htracking, -⟩ := horigin hbefore event msg hafter
    rw [Actor.SameBooks.applied.runtimeCapacity, hnone] at htracking
    cases htracking

/-- In every run only a failing reconciliation poisons the actor. -/
theorem poison_discipline [LawfulGigabytes G] (boot : Boot G) (host : Host)
    (events : List (Event G)) : PoisonDiscipline ((boot.world host).run events) := by
  have hcoherent := coherent_run boot host events
  by_cases hobserved : boot.Observed
  · exact hcoherent.poisonDiscipline
      ((coherent_start boot host).agrees_run (hobserved.agrees host.marker) events)
  · have hidle : ((boot.world host).run events).tasks = [] :=
      (World.run_inert rfl rfl (Boot.startupError_of_not_observed hobserved host.marker) events).1
    have hnever : ∀ event msg, ((boot.world host).run events).actor.poisoned = none →
        (((boot.world host).run events).step event).actor.poisoned ≠ some msg := by
      intro event msg hbefore hafter
      obtain ⟨task, outcome, err, -, htask, -⟩ := (hcoherent.turn event).poisons hbefore hafter
      have hmem := (World.task_mem htask).1
      rw [hidle] at hmem
      cases hmem
    exact {
      origin := fun hbefore event msg hafter => absurd hafter (hnever event msg hbefore)
      untracked := fun _ hbefore event =>
        Option.eq_none_iff_forall_not_mem.mpr fun msg => hnever event msg hbefore }

section Samples

/-- Two models of 3 GB and 1 GB are loaded, the second is unloaded, and the engine then shows
3 GB without naming the first. -/
def unlistedResidency : List (Event Int) :=
  [loadOf "a" (Gigabytes.ofGb 3)] ++ answered 0 (List.replicate 3 (obliging 0 [])) ++ [.opDone 0] ++
  [loadOf "b" (Gigabytes.ofGb 1)] ++ answered 1 (List.replicate 3 (obliging 0 [])) ++ [.opDone 1] ++
  [.unload "b"] ++ answered 2 (List.replicate 2 (obliging (Gigabytes.ofGb 3) [])) ++ [.opDone 2]

/-- A status the checks accept can poison the actor. -/
theorem engine_poisons : ¬ ∀ (boot : Boot Int) (host : Host) (events : List (Event Int)),
    boot.Observed → ((boot.world host).run events).actor.poisoned = none := by
  intro h
  have hpoisoned : ((idleBoot Keyed.Map.empty).world freshHost |>.run unlistedResidency).actor.poisoned =
      some ("global capacity reconciliation failed: internal invariant violated: " ++
        "runtime capacity exceeded its admitted global claim") := by decide +kernel
  rw [h (idleBoot Keyed.Map.empty) freshHost unlistedResidency idleBoot_observed] at hpoisoned
  cases hpoisoned

theorem poison_discipline_unlistedResidency :
    PoisonDiscipline (((idleBoot Keyed.Map.empty).world freshHost).run unlistedResidency) :=
  poison_discipline (idleBoot Keyed.Map.empty) freshHost unlistedResidency

end Samples

end Supervisor
