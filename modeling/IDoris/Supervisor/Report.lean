import IDoris.Supervisor.Coherence

/-!
# What the report of an operation does

The actor applies the report to its slots, releases the mutex and reconciles its
claim. This module names the state in between and says what each part changes.
-/
namespace Supervisor

variable {G : Type}

def OpOutcome.result : OpOutcome G → Except BackendError Unit
  | .load result _ _ _ _ => result
  | .unload result _ => result

/-- The parts of an actor that applying a report does not touch. -/
structure Actor.SameBooks (before after : Actor G) : Prop where
  runtimeCapacity : after.env.runtimeCapacity = before.env.runtimeCapacity
  config : after.env.config = before.env.config
  startupError : after.env.startupError = before.env.startupError
  activeOp : after.activeOp = before.activeOp
  poisoned : after.poisoned = before.poisoned

namespace Actor.SameBooks

variable {actor : Actor G} {id : String}

theorem trans {first second third : Actor G} (h : first.SameBooks second)
    (h' : second.SameBooks third) : first.SameBooks third :=
  ⟨h'.runtimeCapacity.trans h.runtimeCapacity, h'.config.trans h.config,
    h'.startupError.trans h.startupError, h'.activeOp.trans h.activeOp,
    h'.poisoned.trans h.poisoned⟩

theorem onSlot {missing : String} {f : ModelSlot G → ModelSlot G} :
    actor.SameBooks (actor.onSlot id missing f).1 := by
  unfold Actor.onSlot
  split <;> exact ⟨rfl, rfl, rfl, rfl, rfl⟩

theorem settleState {state : ModelState} : actor.SameBooks (actor.settleState id state).1 := by
  unfold Actor.settleState
  split <;> exact ⟨rfl, rfl, rfl, rfl, rfl⟩

end Actor.SameBooks

variable [Gigabytes G] {actor : Actor G} {id : String} {result : Except BackendError Unit}
  {outcome : OpOutcome G}

/-- The state before the reconciliation, and what the ledger of models lost. -/
def Actor.applied (actor : Actor G) (id : String) : OpOutcome G → Actor G × Option String
  | .load result victimResults aggregateStatus creditGb failure =>
    match applyVictims actor.models victimResults with
    | (models, some violation) => ({ actor with models := models }, some violation)
    | (models, none) => (({ actor with models := models }).refresh aggregateStatus (some id)
        creditGb).applyResult id result .ready failure
  | .unload result status =>
    let (actor, violation) := actor.applyResult id result .stopped (.settle .error)
    (actor.refresh status none Gigabytes.zero, violation)

theorem opDone_eq (actor : Actor G) (id : String) (outcome : OpOutcome G) :
    opDone actor id outcome =
      (actor.applied id outcome).1.conclude id (actor.applied id outcome).2 outcome.result := by
  cases outcome with
  | load result victimResults aggregateStatus creditGb failure =>
    simp only [opDone, Actor.applied, OpOutcome.result]
    cases hviolation : (applyVictims actor.models victimResults).2 with
    | some violation =>
      have hpair : applyVictims actor.models victimResults =
          ((applyVictims actor.models victimResults).1, some violation) := Prod.ext rfl hviolation
      rw [hpair]
    | none =>
      have hpair : applyVictims actor.models victimResults =
          ((applyVictims actor.models victimResults).1, none) := Prod.ext rfl hviolation
      rw [hpair]
  | unload result status => rfl

section Conclusion

/-- How the reconciliation of a report without violation ends. -/
inductive Concluded (actor : Actor G) : Actor G → Prop where
  | settled (env : Env G) (h : actor.env.settleRuntimeCapacity actor.models = (.ok (), env)) :
      Concluded actor { actor with activeOp := none, env := env }
  | refused (env : Env G) (err : BackendError)
      (h : actor.env.settleRuntimeCapacity actor.models = (.error err, env)) :
      Concluded actor { actor with
        activeOp := none
        env := env
        poisoned := some ("global capacity reconciliation failed: " ++ err.display) }

theorem conclude_concluded (h : actor.activeOp ≠ none) :
    Concluded actor (actor.conclude id none result).1 := by
  have hactive : actor.activeOp.isNone = false := by
    cases hop : actor.activeOp with
    | none => exact absurd hop h
    | some op => rfl
  simp only [Actor.conclude, hactive, Bool.false_eq_true, if_false]
  cases hsettle : actor.env.settleRuntimeCapacity actor.models with
  | mk verdict env =>
    cases verdict with
    | ok => exact .settled env hsettle
    | error err => exact .refused env err hsettle

end Conclusion

section Env

namespace Actor.SameBooks

theorem refresh {status : Option (BackendStatus G)} {excludedId : Option String} {creditGb : G} :
    actor.SameBooks (actor.refresh status excludedId creditGb) := by
  cases status <;> exact ⟨rfl, rfl, rfl, rfl, rfl⟩

theorem applyFailure {failure : LoadFailureOutcome G} :
    actor.SameBooks (actor.applyFailure id failure).1 := by
  cases failure with
  | settle state => exact settleState
  | settleReleased status =>
    have hstate : actor.SameBooks (actor.settleState id .stopped).1 := settleState
    simp only [Actor.applyFailure]
    split
    · rename_i after hafter
      rw [hafter] at hstate
      exact hstate.trans ⟨rfl, rfl, rfl, rfl, rfl⟩
    · rename_i after violation hafter
      rw [hafter] at hstate
      exact hstate
  | restorePrevious previous => exact onSlot
  | retainPreviousOnError previous => exact onSlot
  | retainUnconfirmedLoad previous => exact onSlot

theorem applyResult {doneState : ModelState} {failure : LoadFailureOutcome G} :
    actor.SameBooks (actor.applyResult id result doneState failure).1 := by
  cases result with
  | error err => exact applyFailure
  | ok =>
    have hseq : actor.SameBooks { actor with nextSeq := actor.nextSeq + 1 } :=
      ⟨rfl, rfl, rfl, rfl, rfl⟩
    exact hseq.trans onSlot

theorem applied : actor.SameBooks (actor.applied id outcome).1 := by
  cases outcome with
  | load result victimResults aggregateStatus creditGb failure =>
    simp only [Actor.applied]
    split
    · exact ⟨rfl, rfl, rfl, rfl, rfl⟩
    · rename_i models _
      have hmodels : actor.SameBooks { actor with models := models } := ⟨rfl, rfl, rfl, rfl, rfl⟩
      exact hmodels.trans (refresh.trans applyResult)
  | unload result status =>
    have hresult : actor.SameBooks (actor.applyResult id result .stopped (.settle .error)).1 :=
      applyResult
    exact hresult.trans refresh

end Actor.SameBooks

end Env

section Fits

variable {evict : List String}

/-- A report that fits its operation names no slot the actor has lost. -/
theorem applied_violation (hfits : outcome.Fits evict)
    (hid : (slotView actor.models id).isSome = true)
    (hvictims : ∀ v ∈ evict, (slotView actor.models v).isSome = true) :
    (actor.applied id outcome).2 = none := by
  cases outcome with
  | load result victimResults aggregateStatus creditGb failure =>
    obtain ⟨rfl, hf⟩ := hfits
    obtain ⟨hnone, hsettles⟩ := applyVictims_settles hvictims
    have hpair : applyVictims actor.models victimResults =
        ((applyVictims actor.models victimResults).1, none) := Prod.ext rfl hnone
    simp only [Actor.applied]
    rw [hpair]
    apply (applyResult_settles _ rfl hf).1
    rw [refresh_models]
    exact hsettles.known.trans hid
  | unload result status => exact (applyResult_settles hid rfl rfl).1

end Fits

end Supervisor
