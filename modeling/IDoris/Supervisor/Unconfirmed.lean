import IDoris.Supervisor.Inflight
import IDoris.Supervisor.Release

/-!
# A load that stays unconfirmed

Its slot keeps its charge for good: no plan takes it as a victim, no command reaches the
adapter for it, and the claim of the process does not shrink below it.
-/
namespace Supervisor

open Transaction

variable {G : Type}

section Slots

variable {models : Models G} {actor : Actor G} {id j : String} {state : ModelState}

theorem get_setStateOrPoison_of_ne {models' : Models G} (hne : j ≠ id)
    (h : models.setStateOrPoison id state = .ok models') : models'.get j = models.get j := by
  unfold Models.setStateOrPoison at h
  split at h
  · cases h
    exact Keyed.Map.get_modify_of_ne (Ne.symm hne)
  · cases h

theorem get_applyVictims_of_notMem {results : List VictimResult} (h : j ∉ results.map Prod.fst) :
    (applyVictims models results).1.get j = models.get j := by
  induction results generalizing models with
  | nil => rfl
  | cons head rest ih =>
    obtain ⟨victim, result⟩ := head
    simp only [List.map_cons, List.mem_cons, not_or] at h
    unfold applyVictims
    split
    · rename_i models' hset
      rw [ih h.2, get_setStateOrPoison_of_ne h.1 hset]
    · rfl

theorem get_onSlot_of_ne {missing : String} {f : ModelSlot G → ModelSlot G} (hne : j ≠ id) :
    (actor.onSlot id missing f).1.models.get j = actor.models.get j := by
  unfold Actor.onSlot
  split
  · exact Keyed.Map.get_modify_of_ne (Ne.symm hne)
  · rfl

theorem get_settleState_of_ne (hne : j ≠ id) :
    (actor.settleState id state).1.models.get j = actor.models.get j := by
  unfold Actor.settleState
  split
  · rename_i models' hset
    exact get_setStateOrPoison_of_ne hne hset
  · rfl

variable [Gigabytes G]

theorem get_applyFailure_of_ne {failure : LoadFailureOutcome G} (hne : j ≠ id) :
    (actor.applyFailure id failure).1.models.get j = actor.models.get j := by
  cases failure with
  | settle state => exact get_settleState_of_ne hne
  | settleReleased status =>
    have hstate : (actor.settleState id .stopped).1.models.get j = actor.models.get j :=
      get_settleState_of_ne hne
    simp only [Actor.applyFailure]
    split
    · rename_i after hafter
      rw [hafter] at hstate
      exact hstate
    · rename_i after violation hafter
      rw [hafter] at hstate
      exact hstate
  | restorePrevious previous => exact get_onSlot_of_ne hne
  | retainPreviousOnError previous => exact get_onSlot_of_ne hne
  | retainUnconfirmedLoad previous => exact get_onSlot_of_ne hne

/-- A report touches its target and its victims only. -/
theorem get_applied_of_ne {outcome : OpOutcome G} {evict : List String} (hfits : outcome.Fits evict)
    (hne : j ≠ id) (hspared : j ∉ evict) :
    (actor.applied id outcome).1.models.get j = actor.models.get j := by
  cases outcome with
  | load result results status creditGb failure =>
    obtain ⟨rfl, -⟩ := hfits
    have hvictims : (applyVictims actor.models results).1.get j = actor.models.get j :=
      get_applyVictims_of_notMem hspared
    simp only [Actor.applied]
    split
    · rename_i models violation hresults
      rw [hresults] at hvictims
      exact hvictims
    · rename_i models hresults
      rw [hresults] at hvictims
      cases result with
      | ok =>
        simp only [Actor.applyResult, get_onSlot_of_ne hne, refresh_models]
        exact hvictims
      | error err =>
        simp only [Actor.applyResult, get_applyFailure_of_ne hne, refresh_models]
        exact hvictims
  | unload result status =>
    simp only [Actor.applied, refresh_models]
    cases result with
    | ok => exact get_onSlot_of_ne hne
    | error err => exact get_settleState_of_ne hne

end Slots

/-- The slot is in `Error`, is charged for a load that may still run, and no operation works
on it. -/
structure Actor.Pins (actor : Actor G) (id : String) (gb : G) (charge : CapacityCharge) : Prop where
  state : ∃ n, slotView actor.models id = some (.error, n)
  holding : holdingView actor.models id = some (gb, charge, true)
  spared : ∀ op, actor.activeOp = some op → op.id ≠ id

section Screens

variable {models : Models G} {actor : Actor G} {id : String} {gb : G} {charge : CapacityCharge}

theorem holding_eq_some (h : holdingView models id = some (gb, charge, true)) :
    ∃ slot, models.get id = some slot ∧ slot.loadUnconfirmed = true := by
  obtain ⟨slot, hslot, hholding⟩ := Option.map_eq_some_iff.mp h
  exact ⟨slot, hslot, congrArg (fun v => v.2.2) hholding⟩

theorem Actor.Pins.screenUnload (h : actor.Pins id gb charge) :
    screenUnload actor id ≠ .admitted := by
  intro hscreen
  obtain ⟨slot, hslot, hunconfirmed⟩ := holding_eq_some h.holding
  obtain ⟨n, hview⟩ := h.state
  have hstate : slot.state = .error := by
    simp only [slotView, hslot, Option.map_some, Option.some.injEq] at hview
    exact congrArg Prod.fst hview
  have hslotScreen : screenUnloadSlot actor id ≠ .admitted := by
    simp [screenUnloadSlot, hslot, hstate, hunconfirmed]
  unfold Supervisor.screenUnload at hscreen
  split at hscreen
  · split at hscreen
    · split at hscreen <;> cases hscreen
    · exact hslotScreen hscreen
  · exact hslotScreen hscreen

theorem Actor.Pins.congr {actor after : Actor G} (h : actor.Pins id gb charge)
    (hstate : (slotView after.models id).map Prod.fst = (slotView actor.models id).map Prod.fst)
    (hholding : holdingView after.models id = holdingView actor.models id)
    (hspared : ∀ op, after.activeOp = some op → op.id ≠ id) : after.Pins id gb charge where
  state := by
    obtain ⟨n, hview⟩ := h.state
    rw [hview, Option.map_some] at hstate
    obtain ⟨⟨state, m⟩, hafter, rfl⟩ := Option.map_eq_some_iff.mp hstate
    exact ⟨m, hafter⟩
  holding := hholding.trans h.holding
  spared := hspared

theorem Actor.Pins.unconfirmed (h : actor.Pins id gb charge) :
    actor.models.unconfirmed = true := by
  obtain ⟨slot, hslot, hunconfirmed⟩ := holding_eq_some h.holding
  exact List.any_eq_true.mpr
    ⟨slot, List.mem_map.mpr ⟨(id, slot), Keyed.Map.mem_entries.mpr hslot, rfl⟩, hunconfirmed⟩

variable [Gigabytes G]

theorem Actor.Pins.screenLoad {req : LoadRequest G} (h : actor.Pins id gb charge)
    (hscreen : screenLoad actor req = .admitted) : req.id ≠ id := by
  rintro rfl
  obtain ⟨slot, hslot, hunconfirmed⟩ := holding_eq_some h.holding
  have hslotScreen : screenLoadSlot actor req ≠ .admitted := by
    simp [screenLoadSlot, hslot, hunconfirmed]
  unfold Supervisor.screenLoad at hscreen
  split at hscreen
  · cases hscreen
  · split at hscreen
    · exact hslotScreen hscreen
    · split at hscreen
      · simp only at hscreen
        split at hscreen
        · split at hscreen
          · split at hscreen <;> cases hscreen
          · cases hscreen
        · cases hscreen
      · exact hslotScreen hscreen

/-- No plan takes the slot as a victim. -/
theorem planLoad_spares {env : Env G} {req : LoadRequest G} {plan : LoadPlan G}
    (h : holdingView models id = some (gb, charge, true))
    (hplan : planLoad env models req = .ok plan) : id ∉ plan.evict := by
  intro hmem
  simp only [planLoad, bind_eq_ok] at hplan
  obtain ⟨-, -, evict, hchosen, charges, -, hplan⟩ := hplan
  cases hplan
  unfold chosenVictims at hchosen
  split at hchosen
  · cases hchosen
    cases hmem
  · rename_i victims hvictims
    cases hchosen
    obtain ⟨m, hm, rfl, hevictable⟩ := planEviction_evict hvictims id hmem
    obtain ⟨slot', hslot', hunconfirmed⟩ := holding_eq_some h
    obtain ⟨-, slot, hslot, -, -, hpinned⟩ := Models.buildSnapshot_mem hm
    rw [← Option.some.inj (hslot.symm.trans hslot')] at hunconfirmed
    obtain ⟨-, hfree, -⟩ := ModelEntry.evictable_iff.mp hevictable
    rw [hpinned hunconfirmed] at hfree
    cases hfree
  · cases hchosen

end Screens

section Steps

variable [Gigabytes G] {w : World G} {event : Event G} {id : String} {gb : G}
  {charge : CapacityCharge}

theorem Coherent.spares (h : Coherent w) (hpins : w.actor.Pins id gb charge) {t : OpTask G}
    (ht : t ∈ w.tasks) : t.id ≠ id ∧ id ∉ t.evict := by
  obtain ⟨-, op, hactive, -, hworks, -, hvictims, -⟩ := h.stage.of_task ht
  constructor
  · rw [hworks.id]
    exact hpins.spared op hactive
  · intro hevict
    obtain ⟨n, hstate⟩ := hpins.state
    rw [(hvictims id hevict).2] at hstate
    cases hstate

/-- Every event leaves the slot pinned. -/
theorem Coherent.pins (h : Coherent w) (hpins : w.actor.Pins id gb charge) (event : Event G) :
    (w.step event).actor.Pins id gb charge := by
  have hturn := h.turn event
  generalize (w.step event).actor = after at hturn
  cases hturn with
  | stays => exact hpins
  | joined _ caller =>
    refine hpins.congr rfl rfl fun op hop => ?_
    obtain ⟨old, hold, rfl⟩ := Option.map_eq_some_iff.mp hop
    exact hpins.spared old hold
  | loading req faults plan env hpoisoned hscreen hplan hclaim htasks =>
    have hne := hpins.screenLoad hscreen
    have hspared := planLoad_spares hpins.holding hplan
    have hview : slotView (installLoad { w.actor with env := env } w.nextSerial w.callers.length req
        plan).1.models id = slotView w.actor.models id := by
      rw [installLoad_view, if_neg (Ne.symm hne), if_neg hspared]
    refine hpins.congr (congrArg _ hview) ?_ fun op hop => ?_
    · apply (World.Turn.loading req faults plan env hpoisoned hscreen hplan hclaim htasks).holding
      · intro other faults' hevent _
        cases hevent
        exact hne
      · exact fun _ => nofun
    · cases hop
      exact hne
  | stopping target hpoisoned hscreen =>
    have hne : target ≠ id := by
      rintro rfl
      exact hpins.screenUnload hscreen
    refine hpins.congr ?_ holding_setState fun op hop => ?_
    · simp only [installUnload, view_setState, if_neg hne]
    · cases hop
      exact hne
  | chatted model permit after hchat =>
    obtain ⟨n, hready, hview, hactive, -⟩ := handleChat_ok hchat
    have hne : model ≠ id := by
      rintro rfl
      obtain ⟨m, hstate⟩ := hpins.state
      rw [hstate] at hready
      cases hready
    refine hpins.congr ?_ (handleChat_holding hchat) fun op hop => ?_
    · rw [hview, if_neg hne]
    · rw [hactive] at hop
      exact hpins.spared op hop
  | chatEnded chat hknown =>
    obtain ⟨⟨state, n⟩, hslot⟩ := Option.isSome_iff_exists.mp hknown
    obtain ⟨hview, -, hactive⟩ := chatDone_turn hslot
    refine hpins.congr ?_ chatDone_holding fun op hop => ?_
    · rw [hview]
      split <;> simp [Function.comp_def]
    · obtain ⟨hsame, -⟩ | ⟨serial, waiters, limit, hold, -, hnew, -⟩ := hactive
      · rw [hsame] at hop
        exact hpins.spared op hop
      · rw [hnew] at hop
        cases hop
        have hne := hpins.spared _ hold
        exact hne
  | delivered t outcome htask hfinished =>
    have hmem := (World.task_mem htask).1
    obtain ⟨-, op, -, -, hworks, -⟩ := h.stage.of_task hmem
    obtain ⟨hne, hspared⟩ := h.spares hpins hmem
    have hget : (w.actor.applied t.id outcome).1.models.get id = w.actor.models.get id :=
      get_applied_of_ne (OpTask.finished_fits hworks.conforms hfinished) hne.symm hspared
    refine hpins.congr ?_ ?_ fun op hop => ?_
    · rw [conclude_models, slotView, hget, slotView]
    · rw [conclude_models, holdingView, hget, holdingView]
    · rw [conclude_activeOp] at hop
      cases hop
  | rehashedModels n => exact hpins.congr (by simp) (by simp) hpins.spared
  | rehashedCovered n => exact hpins.congr rfl rfl hpins.spared
  | peer key allocation t => exact hpins.congr rfl rfl hpins.spared

/-- While a load is unconfirmed no event shrinks the claim. -/
theorem World.Turn.claim_grows [LawfulGigabytes G] {after : Actor G}
    {t : StartupCapacityTracking G} (h : w.Turn event after)
    (hunconfirmed : after.models.unconfirmed = true) (ht : w.actor.env.runtimeCapacity = some t)
    (hagrees : t.Agrees) : ∃ t', after.env.runtimeCapacity = some t' ∧ t.Grows t' := by
  have hsame : ∃ t', w.actor.env.runtimeCapacity = some t' ∧ t.Grows t' := ⟨t, ht, .refl hagrees⟩
  cases h with
  | stays => exact hsame
  | joined => exact hsame
  | loading req faults plan env _ _ _ hclaim => exact claimRuntimeCapacity_grows ht hagrees hclaim
  | stopping => exact hsame
  | chatted model permit after hchat =>
    rw [handleChat_env hchat]
    exact hsame
  | chatEnded chat =>
    rw [chatDone_env]
    exact hsame
  | delivered task outcome _ _ _ hactive =>
    rw [conclude_models] at hunconfirmed
    rw [conclude_env (Coherent.applied_active hactive)]
    have hbefore : (w.actor.applied task.id outcome).1.env.runtimeCapacity = some t := by
      rw [Actor.SameBooks.applied.runtimeCapacity]
      exact ht
    exact (settleRuntimeCapacity_settlement _ _).grows hunconfirmed hbefore hagrees
  | rehashedModels => exact hsame
  | rehashedCovered => exact hsame
  | peer key allocation other hother =>
    obtain rfl := Option.some.inj (ht.symm.trans hother)
    have hrefl : t.Grows t := .refl hagrees
    exact ⟨_, rfl, hrefl.exact, hrefl.estimate⟩

end Steps

section Calls

/-- The entry is a load or unload call for the model. -/
def JournalEntry.calls (id : String) : JournalEntry → Bool
  | .loadStarted target _ => target = id
  | .unloadStarted target _ => target = id
  | _ => false

/-- The load and unload calls for the model that have reached the adapter. -/
def World.calls (w : World G) (id : String) : List JournalEntry := w.journal.filter (·.calls id)

variable {w : World G} {id : String} {gb : G} {charge : CapacityCharge}

theorem World.calls_eq {w' : World G} {extra : List JournalEntry}
    (h : w'.journal = w.journal ++ extra) (hextra : ∀ e ∈ extra, e.calls id = false) :
    w'.calls id = w.calls id := by
  have hnone : extra.filter (·.calls id) = [] := by
    rw [List.filter_eq_nil_iff]
    intro e he
    rw [hextra e he]
    exact Bool.false_ne_true
  rw [World.calls, h, List.filter_append, hnone, List.append_nil]
  rfl

variable [Gigabytes G]

theorem Coherent.journalOf_calls (h : Coherent w) (hpins : w.actor.Pins id gb charge)
    {t : OpTask G} {serial : Nat} {op : Effect} (ht : w.task serial = some t)
    (hp : t.pending = some op) : ∀ e ∈ w.journalOf op, e.calls id = false := by
  obtain ⟨hmem, -⟩ := World.task_mem ht
  obtain ⟨-, active, -, -, hworks, -⟩ := h.stage.of_task hmem
  obtain ⟨phase, hallowed⟩ := hworks.conforms.pending_allowed hp
  obtain ⟨htarget, hspared⟩ := h.spares hpins hmem
  cases op with
  | unload target =>
    intro e he
    rw [List.mem_singleton.mp he]
    apply decide_eq_false
    rintro rfl
    obtain heq | hmem := hallowed
    · exact htarget heq.symm
    · exact hspared hmem
  | load target policy =>
    intro e he
    rw [List.mem_singleton.mp he]
    apply decide_eq_false
    rintro rfl
    exact htarget hallowed.1.symm
  | status => exact nofun
  | probeReady target => exact nofun
  | clearFence => exact nofun

/-- No event brings a call for a pinned slot. -/
theorem Coherent.calls_kept (h : Coherent w) (hpins : w.actor.Pins id gb charge)
    (event : Event G) : (w.step event).calls id = w.calls id := by
  cases event with
  | load req faults =>
    simp only [World.step]
    rcases w.load_turn req faults with ⟨err, hload⟩ | ⟨-, handled, -, hload⟩
    · rw [hload]
      rfl
    · rw [hload]
      refine World.calls_eq World.apply_journal fun e he => ?_
      obtain ⟨t, -, rfl⟩ := List.mem_map.mp he
      rfl
  | unload target =>
    simp only [World.step]
    rcases w.unload_turn target with ⟨err, hunload⟩ | ⟨-, handled, -, hunload⟩
    · rw [hunload]
      rfl
    · rw [hunload]
      exact congrArg _ World.apply_journal
  | chat model permit =>
    simp only [World.step, World.chat]
    split
    · rfl
    · split
      · rfl
      · refine World.calls_eq rfl fun e he => ?_
        rw [List.mem_singleton.mp he]
        rfl
  | issue serial =>
    simp only [World.step, World.issue]
    split
    · rfl
    · rename_i t ht
      split
      · rfl
      · rename_i op hp
        exact World.calls_eq rfl (h.journalOf_calls hpins ht hp)
  | respond serial r =>
    simp only [World.step, World.respond]
    split <;> rfl
  | panic serial message =>
    simp only [World.step, World.panic]
    split <;> rfl
  | opDone serial =>
    simp only [World.step, World.opDone]
    split
    · rfl
    · split <;> rfl
  | chatReturns chat result =>
    simp only [World.step, World.chatReturns]
    split <;> rfl
  | chatDone chat =>
    simp only [World.step, World.chatDone]
    split
    · split <;> rfl
    · rfl
  | rehashModels n => rfl
  | rehashCovered n => rfl
  | peer key allocation =>
    simp only [World.step, World.peer]
    split
    · rfl
    · split <;> rfl

end Calls

section Runs

/-- The load settles as one that may still run. -/
def OpOutcome.retains : OpOutcome G → Bool
  | .load (.error _) _ _ _ (.retainUnconfirmedLoad _) => true
  | _ => false

theorem OpOutcome.retains_eq_true {outcome : OpOutcome G} (h : outcome.retains = true) :
    ∃ err results status creditGb kept,
      outcome = .load (.error err) results status creditGb (.retainUnconfirmedLoad kept) := by
  unfold OpOutcome.retains at h
  split at h
  · exact ⟨_, _, _, _, _, rfl⟩
  · cases h

variable [Gigabytes G]

/-- A later state `w` of a slot whose load was unconfirmed in `w₀`. -/
structure Retained (w₀ w : World G) (id : String) (gb : G) (charge : CapacityCharge) : Prop where
  pins : w.actor.Pins id gb charge
  unplanned : ∀ req plan, planLoad w.actor.env w.actor.models req = .ok plan → id ∉ plan.evict
  unworked : ∀ t ∈ w.tasks, t.id ≠ id ∧ id ∉ t.evict
  uncalled : w.calls id = w₀.calls id
  claim : ∀ t, w₀.actor.env.runtimeCapacity = some t →
    ∃ t', w.actor.env.runtimeCapacity = some t' ∧ t.Grows t' ∧ t'.Agrees

variable {w₀ w : World G} {id : String} {gb : G} {charge : CapacityCharge}

theorem Retained.step [LawfulGigabytes G] (h : Coherent w) (hretained : Retained w₀ w id gb charge)
    (event : Event G) : Retained w₀ (w.step event) id gb charge := by
  have hpins := h.pins hretained.pins event
  refine ⟨hpins, fun req plan => planLoad_spares hpins.holding, fun t => (h.step event).spares hpins,
    (h.calls_kept hretained.pins event).trans hretained.uncalled, fun t ht => ?_⟩
  obtain ⟨middle, hmiddle, hgrows, hagrees⟩ := hretained.claim t ht
  obtain ⟨after, hafter, hgrows'⟩ := (h.turn event).claim_grows hpins.unconfirmed hmiddle hagrees
  have hclaim : w.actor.env.ClaimAgrees := fun other hother => by
    rw [hmiddle] at hother
    cases hother
    exact hagrees
  exact ⟨after, hafter, hgrows.trans hgrows', (h.turn event).agrees hclaim after hafter⟩

/-- Once retained, for ever retained. -/
theorem Retained.run [LawfulGigabytes G] (h : Coherent w) (hretained : Retained w₀ w id gb charge)
    (later : List (Event G)) : Retained w₀ (w.run later) id gb charge := by
  induction later generalizing w with
  | nil => exact hretained
  | cons event rest ih => exact ih (h.step event) (hretained.step h event)

/-- A retained slot is retained from now on, by the claim of now. -/
theorem Retained.since [LawfulGigabytes G] (h : Retained w₀ w id gb charge)
    (hagrees : w.actor.env.ClaimAgrees) : Retained w w id gb charge :=
  { h with
    uncalled := rfl
    claim := fun t ht => ⟨t, ht, .refl (hagrees t ht), hagrees t ht⟩ }

/-- The report of operation `serial`, once it has ended. -/
def World.report (w : World G) (serial : Nat) : Option (OpOutcome G) :=
  (w.task serial).bind OpTask.finished

/-- The larger of the failed request's memory and that of the instance that is kept. -/
def retainedGb (gb : G) (kept : Option (PreviousModel G)) : G :=
  kept.elim gb fun previous => Gigabytes.max gb previous.memoryGb

def retainedCharge (charge : CapacityCharge) (kept : Option (PreviousModel G)) : CapacityCharge :=
  kept.elim charge fun previous => charge.max previous.charge

theorem retainUnconfirmed_holding (slot : ModelSlot G) (kept : Option (PreviousModel G)) :
    (slot.retainUnconfirmed kept).holding =
      (retainedGb slot.memoryGb kept, retainedCharge slot.charge kept, true) := by
  cases kept <;> rfl

/-- What the report makes of its slot. -/
theorem get_applied_retained {actor : Actor G} {slot : ModelSlot G} {err : BackendError}
    {results : List VictimResult} {status : Option (BackendStatus G)} {creditGb : G}
    {kept : Option (PreviousModel G)} (hslot : actor.models.get id = some slot)
    (hspared : id ∉ results.map Prod.fst)
    (hviolation : (actor.applied id (.load (.error err) results status creditGb
      (.retainUnconfirmedLoad kept))).2 = none) :
    (actor.applied id (.load (.error err) results status creditGb
      (.retainUnconfirmedLoad kept))).1.models.get id = some (slot.retainUnconfirmed kept) := by
  have hvictims : (applyVictims actor.models results).1.get id = some slot := by
    rw [get_applyVictims_of_notMem hspared, hslot]
  simp only [Actor.applied] at hviolation ⊢
  split at hviolation
  · cases hviolation
  · rename_i models hresults
    rw [hresults] at hvictims
    simp only [Actor.applyResult, Actor.applyFailure, Actor.onSlot, refresh_models, hvictims]
    exact Keyed.Map.get_modify_of_some hvictims

/-- A load that settles as unconfirmed pins its slot. -/
theorem Coherent.settles_pinned {t : OpTask G} {serial : Nat} {err : BackendError}
    {results : List VictimResult} {status : Option (BackendStatus G)} {creditGb : G}
    {kept : Option (PreviousModel G)} (h : Coherent w) (ht : w.task serial = some t)
    (hfinished : t.finished =
      some (.load (.error err) results status creditGb (.retainUnconfirmedLoad kept)))
    (hholding : holdingView w.actor.models t.id = some (gb, charge, false)) :
    (w.step (.opDone serial)).actor.Pins t.id (retainedGb gb kept) (retainedCharge charge kept) := by
  obtain ⟨-, -, hviolation, hdone⟩ := h.delivers ht hfinished
  obtain ⟨-, op, -, -, hworks, -, hvictims, -⟩ := h.stage.of_task (World.task_mem ht).1
  obtain ⟨hresults, -⟩ := OpTask.finished_fits hworks.conforms hfinished
  have hspared : t.id ∉ results.map Prod.fst := by
    rw [hresults, hworks.id]
    exact fun hmem => (hvictims _ hmem).1 rfl
  obtain ⟨slot, hslot, hheld⟩ := Option.map_eq_some_iff.mp hholding
  simp only [ModelSlot.holding, Prod.mk.injEq] at hheld
  obtain ⟨rfl, rfl, -⟩ := hheld
  have hget := get_applied_retained hslot hspared hviolation
  have hactor : (w.step (.opDone serial)).actor = _ := hdone
  rw [hactor]
  constructor
  · refine ⟨slot.inflight, ?_⟩
    rw [conclude_models, slotView, hget]
    cases kept <;> rfl
  · rw [conclude_models, holdingView, hget]
    exact congrArg some (retainUnconfirmed_holding slot kept)
  · intro op hop
    rw [conclude_activeOp] at hop
    cases hop

theorem World.opDone_calls (w : World G) (serial : Nat) (id : String) :
    (w.step (.opDone serial)).calls id = w.calls id := by
  simp only [World.step, World.opDone]
  split
  · rfl
  · split <;> rfl

/-- From the report on, the slot is retained. -/
theorem Coherent.retained [LawfulGigabytes G] (h : Coherent w) (hagrees : w.actor.env.ClaimAgrees)
    {serial : Nat} (hpins : (w.step (.opDone serial)).actor.Pins id gb charge)
    (later : List (Event G)) : Retained w ((w.step (.opDone serial)).run later) id gb charge := by
  have hafter := h.step (.opDone serial)
  apply Retained.run hafter
  refine ⟨hpins, fun req plan => planLoad_spares hpins.holding, fun t => hafter.spares hpins,
    w.opDone_calls serial id, fun t ht => ?_⟩
  obtain ⟨t', ht', hgrows⟩ := (h.turn (.opDone serial)).claim_grows hpins.unconfirmed ht
    (hagrees t ht)
  exact ⟨t', ht', hgrows, (h.turn (.opDone serial)).agrees hagrees t' ht'⟩

/-- Of any two states from the report on, the later one keeps what the earlier one has. -/
theorem Coherent.retained_between [LawfulGigabytes G] (h : Coherent w)
    (hagrees : w.actor.env.ClaimAgrees) {serial : Nat}
    (hpins : (w.step (.opDone serial)).actor.Pins id gb charge) (later rest : List (Event G)) :
    Retained ((w.step (.opDone serial)).run later) ((w.step (.opDone serial)).run (later ++ rest))
      id gb charge := by
  have hafter := h.step (.opDone serial)
  have hmiddle : Coherent ((w.step (.opDone serial)).run later) := hafter.run later
  have hreported : (w.step (.opDone serial)).actor.env.ClaimAgrees :=
    (h.turn (.opDone serial)).agrees hagrees
  rw [World.run_append]
  exact ((h.retained hagrees hpins later).since (hafter.agrees_run hreported later)).run hmiddle rest

/-- The operation that settles so is a load, and keeps the instance it found unless that was
shown gone. -/
theorem World.Starts.retains {start : Event G} {first t : OpTask G} {trace : List (Call G)}
    {outcome : OpOutcome G} (h : w.Starts start first) (hfollows : first.Follows t trace)
    (hfinished : t.finished = some outcome) (hretains : outcome.retains = true) :
    ∃ req faults plan kept err results status creditGb, start = .load req faults ∧
      t.id = req.id ∧ planLoad w.actor.env w.actor.models req = .ok plan ∧
      Kept (previousOf w.actor.models req.id) trace req.id
        (w.contextOf start req plan.evict).releaseLimits.targetAbsentGb kept ∧
      outcome = .load (.error err) results status creditGb (.retainUnconfirmedLoad kept) ∧
      holdingView (w.step start).actor.models req.id =
        some (if plan.inherited then plan.requestCharge else req.memoryGb, plan.charge, false) := by
  obtain ⟨err, results, status, creditGb, kept, rfl⟩ := OpOutcome.retains_eq_true hretains
  cases h with
  | unload target hevent hstart =>
    obtain ⟨result, status, hload, -⟩ := hfollows.unloadReport hfinished hstart
    cases hload
  | load req faults plan hevent hplan hid hplanned hevict hpanic hbody hholding =>
    refine ⟨req, faults, plan, kept, err, results, status, creditGb, hevent,
      hfollows.same.id.trans hid, hplan, ?_, rfl, hholding⟩
    have hreport := hfollows.loadReport hfinished hevict hpanic hbody
    cases hreport with
    | mk _ _ _ _ _ htarget =>
      cases htarget with
      | unconfirmed _ _ hkept => exact hkept

/-- In every run a load that settles as unconfirmed keeps its slot charged and out of reach
for good, and of any two later claims of the process the later one is not the smaller. -/
theorem unconfirmed_load_retained [LawfulGigabytes G] (boot : Boot G) (host : Host)
    (events : List (Event G)) (serial : Nat)
    (hretains : (((boot.world host).run events).report serial).any OpOutcome.retains = true) :
    ∃ before req faults more plan kept, events = before ++ .load req faults :: more ∧
      planLoad ((boot.world host).run before).actor.env
        ((boot.world host).run before).actor.models req = .ok plan ∧
      Kept (previousOf ((boot.world host).run before).actor.models req.id)
        ((((boot.world host).run before).step (.load req faults)).transcript serial more) req.id
        (((boot.world host).run before).contextOf (.load req faults) req
          plan.evict).releaseLimits.targetAbsentGb kept ∧
      ∀ later rest,
        Retained ((boot.world host).run events)
          ((boot.world host).run (events ++ .opDone serial :: later)) req.id
          (retainedGb (if plan.inherited then plan.requestCharge else req.memoryGb) kept)
          (retainedCharge plan.charge kept) ∧
        Retained ((boot.world host).run (events ++ .opDone serial :: later))
          ((boot.world host).run (events ++ .opDone serial :: (later ++ rest))) req.id
          (retainedGb (if plan.inherited then plan.requestCharge else req.memoryGb) kept)
          (retainedCharge plan.charge kept) := by
  obtain ⟨outcome, hreport, houtcome⟩ := (Option.any_eq_true _ _).mp hretains
  obtain ⟨t, htask, hfinished⟩ := Option.bind_eq_some_iff.mp hreport
  obtain ⟨hmem, rfl⟩ := World.task_mem htask
  have hcoherent := coherent_run boot host events
  obtain ⟨before, start, more, first, rfl, hstart, hfollows, hholding⟩ :=
    traced_run (coherent_start boot host) rfl events t hmem
  obtain ⟨req, faults, plan, kept, err, results, status, creditGb, rfl, hid, hplan, hkept, rfl, hheld⟩ :=
    hstart.retains hfollows hfinished houtcome
  have hagrees : ((boot.world host).run (before ++ .load req faults :: more)).actor.env.ClaimAgrees := by
    by_cases hobserved : boot.Observed
    · exact (coherent_start boot host).agrees_run (hobserved.agrees host.marker) _
    · have hidle := (World.run_inert (w := boot.world host) rfl rfl
        (Boot.startupError_of_not_observed hobserved host.marker)
        (before ++ .load req faults :: more)).1
      rw [hidle] at hmem
      exact absurd hmem List.not_mem_nil
  refine ⟨before, req, faults, more, plan, kept, rfl, hplan, hkept, fun later rest => ?_⟩
  have hpins := hcoherent.settles_pinned htask hfinished (by rw [hholding, hid]; exact hheld)
  have hlater := hcoherent.retained hagrees hpins later
  have hbetween := hcoherent.retained_between hagrees hpins later rest
  rw [hid] at hlater hbetween
  rw [World.run_append _ (before ++ .load req faults :: more),
    World.run_append _ (before ++ .load req faults :: more)]
  exact ⟨hlater, hbetween⟩

end Runs

section Samples

/-- The load that takes the place of the model of 6 GB. -/
def replacement : LoadRequest Int :=
  ⟨"a", Gigabytes.ofGb 4, ⟨.onDemand, .pinned true, .coexist⟩, false⟩

/-- Its first attempt runs out of memory, the model is shown gone, and the retry times out. -/
def lostRetry : List (Event Int) :=
  answered 1 [rejecting (.oom "a"), obliging 0 [], { obliging 0 [] with load := none },
    obliging 0 [], obliging 0 []]

def replacedModel : List (Event Int) :=
  loadedModel ++ .load replacement ⟨.none, .none⟩ :: lostRetry

theorem unconfirmed_load_retained_replacedModel :
    ∃ before req faults more plan kept, replacedModel = before ++ .load req faults :: more ∧
      planLoad (((idleBoot Keyed.Map.empty).world freshHost).run before).actor.env
        (((idleBoot Keyed.Map.empty).world freshHost).run before).actor.models req = .ok plan ∧
      Kept (previousOf (((idleBoot Keyed.Map.empty).world freshHost).run before).actor.models req.id)
        (((((idleBoot Keyed.Map.empty).world freshHost).run before).step
          (.load req faults)).transcript 1 more) req.id
        ((((idleBoot Keyed.Map.empty).world freshHost).run before).contextOf (.load req faults) req
          plan.evict).releaseLimits.targetAbsentGb kept ∧
      ∀ later rest,
        Retained (((idleBoot Keyed.Map.empty).world freshHost).run replacedModel)
          (((idleBoot Keyed.Map.empty).world freshHost).run
            (replacedModel ++ .opDone 1 :: later)) req.id
          (retainedGb (if plan.inherited then plan.requestCharge else req.memoryGb) kept)
          (retainedCharge plan.charge kept) ∧
        Retained (((idleBoot Keyed.Map.empty).world freshHost).run
            (replacedModel ++ .opDone 1 :: later))
          (((idleBoot Keyed.Map.empty).world freshHost).run
            (replacedModel ++ .opDone 1 :: (later ++ rest))) req.id
          (retainedGb (if plan.inherited then plan.requestCharge else req.memoryGb) kept)
          (retainedCharge plan.charge kept) :=
  unconfirmed_load_retained (idleBoot Keyed.Map.empty) freshHost replacedModel 1
    (by decide +kernel)

/-- The slot no longer pays for an instance that was shown gone before the retry. -/
theorem replaced_charge_dropped : ¬ ∀ (boot : Boot Int) (host : Host) (before : List (Event Int))
    (req : LoadRequest Int) (faults : LoadFaults) (more : List (Event Int))
    (previous : PreviousModel Int) (gb : Int) (charge : CapacityCharge),
    previousOf ((boot.world host).run before).actor.models req.id = some previous →
    (((boot.world host).run (before ++ .load req faults :: more)).report
      ((boot.world host).run before).nextSerial).any OpOutcome.retains = true →
    holdingView ((boot.world host).run (before ++ .load req faults :: more ++
      [.opDone ((boot.world host).run before).nextSerial])).actor.models req.id =
        some (gb, charge, true) →
    Gigabytes.le previous.memoryGb gb = true := by
  intro h
  have hle := h (idleBoot Keyed.Map.empty) freshHost loadedModel replacement ⟨.none, .none⟩ lostRetry
    ⟨.ready, ⟨.onDemand, .pinned false, .coexist⟩, Gigabytes.ofGb 6, .default, false⟩
    (Gigabytes.ofGb 4) .default rfl (by decide +kernel) (by decide +kernel)
  exact absurd hle (by decide)

end Samples

end Supervisor
