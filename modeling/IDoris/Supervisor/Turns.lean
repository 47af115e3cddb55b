import IDoris.Supervisor.Claims

/-!
# What one event does to the actor

A run moves the actor only as listed here. An invariant about slots, the claim or the
poison needs one case for each.
-/
namespace Supervisor

open Transaction

variable {G : Type}

@[simp] theorem World.apply_actor {w : World G} {caller : Nat} {handled : Handled G} :
    (w.apply caller handled).actor = handled.actor := by
  unfold World.apply
  split <;> rfl

theorem World.apply_tasks {w : World G} {caller : Nat} {handled : Handled G} :
    (w.apply caller handled).tasks = w.tasks ++ handled.spawned.toList := by
  unfold World.apply
  split <;> rfl

theorem World.apply_started {w : World G} {caller : Nat} {handled : Handled G} :
    (w.apply caller handled).started = w.started ++ handled.spawned.toList.map (·.serial) := by
  unfold World.apply
  split <;> rfl

theorem World.apply_delivered {w : World G} {caller : Nat} {handled : Handled G} :
    (w.apply caller handled).delivered = w.delivered := by
  unfold World.apply
  split <;> rfl

theorem handleChat_env {actor after : Actor G} {model : String} {permit : Bool}
    (h : handleChat actor model permit = .ok after) : after.env = actor.env := by
  unfold handleChat at h
  split at h
  · cases h
  · split at h
    · cases h
    · split at h
      · cases h
        rfl
      · cases h

variable [Gigabytes G]

/-- The actor after an event of a run. -/
inductive World.Turn (w : World G) : Event G → Actor G → Prop where
  | stays (event : Event G) : Turn w event w.actor
  | joined (event : Event G) (caller : Nat) : Turn w event (w.actor.join caller)
  | loading (req : LoadRequest G) (faults : LoadFaults) (plan : LoadPlan G) (env : Env G)
      (hpoisoned : w.actor.poisoned = none)
      (hscreen : screenLoad w.actor req = .admitted)
      (hplan : planLoad w.actor.env w.actor.models req = .ok plan)
      (hclaim : w.actor.env.claimRuntimeCapacity plan.plannedGb plan.plannedCharge
        req.allowHeadroomBreach = .ok env)
      (htasks : (w.load req faults).tasks = w.tasks ++ [(installLoad { w.actor with env := env }
        w.nextSerial w.callers.length req plan).2]) :
      Turn w (.load req faults) (installLoad { w.actor with env := env } w.nextSerial
        w.callers.length req plan).1
  | stopping (id : String) (hpoisoned : w.actor.poisoned = none)
      (hscreen : screenUnload w.actor id = .admitted) :
      Turn w (.unload id) (installUnload w.actor w.nextSerial w.callers.length id).1
  | chatted (model : String) (permit : Bool) (after : Actor G)
      (hchat : handleChat w.actor model permit = .ok after) : Turn w (.chat model permit) after
  | chatEnded (chat : ChatTask) (hknown : (slotView w.actor.models chat.model).isSome = true) :
      Turn w (.chatDone chat) (Supervisor.chatDone w.actor chat.model).1
  | delivered (t : OpTask G) (outcome : OpOutcome G) (htask : w.task t.serial = some t)
      (hfinished : t.finished = some outcome)
      (hviolation : (w.actor.applied t.id outcome).2 = none)
      (hactive : w.actor.activeOp ≠ none) (hpoisoned : w.actor.poisoned = none) :
      Turn w (.opDone t.serial)
        ((w.actor.applied t.id outcome).1.conclude t.id none outcome.result).1
  | rehashedModels (n : Nat) :
      Turn w (.rehashModels n) { w.actor with models := w.actor.models.exchange n }
  | rehashedCovered (n : Nat) :
      Turn w (.rehashCovered n) { w.actor with env := { w.actor.env with
        aggregateCovered := w.actor.env.aggregateCovered.exchange n } }
  | peer (key : String) (allocation : Option (CapacityAllocation G))
      (t : StartupCapacityTracking G) (htracking : w.actor.env.runtimeCapacity = some t)
      (hkey : key ≠ t.allocationKey) :
      Turn w (.peer key allocation) { w.actor with
        env := w.actor.env.withTracking { t with ledger := t.ledger.assign key allocation } }

theorem chatDone_env (actor : Actor G) (model : String) :
    (chatDone actor model).1.env = actor.env := by
  unfold chatDone
  split
  · rfl
  · dsimp only
    split
    · split <;> rfl
    · rfl

variable {w : World G} {actor : Actor G} {serial caller : Nat} {req : LoadRequest G}
  {faults : LoadFaults} {marker : Bool}

/-- A load command answers or waits, or its plan is claimed and installed. -/
theorem handleLoad_cases :
    (handleLoad actor serial caller req faults marker).spawned = none ∧
      ((handleLoad actor serial caller req faults marker).actor = actor ∨
        (handleLoad actor serial caller req faults marker).actor = actor.join caller) ∨
    screenLoad actor req = .admitted ∧ ∃ plan env, planLoad actor.env actor.models req = .ok plan ∧
      actor.env.claimRuntimeCapacity plan.plannedGb plan.plannedCharge req.allowHeadroomBreach =
        .ok env ∧
      (handleLoad actor serial caller req faults marker).actor =
        (installLoad { actor with env := env } serial caller req plan).1 ∧
      (handleLoad actor serial caller req faults marker).spawned =
        some (installLoad { actor with env := env } serial caller req plan).2 := by
  unfold handleLoad
  split
  · exact .inl ⟨rfl, .inl rfl⟩
  · exact .inl ⟨rfl, .inr rfl⟩
  · rename_i hscreen
    split
    · exact .inl ⟨rfl, .inl rfl⟩
    · exact .inl ⟨rfl, .inl rfl⟩
    · rename_i plan fence hplan _
      split
      · exact .inl ⟨rfl, .inl rfl⟩
      · split
        · split <;> exact .inl ⟨rfl, .inl rfl⟩
        · rename_i env hclaim
          exact .inr ⟨hscreen, plan, env, hplan, hclaim, rfl, rfl⟩

/-- A load command leaves the actor, joins, or spawns what it has planned and claimed. -/
theorem World.load_cases (w : World G) (req : LoadRequest G) (faults : LoadFaults) :
    (w.load req faults).tasks = w.tasks ∧ ((w.load req faults).actor = w.actor ∨
      (w.load req faults).actor = w.actor.join w.callers.length) ∨
    w.actor.poisoned = none ∧ screenLoad w.actor req = .admitted ∧ ∃ plan env,
      planLoad w.actor.env w.actor.models req = .ok plan ∧
      w.actor.env.claimRuntimeCapacity plan.plannedGb plan.plannedCharge req.allowHeadroomBreach =
        .ok env ∧
      (w.load req faults).actor = (installLoad { w.actor with env := env } w.nextSerial
        w.callers.length req plan).1 ∧
      (w.load req faults).tasks = w.tasks ++ [(installLoad { w.actor with env := env } w.nextSerial
        w.callers.length req plan).2] := by
  unfold World.load
  split
  · exact .inl ⟨rfl, .inl rfl⟩
  · rename_i hrefusal
    have hpoisoned := poisoned_of_refusal hrefusal
    simp only [apply_actor, apply_tasks]
    obtain ⟨hnone, hactor⟩ | ⟨hscreen, plan, env, hplan, hclaim, hactor, hspawned⟩ :=
      @handleLoad_cases G _ w.actor w.nextSerial w.callers.length req faults w.host.marker
    · rw [hnone]
      exact .inl ⟨List.append_nil _, hactor⟩
    · rw [hspawned]
      exact .inr ⟨hpoisoned, hscreen, plan, env, hplan, hclaim, hactor, rfl⟩

theorem World.load_turns (w : World G) (req : LoadRequest G) (faults : LoadFaults) :
    w.Turn (.load req faults) (w.load req faults).actor := by
  obtain ⟨-, hsame | hjoined⟩ | ⟨hpoisoned, hscreen, plan, env, hplan, hclaim, hactor, htasks⟩ :=
    w.load_cases req faults
  · rw [hsame]
    exact .stays _
  · rw [hjoined]
    exact .joined _ _
  · rw [hactor]
    exact .loading req faults plan env hpoisoned hscreen hplan hclaim htasks

theorem World.unload_turns (w : World G) (id : String) :
    w.Turn (.unload id) (w.unload id).actor := by
  unfold World.unload
  split
  · exact .stays _
  · rename_i hrefusal
    rw [apply_actor]
    unfold handleUnload
    split
    · exact .stays _
    · exact .joined _ _
    · rename_i hscreen
      exact .stopping id (poisoned_of_refusal hrefusal) hscreen

/-- The report of the spawned operation finds the actor busy and all its slots. -/
theorem Coherent.delivers (h : Coherent w) {t : OpTask G} {outcome : OpOutcome G}
    (ht : w.task serial = some t) (hf : t.finished = some outcome) :
    w.actor.activeOp ≠ none ∧ w.actor.poisoned = none ∧
      (w.actor.applied t.id outcome).2 = none ∧ (w.opDone serial).actor =
        ((w.actor.applied t.id outcome).1.conclude t.id none outcome.result).1 := by
  obtain ⟨hmem, rfl⟩ := World.task_mem ht
  obtain ⟨-, op, hactive, -, hworks, htarget, hvictims, -⟩ := h.stage.of_task hmem
  have hbusy : w.actor.activeOp ≠ none := by rw [hactive]; exact nofun
  have hpoisoned : w.actor.poisoned = none := by
    by_contra hne
    exact hbusy (h.poisoned hne)
  have hid : (slotView w.actor.models t.id).isSome = true := by rw [hworks.id, htarget]; rfl
  have hviolation : (w.actor.applied t.id outcome).2 = none := by
    apply applied_violation (OpTask.finished_fits hworks.conforms hf) hid
    intro v hv
    rw [(hvictims v hv).2]
    rfl
  refine ⟨hbusy, hpoisoned, hviolation, ?_⟩
  simp only [World.opDone, ht, hf, World.deliver, Actor.receive, hpoisoned, opDone_eq, hviolation]

theorem World.opDone_turns (h : Coherent w) (serial : Nat) :
    w.Turn (.opDone serial) (w.opDone serial).actor := by
  cases ht : w.task serial with
  | none =>
    simp only [World.opDone, ht]
    exact .stays _
  | some t =>
    cases hf : t.finished with
    | none =>
      simp only [World.opDone, ht, hf]
      exact .stays _
    | some outcome =>
      obtain ⟨hactive, hpoisoned, hviolation, hdone⟩ := h.delivers ht hf
      obtain ⟨-, rfl⟩ := World.task_mem ht
      rw [hdone]
      exact .delivered t outcome ht hf hviolation hactive hpoisoned

/-- Every event is one of the turns. -/
theorem Coherent.turn (h : Coherent w) (event : Event G) : w.Turn event (w.step event).actor := by
  cases event with
  | load req faults => exact w.load_turns req faults
  | unload id => exact w.unload_turns id
  | chat model permit =>
    simp only [World.step, World.chat]
    split
    · exact .stays _
    · split
      · exact .stays _
      · rename_i after hchat
        exact .chatted model permit after hchat
  | issue serial =>
    simp only [World.step, World.issue]
    split
    · exact .stays _
    · split <;> exact .stays _
  | respond serial responses =>
    simp only [World.step, World.respond]
    split <;> exact .stays _
  | panic serial message =>
    simp only [World.step, World.panic]
    split <;> exact .stays _
  | opDone serial => exact World.opDone_turns h serial
  | chatReturns chat result =>
    simp only [World.step, World.chatReturns]
    split <;> exact .stays _
  | chatDone chat =>
    simp only [World.step, World.chatDone]
    split
    · rename_i hc
      split
      · exact .stays _
      · exact .chatEnded chat (h.counted.known chat hc.1)
    · exact .stays _
  | rehashModels n => exact .rehashedModels n
  | rehashCovered n => exact .rehashedCovered n
  | peer key allocation =>
    simp only [World.step, World.peer]
    split
    · exact .stays _
    · rename_i t htracking
      split
      · exact .stays _
      · rename_i hkey
        cases allocation <;> exact .peer key _ t htracking hkey

end Supervisor
