import IDoris.Supervisor.Agreement
import IDoris.Supervisor.History

/-!
# What frees a slot

A slot is free again only by the report of an operation, and the report has its grounds
in what the operation heard since it was started.
-/
namespace Supervisor

open Interaction

variable {G : Type}

/-- The failure leaves its target `Stopped`. -/
inductive LoadFailureOutcome.Stops : LoadFailureOutcome G → Prop where
  | settled : Stops (.settle .stopped)
  | released (status : BackendStatus G) : Stops (.settleReleased status)
  | restored (previous : PreviousModel G) (hstopped : previous.state = .stopped) :
      Stops (.restorePrevious previous)

/-- The report leaves the slot `Stopped`. -/
inductive OpOutcome.Frees (id : String) : OpOutcome G → String → Prop where
  | victim {result : Except BackendError Unit} {victimResults : List VictimResult}
      {status : Option (BackendStatus G)} {creditGb : G} {failure : LoadFailureOutcome G} {v : String}
      (hv : (v, .ok ()) ∈ victimResults) :
      Frees id (.load result victimResults status creditGb failure) v
  | target {err : BackendError} {victimResults : List VictimResult}
      {status : Option (BackendStatus G)} {creditGb : G} {failure : LoadFailureOutcome G}
      (hstops : failure.Stops) : Frees id (.load (.error err) victimResults status creditGb failure) id
  | unloaded {status : Option (BackendStatus G)} : Frees id (.unload (.ok ()) status) id

/-- The slot is `Stopped`. -/
def Models.Free (models : Models G) (id : String) : Prop :=
  ∃ n, slotView models id = some (.stopped, n)

/-- The slot holds memory of the budget. -/
def Models.Occupied (models : Models G) (id : String) : Prop :=
  ∃ state n, slotView models id = some (state, n) ∧ state.occupiesBudget = true

section Slots

variable {models : Models G} {actor : Actor G} {id j : String} {state : ModelState}

theorem previousOf_occupies {p : PreviousModel G}
    (h : previousOf models id = some p) : p.state.occupiesBudget = true := by
  obtain ⟨slot, hslot, rfl⟩ := Option.map_eq_some_iff.mp h
  exact (Option.filter_eq_some_iff.mp hslot).2

theorem Models.Occupied.not_free (h : models.Occupied j) : ¬models.Free j := by
  rintro ⟨n, hfree⟩
  obtain ⟨state, m, hview, hoccupies⟩ := h
  rw [hfree] at hview
  cases hview
  cases hoccupies

theorem free_congr {models' : Models G}
    (h : (slotView models' j).map Prod.fst = (slotView models j).map Prod.fst) :
    models'.Free j → models.Free j := by
  rintro ⟨n, hfree⟩
  rw [hfree, Option.map_some] at h
  obtain ⟨⟨state, m⟩, hview, hstate⟩ := Option.map_eq_some_iff.mp h.symm
  cases hstate
  exact ⟨m, hview⟩

theorem free_modify {f : ModelSlot G → ModelSlot G} (h : Models.Free (models.modify id f) j) :
    models.Free j ∨ j = id ∧ ∃ slot, (f slot).state = .stopped := by
  obtain ⟨n, hview⟩ := h
  unfold slotView at hview
  rw [Keyed.Map.get_modify] at hview
  split at hview
  · rename_i heq
    obtain ⟨slot', hslot', hview⟩ := Option.map_eq_some_iff.mp hview
    obtain ⟨slot, -, rfl⟩ := Option.map_eq_some_iff.mp hslot'
    exact .inr ⟨heq.symm, slot, congrArg Prod.fst hview⟩
  · exact .inl ⟨n, hview⟩

theorem free_setState (h : (models.setState id state).Free j) :
    models.Free j ∨ j = id ∧ state = .stopped := by
  obtain hsame | ⟨hid, _, hstate⟩ :=
    @free_modify G models id j (fun slot => { slot with state := state }) h
  · exact .inl hsame
  · exact .inr ⟨hid, hstate⟩

theorem free_stopAll {evict : List String}
    (h : (evict.foldl (fun models victim => models.setState victim .stopping) models).Free j) :
    models.Free j := by
  induction evict generalizing models with
  | nil => exact h
  | cons victim rest ih =>
    obtain hsame | ⟨-, hstate⟩ := free_setState (ih h)
    · exact hsame
    · cases hstate

theorem free_setStateOrPoison {models' : Models G}
    (h : models.setStateOrPoison id state = .ok models') (hfree : models'.Free j) :
    models.Free j ∨ j = id ∧ state = .stopped := by
  unfold Models.setStateOrPoison at h
  split at h
  · cases h
    obtain hsame | ⟨hid, _, hstate⟩ := @free_modify G models id j (fun slot => { slot with
      state := state
      inherited := slot.inherited && state ≠ .stopped }) hfree
    · exact .inl hsame
    · exact .inr ⟨hid, hstate⟩
  · cases h

theorem free_applyVictims {results : List VictimResult}
    (h : (applyVictims models results).1.Free j) : models.Free j ∨ (j, .ok ()) ∈ results := by
  induction results generalizing models with
  | nil => exact .inl h
  | cons head rest ih =>
    obtain ⟨victim, result⟩ := head
    unfold applyVictims at h
    split at h
    · rename_i models' hset
      obtain hfree | hmem := ih h
      · obtain hsame | ⟨rfl, hstate⟩ := free_setStateOrPoison hset hfree
        · exact .inl hsame
        · cases result with
          | ok => exact .inr List.mem_cons_self
          | error err => cases hstate
      · exact .inr (List.mem_cons_of_mem _ hmem)
    · exact .inl h

theorem free_onSlot {missing : String} {f : ModelSlot G → ModelSlot G}
    (h : (actor.onSlot id missing f).1.models.Free j) :
    actor.models.Free j ∨ j = id ∧ ∃ slot, (f slot).state = .stopped := by
  unfold Actor.onSlot at h
  split at h
  · exact free_modify h
  · exact .inl h

theorem free_settleState (h : (actor.settleState id state).1.models.Free j) :
    actor.models.Free j ∨ j = id ∧ state = .stopped := by
  unfold Actor.settleState at h
  split at h
  · rename_i models' hset
    exact free_setStateOrPoison hset h
  · exact .inl h

theorem handleChat_free {after : Actor G} {model : String} {permit : Bool}
    (h : handleChat actor model permit = .ok after) (hfree : after.models.Free j) :
    actor.models.Free j := by
  obtain ⟨-, -, hview, -, -⟩ := handleChat_ok h
  refine free_congr ?_ hfree
  rw [hview]
  split <;> simp [Function.comp_def]

end Slots

section Reports

variable [Gigabytes G] {actor : Actor G} {id j : String}

theorem free_applyFailure {failure : LoadFailureOutcome G}
    (h : (actor.applyFailure id failure).1.models.Free j) :
    actor.models.Free j ∨ j = id ∧ failure.Stops := by
  cases failure with
  | settle state =>
    obtain hsame | ⟨hid, rfl⟩ := free_settleState h
    · exact .inl hsame
    · exact .inr ⟨hid, .settled⟩
  | settleReleased shown =>
    have hstate : (actor.settleState id .stopped).1.models.Free j := by
      simp only [Actor.applyFailure] at h
      split at h
      · rename_i after hafter
        rw [hafter]
        exact h
      · rename_i after violation hafter
        rw [hafter]
        exact h
    obtain hsame | ⟨hid, -⟩ := free_settleState hstate
    · exact .inl hsame
    · exact .inr ⟨hid, .released shown⟩
  | restorePrevious previous =>
    obtain hsame | ⟨hid, _, hstate⟩ := free_onSlot h
    · exact .inl hsame
    · exact .inr ⟨hid, .restored previous hstate⟩
  | retainPreviousOnError previous =>
    obtain hsame | ⟨-, _, hstate⟩ := free_onSlot h
    · exact .inl hsame
    · cases hstate
  | retainUnconfirmedLoad previous =>
    obtain hsame | ⟨-, slot, hstate⟩ := free_onSlot h
    · exact .inl hsame
    · cases previous <;> cases hstate

/-- A report frees only what it says it frees. -/
theorem free_applied {outcome : OpOutcome G} (h : (actor.applied id outcome).1.models.Free j) :
    actor.models.Free j ∨ outcome.Frees id j := by
  cases outcome with
  | load result results status creditGb failure =>
    have hvictims : (applyVictims actor.models results).1.Free j →
        actor.models.Free j ∨ OpOutcome.Frees id (.load result results status creditGb failure) j := by
      intro hfree
      obtain hsame | hmem := free_applyVictims hfree
      · exact .inl hsame
      · exact .inr (.victim hmem)
    simp only [Actor.applied] at h
    split at h
    · rename_i models violation hresults
      rw [hresults] at hvictims
      exact hvictims h
    · rename_i models hresults
      rw [hresults] at hvictims
      cases result with
      | ok =>
        obtain hsame | ⟨-, _, hstate⟩ := free_onSlot h
        · simp only [refresh_models] at hsame
          exact hvictims hsame
        · cases hstate
      | error err =>
        obtain hsame | ⟨rfl, hstops⟩ := free_applyFailure h
        · rw [refresh_models] at hsame
          exact hvictims hsame
        · exact .inr (.target hstops)
  | unload result status =>
    simp only [Actor.applied, refresh_models] at h
    cases result with
    | ok =>
      obtain hsame | ⟨rfl, -⟩ := free_onSlot h
      · exact .inl hsame
      · exact .inr .unloaded
    | error err =>
      obtain hsame | ⟨-, hstate⟩ := free_settleState h
      · exact .inl hsame
      · cases hstate

/-- A slot becomes free by a report only. -/
theorem World.Turn.frees {w : World G} {event : Event G} {after : Actor G}
    (h : w.Turn event after) (hfree : after.models.Free j) :
    w.actor.models.Free j ∨ ∃ t outcome, event = .opDone t.serial ∧ t ∈ w.tasks ∧
      t.finished = some outcome ∧ outcome.Frees t.id j := by
  cases h with
  | stays => exact .inl hfree
  | joined => exact .inl hfree
  | loading req faults plan env =>
    simp only [installLoad, startLoad] at hfree
    obtain hsame | ⟨-, hstate⟩ := free_setState hfree
    · obtain ⟨n, hview⟩ := hsame
      rw [view_insert] at hview
      split at hview
      · cases hview
      · exact .inl (free_stopAll ⟨n, hview⟩)
    · cases hstate
  | stopping id =>
    obtain hsame | ⟨-, hstate⟩ := free_setState hfree
    · exact .inl hsame
    · cases hstate
  | chatted model permit after hchat => exact .inl (handleChat_free hchat hfree)
  | chatEnded chat hknown =>
    obtain ⟨⟨state, n⟩, hslot⟩ := Option.isSome_iff_exists.mp hknown
    obtain ⟨hview, -⟩ := chatDone_turn hslot
    refine .inl (free_congr ?_ hfree)
    rw [hview]
    split <;> simp [Function.comp_def]
  | delivered t outcome htask hfinished =>
    rw [conclude_models] at hfree
    obtain hsame | hfrees := free_applied hfree
    · exact .inl hsame
    · exact .inr ⟨t, outcome, rfl, (World.task_mem htask).1, hfinished, hfrees⟩
  | rehashedModels n =>
    refine .inl (free_congr ?_ hfree)
    rw [view_exchange]
  | rehashedCovered => exact .inl hfree
  | peer => exact .inl hfree

end Reports

section Grounds

variable [Gigabytes G]

/-- Why a failed load may leave its target free. The last case is no ground: it leaves open the
load whose retry ran out of memory again. -/
inductive TargetFreed (previous : Option (PreviousModel G)) (trace : List (Call G)) (id : String)
    (limit : G) : Prop where
  | released (h : ReleasedAfter trace id [id] limit)
  | rejected (hfresh : Kept previous trace id limit none) (h : Rejected trace id limit)
  | uncalled (hfresh : previous = none) (h : ∀ y ∈ trace, ¬y.Loads id)
  | retryRunsOut (h : RetryRunsOut trace id)

/-- Why the operation that `start` began in `w` may leave the slot free. -/
inductive Freed (w : World G) (start : Event G) (trace : List (Call G)) (id : String) : Prop where
  | unloaded (hstart : start.Unloads id)
      (h : ReleasedAfter trace id [id] (w.unloadLimitOf start id))
  | evicted (req : LoadRequest G) (faults : LoadFaults) (plan : LoadPlan G)
      (hstart : start = .load req faults)
      (hplan : planLoad w.actor.env w.actor.models req = .ok plan) (hvictim : id ∈ plan.evict)
      (h : ReleasedAfter trace id plan.evict
        (w.contextOf start req plan.evict).releaseLimits.afterEvictionGb)
  | target (req : LoadRequest G) (faults : LoadFaults) (plan : LoadPlan G)
      (hstart : start = .load req faults)
      (hplan : planLoad w.actor.env w.actor.models req = .ok plan) (hid : id = req.id)
      (h : TargetFreed (previousOf w.actor.models id) trace id
        (w.contextOf start req plan.evict).releaseLimits.targetAbsentGb)

variable {w : World G} {start : Event G} {first t : OpTask G} {trace : List (Call G)}
  {outcome : OpOutcome G} {id : String}

theorem TargetReport.freed {previous : Option (PreviousModel G)} {limit : G} {err : BackendError}
    {failure : LoadFailureOutcome G}
    (h : TargetReport id previous limit trace (.error err) failure)
    (hoccupies : ∀ p, previous = some p → p.state.occupiesBudget = true) (hstops : failure.Stops) :
    TargetFreed previous trace id limit := by
  cases h with
  | untouched _ hfresh huntouched => exact .uncalled hfresh huntouched
  | rejected _ hfresh hrejected => exact .rejected hfresh hrejected
  | retryRunsOut _ hretry => exact .retryRunsOut hretry
  | released _ status hreleased => exact .released hreleased
  | restored _ p hprevious =>
    cases hstops with
    | restored _ hstopped =>
      have hp := hoccupies p hprevious
      rw [hstopped] at hp
      cases hp
  | unreleased => cases hstops
  | retained => cases hstops
  | unconfirmed => cases hstops

/-- The report of an operation frees a slot on one of the grounds. -/
theorem World.Starts.freed (h : w.Starts start first) (hfollows : first.Follows t trace)
    (hconforms : t.Conforms) (hfinished : t.finished = some outcome)
    (hfrees : outcome.Frees t.id id) : Freed w start trace id := by
  cases h with
  | unload target hevent hstart =>
    have htarget : t.id = target := by
      rw [hfollows.same.id, hstart]
      rfl
    obtain ⟨result, status, rfl, hreleased⟩ := hfollows.unloadReport hfinished hstart
    cases hfrees
    rw [htarget]
    exact .unloaded hevent (hreleased rfl)
  | load req faults plan hevent hplan hid hplanned hevict hpanic hbody hholding =>
    have htarget : t.id = req.id := hfollows.same.id.trans hid
    have hfits := OpTask.finished_fits hconforms hfinished
    rw [hfollows.same.evict, hplanned] at hfits
    obtain ⟨result, victimResults, status, credit, failure, hreport, hvictims⟩ :=
      hfollows.loadReport hfinished hevict hpanic hbody
    have hoccupies : ∀ p, previousOf w.actor.models req.id = some p →
        p.state.occupiesBudget = true := fun p => previousOf_occupies
    cases hfrees with
    | victim hv =>
      have hmem : id ∈ plan.evict := by
        rw [← hfits.1]
        exact List.mem_map_of_mem hv
      exact .evicted req faults plan hevent hplan hmem (hvictims id hv)
    | target hstops =>
      rw [htarget]
      exact .target req faults plan hevent hplan rfl (hreport.freed hoccupies hstops)

/-- In every run an occupied slot is freed only by an operation that had grounds for it. -/
theorem freed_on_grounds (boot : Boot G) (host : Host) (events : List (Event G)) (event : Event G)
    (id : String) (hoccupied : ((boot.world host).run events).actor.models.Occupied id)
    (hfree : ((boot.world host).run (events ++ [event])).actor.models.Free id) :
    ∃ serial before start more, event = .opDone serial ∧ events = before ++ start :: more ∧
      Freed ((boot.world host).run before) start
        ((((boot.world host).run before).step start).transcript serial more) id := by
  rw [World.run_snoc] at hfree
  have hcoherent := coherent_run boot host events
  obtain hsame | ⟨t, outcome, rfl, hmem, hfinished, hfrees⟩ := (hcoherent.turn event).frees hfree
  · exact absurd hsame hoccupied.not_free
  · obtain ⟨before, start, more, first, hevents, hstart, hfollows, -⟩ :=
      traced_run (coherent_start boot host) rfl events t hmem
    obtain ⟨-, op, -, -, hworks, -⟩ := hcoherent.stage.of_task hmem
    exact ⟨t.serial, before, start, more, rfl, hevents,
      hstart.freed hfollows hworks.conforms hfinished hfrees⟩

end Grounds

section Samples

def loadedModel : List (Event Int) :=
  [loadOf "a" (Gigabytes.ofGb 6)] ++ answered 0 (List.replicate 3 (obliging 0 [])) ++ [.opDone 0]

/-- The model is unloaded, and the engine shows it gone. -/
def unloadedModel : List (Event Int) :=
  loadedModel ++ [.unload "a"] ++ answered 1 (List.replicate 2 (obliging 0 []))

theorem freed_on_grounds_unloadedModel :
    ∃ serial before start more, (.opDone 1 : Event Int) = .opDone serial ∧
      unloadedModel = before ++ start :: more ∧
      Freed (((idleBoot Keyed.Map.empty).world freshHost).run before) start
        (((((idleBoot Keyed.Map.empty).world freshHost).run before).step start).transcript serial
          more) "a" :=
  freed_on_grounds (idleBoot Keyed.Map.empty) freshHost unloadedModel (.opDone 1) "a"
    ⟨.stopping, 0, by decide +kernel, rfl⟩ ⟨0, by decide +kernel⟩

/-- An engine that answers no unload and no status. -/
def silent : Responses Int := { obliging 0 [] with unload := none, status := none }

/-- The second load needs the first model's memory, and its unload times out. -/
def failedEviction : List (Event Int) :=
  loadedModel ++ [loadOf "b" (Gigabytes.ofGb 6)] ++ answered 1 (List.replicate 3 silent)

/-- Neither a load call nor a status that was read. -/
def Call.uninformed (x : Call Int) : Bool :=
  match x with
  | ⟨.load _ _, _⟩ => false
  | ⟨.status, some (.ok _)⟩ => false
  | _ => true

/-- A failed eviction frees its target, which no call has named. -/
theorem freed_without_call : ¬ ∀ (boot : Boot Int) (host : Host) (events : List (Event Int))
    (serial : Nat) (id : String), ((boot.world host).run events).actor.models.Occupied id →
      ((boot.world host).run (events ++ [.opDone serial])).actor.models.Free id →
      (∃ x ∈ (boot.world host).transcript serial events, x.Rejects id) ∨
        ∃ limit, ReleasedAfter ((boot.world host).transcript serial events) id [id] limit := by
  intro h
  have huninformed : ∀ x ∈ ((idleBoot Keyed.Map.empty).world freshHost).transcript 1 failedEviction,
      Call.uninformed x = true :=
    List.all_eq_true.mp (by decide +kernel)
  obtain ⟨x, hx, policy, err, -, -, -, rfl⟩ | ⟨limit, hreleased⟩ :=
    h (idleBoot Keyed.Map.empty) freshHost failedEviction 1 "b"
      ⟨.loading, 0, by decide +kernel, rfl⟩ ⟨0, by decide +kernel⟩
  · exact absurd (huninformed _ hx) nofun
  · obtain ⟨x, hx, status, -, rfl⟩ := hreleased.shown
    exact absurd (huninformed _ hx) nofun

end Samples

end Supervisor
