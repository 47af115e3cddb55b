import IDoris.Supervisor.Coherence

/-!
# Chats in flight

A chat runs on a ready model only, and nothing is unloaded, loaded or overwritten
below a chat that is out.
-/
namespace Supervisor

variable {G : Type}

/-- What may be started: a chat on a ready model, anything else on a model without chats. -/
def JournalEntry.Allowed : JournalEntry → Prop
  | .chatDispatched _ state => state = some .ready
  | .unloadStarted _ inflight | .loadStarted _ inflight | .slotReplaced _ inflight => inflight = 0

/-- The dispatched chats of a model whose `ChatDone` is not processed; a poisoned actor takes
the message from its queue without processing it. -/
def World.unprocessed (w : World G) (id : String) : Nat :=
  (w.chats.map (·.model)).count id + w.discarded.count id

variable {w : World G} {t : OpTask G} {id : String} {serial : Nat} {e : JournalEntry}

theorem World.inflight_of_view (h : ∀ v, slotView w.actor.models id = some v → v.2 = 0) :
    w.inflight id = 0 := by
  unfold World.inflight
  cases hslot : w.actor.models.get id with
  | none => rfl
  | some slot => exact h slot.view (by simp [slotView, hslot])

@[simp] theorem World.apply_journal {caller : Nat} {handled : Handled G} :
    (w.apply caller handled).journal = w.journal := by
  unfold World.apply
  split <;> rfl

/-- The call a task is about to make is one its monitor allows. -/
theorem OpTask.Conforms.pending_allowed {op : Effect} (h : t.Conforms) (hp : t.pending = some op) :
    ∃ phase, flowAllowed t.id t.evict phase op := by
  obtain ⟨⟨phase, hsafe⟩, -⟩ := h
  unfold OpTask.pending at hp
  split at hp
  · rename_i hbody
    cases hp
    rw [hbody] at hsafe
    exact ⟨phase, hsafe.1⟩
  · cases hp

theorem World.chat_journal (model : String) (permit : Bool) (he : e ∈ (w.chat model permit).journal) :
    e ∈ w.journal ∨ e.Allowed := by
  unfold World.chat at he
  split at he
  · exact .inl he
  · split at he
    · exact .inl he
    · rename_i actor hc
      obtain ⟨n, hready, -⟩ := handleChat_ok hc
      rcases List.mem_append.mp he with he | he
      · exact .inl he
      · rw [List.mem_singleton.mp he]
        obtain ⟨slot, hslot, hview⟩ := Option.map_eq_some_iff.mp hready
        have hstate : slot.state = .ready := congrArg Prod.fst hview
        right
        simp [JournalEntry.Allowed, hslot, hstate]

variable [Gigabytes G]

theorem World.load_journal (req : LoadRequest G) (faults : LoadFaults)
    (he : e ∈ (w.load req faults).journal) : e ∈ w.journal ∨ e.Allowed := by
  rcases w.load_turn req faults with ⟨err, hload⟩ | ⟨-, handled, hturn, hload⟩
  · rw [hload] at he
    exact .inl he
  · rw [hload] at he
    cases hturn with
    | answered result after _ => exact .inl (by simpa using he)
    | joined op hactive hserved => exact .inl (by simpa using he)
    | installed plan env _ _ hfree _ =>
      rw [World.apply_journal] at he
      rcases List.mem_append.mp he with he | he
      · exact .inl he
      · rw [List.mem_singleton.mp he]
        exact .inr (World.inflight_of_view hfree)

theorem World.unload_journal (id : String) (he : e ∈ (w.unload id).journal) : e ∈ w.journal := by
  rcases w.unload_turn id with ⟨err, hunload⟩ | ⟨-, handled, hturn, hunload⟩
  · rw [hunload] at he
    exact he
  · rw [hunload, World.apply_journal] at he
    exact he

namespace Coherent

/-- The models an operation works on have no chat out. -/
theorem inflight_of_task (h : Coherent w) (ht : t ∈ w.tasks) (hid : id = t.id ∨ id ∈ t.evict) :
    w.inflight id = 0 := by
  obtain ⟨-, op, -, -, hworks, htarget, hvictims, -⟩ := h.stage.of_task ht
  apply World.inflight_of_view
  intro v hv
  rcases hid with rfl | hmem
  · rw [hworks.id, htarget] at hv
    cases hv
    rfl
  · rw [(hvictims id hmem).2] at hv
    cases hv
    rfl

/-- Every adapter call on a slot finds it without chats. -/
theorem journalOf_allowed (h : Coherent w) (ht : w.task serial = some t) {op : Effect}
    (hp : t.pending = some op) (he : e ∈ w.journalOf op) : e.Allowed := by
  obtain ⟨hmem, -⟩ := World.task_mem ht
  obtain ⟨-, active, -, -, hworks, -⟩ := h.stage.of_task hmem
  obtain ⟨phase, hallowed⟩ := hworks.conforms.pending_allowed hp
  cases op with
  | unload target =>
    rw [List.mem_singleton.mp he]
    exact h.inflight_of_task hmem hallowed
  | load target policy =>
    rw [List.mem_singleton.mp he]
    exact h.inflight_of_task hmem (.inl hallowed.1)
  | status => cases he
  | probeReady target => cases he
  | clearFence => cases he

theorem issue_journal (h : Coherent w) (serial : Nat) (he : e ∈ (w.issue serial).journal) :
    e ∈ w.journal ∨ e.Allowed := by
  unfold World.issue at he
  split at he
  · exact .inl he
  · rename_i t ht
    split at he
    · exact .inl he
    · rename_i op hp
      rcases List.mem_append.mp he with he | he
      · exact .inl he
      · exact .inr (h.journalOf_allowed ht hp he)

/-- One event starts nothing it must not. -/
theorem step_journal (h : Coherent w) (event : Event G) (he : e ∈ (w.step event).journal) :
    e ∈ w.journal ∨ e.Allowed := by
  cases event with
  | load req faults => exact World.load_journal req faults he
  | unload id => exact .inl (World.unload_journal id he)
  | chat model permit => exact World.chat_journal model permit he
  | issue serial => exact h.issue_journal serial he
  | respond serial r =>
    simp only [World.step, World.respond] at he
    split at he <;> exact .inl he
  | panic serial message =>
    simp only [World.step, World.panic] at he
    split at he <;> exact .inl he
  | opDone serial =>
    simp only [World.step, World.opDone] at he
    split at he
    · exact .inl he
    · split at he <;> exact .inl he
  | chatReturns chat result =>
    simp only [World.step, World.chatReturns] at he
    split at he <;> exact .inl he
  | chatDone chat =>
    simp only [World.step, World.chatDone] at he
    split at he
    · split at he <;> exact .inl he
    · exact .inl he
  | rehashModels n => exact .inl he
  | rehashCovered n => exact .inl he
  | peer key allocation =>
    simp only [World.step, World.peer] at he
    split at he
    · exact .inl he
    · split at he <;> exact .inl he

theorem run_journal (h : Coherent w) (hj : ∀ e ∈ w.journal, e.Allowed) (events : List (Event G)) :
    ∀ e ∈ (w.run events).journal, e.Allowed := by
  induction events generalizing w with
  | nil => exact hj
  | cons event rest ih =>
    apply ih (h.step event)
    intro e he
    rcases h.step_journal event he with he | he
    · exact hj e he
    · exact he

end Coherent

/-- In every state of a run the counters tell the chats that are out, and everything started so
far was started on a slot that allowed it. -/
structure ChatsSafe (w : World G) : Prop where
  counted : ∀ id slot, w.actor.models.get id = some slot → slot.inflight = w.unprocessed id
  unknown : ∀ id, w.actor.models.get id = none → (w.chats.map (·.model)).count id = 0
  processed : w.actor.poisoned = none → w.discarded = []
  started : ∀ e ∈ w.journal, e.Allowed

theorem chats_safe (boot : Boot G) (host : Host) (events : List (Event G)) :
    ChatsSafe ((boot.world host).run events) := by
  have hstart := coherent_start boot host
  have h := coherent_run boot host events
  exact {
    counted := fun id slot hslot => h.counted.inflight id slot.view (by simp [slotView, hslot])
    unknown := fun id hslot => h.counted.count_of_unknown (view_eq_none.mpr hslot)
    processed := h.kept
    started := hstart.run_journal nofun events }

end Supervisor
