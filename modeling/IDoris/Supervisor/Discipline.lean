import IDoris.Supervisor.Coherence

/-!
# The discipline of operations

One operation at a time, one report for each, one reply for each caller, and no
slot left in a transient state.
-/
namespace Supervisor

variable {G : Type}

section Slots

def World.stateOf (w : World G) (id : String) : Option ModelState :=
  (w.actor.models.get id).map (·.state)

/-- The models that are being loaded and those that are being stopped, no more and no fewer. -/
structure World.InTransit (w : World G) (loading stopping : List String) : Prop where
  loading : ∀ j, w.stateOf j = some .launching ∨ w.stateOf j = some .loading ↔ j ∈ loading
  stopping : ∀ j, w.stateOf j = some .stopping ↔ j ∈ stopping

variable {w : World G} {j : String} {v : ModelState × Nat} {loading stopping ids : List String}

theorem World.stateOf_eq : w.stateOf j = (slotView w.actor.models j).map Prod.fst := by
  simp [World.stateOf, slotView, ModelSlot.view, Function.comp_def]

theorem World.stateOf_of_view (h : slotView w.actor.models j = some v) :
    w.stateOf j = some v.1 := by
  rw [World.stateOf_eq, h]
  rfl

theorem SettledExcept.stateOf (h : SettledExcept w.actor.models ids) {state : ModelState}
    (hstate : w.stateOf j = some state) (hmoving : state.settled = false) : j ∈ ids := by
  by_contra hj
  rw [World.stateOf_eq] at hstate
  obtain ⟨v, hv, rfl⟩ := Option.map_eq_some_iff.mp hstate
  rw [h j v hv hj] at hmoving
  cases hmoving

/-- The slots outside are settled, and those inside are where they belong. -/
theorem World.InTransit.of_settled (h : SettledExcept w.actor.models (loading ++ stopping))
    (hloading : ∀ j ∈ loading, w.stateOf j = some .loading)
    (hstopping : ∀ j ∈ stopping, w.stateOf j = some .stopping) : w.InTransit loading stopping where
  loading j := by
    constructor
    · intro hj
      have hmem : j ∈ loading ++ stopping := by
        rcases hj with hj | hj <;> exact h.stateOf hj rfl
      refine (List.mem_append.mp hmem).resolve_right fun hs => ?_
      rw [hstopping j hs] at hj
      simp at hj
    · exact fun hj => .inr (hloading j hj)
  stopping j := by
    constructor
    · intro hj
      refine (List.mem_append.mp (h.stateOf hj rfl)).resolve_left fun hl => ?_
      rw [hloading j hl] at hj
      cases hj
    · exact hstopping j

end Slots

section Completion

def Event.isCommand : Event G → Bool
  | .load _ _ | .unload _ | .chat _ _ => true
  | _ => false

variable [Gigabytes G]

/-- Messages and answers, without a new command, lead from `w` to `w'`. -/
def World.Leads (w w' : World G) : Prop :=
  ∃ events : List (Event G), (∀ e ∈ events, e.isCommand = false) ∧ w.run events = w'

variable {w w' w'' : World G} {t : OpTask G}

namespace World.Leads

theorem refl (w : World G) : w.Leads w := ⟨[], by simp, rfl⟩

theorem step (event : Event G) (h : event.isCommand = false) : w.Leads (w.step event) :=
  ⟨[event], by simpa using h, rfl⟩

theorem trans (h : w.Leads w') (h' : w'.Leads w'') : w.Leads w'' := by
  obtain ⟨first, hfirst, rfl⟩ := h
  obtain ⟨rest, hrest, rfl⟩ := h'
  refine ⟨first ++ rest, fun e he => ?_, w.run_append first rest⟩
  rcases List.mem_append.mp he with he | he
  · exact hfirst e he
  · exact hrest e he

end World.Leads

/-- An operation that asks something can be answered. -/
theorem World.leads_answer {op : Effect} {next : op.Answer G → Flow G (OpOutcome G)}
    (htasks : w.tasks = [t]) (hbody : t.body = .ask op next) :
    ∃ w' answer, w.Leads w' ∧ w'.tasks = [{ t with body := next answer, issued := none }] ∧
      w'.chats = w.chats := by
  let r : Responses G := ⟨none, none, none, none, .none⟩
  have hrespond : ∀ {w : World G} {number : Nat},
      w.tasks = [{ t with issued := some number }] → ∃ w' answer, w.Leads w' ∧
        w'.tasks = [{ t with body := next answer, issued := none }] ∧ w'.chats = w.chats := by
    intro w number htasks
    have htask := World.task_of_single htasks
    refine ⟨_, (r.answer w.host.marker op).1, .step (.respond t.serial r) rfl, ?_, ?_⟩
    · simp only at htask
      simp [World.step, World.respond, htask, OpTask.respond, hbody, World.updateTask, htasks]
    · simp only at htask
      simp [World.step, World.respond, htask, OpTask.respond, hbody, World.updateTask]
  cases hissued : t.issued with
  | some number =>
    have hsent : w.tasks = [{ t with issued := some number }] := by rw [htasks, ← hissued]
    exact hrespond hsent
  | none =>
    have htask := World.task_of_single htasks
    have hissue : (w.step (.issue t.serial)).tasks = [{ t with issued := some w.host.calls }] := by
      simp [World.step, World.issue, htask, OpTask.pending, hbody, hissued, World.updateTask, htasks]
    have hchats : (w.step (.issue t.serial)).chats = w.chats := by
      simp [World.step, World.issue, htask, OpTask.pending, hbody, hissued, World.updateTask]
    obtain ⟨w', answer, hleads, htasks', hchats'⟩ := hrespond hissue
    exact ⟨w', answer, (World.Leads.step (.issue t.serial) rfl).trans hleads, htasks',
      hchats'.trans hchats⟩

/-- A spawned operation can always come to its report. -/
theorem World.leads_report (htasks : w.tasks = [t]) :
    ∃ w', w.Leads w' ∧ w'.tasks = [] ∧ w'.chats = w.chats := by
  induction hbody : t.body generalizing w t with
  | ret outcome =>
    have htask := World.task_of_single htasks
    refine ⟨_, .step (.opDone t.serial) rfl, ?_, ?_⟩
    · simp [World.step, World.opDone, htask, OpTask.finished, hbody, World.deliver, htasks]
    · simp [World.step, World.opDone, htask, OpTask.finished, hbody, World.deliver]
  | ask op next ih =>
    obtain ⟨w', answer, hleads, htasks', hchats⟩ := World.leads_answer htasks hbody
    obtain ⟨w'', hleads', hdone, hchats'⟩ := ih answer htasks' rfl
    exact ⟨w'', hleads.trans hleads', hdone, hchats'.trans hchats⟩

/-- The chats that are out can always come to their end. -/
theorem World.leads_chatsDone (w : World G) : ∃ w', w.Leads w' ∧ w'.chats = [] := by
  induction hlength : w.chats.length generalizing w with
  | zero => exact ⟨w, .refl w, List.length_eq_zero_iff.mp hlength⟩
  | succ n ih =>
    have hdone : ∀ {w : World G} {chat : ChatTask}, chat ∈ w.chats → chat.returned = true →
        w.chats.length = n + 1 → ∃ w', w.Leads w' ∧ w'.chats = [] := by
      intro w chat hmem hreturned hlength
      have hchats : (w.step (.chatDone chat)).chats = w.chats.erase chat := by
        simp only [World.step, World.chatDone, hmem, hreturned, and_self, if_true]
        split <;> rfl
      obtain ⟨w', hleads, hnone⟩ := ih (w.step (.chatDone chat)) (by
        rw [hchats, List.length_erase_of_mem hmem, hlength]
        rfl)
      exact ⟨w', (World.Leads.step (.chatDone chat) rfl).trans hleads, hnone⟩
    obtain ⟨chat, hmem⟩ := List.exists_mem_of_length_pos (by omega : 0 < w.chats.length)
    cases hreturned : chat.returned with
    | true => exact hdone hmem hreturned hlength
    | false =>
      have hchats : (w.step (.chatReturns chat (.ok ()))).chats =
          w.chats.erase chat ++ [{ chat with returned := true }] := by
        simp [World.step, World.chatReturns, hmem, hreturned]
      obtain ⟨w', hleads, hnone⟩ := @hdone (w.step (.chatReturns chat (.ok ())))
        { chat with returned := true } (by rw [hchats]; simp) rfl (by
          rw [hchats, List.length_append, List.length_erase_of_mem hmem, hlength]
          rfl)
      exact ⟨w', (World.Leads.step (.chatReturns chat (.ok ())) rfl).trans hleads, hnone⟩

theorem Coherent.leads (h : Coherent w) (hleads : w.Leads w') : Coherent w' := by
  obtain ⟨events, -, rfl⟩ := hleads
  exact h.run events

/-- No run wedges the actor: what is out can be delivered without another command. -/
theorem Coherent.completes (h : Coherent w) :
    ∃ w', w.Leads w' ∧ w'.tasks = [] ∧ w'.chats = [] := by
  obtain ⟨w', hleads, hchats⟩ := w.leads_chatsDone
  cases (h.leads hleads).stage with
  | idle _ htasks _ => exact ⟨w', hleads, htasks, hchats⟩
  | draining _ _ _ _ htasks => exact ⟨w', hleads, htasks, hchats⟩
  | working op t _ _ htasks =>
    obtain ⟨w'', hleads', hnone, hkept⟩ := World.leads_report htasks
    exact ⟨w'', hleads.trans hleads', hnone, hkept.trans hchats⟩

end Completion

variable [Gigabytes G] {w : World G}

/-- What holds of operations, callers and slots in every state of a run. -/
structure Disciplined (w : World G) : Prop where
  /-- A spawned operation is the active one, and there is no other. -/
  active : w.tasks = [] ∨ ∃ t op, w.tasks = [t] ∧ w.actor.activeOp = some op ∧
    t.serial = op.serial ∧ t.id = op.id ∧ t.request = op.request
  /-- What was started is either delivered or still out, and never twice. -/
  deliveries : w.started = w.delivered.map (·.serial) ++ w.tasks.map (·.serial)
  distinct : w.started.Nodup
  /-- A caller is answered once, or the active operation holds its channel. -/
  callers : ∀ c, (w.replies.map (·.caller)).count c + w.actor.waiters.count c =
    if c < w.callers.length then 1 else 0
  answered : w.tasks = [] → w.chats = [] → ∀ c < w.callers.length,
    (w.replies.map (·.caller)).count c = 1
  completes : ∃ w', w.Leads w' ∧ w'.tasks = [] ∧ w'.chats = []
  idle : w.actor.activeOp = none → w.InTransit [] []
  loading : ∀ op, w.actor.activeOp = some op → op.targetState = .loading →
    ∃ t, w.tasks = [t] ∧ w.InTransit [op.id] t.evict
  unloading : ∀ op, w.actor.activeOp = some op → op.targetState = .stopping →
    w.InTransit [] [op.id]
  /-- A caller that waited hears the result of an operation for its own request. -/
  outcome : ∀ r ∈ w.replies, r.caller ∈ w.waited → ∃ d ∈ w.delivered, r.cause = some d ∧
    r.result = d.result ∧ ∃ q, w.callers[r.caller]? = some q ∧ Served q d.request

namespace Coherent

theorem active (h : Coherent w) : w.tasks = [] ∨ ∃ t op, w.tasks = [t] ∧
    w.actor.activeOp = some op ∧ t.serial = op.serial ∧ t.id = op.id ∧ t.request = op.request := by
  cases h.stage with
  | idle _ htasks _ => exact .inl htasks
  | draining _ _ _ _ htasks => exact .inl htasks
  | working op t hactive _ htasks hworks =>
    exact .inr ⟨t, op, htasks, hactive, hworks.serial, hworks.id, hworks.request⟩

/-- A poisoned actor has no operation, so no chat that is out was discarded from its count. -/
theorem activeOp_eq_none (h : Coherent w) (htasks : w.tasks = []) (hchats : w.chats = []) :
    w.actor.activeOp = none := by
  cases h.stage with
  | idle hactive _ _ => exact hactive
  | working _ _ _ _ hone => rw [hone] at htasks; cases htasks
  | draining op n hactive _ _ htarget =>
    have hp : w.actor.poisoned = none := by
      by_contra hne
      rw [h.poisoned hne] at hactive
      cases hactive
    have hcount := h.counted.inflight op.id _ htarget
    rw [hchats, h.kept hp] at hcount
    cases hcount

theorem answered (h : Coherent w) (htasks : w.tasks = []) (hchats : w.chats = []) :
    ∀ c < w.callers.length, (w.replies.map (·.caller)).count c = 1 := by
  intro c hc
  have honce := h.books.once c
  rw [h.activeOp_eq_none htasks hchats, if_pos hc] at honce
  exact honce

theorem idle (h : Coherent w) (hactive : w.actor.activeOp = none) : w.InTransit [] [] :=
  .of_settled (h.stage.of_idle hactive).2 nofun nofun

theorem loading (h : Coherent w) {op : ActiveOp G} (hactive : w.actor.activeOp = some op)
    (hload : op.targetState = .loading) : ∃ t, w.tasks = [t] ∧ w.InTransit [op.id] t.evict := by
  cases h.stage with
  | idle ha => rw [hactive] at ha; cases ha
  | working op' t ha _ htasks _ htarget hvictims hslots =>
    obtain rfl : op' = op := Option.some.inj (ha.symm.trans hactive)
    refine ⟨t, htasks, .of_settled hslots ?_ fun v hv => World.stateOf_of_view (hvictims v hv).2⟩
    intro j hj
    rw [List.mem_singleton.mp hj, World.stateOf_of_view htarget, hload]
  | draining op' n ha hw =>
    obtain rfl : op' = op := Option.some.inj (ha.symm.trans hactive)
    rw [ActiveOp.eq_of_waiting hw] at hload
    cases hload

theorem unloading (h : Coherent w) {op : ActiveOp G} (hactive : w.actor.activeOp = some op)
    (hunload : op.targetState = .stopping) : w.InTransit [] [op.id] := by
  have hstopping : ∀ {n}, slotView w.actor.models op.id = some (.stopping, n) →
      SettledExcept w.actor.models [op.id] → w.InTransit [] [op.id] := by
    intro n htarget hslots
    refine .of_settled hslots nofun fun j hj => ?_
    rw [List.mem_singleton.mp hj, World.stateOf_of_view htarget]
  cases h.stage with
  | idle ha => rw [hactive] at ha; cases ha
  | working op' t ha _ _ hworks htarget _ hslots =>
    obtain rfl : op' = op := Option.some.inj (ha.symm.trans hactive)
    rw [hworks.victims hunload] at hslots
    rw [hunload] at htarget
    exact hstopping htarget hslots
  | draining op' n ha _ _ htarget hslots =>
    obtain rfl : op' = op := Option.some.inj (ha.symm.trans hactive)
    exact hstopping htarget hslots

theorem outcome (h : Coherent w) {r : Reply G} (hr : r ∈ w.replies) (hwaited : r.caller ∈ w.waited) :
    ∃ d ∈ w.delivered, r.cause = some d ∧ r.result = d.result ∧
      ∃ q, w.callers[r.caller]? = some q ∧ Served q d.request := by
  cases hcause : r.cause with
  | none => exact absurd hwaited (h.books.early r hr hcause)
  | some d =>
    obtain ⟨hmem, hresult, hserved⟩ := h.books.caused r hr d hcause
    exact ⟨d, hmem, rfl, hresult, hserved⟩

theorem disciplined (h : Coherent w) : Disciplined w where
  active := h.active
  deliveries := h.books.deliveries
  distinct := h.books.distinct
  callers := h.books.once
  answered := h.answered
  completes := h.completes
  idle := h.idle
  loading _ := h.loading
  unloading _ := h.unloading
  outcome _ := h.outcome

end Coherent

/-- Whatever commands, messages and adapter answers arrive in whatever order, operations,
callers and slots keep their discipline. -/
theorem operation_discipline (boot : Boot G) (host : Host) (events : List (Event G)) :
    Disciplined ((boot.world host).run events) :=
  (coherent_run boot host events).disciplined

end Supervisor
