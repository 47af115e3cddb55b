import IDoris.Supervisor.Handlers
import IDoris.Supervisor.Machine

/-!
# Where the actor stands with its active operation

Idle, working on one spawned operation, or waiting for the chats of the model to
unload. Every event moves between these three as listed here.
-/
namespace Supervisor

open Interaction

variable {G : Type}

namespace ActiveOp

/-- An unload that waits for chats and has spawned nothing. -/
def waiting (op : ActiveOp G) : Bool :=
  match op.kind with
  | .unload _ false => true
  | _ => false

/-- The state of the target while the operation is spawned. -/
def targetState (op : ActiveOp G) : ModelState :=
  match op.kind with
  | .load _ _ _ _ => .loading
  | .unload _ _ => .stopping

end ActiveOp

/-- The task asks what its fence allows and reports on exactly its victims. -/
def OpTask.Conforms (t : OpTask G) : Prop :=
  (∃ phase, Safe (flowMonitor G t.id t.evict) (fun o _ => o.Fits t.evict) t.body phase) ∧
    ∀ message, (t.onPanic message).Fits t.evict

/-- The task is the spawned half of the active operation. -/
structure OpTask.Works (t : OpTask G) (op : ActiveOp G) : Prop where
  serial : t.serial = op.serial
  id : t.id = op.id
  request : t.request = op.request
  victims : op.targetState = .stopping → t.evict = []
  conforms : t.Conforms

/-- No slot outside `ids` is touched by an operation. -/
def SettledExcept (models : Models G) (ids : List String) : Prop :=
  ∀ j v, slotView models j = some v → j ∉ ids → v.1.settled = true

inductive Stage (actor : Actor G) (tasks : List (OpTask G)) : Prop where
  | idle (hactive : actor.activeOp = none) (htasks : tasks = [])
      (hslots : SettledExcept actor.models [])
  | working (op : ActiveOp G) (t : OpTask G) (hactive : actor.activeOp = some op)
      (hspawned : op.waiting = false) (htasks : tasks = [t]) (hworks : t.Works op)
      (htarget : slotView actor.models op.id = some (op.targetState, 0))
      (hvictims : ∀ v ∈ t.evict, v ≠ op.id ∧ slotView actor.models v = some (.stopping, 0))
      (hslots : SettledExcept actor.models (op.id :: t.evict))
  | draining (op : ActiveOp G) (n : Nat) (hactive : actor.activeOp = some op)
      (hwaiting : op.waiting = true) (htasks : tasks = [])
      (htarget : slotView actor.models op.id = some (.stopping, n + 1))
      (hslots : SettledExcept actor.models [op.id])

variable {actor after : Actor G} {tasks : List (OpTask G)} {t t' : OpTask G} {op : ActiveOp G}
  {serial caller : Nat} {id : String} {evict : List String}

@[simp] theorem ActiveOp.join_id : (op.join caller).id = op.id := rfl
@[simp] theorem ActiveOp.join_serial : (op.join caller).serial = op.serial := rfl

@[simp] theorem ActiveOp.join_waiting : (op.join caller).waiting = op.waiting := by
  obtain ⟨serial, id, kind⟩ := op
  cases kind with
  | load policy memoryGb breach waiters => rfl
  | unload waiters started => cases started <;> rfl

@[simp] theorem ActiveOp.join_targetState : (op.join caller).targetState = op.targetState := by
  obtain ⟨serial, id, kind⟩ := op
  cases kind <;> rfl

@[simp] theorem ActiveOp.join_request : (op.join caller).request = op.request := by
  obtain ⟨serial, id, kind⟩ := op
  cases kind <;> rfl

@[simp] theorem ActiveOp.join_waiters :
    (op.join caller).kind.waiters = op.kind.waiters ++ [caller] := by
  obtain ⟨serial, id, kind⟩ := op
  cases kind <;> rfl

theorem OpTask.Works.join (h : t.Works op) : t.Works (op.join caller) where
  serial := h.serial
  id := h.id
  request := by rw [ActiveOp.join_request]; exact h.request
  victims := by rw [ActiveOp.join_targetState]; exact h.victims
  conforms := h.conforms

namespace Stage

/-- Nothing but the slots' states, the operation and the tasks counts. -/
theorem congr (h : Stage actor tasks) (hactive : after.activeOp = actor.activeOp)
    (hview : ∀ j, slotView after.models j = slotView actor.models j) : Stage after tasks := by
  have hslots : ∀ {ids}, SettledExcept actor.models ids → SettledExcept after.models ids :=
    fun h j v hv => h j v (hview j ▸ hv)
  cases h with
  | idle ha ht hs => exact .idle (hactive.trans ha) ht (hslots hs)
  | working op t ha hw ht hworks htarget hvictims hs =>
    refine .working op t (hactive.trans ha) hw ht hworks ((hview _).trans htarget) ?_ (hslots hs)
    exact fun v hv => ⟨(hvictims v hv).1, (hview v).trans (hvictims v hv).2⟩
  | draining op n ha hw ht htarget hs =>
    exact .draining op n (hactive.trans ha) hw ht ((hview _).trans htarget) (hslots hs)

theorem join (h : Stage actor tasks) (hactive : actor.activeOp = some op) :
    Stage (actor.join caller) tasks := by
  have hjoined : (actor.join caller).activeOp = some (op.join caller) := by
    simp [Actor.join, hactive]
  cases h with
  | idle ha _ _ => rw [hactive] at ha; cases ha
  | working op' t ha hw ht hworks htarget hvictims hs =>
    obtain rfl : op' = op := Option.some.inj (ha.symm.trans hactive)
    refine .working _ t hjoined ?_ ht hworks.join ?_ hvictims hs
    · rw [ActiveOp.join_waiting]; exact hw
    · rw [ActiveOp.join_targetState]; exact htarget
  | draining op' n ha hw ht htarget hs =>
    obtain rfl : op' = op := Option.some.inj (ha.symm.trans hactive)
    exact .draining _ n hjoined (by rw [ActiveOp.join_waiting]; exact hw) ht htarget hs

/-- Without an operation nothing is spawned and every slot is settled. -/
theorem of_idle (h : Stage actor tasks) (hidle : actor.activeOp = none) :
    tasks = [] ∧ SettledExcept actor.models [] := by
  cases h with
  | idle _ ht hs => exact ⟨ht, hs⟩
  | working op t ha => rw [hidle] at ha; cases ha
  | draining op n ha => rw [hidle] at ha; cases ha

/-- An unload that waits for chats has nothing spawned. -/
theorem tasks_of_waiting (h : Stage actor tasks) (hactive : actor.activeOp = some op)
    (hwaiting : op.waiting = true) : tasks = [] := by
  cases h with
  | idle _ ht _ => exact ht
  | working op' t ha hw =>
    obtain rfl : op' = op := Option.some.inj (ha.symm.trans hactive)
    rw [hwaiting] at hw
    cases hw
  | draining _ _ _ _ ht => exact ht

/-- A spawned operation is the active one, and the only one. -/
theorem of_task (h : Stage actor tasks) (ht : t ∈ tasks) : tasks = [t] ∧
    ∃ op, actor.activeOp = some op ∧ op.waiting = false ∧ t.Works op ∧
      slotView actor.models op.id = some (op.targetState, 0) ∧
      (∀ v ∈ t.evict, v ≠ op.id ∧ slotView actor.models v = some (.stopping, 0)) ∧
      SettledExcept actor.models (op.id :: t.evict) := by
  cases h with
  | idle _ htasks _ => rw [htasks] at ht; cases ht
  | working op t' ha hw htasks hworks htarget hvictims hs =>
    rw [htasks] at ht
    obtain rfl := List.mem_singleton.mp ht
    exact ⟨htasks, op, ha, hw, hworks, htarget, hvictims, hs⟩
  | draining op n _ _ htasks => rw [htasks] at ht; cases ht

end Stage

section Spawning

variable [Gigabytes G]

/-- The spawned load starts under its marker, with no load of it issued yet. -/
theorem installLoad_safe {req : LoadRequest G} {plan : LoadPlan G}
    (hsettled : SettledExcept actor.models [])
    (hvictims : ∀ v ∈ plan.evict, Victim actor.models req.id v) :
    Safe (flowMonitor G req.id plan.evict) (fun o _ => o.Fits plan.evict)
      (installLoad actor serial caller req plan).2.body .begun := by
  have hprevious : previousSettled (previousOf (plan.evict.foldl
      (fun models victim => models.setState victim .stopping) actor.models) req.id) := by
    intro p hp
    obtain ⟨n, hn⟩ := previousOf_view hp
    rw [view_stopAll, if_neg (fun hv => (hvictims _ hv).1 rfl)] at hn
    exact hsettled _ _ hn List.not_mem_nil
  exact runLoadFlow_safe (loadContext req plan.evict _ _ _) hprevious

theorem startUnload_conforms {limit : G} {env : Env G} :
    (startUnload serial id limit env).Conforms :=
  ⟨⟨.closed, runUnloadFlow_safe⟩, fun _ => rfl⟩

/-- A load that takes the mutex stops its victims and marks its target. -/
theorem Stage.installLoad {req : LoadRequest G} {plan : LoadPlan G} {env : Env G}
    (h : Stage actor tasks) (hidle : actor.activeOp = none)
    (hvictims : ∀ v ∈ plan.evict, Victim actor.models req.id v) :
    Stage (installLoad { actor with env := env } serial caller req plan).1
      (tasks ++ [(Supervisor.installLoad { actor with env := env } serial caller req plan).2]) := by
  obtain ⟨rfl, hsettled⟩ := h.of_idle hidle
  let claimed : Actor G := { actor with env := env }
  have hview : ∀ j, slotView (Supervisor.installLoad claimed serial caller req plan).1.models j =
      if j = req.id then some (.loading, 0)
      else if j ∈ plan.evict then (slotView actor.models j).map fun v => (.stopping, v.2)
      else slotView actor.models j := fun j => installLoad_view
  have hconforms : (Supervisor.installLoad claimed serial caller req plan).2.Conforms :=
    ⟨⟨.begun, @installLoad_safe G claimed serial caller _ req plan hsettled hvictims⟩,
      fun _ => loadPanic_fits⟩
  refine .working ⟨serial, req.id, .load req.policy req.memoryGb req.allowHeadroomBreach [caller]⟩
    (Supervisor.installLoad { actor with env := env } serial caller req plan).2 rfl rfl rfl
    ⟨rfl, rfl, rfl, nofun, hconforms⟩ ?_ ?_ ?_
  · rw [hview, if_pos rfl]
    rfl
  · intro v (hv : v ∈ plan.evict)
    obtain ⟨hne, state, -, hstate⟩ := hvictims v hv
    refine ⟨hne, ?_⟩
    rw [hview, if_neg hne, if_pos hv, hstate]
    rfl
  · intro j v hv (hj : j ∉ req.id :: plan.evict)
    simp only [List.mem_cons, not_or] at hj
    rw [hview, if_neg hj.1, if_neg hj.2] at hv
    exact hsettled j v hv List.not_mem_nil

/-- An unload that takes the mutex starts, or waits for the chats in flight. -/
theorem Stage.installUnload (h : Stage actor tasks) (hidle : actor.activeOp = none)
    (hknown : (slotView actor.models id).isSome = true) :
    Stage (installUnload actor serial caller id).1
      (tasks ++ (Supervisor.installUnload actor serial caller id).2.toList) := by
  obtain ⟨rfl, hsettled⟩ := h.of_idle hidle
  obtain ⟨⟨state, n⟩, hslot⟩ := Option.isSome_iff_exists.mp hknown
  obtain ⟨hview, hactive, hspawned⟩ := @installUnload_turn G actor serial caller id _ state n hslot
  have htarget : slotView (Supervisor.installUnload actor serial caller id).1.models id =
      some (.stopping, n) := by
    rw [hview, if_pos rfl, hslot]
    rfl
  have hothers : SettledExcept (Supervisor.installUnload actor serial caller id).1.models [id] := by
    intro j v hv hj
    rw [hview, if_neg (fun he => hj (by simp [he]))] at hv
    exact hsettled j v hv List.not_mem_nil
  rcases hspawned with ⟨hnone, hn⟩ | ⟨rfl, limit, hsome⟩
  · obtain ⟨m, rfl⟩ := Nat.exists_eq_succ_of_ne_zero hn
    rw [hnone]
    exact .draining _ m hactive (by simp [ActiveOp.waiting]) rfl htarget hothers
  · rw [hsome]
    exact .working _ _ hactive (by simp [ActiveOp.waiting]) rfl
      ⟨rfl, rfl, rfl, fun _ => rfl, startUnload_conforms⟩ htarget nofun hothers

end Spawning

section Tasks

theorem OpTask.respond_eq_some {r : Responses G} {host host' : Host}
    (h : t.respond r host = some (t', host')) :
    ∃ number op next, t.issued = some number ∧ t.body = .ask op next ∧
      t' = { t with body := next (r.answer host.marker op).1, issued := none } ∧
      host' = { host.learn number op (r.answer host.marker op).1 with
        marker := (r.answer host.marker op).2 } := by
  unfold respond at h
  split at h
  · rename_i number op next hissued hbody
    cases h
    exact ⟨number, op, next, hissued, hbody, rfl, rfl⟩
  · cases h

theorem OpTask.Conforms.respond {r : Responses G} {host host' : Host} (h : t.Conforms)
    (hr : t.respond r host = some (t', host')) : t'.Conforms := by
  obtain ⟨number, op, next, -, hbody, rfl, -⟩ := respond_eq_some hr
  obtain ⟨⟨phase, hsafe⟩, hpanic⟩ := h
  rw [hbody] at hsafe
  exact ⟨⟨_, hsafe.2 _⟩, hpanic⟩

theorem OpTask.Conforms.panic (h : t.Conforms) (message : String) : (t.panic message).Conforms := by
  unfold OpTask.panic
  split
  · exact ⟨⟨.closed, h.2 message⟩, h.2⟩
  · exact h

/-- The step of a task keeps what the operation knows about it. -/
structure OpTask.Same (t t' : OpTask G) : Prop where
  serial : t'.serial = t.serial
  id : t'.id = t.id
  request : t'.request = t.request
  evict : t'.evict = t.evict
  conforms : t.Conforms → t'.Conforms

theorem OpTask.same_issue {number : Nat} : t.Same { t with issued := some number } :=
  ⟨rfl, rfl, rfl, rfl, fun h => h⟩

theorem OpTask.same_respond {r : Responses G} {host host' : Host}
    (hr : t.respond r host = some (t', host')) : t.Same t' := by
  obtain ⟨number, op, next, -, -, ht, -⟩ := respond_eq_some hr
  exact ⟨by rw [ht], by rw [ht], by rw [ht], by rw [ht], fun h => h.respond hr⟩

theorem OpTask.same_panic (message : String) : t.Same (t.panic message) := by
  refine ⟨?_, ?_, ?_, ?_, fun h => h.panic message⟩ <;>
    unfold OpTask.panic <;> split <;> rfl

theorem Stage.update (h : Stage actor [t]) (hsame : t.Same t') : Stage actor [t'] := by
  obtain ⟨-, op, hactive, hspawned, hworks, htarget, hvictims, hslots⟩ :=
    h.of_task List.mem_cons_self
  refine .working op t' hactive hspawned rfl ?_ htarget ?_ ?_
  · exact ⟨hsame.serial.trans hworks.serial, hsame.id.trans hworks.id,
      hsame.request.trans hworks.request, fun hs => hsame.evict.trans (hworks.victims hs),
      hsame.conforms hworks.conforms⟩
  · rw [hsame.evict]; exact hvictims
  · rw [hsame.evict]; exact hslots

theorem OpTask.finished_fits {outcome : OpOutcome G} (h : t.Conforms)
    (hf : t.finished = some outcome) : outcome.Fits t.evict := by
  obtain ⟨⟨phase, hsafe⟩, -⟩ := h
  unfold OpTask.finished at hf
  split at hf
  · rename_i outcome' hbody
    cases hf
    rw [hbody] at hsafe
    exact hsafe
  · cases hf

variable [Gigabytes G]

/-- The one report of the operation leaves the actor idle. -/
theorem Stage.deliver {outcome : OpOutcome G} (h : Stage actor [t])
    (hpoisoned : actor.poisoned = none) (hf : t.finished = some outcome) :
    (actor.receive t.id outcome).1.activeOp = none ∧
      Stage (actor.receive t.id outcome).1 [] ∧
      ∀ j, (slotView (actor.receive t.id outcome).1.models j).map Prod.snd =
        (slotView actor.models j).map Prod.snd := by
  obtain ⟨-, op, -, -, hworks, htarget, hvictims, hslots⟩ := h.of_task List.mem_cons_self
  have hreceive : actor.receive t.id outcome = opDone actor t.id outcome := by
    rw [Actor.receive, hpoisoned]
  rw [hreceive]
  have hknown : (slotView actor.models t.id).isSome = true := by rw [hworks.id, htarget]; rfl
  have hvictimsKnown : ∀ v ∈ t.evict, (slotView actor.models v).isSome = true := by
    intro v hv
    rw [(hvictims v hv).2]
    rfl
  obtain ⟨hidle, hsettles⟩ :=
    opDone_settles (OpTask.finished_fits hworks.conforms hf) hknown hvictimsKnown
  refine ⟨hidle, .idle hidle rfl fun j v hv _ => ?_, hsettles.inflight⟩
  by_cases hj : j ∈ t.id :: t.evict
  · exact hsettles.settled j v hj hv
  · rw [hsettles.others j hj] at hv
    rw [hworks.id] at hj
    exact hslots j v hv hj

end Tasks

section Chats

variable {model : String} {permit : Bool}

/-- A chat is dispatched beside any operation: its model is ready. -/
theorem Stage.chat (h : Stage actor tasks) (hc : handleChat actor model permit = .ok after) :
    Stage after tasks := by
  obtain ⟨n, hready, hview, hactive, -⟩ := handleChat_ok hc
  have hkeep : ∀ {j state m}, state ≠ .ready → slotView actor.models j = some (state, m) →
      slotView after.models j = some (state, m) := by
    intro j state m hne hj
    rw [hview, if_neg, hj]
    rintro rfl
    rw [hready] at hj
    cases hj
    exact hne rfl
  have hslots : ∀ {ids}, SettledExcept actor.models ids → SettledExcept after.models ids := by
    intro ids hs j v hv hj
    rw [hview] at hv
    split at hv
    · obtain ⟨old, hold, rfl⟩ := Option.map_eq_some_iff.mp hv
      exact hs j old hold hj
    · exact hs j v hv hj
  cases h with
  | idle ha ht hs => exact .idle (hactive.trans ha) ht (hslots hs)
  | working op t ha hw ht hworks htarget hvictims hs =>
    have hstate : op.targetState ≠ .ready := by
      unfold ActiveOp.targetState
      split <;> nofun
    refine .working op t (hactive.trans ha) hw ht hworks (hkeep hstate htarget) ?_ (hslots hs)
    exact fun v hv => ⟨(hvictims v hv).1, hkeep nofun (hvictims v hv).2⟩
  | draining op n ha hw ht htarget hs =>
    exact .draining op n (hactive.trans ha) hw ht (hkeep nofun htarget) (hslots hs)

theorem ActiveOp.eq_of_waiting (h : op.waiting = true) :
    op = ⟨op.serial, op.id, .unload op.kind.waiters false⟩ := by
  obtain ⟨serial, id, kind⟩ := op
  cases kind with
  | load policy memoryGb breach waiters => cases h
  | unload waiters started =>
    cases started with
    | true => cases h
    | false => rfl

variable [Gigabytes G]

/-- The end of a chat may start the unload that waits for it. -/
theorem Stage.chatDone (h : Stage actor tasks)
    (hknown : (slotView actor.models model).isSome = true) :
    Stage (chatDone actor model).1 (tasks ++ (Supervisor.chatDone actor model).2.toList) := by
  obtain ⟨⟨state, m⟩, hslot⟩ := Option.isSome_iff_exists.mp hknown
  obtain ⟨hview, -, hturn⟩ := chatDone_turn hslot
  have hslots : ∀ {ids}, SettledExcept actor.models ids →
      SettledExcept (Supervisor.chatDone actor model).1.models ids := by
    intro ids hs j v hv hj
    rw [hview] at hv
    split at hv
    · obtain ⟨old, hold, rfl⟩ := Option.map_eq_some_iff.mp hv
      exact hs j old hold hj
    · exact hs j v hv hj
  have hidle : ∀ {j state}, slotView actor.models j = some (state, 0) →
      slotView (Supervisor.chatDone actor model).1.models j = some (state, 0) := by
    intro j state hj
    rw [hview, hj]
    split <;> rfl
  cases h with
  | idle ha ht hs =>
    rcases hturn with ⟨hactive, hnone, -⟩ | ⟨serial, waiters, limit, hsome, -⟩
    · rw [hnone, Option.toList_none, List.append_nil]
      exact .idle (hactive.trans ha) ht (hslots hs)
    · rw [ha] at hsome
      cases hsome
  | working op t ha hw ht hworks htarget hvictims hs =>
    rcases hturn with ⟨hactive, hnone, -⟩ | ⟨serial, waiters, limit, hsome, -⟩
    · rw [hnone, Option.toList_none, List.append_nil]
      refine .working op t (hactive.trans ha) hw ht hworks (hidle htarget) ?_ (hslots hs)
      exact fun v hv => ⟨(hvictims v hv).1, hidle (hvictims v hv).2⟩
    · rw [ha] at hsome
      cases hsome
      cases hw
  | draining op n ha hw ht htarget hs =>
    have hop := ActiveOp.eq_of_waiting hw
    rcases hturn with ⟨hactive, hnone, hmore⟩ | ⟨serial, waiters, limit, hsome, hm, hactive, hspawn⟩
    · rw [hnone, Option.toList_none, List.append_nil]
      by_cases hid : model = op.id
      · rw [hid, htarget] at hslot
        cases hslot
        have hleft := hmore op.serial op.kind.waiters (by rw [ha, hid]; exact congrArg some hop)
        obtain ⟨k, rfl⟩ := Nat.exists_eq_succ_of_ne_zero hleft
        refine .draining op k (hactive.trans ha) hw ht ?_ (hslots hs)
        rw [hview, if_pos hid, htarget]
        rfl
      · refine .draining op n (hactive.trans ha) hw ht ?_ (hslots hs)
        rw [hview, if_neg hid, htarget]
    · rw [ha] at hsome
      obtain rfl := Option.some.inj hsome
      rw [hspawn, ht]
      refine .working _ _ hactive rfl rfl ⟨rfl, rfl, rfl, fun _ => rfl, startUnload_conforms⟩ ?_
        nofun (hslots hs)
      rw [hview, if_pos rfl, htarget]
      simp only at hslot htarget
      rw [hslot] at htarget
      cases htarget
      simp only [Option.map_some, ActiveOp.targetState, hm]

end Chats

end Supervisor
