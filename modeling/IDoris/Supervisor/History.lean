import IDoris.Supervisor.Evidence
import IDoris.Supervisor.Turns

/-!
# Where an operation comes from

A spawned operation is followed back to the event that started it, through the answers it
has heard since.
-/
namespace Supervisor

open Interaction

variable {G : Type}

/-- What a slot is charged, and whether a load of it is unconfirmed. -/
def ModelSlot.holding (slot : ModelSlot G) : G × CapacityCharge × Bool :=
  (slot.memoryGb, slot.charge, slot.loadUnconfirmed)

def holdingView (models : Models G) (id : String) : Option (G × CapacityCharge × Bool) :=
  (models.get id).map ModelSlot.holding

section Holdings

variable {models : Models G} {id j : String} {evict : List String}

theorem holding_modify {f : ModelSlot G → ModelSlot G} (h : ∀ slot, (f slot).holding = slot.holding) :
    holdingView (models.modify id f) j = holdingView models j := by
  unfold holdingView
  rw [Keyed.Map.get_modify]
  split
  · cases models.get j with
    | none => rfl
    | some slot => exact congrArg some (h slot)
  · rfl

@[simp] theorem holding_setState {state : ModelState} :
    holdingView (models.setState id state) j = holdingView models j := holding_modify fun _ => rfl

@[simp] theorem holding_stopAll : holdingView
    (evict.foldl (fun models victim => models.setState victim .stopping) models) j =
      holdingView models j := by
  induction evict generalizing models with
  | nil => rfl
  | cons victim rest ih => rw [List.foldl_cons, ih, holding_setState]

@[simp] theorem holding_exchange {n : Nat} :
    holdingView (models.exchange n) j = holdingView models j := by
  unfold holdingView
  rw [Keyed.Map.get_exchange]

theorem get_stopAll (h : j ∉ evict) :
    (evict.foldl (fun models victim => models.setState victim .stopping) models).get j =
      models.get j := by
  induction evict generalizing models with
  | nil => rfl
  | cons victim rest ih =>
    simp only [List.mem_cons, not_or] at h
    rw [List.foldl_cons, ih h.2]
    exact Keyed.Map.get_modify_of_ne (Ne.symm h.1)

theorem previousOf_stopAll (h : id ∉ evict) :
    previousOf (evict.foldl (fun models victim => models.setState victim .stopping) models) id =
      previousOf models id := by
  rw [previousOf, get_stopAll h]
  rfl

theorem handleChat_holding {actor after : Actor G} {model j : String} {permit : Bool}
    (h : handleChat actor model permit = .ok after) :
    holdingView after.models j = holdingView actor.models j := by
  unfold handleChat at h
  split at h
  · cases h
  · split at h
    · cases h
    · split at h
      · cases h
        exact holding_modify fun _ => rfl
      · cases h

end Holdings

section Heard

/-- The call that the answer completes. -/
def OpTask.heard (t : OpTask G) (r : Responses G) (marker : Bool) : List (Call G) :=
  match t.issued, t.body with
  | some _, .ask op _ => [⟨op, (r.answer marker op).1⟩]
  | _, _ => []

variable [Gigabytes G]

/-- What the event lets operation `serial` hear. -/
def World.heard (w : World G) (serial : Nat) : Event G → List (Call G)
  | .respond n r =>
    if n = serial then ((w.task serial).map fun t => t.heard r w.host.marker).getD [] else []
  | _ => []

/-- The answered calls of operation `serial` along the events. -/
def World.transcript (w : World G) (serial : Nat) : List (Event G) → List (Call G)
  | [] => []
  | event :: rest => w.heard serial event ++ (w.step event).transcript serial rest

theorem World.transcript_append (w : World G) (serial : Nat) (first rest : List (Event G)) :
    w.transcript serial (first ++ rest) =
      w.transcript serial first ++ (w.run first).transcript serial rest := by
  induction first generalizing w with
  | nil => rfl
  | cons event first ih =>
    rw [List.cons_append, transcript, ih, transcript, List.append_assoc]
    rfl

theorem World.transcript_snoc (w : World G) (serial : Nat) (first : List (Event G))
    (event : Event G) : w.transcript serial (first ++ [event]) =
      w.transcript serial first ++ (w.run first).heard serial event := by
  rw [transcript_append]
  exact congrArg _ (List.append_nil _)

end Heard

section Follows

/-- The operation has come here from its first state with these answers, or its task died. -/
structure OpTask.Follows (first t : OpTask G) (trace : List (Call G)) : Prop where
  same : first.Same t
  onPanic : t.onPanic = first.onPanic
  body : Leads first.body trace t.body ∨ ∃ message, t.body = .ret (first.onPanic message)

variable {first t t' : OpTask G} {trace : List (Call G)}

theorem OpTask.Same.trans (h : first.Same t) (h' : t.Same t') : first.Same t' where
  serial := h'.serial.trans h.serial
  id := h'.id.trans h.id
  request := h'.request.trans h.request
  evict := h'.evict.trans h.evict
  conforms := fun hc => h'.conforms (h.conforms hc)

theorem OpTask.Follows.refl (t : OpTask G) : t.Follows t [] :=
  ⟨⟨rfl, rfl, rfl, rfl, fun h => h⟩, rfl, .inl (.refl _)⟩

theorem OpTask.Follows.issue (h : first.Follows t trace) (number : Nat) :
    first.Follows { t with issued := some number } trace :=
  ⟨h.same.trans OpTask.same_issue, h.onPanic, h.body⟩

theorem OpTask.Follows.respond {r : Responses G} {host host' : Host} (h : first.Follows t trace)
    (hr : t.respond r host = some (t', host')) :
    first.Follows t' (trace ++ t.heard r host.marker) := by
  obtain ⟨number, op, next, hissued, hbody, rfl, -⟩ := OpTask.respond_eq_some hr
  have hheard : t.heard r host.marker = [⟨op, (r.answer host.marker op).1⟩] := by
    simp only [OpTask.heard, hissued, hbody]
  refine ⟨h.same.trans (OpTask.same_respond hr), h.onPanic, ?_⟩
  rw [hheard]
  obtain hleads | ⟨message, hdied⟩ := h.body
  · rw [hbody] at hleads
    exact .inl (hleads.snoc _)
  · rw [hbody] at hdied
    cases hdied

theorem OpTask.heard_of_respond_none {r : Responses G} {host : Host} (h : t.respond r host = none) :
    t.heard r host.marker = [] := by
  unfold OpTask.respond at h
  unfold OpTask.heard
  cases hissued : t.issued with
  | none => rfl
  | some number =>
    cases hbody : t.body with
    | ret outcome => rfl
    | ask op next =>
      rw [hissued, hbody] at h
      cases h

theorem OpTask.Follows.panic (h : first.Follows t trace) (message : String) :
    first.Follows (t.panic message) trace := by
  refine ⟨h.same.trans (OpTask.same_panic message), ?_, ?_⟩
  · rw [← h.onPanic]
    unfold OpTask.panic
    split <;> rfl
  · unfold OpTask.panic
    split
    · exact .inr ⟨message, by rw [h.onPanic]⟩
    · exact h.body

theorem OpTask.Follows.stays (h : first.Follows t trace) : first.Follows t (trace ++ []) := by
  rwa [List.append_nil]

end Follows

section Starts

variable [Gigabytes G]

/-- The arguments of the load flow that the command starts, read from the slots it leaves. -/
def World.contextOf (w : World G) (event : Event G) (req : LoadRequest G) (evict : List String) :
    LoadFlowContext G :=
  loadContext req evict (previousOf w.actor.models req.id) (w.step event).actor.models
    (w.step event).actor.env

/-- The bound on the memory in use that shows the unload of the model. -/
def World.unloadLimitOf (w : World G) (event : Event G) (id : String) : G :=
  unloadLimit (w.step event).actor.env (w.step event).actor.models id

/-- The event asks for the model to be unloaded, or ends a chat that an unload may wait for. -/
def Event.Unloads (event : Event G) (id : String) : Prop :=
  event = .unload id ∨ ∃ chat, event = .chatDone chat ∧ chat.model = id

/-- The event starts the operation. -/
inductive World.Starts (w : World G) (event : Event G) (t : OpTask G) : Prop where
  | load (req : LoadRequest G) (faults : LoadFaults) (plan : LoadPlan G)
      (hevent : event = .load req faults)
      (hplan : planLoad w.actor.env w.actor.models req = .ok plan)
      (hid : t.id = req.id) (hplanned : t.evict = plan.evict) (hevict : req.id ∉ plan.evict)
      (hpanic : t.onPanic = loadPanic req.id plan.evict (previousOf w.actor.models req.id))
      (hbody : t.body = runLoadFlow (w.contextOf event req plan.evict) plan.evict
        (previousOf w.actor.models req.id))
      (hholding : holdingView (w.step event).actor.models req.id =
        some (if plan.inherited then plan.requestCharge else req.memoryGb, plan.charge, false))
  | unload (id : String) (hevent : event.Unloads id)
      (hstart : t = startUnload t.serial id (w.unloadLimitOf event id) (w.step event).actor.env)

variable {w : World G} {event : Event G} {actor after : Actor G} {serial caller : Nat}
  {req : LoadRequest G} {plan : LoadPlan G}

theorem World.load_starts {faults : LoadFaults} {t : OpTask G} (h : t ∈ (w.load req faults).tasks)
    (hnew : t ∉ w.tasks) : w.Starts (.load req faults) t := by
  obtain ⟨hsame, -⟩ | ⟨-, -, plan, env, hplan, -, hactor, htasks⟩ := w.load_cases req faults
  · rw [hsame] at h
    exact absurd h hnew
  · rw [htasks] at h
    obtain rfl := List.mem_singleton.mp ((List.mem_append.mp h).resolve_left hnew)
    have hevict : req.id ∉ plan.evict := fun hmem => (planLoad_victims hplan req.id hmem).1 rfl
    have hstep : (w.step (.load req faults)).actor = (installLoad { w.actor with env := env }
      w.nextSerial w.callers.length req plan).1 := hactor
    refine .load req faults plan rfl hplan rfl rfl hevict ?_ ?_ ?_
    · simp only [installLoad, startLoad, previousOf_stopAll hevict]
    · simp only [World.contextOf, hstep, installLoad, startLoad, previousOf_stopAll hevict]
    · simp only [hstep, installLoad, startLoad, holding_setState]
      unfold holdingView
      rw [Keyed.Map.get_insert_self]
      rfl

/-- An unload is spawned with the limit of the slots it leaves. -/
theorem handleUnload_spawned {id : String} {marker : Bool} {t : OpTask G}
    (h : (handleUnload actor serial caller id marker).spawned = some t) :
    t = startUnload serial id (unloadLimit (handleUnload actor serial caller id marker).actor.env
      (handleUnload actor serial caller id marker).actor.models id)
      (handleUnload actor serial caller id marker).actor.env := by
  unfold handleUnload at h ⊢
  split at h
  · cases h
  · cases h
  · simp only [installUnload] at h ⊢
    split at h
    · cases h
      rfl
    · cases h

theorem chatDone_spawned {model : String} {t : OpTask G}
    (h : (chatDone actor model).2 = some t) :
    t = startUnload t.serial model (unloadLimit (chatDone actor model).1.env
      (chatDone actor model).1.models model) (chatDone actor model).1.env := by
  unfold chatDone at h ⊢
  split at h
  · cases h
  · dsimp only at h ⊢
    split at h
    · split at h
      · cases h
        rename_i hlast
        simp only [hlast, if_true]
        rfl
      · cases h
    · cases h

theorem World.unload_starts {id : String} {t : OpTask G} (h : t ∈ (w.unload id).tasks)
    (hnew : t ∉ w.tasks) : w.Starts (.unload id) t := by
  cases hrefusal : World.refusal w.actor with
  | some err =>
    simp only [World.unload, hrefusal] at h
    exact absurd h hnew
  | none =>
    have hunload : w.unload id = (w.register (.unload id)).apply w.callers.length
        (handleUnload w.actor w.nextSerial w.callers.length id w.host.marker) := by
      simp only [World.unload, hrefusal]
    rw [hunload, World.apply_tasks] at h
    have hspawned := handleUnload_spawned
      (Option.mem_toList.mp ((List.mem_append.mp h).resolve_left hnew))
    have hactor : (w.step (.unload id)).actor =
        (handleUnload w.actor w.nextSerial w.callers.length id w.host.marker).actor := by
      rw [World.step, hunload, World.apply_actor]
    apply Starts.unload id (.inl rfl)
    rw [World.unloadLimitOf, hactor]
    subst hspawned
    rfl

theorem World.chatDone_starts {chat : ChatTask} {t : OpTask G} (h : t ∈ (w.chatDone chat).tasks)
    (hnew : t ∉ w.tasks) : w.Starts (.chatDone chat) t := by
  by_cases hc : chat ∈ w.chats ∧ chat.returned = true
  · cases hpoisoned : w.actor.poisoned with
    | some msg =>
      simp only [World.chatDone, if_pos hc, hpoisoned] at h
      exact absurd h hnew
    | none =>
      have hdone : w.chatDone chat = ({ w with
          actor := (Supervisor.chatDone w.actor chat.model).1
          chats := w.chats.erase chat }).spawn (Supervisor.chatDone w.actor chat.model).2 := by
        simp only [World.chatDone, if_pos hc, hpoisoned]
      rw [hdone] at h
      have hspawned := chatDone_spawned
        (Option.mem_toList.mp ((List.mem_append.mp h).resolve_left hnew))
      have hactor : (w.step (.chatDone chat)).actor = (Supervisor.chatDone w.actor chat.model).1 := by
        rw [World.step, hdone]
        rfl
      apply Starts.unload chat.model (.inr ⟨chat, rfl, rfl⟩)
      rw [World.unloadLimitOf, hactor]
      exact hspawned
  · simp only [World.chatDone, if_neg hc] at h
    exact absurd h hnew

end Starts

section Reports

variable {first t : OpTask G} {trace : List (Call G)} {outcome : OpOutcome G}

theorem OpTask.body_of_finished (h : t.finished = some outcome) : t.body = .ret outcome := by
  unfold OpTask.finished at h
  split at h
  · rename_i outcome' hbody
    cases h
    exact hbody
  · cases h

variable [Gigabytes G]

/-- The report of a load task, also of one that died. -/
theorem OpTask.Follows.loadReport {ctx : LoadFlowContext G} {evict : List String}
    {previous : Option (PreviousModel G)} (h : first.Follows t trace)
    (hfinished : t.finished = some outcome) (hevict : ctx.id ∉ evict)
    (hpanic : first.onPanic = loadPanic ctx.id evict previous)
    (hbody : first.body = runLoadFlow ctx evict previous) :
    LoadReport ctx evict previous trace outcome := by
  have hret := OpTask.body_of_finished hfinished
  obtain hleads | ⟨message, hdied⟩ := h.body
  · rw [hbody, hret] at hleads
    exact runLoadFlow_leads hevict hleads
  · rw [hret, hpanic] at hdied
    cases hdied
    refine .mk _ _ _ _ _ (.unconfirmed _ previous (.inl rfl)) fun v hv => ?_
    obtain ⟨victim, -, hvictim⟩ := List.mem_map.mp hv
    cases hvictim

theorem OpTask.Follows.unloadReport {serial : Nat} {id : String} {limit : G} {env : Env G}
    (h : first.Follows t trace) (hfinished : t.finished = some outcome)
    (hfirst : first = startUnload serial id limit env) :
    ∃ result status, outcome = .unload result status ∧
      (result = .ok () → ReleasedAfter trace id [id] limit) := by
  have hret := OpTask.body_of_finished hfinished
  subst hfirst
  obtain hleads | ⟨message, hdied⟩ := h.body
  · rw [hret] at hleads
    exact runUnloadFlow_leads hleads
  · rw [hret] at hdied
    cases hdied
    exact ⟨_, _, rfl, nofun⟩

end Reports

section Steps

variable [Gigabytes G] {w : World G} {event : Event G} {after : Actor G}

theorem chatDone_holding {actor : Actor G} {model j : String} :
    holdingView (chatDone actor model).1.models j = holdingView actor.models j := by
  unfold chatDone
  split
  · rfl
  · have hmodify : holdingView (actor.models.modify model fun slot => { slot with
        inflight := slot.inflight - 1 }) j = holdingView actor.models j :=
      holding_modify fun _ => rfl
    dsimp only
    split
    · split <;> exact hmodify
    · exact hmodify

/-- Only a new load and the report of an operation change what a slot is charged. -/
theorem World.Turn.holding (h : w.Turn event after) {j : String}
    (hload : ∀ req faults, event = .load req faults → w.actor.activeOp = none → req.id ≠ j)
    (hdone : ∀ serial, event ≠ .opDone serial) :
    holdingView after.models j = holdingView w.actor.models j := by
  cases h with
  | stays => rfl
  | joined => rfl
  | loading req faults plan env _ hscreen =>
    have hne := hload req faults rfl (screenLoad_admitted hscreen).1
    simp only [installLoad, startLoad, holding_setState]
    have hinsert : ∀ (models : Models G) (slot : ModelSlot G),
        holdingView (models.insert req.id slot) j = holdingView models j := by
      intro models slot
      unfold holdingView
      rw [Keyed.Map.get_insert, if_neg hne]
    rw [hinsert, holding_stopAll]
  | stopping => exact holding_setState
  | chatted model permit after hchat => exact handleChat_holding hchat
  | chatEnded => exact chatDone_holding
  | delivered t => exact absurd rfl (hdone t.serial)
  | rehashedModels => exact holding_exchange
  | rehashedCovered => rfl
  | peer => rfl

/-- The operation was out before the event and goes on, and every slot keeps its charge. -/
structure World.Continues (w : World G) (event : Event G) (t t' : OpTask G) : Prop where
  mem : t ∈ w.tasks
  follows : ∀ (first : OpTask G) (trace : List (Call G)), first.Follows t trace →
    first.Follows t' (trace ++ w.heard t.serial event)
  holding : ∀ j, holdingView (w.step event).actor.models j = holdingView w.actor.models j

variable {t t' t'' : OpTask G} {serial : Nat}

theorem Coherent.task_of_mem (h : Coherent w) (ht : t ∈ w.tasks) : w.task t.serial = some t := by
  obtain ⟨htasks, -⟩ := h.stage.of_task ht
  exact World.task_of_single htasks

theorem Coherent.steady (h : Coherent w) (ht : t ∈ w.tasks) (hdone : ∀ serial, event ≠ .opDone serial)
    (j : String) : holdingView (w.step event).actor.models j = holdingView w.actor.models j := by
  obtain ⟨-, op, hactive, -⟩ := h.stage.of_task ht
  refine (h.turn event).holding (fun _ _ _ hidle => ?_) hdone
  rw [hactive] at hidle
  cases hidle

theorem Coherent.stays (h : Coherent w) (ht : t ∈ w.tasks)
    (hdone : ∀ serial, event ≠ .opDone serial) (hheard : w.heard t.serial event = []) :
    w.Continues event t t where
  mem := ht
  follows first trace hfollows := by
    rw [hheard]
    exact hfollows.stays
  holding := h.steady ht hdone

theorem Coherent.moves (h : Coherent w) (ht : w.task serial = some t)
    (hdone : ∀ serial, event ≠ .opDone serial) (hmem : t' ∈ (w.updateTask serial t'').tasks)
    (hfollows : ∀ (first : OpTask G) (trace : List (Call G)), first.Follows t trace →
      first.Follows t'' (trace ++ w.heard serial event)) : w.Continues event t t' := by
  obtain ⟨hold, rfl⟩ := World.task_mem ht
  obtain ⟨htasks, -⟩ := h.stage.of_task hold
  have hnew : t' = t'' := by simpa [World.updateTask, htasks] using hmem
  subst hnew
  exact ⟨hold, hfollows, h.steady hold hdone⟩

/-- An operation that is out after an event was started by it, or was out and goes on. -/
theorem Coherent.task_step (h : Coherent w) (event : Event G) (ht' : t' ∈ (w.step event).tasks) :
    w.Starts event t' ∨ ∃ t, w.Continues event t t' := by
  cases event with
  | load req faults =>
    by_cases hold : t' ∈ w.tasks
    · exact .inr ⟨t', h.stays hold (by rintro _ ⟨⟩) rfl⟩
    · exact .inl (World.load_starts ht' hold)
  | unload id =>
    by_cases hold : t' ∈ w.tasks
    · exact .inr ⟨t', h.stays hold (by rintro _ ⟨⟩) rfl⟩
    · exact .inl (World.unload_starts ht' hold)
  | chat model permit =>
    have hsame : (w.step (.chat model permit)).tasks = w.tasks := by
      simp only [World.step, World.chat]
      split
      · rfl
      · split <;> rfl
    rw [hsame] at ht'
    exact .inr ⟨t', h.stays ht' (by rintro _ ⟨⟩) rfl⟩
  | issue serial =>
    cases ht : w.task serial with
    | none =>
      simp only [World.step, World.issue, ht] at ht'
      exact .inr ⟨t', h.stays ht' (by rintro _ ⟨⟩) rfl⟩
    | some t =>
      cases hop : t.pending with
      | none =>
        simp only [World.step, World.issue, ht, hop] at ht'
        exact .inr ⟨t', h.stays ht' (by rintro _ ⟨⟩) rfl⟩
      | some op =>
        simp only [World.step, World.issue, ht, hop] at ht'
        exact .inr ⟨t, h.moves ht (by rintro _ ⟨⟩) ht' fun first trace hfollows =>
          (hfollows.issue w.host.calls).stays⟩
  | respond serial r =>
    cases ht : w.task serial with
    | none =>
      simp only [World.step, World.respond, ht, Option.bind_none] at ht'
      refine .inr ⟨t', h.stays ht' (by rintro _ ⟨⟩) ?_⟩
      have hne : serial ≠ t'.serial := by
        rintro rfl
        rw [h.task_of_mem ht'] at ht
        cases ht
      simp only [World.heard, if_neg hne]
    | some t =>
      have hheard : w.heard serial (.respond serial r) = t.heard r w.host.marker := by
        simp only [World.heard, if_true, ht, Option.map_some, Option.getD_some]
      cases hr : t.respond r w.host with
      | none =>
        simp only [World.step, World.respond, ht, Option.bind_some, hr] at ht'
        obtain ⟨hold, rfl⟩ := World.task_mem ht
        obtain ⟨htasks, -⟩ := h.stage.of_task hold
        rw [htasks] at ht'
        obtain rfl := List.mem_singleton.mp ht'
        exact .inr ⟨t', h.stays hold (by rintro _ ⟨⟩) (hheard.trans (OpTask.heard_of_respond_none hr))⟩
      | some moved =>
        simp only [World.step, World.respond, ht, Option.bind_some, hr] at ht'
        refine .inr ⟨t, h.moves ht (by rintro _ ⟨⟩) ht' fun first trace hfollows => ?_⟩
        rw [hheard]
        exact hfollows.respond hr
  | panic serial message =>
    cases ht : w.task serial with
    | none =>
      simp only [World.step, World.panic, ht] at ht'
      exact .inr ⟨t', h.stays ht' (by rintro _ ⟨⟩) rfl⟩
    | some t =>
      simp only [World.step, World.panic, ht] at ht'
      exact .inr ⟨t, h.moves ht (by rintro _ ⟨⟩) ht' fun first trace hfollows =>
        (hfollows.panic message).stays⟩
  | opDone serial =>
    have hunchanged : w.step (.opDone serial) = w → ∃ t, w.Continues (.opDone serial) t t' := by
      intro hsame
      rw [hsame] at ht'
      exact ⟨t', ht', fun _ _ hfollows => hfollows.stays, fun _ => by rw [hsame]⟩
    cases ht : w.task serial with
    | none => exact .inr (hunchanged (by simp only [World.step, World.opDone, ht]))
    | some t =>
      cases hf : t.finished with
      | none => exact .inr (hunchanged (by simp only [World.step, World.opDone, ht, hf]))
      | some outcome =>
        obtain ⟨hold, rfl⟩ := World.task_mem ht
        obtain ⟨htasks, -⟩ := h.stage.of_task hold
        simp only [World.step, World.opDone, ht, hf, World.deliver, htasks] at ht'
        simp at ht'
  | chatReturns chat result =>
    have hsame : (w.step (.chatReturns chat result)).tasks = w.tasks := by
      simp only [World.step, World.chatReturns]
      split <;> rfl
    rw [hsame] at ht'
    exact .inr ⟨t', h.stays ht' (by rintro _ ⟨⟩) rfl⟩
  | chatDone chat =>
    by_cases hold : t' ∈ w.tasks
    · exact .inr ⟨t', h.stays hold (by rintro _ ⟨⟩) rfl⟩
    · exact .inl (World.chatDone_starts ht' hold)
  | rehashModels n => exact .inr ⟨t', h.stays ht' (by rintro _ ⟨⟩) rfl⟩
  | rehashCovered n => exact .inr ⟨t', h.stays ht' (by rintro _ ⟨⟩) rfl⟩
  | peer key allocation =>
    have hsame : (w.step (.peer key allocation)).tasks = w.tasks := by
      simp only [World.step, World.peer]
      split
      · rfl
      · split <;> rfl
    rw [hsame] at ht'
    exact .inr ⟨t', h.stays ht' (by rintro _ ⟨⟩) rfl⟩

end Steps

section Runs

variable [Gigabytes G]

/-- The run up to here started the operation and then answered its calls. No slot has been
charged anew since. -/
inductive Traced (w : World G) (events : List (Event G)) (t : OpTask G) : Prop where
  | mk (before : List (Event G)) (start : Event G) (more : List (Event G)) (first : OpTask G)
      (hevents : events = before ++ start :: more) (hstart : (w.run before).Starts start first)
      (hfollows : first.Follows t
        (((w.run before).step start).transcript t.serial more))
      (hholding : ∀ j, holdingView (w.run events).actor.models j =
        holdingView ((w.run before).step start).actor.models j)

variable {w : World G} {events : List (Event G)} {event : Event G} {t t' : OpTask G}

theorem Traced.start (h : (w.run events).Starts event t) : Traced w (events ++ [event]) t :=
  .mk events event [] t rfl h (.refl t) fun _ => by rw [World.run_snoc]

theorem Traced.step (h : Traced w events t) (hcontinues : (w.run events).Continues event t t') :
    Traced w (events ++ [event]) t' := by
  obtain ⟨before, start, more, first, rfl, hstart, hfollows, hholding⟩ := h
  have hnext := hcontinues.follows first _ hfollows
  refine .mk before start (more ++ [event]) first (by simp) hstart ?_ fun j => ?_
  · rw [World.transcript_snoc, hnext.same.serial, ← hfollows.same.serial]
    have hrun : w.run (before ++ start :: more) = ((w.run before).step start).run more :=
      w.run_append before (start :: more)
    rw [hrun] at hnext
    exact hnext
  · rw [World.run_snoc, hcontinues.holding, hholding]

/-- Every operation of a run that started with none is traced to its start. -/
theorem traced_run (h : Coherent w) (hnone : w.tasks = []) (events : List (Event G)) :
    ∀ t ∈ (w.run events).tasks, Traced w events t := by
  induction events using List.reverseRecOn with
  | nil =>
    intro t ht
    rw [World.run, List.foldl_nil, hnone] at ht
    exact absurd ht List.not_mem_nil
  | append_singleton events event ih =>
    intro t' ht'
    rw [World.run_snoc] at ht'
    obtain hstart | ⟨t, hcontinues⟩ := (h.run events).task_step event ht'
    · exact .start hstart
    · exact (ih t hcontinues.mem).step hcontinues

end Runs

end Supervisor
