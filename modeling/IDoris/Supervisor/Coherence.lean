import IDoris.Supervisor.Books

/-!
# The invariant of a running supervisor
-/
namespace Supervisor

section Counted

variable {G : Type}

/-- A slot counts the dispatched chats whose end the actor has not processed. -/
structure Counted (models : Models G) (chats : List ChatTask) (discarded : List String) : Prop where
  inflight : ∀ id v, slotView models id = some v →
    v.2 = (chats.map (·.model)).count id + discarded.count id
  known : ∀ c ∈ chats, (slotView models c.model).isSome = true

namespace Counted

variable {models models' : Models G} {chats : List ChatTask} {discarded : List String}
  {chat : ChatTask} {id : String}

theorem congr (h : Counted models chats discarded)
    (hsame : ∀ j, (slotView models' j).map Prod.snd = (slotView models j).map Prod.snd) :
    Counted models' chats discarded where
  inflight id v hv := by
    have hold := hsame id
    rw [hv, Option.map_some] at hold
    obtain ⟨old, hold, hsnd⟩ := Option.map_eq_some_iff.mp hold.symm
    rw [← hsnd]
    exact h.inflight id old hold
  known c hc := by
    have hold := congrArg Option.isSome (hsame c.model)
    rw [Option.isSome_map, Option.isSome_map] at hold
    rw [hold]
    exact h.known c hc

/-- A model without a slot has no chat out. -/
theorem count_of_unknown (h : Counted models chats discarded) (hid : slotView models id = none) :
    (chats.map (·.model)).count id = 0 := by
  rw [List.count_eq_zero]
  intro hmem
  obtain ⟨c, hc, rfl⟩ := List.mem_map.mp hmem
  have hknown := h.known c hc
  rw [hid] at hknown
  cases hknown

/-- A slot that had no chat in flight may be replaced by one that counts none. -/
theorem replace {state : ModelState} (h : Counted models chats [])
    (hfree : ∀ v, slotView models id = some v → v.2 = 0)
    (hnew : slotView models' id = some (state, 0))
    (hothers : ∀ j, j ≠ id → (slotView models' j).map Prod.snd = (slotView models j).map Prod.snd) :
    Counted models' chats [] where
  inflight j v hv := by
    by_cases hj : j = id
    · subst hj
      rw [hnew] at hv
      cases hv
      cases hold : slotView models j with
      | none => rw [h.count_of_unknown hold]; rfl
      | some old =>
        rw [← h.inflight j old hold]
        exact (hfree old hold).symm
    · have hold := hothers j hj
      rw [hv, Option.map_some] at hold
      obtain ⟨old, hold, hsnd⟩ := Option.map_eq_some_iff.mp hold.symm
      rw [← hsnd]
      exact h.inflight j old hold
  known c hc := by
    by_cases hj : c.model = id
    · rw [hj, hnew]; rfl
    · have hold := congrArg Option.isSome (hothers c.model hj)
      rw [Option.isSome_map, Option.isSome_map] at hold
      rw [hold]
      exact h.known c hc

theorem dispatch (h : Counted models chats discarded)
    (hknown : (slotView models chat.model).isSome = true)
    (hview : ∀ j, slotView models' j =
      if chat.model = j then (slotView models j).map fun v => (v.1, v.2 + 1)
      else slotView models j) : Counted models' (chats ++ [chat]) discarded where
  inflight j v hv := by
    rw [List.map_append, List.count_append, List.map_cons, List.map_nil, List.count_singleton]
    rw [hview] at hv
    by_cases hj : chat.model = j
    · rw [if_pos hj] at hv
      obtain ⟨old, hold, rfl⟩ := Option.map_eq_some_iff.mp hv
      have hcount := h.inflight j old hold
      simp only [hj, beq_self_eq_true, if_true]
      omega
    · rw [if_neg hj] at hv
      have hne : (chat.model == j) = false := by simpa using hj
      rw [hne, h.inflight j v hv]
      rfl
  known c hc := by
    have hold : (slotView models c.model).isSome = true := by
      rcases List.mem_append.mp hc with hc | hc
      · exact h.known c hc
      · rw [List.mem_singleton.mp hc]
        exact hknown
    rw [hview]
    split <;> simpa using hold

theorem count_erase (h : chat ∈ chats) (id : String) :
    (chats.map (·.model)).count id =
      ((chats.erase chat).map (·.model)).count id + [chat.model].count id := by
  have hperm := (List.perm_cons_erase h).map (·.model)
  rw [hperm.count_eq, List.map_cons, ← List.singleton_append, List.count_append]
  omega

/-- The caller of a chat has its answer; the message is still to come. -/
theorem returned (h : Counted models chats discarded) (hc : chat ∈ chats) {after : ChatTask}
    (hmodel : after.model = chat.model) :
    Counted models (chats.erase chat ++ [after]) discarded where
  inflight j v hv := by
    rw [h.inflight j v hv, count_erase hc, List.map_append, List.count_append, List.map_cons,
      List.map_nil, hmodel]
  known c hmem := by
    rcases List.mem_append.mp hmem with hmem | hmem
    · exact h.known c (List.mem_of_mem_erase hmem)
    · rw [List.mem_singleton.mp hmem, hmodel]
      exact h.known chat hc

theorem done (h : Counted models chats discarded) (hc : chat ∈ chats)
    (hview : ∀ j, slotView models' j =
      if chat.model = j then (slotView models j).map fun v => (v.1, v.2 - 1)
      else slotView models j) : Counted models' (chats.erase chat) discarded where
  inflight j v hv := by
    rw [hview] at hv
    by_cases hj : chat.model = j
    · rw [if_pos hj] at hv
      obtain ⟨old, hold, rfl⟩ := Option.map_eq_some_iff.mp hv
      have hcount := h.inflight j old hold
      rw [count_erase hc, hj, List.count_singleton_self] at hcount
      simp only
      omega
    · rw [if_neg hj] at hv
      rw [h.inflight j v hv, count_erase hc, List.count_singleton]
      simp [hj]
  known c hmem := by
    have hold := h.known c (List.mem_of_mem_erase hmem)
    rw [hview]
    split <;> simpa using hold

theorem discard (h : Counted models chats discarded) (hc : chat ∈ chats) :
    Counted models (chats.erase chat) (discarded ++ [chat.model]) where
  inflight j v hv := by
    rw [h.inflight j v hv, count_erase hc, List.count_append]
    omega
  known c hmem := h.known c (List.mem_of_mem_erase hmem)

end Counted

end Counted

variable {G : Type} {actor : Actor G}

theorem poisoned_of_refusal (h : World.refusal actor = none) : actor.poisoned = none := by
  unfold World.refusal at h
  split at h
  · cases h
  · assumption

theorem waiters_eq (actor : Actor G) : actor.waiters = waitersOf actor.activeOp := rfl

theorem World.task_mem {w : World G} {t : OpTask G} {serial : Nat} (h : w.task serial = some t) :
    t ∈ w.tasks ∧ t.serial = serial := by
  refine ⟨List.mem_of_find?_eq_some h, ?_⟩
  simpa using List.find?_some h

theorem World.task_of_single {w : World G} {t : OpTask G} (h : w.tasks = [t]) :
    w.task t.serial = some t := by
  simp [World.task, h]

variable [Gigabytes G]

/-- What a load command does to a run. -/
theorem World.load_turn (w : World G) (req : LoadRequest G) (faults : LoadFaults) :
    (∃ err, w.load req faults = (w.register (.load req)).answer w.callers.length (.error err)) ∨
    w.actor.poisoned = none ∧ ∃ handled,
      LoadTurn w.actor w.nextSerial w.callers.length req w.host.marker handled ∧
      w.load req faults = ({ w.register (.load req) with
        journal := w.journal ++ handled.spawned.toList.map fun (t : OpTask G) =>
          JournalEntry.slotReplaced t.id (w.inflight t.id) }).apply w.callers.length handled := by
  unfold World.load
  split
  · rename_i err _
    exact .inl ⟨err, rfl⟩
  · rename_i hrefusal
    exact .inr ⟨poisoned_of_refusal hrefusal, _, handleLoad_turn, rfl⟩

/-- What an unload command does to a run. -/
theorem World.unload_turn (w : World G) (id : String) :
    (∃ err, w.unload id = (w.register (.unload id)).answer w.callers.length (.error err)) ∨
    w.actor.poisoned = none ∧ ∃ handled,
      UnloadTurn w.actor w.nextSerial w.callers.length id w.host.marker handled ∧
      w.unload id = (w.register (.unload id)).apply w.callers.length handled := by
  unfold World.unload
  split
  · rename_i err _
    exact .inl ⟨err, rfl⟩
  · rename_i hrefusal
    exact .inr ⟨poisoned_of_refusal hrefusal, _, handleUnload_turn, rfl⟩

structure Coherent (w : World G) : Prop where
  stage : Stage w.actor w.tasks
  books : Books w.actor.activeOp w.tasks w.callers w.waited w.replies w.delivered w.started
    w.nextSerial
  counted : Counted w.actor.models w.chats w.discarded
  poisoned : w.actor.poisoned ≠ none → w.actor.activeOp = none
  kept : w.actor.poisoned = none → w.discarded = []

variable {w : World G} {serial : Nat}

namespace Coherent

theorem load (h : Coherent w) (req : LoadRequest G) (faults : LoadFaults) :
    Coherent (w.load req faults) := by
  rcases w.load_turn req faults with ⟨err, hload⟩ | ⟨hp, handled, hturn, hload⟩
  · rw [hload]
    exact { h with books := h.books.answer }
  · rw [hload]
    cases hturn with
    | answered result after _ =>
      simp only [World.apply, World.spawn, World.answer, World.register, Option.toList_none,
        List.append_nil, List.map_nil]
      exact { h with books := (h.books.advance (Nat.le_succ _)).answer }
    | joined op hactive hserved =>
      simp only [World.apply, World.spawn, World.register, Option.toList_none, List.append_nil,
        List.map_nil]
      have hbooks := h.books
      rw [hactive] at hbooks
      have hjoined : (w.actor.join w.callers.length).activeOp = some (op.join w.callers.length) := by
        simp [Actor.join, hactive]
      exact {
        stage := h.stage.join hactive
        books := by rw [hjoined]; exact (hbooks.advance (Nat.le_succ _)).join hserved
        counted := h.counted
        poisoned := fun hne => absurd hp hne
        kept := h.kept }
    | installed plan env hidle _ hfree hvictims =>
      simp only [World.apply, World.spawn, World.register, Option.toList_some, List.map_cons,
        List.map_nil]
      have hbooks := h.books
      rw [hidle] at hbooks
      have hcounted := h.counted
      rw [h.kept hp] at hcounted
      have hview : ∀ j, slotView (installLoad { w.actor with env := env } w.nextSerial
          w.callers.length req plan).1.models j =
          if j = req.id then some (.loading, 0)
          else if j ∈ plan.evict then (slotView w.actor.models j).map fun v => (.stopping, v.2)
          else slotView w.actor.models j := fun j => installLoad_view
      exact {
        stage := h.stage.installLoad hidle hvictims
        books := by
          have hspawned := fun t (ht : some (installLoad { w.actor with env := env } w.nextSerial
            w.callers.length req plan).2 = some t) => congrArg OpTask.serial (Option.some.inj ht)
          have hserved : Served (.load req) (.load ⟨req.id, req.memoryGb, req.policy,
            req.allowHeadroomBreach⟩) := ⟨rfl, rfl, rfl, .inl rfl⟩
          exact hbooks.install rfl hserved rfl (fun t ht => (hspawned t ht).symm) (by rintro ⟨⟩)
            (h.stage.of_idle hidle).1
        counted := by
          simp only [h.kept hp]
          apply hcounted.replace hfree
          · rw [hview, if_pos rfl]
          · intro j hj
            rw [hview, if_neg hj]
            split <;> simp [Function.comp_def]
        poisoned := fun hne => absurd hp hne
        kept := h.kept }

theorem unload (h : Coherent w) (id : String) : Coherent (w.unload id) := by
  rcases w.unload_turn id with ⟨err, hunload⟩ | ⟨hp, handled, hturn, hunload⟩
  · rw [hunload]
    exact { h with books := h.books.answer }
  · rw [hunload]
    cases hturn with
    | answered result =>
      simp only [World.apply, World.spawn, World.answer, World.register, Option.toList_none,
        List.append_nil, List.map_nil]
      exact { h with books := (h.books.advance (Nat.le_succ _)).answer }
    | joined op hactive hserved =>
      simp only [World.apply, World.spawn, World.register, Option.toList_none, List.append_nil,
        List.map_nil]
      have hbooks := h.books
      rw [hactive] at hbooks
      have hjoined : (w.actor.join w.callers.length).activeOp = some (op.join w.callers.length) := by
        simp [Actor.join, hactive]
      exact {
        stage := h.stage.join hactive
        books := by rw [hjoined]; exact (hbooks.advance (Nat.le_succ _)).join hserved
        counted := h.counted
        poisoned := fun hne => absurd hp hne
        kept := h.kept }
    | installed hidle hknown =>
      simp only [World.apply, World.spawn, World.register]
      have hbooks := h.books
      rw [hidle] at hbooks
      obtain ⟨⟨state, n⟩, hslot⟩ := Option.isSome_iff_exists.mp hknown
      obtain ⟨hview, hactive, hspawned⟩ :=
        @installUnload_turn G w.actor w.nextSerial w.callers.length id _ state n hslot
      exact {
        stage := h.stage.installUnload hidle hknown
        books := by
          rw [hactive]
          refine hbooks.install rfl rfl rfl ?_ ?_ (h.stage.of_idle hidle).1
          · intro t ht
            rcases hspawned with ⟨hnone, -⟩ | ⟨-, limit, hsome⟩
            · rw [hnone] at ht
              cases ht
            · rw [hsome] at ht
              cases ht
              rfl
          · intro hw
            rcases hspawned with ⟨hnone, -⟩ | ⟨hn, -⟩
            · exact hnone
            · subst hn
              simp [ActiveOp.waiting] at hw
        counted := h.counted.congr fun j => by
          rw [hview]
          split <;> simp [Function.comp_def]
        poisoned := fun hne => absurd hp hne
        kept := h.kept }

theorem chat (h : Coherent w) (model : String) (permit : Bool) : Coherent (w.chat model permit) := by
  unfold World.chat
  split
  · exact { h with }
  · rename_i hrefusal
    have hp := poisoned_of_refusal hrefusal
    split
    · exact { h with }
    · rename_i actor hc
      obtain ⟨n, hready, hview, hactive, hpoisoned⟩ := handleChat_ok hc
      exact {
        stage := h.stage.chat hc
        books := by
          simp only [hactive]
          exact h.books.advance (Nat.le_succ _)
        counted := h.counted.dispatch (by rw [hready]; rfl) hview
        poisoned := fun hne => absurd (hpoisoned.trans hp) hne
        kept := fun _ => h.kept hp }

/-- One task takes a step of its own. -/
theorem update (h : Coherent w) {t t' : OpTask G} (ht : w.task serial = some t)
    (hsame : t.Same t') : Coherent (w.updateTask serial t') := by
  obtain ⟨hmem, rfl⟩ := World.task_mem ht
  obtain ⟨htasks, -⟩ := h.stage.of_task hmem
  have hupdated : (w.updateTask t.serial t').tasks = [t'] := by
    simp [World.updateTask, htasks]
  have hstage := h.stage
  rw [htasks] at hstage
  exact {
    stage := by rw [hupdated]; exact hstage.update hsame
    books := by
      rw [hupdated]
      apply h.books.tasks_congr
      simp [htasks, hsame.serial]
    counted := h.counted
    poisoned := h.poisoned
    kept := h.kept }

theorem issue (h : Coherent w) (serial : Nat) : Coherent (w.issue serial) := by
  unfold World.issue
  split
  · exact h
  · rename_i t ht
    split
    · exact h
    · exact { h.update ht OpTask.same_issue with }

theorem respond (h : Coherent w) (serial : Nat) (r : Responses G) :
    Coherent (w.respond serial r) := by
  unfold World.respond
  split
  · exact h
  · rename_i t' host hr
    obtain ⟨t, ht, hrespond⟩ := Option.bind_eq_some_iff.mp hr
    exact { h.update ht (OpTask.same_respond hrespond) with }

theorem panic (h : Coherent w) (serial : Nat) (message : String) :
    Coherent (w.panic serial message) := by
  unfold World.panic
  split
  · exact h
  · rename_i t ht
    exact h.update ht (OpTask.same_panic message)

theorem opDone (h : Coherent w) (serial : Nat) : Coherent (w.opDone serial) := by
  unfold World.opDone
  split
  · exact h
  · rename_i t ht
    split
    · exact h
    · rename_i outcome hf
      obtain ⟨hmem, -⟩ := World.task_mem ht
      obtain ⟨htasks, op, hactive, -, hworks, -⟩ := h.stage.of_task hmem
      have hp : w.actor.poisoned = none := by
        by_contra hne
        rw [h.poisoned hne] at hactive
        cases hactive
      have hstage := h.stage
      rw [htasks] at hstage
      obtain ⟨hnone, hidle, hinflight⟩ := hstage.deliver hp hf
      have hbooks := h.books
      rw [htasks, hactive] at hbooks
      have hleft : w.tasks.filter (fun other => other.serial ≠ t.serial) = [] := by simp [htasks]
      simp only [World.deliver, hleft]
      exact {
        stage := hidle
        books := by
          rw [hnone, waiters_eq, hactive]
          exact hbooks.deliver hworks.request
        counted := h.counted.congr hinflight
        poisoned := fun _ => hnone
        kept := fun _ => h.kept hp }

theorem chatReturns (h : Coherent w) (chat : ChatTask) (result : Except BackendError Unit) :
    Coherent (w.chatReturns chat result) := by
  unfold World.chatReturns
  split
  · rename_i hc
    exact { h with counted := h.counted.returned hc.1 rfl }
  · exact h

theorem chatDone (h : Coherent w) (chat : ChatTask) : Coherent (w.chatDone chat) := by
  unfold World.chatDone
  split
  · rename_i hc
    split
    · rename_i msg hp
      exact { h with
        counted := h.counted.discard hc.1
        kept := fun hnone => by rw [hp] at hnone; cases hnone }
    · rename_i hp
      have hknown := h.counted.known chat hc.1
      obtain ⟨⟨state, n⟩, hslot⟩ := Option.isSome_iff_exists.mp hknown
      obtain ⟨hview, hpoisoned, hturn⟩ := chatDone_turn hslot
      simp only [World.spawn]
      exact {
        stage := h.stage.chatDone hknown
        books := by
          rcases hturn with ⟨hactive, hnone, -⟩ | ⟨serial, waiters, limit, hsome, -, hactive, hspawn⟩
          · simp only [hactive, hnone, Option.toList_none, List.append_nil, List.map_nil]
            exact h.books
          · have hbooks := h.books
            have htasks : w.tasks = [] := h.stage.tasks_of_waiting hsome rfl
            rw [hsome, htasks] at hbooks
            simp only [hactive, hspawn, htasks, Option.toList_some, List.nil_append, List.map_cons,
              List.map_nil]
            exact hbooks.spawn rfl rfl rfl rfl rfl rfl
        counted := h.counted.done hc.1 hview
        poisoned := fun hne => absurd (hpoisoned.trans hp) hne
        kept := fun _ => h.kept hp }
  · exact h

theorem rehashModels (h : Coherent w) (n : Nat) : Coherent (w.rehashModels n) :=
  { h with
    stage := h.stage.congr rfl fun _ => view_exchange
    counted := h.counted.congr fun _ => by rw [World.rehashModels, view_exchange] }

theorem rehashCovered (h : Coherent w) (n : Nat) : Coherent (w.rehashCovered n) :=
  { h with stage := h.stage.congr rfl fun _ => rfl }

theorem peer (h : Coherent w) (key : String) (allocation : Option (CapacityAllocation G)) :
    Coherent (w.peer key allocation) := by
  unfold World.peer
  split
  · exact h
  · split
    · exact h
    · exact { h with stage := h.stage.congr rfl fun _ => rfl }

/-- Every event keeps the invariant. -/
theorem step (h : Coherent w) (event : Event G) : Coherent (w.step event) := by
  cases event with
  | load req faults => exact h.load req faults
  | unload id => exact h.unload id
  | chat model permit => exact h.chat model permit
  | issue serial => exact h.issue serial
  | respond serial r => exact h.respond serial r
  | panic serial message => exact h.panic serial message
  | opDone serial => exact h.opDone serial
  | chatReturns chat result => exact h.chatReturns chat result
  | chatDone chat => exact h.chatDone chat
  | rehashModels n => exact h.rehashModels n
  | rehashCovered n => exact h.rehashCovered n
  | peer key allocation => exact h.peer key allocation

/-- A run keeps the invariant, one event after the other. -/
theorem run (h : Coherent w) (events : List (Event G)) : Coherent (w.run events) := by
  induction events generalizing w with
  | nil => exact h
  | cons event rest ih => exact ih (h.step event)

end Coherent

section Start

variable (boot : Boot G) (host : Host)

theorem inheritedModels_view (loaded : List String) (id : String) (v : ModelState × Nat)
    (h : slotView (inheritedModels loaded : Models G) id = some v) : v = (.error, 0) := by
  unfold inheritedModels at h
  suffices ∀ models : Models G, (∀ v, slotView models id = some v → v = (.error, 0)) →
      ∀ v, slotView (loaded.foldl (fun models id => models.insert id inheritedSlot) models) id =
        some v → v = (.error, 0) by
    exact this Keyed.Map.empty (fun v hv => by cases hv) v h
  clear h v
  induction loaded with
  | nil => exact fun models hm => hm
  | cons head rest ih =>
    intro models hm
    apply ih
    intro v hv
    rw [view_insert] at hv
    split at hv
    · cases hv
      rfl
    · exact hm v hv

/-- A started process is idle; the models it inherits are in `Error`. -/
theorem coherent_start : Coherent (boot.world host) := by
  have hslots : ∀ id v, slotView (boot.world host).actor.models id = some v → v = (.error, 0) := by
    intro id v hv
    simp only [Boot.world, Boot.actor] at hv
    split at hv
    · exact inheritedModels_view _ id v hv
    · cases hv
  exact {
    stage := .idle rfl rfl fun j v hv _ => by rw [hslots j v hv]; rfl
    books := .start
    counted := ⟨fun id v hv => by rw [hslots id v hv]; rfl, fun c hc => by cases hc⟩
    poisoned := fun _ => rfl
    kept := fun _ => rfl }

theorem coherent_run (events : List (Event G)) : Coherent ((boot.world host).run events) :=
  (coherent_start boot host).run events

end Start

end Supervisor
