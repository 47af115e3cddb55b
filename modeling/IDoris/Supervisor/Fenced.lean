import IDoris.Supervisor.Coherence

/-!
# The marker covers the loads of one process
-/
namespace Supervisor

open Interaction

variable {G : Type}

/-- At most one load may still run, and it runs under the marker. -/
structure Host.Sound (host : Host) : Prop where
  covered : host.unconfirmed ≠ [] → host.marker = true
  single : host.unconfirmed.length ≤ 1
  numbered : ∀ c ∈ host.unconfirmed, c.number < host.calls

/-- What the phase of an operation on `id` says about the host. -/
def FencePhase.Covers (phase : FencePhase) (id : String) (host : Host) : Prop :=
  match phase with
  | .begun => host.marker = true ∧ host.unconfirmed = []
  | .loading => host.marker = true ∧ ∃ n < host.calls, host.unconfirmed = [⟨n, id⟩]
  | .closed => host.Sound

/-- A task between two questions, with a harmless question out, or with its load out. -/
inductive OpTask.Covered (t : OpTask G) (host : Host) : Prop where
  | between (phase : FencePhase) (hissued : t.issued = none)
      (hsafe : Safe (flowMonitor G t.id t.evict) (fun _ _ => True) t.body phase)
      (hphase : phase.Covers t.id host)
  | asked (phase : FencePhase) (number : Nat) (op : Effect) (next : op.Answer G → Flow G (OpOutcome G))
      (hissued : t.issued = some number) (hbody : t.body = .ask op next)
      (hop : ∀ id policy, op ≠ .load id policy)
      (hsafe : Safe (flowMonitor G t.id t.evict) (fun _ _ => True) t.body phase)
      (hphase : phase.Covers t.id host) (hbefore : ∀ c ∈ host.unconfirmed, c.number < number)
  | loading (number : Nat) (policy : LoadPolicy)
      (next : (Effect.load t.id policy).Answer G → Flow G (OpOutcome G))
      (hissued : t.issued = some number) (hbody : t.body = .ask (.load t.id policy) next)
      (hsafe : Safe (flowMonitor G t.id t.evict) (fun _ _ => True) t.body .begun)
      (hmarker : host.marker = true) (hnumber : number < host.calls)
      (hout : host.unconfirmed = [⟨number, t.id⟩])

/-- The tasks of a process and the host: with nothing spawned the host is sound. -/
inductive Fenced (host : Host) : List (OpTask G) → Prop where
  | quiet (hsound : host.Sound) : Fenced host []
  | task (t : OpTask G) (hcovered : t.Covered host) : Fenced host [t]

section Sound

variable {host : Host} {id : String} {phase : FencePhase} {t : OpTask G} {tasks : List (OpTask G)}
  {after : Bool}

theorem Host.Sound.of_one {n : Nat} (hmarker : host.marker = true) (hn : n < host.calls)
    (hout : host.unconfirmed = [⟨n, id⟩]) : host.Sound where
  covered _ := hmarker
  single := by rw [hout]; exact Nat.le_refl 1
  numbered c hc := by
    rw [hout] at hc
    rw [List.mem_singleton.mp hc]
    exact hn

theorem Host.Sound.of_none (hout : host.unconfirmed = []) : host.Sound where
  covered hne := absurd hout hne
  single := by rw [hout]; exact Nat.zero_le 1
  numbered c hc := by rw [hout] at hc; cases hc

/-- Without the marker no load can still run. -/
theorem Host.Sound.unconfirmed_eq_nil (h : host.Sound) (hmarker : host.marker = false) :
    host.unconfirmed = [] := by
  by_contra hne
  rw [h.covered hne] at hmarker
  cases hmarker

theorem FencePhase.Covers.sound (h : phase.Covers id host) : host.Sound := by
  cases phase with
  | begun => exact .of_none h.2
  | loading =>
    obtain ⟨hmarker, n, hn, hout⟩ := h
    exact .of_one hmarker hn hout
  | closed => exact h

theorem OpTask.Covered.sound (h : t.Covered host) : host.Sound := by
  cases h with
  | between phase _ _ hphase => exact hphase.sound
  | asked phase _ _ _ _ _ _ _ hphase _ => exact hphase.sound
  | loading number policy next _ _ _ hmarker hnumber hout => exact .of_one hmarker hnumber hout

theorem Fenced.sound (h : Fenced host tasks) : host.Sound := by
  cases h with
  | quiet hsound => exact hsound
  | task t hcovered => exact hcovered.sound

end Sound

section Steps

variable {host host' : Host} {id : String} {phase : FencePhase} {t t' : OpTask G}
  {tasks : List (OpTask G)} {after : Bool} {op : Effect} {answer : op.Answer G} {number : Nat}
  {evict : List String}

/-- A marker that is set where it was not disturbs nothing. -/
theorem FencePhase.Covers.marked (h : phase.Covers id host) (hm : host.marker = true → after = true) :
    phase.Covers id { host with marker := after } := by
  cases phase with
  | begun => exact ⟨hm h.1, h.2⟩
  | loading => exact ⟨hm h.1, h.2⟩
  | closed => exact ⟨fun hne => hm (h.covered hne), h.single, h.numbered⟩

theorem Fenced.marked (h : Fenced host tasks) (hm : host.marker = true → after = true) :
    Fenced { host with marker := after } tasks := by
  cases h with
  | quiet hsound => exact .quiet ⟨fun hne => hm (hsound.covered hne), hsound.single, hsound.numbered⟩
  | task t hcovered =>
    refine .task t ?_
    cases hcovered with
    | between phase hissued hsafe hphase => exact .between phase hissued hsafe (hphase.marked hm)
    | asked phase number op next hissued hbody hop hsafe hphase hbefore =>
      exact .asked phase number op next hissued hbody hop hsafe (hphase.marked hm) hbefore
    | loading number policy next hissued hbody hsafe hmarker hnumber hout =>
      exact .loading number policy next hissued hbody hsafe (hm hmarker) hnumber hout

/-- A new question of the operation, other than a load, leaves the loads as they are. -/
theorem FencePhase.Covers.issue (h : phase.Covers id host) (hop : ∀ id policy, op ≠ .load id policy) :
    phase.Covers id (host.issue op) ∧ ∀ c ∈ (host.issue op).unconfirmed, c.number < host.calls := by
  have hout : (host.issue op).unconfirmed = host.unconfirmed := by
    cases op with
    | load target policy => exact absurd rfl (hop target policy)
    | unload target => rfl
    | status => rfl
    | probeReady target => rfl
    | clearFence => rfl
  constructor
  · cases phase with
    | begun => exact ⟨h.1, hout.trans h.2⟩
    | loading =>
      obtain ⟨hmarker, n, hn, hone⟩ := h
      exact ⟨hmarker, n, Nat.lt_succ_of_lt hn, hout.trans hone⟩
    | closed =>
      refine ⟨fun hne => h.covered (hout ▸ hne), hout ▸ h.single, fun c hc => ?_⟩
      exact Nat.lt_succ_of_lt (h.numbered c (hout ▸ hc))
  · rw [hout]
    exact h.sound.numbered

/-- A load is asked for under the marker, with no other load that may still run. -/
theorem OpTask.Covered.pending_load {target : String} {policy : LoadPolicy} (h : t.Covered host)
    (hp : t.pending = some (.load target policy)) :
    target = t.id ∧ host.marker = true ∧ host.unconfirmed = [] := by
  unfold OpTask.pending at hp
  split at hp
  · rename_i op next hissued hbody
    cases hp
    cases h with
    | between phase _ hsafe hphase =>
      rw [hbody] at hsafe
      obtain ⟨htarget, hbegun⟩ : target = t.id ∧ phase = .begun := hsafe.1
      subst hbegun
      exact ⟨htarget, hphase⟩
    | asked phase number op next hsome => rw [hissued] at hsome; cases hsome
    | loading number policy next hsome => rw [hissued] at hsome; cases hsome
  · cases hp

theorem OpTask.Covered.issue (h : t.Covered host) (hp : t.pending = some op) :
    OpTask.Covered { t with issued := some host.calls } (host.issue op) := by
  have hpending := hp
  unfold OpTask.pending at hp
  split at hp
  · rename_i next hissued hbody
    cases hp
    by_cases hop : ∃ target policy, op = .load target policy
    · obtain ⟨target, policy, rfl⟩ := hop
      obtain ⟨rfl, hmarker, hnone⟩ := h.pending_load hpending
      cases h with
      | between phase _ hsafe hphase =>
        have hbegun : phase = .begun := by
          rw [hbody] at hsafe
          exact hsafe.1.2
        subst hbegun
        refine .loading host.calls policy next rfl hbody hsafe hmarker (Nat.lt_succ_self _) ?_
        simp [Host.issue, hnone]
      | asked phase number op next hsome => rw [hissued] at hsome; cases hsome
      | loading number policy next hsome => rw [hissued] at hsome; cases hsome
    · have hother : ∀ id policy, op ≠ .load id policy :=
        fun id policy heq => hop ⟨id, policy, heq⟩
      cases h with
      | between phase _ hsafe hphase =>
        obtain ⟨hphase, hbefore⟩ := hphase.issue hother
        exact .asked phase host.calls op next rfl hbody hother hsafe hphase hbefore
      | asked phase number op next hsome => rw [hissued] at hsome; cases hsome
      | loading number policy next hsome => rw [hissued] at hsome; cases hsome
  · cases hp

/-- The host after an answer that is not a load's. -/
theorem FencePhase.Covers.learn {marker : Bool} (h : phase.Covers id host)
    (hallowed : flowAllowed id evict phase op) (hop : ∀ id policy, op ≠ .load id policy)
    (hbefore : ∀ c ∈ host.unconfirmed, c.number < number)
    (hmarker : op ≠ .clearFence → marker = host.marker) :
    (flowNext phase op answer).Covers id { host.learn number op answer with marker := marker } := by
  have hsame : op ≠ .clearFence → phase.Covers id { host with marker := marker } :=
    fun hne => h.marked fun hm => (hmarker hne).trans hm
  cases op with
  | load target policy => exact absurd rfl (hop target policy)
  | unload target => exact hsame nofun
  | status => exact hsame nofun
  | clearFence =>
    obtain rfl : phase = .begun := hallowed
    exact Host.Sound.of_none h.2
  | probeReady target =>
    obtain rfl : target = id := hallowed
    rcases answer with _ | _ | _ | _
    · exact hsame nofun
    · exact hsame nofun
    · exact hsame nofun
    · -- a Ready probe ends every load of the model that was issued before it
      cases phase with
      | begun =>
        refine ⟨(hmarker nofun).trans h.1, ?_⟩
        simp [Host.learn, h.2]
      | loading =>
        obtain ⟨hset, n, -, hone⟩ := h
        refine ⟨(hmarker nofun).trans hset, ?_⟩
        have hn : n < number := hbefore ⟨n, target⟩ (by rw [hone]; exact List.mem_cons_self)
        simp [Host.learn, hone, hn]
      | closed =>
        refine ⟨fun hne => ?_, ?_, fun c hc => h.numbered c (List.mem_of_mem_filter hc)⟩
        · refine (hmarker nofun).trans (h.covered fun hnone => hne ?_)
          simp [Host.learn, hnone]
        · exact (List.length_filter_le _ _).trans h.single

theorem OpTask.Covered.respond {r : Responses G} (h : t.Covered host)
    (hr : t.respond r host = some (t', host')) : t'.Covered host' := by
  obtain ⟨number, op, next, hissued, hbody, rfl, rfl⟩ := OpTask.respond_eq_some hr
  cases h with
  | between phase hnone => rw [hissued] at hnone; cases hnone
  | asked phase number' op' next' hissued' hbody' hop hsafe hphase hbefore =>
    rw [hissued] at hissued'
    cases hissued'
    rw [hbody] at hbody'
    cases hbody'
    rw [hbody] at hsafe
    refine .between (flowNext phase op (r.answer host.marker op).1) rfl (hsafe.2 _) ?_
    refine hphase.learn hsafe.1 hop hbefore fun hne => ?_
    cases op with
    | clearFence => exact absurd rfl hne
    | unload target => rfl
    | load target policy => rfl
    | status => rfl
    | probeReady target => rfl
  | loading number' policy next' hissued' hbody' hsafe hmarker hnumber hout =>
    rw [hissued] at hissued'
    cases hissued'
    rw [hbody] at hbody'
    cases hbody'
    rw [hbody] at hsafe
    refine .between (flowNext .begun (.load t.id policy) r.load) rfl (hsafe.2 r.load) ?_
    have hstays : FencePhase.Covers .loading t.id host := ⟨hmarker, number, hnumber, hout⟩
    simp only [Responses.answer]
    rcases r.load with _ | err | _
    · exact hstays
    · cases hu : err.leavesLoadUnconfirmed with
      | true =>
        simp only [flowNext, Host.learn, hu, if_true]
        exact hstays
      | false =>
        simp only [flowNext, Host.learn, hu, if_false, Bool.false_eq_true]
        exact ⟨hmarker, by simp [hout]⟩
    · exact hstays

/-- A panic leaves whatever was out to the marker. -/
theorem OpTask.Covered.panic (h : t.Covered host) (message : String) :
    (t.panic message).Covered host := by
  unfold OpTask.panic
  split
  · exact .between .closed rfl trivial h.sound
  · exact h

end Steps

section Runs

variable {w : World G} {serial : Nat} {t t' : OpTask G}

/-- The task an event is about is the only one. -/
theorem Fenced.of_task (h : Fenced w.host w.tasks) (ht : w.task serial = some t) :
    t.Covered w.host ∧ w.tasks = [t] ∧ t.serial = serial := by
  obtain ⟨hmem, hserial⟩ := World.task_mem ht
  cases htasks : w.tasks with
  | nil =>
    rw [htasks] at hmem
    cases hmem
  | cons head rest =>
    rw [htasks] at h hmem
    cases h with
    | task t' hcovered =>
      obtain rfl := List.mem_singleton.mp hmem
      exact ⟨hcovered, rfl, hserial⟩

theorem World.updateTask_single (htasks : w.tasks = [t]) :
    (w.updateTask t.serial t').tasks = [t'] := by
  simp [World.updateTask, htasks]

theorem Fenced.issue (h : Fenced w.host w.tasks) (serial : Nat) :
    Fenced (w.issue serial).host (w.issue serial).tasks := by
  unfold World.issue
  split
  · exact h
  · rename_i t ht
    obtain ⟨hcovered, htasks, rfl⟩ := h.of_task ht
    split
    · exact h
    · rename_i op hp
      simp only [World.updateTask_single htasks]
      exact .task _ (hcovered.issue hp)

theorem Fenced.panic (h : Fenced w.host w.tasks) (serial : Nat) (message : String) :
    Fenced (w.panic serial message).host (w.panic serial message).tasks := by
  unfold World.panic
  split
  · exact h
  · rename_i t ht
    obtain ⟨hcovered, htasks, rfl⟩ := h.of_task ht
    rw [World.updateTask_single htasks]
    exact .task _ (hcovered.panic message)

/-- The report of an operation leaves whatever may still run to the marker. -/
theorem Fenced.left (h : Fenced w.host w.tasks) (ht : w.task serial = some t) :
    Fenced w.host (w.tasks.filter fun other => other.serial ≠ t.serial) := by
  obtain ⟨-, htasks, -⟩ := h.of_task ht
  have hleft : w.tasks.filter (fun other => other.serial ≠ t.serial) = [] := by simp [htasks]
  rw [hleft]
  exact .quiet h.sound

theorem Fenced.respond (h : Fenced w.host w.tasks) (serial : Nat) (r : Responses G) :
    Fenced (w.respond serial r).host (w.respond serial r).tasks := by
  unfold World.respond
  split
  · exact h
  · rename_i t' host hr
    obtain ⟨t, ht, hrespond⟩ := Option.bind_eq_some_iff.mp hr
    obtain ⟨hcovered, htasks, rfl⟩ := h.of_task ht
    simp only [World.updateTask_single htasks]
    exact .task _ (hcovered.respond hrespond)

variable [Gigabytes G]

/-- A load takes the mutex only when it could set the marker itself. -/
theorem Fenced.load (h : Fenced w.host w.tasks) (hw : Coherent w) (req : LoadRequest G)
    (faults : LoadFaults) : Fenced (w.load req faults).host (w.load req faults).tasks := by
  rcases w.load_turn req faults with ⟨err, hload⟩ | ⟨-, handled, hturn, hload⟩
  · rw [hload]
    exact h
  · rw [hload]
    cases hturn with
    | answered result after hmarker =>
      simp only [World.apply, World.spawn, World.answer, World.register, Option.toList_none,
        List.append_nil]
      exact h.marked hmarker
    | joined op hactive hserved =>
      simp only [World.apply, World.spawn, World.register, Option.toList_none, List.append_nil]
      exact h
    | installed plan env hidle hmarker hfree hvictims =>
      simp only [World.apply, World.spawn, World.register, Option.toList_some]
      obtain ⟨htasks, hsettled⟩ := hw.stage.of_idle hidle
      have hnone := h.sound.unconfirmed_eq_nil hmarker
      rw [htasks]
      refine .task _ (.between .begun rfl ?_ ⟨rfl, hnone⟩)
      exact Safe.mono (installLoad_safe hsettled hvictims) fun _ _ _ => trivial

/-- An unload leaves the fence alone. -/
theorem startUnload_covered {host : Host} {id : String} {limit : G} {env : Env G}
    (h : host.Sound) : (startUnload serial id limit env).Covered host :=
  .between .closed rfl (runUnloadFlow_safe.mono fun _ _ _ => trivial) h

theorem Fenced.unload (h : Fenced w.host w.tasks) (hw : Coherent w) (id : String) :
    Fenced (w.unload id).host (w.unload id).tasks := by
  rcases w.unload_turn id with ⟨err, hunload⟩ | ⟨-, handled, hturn, hunload⟩
  · rw [hunload]
    exact h
  · rw [hunload]
    cases hturn with
    | answered result =>
      simp only [World.apply, World.spawn, World.answer, World.register, Option.toList_none,
        List.append_nil]
      exact h
    | joined op hactive hserved =>
      simp only [World.apply, World.spawn, World.register, Option.toList_none, List.append_nil]
      exact h
    | installed hidle hknown =>
      simp only [World.apply, World.spawn, World.register]
      obtain ⟨htasks, -⟩ := hw.stage.of_idle hidle
      obtain ⟨⟨state, n⟩, hslot⟩ := Option.isSome_iff_exists.mp hknown
      obtain ⟨-, -, hspawned⟩ :=
        @installUnload_turn G w.actor w.nextSerial w.callers.length id _ state n hslot
      rw [htasks]
      rcases hspawned with ⟨hnone, -⟩ | ⟨-, limit, hsome⟩
      · rw [hnone]
        exact .quiet h.sound
      · rw [hsome]
        exact .task _ (startUnload_covered h.sound)

theorem Fenced.opDone (h : Fenced w.host w.tasks) (serial : Nat) :
    Fenced (w.opDone serial).host (w.opDone serial).tasks := by
  unfold World.opDone
  split
  · exact h
  · rename_i t ht
    split
    · exact h
    · exact h.left ht

theorem Fenced.chatDone (h : Fenced w.host w.tasks) (hw : Coherent w) (chat : ChatTask) :
    Fenced (w.chatDone chat).host (w.chatDone chat).tasks := by
  unfold World.chatDone
  split
  · rename_i hc
    split
    · exact h
    · obtain ⟨⟨state, n⟩, hslot⟩ := Option.isSome_iff_exists.mp (hw.counted.known chat hc.1)
      obtain ⟨-, -, hturn⟩ := chatDone_turn hslot
      simp only [World.spawn]
      rcases hturn with ⟨-, hnone, -⟩ | ⟨serial, waiters, limit, hsome, -, -, hspawn⟩
      · rw [hnone, Option.toList_none, List.append_nil]
        exact h
      · have htasks : w.tasks = [] := hw.stage.tasks_of_waiting hsome rfl
        rw [hspawn, htasks]
        exact .task _ (startUnload_covered h.sound)
  · exact h

/-- Every event of a process keeps its loads under the marker. -/
theorem Fenced.step (h : Fenced w.host w.tasks) (hw : Coherent w) (event : Event G) :
    Fenced (w.step event).host (w.step event).tasks := by
  cases event with
  | load req faults => exact h.load hw req faults
  | unload id => exact h.unload hw id
  | chat model permit =>
    simp only [World.step, World.chat]
    split
    · exact h
    · split <;> exact h
  | issue serial => exact h.issue serial
  | respond serial r => exact h.respond serial r
  | panic serial message => exact h.panic serial message
  | opDone serial => exact h.opDone serial
  | chatReturns chat result =>
    simp only [World.step, World.chatReturns]
    split <;> exact h
  | chatDone chat => exact h.chatDone hw chat
  | rehashModels n => exact h
  | rehashCovered n => exact h
  | peer key allocation =>
    simp only [World.step, World.peer]
    split
    · exact h
    · split <;> exact h

end Runs

end Supervisor
