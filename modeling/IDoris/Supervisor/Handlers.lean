import IDoris.Supervisor.FlowRules

/-!
# What each handler of the actor can do

The invariants read the state of a slot and its chats in flight. Each handler has
one lemma that says everything it does to them.
-/
namespace Supervisor

open Transaction

variable {G : Type}

/-- What the invariants read of a slot: its state and its chats in flight. -/
def ModelSlot.view (slot : ModelSlot G) : ModelState × Nat := (slot.state, slot.inflight)

def slotView (models : Models G) (id : String) : Option (ModelState × Nat) :=
  (models.get id).map ModelSlot.view

/-- The request of a caller fits the operation that answers it; sizes compare as `==` does. -/
def Served [Gigabytes G] : Request G → Request G → Prop
  | .load mine, .load theirs =>
    mine.id = theirs.id ∧ mine.policy = theirs.policy ∧
      mine.allowHeadroomBreach = theirs.allowHeadroomBreach ∧
      (mine.memoryGb = theirs.memoryGb ∨ Gigabytes.beq theirs.memoryGb mine.memoryGb = true)
  | .unload mine, .unload theirs => mine = theirs
  | _, _ => False

section View

variable {models models' : Models G} {id j : String} {state : ModelState} {evict : List String}

theorem view_eq_none : slotView models id = none ↔ models.get id = none := Option.map_eq_none_iff

theorem view_modify {f : ModelSlot G → ModelSlot G} {g : ModelState × Nat → ModelState × Nat}
    (h : ∀ slot, (f slot).view = g slot.view) :
    slotView (models.modify id f) j =
      if id = j then (slotView models j).map g else slotView models j := by
  unfold slotView
  rw [Keyed.Map.get_modify]
  split
  · cases models.get j with
    | none => rfl
    | some slot => exact congrArg some (h slot)
  · rfl

theorem view_setState : slotView (models.setState id state) j =
    if id = j then (slotView models j).map fun v => (state, v.2) else slotView models j :=
  view_modify (g := fun v => (state, v.2)) fun _ => rfl

theorem view_insert {slot : ModelSlot G} : slotView (models.insert id slot) j =
    if id = j then some slot.view else slotView models j := by
  unfold slotView
  rw [Keyed.Map.get_insert]
  split <;> rfl

@[simp] theorem view_exchange {n : Nat} :
    slotView (models.exchange n) j = slotView models j := by
  unfold slotView
  rw [Keyed.Map.get_exchange]

theorem view_stopAll :
    slotView (evict.foldl (fun models victim => models.setState victim .stopping) models) j =
      if j ∈ evict then (slotView models j).map fun v => (.stopping, v.2) else slotView models j := by
  induction evict generalizing models with
  | nil => simp
  | cons victim rest ih =>
    rw [List.foldl_cons, ih, view_setState]
    by_cases hv : victim = j
    · subst hv
      by_cases hr : victim ∈ rest
      · simp [hr, Function.comp_def]
      · simp [hr]
    · simp [hv, Ne.symm hv]

/-- Setting a state after a call succeeds for a known model. -/
theorem setStateOrPoison_of_known (state : ModelState) (h : (slotView models id).isSome = true) :
    ∃ models', models.setStateOrPoison id state = .ok models' ∧ ∀ j, slotView models' j =
      if id = j then (slotView models j).map fun v => (state, v.2) else slotView models j := by
  have hget : (models.get id).isSome = true := by simpa [slotView] using h
  obtain ⟨slot, hslot⟩ := Option.isSome_iff_exists.mp hget
  refine ⟨_, by rw [Models.setStateOrPoison, hslot], fun j => ?_⟩
  exact view_modify (g := fun v => (state, v.2)) fun _ => rfl

end View

section Unload

variable {actor : Actor G} {serial caller : Nat} {id : String} {marker : Bool}

theorem screenUnloadSlot_admitted (h : screenUnloadSlot actor id = .admitted) :
    actor.activeOp = none ∧ (slotView actor.models id).isSome = true := by
  unfold screenUnloadSlot at h
  cases hslot : actor.models.get id with
  | none => simp [hslot] at h
  | some slot =>
    have hknown : (slotView actor.models id).isSome = true := by simp [slotView, hslot]
    simp only [hslot] at h
    split at h
    · cases h
    · split at h
      · cases h
      · split at h
        · cases h
        · exact ⟨‹_›, hknown⟩

theorem screenUnloadSlot_not_join : screenUnloadSlot actor id ≠ .join := by
  unfold screenUnloadSlot
  split
  · nofun
  · split
    · nofun
    · split
      · nofun
      · split <;> nofun

theorem screenUnload_admitted (h : screenUnload actor id = .admitted) :
    actor.activeOp = none ∧ (slotView actor.models id).isSome = true := by
  unfold screenUnload at h
  split at h
  · split at h
    · split at h <;> cases h
    · exact screenUnloadSlot_admitted h
  · exact screenUnloadSlot_admitted h

/-- What an unload request does: answer at once, join, or take the mutex. -/
inductive UnloadTurn [Gigabytes G] (actor : Actor G) (serial caller : Nat) (id : String)
    (marker : Bool) : Handled G → Prop where
  | answered (result : Except BackendError Unit) :
      UnloadTurn actor serial caller id marker ⟨actor, marker, some result, none⟩
  | joined (op : ActiveOp G) (hactive : actor.activeOp = some op)
      (hserved : Served (.unload id) op.request) :
      UnloadTurn actor serial caller id marker ⟨actor.join caller, marker, none, none⟩
  | installed (hidle : actor.activeOp = none) (hknown : (slotView actor.models id).isSome = true) :
      UnloadTurn actor serial caller id marker
        ⟨(installUnload actor serial caller id).1, marker, none,
          (installUnload actor serial caller id).2⟩

variable [Gigabytes G]

theorem screenUnload_join (h : screenUnload actor id = .join) :
    ∃ op, actor.activeOp = some op ∧ Served (.unload id) op.request := by
  unfold screenUnload at h
  split at h
  · rename_i op hactive
    split at h
    · rename_i hid
      split at h
      · rename_i hkind
        refine ⟨op, hactive, ?_⟩
        simp only [ActiveOp.request, hkind]
        exact hid.symm
      · cases h
    · exact absurd h screenUnloadSlot_not_join
  · exact absurd h screenUnloadSlot_not_join

theorem handleUnload_turn :
    UnloadTurn actor serial caller id marker (handleUnload actor serial caller id marker) := by
  unfold handleUnload
  split
  · exact .answered _
  · rename_i h
    obtain ⟨op, hactive, hserved⟩ := screenUnload_join h
    exact .joined op hactive hserved
  · rename_i h
    obtain ⟨hidle, hknown⟩ := screenUnload_admitted h
    exact .installed hidle hknown

/-- The unload stops its slot, and starts at once when no chat is in flight. -/
theorem installUnload_turn {state : ModelState} {n : Nat}
    (h : slotView actor.models id = some (state, n)) :
    (∀ j, slotView (installUnload actor serial caller id).1.models j =
      if id = j then (slotView actor.models j).map fun v => (.stopping, v.2)
      else slotView actor.models j) ∧
    (installUnload actor serial caller id).1.activeOp =
      some ⟨serial, id, .unload [caller] (n = 0)⟩ ∧
    ((installUnload actor serial caller id).2 = none ∧ n ≠ 0 ∨
      n = 0 ∧ ∃ limit, (installUnload actor serial caller id).2 =
        some (startUnload serial id limit actor.env)) := by
  obtain ⟨slot, hslot, hview⟩ := Option.map_eq_some_iff.mp h
  cases hview
  have hget : (actor.models.setState id .stopping).get id =
      some { slot with state := .stopping } := Keyed.Map.get_modify_of_some hslot
  refine ⟨fun j => view_setState, ?_, ?_⟩
  · simp only [installUnload, hget, Option.map_some, Option.getD_some]
  · simp only [installUnload, hget, Option.map_some, Option.getD_some]
    by_cases hn : slot.inflight = 0
    · exact .inr ⟨hn, _, if_pos hn⟩
    · exact .inl ⟨if_neg hn, hn⟩

end Unload

section Load

variable {actor : Actor G} {serial caller : Nat} {req : LoadRequest G} {faults : LoadFaults}
  {marker : Bool} {plan : LoadPlan G}

/-- A victim is idle, settled and not the model that is loaded. -/
def Victim (models : Models G) (target v : String) : Prop :=
  v ≠ target ∧ ∃ state, state.settled = true ∧ slotView models v = some (state, 0)

theorem previousOf_view {models : Models G} {id : String} {p : PreviousModel G}
    (h : previousOf models id = some p) : ∃ n, slotView models id = some (p.state, n) := by
  obtain ⟨slot, hslot, rfl⟩ := Option.map_eq_some_iff.mp h
  have hget := Option.eq_some_of_filter_eq_some hslot
  exact ⟨slot.inflight, by simp [slotView, hget, ModelSlot.view]⟩

theorem screenMutex_admitted (h : screenMutex actor = .admitted) : actor.activeOp = none := by
  unfold screenMutex at h
  split at h
  · cases h
  · assumption

theorem screenLoadSlot_admitted (h : screenLoadSlot actor req = .admitted) :
    actor.activeOp = none ∧ ∀ v, slotView actor.models req.id = some v → v.2 = 0 := by
  unfold screenLoadSlot at h
  split at h
  · rename_i hslot
    refine ⟨screenMutex_admitted h, fun v hv => ?_⟩
    simp [slotView, hslot] at hv
  · rename_i slot hslot
    split at h
    · cases h
    · split at h
      · cases h
      · split at h
        · cases h
        · rename_i hinflight
          refine ⟨screenMutex_admitted h, fun v hv => ?_⟩
          simp only [slotView, hslot, Option.map_some, Option.some.injEq] at hv
          subst hv
          exact not_not.mp hinflight

theorem screenLoadSlot_not_join : screenLoadSlot actor req ≠ .join := by
  unfold screenLoadSlot screenMutex
  split
  · split <;> nofun
  · split
    · nofun
    · split
      · nofun
      · split
        · nofun
        · split <;> nofun

variable [Gigabytes G]

/-- What a load request does: answer at once, join, or take the mutex under a fresh marker. -/
inductive LoadTurn (actor : Actor G) (serial caller : Nat) (req : LoadRequest G) (marker : Bool) :
    Handled G → Prop where
  | answered (result : Except BackendError Unit) (after : Bool)
      (hmarker : marker = true → after = true) :
      LoadTurn actor serial caller req marker ⟨actor, after, some result, none⟩
  | joined (op : ActiveOp G) (hactive : actor.activeOp = some op)
      (hserved : Served (.load req) op.request) :
      LoadTurn actor serial caller req marker ⟨actor.join caller, marker, none, none⟩
  | installed (plan : LoadPlan G) (env : Env G) (hidle : actor.activeOp = none)
      (hmarker : marker = false) (hfree : ∀ v, slotView actor.models req.id = some v → v.2 = 0)
      (hvictims : ∀ v ∈ plan.evict, Victim actor.models req.id v) :
      LoadTurn actor serial caller req marker
        ⟨(installLoad { actor with env := env } serial caller req plan).1, true, none,
          some (installLoad { actor with env := env } serial caller req plan).2⟩

theorem screenLoad_join (h : screenLoad actor req = .join) :
    ∃ op, actor.activeOp = some op ∧ Served (.load req) op.request := by
  unfold screenLoad at h
  split at h
  · cases h
  · split at h
    · exact absurd h screenLoadSlot_not_join
    · rename_i op hactive
      split at h
      · rename_i hid
        simp only at h
        split at h
        · rename_i policy memoryGb breach waiters hkind
          split at h
          · rename_i hsame
            split at h
            · rename_i hbreach
              refine ⟨op, hactive, ?_⟩
              simp only [ActiveOp.request, hkind]
              exact ⟨hid.symm, hsame.1.symm, hbreach.symm, .inr hsame.2⟩
            · cases h
          · cases h
        · cases h
      · exact absurd h screenLoadSlot_not_join

theorem screenLoad_admitted (h : screenLoad actor req = .admitted) :
    actor.activeOp = none ∧ ∀ v, slotView actor.models req.id = some v → v.2 = 0 := by
  unfold screenLoad at h
  split at h
  · cases h
  · split at h
    · exact screenLoadSlot_admitted h
    · split at h
      · simp only at h
        split at h
        · split at h
          · split at h <;> cases h
          · cases h
        · cases h
      · exact screenLoadSlot_admitted h

theorem planEviction_victim {models : Models G} {budgetGb : G} {id v : String}
    {need : ModelReq G} {victims : List String}
    (h : planEviction (models.buildSnapshot budgetGb id) need = .ok (.evict victims))
    (hv : v ∈ victims) : Victim models id v := by
  obtain ⟨m, hm, rfl, hevictable⟩ := planEviction_evict h v hv
  obtain ⟨hne, slot, hslot, hstate, hinflight, -⟩ := Models.buildSnapshot_mem hm
  obtain ⟨hsettled, -, -, hidle⟩ := ModelEntry.evictable_iff.mp hevictable
  refine ⟨hne, slot.state, ?_, ?_⟩
  · rcases hsettled with h | h <;> rw [← hstate, h] <;> rfl
  · simp [slotView, hslot, ModelSlot.view, ← hinflight, hidle]

theorem planLoad_victims {env : Env G} {models : Models G}
    (h : planLoad env models req = .ok plan) : ∀ v ∈ plan.evict, Victim models req.id v := by
  simp only [planLoad, bind_eq_ok] at h
  obtain ⟨-, -, evict, hchosen, charges, -, h⟩ := h
  cases h
  intro v hv
  unfold chosenVictims at hchosen
  split at hchosen
  · cases hchosen
    cases hv
  · rename_i victims hplan
    cases hchosen
    exact planEviction_victim hplan hv
  · cases hchosen

theorem handleLoad_turn :
    LoadTurn actor serial caller req marker
      (handleLoad actor serial caller req faults marker) := by
  unfold handleLoad
  split
  · exact .answered _ _ id
  · rename_i h
    obtain ⟨op, hactive, hserved⟩ := screenLoad_join h
    exact .joined op hactive hserved
  · rename_i hscreen
    obtain ⟨hidle, hfree⟩ := screenLoad_admitted hscreen
    split
    · exact .answered _ _ id
    · exact .answered _ _ id
    · rename_i plan fence hplan _
      cases hmarker : marker with
      | true =>
        obtain ⟨hstays, error, herror⟩ := @LoadFence.begin_present fence faults.begin
        have hbegin : fence.begin faults.begin true = (.error error, true) :=
          Prod.ext herror hstays
        rw [hbegin]
        exact .answered _ _ id
      | false =>
        split
        · exact .answered _ _ nofun
        · rename_i after hbegin
          have hset : after = true := by
            have hok := @LoadFence.begin_ok fence faults.begin false (by rw [hbegin])
            rw [hbegin] at hok
            exact hok.2
          subst hset
          split
          · split
            · exact .answered _ _ nofun
            · exact .answered _ _ nofun
          · exact .installed plan _ hidle rfl hfree (planLoad_victims hplan)

/-- After the installation the target loads, its victims stop and nothing else moved. -/
theorem installLoad_view {j : String} :
    slotView (installLoad actor serial caller req plan).1.models j =
      if j = req.id then some (.loading, 0)
      else if j ∈ plan.evict then (slotView actor.models j).map fun v => (.stopping, v.2)
      else slotView actor.models j := by
  simp only [installLoad, startLoad, view_setState, view_insert, view_stopAll]
  by_cases h : req.id = j
  · simp [h, ModelSlot.view]
  · simp [h, Ne.symm h]

end Load

section Chat

variable {actor after : Actor G} {model : String} {permit : Bool}

/-- A dispatched chat found its model ready, and is counted. -/
theorem handleChat_ok (h : handleChat actor model permit = .ok after) :
    ∃ n, slotView actor.models model = some (.ready, n) ∧ (∀ j, slotView after.models j =
        if model = j then (slotView actor.models j).map fun v => (v.1, v.2 + 1)
        else slotView actor.models j) ∧
      after.activeOp = actor.activeOp ∧ after.poisoned = actor.poisoned := by
  unfold handleChat at h
  split at h
  · cases h
  · rename_i slot hslot
    split at h
    · cases h
    · rename_i hready
      split at h
      · cases h
        have hview : ∀ j, slotView (actor.models.modify model fun slot => { slot with
            lastUsedSeq := actor.nextSeq + 1
            inflight := slot.inflight + 1 }) j =
            if model = j then (slotView actor.models j).map fun v => (v.1, v.2 + 1)
            else slotView actor.models j :=
          fun j => view_modify (g := fun v => (v.1, v.2 + 1)) fun _ => rfl
        refine ⟨slot.inflight, ?_, hview, rfl, rfl⟩
        simp [slotView, hslot, ModelSlot.view, not_not.mp hready]
      · cases h

theorem draining_eq_some {op : ActiveOp G} {waiters : List Nat} :
    op.draining model = some waiters ↔ op = ⟨op.serial, model, .unload waiters false⟩ := by
  obtain ⟨serial, id, kind⟩ := op
  unfold ActiveOp.draining
  split
  · rename_i waiters' hkind
    simp only at hkind
    subst hkind
    simp
  · rename_i hkind
    simp only [reduceCtorEq, ActiveOp.mk.injEq, true_and, false_iff, not_and]
    rintro rfl rfl
    exact hkind waiters rfl

/-- A finished chat is counted off; the last one starts the unload that waits for it. -/
theorem chatDone_turn [Gigabytes G] {state : ModelState} {n : Nat}
    (h : slotView actor.models model = some (state, n)) :
    (∀ j, slotView (chatDone actor model).1.models j =
      if model = j then (slotView actor.models j).map fun v => (v.1, v.2 - 1)
      else slotView actor.models j) ∧
    (chatDone actor model).1.poisoned = actor.poisoned ∧
    ((chatDone actor model).1.activeOp = actor.activeOp ∧ (chatDone actor model).2 = none ∧
        (∀ serial waiters, actor.activeOp = some ⟨serial, model, .unload waiters false⟩ → n - 1 ≠ 0) ∨
      ∃ serial waiters limit, actor.activeOp = some ⟨serial, model, .unload waiters false⟩ ∧
        n - 1 = 0 ∧ (chatDone actor model).1.activeOp =
          some ⟨serial, model, .unload waiters true⟩ ∧
        (chatDone actor model).2 = some (startUnload serial model limit actor.env)) := by
  obtain ⟨slot, hslot, hview⟩ := Option.map_eq_some_iff.mp h
  cases hview
  have hmodify : ∀ j, slotView (actor.models.modify model fun slot => { slot with
      inflight := slot.inflight - 1 }) j =
      if model = j then (slotView actor.models j).map fun v => (v.1, v.2 - 1)
      else slotView actor.models j :=
    fun j => view_modify (g := fun v => (v.1, v.2 - 1)) fun _ => rfl
  simp only [chatDone, hslot]
  split
  · rename_i serial waiters hdraining
    obtain ⟨op, hactive, hop⟩ := Option.bind_eq_some_iff.mp hdraining
    obtain ⟨waiters', hwaiters, hpair⟩ := Option.map_eq_some_iff.mp hop
    cases hpair
    have hop := draining_eq_some.mp hwaiters
    by_cases hn : slot.inflight - 1 = 0
    · simp only [hn, if_true]
      refine ⟨hmodify, trivial, .inr ⟨op.serial, waiters, _, ?_, trivial, rfl, rfl⟩⟩
      rw [hactive]
      exact congrArg some hop
    · simp only [hn, if_false]
      exact ⟨hmodify, trivial, .inl ⟨trivial, trivial, fun _ _ _ => hn⟩⟩
  · rename_i hdraining
    refine ⟨hmodify, rfl, .inl ⟨rfl, rfl, fun serial waiters hactive _ => ?_⟩⟩
    rw [hactive] at hdraining
    simp [ActiveOp.draining] at hdraining

end Chat

section OpDone

variable {actor : Actor G} {models : Models G} {id j : String} {evict : List String}
  {results : List VictimResult} {result : Except BackendError Unit} {doneState : ModelState}
  {failure : LoadFailureOutcome G} {outcome : OpOutcome G}

/-- The states of the listed models are settled, and nothing else moved. -/
structure Settles (before after : Models G) (ids : List String) : Prop where
  others : ∀ j, j ∉ ids → slotView after j = slotView before j
  inflight : ∀ j, (slotView after j).map Prod.snd = (slotView before j).map Prod.snd
  settled : ∀ j v, j ∈ ids → slotView after j = some v → v.1.settled = true

theorem Settles.refl (models : Models G) : Settles models models [] :=
  ⟨fun _ _ => rfl, fun _ => rfl, fun _ _ h => by cases h⟩

theorem Settles.known {after : Models G} (h : Settles models after evict) :
    (slotView after j).isSome = (slotView models j).isSome := by
  have hsame := congrArg Option.isSome (h.inflight j)
  simpa using hsame

theorem Settles.cons {middle after : Models G} {state : ModelState}
    (h : ∀ j, slotView middle j =
      if id = j then (slotView models j).map fun v => (state, v.2) else slotView models j)
    (hstate : state.settled = true) (hrest : Settles middle after evict) :
    Settles models after (id :: evict) where
  others j hj := by
    simp only [List.mem_cons, not_or] at hj
    rw [hrest.others j hj.2, h, if_neg (Ne.symm hj.1)]
  inflight j := by
    rw [hrest.inflight j, h]
    split
    · simp [Function.comp_def]
    · rfl
  settled j v hj hv := by
    by_cases hmem : j ∈ evict
    · exact hrest.settled j v hmem hv
    · rw [hrest.others j hmem, h] at hv
      have hid : id = j := ((List.mem_cons.mp hj).resolve_right hmem).symm
      rw [if_pos hid] at hv
      obtain ⟨old, -, rfl⟩ := Option.map_eq_some_iff.mp hv
      exact hstate

theorem Settles.trans {middle after : Models G} (h : Settles models middle evict)
    (h' : Settles middle after [id]) : Settles models after (id :: evict) where
  others j hj := by
    simp only [List.mem_cons, not_or] at hj
    rw [h'.others j (by simpa using hj.1), h.others j hj.2]
  inflight j := (h'.inflight j).trans (h.inflight j)
  settled j v hj hv := by
    by_cases hid : j ∈ [id]
    · exact h'.settled j v hid hv
    · rw [h'.others j hid] at hv
      exact h.settled j v ((List.mem_cons.mp hj).resolve_left (by simpa using hid)) hv

theorem applyVictims_settles (h : ∀ v ∈ results.map Prod.fst, (slotView models v).isSome = true) :
    (applyVictims models results).2 = none ∧
      Settles models (applyVictims models results).1 (results.map Prod.fst) := by
  induction results generalizing models with
  | nil => exact ⟨rfl, .refl models⟩
  | cons head rest ih =>
    obtain ⟨victim, result⟩ := head
    have hsettled : (if isError result then ModelState.error else .stopped).settled = true := by
      split <;> rfl
    obtain ⟨middle, hmiddle, hview⟩ :=
      setStateOrPoison_of_known (if isError result then .error else .stopped) (h victim (by simp))
    have hrest := @ih middle fun v hv => by
      have hknown := h v (List.mem_cons_of_mem _ hv)
      rw [hview]
      split <;> simpa using hknown
    simp only [applyVictims, hmiddle, List.map_cons]
    exact ⟨hrest.1, .cons hview hsettled hrest.2⟩

theorem onSlot_settles {missing : String} {f : ModelSlot G → ModelSlot G}
    (h : (slotView actor.models id).isSome = true) (hf : ∀ slot, (f slot).state.settled = true)
    (hinflight : ∀ slot, (f slot).inflight = slot.inflight) :
    (actor.onSlot id missing f).2 = none ∧
      Settles actor.models (actor.onSlot id missing f).1.models [id] := by
  have hget : (actor.models.get id).isSome = true := by simpa [slotView] using h
  obtain ⟨slot, hslot⟩ := Option.isSome_iff_exists.mp hget
  have hview : ∀ j, slotView (actor.models.modify id f) j =
      if id = j then (actor.models.get j).map fun slot => (f slot).view else slotView actor.models j := by
    intro j
    unfold slotView
    rw [Keyed.Map.get_modify]
    split <;> simp [Function.comp_def]
  simp only [Actor.onSlot, hslot]
  refine ⟨trivial, ⟨fun j hj => ?_, fun j => ?_, fun j v hj hv => ?_⟩⟩
  · rw [hview, if_neg (fun he => hj (by simp [he]))]
  · rw [hview]
    split
    · simp [slotView, ModelSlot.view, Function.comp_def, hinflight]
    · rfl
  · rw [hview, if_pos (List.mem_singleton.mp hj).symm] at hv
    obtain ⟨slot, -, rfl⟩ := Option.map_eq_some_iff.mp hv
    exact hf slot

theorem settleState_settles (state : ModelState) (h : (slotView actor.models id).isSome = true)
    (hstate : state.settled = true) :
    (actor.settleState id state).2 = none ∧
      Settles actor.models (actor.settleState id state).1.models [id] := by
  obtain ⟨models', hok, hview⟩ := setStateOrPoison_of_known state h
  simp only [Actor.settleState, hok]
  exact ⟨trivial, .cons hview hstate (.refl models')⟩

variable [Gigabytes G]

theorem applyFailure_settles (h : (slotView actor.models id).isSome = true)
    (hf : failure.settles = true) : (actor.applyFailure id failure).2 = none ∧
      Settles actor.models (actor.applyFailure id failure).1.models [id] := by
  cases failure with
  | settle state => exact settleState_settles state h hf
  | settleReleased status =>
    obtain ⟨hnone, hsettles⟩ := settleState_settles .stopped h rfl
    simp only [Actor.applyFailure]
    split
    · rename_i after hafter
      rw [hafter] at hsettles
      exact ⟨rfl, hsettles⟩
    · rename_i after violation hafter
      rw [hafter] at hnone
      cases hnone
  | restorePrevious previous => exact onSlot_settles h (fun _ => hf) (fun _ => rfl)
  | retainPreviousOnError previous => exact onSlot_settles h (fun _ => rfl) (fun _ => rfl)
  | retainUnconfirmedLoad previous =>
    apply onSlot_settles h
    · intro slot
      cases previous <;> rfl
    · intro slot
      cases previous <;> rfl

theorem applyResult_settles (h : (slotView actor.models id).isSome = true)
    (hdone : doneState.settled = true) (hf : failure.settles = true) :
    (actor.applyResult id result doneState failure).2 = none ∧
      Settles actor.models (actor.applyResult id result doneState failure).1.models [id] := by
  rcases result with err | ⟨⟩
  · exact applyFailure_settles h hf
  · have hknown : (slotView { actor with nextSeq := actor.nextSeq + 1 }.models id).isSome = true := h
    exact onSlot_settles hknown (fun _ => hdone) (fun _ => rfl)

@[simp] theorem conclude_models {violation : Option String} :
    (actor.conclude id violation result).1.models = actor.models := by
  unfold Actor.conclude
  cases violation with
  | some msg => rfl
  | none =>
    simp only
    split
    · rfl
    · split <;> rfl

@[simp] theorem conclude_activeOp {violation : Option String} :
    (actor.conclude id violation result).1.activeOp = none := by
  unfold Actor.conclude
  cases violation with
  | some msg => rfl
  | none =>
    simp only
    split
    · rfl
    · split <;> rfl

@[simp] theorem refresh_models {status : Option (BackendStatus G)} {excludedId : Option String}
    {creditGb : G} : (actor.refresh status excludedId creditGb).models = actor.models := by
  cases status <;> rfl

/-- The report of an operation releases the mutex and settles its target and its victims. -/
theorem opDone_settles (hfits : outcome.Fits evict) (hid : (slotView actor.models id).isSome = true)
    (hvictims : ∀ v ∈ evict, (slotView actor.models v).isSome = true) :
    (opDone actor id outcome).1.activeOp = none ∧
      Settles actor.models (opDone actor id outcome).1.models (id :: evict) := by
  cases outcome with
  | load result victimResults aggregateStatus creditGb failure =>
    obtain ⟨rfl, hf⟩ := hfits
    obtain ⟨hnone, hsettles⟩ := applyVictims_settles hvictims
    simp only [opDone, hnone, conclude_activeOp, conclude_models, true_and]
    let stopped : Actor G := { actor with models := (applyVictims actor.models victimResults).1 }
    have hknown : (slotView (stopped.refresh aggregateStatus (some id) creditGb).models id).isSome =
        true := by
      rw [refresh_models]
      exact hsettles.known.trans hid
    have htarget : Settles (stopped.refresh aggregateStatus (some id) creditGb).models
        ((stopped.refresh aggregateStatus (some id) creditGb).applyResult id result .ready
          failure).1.models [id] := (applyResult_settles hknown rfl hf).2
    rw [refresh_models] at htarget
    exact hsettles.trans htarget
  | unload result status =>
    obtain rfl : evict = [] := hfits
    simp only [opDone, conclude_activeOp, conclude_models, refresh_models, true_and]
    exact (applyResult_settles hid rfl rfl).2

end OpDone

end Supervisor
