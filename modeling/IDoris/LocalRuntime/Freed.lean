import IDoris.LocalRuntime.Adapter

/-!
# When a runtime is reported freed

While no live group is let go and the empty slot is not trusted under a shutdown, every
live group has one owner: the slot or one call. Then an answer that the runtime is freed
is true, and two groups are never alive at once.
-/
namespace LocalRuntime

open ProcessGroup Transition

namespace Adapter

variable {s t : Adapter} {platform : Platform} {e : Event} {i j g h : Nat} {kind : Kind} {pc : Pc}
  {labels : List Event}

def Alive (s : Adapter) (g : Nat) : Prop := (s.groups g).Live

/-- The process that a call has taken out of the slot, or is about to put there. -/
def held (s : Adapter) (i : Nat) : Option Nat := (s.calls i).bind fun call => call.2.held

/-- The last step answered that no model is loaded, or that one was unloaded. -/
def Freed (s : Adapter) : Prop :=
  s.answer = some (.status, .running false) ∨ s.answer = some (.unload, .done)

/-- A group is let go only when it is dead; a report does not trust the empty slot while
another call holds a live group; and an engine is started only when nothing owns another. -/
def Careful (s : Adapter) : Event → Prop
  | .fail i | .drop i => ∀ g, s.held i = some g → ¬s.Alive g
  | .lock i _ => s.slot = none → (∃ pc, s.calls i = some (.status, pc) ∨ s.calls i = some (.unload, pc)) →
      ∀ j g, s.held j = some g → ¬s.Alive g
  | .spawn _ ok => ok = true → s.slot = none ∧ ∀ j, s.held j = none
  | _ => True

/-- Every live group has one owner. -/
structure Owned (s : Adapter) : Prop where
  fresh : ∀ g, s.spawned ≤ g → ¬s.Alive g
  owner : ∀ g, s.Alive g → s.slot = some g ∨ ∃ i, s.held i = some g
  slot : ∀ g i, s.slot = some g → s.held i = none
  call : ∀ i j g h, s.held i = some g → s.held j = some h → i = j
  clean : ∀ i kind g, s.calls i = some (kind, .reaping g (some true)) → ¬s.Alive g
  freed : s.Freed → ∀ g, ¬s.Alive g

theorem owned_start : Owned start := by
  constructor <;> simp [start, held, Alive, Freed, Group.not_live_absent]

section Frames

@[simp] theorem held_goto (s : Adapter) (i : Nat) (kind : Kind) (pc : Pc) (j : Nat) :
    (s.goto i kind pc).held j = if j = i then pc.held else s.held j := by
  by_cases h : j = i
  · subst h
    simp [held, goto]
  · simp [held, goto, h]

@[simp] theorem held_reply (s : Adapter) (i : Nat) (kind : Kind) (answer : Reply) (j : Nat) :
    (s.reply i kind answer).held j = if j = i then none else s.held j := by
  by_cases h : j = i
  · subst h
    simp [held, reply]
  · simp [held, reply, h]

theorem held_of_call (h : s.calls i = some (kind, pc)) : s.held i = pc.held := by
  simp [held, h]

@[simp] theorem slot_goto : (s.goto i kind pc).slot = s.slot := rfl

@[simp] theorem alive_goto : (s.goto i kind pc).Alive g ↔ s.Alive g := Iff.rfl

@[simp] theorem slot_reply {answer : Reply} : (s.reply i kind answer).slot = s.slot := rfl

@[simp] theorem alive_reply {answer : Reply} : (s.reply i kind answer).Alive g ↔ s.Alive g := Iff.rfl

@[simp] theorem not_freed_goto : ¬(s.goto i kind pc).Freed := by simp [Freed, goto]

end Frames

section Steps

/-- The processes stay where they are, except that calls let dead ones go. -/
theorem Owned.of_held (h : s.Owned) (hslot : t.slot = s.slot) (hspawned : t.spawned = s.spawned)
    (halive : ∀ g, t.Alive g → s.Alive g)
    (hheld : ∀ j, t.held j = s.held j ∨ t.held j = none ∧ ∀ g, s.held j = some g → ¬t.Alive g)
    (hclean : ∀ j kind g, t.calls j = some (kind, .reaping g (some true)) → ¬t.Alive g)
    (hfreed : t.Freed → ∀ g, ¬t.Alive g) : t.Owned := by
  have hback : ∀ j g, t.held j = some g → s.held j = some g := by
    intro j g hj
    obtain hsame | ⟨hnone, -⟩ := hheld j
    · rw [← hsame, hj]
    · rw [hnone] at hj
      cases hj
  refine ⟨fun g hg => ?_, fun g hg => ?_, fun g j hg => ?_, fun j k g g' hj hk => ?_, hclean, hfreed⟩
  · exact fun hlive => h.fresh g (hspawned ▸ hg) (halive g hlive)
  · obtain hin | ⟨j, hj⟩ := h.owner g (halive g hg)
    · exact .inl (hslot.trans hin)
    · obtain hsame | ⟨-, hdead⟩ := hheld j
      · exact .inr ⟨j, hsame.trans hj⟩
      · exact absurd hg (hdead g hj)
  · cases hnone : t.held j with
    | none => rfl
    | some g' =>
      have hbusy := hback j g' hnone
      rw [h.slot g j (hslot ▸ hg)] at hbusy
      cases hbusy
  · exact h.call j k g g' (hback j g hj) (hback k g' hk)

/-- A call goes on with the process it holds, or lets a dead one go. -/
theorem Owned.goto (h : s.Owned) {pc' : Pc}
    (hheld : pc'.held = s.held i ∨ pc'.held = none ∧ ∀ g, s.held i = some g → ¬s.Alive g)
    (hclean : ∀ g, pc' = .reaping g (some true) → ¬s.Alive g) : (s.goto i kind pc').Owned := by
  refine h.of_held rfl rfl (fun _ => id) (fun j => ?_) (fun j kind' g hj => ?_)
    (fun hfreed => absurd hfreed not_freed_goto)
  · by_cases heq : j = i
    · subst heq
      simpa using hheld
    · exact .inl (by simp [heq])
  · by_cases heq : j = i
    · subst heq
      simp only [Adapter.goto, Function.update_self, Option.some.injEq, Prod.mk.injEq] at hj
      exact hclean g hj.2
    · simp only [Adapter.goto, Function.update_of_ne heq] at hj
      exact h.clean j kind' g hj

/-- A call that holds no live process is over. -/
theorem Owned.leave (h : s.Owned) (answer : Option (Kind × Reply))
    (hdead : ∀ g, s.held i = some g → ¬s.Alive g)
    (hfreed : answer = some (.status, .running false) ∨ answer = some (.unload, .done) →
      ∀ g, ¬s.Alive g) :
    Owned { s with calls := Function.update s.calls i none, answer := answer } := by
  refine h.of_held rfl rfl (fun _ => id) (fun j => ?_) (fun j kind' g hj => ?_) hfreed
  · by_cases heq : j = i
    · subst heq
      exact .inr ⟨by simp [held], hdead⟩
    · exact .inl (by simp [held, heq])
  · by_cases heq : j = i
    · subst heq
      simp at hj
    · simp only [Function.update_of_ne heq] at hj
      exact h.clean j kind' g hj

theorem Owned.reply (h : s.Owned) {answer : Reply} (hdead : ∀ g, s.held i = some g → ¬s.Alive g)
    (hfreed : (s.reply i kind answer).Freed → ∀ g, ¬s.Alive g) :
    (s.reply i kind answer).Owned :=
  h.leave _ hdead hfreed

/-- A group changes or is reaped: nothing comes alive. -/
theorem Owned.setGroup (h : s.Owned) {group : Group} (hlive : group.Live → s.Alive g) :
    (s.setGroup g group).Owned := by
  have halive : ∀ g', (s.setGroup g group).Alive g' → s.Alive g' := by
    intro g' hg'
    by_cases heq : g' = g
    · subst heq
      simp only [Alive, Adapter.setGroup, Function.update_self] at hg'
      exact hlive hg'
    · simpa only [Alive, Adapter.setGroup, Function.update_of_ne heq] using hg'
  refine h.of_held rfl rfl halive (fun j => .inl rfl) (fun j kind' g' hj hg' => ?_) ?_
  · exact h.clean j kind' g' hj (halive g' hg')
  · exact fun hfreed g' hg' => h.freed hfreed g' (halive g' hg')

theorem Owned.forget (h : s.Owned) : Owned { s with answer := none } :=
  h.of_held rfl rfl (fun _ => id) (fun _ => .inl rfl) h.clean (by simp [Freed])

/-- Nothing is alive when the only owner holds a dead group. -/
theorem Owned.none_alive (h : s.Owned) (hheld : s.held i = some g) (hdead : ¬s.Alive g) :
    ∀ g', ¬s.Alive g' := by
  intro g' halive
  obtain hslot | ⟨j, hj⟩ := h.owner g' halive
  · have hnone := h.slot g' i hslot
    rw [hheld] at hnone
    cases hnone
  · obtain rfl := h.call i j g g' hheld hj
    rw [hheld, Option.some.injEq] at hj
    exact hdead (hj ▸ halive)

/-- A call finds no process, or has shut its own down. -/
theorem Owned.stopped (h : s.Owned) (hdead : ∀ g, s.held i = some g → ¬s.Alive g)
    (hnone : kind = .status ∨ kind = .unload → ∀ g, ¬s.Alive g) : (s.stopped i kind).Owned := by
  cases kind with
  | load => exact h.goto (.inr ⟨rfl, hdead⟩) nofun
  | unload => exact h.reply hdead fun _ => hnone (.inr rfl)
  | status => exact h.reply hdead fun _ => hnone (.inl rfl)
  | probeReady => exact h.reply hdead (by simp [Freed, Adapter.reply])
  | chat => exact h.reply hdead (by simp [Freed, Adapter.reply])

theorem Owned.takeOut (h : s.Owned) (hslot : s.slot = some g) : (s.takeOut i kind g).Owned := by
  have hfree : ∀ j, s.held j = none := fun j => h.slot g j hslot
  have hheld : ∀ j, (s.takeOut i kind g).held j = if j = i then some g else none := by
    intro j
    rw [Adapter.takeOut, held_goto]
    split
    · rfl
    · exact hfree j
  refine ⟨h.fresh, ?_, nofun, ?_, ?_, fun hfreed => absurd hfreed not_freed_goto⟩
  · intro g' hg'
    obtain hin | ⟨j, hj⟩ := h.owner g' hg'
    · rw [hslot, Option.some.injEq] at hin
      exact .inr ⟨i, by rw [hheld, if_pos rfl, hin]⟩
    · rw [hfree j] at hj
      cases hj
  · intro j k g' h' hj hk
    rw [hheld] at hj hk
    by_cases hji : j = i
    · by_cases hki : k = i
      · exact hji.trans hki.symm
      · simp [hki] at hk
    · simp [hji] at hj
  · intro j kind' g' hj
    by_cases heq : j = i
    · subst heq
      simp [Adapter.takeOut, Adapter.goto] at hj
    · simp only [Adapter.takeOut, Adapter.goto, Function.update_of_ne heq] at hj
      exact h.clean j kind' g' hj

/-- An engine is started while nothing owns another. -/
theorem Owned.spawn (h : s.Owned) (hslot : s.slot = none) (hheld : ∀ j, s.held j = none) :
    Owned ({ s.setGroup s.spawned .spawned with spawned := s.spawned + 1 }.goto i kind
      (.storing s.spawned)) := by
  have hdead : ∀ g, ¬s.Alive g := by
    intro g hg
    obtain hin | ⟨j, hj⟩ := h.owner g hg
    · rw [hslot] at hin
      cases hin
    · rw [hheld j] at hj
      cases hj
  have honly : ∀ g, g ≠ s.spawned →
      ¬({ s.setGroup s.spawned .spawned with spawned := s.spawned + 1 } : Adapter).Alive g := by
    intro g hne
    simpa only [Alive, Adapter.setGroup, Function.update_of_ne hne] using hdead g
  refine ⟨?_, ?_, ?_, ?_, ?_, fun hfreed => absurd hfreed not_freed_goto⟩
  · intro g hg
    have hlater : s.spawned + 1 ≤ g := hg
    exact honly g (by omega)
  · intro g hg
    have heq : g = s.spawned := by
      by_contra hne
      exact honly g hne hg
    exact .inr ⟨i, by simp [heq, Pc.held]⟩
  · intro g j hg
    have hnone : s.slot = some g := hg
    rw [hslot] at hnone
    cases hnone
  · intro j k g g' hj hk
    rw [held_goto] at hj hk
    by_cases hji : j = i
    · by_cases hki : k = i
      · exact hji.trans hki.symm
      · rw [if_neg hki] at hk
        exact absurd (hheld k) (by simp [show s.held k = some g' from hk])
    · rw [if_neg hji] at hj
      exact absurd (hheld j) (by simp [show s.held j = some g from hj])
  · intro j kind' g hj
    by_cases heq : j = i
    · subst heq
      simp [Adapter.goto] at hj
    · simp only [Adapter.goto, Function.update_of_ne heq] at hj
      have hbusy := held_of_call (s := s) hj
      rw [hheld j] at hbusy
      cases hbusy

/-- The new process goes into the slot; whatever stood there is dead. -/
theorem Owned.store (h : s.Owned) (hmine : s.held i = some g) :
    ({ s with slot := some g }.reply i .load .done).Owned := by
  have hothers : ∀ j, j ≠ i → s.held j = none := by
    intro j hne
    cases hj : s.held j with
    | none => rfl
    | some g' => exact absurd (h.call j i g' g hj hmine) hne
  have hheld : ∀ j, ({ s with slot := some g }.reply i .load .done).held j = none := by
    intro j
    by_cases heq : j = i
    · simp [heq]
    · rw [held_reply, if_neg heq]
      exact hothers j heq
  refine ⟨h.fresh, ?_, fun g' j _ => hheld j, ?_, ?_, ?_⟩
  · intro g' hg'
    obtain hin | ⟨j, hj⟩ := h.owner g' hg'
    · have hnone := h.slot g' i hin
      rw [hmine] at hnone
      cases hnone
    · obtain rfl := h.call i j g g' hmine hj
      exact .inl (hmine.symm.trans hj)
  · intro j k g₁ g₂ hj
    rw [hheld j] at hj
    cases hj
  · intro j kind' g' hj
    by_cases heq : j = i
    · subst heq
      simp [Adapter.reply] at hj
    · simp only [Adapter.reply, Function.update_of_ne heq] at hj
      exact h.clean j kind' g' hj
  · simp [Freed, Adapter.reply]

theorem Owned.look {running : Option Bool} (h : s.Owned) (hcall : s.calls i = some (kind, .locking))
    (hcareful : s.Careful (.lock i running)) (hs : s.look i kind running = some t) : t.Owned := by
  have hfree : s.held i = none := held_of_call hcall
  have hdead : ∀ g, s.held i = some g → ¬s.Alive g := by simp [hfree]
  cases hslot : s.slot with
  | none =>
    simp only [Adapter.look, hslot, Option.some.injEq] at hs
    subst hs
    refine h.stopped hdead fun hreports g hg => ?_
    obtain hin | ⟨j, hj⟩ := h.owner g hg
    · rw [hslot] at hin
      cases hin
    · refine hcareful hslot ⟨.locking, ?_⟩ j g hj hg
      obtain rfl | rfl := hreports
      · exact .inl hcall
      · exact .inr hcall
  | some g =>
    simp only [Adapter.look, hslot] at hs
    by_cases hunload : kind = .unload
    · simp only [hunload, if_true, Option.some.injEq] at hs
      subst hs
      exact h.takeOut hslot
    · simp only [hunload, if_false] at hs
      cases running with
      | none =>
        simp only [Option.some.injEq] at hs
        subst hs
        exact h.reply hdead (by simp [Freed, Adapter.reply])
      | some running =>
        cases running with
        | true =>
          simp only [Option.ite_none_right_eq_some, Option.some.injEq] at hs
          obtain ⟨-, rfl⟩ := hs
          cases kind with
          | unload => exact absurd rfl hunload
          | load => exact h.reply hdead (by simp [Freed, Adapter.reply])
          | status => exact h.reply hdead (by simp [Freed, Adapter.reply])
          | probeReady => exact h.reply hdead (by simp [Freed, Adapter.reply])
          | chat => exact h.reply hdead (by simp [Freed, Adapter.reply])
        | false =>
          simp only [Option.ite_none_left_eq_some, Option.some.injEq] at hs
          obtain ⟨-, rfl⟩ := hs
          exact h.takeOut hslot

/-- A shutdown that has seen the group clean has seen everything dead. -/
theorem Owned.shutDown {clean : Option Bool} (h : s.Owned) (hheld : s.held i = some g)
    (hclean : clean = some true → ¬s.Alive g) : (s.shutDown i kind g clean).Owned := by
  by_cases hgone : clean = some true
  · have hnone := h.none_alive hheld (hclean hgone)
    rw [Adapter.shutDown, if_pos hgone]
    exact h.stopped (fun g' _ => hnone g') fun _ => hnone
  · rw [Adapter.shutDown, if_neg hgone]
    exact h.goto (.inl hheld.symm) nofun

theorem Owned.next (h : s.Owned) (hcall : s.calls i = some (kind, pc)) (hcaller : caller e = some i)
    (hcareful : s.Careful e) (hs : s.next platform i kind pc e = some t) : t.Owned := by
  have hheld : s.held i = pc.held := held_of_call hcall
  cases e with
  | begin j kind' => cases hs
  | change g c => cases hs
  | lock j running =>
    obtain rfl : j = i := by simpa [caller] using hcaller
    simp only [Adapter.next, Option.ite_none_right_eq_some] at hs
    obtain ⟨rfl, hlook⟩ := hs
    exact h.look hcall hcareful hlook
  | terminate j ok =>
    cases pc <;> simp only [Adapter.next, reduceCtorEq, Option.some.injEq] at hs
    subst hs
    cases ok with
    | true => exact h.goto (.inl hheld.symm) nofun
    | false => exact h.goto (.inl hheld.symm) nofun
  | leaderWait j exited =>
    cases pc <;> simp only [Adapter.next, reduceCtorEq] at hs
    obtain ⟨-, hs⟩ := Option.ite_none_left_eq_some.mp hs
    rw [Option.some.injEq] at hs
    subst hs
    cases exited with
    | none => exact h.goto (.inl hheld.symm) nofun
    | some exited => exact h.goto (.inl hheld.symm) nofun
  | sweep j ok =>
    cases pc <;> simp only [Adapter.next, reduceCtorEq] at hs
    cases ok with
    | false =>
      simp only [Bool.false_eq_true, if_false, Option.some.injEq] at hs
      subst hs
      exact h.goto (.inl hheld.symm) nofun
    | true =>
      cases platform with
      | linux =>
        simp only [if_true, Option.some.injEq] at hs
        subst hs
        exact h.goto (.inl hheld.symm) nofun
      | otherUnix =>
        simp only [if_true, Option.some.injEq] at hs
        subst hs
        exact h.goto (.inl hheld.symm) nofun
  | cleanup j clean =>
    cases pc <;> simp only [Adapter.next, reduceCtorEq] at hs
    obtain ⟨hseen, hs⟩ := Option.ite_none_left_eq_some.mp hs
    have hdead := fun hclean : clean = some true => not_and.mp hseen hclean
    cases platform with
    | linux =>
      rw [Option.some.injEq] at hs
      subst hs
      refine h.goto (.inl hheld.symm) fun g hpc => ?_
      obtain ⟨rfl, hclean⟩ := Pc.reaping.inj hpc
      exact hdead hclean
    | otherUnix =>
      rw [Option.some.injEq] at hs
      subst hs
      exact h.shutDown hheld hdead
  | reap j ok =>
    cases pc with
    | reaping g clean =>
      simp only [Adapter.next] at hs
      cases ok with
      | false =>
        simp only [Bool.false_eq_true, if_false, Option.some.injEq] at hs
        subst hs
        exact h.goto (.inl hheld.symm) nofun
      | true =>
        simp only [if_true, Option.map_eq_some_iff] at hs
        obtain ⟨group, hreap, hs⟩ := hs
        have hlive : group.Live → s.Alive g := Group.live_of_reap hreap
        have hafter := h.setGroup hlive
        cases platform with
        | linux =>
          subst hs
          refine hafter.shutDown hheld fun hclean => ?_
          subst hclean
          have hdead := h.clean i kind g hcall
          simpa [Alive, Adapter.setGroup] using fun hg => hdead (hlive hg)
        | otherUnix =>
          subst hs
          exact hafter.goto (.inl hheld.symm) nofun
    | _ => cases hs
  | fail j =>
    obtain rfl : j = i := by simpa [caller] using hcaller
    cases pc <;> simp only [Adapter.next, reduceCtorEq, Option.some.injEq] at hs
    subst hs
    exact h.reply hcareful (by simp [Freed, Adapter.reply])
  | spawn j ok =>
    cases kind <;> cases pc <;> simp only [Adapter.next, reduceCtorEq] at hs
    cases ok with
    | false =>
      simp only [Bool.false_eq_true, if_false, Option.some.injEq] at hs
      subst hs
      exact h.reply (by simp [hheld, Pc.held]) (by simp [Freed, Adapter.reply])
    | true =>
      simp only [if_true, Option.some.injEq] at hs
      subst hs
      obtain ⟨hslot, hnone⟩ := hcareful rfl
      exact h.spawn hslot hnone
  | store j =>
    cases kind <;> cases pc <;> simp only [Adapter.next, reduceCtorEq, Option.some.injEq] at hs
    subst hs
    exact h.store hheld
  | drop j =>
    obtain rfl : j = i := by simpa [caller] using hcaller
    simp only [Adapter.next, Option.some.injEq] at hs
    subst hs
    exact h.leave none hcareful (by simp)

theorem Owned.step (h : s.Owned) (hcareful : s.Careful e) (hs : s.step platform e = some t) :
    t.Owned := by
  have hcall : ∀ i, caller e = some i →
      ((s.calls i).bind fun call => s.next platform i call.1 call.2 e) = some t → t.Owned := by
    intro i hcaller hnext
    obtain ⟨⟨kind, pc⟩, hcall, hnext⟩ := Option.bind_eq_some_iff.mp hnext
    exact h.next hcall hcaller hcareful hnext
  cases e with
  | begin i kind =>
    simp only [Adapter.step, Option.ite_none_right_eq_some, Option.some.injEq] at hs
    obtain ⟨hidle, rfl⟩ := hs
    exact h.goto (.inl (by simp [held, hidle, Pc.held])) nofun
  | change g c =>
    simp only [Adapter.step, Option.map_eq_some_iff] at hs
    obtain ⟨group, hchange, rfl⟩ := hs
    exact (h.setGroup (Group.live_of_change hchange)).forget
  | lock i running => exact hcall i rfl hs
  | terminate i ok => exact hcall i rfl hs
  | leaderWait i exited => exact hcall i rfl hs
  | sweep i ok => exact hcall i rfl hs
  | cleanup i clean => exact hcall i rfl hs
  | reap i ok => exact hcall i rfl hs
  | fail i => exact hcall i rfl hs
  | spawn i ok => exact hcall i rfl hs
  | store i => exact hcall i rfl hs
  | drop i => exact hcall i rfl hs

end Steps

theorem owned_of_run (h : ((interleaving platform).restrict Careful).Run start labels s) :
    s.Owned := by
  refine h.invariant Owned (fun t label u howned hstep => ?_) owned_start
  exact howned.step hstep.1 hstep.2

/-- Two live groups would have two owners. -/
theorem Owned.one_alive (h : s.Owned) {g g' : Nat} (hg : s.Alive g) (hg' : s.Alive g') : g = g' := by
  obtain hin | ⟨i, hi⟩ := h.owner g hg
  · obtain hin' | ⟨j, hj⟩ := h.owner g' hg'
    · exact Option.some.inj (hin.symm.trans hin')
    · rw [h.slot g j hin] at hj
      cases hj
  · obtain hin' | ⟨j, hj⟩ := h.owner g' hg'
    · rw [h.slot g' i hin'] at hi
      cases hi
    · obtain rfl := h.call i j g g' hi hj
      exact Option.some.inj (hi.symm.trans hj)

/-- In every run of careful steps an answer that the runtime is freed is true, and no two
groups are alive at once. -/
theorem freed_when_careful (platform : Platform) (labels : List Event) (s : Adapter)
    (h : ((interleaving platform).restrict Careful).Run start labels s) :
    (s.Freed → ∀ g, ¬s.Alive g) ∧ ∀ g g', s.Alive g → s.Alive g' → g = g' :=
  ⟨(owned_of_run h).freed, fun _ _ hg hg' => (owned_of_run h).one_alive hg hg'⟩

/-- The step of an event that is careful in every state. -/
def plainStep (platform : Platform) (s : Adapter) : Event → Option Adapter
  | .fail _ | .drop _ | .lock _ _ | .spawn _ _ => none
  | e => s.step platform e

theorem plainStep_careful {platform : Platform} (s : Adapter) (e : Event) (t : Adapter)
    (h : plainStep platform s e = some t) :
    ((interleaving platform).restrict Careful).step s e t := by
  cases e <;> first | cases h | exact ⟨trivial, h⟩

/-- The shutdown of the unload completes, and a status is asked for. -/
def unloadedAndAsked : List Event :=
  [.begin 0 .load, .lock 0 none, .spawn 0 true, .store 0, .begin 1 .unload, .lock 1 none,
    .terminate 1 true, .change 0 (.leaderExits none), .leaderWait 1 (some true), .sweep 1 true,
    .cleanup 1 (some true), .reap 1 true, .begin 2 .status]

theorem unloadedAndAsked_run :
    ∃ s, ((interleaving .linux).restrict Careful).Run start unloadedAndAsked s ∧ s.slot = none ∧
      s.calls 2 = some (.status, .locking) ∧ s.spawned = 1 ∧ ∀ j, s.held j = none := by
  let run := fun labels s => ((interleaving .linux).restrict Careful).Run start labels s
  have hbegun : run [.begin 0 .load] _ := System.Run.single ⟨trivial, rfl⟩
  have hempty : run [.begin 0 .load, .lock 0 none] _ := hbegun.snoc ⟨by simp [Careful, goto], rfl⟩
  have hidle : ∀ j, ((start.goto 0 .load .locking).stopped 0 .load).held j = none := by
    intro j
    cases j <;> rfl
  have hspawn : ((start.goto 0 .load .locking).stopped 0 .load).Careful (.spawn 0 true) :=
    fun _ => ⟨rfl, hidle⟩
  have hspawned := hempty.snoc ⟨hspawn, rfl⟩
  have hcalled := hspawned.append (System.run_of_foldlM plainStep_careful
    (rfl : [.store 0, .begin 1 .unload].foldlM (plainStep .linux) _ = some _))
  have htaken := hcalled.snoc (⟨nofun, rfl⟩ : _ ∧ step _ .linux (.lock 1 none) = some _)
  refine ⟨_, htaken.append (System.run_of_foldlM plainStep_careful
    (rfl : [.terminate 1 true, .change 0 (.leaderExits none), .leaderWait 1 (some true),
      .sweep 1 true, .cleanup 1 (some true), .reap 1 true, .begin 2 .status].foldlM
        (plainStep .linux) _ = some _)), rfl, rfl, rfl, fun j => ?_⟩
  rcases j with _ | _ | _ | j <;> rfl

theorem freed_when_careful_unloaded :
    ∃ s, ((interleaving .linux).restrict Careful).Run start (unloadedAndAsked ++ [.lock 2 none]) s ∧
      s.spawned = 1 ∧ s.Freed ∧ ∀ g, ¬s.Alive g := by
  obtain ⟨s, hrun, hslot, hcall, hspawned, hidle⟩ := unloadedAndAsked_run
  have hlock : s.step .linux (.lock 2 none) = some (s.reply 2 .status (.running false)) := by
    simp [step, caller, hcall, Adapter.next, look, hslot, stopped]
  have hcareful : s.Careful (.lock 2 none) := by
    intro _ _ j g hj
    rw [hidle] at hj
    cases hj
  have hasked := hrun.snoc ⟨hcareful, hlock⟩
  have hfreed : (s.reply 2 .status (.running false)).Freed := .inl rfl
  exact ⟨_, hasked, hspawned, hfreed, (freed_when_careful .linux _ _ hasked).1 hfreed⟩

/-- An unload whose shutdown times out, and a status that then finds the slot empty. -/
def lostHandle : List Event :=
  [.begin 0 .load, .lock 0 none, .spawn 0 true, .store 0,
    .begin 1 .unload, .lock 1 none, .terminate 1 true, .leaderWait 1 (some false), .sweep 1 true,
    .cleanup 1 (some false), .reap 1 false, .fail 1,
    .begin 2 .status, .lock 2 none]

/-- The failed unload has lost the process, and a status reports it freed. -/
theorem freed_while_alive :
    ∃ labels s, (interleaving .linux).Run start labels s ∧ s.Freed ∧ ∃ g, s.Alive g := by
  obtain ⟨s, hs, hfreed, halive⟩ : ∃ s, lostHandle.foldlM (fun s e => s.step .linux e) start = some s ∧
      s.answer = some (.status, .running false) ∧ (s.groups 0).leader = .running :=
    ⟨_, rfl, rfl, rfl⟩
  exact ⟨lostHandle, s, System.run_of_foldlM (fun _ _ _ h => h) hs, .inl hfreed, 0, .inl halive⟩

end Adapter

end LocalRuntime
