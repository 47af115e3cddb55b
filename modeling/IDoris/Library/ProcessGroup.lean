import Mathlib.Data.Option.Basic

/-!
# Process groups

A group is a leader and its descendants. An exited member stays a zombie until it is
reaped; the leader is reaped by the owner of the group alone. A group keeps its number while
a member is left, if only a zombie; then an unrelated group can get it.
-/
namespace ProcessGroup

/-- A leader that was ended by a signal has no exit code. -/
inductive Leader where
  | running
  | exited (code : Option Int)
  | reaped (code : Option Int)
  deriving DecidableEq

def Leader.isReaped : Leader → Bool
  | .reaped _ => true
  | _ => false

structure Group where
  leader : Leader
  descendants : Nat
  zombies : Nat
  deriving DecidableEq

/-- What a group does by itself. -/
inductive Change where
  | fork
  | leaderExits (code : Option Int)
  | descendantExits
  | descendantReaped
  deriving DecidableEq

namespace Group

def spawned : Group := ⟨.running, 0, 0⟩

/-- A group that is not there, or of which nothing is left. -/
def absent : Group := ⟨.reaped none, 0, 0⟩

/-- A member still runs. -/
def Live (g : Group) : Prop := g.leader = .running ∨ 0 < g.descendants

/-- A member is left, if only a zombie. -/
def Present (g : Group) : Prop := g.leader.isReaped = false ∨ 0 < g.descendants + g.zombies

instance (g : Group) : Decidable g.Live := inferInstanceAs (Decidable (_ ∨ _))
instance (g : Group) : Decidable g.Present := inferInstanceAs (Decidable (_ ∨ _))

/-- Only a live member forks, so a dead group stays dead. -/
def change (g : Group) : Change → Option Group
  | .fork => if g.Live then some { g with descendants := g.descendants + 1 } else none
  | .leaderExits code =>
    if g.leader = .running then some { g with leader := .exited code } else none
  | .descendantExits =>
    if 0 < g.descendants then
      some { g with descendants := g.descendants - 1, zombies := g.zombies + 1 }
    else none
  | .descendantReaped => if 0 < g.zombies then some { g with zombies := g.zombies - 1 } else none

/-- The owner reaps the leader. -/
def reap (g : Group) : Option Group :=
  match g.leader with
  | .exited code => some { g with leader := .reaped code }
  | _ => none

variable {g h : Group} {c : Change}

theorem not_live_absent : ¬absent.Live := by decide

theorem Live.present (h : g.Live) : g.Present := by
  obtain hleader | hmany := h
  · exact .inl (by rw [hleader]; rfl)
  · exact .inr (by omega)

theorem live_of_change (hc : g.change c = some h) (hlive : h.Live) : g.Live := by
  cases c with
  | fork =>
    simp only [change, Option.ite_none_right_eq_some] at hc
    exact hc.1
  | leaderExits code =>
    simp only [change, Option.ite_none_right_eq_some] at hc
    exact .inl hc.1
  | descendantExits =>
    simp only [change, Option.ite_none_right_eq_some] at hc
    exact .inr hc.1
  | descendantReaped =>
    simp only [change, Option.ite_none_right_eq_some, Option.some.injEq] at hc
    obtain ⟨-, rfl⟩ := hc
    exact hlive

/-- Nothing happens in a group that is gone. -/
theorem present_of_change (hc : g.change c = some h) : g.Present := by
  cases c with
  | fork =>
    simp only [change, Option.ite_none_right_eq_some] at hc
    exact hc.1.present
  | leaderExits code =>
    simp only [change, Option.ite_none_right_eq_some] at hc
    exact Live.present (.inl hc.1)
  | descendantExits =>
    simp only [change, Option.ite_none_right_eq_some] at hc
    exact Live.present (.inr hc.1)
  | descendantReaped =>
    simp only [change, Option.ite_none_right_eq_some] at hc
    exact .inr (by omega)

theorem leader_of_change {code : Option Int} (hc : g.change c = some h)
    (hleader : g.leader = .reaped code) : h.leader = .reaped code := by
  cases c with
  | leaderExits code =>
    simp [change, hleader] at hc
  | fork =>
    simp only [change, Option.ite_none_right_eq_some, Option.some.injEq] at hc
    obtain ⟨-, rfl⟩ := hc
    exact hleader
  | descendantExits =>
    simp only [change, Option.ite_none_right_eq_some, Option.some.injEq] at hc
    obtain ⟨-, rfl⟩ := hc
    exact hleader
  | descendantReaped =>
    simp only [change, Option.ite_none_right_eq_some, Option.some.injEq] at hc
    obtain ⟨-, rfl⟩ := hc
    exact hleader

theorem isReaped_of_change (hc : g.change c = some h) : h.leader.isReaped = g.leader.isReaped := by
  cases c with
  | leaderExits code =>
    simp only [change, Option.ite_none_right_eq_some, Option.some.injEq] at hc
    obtain ⟨hrunning, rfl⟩ := hc
    rw [hrunning]
    rfl
  | fork =>
    simp only [change, Option.ite_none_right_eq_some, Option.some.injEq] at hc
    obtain ⟨-, rfl⟩ := hc
    rfl
  | descendantExits =>
    simp only [change, Option.ite_none_right_eq_some, Option.some.injEq] at hc
    obtain ⟨-, rfl⟩ := hc
    rfl
  | descendantReaped =>
    simp only [change, Option.ite_none_right_eq_some, Option.some.injEq] at hc
    obtain ⟨-, rfl⟩ := hc
    rfl

theorem live_of_reap (hr : g.reap = some h) (hlive : h.Live) : g.Live := by
  cases hleader : g.leader with
  | running => exact .inl hleader
  | exited code =>
    simp only [reap, hleader, Option.some.injEq] at hr
    subst hr
    obtain hrunning | hmany := hlive
    · cases hrunning
    · exact .inr hmany
  | reaped code => simp [reap, hleader] at hr

end Group

/-- The group that has the number; `turn` counts the groups that had it before. -/
structure Number where
  turn : Nat
  group : Group
  deriving DecidableEq

namespace Number

def spawned : Number := ⟨0, .spawned⟩

def change (n : Number) (c : Change) : Option Number :=
  (n.group.change c).map fun group => { n with group := group }

def reap (n : Number) : Option Number := n.group.reap.map fun group => { n with group := group }

/-- An unrelated group gets the number. -/
def reuse (n : Number) : Option Number :=
  if n.group.Present then none else some ⟨n.turn + 1, .spawned⟩

/-- The leader of the first group is not reaped, so that the number is its own. -/
def Anchored (n : Number) : Prop := n.turn = 0 ∧ n.group.leader.isReaped = false

variable {n m : Number} {c : Change}

theorem anchored_spawned : spawned.Anchored := ⟨rfl, rfl⟩

theorem turn_of_change (h : n.change c = some m) : m.turn = n.turn := by
  obtain ⟨group, -, rfl⟩ := Option.map_eq_some_iff.mp h
  rfl

theorem turn_of_reap (h : n.reap = some m) : m.turn = n.turn := by
  obtain ⟨group, -, rfl⟩ := Option.map_eq_some_iff.mp h
  rfl

theorem Anchored.present (h : n.Anchored) : n.group.Present := .inl h.2

theorem Anchored.not_reuse (h : n.Anchored) : n.reuse = none := if_pos h.present

theorem Anchored.change (h : n.Anchored) (hc : n.change c = some m) : m.Anchored := by
  refine ⟨(turn_of_change hc).trans h.1, ?_⟩
  obtain ⟨group, hgroup, rfl⟩ := Option.map_eq_some_iff.mp hc
  exact (Group.isReaped_of_change hgroup).trans h.2

end Number

end ProcessGroup
