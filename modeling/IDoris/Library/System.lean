import Mathlib.Data.List.Basic
import Mathlib.Data.List.Induction

/-!
# Labelled transition systems and their runs

A system is a step relation with labels. A run is any finite sequence of steps,
so a statement about every run covers every order in which the labels can occur.
-/
namespace Transition

variable {State Label : Type}

structure System (State Label : Type) where
  step : State → Label → State → Prop

namespace System

/-- Exactly the finite executions of a system, with the labels they took. -/
inductive Run (S : System State Label) (s : State) : List Label → State → Prop where
  | nil : Run S s [] s
  | snoc {labels : List Label} {t u : State} {label : Label} :
      Run S s labels t → S.step t label u → Run S s (labels ++ [label]) u

/-- The same system, in which only steps that meet a condition are taken. -/
def restrict (S : System State Label) (P : State → Label → Prop) : System State Label where
  step s label t := P s label ∧ S.step s label t

variable {S : System State Label} {P : State → Label → Prop} {s t u : State}
  {labels rest : List Label} {label : Label}

theorem Run.single (h : S.step s label t) : S.Run s [label] t := .snoc .nil h

/-- A run of a system whose steps are computed. -/
theorem run_of_foldlM {f : State → Label → Option State}
    (hf : ∀ s label t, f s label = some t → S.step s label t) (h : labels.foldlM f s = some t) :
    S.Run s labels t := by
  induction labels using List.reverseRecOn generalizing t with
  | nil =>
    cases h
    exact .nil
  | append_singleton labels label ih =>
    simp only [List.foldlM_append, List.foldlM_cons, List.foldlM_nil, Option.bind_eq_bind,
      Option.bind_eq_some_iff, Option.pure_def, Option.some.injEq] at h
    obtain ⟨u, hbefore, v, hlast, rfl⟩ := h
    exact .snoc (ih hbefore) (hf _ _ _ hlast)

theorem Run.append (h : S.Run s labels t) (h' : S.Run t rest u) :
    S.Run s (labels ++ rest) u := by
  induction h' with
  | nil => simpa using h
  | snoc _ hstep ih => rw [← List.append_assoc]; exact .snoc ih hstep

theorem Run.of_snoc (h : S.Run s (labels ++ [label]) u) : ∃ t, S.Run s labels t ∧ S.step t label u := by
  generalize hall : labels ++ [label] = all at h
  cases h with
  | nil => simp at hall
  | snoc hrun hlast =>
    obtain ⟨rfl, hlabel⟩ := List.append_inj' hall rfl
    cases hlabel
    exact ⟨_, hrun, hlast⟩

/-- The first part of a run is a run. -/
theorem Run.of_append (h : S.Run s (labels ++ rest) u) : ∃ t, S.Run s labels t ∧ S.Run t rest u := by
  induction rest using List.reverseRecOn generalizing u with
  | nil => exact ⟨u, by simpa using h, .nil⟩
  | append_singleton rest label ih =>
    rw [← List.append_assoc] at h
    obtain ⟨v, hrun, hlast⟩ := h.of_snoc
    obtain ⟨t, hfirst, hrest⟩ := ih hrun
    exact ⟨t, hfirst, .snoc hrest hlast⟩

/-- A property of the start that every step keeps holds wherever a run ends. -/
theorem Run.invariant (I : State → Prop)
    (hstep : ∀ t label u, I t → S.step t label u → I u)
    (h : S.Run s labels t) (hs : I s) : I t := by
  induction h with
  | nil => exact hs
  | snoc _ hlast ih => exact hstep _ _ _ ih hlast

/-- An invariant that relates the state to the labels that led to it. -/
theorem Run.history (I : List Label → State → Prop)
    (hstep : ∀ labels t label u, I labels t → S.step t label u → I (labels ++ [label]) u)
    (h : S.Run s labels t) (hs : I [] s) : I labels t := by
  induction h with
  | nil => exact hs
  | snoc _ hlast ih => exact hstep _ _ _ _ ih hlast

theorem Run.of_restrict (h : (S.restrict P).Run s labels t) : S.Run s labels t := by
  induction h with
  | nil => exact .nil
  | snoc _ hlast ih => exact .snoc ih hlast.2

/-- An invariant of one system that a second one needs to keep its own. -/
theorem Run.invariant_with (J I : State → Prop)
    (hJ : ∀ t label u, J t → S.step t label u → J u)
    (hI : ∀ t label u, J t → I t → S.step t label u → I u)
    (h : S.Run s labels t) (hj : J s) (hi : I s) : I t := by
  have both := h.invariant (fun t => J t ∧ I t)
    (fun t label u ht hstep => ⟨hJ t label u ht.1 hstep, hI t label u ht.1 ht.2 hstep⟩) ⟨hj, hi⟩
  exact both.2

/-- When a step keeps `I` exactly under `P`, the runs whose steps all meet `P` are the runs
whose states all satisfy `I`. -/
theorem Run.restrict_iff (J I : State → Prop)
    (hJ : ∀ t label u, J t → S.step t label u → J u)
    (hI : ∀ t label u, J t → I t → S.step t label u → (I u ↔ P t label)) (hj : J s) (hi : I s) :
    (S.restrict P).Run s labels t ↔ (S.restrict fun t _ => I t).Run s labels t ∧ I t := by
  constructor
  · intro h
    have hjs := fun {labels t} (h : (S.restrict P).Run s labels t) => h.of_restrict.invariant J hJ hj
    induction h with
    | nil => exact ⟨.nil, hi⟩
    | snoc hrun hlast ih =>
      exact ⟨.snoc ih.1 ⟨ih.2, hlast.2⟩, (hI _ _ _ (hjs hrun) ih.2 hlast.2).mpr hlast.1⟩
  · rintro ⟨h, hend⟩
    induction h with
    | nil => exact .nil
    | snoc hrun hlast ih =>
      have hbefore := hrun.of_restrict.invariant J hJ hj
      exact .snoc (ih hlast.1) ⟨(hI _ _ _ hbefore hlast.1 hlast.2).mp hend, hlast.2⟩

end System

end Transition
