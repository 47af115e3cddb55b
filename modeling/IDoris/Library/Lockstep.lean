import Mathlib.Tactic.Common

/-!
# Two computations in step

Both fail, with errors that belong together, or both succeed, with results that do.
-/
namespace Lockstep

variable {ε δ α β γ κ : Type} {errors : ε → δ → Prop}

inductive Coupled (errors : ε → δ → Prop) (results : α → β → Prop) :
    Except ε α → Except δ β → Prop where
  | error {e : ε} {d : δ} (h : errors e d) : Coupled errors results (.error e) (.error d)
  | ok {a : α} {b : β} (h : results a b) : Coupled errors results (.ok a) (.ok b)

theorem Coupled.mono {results finals : α → β → Prop} {x : Except ε α} {y : Except δ β}
    (h : Coupled errors results x y) (hresults : ∀ a b, results a b → finals a b) :
    Coupled errors finals x y := by
  cases h with
  | error he => exact .error he
  | ok hr => exact .ok (hresults _ _ hr)

/-- Steps that stay together one after the other stay together. -/
theorem Coupled.bind {results : α → β → Prop} {finals : γ → κ → Prop} {x : Except ε α}
    {y : Except δ β} {f : α → Except ε γ} {g : β → Except δ κ} (h : Coupled errors results x y)
    (hnext : ∀ a b, results a b → Coupled errors finals (f a) (g b)) :
    Coupled errors finals (x >>= f) (y >>= g) := by
  cases h with
  | error he => exact .error he
  | ok hr => exact hnext _ _ hr

/-- Both take the same branch. -/
theorem Coupled.ite {results : α → β → Prop} {p q : Prop} [Decidable p] [Decidable q]
    {x x' : Except ε α} {y y' : Except δ β} (hpq : p ↔ q)
    (hthen : p → Coupled errors results x y) (helse : ¬p → Coupled errors results x' y') :
    Coupled errors results (if p then x else x') (if q then y else y') := by
  by_cases hp : p
  · rw [if_pos hp, if_pos (hpq.mp hp)]
    exact hthen hp
  · rw [if_neg hp, if_neg fun hq => hp (hpq.mpr hq)]
    exact helse hp

theorem Coupled.ok_left {results : α → β → Prop} {a : α} {y : Except δ β}
    (h : Coupled errors results (.ok a) y) : ∃ b, y = .ok b ∧ results a b := by
  cases h with
  | ok hr => exact ⟨_, rfl, hr⟩

theorem Coupled.error_left {results : α → β → Prop} {e : ε} {y : Except δ β}
    (h : Coupled errors results (.error e) y) : ∃ d, y = .error d ∧ errors e d := by
  cases h with
  | error he => exact ⟨_, rfl, he⟩

end Lockstep
