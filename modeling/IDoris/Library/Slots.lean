import Mathlib.Algebra.Order.Ring.Int
import Mathlib.Algebra.BigOperators.Group.List.Basic

/-!
# Lists whose members are known by their place

What a list holds after the member at one place is replaced: there the new one, elsewhere
what it held before.
-/
namespace Slots

variable {α : Type} {xs : List α} {i j : Nat} {a b x : α}

theorem get_set (h : (xs.set i b)[j]? = some x) : j = i ∧ x = b ∨ j ≠ i ∧ xs[j]? = some x := by
  rw [List.getElem?_set] at h
  split at h
  · next heq =>
    subst heq
    split at h
    · exact .inl ⟨rfl, (Option.some.inj h).symm⟩
    · cases h
  · next hne => exact .inr ⟨Ne.symm hne, h⟩

theorem get_set_self (hi : xs[i]? = some a) : (xs.set i b)[i]? = some b :=
  List.getElem?_set_self (List.getElem?_eq_some_iff.mp hi).1

theorem get_set_of_ne (hne : j ≠ i) : (xs.set i b)[j]? = xs[j]? :=
  List.getElem?_set_ne (Ne.symm hne)

theorem mem_set (h : x ∈ xs.set i b) : x = b ∨ ∃ j, j ≠ i ∧ xs[j]? = some x := by
  obtain ⟨j, hj⟩ := List.mem_iff_getElem?.mp h
  obtain ⟨-, rfl⟩ | ⟨hne, hj⟩ := get_set hj
  · exact .inl rfl
  · exact .inr ⟨j, hne, hj⟩

theorem mem_set_self (hi : xs[i]? = some a) : b ∈ xs.set i b :=
  List.mem_iff_getElem?.mpr ⟨i, get_set_self hi⟩

theorem mem_set_of_ne (hne : j ≠ i) (hj : xs[j]? = some x) : x ∈ xs.set i b :=
  List.mem_iff_getElem?.mpr ⟨j, (get_set_of_ne hne).trans hj⟩

theorem get_concat (h : (xs ++ [a])[j]? = some x) : j = xs.length ∧ x = a ∨ xs[j]? = some x := by
  by_cases hlt : j < xs.length
  · rw [List.getElem?_append_left hlt] at h
    exact .inr h
  · rw [List.getElem?_append_right (by omega)] at h
    have hzero := (List.getElem?_eq_some_iff.mp h).1
    rw [List.length_singleton] at hzero
    exact .inl ⟨by omega, List.mem_singleton.mp (List.mem_of_getElem? h)⟩

theorem get_concat_of_some (h : xs[j]? = some x) : (xs ++ [a])[j]? = some x := by
  rw [List.getElem?_append_left (List.getElem?_eq_some_iff.mp h).1]
  exact h

section Holding

variable {p : α → Prop}

/-- A replacement that does not change whether the member has the property. -/
theorem holds_set_same (hi : xs[i]? = some a) (hp : p b ↔ p a) :
    (∃ x, (xs.set i b)[j]? = some x ∧ p x) ↔ ∃ x, xs[j]? = some x ∧ p x := by
  by_cases hj : j = i
  · subst hj
    simp [get_set_self hi, hi, hp]
  · rw [get_set_of_ne hj]

theorem holds_set_new (hi : xs[i]? = some a) (hp : p b) :
    (∃ x, (xs.set i b)[j]? = some x ∧ p x) ↔ j = i ∨ ∃ x, xs[j]? = some x ∧ p x := by
  by_cases hj : j = i
  · subst hj
    simp [get_set_self hi, hp]
  · simp [get_set_of_ne hj, hj]

theorem holds_set_lost (hi : xs[i]? = some a) (hp : ¬ p b) :
    (∃ x, (xs.set i b)[j]? = some x ∧ p x) ↔ j ≠ i ∧ ∃ x, xs[j]? = some x ∧ p x := by
  by_cases hj : j = i
  · subst hj
    simp [get_set_self hi, hp]
  · simp [get_set_of_ne hj, hj]

theorem holds_concat (hp : ¬ p a) :
    (∃ x, (xs ++ [a])[j]? = some x ∧ p x) ↔ ∃ x, xs[j]? = some x ∧ p x := by
  constructor
  · rintro ⟨x, hj, hx⟩
    obtain ⟨-, rfl⟩ | hj := get_concat hj
    · exact absurd hx hp
    · exact ⟨x, hj, hx⟩
  · rintro ⟨x, hj, hx⟩
    exact ⟨x, get_concat_of_some hj, hx⟩

end Holding

theorem sum_map_set (g : α → Nat) (h : xs[i]? = some a) :
    ((xs.set i b).map g).sum + g a = (xs.map g).sum + g b := by
  induction xs generalizing i with
  | nil => cases h
  | cons x xs ih =>
    cases i with
    | zero =>
      cases h
      simp only [List.set_cons_zero, List.map_cons, List.sum_cons]
      omega
    | succ i =>
      have hrest := ih (by simpa using h)
      simp only [List.set_cons_succ, List.map_cons, List.sum_cons]
      omega

end Slots
