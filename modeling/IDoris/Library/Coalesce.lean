import Mathlib.Data.List.Sort
import Mathlib.Tactic.Common

/-!
# Merging neighbours

One pass that merges each element into the one kept before it, when the two are the same.
-/
namespace Coalesce

variable {α : Type}

def into (same : α → α → Bool) (merge : α → α → α) : α → List α → List α
  | kept, [] => [kept]
  | kept, x :: xs =>
    if same kept x then into same merge (merge kept x) xs else kept :: into same merge x xs

def coalesce (same : α → α → Bool) (merge : α → α → α) : List α → List α
  | [] => []
  | x :: xs => into same merge x xs

variable {same : α → α → Bool} {merge : α → α → α} {x y kept : α} {xs : List α}

/-- What every element leaves behind, when a merge leaves it behind too. -/
theorem exists_mem_into {P : α → α → Prop} (hrefl : ∀ x, P x x)
    (htrans : ∀ {x y z}, P x y → P y z → P x z)
    (hkept : ∀ {x y}, same x y = true → P x (merge x y))
    (hmerged : ∀ {x y}, same x y = true → P y (merge x y)) (hy : y ∈ kept :: xs) :
    ∃ z ∈ into same merge kept xs, P y z := by
  induction xs generalizing kept y with
  | nil =>
    rw [List.mem_singleton] at hy
    exact ⟨kept, List.mem_singleton.mpr rfl, hy ▸ hrefl _⟩
  | cons x xs ih =>
    simp only [into]
    split
    · next hsame =>
      rw [List.mem_cons, List.mem_cons] at hy
      obtain rfl | rfl | hy := hy
      · obtain ⟨z, hz, hP⟩ := ih List.mem_cons_self
        exact ⟨z, hz, htrans (hkept hsame) hP⟩
      · obtain ⟨z, hz, hP⟩ := ih List.mem_cons_self
        exact ⟨z, hz, htrans (hmerged hsame) hP⟩
      · exact ih (List.mem_cons_of_mem _ hy)
    · obtain rfl | hy := List.mem_cons.mp hy
      · exact ⟨y, List.mem_cons_self, hrefl y⟩
      · obtain ⟨z, hz, hP⟩ := ih hy
        exact ⟨z, List.mem_cons_of_mem _ hz, hP⟩

theorem exists_mem_coalesce {P : α → α → Prop} (hrefl : ∀ x, P x x)
    (htrans : ∀ {x y z}, P x y → P y z → P x z)
    (hkept : ∀ {x y}, same x y = true → P x (merge x y))
    (hmerged : ∀ {x y}, same x y = true → P y (merge x y)) (hy : y ∈ xs) :
    ∃ z ∈ coalesce same merge xs, P y z := by
  cases xs with
  | nil => cases hy
  | cons x xs => exact exists_mem_into hrefl htrans hkept hmerged hy

/-- What holds of every element and survives a merge holds of every result. -/
theorem forall_into {P : α → Prop}
    (hmerge : ∀ {x y}, same x y = true → P x → P y → P (merge x y))
    (h : ∀ y ∈ kept :: xs, P y) : ∀ z ∈ into same merge kept xs, P z := by
  induction xs generalizing kept with
  | nil =>
    intro z hz
    exact h z hz
  | cons x xs ih =>
    have hfirst := h kept List.mem_cons_self
    have hsecond := h x (List.mem_cons_of_mem _ List.mem_cons_self)
    have hrest := fun y hy => h y (List.mem_cons_of_mem _ (List.mem_cons_of_mem _ hy))
    simp only [into]
    split
    · next hsame =>
      refine ih fun y hy => ?_
      obtain rfl | hy := List.mem_cons.mp hy
      · exact hmerge hsame hfirst hsecond
      · exact hrest y hy
    · intro z hz
      obtain rfl | hz := List.mem_cons.mp hz
      · exact hfirst
      · refine ih (fun y hy => ?_) z hz
        exact h y (List.mem_cons_of_mem _ hy)

theorem forall_coalesce {P : α → Prop}
    (hmerge : ∀ {x y}, same x y = true → P x → P y → P (merge x y))
    (h : ∀ y ∈ xs, P y) : ∀ z ∈ coalesce same merge xs, P z := by
  cases xs with
  | nil => simp [coalesce]
  | cons x xs => exact forall_into hmerge h

/-- In a sorted list, what is kept comes strictly before what is kept next. -/
theorem pairwise_into {le lt : α → α → Prop}
    (hlt : ∀ {x y}, le x y → same x y = false → lt x y)
    (hleft : ∀ {x y z}, same x y = true → le x z → le (merge x y) z)
    (htrans : ∀ {x y z}, lt x y → le y z → lt x z)
    (hmerge : ∀ {x y z}, same y z = true → lt x y → lt x (merge y z))
    (h : (kept :: xs).Pairwise le) : (into same merge kept xs).Pairwise lt := by
  induction xs generalizing kept with
  | nil => simp [into]
  | cons x xs ih =>
    rw [List.pairwise_cons, List.pairwise_cons] at h
    obtain ⟨hkept, hx, hrest⟩ := h
    simp only [into]
    split
    · next hsame =>
      refine ih (List.pairwise_cons.mpr ⟨fun y hy => ?_, hrest⟩)
      exact hleft hsame (hkept y (List.mem_cons_of_mem _ hy))
    · next hsame =>
      refine List.pairwise_cons.mpr ⟨?_, ih (List.pairwise_cons.mpr ⟨hx, hrest⟩)⟩
      have hfirst : lt kept x := hlt (hkept x List.mem_cons_self) (by simpa using hsame)
      refine forall_into (P := lt kept) (fun hsame hx _ => hmerge hsame hx) fun y hy => ?_
      obtain rfl | hy := List.mem_cons.mp hy
      · exact hfirst
      · exact htrans hfirst (hx y hy)

theorem pairwise_coalesce {le lt : α → α → Prop}
    (hlt : ∀ {x y}, le x y → same x y = false → lt x y)
    (hleft : ∀ {x y z}, same x y = true → le x z → le (merge x y) z)
    (htrans : ∀ {x y z}, lt x y → le y z → lt x z)
    (hmerge : ∀ {x y z}, same y z = true → lt x y → lt x (merge y z))
    (h : xs.Pairwise le) : (coalesce same merge xs).Pairwise lt := by
  cases xs with
  | nil => exact .nil
  | cons x xs => exact pairwise_into hlt hleft htrans hmerge h

end Coalesce
