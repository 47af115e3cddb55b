import Mathlib.Data.Prod.Lex
import Mathlib.Tactic.Common

/-!
# The first minimum of a list under a comparison function

The comparison is any function into `Ordering`; what it is called with decides which
laws it has to satisfy.
-/
namespace Selection

variable {α : Type} {cmp : α → α → Ordering} {a b : α} {items : List α}

/-- The smaller of two; the one seen first wins a tie. -/
def keep (cmp : α → α → Ordering) (a b : α) : α := if cmp a b = .gt then b else a

/-- `Iterator::min_by`: of several equal minima the first one. -/
def minBy (cmp : α → α → Ordering) : List α → Option α
  | [] => none
  | a :: rest => some (rest.foldl (keep cmp) a)

@[simp] theorem minBy_nil : minBy cmp [] = none := rfl

@[simp] theorem minBy_singleton : minBy cmp [a] = some a := rfl

theorem keep_eq (cmp : α → α → Ordering) (a b : α) : keep cmp a b = a ∨ keep cmp a b = b := by
  unfold keep
  by_cases h : cmp a b = .gt
  · exact .inr (if_pos h)
  · exact .inl (if_neg h)

theorem foldl_keep_mem (cmp : α → α → Ordering) (a : α) (items : List α) :
    items.foldl (keep cmp) a ∈ a :: items := by
  induction items generalizing a with
  | nil => exact List.mem_singleton.mpr rfl
  | cons b rest ih =>
    have hstep := ih (keep cmp a b)
    simp only [List.foldl_cons, List.mem_cons] at hstep ⊢
    obtain hhead | htail := hstep
    · have hkeep := keep_eq cmp a b
      rw [hhead]
      tauto
    · exact .inr (.inr htail)

theorem minBy_mem (h : minBy cmp items = some a) : a ∈ items := by
  cases items with
  | nil => cases h
  | cons b rest =>
    simp only [minBy, Option.some.injEq] at h
    exact h ▸ foldl_keep_mem cmp b rest

theorem minBy_isSome (h : items ≠ []) : ∃ a, minBy cmp items = some a := by
  cases items with
  | nil => exact absurd rfl h
  | cons b rest => exact ⟨_, rfl⟩

/-- The comparison looks at the rank first: whatever else it compares breaks ties only. -/
structure Refines {κ : Type} [LE κ] (cmp : α → α → Ordering) (rank : α → κ) : Prop where
  greater : ∀ a b, cmp a b = .gt → rank b ≤ rank a
  rest : ∀ a b, cmp a b ≠ .gt → rank a ≤ rank b

section Rank

variable {κ : Type} [PartialOrder κ] {rank : α → κ} {cmp' : α → α → Ordering}

theorem Refines.keep_le (h : Refines cmp rank) (a b : α) :
    rank (keep cmp a b) ≤ rank a ∧ rank (keep cmp a b) ≤ rank b := by
  unfold keep
  by_cases hgt : cmp a b = .gt
  · rw [if_pos hgt]
    exact ⟨h.greater a b hgt, le_rfl⟩
  · rw [if_neg hgt]
    exact ⟨le_rfl, h.rest a b hgt⟩

theorem Refines.foldl_keep_le (h : Refines cmp rank) (items : List α) :
    ∀ a, ∀ x ∈ a :: items, rank (items.foldl (keep cmp) a) ≤ rank x := by
  induction items with
  | nil =>
    intro a x hx
    rw [List.mem_singleton.mp hx]
    exact le_rfl
  | cons b rest ih =>
    intro a x hx
    have hkept := ih (keep cmp a b) (keep cmp a b) List.mem_cons_self
    obtain ⟨hleft, hright⟩ := h.keep_le a b
    rw [List.mem_cons, List.mem_cons] at hx
    obtain rfl | rfl | hx := hx
    · exact hkept.trans hleft
    · exact hkept.trans hright
    · exact ih _ x (List.mem_cons_of_mem _ hx)

/-- The first minimum has the least rank. -/
theorem Refines.minBy_le (h : Refines cmp rank) (hmin : minBy cmp items = some a) :
    ∀ x ∈ items, rank a ≤ rank x := by
  cases items with
  | nil => cases hmin
  | cons b rest =>
    simp only [minBy, Option.some.injEq] at hmin
    exact hmin ▸ h.foldl_keep_le rest b

/-- Two ways to break the ties pick items of one rank. -/
theorem Refines.minBy_rank (h : Refines cmp rank) (h' : Refines cmp' rank)
    (ha : minBy cmp items = some a) (hb : minBy cmp' items = some b) : rank a = rank b :=
  le_antisymm (h.minBy_le ha b (minBy_mem hb)) (h'.minBy_le hb a (minBy_mem ha))

/-- No two of the items have the same rank. -/
def Separates (rank : α → κ) (items : List α) : Prop :=
  ∀ a ∈ items, ∀ b ∈ items, rank a = rank b → a = b

omit [PartialOrder κ] in
theorem Separates.subset {items' : List α} (h : Separates rank items) (hsub : items' ⊆ items) :
    Separates rank items' :=
  fun a ha b hb => h a (hsub ha) b (hsub hb)

/-- Between items of different ranks the first minimum is the least one, wherever it stands. -/
theorem Refines.minBy_iff (h : Refines cmp rank) (hsep : Separates rank items) :
    minBy cmp items = some a ↔ a ∈ items ∧ ∀ x ∈ items, rank a ≤ rank x := by
  constructor
  · intro hmin
    exact ⟨minBy_mem hmin, h.minBy_le hmin⟩
  · rintro ⟨hmem, hle⟩
    obtain ⟨b, hmin⟩ : ∃ b, minBy cmp items = some b := minBy_isSome (List.ne_nil_of_mem hmem)
    have hb := minBy_mem hmin
    have hsame : rank a = rank b := le_antisymm (hle b hb) (h.minBy_le hmin a hmem)
    rw [hmin, hsep a hmem b hb hsame]

theorem Refines.minBy_perm {items' : List α} (h : Refines cmp rank) (hsep : Separates rank items)
    (hperm : items.Perm items') : minBy cmp items = minBy cmp items' := by
  have hsep' : Separates rank items' := hsep.subset hperm.symm.subset
  ext a
  rw [h.minBy_iff hsep, h.minBy_iff hsep', hperm.mem_iff]
  simp only [hperm.mem_iff]

/-- The choice stays when losers are taken away. -/
theorem Refines.minBy_of_subset {items' : List α} (h : Refines cmp rank)
    (hsep : Separates rank items) (hsub : items' ⊆ items) (ha : a ∈ items')
    (hmin : minBy cmp items = some a) : minBy cmp items' = some a :=
  (h.minBy_iff (hsep.subset hsub)).mpr ⟨ha, fun x hx => h.minBy_le hmin x (hsub hx)⟩

end Rank

/-- The comparison of one key. -/
theorem refines_compare {κ : Type} [LinearOrder κ] (f : α → κ) :
    Refines (fun a b => compare (f a) (f b)) f where
  greater _ _ h := (compare_gt_iff_gt.mp h).le
  rest _ _ h := not_lt.mp fun hlt => h (compare_gt_iff_gt.mpr hlt)

/-- A key in front of a comparison. -/
theorem Refines.lex {κ μ : Type} [LinearOrder κ] [PartialOrder μ] {f : α → κ} {rank : α → μ}
    {front : α → α → Ordering} (h : Refines cmp rank)
    (hfront : ∀ a b, front a b = compare (f a) (f b)) :
    Refines (fun a b => (front a b).then (cmp a b)) fun a => toLex (f a, rank a) := by
  constructor
  · intro a b hgt
    simp only [hfront] at hgt
    rw [Prod.Lex.toLex_le_toLex]
    obtain hlt | heq | hlt := lt_trichotomy (f a) (f b)
    · simp [compare_lt_iff_lt.mpr hlt] at hgt
    · simp only [compare_eq_iff_eq.mpr heq, Ordering.then] at hgt
      exact .inr ⟨heq.symm, h.greater a b hgt⟩
    · exact .inl hlt
  · intro a b hgt
    simp only [hfront] at hgt
    rw [Prod.Lex.toLex_le_toLex]
    obtain hlt | heq | hlt := lt_trichotomy (f a) (f b)
    · exact .inl hlt
    · simp only [compare_eq_iff_eq.mpr heq, Ordering.then] at hgt
      exact .inr ⟨heq, h.rest a b hgt⟩
    · simp [compare_gt_iff_gt.mpr hlt] at hgt

/-- Whatever is compared after one key breaks its ties. -/
theorem refines_then {κ : Type} [LinearOrder κ] (f : α → κ) (rest : α → α → Ordering) :
    Refines (fun a b => (compare (f a) (f b)).then (rest a b)) f := by
  constructor
  · intro a b hgt
    obtain hlt | heq | hlt := lt_trichotomy (f a) (f b)
    · simp [compare_lt_iff_lt.mpr hlt] at hgt
    · exact heq.ge
    · exact hlt.le
  · intro a b hgt
    obtain hlt | heq | hlt := lt_trichotomy (f a) (f b)
    · exact hlt.le
    · exact heq.le
    · simp [compare_gt_iff_gt.mpr hlt] at hgt

/-- A lexicographic comparison looks at its first two parts first. -/
theorem refines_lex {κ μ : Type} [LinearOrder κ] [LinearOrder μ] (f : α → κ) (g : α → μ)
    (rest : α → α → Ordering) :
    Refines (fun a b => (compare (f a) (f b)).then ((compare (g a) (g b)).then (rest a b)))
      fun a => toLex (f a, g a) :=
  (refines_then g rest).lex fun _ _ => rfl

end Selection
