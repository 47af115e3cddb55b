import Mathlib.Algebra.Order.Ring.Int
import Mathlib.Algebra.BigOperators.Group.List.Basic
import Mathlib.Data.List.Nodup

/-!
# Keyed tables as lists of rows

A table is the list of its rows and a key is a function of a row. `lookup` is a
select by key, `upsert` an insert that replaces on conflict, `update` an update
of the rows with one key, and `tally` a weighted sum over all rows.
-/
namespace Table

variable {Row Key : Type} [DecidableEq Key] {key : Row → Key} {k : Key} {row r : Row}
  {rows : List Row}

def lookup (key : Row → Key) (k : Key) (rows : List Row) : Option Row :=
  rows.find? fun r => decide (key r = k)

/-- Replace the first row with the key of `row`, or append it. -/
def upsert (key : Row → Key) (row : Row) : List Row → List Row
  | [] => [row]
  | r :: rows => if key r = key row then row :: rows else r :: upsert key row rows

def update (key : Row → Key) (k : Key) (f : Row → Row) (rows : List Row) : List Row :=
  rows.map fun r => if key r = k then f r else r

/-- Sum of an integer weight over all rows. -/
def tally (weight : Row → Int) (rows : List Row) : Int := (rows.map weight).sum

@[simp] theorem lookup_nil : lookup key k [] = none := rfl

theorem lookup_cons (r : Row) (rows : List Row) :
    lookup key k (r :: rows) = if key r = k then some r else lookup key k rows := by
  by_cases h : key r = k <;> simp [lookup, h]

theorem lookup_mem (h : lookup key k rows = some r) : r ∈ rows :=
  List.mem_of_find?_eq_some h

theorem lookup_key (h : lookup key k rows = some r) : key r = k := by
  simpa using List.find?_some h

/-- No row has a key that the lookup does not find. -/
theorem lookup_eq_none : lookup key k rows = none ↔ ∀ r ∈ rows, key r ≠ k := by
  simp [lookup]

/-- With unique keys the lookup finds every row. -/
theorem lookup_of_mem (hnodup : (rows.map key).Nodup) (h : r ∈ rows) :
    lookup key (key r) rows = some r := by
  induction rows with
  | nil => simp at h
  | cons head rows ih =>
    simp only [List.map_cons, List.nodup_cons, List.mem_map, not_exists, not_and] at hnodup
    rw [lookup_cons]
    rcases List.mem_cons.mp h with rfl | h
    · simp
    · rw [if_neg (fun he => hnodup.1 r h he.symm)]
      exact ih hnodup.2 h

/-- A change of the other columns commutes with the lookup. -/
theorem lookup_map {f : Row → Row} (hf : ∀ r, key (f r) = key r) :
    lookup key k (rows.map f) = (lookup key k rows).map f := by
  induction rows with
  | nil => rfl
  | cons head rows ih =>
    rw [List.map_cons, lookup_cons, lookup_cons, hf, ih]
    by_cases h : key head = k <;> simp [h]

theorem lookup_append_of_some {more : List Row} (h : lookup key k rows = some r) :
    lookup key k (rows ++ more) = some r := by
  rw [lookup, List.find?_append, ← lookup, h, Option.some_or]

/-- An upsert is visible at its own key and at no other. -/
theorem lookup_upsert :
    lookup key k (upsert key row rows) = if key row = k then some row else lookup key k rows := by
  induction rows with
  | nil => simp [upsert, lookup_cons]
  | cons head rows ih =>
    by_cases h : key head = key row
    · by_cases hk : key row = k <;> simp [upsert, h, lookup_cons, hk]
    · by_cases hk : key row = k
      · simp [upsert, lookup_cons, ih, hk, show key head ≠ k from hk ▸ h]
      · simp [upsert, h, lookup_cons, ih, hk]

/-- Every row of the result is the new one or an old one with another key. -/
theorem mem_upsert (hnodup : (rows.map key).Nodup) :
    r ∈ upsert key row rows ↔ r = row ∨ r ∈ rows ∧ key r ≠ key row := by
  induction rows with
  | nil => simp [upsert]
  | cons head rows ih =>
    simp only [List.map_cons, List.nodup_cons, List.mem_map, not_exists, not_and] at hnodup
    by_cases h : key head = key row
    · have hfree : ∀ r ∈ rows, key r ≠ key row := fun r hr he => hnodup.1 r hr (he.trans h.symm)
      simp only [upsert, h, if_true, List.mem_cons]
      constructor
      · rintro (rfl | hr)
        · exact .inl rfl
        · exact .inr ⟨.inr hr, hfree r hr⟩
      · rintro (rfl | ⟨rfl | hr, hne⟩)
        · exact .inl rfl
        · exact absurd h hne
        · exact .inr hr
    · simp only [upsert, h, if_false, List.mem_cons, ih hnodup.2]
      constructor
      · rintro (rfl | rfl | ⟨hr, hne⟩)
        · exact .inr ⟨.inl rfl, h⟩
        · exact .inl rfl
        · exact .inr ⟨.inr hr, hne⟩
      · rintro (rfl | ⟨rfl | hr, hne⟩)
        · exact .inr (.inl rfl)
        · exact .inl rfl
        · exact .inr (.inr ⟨hr, hne⟩)

theorem mem_of_mem_upsert (h : r ∈ upsert key row rows) : r = row ∨ r ∈ rows := by
  induction rows with
  | nil => exact .inl (List.mem_singleton.mp h)
  | cons head rows ih =>
    simp only [upsert] at h
    split at h
    · rcases List.mem_cons.mp h with rfl | h
      · exact .inl rfl
      · exact .inr (List.mem_cons_of_mem _ h)
    · rcases List.mem_cons.mp h with rfl | h
      · exact .inr List.mem_cons_self
      · exact (ih h).imp id (List.mem_cons_of_mem _)

theorem upsert_keys_nodup (hnodup : (rows.map key).Nodup) :
    ((upsert key row rows).map key).Nodup := by
  induction rows with
  | nil => simp [upsert]
  | cons head rows ih =>
    simp only [List.map_cons, List.nodup_cons] at hnodup
    by_cases h : key head = key row
    · simp only [upsert, h, if_true, List.map_cons, List.nodup_cons]
      rw [← h]
      exact hnodup
    · simp only [upsert, h, if_false, List.map_cons, List.nodup_cons]
      refine ⟨?_, ih hnodup.2⟩
      intro hmem
      obtain ⟨r, hr, he⟩ := List.mem_map.mp hmem
      rcases (mem_upsert hnodup.2).mp hr with rfl | ⟨hr, -⟩
      · exact h he.symm
      · exact hnodup.1 (List.mem_map.mpr ⟨r, hr, he⟩)

section Update

variable {f : Row → Row}

theorem update_keys (hf : ∀ r, key r = k → key (f r) = k) :
    (update key k f rows).map key = rows.map key := by
  unfold update
  rw [List.map_map]
  apply List.map_congr_left
  intro r _
  simp only [Function.comp]
  split
  · rename_i h
    rw [hf r h, h]
  · rfl

/-- A column that the change leaves alone. -/
theorem map_update {Value : Type} {column : Row → Value} (hf : ∀ r, column (f r) = column r) :
    (update key k f rows).map column = rows.map column := by
  rw [update, List.map_map]
  apply List.map_congr_left
  intro r _
  simp only [Function.comp]
  split
  · exact hf r
  · rfl

theorem mem_update :
    r ∈ update key k f rows ↔ ∃ old ∈ rows, r = if key old = k then f old else old := by
  simp only [update, List.mem_map]
  constructor <;> rintro ⟨old, hold, rfl⟩ <;> exact ⟨old, hold, rfl⟩

theorem lookup_update_self (hf : ∀ r, key r = k → key (f r) = k)
    (h : lookup key k rows = some r) : lookup key k (update key k f rows) = some (f r) := by
  induction rows with
  | nil => simp at h
  | cons head rows ih =>
    simp only [update, List.map_cons] at ih ⊢
    rw [lookup_cons] at h ⊢
    by_cases hk : key head = k
    · simp only [hk, if_true, Option.some.injEq] at h
      subst h
      simp [hk, hf head hk]
    · simp only [hk, if_false] at h ⊢
      exact ih h

theorem lookup_update_other {j : Key} (hf : ∀ r, key r = k → key (f r) = k) (h : j ≠ k) :
    lookup key j (update key k f rows) = lookup key j rows := by
  induction rows with
  | nil => rfl
  | cons head rows ih =>
    simp only [update, List.map_cons] at ih ⊢
    rw [lookup_cons, lookup_cons, ih]
    by_cases hk : key head = k
    · simp [hk, hf head hk, Ne.symm h]
    · simp [hk]

end Update

@[simp] theorem tally_nil (weight : Row → Int) : tally weight [] = 0 := rfl

@[simp] theorem tally_cons (weight : Row → Int) (r : Row) (rows : List Row) :
    tally weight (r :: rows) = weight r + tally weight rows := by simp [tally]

@[simp] theorem tally_append (weight : Row → Int) (xs ys : List Row) :
    tally weight (xs ++ ys) = tally weight xs + tally weight ys := by simp [tally]

theorem tally_congr {weight weight' : Row → Int} (h : ∀ r ∈ rows, weight r = weight' r) :
    tally weight rows = tally weight' rows := by
  unfold tally
  rw [List.map_congr_left h]

theorem tally_le {weight weight' : Row → Int} (h : ∀ r ∈ rows, weight r ≤ weight' r) :
    tally weight rows ≤ tally weight' rows := by
  induction rows with
  | nil => simp
  | cons head rows ih =>
    have hhead := h head (by simp)
    have hrest := ih (fun r hr => h r (by simp [hr]))
    simp only [tally_cons]
    omega

theorem tally_map (weight : Row → Int) (f : Row → Row) (rows : List Row) :
    tally weight (rows.map f) = tally (fun r => weight (f r)) rows := by
  simp [tally, Function.comp_def]

/-- Summing a column over the selected rows is a tally that weighs the others zero. -/
theorem sum_filter_map (p : Row → Bool) (column : Row → Int) (rows : List Row) :
    ((rows.filter p).map column).sum = tally (fun r => if p r then column r else 0) rows := by
  induction rows with
  | nil => rfl
  | cons head rows ih => by_cases h : p head <;> simp [h, ih]

/-- Updating the one row with key `k` moves the tally by the change of its weight. -/
theorem tally_update (weight : Row → Int) {f : Row → Row} (hnodup : (rows.map key).Nodup)
    (h : lookup key k rows = some r) :
    tally weight (update key k f rows) = tally weight rows - weight r + weight (f r) := by
  induction rows with
  | nil => simp at h
  | cons head rows ih =>
    simp only [List.map_cons, List.nodup_cons, List.mem_map, not_exists, not_and] at hnodup
    rw [lookup_cons] at h
    simp only [update, List.map_cons, tally_cons] at ih ⊢
    by_cases hk : key head = k
    · simp only [hk, if_true, Option.some.injEq] at h ⊢
      subst h
      have hrest : rows.map (fun r => if key r = k then f r else r) = rows := by
        conv_rhs => rw [← List.map_id rows]
        apply List.map_congr_left
        intro r hr
        simp [show key r ≠ k from fun he => hnodup.1 r hr (he.trans hk.symm)]
      rw [hrest]
      omega
    · simp only [hk, if_false] at h ⊢
      rw [ih hnodup.2 h]
      omega

/-- An upsert replaces the weight of the row it finds. -/
theorem sum_upsert (weight : Row → Nat) :
    ((upsert key row rows).map weight).sum + ((lookup key (key row) rows).map weight).getD 0 =
      (rows.map weight).sum + weight row := by
  induction rows with
  | nil => simp [upsert]
  | cons head rows ih =>
    rw [upsert, lookup_cons]
    split
    · simp only [List.map_cons, List.sum_cons, Option.map_some, Option.getD_some]
      omega
    · simp only [List.map_cons, List.sum_cons]
      omega

/-- With unique keys a removal takes the weight of the row it finds. -/
theorem sum_remove (weight : Row → Nat) (hnodup : (rows.map key).Nodup) :
    ((rows.filter fun r => decide (key r ≠ k)).map weight).sum +
      ((lookup key k rows).map weight).getD 0 = (rows.map weight).sum := by
  induction rows with
  | nil => simp
  | cons head rows ih =>
    simp only [List.map_cons, List.nodup_cons, List.mem_map, not_exists, not_and] at hnodup
    have hrest := ih hnodup.2
    rw [lookup_cons]
    by_cases hkey : key head = k
    · have hnone : lookup key k rows = none := by
        rw [lookup_eq_none]
        intro r hr heq
        exact hnodup.1 r hr (heq.trans hkey.symm)
      rw [hnone, Option.map_none, Option.getD_none] at hrest
      simp only [List.filter_cons, hkey, ne_eq, not_true_eq_false, decide_false, Bool.false_eq_true,
        if_false, if_true, Option.map_some, Option.getD_some, List.map_cons, List.sum_cons] at hrest ⊢
      omega
    · simp only [List.filter_cons, hkey, ne_eq, not_false_eq_true, decide_true, if_true, if_false,
        List.map_cons, List.sum_cons] at hrest ⊢
      omega

end Table
