import Mathlib.Data.List.Perm.Basic
import IDoris.Library.Table

/-!
# Finite maps whose iteration order is part of the value

A map is the list of its entries with the proof that no key occurs twice. The
order of the entries is the order an iteration sees; `exchange` lets neighbours
trade places, so a run with exchanges covers every iteration order.
-/
namespace Keyed

/-- Exchange the entries at positions `n` and `n + 1`. -/
def swapAt {α : Type} : Nat → List α → List α
  | 0, a :: b :: rest => b :: a :: rest
  | n + 1, a :: rest => a :: swapAt n rest
  | _, rest => rest

theorem swapAt_perm {α : Type} (n : Nat) (xs : List α) : (swapAt n xs).Perm xs := by
  induction n, xs using swapAt.induct with
  | case1 a b rest => exact .swap a b rest
  | case2 n a rest ih => exact .cons a ih
  | case3 n rest h h' =>
    rw [swapAt]
    · exact h
    · exact h'

structure Map (K V : Type) [DecidableEq K] where
  entries : List (K × V)
  nodup : (entries.map Prod.fst).Nodup

namespace Map

variable {K V : Type} [DecidableEq K] {m : Map K V} {k j : K} {v w : V} {f : V → V} {n : Nat}

def empty : Map K V := ⟨[], List.nodup_nil⟩

def get (k : K) (m : Map K V) : Option V := (Table.lookup Prod.fst k m.entries).map Prod.snd

def values (m : Map K V) : List V := m.entries.map Prod.snd

def insert (k : K) (v : V) (m : Map K V) : Map K V :=
  ⟨Table.upsert Prod.fst (k, v) m.entries, Table.upsert_keys_nodup m.nodup⟩

def onValue (f : V → V) (e : K × V) : K × V := (e.1, f e.2)

def modify (k : K) (f : V → V) (m : Map K V) : Map K V :=
  ⟨Table.update Prod.fst k (onValue f) m.entries, by
    have hkeys : (Table.update Prod.fst k (onValue f) m.entries).map Prod.fst =
        m.entries.map Prod.fst := Table.update_keys fun _ h => h
    exact hkeys ▸ m.nodup⟩

def remove (k : K) (m : Map K V) : Map K V :=
  ⟨m.entries.filter fun e => decide (e.1 ≠ k),
    m.nodup.sublist (List.filter_sublist.map Prod.fst)⟩

/-- The sum of a weight over all values. -/
def total (weight : V → Nat) (m : Map K V) : Nat := (m.values.map weight).sum

def exchange (n : Nat) (m : Map K V) : Map K V :=
  ⟨swapAt n m.entries, ((swapAt_perm n m.entries).map Prod.fst).nodup_iff.mpr m.nodup⟩

@[simp] theorem get_empty : (empty : Map K V).get k = none := rfl

theorem mem_entries : (k, v) ∈ m.entries ↔ m.get k = some v := by
  unfold get
  constructor
  · intro h
    have hfound := Table.lookup_of_mem m.nodup h
    simp only at hfound
    simp [hfound]
  · intro h
    obtain ⟨⟨k', v'⟩, hfound, rfl⟩ := Option.map_eq_some_iff.mp h
    have hkey := Table.lookup_key hfound
    simp only at hkey
    subst hkey
    exact Table.lookup_mem hfound

theorem get_insert : (m.insert k v).get j = if k = j then some v else m.get j := by
  simp only [get, insert, Table.lookup_upsert]
  split <;> rfl

@[simp] theorem get_insert_self : (m.insert k v).get k = some v := by simp [get_insert]

theorem get_modify_of_ne (h : k ≠ j) : (m.modify k f).get j = m.get j := by
  have hsame : Table.lookup Prod.fst j (Table.update Prod.fst k (onValue f) m.entries) =
      Table.lookup Prod.fst j m.entries := Table.lookup_update_other (fun _ h => h) (Ne.symm h)
  simp only [get, modify, hsame]

theorem get_modify_of_some (h : m.get k = some v) : (m.modify k f).get k = some (f v) := by
  obtain ⟨row, hrow, rfl⟩ := Option.map_eq_some_iff.mp h
  have hself : Table.lookup Prod.fst k (Table.update Prod.fst k (onValue f) m.entries) =
      some (onValue f row) := Table.lookup_update_self (fun _ h => h) hrow
  simp only [get, modify, hself, Option.map_some, onValue]

theorem get_modify_of_none (h : m.get k = none) : (m.modify k f).get k = none := by
  have hnone : Table.lookup Prod.fst k m.entries = none := Option.map_eq_none_iff.mp h
  have hstill : Table.lookup Prod.fst k (Table.update Prod.fst k (onValue f) m.entries) = none := by
    rw [Table.lookup_eq_none] at hnone ⊢
    intro r hr
    obtain ⟨old, hold, rfl⟩ := Table.mem_update.mp hr
    have hne := hnone old hold
    simpa only [hne, if_false] using hne
  simp only [get, modify, hstill, Option.map_none]

theorem get_modify :
    (m.modify k f).get j = if k = j then (m.get j).map f else m.get j := by
  by_cases h : k = j
  · subst h
    rw [if_pos rfl]
    cases hv : m.get k with
    | none => exact get_modify_of_none hv
    | some v => exact get_modify_of_some hv
  · rw [if_neg h]
    exact get_modify_of_ne h

@[simp] theorem get_exchange : (m.exchange n).get j = m.get j := by
  ext v
  rw [← mem_entries, ← mem_entries]
  exact (swapAt_perm n m.entries).mem_iff

theorem get_remove_of_ne (h : j ≠ k) : (m.remove k).get j = m.get j := by
  ext v
  rw [← mem_entries, ← mem_entries]
  simp only [remove, List.mem_filter, decide_eq_true_eq]
  exact ⟨fun hv => hv.1, fun hv => ⟨hv, h⟩⟩

@[simp] theorem get_remove_self : (m.remove k).get k = none := by
  cases h : (m.remove k).get k with
  | none => rfl
  | some v =>
    rw [← mem_entries] at h
    simp [remove] at h

theorem mem_values : v ∈ m.values ↔ ∃ k, m.get k = some v := by
  simp only [values, List.mem_map, Prod.exists, exists_eq_right, mem_entries]

/-- A new key comes last. -/
theorem values_insert_of_none (h : m.get k = none) : (m.insert k v).values = m.values ++ [v] := by
  have hnone := Table.lookup_eq_none.mp (Option.map_eq_none_iff.mp h)
  have hupsert : ∀ rows : List (K × V), (∀ r ∈ rows, r.1 ≠ k) →
      Table.upsert Prod.fst (k, v) rows = rows ++ [(k, v)] := by
    intro rows hrows
    induction rows with
    | nil => rfl
    | cons r rows ih =>
      simp only [Table.upsert, hrows r List.mem_cons_self, if_false, List.cons_append,
        ih fun r hr => hrows r (List.mem_cons_of_mem _ hr)]
  simp only [values, insert, hupsert m.entries hnone, List.map_append, List.map_cons, List.map_nil]

theorem values_exchange : (m.exchange n).values.Perm m.values :=
  (swapAt_perm n m.entries).map Prod.snd

theorem values_remove : (m.remove k).values.Sublist m.values :=
  List.filter_sublist.map Prod.snd

theorem mem_values_remove (h : m.get k = some v) (hv : m.values.Nodup) :
    w ∈ (m.remove k).values ↔ w ∈ m.values ∧ w ≠ v := by
  rw [mem_values, mem_values]
  constructor
  · rintro ⟨j, hj⟩
    have hne : j ≠ k := by
      rintro rfl
      rw [get_remove_self] at hj
      cases hj
    rw [get_remove_of_ne hne] at hj
    refine ⟨⟨j, hj⟩, ?_⟩
    rintro rfl
    have hsame := List.inj_on_of_nodup_map hv (mem_entries.mpr hj) (mem_entries.mpr h) rfl
    exact hne (Prod.mk.inj hsame).1
  · rintro ⟨⟨j, hj⟩, hne⟩
    refine ⟨j, ?_⟩
    rw [get_remove_of_ne]
    · exact hj
    · rintro rfl
      rw [h] at hj
      exact hne (Option.some.inj hj).symm
theorem total_eq (weight : V → Nat) :
    m.total weight = (m.entries.map fun e => weight e.2).sum := by
  simp only [total, values, List.map_map, Function.comp_def]

theorem get_weight (weight : V → Nat) :
    ((Table.lookup Prod.fst k m.entries).map fun e => weight e.2).getD 0 =
      ((m.get k).map weight).getD 0 := by
  simp only [get, Option.map_map, Function.comp_def]

@[simp] theorem total_empty (weight : V → Nat) : (empty : Map K V).total weight = 0 := rfl

theorem total_insert (weight : V → Nat) :
    (m.insert k v).total weight + ((m.get k).map weight).getD 0 = m.total weight + weight v := by
  rw [total_eq, total_eq, ← get_weight]
  exact Table.sum_upsert fun e : K × V => weight e.2

theorem total_remove (weight : V → Nat) :
    (m.remove k).total weight + ((m.get k).map weight).getD 0 = m.total weight := by
  have h := Table.sum_remove (k := k) (fun e : K × V => weight e.2) m.nodup
  rw [total_eq, total_eq, ← get_weight]
  exact h

end Map

end Keyed
