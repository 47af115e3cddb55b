import Mathlib.Data.List.Sort
import Mathlib.Tactic.Common

/-!
# Pages in the order of a key

Rows are read in pages: those behind the last key seen, in order, as many as fit.
-/
namespace Paging

variable {α κ : Type} [LinearOrder κ] (key : α → κ)

/-- The row is behind what was seen. -/
def Behind (after : Option κ) (row : α) : Prop := ∀ seen ∈ after, seen < key row

instance (after : Option κ) (row : α) : Decidable (Behind key after row) :=
  inferInstanceAs (Decidable (∀ seen ∈ after, seen < key row))

def inOrder (rows : List α) : List α := rows.insertionSort fun a b => key a ≤ key b

/-- `WHERE key > after ORDER BY key LIMIT limit`. -/
def page (rows : List α) (after : Option κ) (limit : Nat) : List α :=
  (inOrder key (rows.filter fun row => Behind key after row)).take limit

section Order

variable {key} {rows : List α} {after : Option κ} {limit : Nat} {row last : α}

theorem mem_inOrder : row ∈ inOrder key rows ↔ row ∈ rows := List.mem_insertionSort _

theorem mem_of_page (h : row ∈ page key rows after limit) : row ∈ rows ∧ Behind key after row := by
  have hmem := mem_inOrder.mp (List.mem_of_mem_take h)
  rw [List.mem_filter, decide_eq_true_eq] at hmem
  exact hmem

theorem pairwise_inOrder (hunique : (rows.map key).Nodup) :
    (inOrder key rows).Pairwise fun a b => key a < key b := by
  have : Std.Total fun a b : α => key a ≤ key b := ⟨fun a b => le_total _ _⟩
  have : IsTrans α fun a b => key a ≤ key b := ⟨fun a b c => le_trans⟩
  have hsorted : (inOrder key rows).Pairwise fun a b => key a ≤ key b :=
    List.pairwise_insertionSort _ rows
  have hdistinct : (inOrder key rows).Pairwise fun a b => key a ≠ key b := by
    have hperm := (List.perm_insertionSort (fun a b => key a ≤ key b) rows).map key
    exact List.pairwise_map.mp (hperm.nodup_iff.mpr hunique)
  exact (hsorted.and hdistinct).imp fun ⟨hle, hne⟩ => lt_of_le_of_ne hle hne

/-- The order depends on which rows there are only. -/
theorem inOrder_eq {more : List α} (hunique : (rows.map key).Nodup)
    (hunique' : (more.map key).Nodup) (hsame : ∀ row, row ∈ rows ↔ row ∈ more) :
    inOrder key rows = inOrder key more := by
  have hperm : (inOrder key rows).Perm (inOrder key more) :=
    ((List.perm_insertionSort _ rows).trans ((List.perm_ext_iff_of_nodup
      (List.Nodup.of_map key hunique) (List.Nodup.of_map key hunique')).mpr hsame)).trans
        (List.perm_insertionSort _ more).symm
  exact hperm.eq_of_pairwise (fun a b _ _ hab hba => absurd hba (lt_asymm hab))
    (pairwise_inOrder hunique) (pairwise_inOrder hunique')

/-- A row behind what was seen is on the page, or behind the page. -/
theorem page_covers (hunique : (rows.map key).Nodup) (hrow : row ∈ rows)
    (hbehind : Behind key after row) : row ∈ page key rows after limit ∨
      Behind key ((page key rows after limit).getLast?.map key) row := by
  have hfilter : row ∈ inOrder key (rows.filter fun row => Behind key after row) :=
    mem_inOrder.mpr (List.mem_filter.mpr ⟨hrow, decide_eq_true hbehind⟩)
  have hpairs := pairwise_inOrder (hunique.sublist (List.filter_sublist.map key) :
    ((rows.filter fun row => Behind key after row).map key).Nodup)
  rw [← List.take_append_drop limit (inOrder key _)] at hfilter hpairs
  obtain hpage | hrest := List.mem_append.mp hfilter
  · exact .inl hpage
  · refine .inr fun seen hseen => ?_
    obtain ⟨last, hlast, rfl⟩ := Option.map_eq_some_iff.mp hseen
    exact (List.pairwise_append.mp hpairs).2.2 last (List.mem_of_getLast? hlast) row hrest

/-- An empty page is behind every row. -/
theorem page_nil (hlimit : 0 < limit) (h : page key rows after limit = []) (hrow : row ∈ rows) :
    ¬Behind key after row := by
  intro hbehind
  have hfilter : row ∈ inOrder key (rows.filter fun row => Behind key after row) :=
    mem_inOrder.mpr (List.mem_filter.mpr ⟨hrow, decide_eq_true hbehind⟩)
  obtain hzero | hnil := List.take_eq_nil_iff.mp h
  · omega
  · rw [hnil] at hfilter
    cases hfilter

/-- The rows that are left. -/
def left (key : α → κ) (rows : List α) (after : Option κ) : Nat :=
  rows.countP fun row => Behind key after row

/-- A page that is not empty leaves fewer rows. -/
theorem left_lt (hlast : last ∈ page key rows after limit) :
    left key rows (some (key last)) < left key rows after := by
  obtain ⟨hmem, hbehind⟩ := mem_of_page hlast
  obtain ⟨front, back, rfl⟩ := List.append_of_mem hmem
  have hweaker : ∀ row : α, Behind key (some (key last)) row → Behind key after row :=
    fun row h seen hseen => (hbehind seen hseen).trans (h (key last) rfl)
  have hnot : ¬Behind key (some (key last)) last := fun h => lt_irrefl _ (h (key last) rfl)
  have hfront := List.countP_mono_left (l := front)
    (p := fun row => decide (Behind key (some (key last)) row))
    (q := fun row => decide (Behind key after row))
    fun row _ h => decide_eq_true (hweaker row (of_decide_eq_true h))
  have hback := List.countP_mono_left (l := back)
    (p := fun row => decide (Behind key (some (key last)) row))
    (q := fun row => decide (Behind key after row))
    fun row _ h => decide_eq_true (hweaker row (of_decide_eq_true h))
  simp only [left, List.countP_append, List.countP_cons, decide_eq_true_eq, hnot, hbehind,
    if_true, if_false]
  omega

end Order

end Paging
