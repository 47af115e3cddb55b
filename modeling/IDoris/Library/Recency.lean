import Mathlib.Data.List.Basic
import Mathlib.Data.List.Infix
import Mathlib.Data.List.Nodup
import Mathlib.Tactic.Common

/-!
# Bounded tables in order of last write

A write puts its entry at the end of the table, in place of the older entry of its key, and a
limit then drops entries from the front until it is satisfied.
-/
namespace Recency

variable {κ α : Type}

section Longest

variable {p q : List α → Bool} {l l' s t : List α} {a : α}

/-- Drop from the front until the rest satisfies the limit. -/
def longest (p : List α → Bool) : List α → List α
  | [] => []
  | a :: l => if p (a :: l) then a :: l else longest p l

/-- What satisfies the limit satisfies it without its front. -/
def SuffixClosed (p : List α → Bool) : Prop := ∀ s l, s <:+ l → p l = true → p s = true

@[simp] theorem longest_nil : longest p [] = [] := rfl

theorem longest_suffix (p : List α → Bool) (l : List α) : longest p l <:+ l := by
  induction l with
  | nil => exact List.suffix_rfl
  | cons a l ih =>
    unfold longest
    split
    · exact List.suffix_rfl
    · exact ih.trans (List.suffix_cons a l)

theorem longest_limit (hnil : p [] = true) : p (longest p l) = true := by
  induction l with
  | nil => exact hnil
  | cons a l ih =>
    unfold longest
    split
    · assumption
    · exact ih

/-- No longer suffix satisfies the limit. -/
theorem suffix_longest (hsuffix : s <:+ l) (h : p s = true) : s <:+ longest p l := by
  induction l with
  | nil => exact hsuffix
  | cons a l ih =>
    unfold longest
    split
    · exact hsuffix
    · rename_i hrefused
      obtain rfl | hrest := List.suffix_cons_iff.mp hsuffix
      · exact absurd h hrefused
      · exact ih hrest

theorem longest_congr (h : ∀ s, s <:+ l → p s = q s) : longest p l = longest q l := by
  induction l with
  | nil => rfl
  | cons a l ih =>
    rw [longest, longest, h _ List.suffix_rfl, ih fun s hs => h s (hs.trans (List.suffix_cons a l))]

/-- Two limits one after the other, the first of which is kept by suffixes. -/
theorem longest_longest (hclosed : SuffixClosed p) (l : List α) :
    longest q (longest p l) = longest (fun s => p s && q s) l := by
  induction l with
  | nil => rfl
  | cons a l ih =>
    by_cases h : p (a :: l) = true
    · have hsame : ∀ s, s <:+ a :: l → q s = (p s && q s) := by
        intro s hs
        rw [hclosed s _ hs h, Bool.true_and]
      rw [longest, if_pos h, longest_congr hsame]
    · simp [longest, h, ih]

/-- Dropping entries from the front is a limit when what follows a good entry is good. -/
theorem dropWhile_eq_longest {good : α → Bool} (h : l.Pairwise fun a b => good a → good b) :
    l.dropWhile (fun a => !good a) = longest (fun s => s.all good) l := by
  induction l with
  | nil => rfl
  | cons a l ih =>
    rw [List.pairwise_cons] at h
    by_cases ha : good a = true
    · have hall : l.all good = true := List.all_eq_true.mpr fun b hb => h.1 b hb ha
      simp [longest, ha, hall]
    · simp [longest, ha, ih h.2]

/-- An entry is left exactly when the limit lets it and what follows it stay. -/
theorem mem_longest_iff (hnil : p [] = true) (hclosed : SuffixClosed p) :
    a ∈ longest p l ↔ ∃ t, a :: t <:+ l ∧ p (a :: t) = true := by
  constructor
  · intro h
    obtain ⟨s, t, heq⟩ := List.append_of_mem h
    have hsuffix : a :: t <:+ longest p l := ⟨s, heq.symm⟩
    exact ⟨t, hsuffix.trans (longest_suffix p l), hclosed _ _ hsuffix (longest_limit hnil)⟩
  · rintro ⟨t, hsuffix, h⟩
    exact (suffix_longest hsuffix h).subset List.mem_cons_self

end Longest

section Writes

variable [DecidableEq κ]

/-- A write under a key; `item` is missing when it is refused on its own. -/
structure Write (κ α : Type) where
  key : κ
  item : Option α
  limit : List (κ × α) → Bool

def place (table : List (κ × α)) (write : Write κ α) : List (κ × α) :=
  table.filter (fun e => e.1 ≠ write.key) ++ (write.item.map fun item => (write.key, item)).toList

/-- What the keys were last written to, in this order. -/
def written (writes : List (Write κ α)) : List (κ × α) := writes.foldl place []

/-- What the limits have left. -/
def kept (writes : List (Write κ α)) : List (κ × α) :=
  writes.foldl (fun table write => longest write.limit (place table write)) []

/-- The last of the writes lets the entry and what was written after it stay. -/
def Allows (writes : List (Write κ α)) (x : κ × α) : Prop :=
  ∃ earlier write t, writes = earlier ++ [write] ∧ x :: t <:+ written writes ∧
    write.limit (x :: t) = true

/-- A limit that the empty table satisfies and every suffix keeps. -/
structure Lawful (write : Write κ α) : Prop where
  nil : write.limit [] = true
  closed : SuffixClosed write.limit

variable {writes earlier later : List (Write κ α)} {write : Write κ α} {x : κ × α}
  {table table' t t' : List (κ × α)}

@[simp] theorem written_append : written (writes ++ [write]) = place (written writes) write := by
  simp [written]

@[simp] theorem kept_append :
    kept (writes ++ [write]) = longest write.limit (place (kept writes) write) := by
  simp [kept]

theorem place_suffix (h : table <:+ table') : place table write <:+ place table' write := by
  obtain ⟨front, rfl⟩ := h
  refine ⟨front.filter fun e => e.1 ≠ write.key, ?_⟩
  simp [place, List.append_assoc]

theorem mem_place_of_ne (h : x.1 ≠ write.key) : x ∈ place table write ↔ x ∈ table := by
  have hnew : ∀ item, write.item = some item → (write.key, item) ≠ x := by
    rintro item - rfl
    exact h rfl
  simp only [place, List.mem_append, List.mem_filter, Option.mem_toList, Option.map_eq_some_iff]
  constructor
  · rintro (⟨hmem, -⟩ | ⟨item, hitem, heq⟩)
    · exact hmem
    · exact absurd heq (hnew item hitem)
  · intro hmem
    exact .inl ⟨hmem, decide_eq_true h⟩

theorem keys_place (h : (table.map Prod.fst).Nodup) : ((place table write).map Prod.fst).Nodup := by
  have hrest : ((table.filter fun e => e.1 ≠ write.key).map Prod.fst).Nodup :=
    h.sublist (List.filter_sublist.map _)
  cases hitem : write.item with
  | none => simpa [place, hitem] using hrest
  | some item =>
    simp only [place, hitem, Option.map_some, Option.toList_some, List.map_append, List.map_cons,
      List.map_nil]
    refine List.nodup_append.mpr ⟨hrest, List.nodup_singleton _, ?_⟩
    rintro k hk _ (⟨⟩ | ⟨_, ⟨⟩⟩) rfl
    obtain ⟨e, he, hkey⟩ := List.mem_map.mp hk
    exact absurd hkey (by simpa using (List.mem_filter.mp he).2)

theorem keys_written (writes : List (Write κ α)) : ((written writes).map Prod.fst).Nodup := by
  induction writes using List.reverseRecOn with
  | nil => exact List.nodup_nil
  | append_singleton writes write ih =>
    rw [written_append]
    exact keys_place ih

theorem kept_suffix (writes : List (Write κ α)) : kept writes <:+ written writes := by
  induction writes using List.reverseRecOn with
  | nil => exact List.suffix_rfl
  | append_singleton writes write ih =>
    rw [written_append, kept_append]
    exact (longest_suffix _ _).trans (place_suffix ih)

omit [DecidableEq κ] in
/-- In a table without repetitions the part after an entry is determined. -/
theorem after_unique (h : table.Nodup) (ht : x :: t <:+ table) (ht' : x :: t' <:+ table) :
    t = t' := by
  obtain hle | hle := Nat.le_total (x :: t).length (x :: t').length
  · have hsuffix := List.suffix_of_suffix_length_le ht ht' hle
    obtain heq | hinner := List.suffix_cons_iff.mp hsuffix
    · exact (List.cons.inj heq).2
    · exact absurd (hinner.subset List.mem_cons_self)
        (List.nodup_cons.mp (h.sublist ht'.sublist)).1
  · have hsuffix := List.suffix_of_suffix_length_le ht' ht hle
    obtain heq | hinner := List.suffix_cons_iff.mp hsuffix
    · exact (List.cons.inj heq).2.symm
    · exact absurd (hinner.subset List.mem_cons_self)
        (List.nodup_cons.mp (h.sublist ht.sublist)).1

theorem mem_place_self (h : x.1 = write.key) : x ∈ place table write ↔ write.item = some x.2 := by
  obtain ⟨k, item⟩ := x
  obtain rfl : k = write.key := h
  simp [place, Option.map_eq_some_iff]

theorem mem_kept_append (hlawful : Lawful write) :
    x ∈ kept (writes ++ [write]) ↔
      x ∈ place (kept writes) write ∧ Allows (writes ++ [write]) x := by
  have hpart : place (kept writes) write <:+ written (writes ++ [write]) := by
    rw [written_append]
    exact place_suffix (kept_suffix writes)
  rw [kept_append, mem_longest_iff hlawful.nil hlawful.closed]
  constructor
  · rintro ⟨t, hsuffix, hlimit⟩
    exact ⟨hsuffix.subset List.mem_cons_self, writes, write, t, rfl, hsuffix.trans hpart, hlimit⟩
  · rintro ⟨hmem, earlier, last, t, heq, hwritten, hlimit⟩
    obtain ⟨rfl, hlast⟩ := List.append_inj' heq rfl
    obtain rfl := List.singleton_injective hlast
    obtain ⟨front, t', hplace⟩ := List.append_of_mem hmem
    have hsuffix : x :: t' <:+ place (kept writes) write := ⟨front, hplace.symm⟩
    obtain rfl := after_unique (List.Nodup.of_map _ (keys_written _)) hwritten (hsuffix.trans hpart)
    exact ⟨t, hsuffix, hlimit⟩

/-- The entry is what its key was last written to, and every limit since let it stay with what
was written after it. -/
def Lasts (writes : List (Write κ α)) (x : κ × α) : Prop :=
  ∃ earlier write later, writes = earlier ++ write :: later ∧ write.key = x.1 ∧
    write.item = some x.2 ∧ (∀ other ∈ later, other.key ≠ x.1) ∧
    ∀ run, run <+: later → Allows (earlier ++ write :: run) x

theorem Lasts.last (h : Lasts (writes ++ [write]) x) (hkey : x.1 = write.key) :
    write.item = some x.2 ∧ Allows (writes ++ [write]) x := by
  obtain ⟨earlier, first, later, heq, -, hitem, hlater, hrun⟩ := h
  obtain rfl | ⟨later, last, rfl⟩ := List.eq_nil_or_concat' later
  · obtain ⟨rfl, hlast⟩ := List.append_inj' heq rfl
    obtain rfl := List.singleton_injective hlast
    exact ⟨hitem, hrun [] List.prefix_rfl⟩
  · rw [← List.cons_append, ← List.append_assoc] at heq
    obtain ⟨-, hlast⟩ := List.append_inj' heq rfl
    obtain rfl := List.singleton_injective hlast
    exact absurd hkey.symm (hlater write (by simp))

theorem lasts_self (hkey : write.key = x.1) (hitem : write.item = some x.2)
    (hallows : Allows (writes ++ [write]) x) : Lasts (writes ++ [write]) x := by
  refine ⟨writes, write, [], rfl, hkey, hitem, nofun, ?_⟩
  intro run hrun
  obtain rfl := List.prefix_nil.mp hrun
  exact hallows

theorem lasts_append (hkey : x.1 ≠ write.key) :
    Lasts (writes ++ [write]) x ↔ Lasts writes x ∧ Allows (writes ++ [write]) x := by
  constructor
  · rintro ⟨earlier, first, later, heq, hfirst, hitem, hlater, hrun⟩
    obtain rfl | ⟨later, last, rfl⟩ := List.eq_nil_or_concat' later
    · obtain ⟨rfl, hlast⟩ := List.append_inj' heq rfl
      obtain rfl := List.singleton_injective hlast
      exact absurd hfirst.symm hkey
    · have heq' := heq
      rw [← List.cons_append, ← List.append_assoc] at heq'
      obtain ⟨rfl, -⟩ := List.append_inj' heq' rfl
      refine ⟨⟨earlier, first, later, rfl, hfirst, hitem, fun other hother => hlater other
        (List.mem_append_left _ hother), fun run hpre => hrun run (hpre.trans
        (List.prefix_append later [last]))⟩, ?_⟩
      rw [heq]
      exact hrun _ List.prefix_rfl
  · rintro ⟨⟨earlier, first, later, rfl, hfirst, hitem, hlater, hrun⟩, hallows⟩
    refine ⟨earlier, first, later ++ [write], by simp, hfirst, hitem, ?_, ?_⟩
    · intro other hother
      obtain hold | hnew := List.mem_append.mp hother
      · exact hlater other hold
      · rw [List.mem_singleton.mp hnew]
        exact hkey.symm
    · intro run hpre
      obtain rfl | hshorter := List.prefix_concat_iff.mp hpre
      · simpa using hallows
      · exact hrun run hshorter

/-- The entries that are left are those that every limit since their write let stay. -/
theorem mem_kept_iff (hlawful : ∀ write ∈ writes, Lawful write) :
    x ∈ kept writes ↔ Lasts writes x := by
  induction writes using List.reverseRecOn with
  | nil =>
    simp [kept, Lasts]
  | append_singleton writes write ih =>
    have hwrite := hlawful write (by simp)
    have ih := ih fun other hother => hlawful other (List.mem_append_left _ hother)
    rw [mem_kept_append hwrite]
    by_cases hkey : x.1 = write.key
    · rw [mem_place_self hkey]
      constructor
      · rintro ⟨hitem, hallows⟩
        exact lasts_self hkey.symm hitem hallows
      · intro hlasts
        exact hlasts.last hkey
    · rw [mem_place_of_ne hkey, ih, lasts_append hkey]

end Writes

end Recency
