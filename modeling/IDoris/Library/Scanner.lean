import Mathlib.Data.List.Basic
import Mathlib.Data.List.Infix
import Mathlib.Data.List.TakeDrop
import Mathlib.Tactic.Common

/-!
# Scanning a list

Slices that refuse an index out of range, the first place of a pattern, and the stretches
a single forward pass takes.
-/
namespace Scanner

variable {α : Type}

/-- The elements from `a` up to `b`, or nothing where the range is not one of the list. -/
def slice (xs : List α) (a b : Nat) : Option (List α) :=
  if a ≤ b ∧ b ≤ xs.length then some ((xs.take b).drop a) else none

/-- The first place of a pattern. -/
def position [BEq α] (pattern : List α) : List α → Option Nat
  | [] => if pattern.isEmpty then some 0 else none
  | x :: xs =>
    if pattern.isPrefixOf (x :: xs) then some 0 else (position pattern xs).map (· + 1)

/-- The first place of a pattern at or after an index. -/
def find [BEq α] (xs : List α) (start : Nat) (pattern : List α) : Option Nat :=
  if start ≤ xs.length then (position pattern (xs.drop start)).map (start + ·) else none

/-- One forward pass: `len` says how much it takes at a place, with zero for nothing. -/
def stretchesFrom (len : List α → Nat) : List α → Nat → Nat → List (Nat × Nat)
  | [], _, _ => []
  | _ :: xs, i, skip + 1 => stretchesFrom len xs (i + 1) skip
  | x :: xs, i, 0 =>
    match len (x :: xs) with
    | 0 => stretchesFrom len xs (i + 1) 0
    | n + 1 => (i, i + (n + 1)) :: stretchesFrom len xs (i + 1) n

def stretches (len : List α → Nat) (xs : List α) : List (Nat × Nat) := stretchesFrom len xs 0 0

def runLength (member : α → Bool) (xs : List α) : Nat := (xs.takeWhile member).length

/-- The maximal runs of members. -/
def runs (member : α → Bool) (xs : List α) : List (Nat × Nat) := stretches (runLength member) xs

section FlatMap

/-- The results of every item, in order, or nothing if one of them failed. -/
def flatMapM {β : Type} (f : α → Option (List β)) (xs : List α) : Option (List β) :=
  (xs.mapM f).map List.flatten

theorem flatMapM_nil {β : Type} (f : α → Option (List β)) : flatMapM f [] = some [] := rfl

theorem flatMapM_cons {β : Type} (f : α → Option (List β)) (x : α) (xs : List α) :
    flatMapM f (x :: xs) = (f x).bind fun ys => (flatMapM f xs).map (ys ++ ·) := by
  simp only [flatMapM, List.mapM_cons]
  cases f x with
  | none => rfl
  | some ys => cases xs.mapM f <;> rfl

theorem flatMapM_eq_some {β : Type} {f : α → Option (List β)} {x : α} {xs : List α}
    {zs : List β} : flatMapM f (x :: xs) = some zs ↔
      ∃ ys rest, f x = some ys ∧ flatMapM f xs = some rest ∧ zs = ys ++ rest := by
  rw [flatMapM_cons, Option.bind_eq_some_iff]
  simp only [Option.map_eq_some_iff]
  constructor
  · rintro ⟨ys, hys, rest, hrest, rfl⟩
    exact ⟨ys, rest, hys, hrest, rfl⟩
  · rintro ⟨ys, rest, hys, hrest, rfl⟩
    exact ⟨ys, hys, rest, hrest, rfl⟩

/-- An item fails the list only by failing itself. -/
theorem flatMapM_isSome {β : Type} {f : α → Option (List β)} {xs : List α}
    (h : ∀ x ∈ xs, ∃ ys, f x = some ys) : ∃ zs, flatMapM f xs = some zs := by
  induction xs with
  | nil => exact ⟨[], rfl⟩
  | cons x xs ih =>
    obtain ⟨ys, hys⟩ := h x List.mem_cons_self
    obtain ⟨rest, hrest⟩ := ih fun y hy => h y (List.mem_cons_of_mem _ hy)
    exact ⟨ys ++ rest, flatMapM_eq_some.mpr ⟨ys, rest, hys, hrest, rfl⟩⟩

theorem mem_flatMapM {β : Type} {f : α → Option (List β)} {xs : List α} {zs : List β}
    (h : flatMapM f xs = some zs) {z : β} :
    z ∈ zs ↔ ∃ x ∈ xs, ∃ ys, f x = some ys ∧ z ∈ ys := by
  induction xs generalizing zs with
  | nil =>
    rw [flatMapM_nil, Option.some.injEq] at h
    simp [← h]
  | cons x xs ih =>
    obtain ⟨ys, rest, hys, hrest, rfl⟩ := flatMapM_eq_some.mp h
    rw [List.mem_append, ih hrest]
    constructor
    · rintro (hz | ⟨y, hy, zs, hzs, hz⟩)
      · exact ⟨x, List.mem_cons_self, ys, hys, hz⟩
      · exact ⟨y, List.mem_cons_of_mem _ hy, zs, hzs, hz⟩
    · rintro ⟨y, hy, zs, hzs, hz⟩
      obtain rfl | hy := List.mem_cons.mp hy
      · rw [hys, Option.some.injEq] at hzs
        exact .inl (hzs ▸ hz)
      · exact .inr ⟨y, hy, zs, hzs, hz⟩

end FlatMap

section Slice

variable {xs ys : List α} {a b i : Nat}

theorem slice_eq_some : slice xs a b = some ys ↔
    a ≤ b ∧ b ≤ xs.length ∧ ys = (xs.take b).drop a := by
  rw [slice, Option.ite_none_right_eq_some, Option.some.injEq, and_assoc, eq_comm (a := ys)]

theorem slice_of_le (hab : a ≤ b) (hb : b ≤ xs.length) :
    slice xs a b = some ((xs.take b).drop a) := by
  rw [slice, if_pos ⟨hab, hb⟩]

theorem length_of_slice (h : slice xs a b = some ys) : ys.length = b - a := by
  obtain ⟨-, hb, rfl⟩ := slice_eq_some.mp h
  simp
  omega

theorem getElem?_of_slice (h : slice xs a b = some ys) (hi : i < b - a) :
    ys[i]? = xs[a + i]? := by
  obtain ⟨hab, -, rfl⟩ := slice_eq_some.mp h
  rw [List.getElem?_drop, List.getElem?_take, if_pos (by omega)]

theorem slice_append {pre post : List α} :
    slice (pre ++ xs ++ post) pre.length (pre.length + xs.length) = some xs := by
  rw [slice_of_le (by omega) (by simp)]
  simp [List.take_append]

end Slice

section Find

variable [BEq α] [LawfulBEq α] {xs pattern : List α} {start i : Nat}

theorem position_some (h : position pattern xs = some i) : pattern <+: xs.drop i := by
  induction xs generalizing i with
  | nil =>
    simp only [position, Option.ite_none_right_eq_some, List.isEmpty_iff, Option.some.injEq] at h
    obtain ⟨rfl, rfl⟩ := h
    exact List.nil_prefix
  | cons x xs ih =>
    simp only [position] at h
    split at h
    · next hprefix =>
      cases h
      simpa using hprefix
    · rw [Option.map_eq_some_iff] at h
      obtain ⟨j, hj, rfl⟩ := h
      simpa using ih hj

theorem position_le (h : position pattern xs = some i) {j : Nat} (hj : pattern <+: xs.drop j)
    (hlen : j ≤ xs.length) : i ≤ j := by
  induction xs generalizing i j with
  | nil =>
    simp only [position, Option.ite_none_right_eq_some, Option.some.injEq] at h
    omega
  | cons x xs ih =>
    simp only [position] at h
    split at h
    · cases h
      exact Nat.zero_le _
    · next hprefix =>
      rw [Option.map_eq_some_iff] at h
      obtain ⟨k, hk, rfl⟩ := h
      cases j with
      | zero => exact absurd (by simpa using hj) hprefix
      | succ j =>
        have := ih hk (by simpa using hj) (by simpa using hlen)
        omega

theorem position_isSome {j : Nat} (hj : pattern <+: xs.drop j) (hlen : j ≤ xs.length) :
    ∃ i, position pattern xs = some i := by
  induction xs generalizing j with
  | nil =>
    have hnil : pattern = [] := by simpa using hj
    exact ⟨0, by simp [position, hnil]⟩
  | cons x xs ih =>
    simp only [position]
    split
    · exact ⟨0, rfl⟩
    · next hprefix =>
      cases j with
      | zero => exact absurd (by simpa using hj) hprefix
      | succ j =>
        obtain ⟨i, hi⟩ := ih (by simpa using hj) (by simpa using hlen)
        exact ⟨i + 1, by rw [hi]; rfl⟩

omit [LawfulBEq α] in
theorem position_le_length (h : position pattern xs = some i) : i ≤ xs.length := by
  induction xs generalizing i with
  | nil =>
    simp only [position, Option.ite_none_right_eq_some, Option.some.injEq] at h
    omega
  | cons x xs ih =>
    simp only [position] at h
    split at h
    · cases h
      exact Nat.zero_le _
    · rw [Option.map_eq_some_iff] at h
      obtain ⟨j, hj, rfl⟩ := h
      have := ih hj
      simp only [List.length_cons]
      omega

theorem find_some (h : find xs start pattern = some i) :
    start ≤ i ∧ i ≤ xs.length ∧ pattern <+: xs.drop i := by
  simp only [find, Option.ite_none_right_eq_some, Option.map_eq_some_iff] at h
  obtain ⟨hstart, j, hj, rfl⟩ := h
  have hprefix := position_some hj
  have hlen := position_le_length hj
  rw [List.drop_drop] at hprefix
  rw [List.length_drop] at hlen
  exact ⟨by omega, by omega, hprefix⟩

theorem find_bounds (h : find xs start pattern = some i) :
    start ≤ i ∧ i + pattern.length ≤ xs.length := by
  obtain ⟨hstart, hi, hpre⟩ := find_some h
  have := hpre.length_le
  rw [List.length_drop] at this
  exact ⟨hstart, by omega⟩

omit [BEq α] [LawfulBEq α] in
theorem prefix_getElem? {j : Nat} (h : pattern <+: xs.drop start) (hj : j < pattern.length) :
    xs[start + j]? = pattern[j]? := by
  obtain ⟨tail, htail⟩ := h
  rw [← List.getElem?_drop, ← htail, List.getElem?_append_left hj]

/-- Nothing at or after the start comes before the place that is found. -/
theorem find_le (h : find xs start pattern = some i) {j : Nat} (hstart : start ≤ j)
    (hj : pattern <+: xs.drop j) (hlen : j ≤ xs.length) : i ≤ j := by
  simp only [find, Option.ite_none_right_eq_some, Option.map_eq_some_iff] at h
  obtain ⟨-, k, hk, rfl⟩ := h
  have := position_le hk (j := j - start)
    (by rw [List.drop_drop, Nat.add_sub_cancel' hstart]; exact hj)
    (by rw [List.length_drop]; omega)
  omega

theorem find_isSome {j : Nat} (hstart : start ≤ j) (hj : pattern <+: xs.drop j)
    (hlen : j ≤ xs.length) : ∃ i, find xs start pattern = some i := by
  have hdrop : pattern <+: (xs.drop start).drop (j - start) := by
    rwa [List.drop_drop, Nat.add_sub_cancel' hstart]
  obtain ⟨i, hi⟩ := position_isSome hdrop (by rw [List.length_drop]; omega)
  exact ⟨start + i, by rw [find, if_pos (by omega), hi]; rfl⟩

end Find

section Stretches

variable {len : List α → Nat} {xs : List α} {a b i p skip : Nat}

theorem stretchesFrom_skip (len : List α → Nat) (xs : List α) (i skip : Nat) :
    stretchesFrom len xs i skip = stretchesFrom len (xs.drop skip) (i + skip) 0 := by
  induction xs generalizing i skip with
  | nil => simp [stretchesFrom]
  | cons x xs ih =>
    cases skip with
    | zero => rfl
    | succ skip =>
      rw [stretchesFrom, ih, List.drop_succ_cons, Nat.add_assoc, Nat.add_comm 1]

/-- Where something is taken, the pass goes on behind it. -/
theorem stretchesFrom_taken (h : len xs = p + 1) (hne : xs ≠ []) :
    stretchesFrom len xs i 0 =
      (i, i + len xs) :: stretchesFrom len (xs.drop (len xs)) (i + len xs) 0 := by
  cases xs with
  | nil => exact absurd rfl hne
  | cons x xs =>
    rw [stretchesFrom, h]
    simp only [List.drop_succ_cons]
    rw [stretchesFrom_skip, Nat.add_assoc, Nat.add_comm 1]

theorem stretchesFrom_passed {x : α} (h : len (x :: xs) = 0) :
    stretchesFrom len (x :: xs) i 0 = stretchesFrom len xs (i + 1) 0 := by
  rw [stretchesFrom, h]

/-- Induction along a pass: at the end, over an element that is passed, and over a stretch. -/
theorem pass_induction {motive : List α → Nat → Prop} (len : List α → Nat)
    (done : ∀ i, motive [] i)
    (passed : ∀ x xs i, len (x :: xs) = 0 → motive xs (i + 1) → motive (x :: xs) i)
    (taken : ∀ xs i, xs ≠ [] → 0 < len xs → motive (xs.drop (len xs)) (i + len xs) → motive xs i)
    (xs : List α) (i : Nat) : motive xs i := by
  induction hn : xs.length using Nat.strong_induction_on generalizing xs i with
  | h n ih =>
    cases xs with
    | nil => exact done i
    | cons x xs =>
      simp only [List.length_cons] at hn
      rcases Nat.eq_zero_or_pos (len (x :: xs)) with hzero | hpos
      · exact passed x xs i hzero (ih xs.length (by omega) xs (i + 1) rfl)
      · refine taken (x :: xs) i (by simp) hpos (ih _ ?_ _ _ rfl)
        simp only [List.length_drop, List.length_cons]
        omega

theorem stretchesFrom_bounds (hlen : ∀ ys, len ys ≤ ys.length)
    (h : (a, b) ∈ stretchesFrom len xs i 0) :
    i ≤ a ∧ a < b ∧ b ≤ i + xs.length ∧ len (xs.drop (a - i)) = b - a := by
  induction xs, i using pass_induction len with
  | done i => simp [stretchesFrom] at h
  | passed x xs i hzero ih =>
    rw [stretchesFrom_passed hzero] at h
    obtain ⟨hia, hab, hb, hl⟩ := ih h
    refine ⟨by omega, hab, by simp only [List.length_cons]; omega, ?_⟩
    rw [show a - i = a - (i + 1) + 1 by omega, List.drop_succ_cons, hl]
  | taken xs i hne hpos ih =>
    have hle := hlen xs
    rw [stretchesFrom_taken (p := len xs - 1) (by omega) hne, List.mem_cons, Prod.mk.injEq] at h
    rcases h with ⟨rfl, rfl⟩ | h
    · exact ⟨le_rfl, by omega, by omega, by simp⟩
    · obtain ⟨hia, hab, hb, hl⟩ := ih h
      rw [List.length_drop] at hb
      rw [List.drop_drop, show len xs + (a - (i + len xs)) = a - i by omega] at hl
      exact ⟨by omega, hab, by omega, hl⟩

/-- What could be taken is inside some stretch. -/
theorem stretchesFrom_cover (hlen : ∀ ys, len ys ≤ ys.length) (hip : i ≤ p)
    (hp : p < i + xs.length) (hpos : 0 < len (xs.drop (p - i))) :
    ∃ a b, (a, b) ∈ stretchesFrom len xs i 0 ∧ a ≤ p ∧ p < b := by
  induction xs, i using pass_induction len with
  | done i => simp at hp; omega
  | passed x xs i hzero ih =>
    rw [stretchesFrom_passed hzero]
    have hne : p ≠ i := by
      rintro rfl
      rw [Nat.sub_self, List.drop_zero] at hpos
      omega
    simp only [List.length_cons] at hp
    refine ih (by omega) (by omega) ?_
    rwa [show p - i = p - (i + 1) + 1 by omega, List.drop_succ_cons] at hpos
  | taken xs i hne hpos' ih =>
    have hle := hlen xs
    rw [stretchesFrom_taken (p := len xs - 1) (by omega) hne]
    by_cases hin : p < i + len xs
    · exact ⟨i, i + len xs, List.mem_cons_self, hip, hin⟩
    · obtain ⟨a, b, hab, hap, hpb⟩ := ih (by omega) (by rw [List.length_drop]; omega) (by
        rwa [List.drop_drop, show len xs + (p - (i + len xs)) = p - i by omega])
      exact ⟨a, b, List.mem_cons_of_mem _ hab, hap, hpb⟩

/-- Before a stretch lies an element that was passed, or the end of another stretch. -/
theorem stretchesFrom_before (hlen : ∀ ys, len ys ≤ ys.length)
    (h : (a, b) ∈ stretchesFrom len xs i 0) (hia : i < a) :
    len (xs.drop (a - 1 - i)) = 0 ∨ ∃ a', (a', a) ∈ stretchesFrom len xs i 0 := by
  induction xs, i using pass_induction len with
  | done i => simp [stretchesFrom] at h
  | passed x xs i hzero ih =>
    rw [stretchesFrom_passed hzero] at h ⊢
    by_cases hnext : i + 1 = a
    · refine .inl ?_
      rw [show a - 1 - i = 0 by omega]
      exact hzero
    · have hlt := (stretchesFrom_bounds hlen h).1
      rw [show a - 1 - i = a - 1 - (i + 1) + 1 by omega, List.drop_succ_cons]
      exact ih h (by omega)
  | taken xs i hne hpos ih =>
    have hle := hlen xs
    rw [stretchesFrom_taken (p := len xs - 1) (by omega) hne] at h ⊢
    rw [List.mem_cons, Prod.mk.injEq] at h
    rcases h with ⟨rfl, rfl⟩ | h
    · omega
    · have hbounds := (stretchesFrom_bounds hlen h).1
      by_cases hnext : i + len xs = a
      · exact .inr ⟨i, by rw [hnext]; exact List.mem_cons_self⟩
      · obtain hzero | ⟨a', ha'⟩ := ih h (by omega)
        · refine .inl ?_
          rwa [List.drop_drop, show len xs + (a - 1 - (i + len xs)) = a - 1 - i by omega] at hzero
        · exact .inr ⟨a', List.mem_cons_of_mem _ ha'⟩

theorem stretches_bounds (hlen : ∀ ys, len ys ≤ ys.length) (h : (a, b) ∈ stretches len xs) :
    a < b ∧ b ≤ xs.length ∧ len (xs.drop a) = b - a := by
  obtain ⟨-, hab, hb, hl⟩ := stretchesFrom_bounds hlen h
  exact ⟨hab, by omega, hl⟩

theorem stretches_cover (hlen : ∀ ys, len ys ≤ ys.length) (hp : p < xs.length)
    (hpos : 0 < len (xs.drop p)) : ∃ a b, (a, b) ∈ stretches len xs ∧ a ≤ p ∧ p < b :=
  stretchesFrom_cover hlen (Nat.zero_le p) (by omega) hpos

theorem stretches_before (hlen : ∀ ys, len ys ≤ ys.length) (h : (a, b) ∈ stretches len xs)
    (ha : 0 < a) : len (xs.drop (a - 1)) = 0 ∨ ∃ a', (a', a) ∈ stretches len xs :=
  stretchesFrom_before hlen h ha

end Stretches

section Runs

variable {member : α → Bool} {xs : List α} {a b i : Nat}

theorem runLength_le (member : α → Bool) (xs : List α) : runLength member xs ≤ xs.length :=
  (List.takeWhile_prefix member).length_le

theorem runLength_cons (member : α → Bool) (x : α) (xs : List α) :
    runLength member (x :: xs) = if member x then runLength member xs + 1 else 0 := by
  simp only [runLength, List.takeWhile_cons]
  split <;> simp

theorem member_of_lt_runLength (h : i < runLength member xs) :
    ∃ x, xs[i]? = some x ∧ member x = true := by
  induction xs generalizing i with
  | nil => simp [runLength] at h
  | cons x xs ih =>
    rw [runLength_cons] at h
    split at h
    · next hx =>
      cases i with
      | zero => exact ⟨x, rfl, hx⟩
      | succ i => exact ih (by omega)
    · omega

theorem not_member_runLength {x : α} (h : xs[runLength member xs]? = some x) :
    member x = false := by
  induction xs with
  | nil => simp at h
  | cons y xs ih =>
    rw [runLength_cons] at h
    split at h
    · exact ih (by simpa using h)
    · next hy =>
      simp only [List.getElem?_cons_zero, Option.some.injEq] at h
      simpa [h] using hy

/-- A run is as long as members follow. -/
theorem runLength_eq {n : Nat} (hmember : ∀ i < n, ∃ x, xs[i]? = some x ∧ member x = true)
    (hend : ∀ x, xs[n]? = some x → member x = false) : runLength member xs = n := by
  rcases Nat.lt_trichotomy (runLength member xs) n with hlt | heq | hgt
  · obtain ⟨x, hx, hm⟩ := hmember _ hlt
    rw [not_member_runLength hx] at hm
    cases hm
  · exact heq
  · obtain ⟨x, hx, hm⟩ := member_of_lt_runLength hgt
    rw [hend x hx] at hm
    cases hm

/-- The bounds of a maximal run. -/
structure IsRun (member : α → Bool) (xs : List α) (a b : Nat) : Prop where
  lt : a < b
  le : b ≤ xs.length
  inside : ∀ i, a ≤ i → i < b → ∃ x, xs[i]? = some x ∧ member x = true
  before : ∀ x, 0 < a → xs[a - 1]? = some x → member x = false
  after : ∀ x, xs[b]? = some x → member x = false

theorem runLength_drop_of_isRun (h : IsRun member xs a b) :
    runLength member (xs.drop a) = b - a := by
  apply runLength_eq
  · intro i hi
    rw [List.getElem?_drop]
    exact h.inside (a + i) (by omega) (by omega)
  · intro x hx
    rw [List.getElem?_drop, show a + (b - a) = b by have := h.lt; omega] at hx
    exact h.after x hx

/-- A run stays a run between two parts that do not go on with members. -/
theorem IsRun.embed {left right : List α} (h : IsRun member xs a b)
    (hleft : ∀ x, left.getLast? = some x → member x = false)
    (hright : ∀ x, right.head? = some x → member x = false) :
    IsRun member (left ++ xs ++ right) (left.length + a) (left.length + b) := by
  have hlt := h.lt
  have hle := h.le
  have hget : ∀ i, i < xs.length → (left ++ xs ++ right)[left.length + i]? = xs[i]? := by
    intro i hi
    rw [List.append_assoc, List.getElem?_append_right (by omega), Nat.add_sub_cancel_left,
      List.getElem?_append_left hi]
  refine ⟨by omega, by simp only [List.length_append]; omega, fun i hi hi' => ?_,
    fun x hx hbefore => ?_, fun x hafter => ?_⟩
  · rw [show i = left.length + (i - left.length) by omega, hget _ (by omega)]
    exact h.inside _ (by omega) (by omega)
  · cases a with
    | zero =>
      rw [Nat.add_zero, List.append_assoc, List.getElem?_append_left (by omega),
        ← List.getLast?_eq_getElem?] at hbefore
      exact hleft x hbefore
    | succ a =>
      rw [show left.length + (a + 1) - 1 = left.length + a by omega, hget _ (by omega)] at hbefore
      exact h.before x (by omega) hbefore
  · by_cases hend : b = xs.length
    · subst hend
      rw [← List.length_append, List.getElem?_append_right le_rfl, Nat.sub_self,
        ← List.head?_eq_getElem?] at hafter
      exact hright x hafter
    · rw [hget _ (by omega)] at hafter
      exact h.after x hafter

/-- Members between two parts that do not go on with members. -/
theorem isRun_middle {left middle right : List α}
    (hleft : ∀ x, left.getLast? = some x → member x = false)
    (hmiddle : ∀ x ∈ middle, member x = true) (hne : middle ≠ [])
    (hright : ∀ x, right.head? = some x → member x = false) :
    IsRun member (left ++ middle ++ right) left.length (left.length + middle.length) := by
  have hpos := List.length_pos_iff.mpr hne
  refine ⟨by omega, by simp only [List.length_append]; omega, fun i hi hi' => ?_,
    fun x hx hget => ?_, fun x hget => ?_⟩
  · refine ⟨middle[i - left.length], ?_, hmiddle _ (List.getElem_mem _)⟩
    rw [List.getElem?_append_left (by simp; omega), List.getElem?_append_right hi,
      List.getElem?_eq_getElem]
  · rw [List.append_assoc, List.getElem?_append_left (by omega),
      ← List.getLast?_eq_getElem?] at hget
    exact hleft x hget
  · rw [← List.length_append, List.getElem?_append_right le_rfl, Nat.sub_self,
      ← List.head?_eq_getElem?] at hget
    exact hright x hget

theorem isRun_of_mem_runs (h : (a, b) ∈ runs member xs) : IsRun member xs a b := by
  have hbounds := fun {a b} (h : (a, b) ∈ runs member xs) =>
    stretches_bounds (runLength_le member) h
  have hafter : ∀ {a b}, (a, b) ∈ runs member xs → ∀ x, xs[b]? = some x → member x = false := by
    intro a b h x hx
    obtain ⟨hab, -, hlen⟩ := hbounds h
    have hend : (xs.drop a)[runLength member (xs.drop a)]? = some x := by
      rw [hlen, List.getElem?_drop, show a + (b - a) = b by omega, hx]
    exact not_member_runLength hend
  obtain ⟨hab, hb, hlen⟩ := hbounds h
  refine ⟨hab, hb, ?_, ?_, hafter h⟩
  · intro i hai hib
    have hinside : i - a < runLength member (xs.drop a) := by omega
    have := member_of_lt_runLength hinside
    rwa [List.getElem?_drop, show a + (i - a) = i by omega] at this
  · intro x ha hx
    obtain hzero | ⟨a', ha'⟩ := stretches_before (runLength_le member) h ha
    · have hlt : a - 1 < xs.length := by omega
      rw [List.drop_eq_getElem_cons hlt, runLength_cons] at hzero
      rw [List.getElem?_eq_getElem hlt, Option.some.injEq] at hx
      rw [hx] at hzero
      simpa using hzero
    · have hfirst := hafter ha'
      have hpos : 0 < runLength member (xs.drop a) := by omega
      obtain ⟨y, hy, hm⟩ := member_of_lt_runLength hpos
      rw [List.getElem?_drop, Nat.add_zero] at hy
      rw [hfirst y hy] at hm
      cases hm

/-- Every maximal run is found. -/
theorem mem_runs_of_isRun (h : IsRun member xs a b) : (a, b) ∈ runs member xs := by
  have hlen := runLength_drop_of_isRun h
  have hab := h.lt
  have hle := h.le
  have hpos : 0 < runLength member (xs.drop a) := by omega
  obtain ⟨a', b', hmem, ha', hb'⟩ := stretches_cover (runLength_le member) (by omega) hpos
  have hrun := isRun_of_mem_runs hmem
  have ha : a' = a := by
    by_contra hne
    obtain ⟨x, hx, hm⟩ := hrun.inside (a - 1) (by omega) (by omega)
    rw [h.before x (by omega) hx] at hm
    cases hm
  subst ha
  have hb : b' = b := by
    have := runLength_drop_of_isRun hrun
    have := hrun.lt
    omega
  subst hb
  exact hmem

theorem stretchesFrom_pairwise {len : List α → Nat} (hlen : ∀ ys, len ys ≤ ys.length)
    (xs : List α) (i : Nat) : (stretchesFrom len xs i 0).Pairwise fun p q => p.2 ≤ q.1 := by
  induction xs, i using pass_induction len with
  | done i => exact .nil
  | passed x xs i hzero ih => rwa [stretchesFrom_passed hzero]
  | taken xs i hne hpos ih =>
    rw [stretchesFrom_taken (p := len xs - 1) (by omega) hne]
    exact List.pairwise_cons.mpr ⟨fun q hq => (stretchesFrom_bounds hlen hq).1, ih⟩

/-- Runs come in order. -/
theorem runs_pairwise (member : α → Bool) (xs : List α) :
    (runs member xs).Pairwise fun p q => p.2 ≤ q.1 :=
  stretchesFrom_pairwise (runLength_le member) xs 0

theorem take_runLength (member : α → Bool) (xs : List α) :
    xs.take (runLength member xs) = xs.takeWhile member :=
  (List.prefix_iff_eq_take.mp (List.takeWhile_prefix member)).symm

theorem flatMap_stretchesFrom_runLength (member : α → Bool) (xs : List α) (i : Nat) :
    ((stretchesFrom (runLength member) xs i 0).flatMap fun p =>
      (xs.take (p.2 - i)).drop (p.1 - i)) = xs.filter member := by
  induction xs, i using pass_induction (runLength member) with
  | done i => rfl
  | passed x xs i hzero ih =>
    rw [stretchesFrom_passed hzero, List.filter_cons_of_neg (by
      rw [runLength_cons] at hzero
      intro hx
      simp [hx] at hzero), ← ih]
    refine List.flatMap_congr fun p hp => ?_
    obtain ⟨hia, hab, -⟩ := stretchesFrom_bounds (runLength_le member) hp
    rw [show p.2 - i = p.2 - (i + 1) + 1 by omega, show p.1 - i = p.1 - (i + 1) + 1 by omega,
      List.take_succ_cons, List.drop_succ_cons]
  | taken xs i hne hpos ih =>
    have hall : (xs.takeWhile member).filter member = xs.takeWhile member :=
      List.filter_eq_self.mpr (List.all_eq_true.mp List.all_takeWhile)
    have hsplit : xs.filter member =
        xs.takeWhile member ++ (xs.drop (runLength member xs)).filter member := by
      conv_lhs => rw [← List.take_append_drop (runLength member xs) xs]
      rw [List.filter_append, take_runLength, hall]
    rw [stretchesFrom_taken (p := runLength member xs - 1) (by omega) hne, List.flatMap_cons,
      hsplit, ← ih]
    congr 1
    · rw [Nat.add_sub_cancel_left, Nat.sub_self, List.drop_zero, take_runLength]
    · refine List.flatMap_congr fun p hp => ?_
      obtain ⟨hia, hab, -⟩ := stretchesFrom_bounds (runLength_le member) hp
      rw [List.take_drop, List.drop_drop,
        show runLength member xs + (p.2 - (i + runLength member xs)) = p.2 - i by omega,
        show runLength member xs + (p.1 - (i + runLength member xs)) = p.1 - i by omega]

/-- The members of a list are its runs one after the other. -/
theorem flatMap_runs (member : α → Bool) (xs : List α) :
    ((runs member xs).flatMap fun p => (xs.take p.2).drop p.1) = xs.filter member :=
  flatMap_stretchesFrom_runLength member xs 0

end Runs

section Halts

variable {α : Type} {len : List α → Nat} {x : α} {xs ys : List α} {a b i n : Nat}

/-- What is taken at a place does not reach this element, nor depend on what is behind it. -/
def Halts (len : List α → Nat) (x : α) : Prop := ∀ xs ys, len (xs ++ x :: ys) = len xs

theorem takeWhile_append_stop {member : α → Bool} (h : ∀ x, ys.head? = some x → member x = false)
    (xs : List α) : (xs ++ ys).takeWhile member = xs.takeWhile member := by
  have hnone : ys.takeWhile member = [] := by
    cases ys with
    | nil => rfl
    | cons y ys => rw [List.takeWhile_cons_of_neg (by simp [h y rfl])]
  rw [List.takeWhile_append, hnone, List.append_nil]
  split
  · next hall => exact ((List.takeWhile_prefix _).eq_of_length hall).symm
  · rfl

theorem halts_runLength {member : α → Bool} (h : member x = false) :
    Halts (runLength member) x := by
  intro xs ys
  rw [runLength, runLength, takeWhile_append_stop]
  intro y hy
  rw [← Option.some.inj hy, h]

theorem stretchesFrom_append (hlen : ∀ ys, len ys ≤ ys.length) (h : Halts len x) (xs ys : List α)
    (i : Nat) : stretchesFrom len (xs ++ x :: ys) i 0 =
      stretchesFrom len xs i 0 ++ stretchesFrom len ys (i + xs.length + 1) 0 := by
  induction xs, i using pass_induction len with
  | done i =>
    have hzero : len (x :: ys) = 0 := by
      have := h [] ys
      have := hlen []
      simp only [List.nil_append, List.length_nil] at *
      omega
    exact stretchesFrom_passed hzero
  | passed y xs i hzero ih =>
    have hzero' : len (y :: (xs ++ x :: ys)) = 0 := (h (y :: xs) ys).trans hzero
    rw [List.cons_append, stretchesFrom_passed hzero', stretchesFrom_passed hzero, ih,
      List.length_cons]
    congr 2
    omega
  | taken xs i hne hpos ih =>
    have hle := hlen xs
    have hsame := h xs ys
    rw [stretchesFrom_taken (p := len xs - 1) (by omega) (by simp [hne]), hsame,
      List.drop_append_of_le_length hle, ih,
      stretchesFrom_taken (p := len xs - 1) (by omega) hne, List.cons_append, List.length_drop]
    congr 3
    omega

theorem stretchesFrom_shift (len : List α → Nat) (xs : List α) (n i skip : Nat) :
    stretchesFrom len xs (n + i) skip =
      (stretchesFrom len xs i skip).map fun p => (n + p.1, n + p.2) := by
  induction xs generalizing i skip with
  | nil => rfl
  | cons x xs ih =>
    cases skip with
    | succ skip => exact ih (i + 1) skip
    | zero =>
      simp only [stretchesFrom]
      split
      · exact ih (i + 1) 0
      · next p _ =>
        rw [List.map_cons, ← ih (i + 1) p, Nat.add_assoc n i, Nat.add_assoc n i]

end Halts

end Scanner
