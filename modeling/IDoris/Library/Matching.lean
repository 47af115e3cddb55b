import Mathlib.Data.List.Infix
import Mathlib.Data.List.TakeDrop
import Mathlib.Tactic.Common

/-!
# Searching for a pattern

The search that never goes back in the text: after each element it knows the longest prefix
of the pattern that ends there. Where the pattern cannot be continued, it falls back to the
longest prefix that ends the prefix before.
-/
namespace Matching

variable {α : Type} [DecidableEq α]

section Search

variable (needle : List α)

/-- The fall from `matched` to a prefix that `x` continues, or to the empty one. Every fall
is to a shorter prefix, so `left = matched` is enough. -/
def fall (table : List Nat) (x : α) : (left matched : Nat) → Nat
  | 0, matched => matched
  | left + 1, matched =>
    if matched = 0 ∨ needle[matched]? = some x then matched
    else fall table x left (table.getD (matched - 1) 0)

def advance (table : List Nat) (matched : Nat) (x : α) : Nat :=
  let matched := fall needle table x matched matched
  if needle[matched]? = some x then matched + 1 else matched

/-- The entries for the rest of the pattern. -/
def tableFrom : (rest : List α) → (table : List Nat) → (matched : Nat) → List Nat
  | [], table, _ => table
  | x :: rest, table, matched =>
    let matched := advance needle table matched x
    tableFrom rest (table ++ [matched]) matched

def prefixTable : List Nat := tableFrom needle needle.tail [0] 0

def searchFrom (table : List Nat) : List α → (matched : Nat) → Bool
  | [], _ => false
  | x :: xs, matched =>
    let matched := advance needle table matched x
    if matched = needle.length then true else searchFrom table xs matched

def contains (haystack : List α) : Bool :=
  if needle.isEmpty then true else searchFrom needle (prefixTable needle) haystack 0

end Search

section Correct

variable {needle text : List α} {table : List Nat} {x : α} {k m n : Nat}

/-- The longest prefix of the pattern that the text ends with. -/
structure Longest (needle text : List α) (m : Nat) : Prop where
  le : m ≤ needle.length
  ends : needle.take m <:+ text
  max : ∀ k ≤ needle.length, needle.take k <:+ text → k ≤ m

/-- The entries so far: each is the longest prefix that its part of the pattern ends with,
the first element left out. -/
def TableOk (needle : List α) (table : List Nat) : Prop :=
  ∀ j < table.length, Longest needle (needle.tail.take j) (table.getD j 0)

omit [DecidableEq α] in
theorem suffix_tail (hm : m ≤ needle.length) (hk : k < m) (h : needle.take k <:+ needle.take m) :
    needle.take k <:+ needle.tail.take (m - 1) := by
  cases needle with
  | nil => simp at hm; omega
  | cons y ys =>
    obtain ⟨m, rfl⟩ := Nat.exists_eq_succ_of_ne_zero (show m ≠ 0 by omega)
    rw [List.take_succ_cons, List.suffix_cons_iff] at h
    obtain h | h := h
    · have hlen := congrArg List.length h
      simp only [List.length_take, List.length_cons] at hlen hm
      omega
    · simpa using h

omit [DecidableEq α] in
/-- A longer prefix ends a text when the shorter one did, and the next element is right. -/
theorem take_succ_suffix_concat (hk : k < needle.length) :
    needle.take (k + 1) <:+ text ++ [x] ↔ needle[k]? = some x ∧ needle.take k <:+ text := by
  rw [List.take_succ_eq_append_getElem hk, List.suffix_concat_iff, List.getElem?_eq_getElem hk,
    Option.some.injEq]
  constructor
  · rintro (h | ⟨t, h, ht⟩)
    · have hempty : needle = [] := by simpa using h
      simp [hempty] at hk
    · obtain ⟨rfl, hx⟩ := List.append_inj' h rfl
      exact ⟨by simpa using hx, ht⟩
  · rintro ⟨rfl, h⟩
    exact .inr ⟨_, rfl, h⟩

omit [DecidableEq α] in
theorem TableOk.getD_le (htable : TableOk needle table) {j : Nat} (hj : j < table.length) :
    table.getD j 0 ≤ j := by
  have hends := (htable j hj).ends.length_le
  have hle := (htable j hj).le
  simp only [List.length_take] at hends
  omega

/-- The fall ends at the longest prefix that the element continues. -/
theorem fall_spec (htable : TableOk needle table) {left : Nat} (hleft : m ≤ left)
    (hm : m ≤ table.length) (hlen : m ≤ needle.length) (hends : needle.take m <:+ text)
    (hbest : ∀ k < needle.length, needle.take k <:+ text → needle[k]? = some x → k ≤ m) :
    needle.take (fall needle table x left m) <:+ text ∧ fall needle table x left m ≤ m ∧
      (fall needle table x left m = 0 ∨ needle[fall needle table x left m]? = some x) ∧
      ∀ k < needle.length, needle.take k <:+ text → needle[k]? = some x →
        k ≤ fall needle table x left m := by
  induction left generalizing m with
  | zero =>
    have hzero : m = 0 := by omega
    subst hzero
    exact ⟨hends, le_rfl, .inl rfl, hbest⟩
  | succ left ih =>
    rw [fall]
    split
    · next hstop => exact ⟨hends, le_rfl, hstop, hbest⟩
    · next hfall =>
      rw [not_or] at hfall
      obtain ⟨hne, hnext⟩ := hfall
      have hentry := htable (m - 1) (by omega)
      have hshort := htable.getD_le (j := m - 1) (by omega)
      generalize table.getD (m - 1) 0 = t at hentry hshort ⊢
      have hpart : needle.tail.take (m - 1) <:+ needle.take m := by
        obtain ⟨m, rfl⟩ := Nat.exists_eq_succ_of_ne_zero hne
        cases needle with
        | nil => simp
        | cons y ys => exact List.suffix_cons y _
      obtain ⟨hfound, hle, hstop, hmax⟩ := ih (by omega) (by omega) (by omega)
        (hentry.ends.trans (hpart.trans hends)) fun k hk hsuffix hget => by
          have hkm := hbest k hk hsuffix hget
          have hkne : k ≠ m := by
            rintro rfl
            exact hnext hget
          have hborder : needle.take k <:+ needle.take m :=
            List.suffix_of_suffix_length_le hsuffix hends (by simp only [List.length_take]; omega)
          exact hentry.max k hk.le (suffix_tail hlen (by omega) hborder)
      exact ⟨hfound, by omega, hstop, hmax⟩

theorem fall_le (htable : TableOk needle table) (left : Nat) (hm : m ≤ table.length) :
    fall needle table x left m ≤ m := by
  induction left generalizing m with
  | zero => exact le_rfl
  | succ left ih =>
    rw [fall]
    split
    · exact le_rfl
    · next hfall =>
      rw [not_or] at hfall
      have hentry := htable.getD_le (j := m - 1) (by omega)
      have hrest := ih (m := table.getD (m - 1) 0) (by omega)
      omega

theorem advance_le (htable : TableOk needle table) (hm : m ≤ table.length) :
    advance needle table m x ≤ m + 1 := by
  have hfall := fall_le (x := x) htable m hm
  rw [advance]
  split <;> omega

/-- One step keeps track of the longest prefix. -/
theorem advance_longest (htable : TableOk needle table) (hm : m ≤ table.length)
    (h : Longest needle text m) (x : α) :
    Longest needle (text ++ [x]) (advance needle table m x) := by
  obtain ⟨hends, hle, hstop, hmax⟩ := fall_spec (x := x) htable le_rfl hm h.le h.ends
    fun k hk hsuffix _ => h.max k hk.le hsuffix
  have hbound : ∀ n, (∀ k < needle.length, needle.take k <:+ text → needle[k]? = some x →
      k + 1 ≤ n) → ∀ k ≤ needle.length, needle.take k <:+ text ++ [x] → k ≤ n := by
    intro n hn k hk hsuffix
    cases k with
    | zero => exact Nat.zero_le n
    | succ k =>
      obtain ⟨hget, hshort⟩ := (take_succ_suffix_concat hk).mp hsuffix
      exact hn k hk hshort hget
  rw [advance]
  split
  · next hget =>
    have hlt := (List.getElem?_eq_some_iff.mp hget).1
    refine ⟨hlt, (take_succ_suffix_concat hlt).mpr ⟨hget, hends⟩, hbound _ fun k hk hsuffix hx => ?_⟩
    have := hmax k hk hsuffix hx
    omega
  · next hget =>
    have hzero := hstop.resolve_right hget
    rw [hzero] at hget hmax ⊢
    refine ⟨Nat.zero_le _, by simp, hbound 0 fun k hk hsuffix hx => ?_⟩
    have hk0 := Nat.le_zero.mp (hmax k hk hsuffix hx)
    exact absurd (hk0 ▸ hx) hget

omit [DecidableEq α] in
theorem TableOk.concat {done rest : List α} (htable : TableOk needle table)
    (hsplit : needle.tail = done ++ rest) (hlen : table.length = done.length)
    (h : Longest needle done m) : TableOk needle (table ++ [m]) := by
  intro j hj
  rw [List.length_append, List.length_singleton] at hj
  by_cases hlast : j < table.length
  · rw [List.getD_eq_getElem?_getD, List.getElem?_append_left hlast, ← List.getD_eq_getElem?_getD]
    exact htable j hlast
  · have htake : needle.tail.take j = done := by
      rw [show j = done.length by omega, hsplit, List.take_left]
    rw [htake, List.getD_eq_getElem?_getD, List.getElem?_append_right (by omega),
      show j - table.length = 0 by omega]
    exact h

theorem tableFrom_ok {done rest : List α} (hsplit : needle.tail = done ++ rest)
    (htable : TableOk needle table) (hlen : table.length = done.length + 1)
    (h : Longest needle done m) :
    TableOk needle (tableFrom needle rest table m) ∧
      (tableFrom needle rest table m).length = needle.tail.length + 1 := by
  induction rest generalizing done table m with
  | nil => exact ⟨htable, by simp [tableFrom, hlen, hsplit]⟩
  | cons x rest ih =>
    have hm : m ≤ table.length := by
      have hends := h.ends.length_le
      have hle := h.le
      rw [List.length_take] at hends
      omega
    have hnext := advance_longest htable hm h x
    have hsplit' : needle.tail = (done ++ [x]) ++ rest := by simp [hsplit]
    exact ih hsplit' (htable.concat hsplit' (by simp [hlen]) hnext) (by simp [hlen]) hnext

omit [DecidableEq α] in
theorem longest_nil (needle : List α) : Longest needle [] 0 := by
  refine ⟨Nat.zero_le _, by simp, fun k hk hsuffix => ?_⟩
  have hlen := hsuffix.length_le
  simp only [List.length_take, List.length_nil] at hlen
  omega

omit [DecidableEq α] in
theorem tableOk_singleton (needle : List α) : TableOk needle [0] := by
  intro j hj
  have hzero : j = 0 := by simpa using hj
  subst hzero
  exact longest_nil needle

theorem prefixTable_ok (needle : List α) : TableOk needle (prefixTable needle) ∧
    (prefixTable needle).length = needle.tail.length + 1 := by
  have hsplit : needle.tail = [] ++ needle.tail := rfl
  exact tableFrom_ok hsplit (tableOk_singleton needle) rfl (longest_nil needle)

theorem searchFrom_iff (htable : TableOk needle table) (hlen : table.length = needle.tail.length + 1)
    {xs : List α} (hm : m < needle.length) (h : Longest needle text m) :
    searchFrom needle table xs m = true ↔ ∃ n, 0 < n ∧ n ≤ xs.length ∧ needle <:+ text ++ xs.take n := by
  induction xs generalizing text m with
  | nil =>
    simp only [searchFrom, Bool.false_eq_true, List.length_nil, false_iff, not_exists]
    omega
  | cons x xs ih =>
    have hnext := advance_longest htable (by rw [hlen, List.length_tail]; omega) h x
    simp only [searchFrom]
    split
    · next hfull =>
      refine iff_of_true rfl ⟨1, by omega, by simp, ?_⟩
      have hends := hnext.ends
      rw [hfull, List.take_length] at hends
      simpa using hends
    · next hshort =>
      have hlt : advance needle table m x < needle.length := by
        have := hnext.le
        omega
      rw [ih hlt hnext]
      constructor
      · rintro ⟨n, hpos, hn, hsuffix⟩
        exact ⟨n + 1, by omega, by simpa using hn, by simpa using hsuffix⟩
      · rintro ⟨n, hpos, hn, hsuffix⟩
        cases n with
        | zero => omega
        | succ n =>
          rcases Nat.eq_zero_or_pos n with rfl | hpos'
          · have hmax := hnext.max needle.length le_rfl
              (by rw [List.take_length]; simpa using hsuffix)
            omega
          · exact ⟨n, hpos', by simpa using hn, by simpa using hsuffix⟩

/-- The search finds exactly what is there. -/
theorem contains_iff (needle haystack : List α) :
    contains needle haystack = true ↔ needle <:+: haystack := by
  rw [contains]
  split
  · next hempty =>
    rw [List.isEmpty_iff] at hempty
    simp [hempty]
  · next hne =>
    have hpos : 0 < needle.length := List.length_pos_iff.mpr (by simpa using hne)
    obtain ⟨htable, hlen⟩ := prefixTable_ok needle
    rw [searchFrom_iff htable hlen hpos (longest_nil needle)]
    simp only [List.nil_append]
    constructor
    · rintro ⟨n, -, -, hsuffix⟩
      exact hsuffix.isInfix.trans (List.take_prefix n haystack).isInfix
    · rintro ⟨front, back, rfl⟩
      refine ⟨(front ++ needle).length, by simp; omega, by simp, ?_⟩
      rw [List.take_left]
      exact List.suffix_append front needle

end Correct

end Matching
