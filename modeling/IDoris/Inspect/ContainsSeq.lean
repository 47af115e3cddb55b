import IDoris.Library.Matching

/-!
# The substring search, index by index

The search as the source runs it: a table as long as the pattern, filled in place, indices
that are checked, and `while` loops that stop the program when they use up their fuel.
-/
namespace Inspect

open Matching

/-- Why a run ends without an answer. -/
inductive Fault where
  | outOfRange
  | outOfFuel

section Program

variable {α : Type}

def index (xs : List α) (i : Nat) : Except Fault α :=
  match xs[i]? with
  | some x => .ok x
  | none => .error .outOfRange

def assign (xs : List α) (i : Nat) (x : α) : Except Fault (List α) :=
  if i < xs.length then .ok (xs.set i x) else .error .outOfRange

variable [DecidableEq α] (fuel : Nat) (needle : List α)

/-- The inner loop of both passes. -/
def fallBack (table : List Nat) (value : α) : (fuel matched : Nat) → Except Fault Nat
  | 0, _ => .error .outOfFuel
  | fuel + 1, matched =>
    if matched > 0 then do
      if value ≠ (← index needle matched) then
        fallBack table value fuel (← index table (matched - 1))
      else return matched
    else return matched

/-- The first pass, from the indices that are left. -/
def fillPrefix : (indices : List Nat) → (table : List Nat) → (matched : Nat) →
    Except Fault (List Nat)
  | [], table, _ => return table
  | i :: rest, table, matched => do
    let value ← index needle i
    let matched ← fallBack needle table value fuel matched
    let matched := if value = (← index needle matched) then matched + 1 else matched
    fillPrefix rest (← assign table i matched) matched

/-- The second pass, over the values that are left. -/
def scanHaystack (table : List Nat) : (haystack : List α) → (matched : Nat) → Except Fault Bool
  | [], _ => return false
  | value :: rest, matched => do
    let matched ← fallBack needle table value fuel matched
    if value = (← index needle matched) then
      if matched + 1 = needle.length then return true else scanHaystack table rest (matched + 1)
    else scanHaystack table rest matched

/-- Each inner loop may check its condition `fuel` times. -/
def containsSeq (haystack needle : List α) : Except Fault Bool :=
  if needle.isEmpty then return true else do
    let table ← fillPrefix fuel needle (List.range' 1 (needle.length - 1))
      (List.replicate needle.length 0) 0
    scanHaystack fuel needle table haystack 0

end Program

section Refinement

variable {α : Type} [DecidableEq α] {needle : List α} {table filled : List Nat} {value : α}
  {fuel m : Nat}

omit [DecidableEq α] in
theorem index_of_lt {xs : List α} {i : Nat} (h : i < xs.length) : index xs i = .ok xs[i] := by
  rw [index, List.getElem?_eq_getElem h]

/-- The loop falls as often as the prefix is long, and only through entries that are filled. -/
theorem fallBack_eq (htable : TableOk needle filled) (hfilled : filled <+: table) {left : Nat}
    (hleft : m ≤ left) (hm : m ≤ filled.length) (hlt : m < needle.length) (hfuel : m < fuel) :
    fallBack needle table value fuel m = .ok (fall needle filled value left m) := by
  induction left generalizing fuel m with
  | zero =>
    obtain ⟨fuel, rfl⟩ := Nat.exists_eq_succ_of_ne_zero (show fuel ≠ 0 by omega)
    rw [fallBack, if_neg (by omega)]
    rfl
  | succ left ih =>
    obtain ⟨fuel, rfl⟩ := Nat.exists_eq_succ_of_ne_zero (show fuel ≠ 0 by omega)
    rw [fallBack, fall]
    by_cases hzero : m = 0
    · rw [if_neg (by omega), if_pos (.inl hzero)]
      rfl
    · rw [if_pos (by omega), index_of_lt hlt]
      simp only [bind, Except.bind]
      by_cases hsame : value = needle[m]
      · rw [if_neg (not_not.mpr hsame), if_pos (.inr (by rw [List.getElem?_eq_getElem hlt, hsame]))]
        rfl
      · have hnext : ¬(m = 0 ∨ needle[m]? = some value) := by
          rw [List.getElem?_eq_getElem hlt, Option.some.injEq]
          exact not_or.mpr ⟨hzero, fun h => hsame h.symm⟩
        have hin : m - 1 < filled.length := by omega
        have hentry := htable.getD_le hin
        have hread : index table (m - 1) = .ok (filled.getD (m - 1) 0) := by
          rw [index_of_lt (Nat.lt_of_lt_of_le hin hfilled.length_le), ← hfilled.getElem hin,
            List.getD_eq_getElem?_getD, List.getElem?_eq_getElem hin, Option.getD_some]
        rw [if_pos hsame, if_neg hnext, hread]
        exact ih (by omega) (by omega) (by omega) (by omega)

/-- The comparison after the loop. -/
theorem index_fall {x : α} (htable : TableOk needle filled) (hm : m ≤ filled.length)
    (hlt : m < needle.length) : ∃ expected,
      index needle (fall needle filled x m m) = .ok expected ∧
      needle[fall needle filled x m m]? = some expected := by
  have hfall := fall_le (x := x) htable m hm
  have hin : fall needle filled x m m < needle.length := by omega
  exact ⟨_, index_of_lt hin, List.getElem?_eq_getElem hin⟩

theorem scanHaystack_eq (htable : TableOk needle table) (hlen : table.length = needle.length)
    (hfuel : needle.length ≤ fuel) (haystack : List α) (hm : m < needle.length) :
    scanHaystack fuel needle table haystack m = .ok (searchFrom needle table haystack m) := by
  induction haystack generalizing m with
  | nil => rfl
  | cons value rest ih =>
    have hm' : m ≤ table.length := by omega
    have hfall := fall_le (x := value) htable m hm'
    obtain ⟨expected, hindex, hget⟩ := index_fall (x := value) htable hm' hm
    have hloop : fallBack needle table value fuel m = .ok (fall needle table value m m) :=
      fallBack_eq htable List.prefix_rfl le_rfl (by omega) hm (by omega)
    rw [scanHaystack, hloop]
    simp only [bind, Except.bind, hindex, searchFrom, advance, hget, Option.some.injEq]
    by_cases hsame : value = expected
    · rw [if_pos hsame, if_pos hsame.symm]
      by_cases hfull : fall needle table value m m + 1 = needle.length
      · rw [if_pos hfull, if_pos hfull]
        rfl
      · rw [if_neg hfull, if_neg hfull]
        exact ih (by omega)
    · rw [if_neg hsame, if_neg (Ne.symm hsame), if_neg (by omega)]
      exact ih (by omega)

/-- The entries are filled in order. -/
theorem assign_prefix (hfilled : filled <+: table) (hlt : filled.length < table.length) (n : Nat) :
    ∃ table', assign table filled.length n = .ok table' ∧ filled ++ [n] <+: table' ∧
      table'.length = table.length := by
  refine ⟨table.set filled.length n, if_pos hlt, ?_, List.length_set⟩
  obtain ⟨rest, rfl⟩ := hfilled
  cases rest with
  | nil => simp at hlt
  | cons entry rest =>
    refine ⟨rest, ?_⟩
    simp

theorem fillPrefix_eq {done rest : List α} (hsplit : needle.tail = done ++ rest)
    (htable : TableOk needle filled) (hfilled : filled <+: table)
    (hlen : filled.length = done.length + 1) (hwhole : table.length = needle.length)
    (hlongest : Longest needle done m) (hfuel : needle.length ≤ fuel) :
    ∃ table', fillPrefix fuel needle (List.range' (done.length + 1) rest.length) table m =
        .ok table' ∧ tableFrom needle rest filled m <+: table' ∧ table'.length = needle.length := by
  induction rest generalizing done filled table m with
  | nil => exact ⟨table, rfl, hfilled, hwhole⟩
  | cons value rest ih =>
    have htotal : needle.length = done.length + rest.length + 2 := by
      have htail := congrArg List.length hsplit
      rw [List.length_tail, List.length_append, List.length_cons] at htail
      omega
    have hm : m ≤ done.length := by
      have hends := hlongest.ends.length_le
      have hle := hlongest.le
      rw [List.length_take] at hends
      omega
    have hvalue : index needle (done.length + 1) = .ok value := by
      have hget : needle.tail[done.length]? = some value := by rw [hsplit]; simp
      rw [List.getElem?_tail] at hget
      rw [index, hget]
    have hadvance := advance_le (x := value) htable (m := m) (by omega)
    obtain ⟨expected, hindex, hget⟩ := index_fall (x := value) htable (m := m) (by omega)
      (by omega)
    obtain ⟨table', hassign, hfilled', hwhole'⟩ :=
      assign_prefix hfilled (by omega) (advance needle filled m value)
    have hcompare : (if value = expected then fall needle filled value m m + 1
        else fall needle filled value m m) = advance needle filled m value := by
      simp only [advance, hget, Option.some.injEq]
      by_cases hsame : value = expected
      · rw [if_pos hsame, if_pos hsame.symm]
      · rw [if_neg hsame, if_neg (Ne.symm hsame)]
    have hloop : fallBack needle table value fuel m = .ok (fall needle filled value m m) :=
      fallBack_eq htable hfilled le_rfl (by omega) (by omega) (by omega)
    rw [hlen] at hassign
    rw [List.length_cons, List.range'_succ, fillPrefix, hvalue]
    simp only [bind, Except.bind]
    rw [hloop]
    simp only [hindex, hcompare, hassign]
    have hsplit' : needle.tail = (done ++ [value]) ++ rest := by rw [hsplit]; simp
    have hnext := advance_longest htable (by omega) hlongest value
    have hstep := ih hsplit' (htable.concat hsplit' (by rw [hlen]; simp) hnext) hfilled' (by simp [hlen])
      (hwhole'.trans hwhole) hnext
    rw [List.length_append, List.length_singleton] at hstep
    exact hstep

theorem fillPrefix_table (hpos : 0 < needle.length) (hfuel : needle.length ≤ fuel) :
    fillPrefix fuel needle (List.range' 1 (needle.length - 1)) (List.replicate needle.length 0) 0 =
      .ok (prefixTable needle) := by
  have hfirst : [0] <+: List.replicate needle.length 0 := by
    obtain ⟨n, hn⟩ := Nat.exists_eq_succ_of_ne_zero (show needle.length ≠ 0 by omega)
    rw [hn, List.replicate_succ]
    exact ⟨_, rfl⟩
  have hsplit : needle.tail = [] ++ needle.tail := rfl
  obtain ⟨table, hfill, hprefix, hlen⟩ := fillPrefix_eq hsplit (tableOk_singleton needle) hfirst rfl
    List.length_replicate (longest_nil needle) hfuel
  rw [List.length_tail] at hfill
  rw [prefixTable, hprefix.eq_of_length]
  · exact hfill
  · have hwhole := (prefixTable_ok needle).2
    rw [List.length_tail] at hwhole
    rw [prefixTable] at hwhole
    omega

/-- The loops terminate, no index is out of range, and the answer is whether the needle is
somewhere in the haystack. -/
theorem containsSeq_eq (haystack needle : List α) (more : Nat) :
    containsSeq (needle.length + more) haystack needle = .ok (decide (needle <:+: haystack)) := by
  have hanswer : contains needle haystack = decide (needle <:+: haystack) := by
    rw [Bool.eq_iff_iff, contains_iff, decide_eq_true_iff]
  rw [← hanswer, containsSeq, contains]
  split
  · rfl
  · next hne =>
    have hpos : 0 < needle.length := List.length_pos_iff.mpr (by simpa using hne)
    obtain ⟨htable, hlen⟩ := prefixTable_ok needle
    rw [fillPrefix_table hpos (Nat.le_add_right _ more)]
    refine scanHaystack_eq htable ?_ (Nat.le_add_right _ more) haystack hpos
    rw [hlen, List.length_tail]
    omega

end Refinement

end Inspect
