import Mathlib.Algebra.Order.BigOperators.Group.List
import Mathlib.Algebra.Order.Ring.Int
import Mathlib.Tactic.Common

/-!
# Integers of a fixed width

A value carries the proof that it fits, so no arithmetic below can leave the
range unnoticed: the checked operations return `none` instead, and the
saturating ones clamp.
-/
namespace Bounded

/-- A two's-complement 64-bit integer, by its mathematical value. -/
structure I64 where
  val : Int
  lower : -2 ^ 63 ≤ val
  upper : val < 2 ^ 63
  deriving DecidableEq

namespace I64

@[ext] theorem ext' {a b : I64} (h : a.val = b.val) : a = b := by
  cases a; cases b; simp_all

/-- The literal `n`; only numbers in the range are written so. -/
def lit (n : Int) : I64 :=
  if h : -2 ^ 63 ≤ n ∧ n < 2 ^ 63 then ⟨n, h.1, h.2⟩ else ⟨0, by decide, by decide⟩

@[simp] theorem lit_val (n : Int) (lower : -9223372036854775808 ≤ n)
    (upper : n < 9223372036854775808) : (lit n).val = n := by
  rw [lit, dif_pos ⟨lower, upper⟩]

/-- The value itself when it fits, nothing otherwise. -/
def checked (n : Int) : Option I64 :=
  if h : -2 ^ 63 ≤ n ∧ n < 2 ^ 63 then some ⟨n, h.1, h.2⟩ else none

/-- The nearest value that fits. -/
def clamp (n : Int) : I64 :=
  if h : n < -2 ^ 63 then lit (-2 ^ 63)
  else if h' : 2 ^ 63 ≤ n then lit (2 ^ 63 - 1)
  else ⟨n, by omega, by omega⟩

/-- Subtraction modulo `2 ^ 64`. -/
def wrappingSub (a b : I64) : I64 where
  val := (a.val - b.val).bmod (2 ^ 64)
  lower := by
    have := Int.le_bmod (x := a.val - b.val) (m := 2 ^ 64) (by decide)
    simpa using this
  upper := by
    have := Int.bmod_lt (x := a.val - b.val) (m := 2 ^ 64) (by decide)
    omega

def checkedAdd (a b : I64) : Option I64 := checked (a.val + b.val)
def checkedMul (a b : I64) : Option I64 := checked (a.val * b.val)

theorem checked_eq_some {n : Int} {a : I64} : checked n = some a ↔ a.val = n := by
  unfold checked
  constructor
  · intro h
    split at h
    · cases h; rfl
    · cases h
  · intro h
    have hfits : -2 ^ 63 ≤ n ∧ n < 2 ^ 63 := by
      have := a.lower
      have := a.upper
      omega
    rw [dif_pos hfits]
    congr 1
    exact ext' h.symm

/-- A count below `2 ^ 63` converts. -/
theorem checked_natCast {n : Nat} (h : n < 2 ^ 63) :
    ∃ a : I64, checked n = some a ∧ a.val = n := by
  have hfits : -2 ^ 63 ≤ (n : Int) ∧ (n : Int) < 2 ^ 63 := by omega
  exact ⟨⟨n, hfits.1, hfits.2⟩, dif_pos hfits, rfl⟩

@[simp] theorem checkedAdd_eq_some {a b c : I64} :
    checkedAdd a b = some c ↔ c.val = a.val + b.val := checked_eq_some

@[simp] theorem checkedMul_eq_some {a b c : I64} :
    checkedMul a b = some c ↔ c.val = a.val * b.val := checked_eq_some

/-- A positive difference that wraps around comes out too small. -/
theorem wrappingSub_le {a b : I64} (h : b.val < a.val) :
    (wrappingSub a b).val ≤ a.val - b.val := by
  have hdef : (wrappingSub a b).val = (a.val - b.val).bmod (2 ^ 64) := rfl
  rw [hdef, Int.bmod_def]
  omega

theorem clamp_val (n : Int) : (clamp n).val = max (-2 ^ 63) (min n (2 ^ 63 - 1)) := by
  unfold clamp
  split
  · rw [lit_val _ (by decide) (by decide)]; omega
  · split
    · rw [lit_val _ (by decide) (by decide)]; omega
    · simp only; omega

/-- Left-to-right summation that stops at the first partial sum that does not fit. -/
def sum : List I64 → Option I64 := go (lit 0)
where
  go (acc : I64) : List I64 → Option I64
    | [] => some acc
    | x :: xs => (checkedAdd acc x).bind fun acc => go acc xs

theorem sum_go_eq_some {acc s : I64} {xs : List I64} (h : sum.go acc xs = some s) :
    s.val = acc.val + (xs.map I64.val).sum := by
  induction xs generalizing acc with
  | nil => cases h; simp
  | cons x xs ih =>
    simp only [sum.go, Option.bind_eq_some_iff, checkedAdd_eq_some] at h
    obtain ⟨next, hnext, hrest⟩ := h
    rw [ih hrest, hnext, List.map_cons, List.sum_cons]
    omega

theorem sum_go_of_fits {acc : I64} {xs : List I64} (hacc : 0 ≤ acc.val)
    (hxs : ∀ x ∈ xs, 0 ≤ x.val) (hfits : acc.val + (xs.map I64.val).sum < 2 ^ 63) :
    ∃ s, sum.go acc xs = some s := by
  induction xs generalizing acc with
  | nil => exact ⟨acc, rfl⟩
  | cons x xs ih =>
    have hx : 0 ≤ x.val := hxs x (by simp)
    have hrest : ∀ y ∈ xs, 0 ≤ y.val := fun y hy => hxs y (by simp [hy])
    have hsum : 0 ≤ (xs.map I64.val).sum := List.sum_nonneg (by simpa using hrest)
    rw [List.map_cons, List.sum_cons] at hfits
    have hnext : checkedAdd acc x = some ⟨acc.val + x.val, by omega, by omega⟩ := by
      rw [checkedAdd_eq_some]
    obtain ⟨s, hs⟩ := @ih ⟨acc.val + x.val, by omega, by omega⟩ (by simp only; omega) hrest
      (by simp only; omega)
    exact ⟨s, by simp only [sum.go, hnext, Option.bind_some, hs]⟩

/-- A sum that fits is the sum over the unbounded integers. -/
theorem sum_eq_some {s : I64} {xs : List I64} (h : sum xs = some s) :
    s.val = (xs.map I64.val).sum := by
  simpa using sum_go_eq_some h

/-- Amounts that are not negative sum up exactly when their sum fits. -/
theorem sum_of_fits {xs : List I64} (hxs : ∀ x ∈ xs, 0 ≤ x.val)
    (hfits : (xs.map I64.val).sum < 2 ^ 63) : ∃ s, sum xs = some s :=
  sum_go_of_fits (by simp) hxs (by simpa using hfits)

end I64

/-- An unsigned 128-bit integer, by its mathematical value. -/
structure U128 where
  val : Nat
  upper : val < 2 ^ 128
  deriving DecidableEq

namespace U128

def zero : U128 := ⟨0, by decide⟩

def ofUInt64 (n : UInt64) : U128 :=
  ⟨n.toNat, Nat.lt_trans n.toNat_lt (by decide)⟩

def checked (n : Nat) : Option U128 := if h : n < 2 ^ 128 then some ⟨n, h⟩ else none

def checkedAdd (a b : U128) : Option U128 := checked (a.val + b.val)

def saturatingAdd (a b : U128) : U128 := ⟨min (a.val + b.val) (2 ^ 128 - 1), by omega⟩

def saturatingSub (a b : U128) : U128 := ⟨a.val - b.val, by have := a.upper; omega⟩

def max (a b : U128) : U128 := if b.val < a.val then a else b

variable {a b c : U128}

theorem checkedAdd_eq_some : checkedAdd a b = some c ↔ c.val = a.val + b.val := by
  unfold checkedAdd checked
  constructor
  · intro h
    split at h
    · cases h
      rfl
    · cases h
  · intro h
    have hupper := c.upper
    rw [dif_pos (h ▸ hupper)]
    congr 1
    cases c
    congr 1
    exact h.symm

theorem saturatingAdd_le : (saturatingAdd a b).val ≤ a.val + b.val := Nat.min_le_left _ _

@[simp] theorem saturatingSub_val : (saturatingSub a b).val = a.val - b.val := rfl

@[simp] theorem zero_val : zero.val = 0 := rfl

theorem max_val : (max a b).val = Max.max a.val b.val := by
  unfold max
  split <;> omega

end U128

end Bounded
