import Mathlib.Algebra.BigOperators.Group.List.Basic
import Mathlib.Algebra.Order.Floor.Semifield
import IDoris.Library.Binary64
import IDoris.Supervisor.Capacity

/-!
# The exact size of a capacity

A size given by its bits is converted to exactly its number of units, rounded to a whole one.
So allocations that fit a budget in units fit it as numbers.
-/
namespace Supervisor

open Bounded

section Floats

/-- `f64` as the program uses it: a NaN operand of `max` and `min` gives the other one. -/
instance : Gigabytes Binary64 where
  zero := .zero
  add := Binary64.add
  sub := Binary64.sub
  max a b := if a.isNaN then b else if b.isNaN then a else if a.lt b then b else a
  min a b := if a.isNaN then b else if b.isNaN then a else if b.lt a then b else a
  abs a := ⟨a.bits &&& (((1 : UInt64) <<< 63) - 1)⟩
  le := Binary64.le
  lt := Binary64.lt
  beq := Binary64.beq
  isFinite := Binary64.isFinite
  decode := Binary64.decode
  ofUnits units := .rounded ((Binary64.rounded units).toRat / 10 ^ 9)
  epsilon := .rounded (1 / 10 ^ 6)
  render a := toString (Float.ofBits a.bits)

theorem le_self {a : Binary64} (h : Binary64.zero.le a = true) : a.le a = true :=
  Binary64.le_iff.mpr ⟨(Binary64.zero_le.mp h).1, (Binary64.zero_le.mp h).1, le_rfl⟩

theorem le_of_not_lt {a b : Binary64} (ha : a.isNaN = false) (hb : b.isNaN = false)
    (h : ¬a.lt b = true) : b.le a = true := by
  rw [Binary64.lt_iff] at h
  exact Binary64.le_iff.mpr ⟨hb, ha, not_lt.mp fun hlt => h ⟨ha, hb, hlt⟩⟩

/-- What the accounting relies on holds of the numbers of the program. -/
instance : LawfulGigabytes Binary64 where
  zero_nonneg := by decide
  beq_refl a h := Binary64.beq_iff.mpr
    ⟨Binary64.not_isNaN_of_isFinite h, Binary64.not_isNaN_of_isFinite h, rfl⟩
  nonneg a h := by
    obtain ⟨hfinite, hlt⟩ := Bool.or_eq_false_iff.mp h
    rw [Bool.not_eq_false'] at hfinite
    have hnan := Binary64.not_isNaN_of_isFinite hfinite
    exact le_of_not_lt hnan (by decide) (Bool.eq_false_iff.mp hlt)
  add_nonneg a b := Binary64.zero_le_add
  le_refl a := le_self
  le_trans a b c hab hbc := by
    obtain ⟨ha, -, hle⟩ := Binary64.le_iff.mp hab
    obtain ⟨-, hc, hle'⟩ := Binary64.le_iff.mp hbc
    exact Binary64.le_iff.mpr ⟨ha, hc, hle.trans hle'⟩
  le_of_lt a b h := by
    obtain ⟨ha, hb, hlt⟩ := Binary64.lt_iff.mp h
    exact Binary64.le_iff.mpr ⟨ha, hb, hlt.le⟩
  le_of_beq a b h := by
    obtain ⟨ha, hb, heq⟩ := Binary64.beq_iff.mp h
    exact Binary64.le_iff.mpr ⟨ha, hb, heq.le⟩
  le_max_left a b h := by
    have ha := (Binary64.zero_le.mp h).1
    change a.le (if a.isNaN then b else if b.isNaN then a else if a.lt b then b else a) = true
    rw [ha]
    cases hb : b.isNaN with
    | true => exact le_self h
    | false =>
      simp only [Bool.false_eq_true, if_false]
      split
      · next hlt => exact Binary64.le_iff.mpr ⟨ha, hb, (Binary64.lt_iff.mp hlt).2.2.le⟩
      · exact le_self h
  le_max_right a b h := by
    have hb := (Binary64.zero_le.mp h).1
    change b.le (if a.isNaN then b else if b.isNaN then a else if a.lt b then b else a) = true
    rw [hb]
    cases ha : a.isNaN with
    | true => exact le_self h
    | false =>
      simp only [Bool.false_eq_true, if_false]
      split
      · exact le_self h
      · next hlt => exact le_of_not_lt ha hb hlt

end Floats

section Exact

variable {field : String} {value : Binary64} {rounding : Rounding}

def Rounding.whole (rounding : Rounding) (q : ℚ) : Nat :=
  match rounding with
  | .down => ⌊q⌋₊
  | .up => ⌈q⌉₊

/-- A size in whole units, by exact arithmetic. -/
def Rounding.wholeUnits (rounding : Rounding) (size : ℚ) : Nat :=
  rounding.whole (size * capacityUnitsPerGb)

theorem whole_natCast (rounding : Rounding) (n : Nat) : rounding.whole n = n := by
  cases rounding with
  | down => exact Nat.floor_natCast n
  | up => exact Nat.ceil_natCast n

theorem whole_down (a b : Nat) : Rounding.down.whole (a / b) = a / b := Nat.floor_div_eq_div a b

theorem whole_up (a : Nat) {b : Nat} (hpos : 0 < b) :
    Rounding.up.whole (a / b) = if a % b ≠ 0 then a / b + 1 else a / b := by
  have hb : (0 : ℚ) < b := Nat.cast_pos.mpr hpos
  have hdivide := Nat.div_add_mod a b
  have hrest := Nat.mod_lt a hpos
  rw [Rounding.whole]
  split
  · next hremainder =>
    rw [Nat.ceil_eq_iff (Nat.succ_ne_zero _), Nat.succ_sub_one, lt_div_iff₀ hb, div_le_iff₀ hb]
    norm_cast
    constructor
    · rw [Nat.mul_comm]
      omega
    · rw [Nat.add_one_mul, Nat.mul_comm]
      omega
  · next hexact =>
    have hwhole : a = a / b * b := by
      rw [Nat.mul_comm]
      omega
    have hratio : (a : ℚ) / b = (a / b : Nat) := by
      rw [div_eq_iff hb.ne']
      exact_mod_cast hwhole
    rw [hratio, Nat.ceil_natCast]

/-- With an exponent that is not negative a size is a whole number of units. -/
theorem scaled_natCast (s scale n : Nat) :
    (s : ℚ) * 2 ^ (n : Int) * scale = (s * scale * 2 ^ n : Nat) := by
  push_cast
  rw [zpow_natCast]
  ring

theorem scaled_ratio (s scale k : Nat) :
    (s : ℚ) * 2 ^ (-(k : Int)) * scale = (s * scale : Nat) / (2 ^ k : Nat) := by
  push_cast
  rw [zpow_neg, zpow_natCast]
  ring

/-- The shift of the scaled significand is the exact size in units. -/
theorem shifted_eq (rounding : Rounding) (s scale : Nat) (e : Int) :
    rounding.shifted (s * scale) e = rounding.whole (s * 2 ^ e * scale) := by
  cases e with
  | ofNat n => rw [Int.ofNat_eq_natCast, scaled_natCast, whole_natCast]; rfl
  | negSucc n =>
    rw [Int.negSucc_eq, ← Nat.cast_succ, scaled_ratio]
    cases rounding with
    | down => rw [whole_down]; rfl
    | up => rw [whole_up _ (Nat.two_pow_pos _)]; rfl

theorem malformed_eq_false (hfinite : value.isFinite = true) (hnonneg : 0 ≤ value.toRat) :
    Gigabytes.malformed value = false := by
  have hlt : value.lt .zero = false := by
    rw [← Bool.not_eq_true, Binary64.lt_zero_iff hfinite]
    exact not_lt.mpr hnonneg
  change (!value.isFinite || value.lt .zero) = false
  rw [hfinite, hlt]
  rfl

theorem formed_of_ok {units : U128} (h : toCapacityUnits field value rounding = .ok units) :
    value.isFinite = true ∧ 0 ≤ value.toRat := by
  have hformed : (!value.isFinite || value.lt .zero) = false := (toCapacityUnits_ok h field).1
  rw [Bool.or_eq_false_iff, Bool.not_eq_false'] at hformed
  refine ⟨hformed.1, not_lt.mp fun hneg => ?_⟩
  rw [(Binary64.lt_zero_iff hformed.1).mpr hneg] at hformed
  cases hformed.2

/-- The conversion is exact: the whole number of units, or an error where it does not fit. -/
theorem toCapacityUnits_exact (hfinite : value.isFinite = true) (hnonneg : 0 ≤ value.toRat)
    (field : String) (rounding : Rounding) : toCapacityUnits field value rounding =
      (U128.checked (rounding.wholeUnits value.toRat)).elim
        (.error (capacityRangeError field value)) .ok := by
  have hformed := malformed_eq_false hfinite hnonneg
  by_cases hmagnitude : value.magnitude = 0
  · have hwhole : rounding.wholeUnits 0 = 0 := by
      rw [Rounding.wholeUnits, zero_mul]
      exact whole_natCast rounding 0
    have hnone : U128.checked 0 = some U128.zero := rfl
    rw [Binary64.toRat_of_magnitude_eq_zero hmagnitude, hwhole, hnone,
      toCapacityUnits_zero hformed ((Binary64.beq_zero hfinite).mpr hmagnitude)]
    rfl
  · have hnonzero : Gigabytes.beq value (Gigabytes.zero : Binary64) = false :=
      Bool.eq_false_iff.mpr fun hequal => hmagnitude ((Binary64.beq_zero hfinite).mp hequal)
    have hscale : capacityUnitsPerGb = 1000000000 := rfl
    have hs := value.significand_lt
    have hpos : value.decode.1 ≠ 0 := fun h => hmagnitude (Binary64.significand_eq_zero.mp h)
    have hsmall : (Gigabytes.decode value).1 * capacityUnitsPerGb < 2 ^ 128 := by
      change value.decode.1 * capacityUnitsPerGb < 2 ^ 128
      rw [hscale]
      omega
    have hscaled : 0 < (Gigabytes.decode value).1 * capacityUnitsPerGb := by
      change 0 < value.decode.1 * capacityUnitsPerGb
      rw [hscale]
      omega
    rw [toCapacityUnits_shifted hformed hnonzero hsmall hscaled, shifted_eq,
      Binary64.toRat_of_nonneg hfinite hnonneg]
    rfl

end Exact

section Budgets

variable {field : String} {value : Binary64} {rounding : Rounding} {units : U128}

theorem units_of_ok (h : toCapacityUnits field value rounding = .ok units) :
    units.val = rounding.wholeUnits value.toRat := by
  obtain ⟨hfinite, hnonneg⟩ := formed_of_ok h
  rw [toCapacityUnits_exact hfinite hnonneg] at h
  unfold U128.checked at h
  split at h
  · cases h
    rfl
  · cases h

theorem le_of_rounded_up (h : toCapacityUnits field value .up = .ok units) :
    value.toRat * capacityUnitsPerGb ≤ units.val := by
  rw [units_of_ok h]
  exact Nat.le_ceil _

theorem le_of_rounded_down (h : toCapacityUnits field value .down = .ok units) :
    (units.val : ℚ) ≤ value.toRat * capacityUnitsPerGb := by
  rw [units_of_ok h]
  exact Nat.floor_le (mul_nonneg (formed_of_ok h).2 (Nat.cast_nonneg _))

theorem sum_le_of_rounded_up {allocations : List (Binary64 × U128)}
    (h : ∀ a ∈ allocations, toCapacityUnits field a.1 .up = .ok a.2) :
    (allocations.map fun a => a.1.toRat).sum * capacityUnitsPerGb ≤
      ((allocations.map fun a => a.2.val).sum : Nat) := by
  induction allocations with
  | nil => simp
  | cons a allocations ih =>
    have hfirst := le_of_rounded_up (h a List.mem_cons_self)
    have hrest := ih fun b hb => h b (List.mem_cons_of_mem a hb)
    simp only [List.map_cons, List.sum_cons, Nat.cast_add, add_mul]
    exact add_le_add hfirst hrest

/-- Allocations that fit the budget in units fit it as numbers. -/
theorem fits_of_units {allocations : List (Binary64 × U128)} {budgetField : String}
    (hup : ∀ a ∈ allocations, toCapacityUnits field a.1 .up = .ok a.2)
    (hdown : toCapacityUnits budgetField value .down = .ok units)
    (hfits : (allocations.map fun a => a.2.val).sum ≤ units.val) :
    (allocations.map fun a => a.1.toRat).sum ≤ value.toRat := by
  have hpos : (0 : ℚ) < capacityUnitsPerGb := by
    rw [capacityUnitsPerGb]
    norm_num
  refine le_of_mul_le_mul_right ?_ hpos
  calc (allocations.map fun a => a.1.toRat).sum * capacityUnitsPerGb
    _ ≤ ((allocations.map fun a => a.2.val).sum : Nat) := sum_le_of_rounded_up hup
    _ ≤ (units.val : ℚ) := Nat.cast_le.mpr hfits
    _ ≤ value.toRat * capacityUnitsPerGb := le_of_rounded_down hdown

/-- A finite size that is not negative is converted exactly, and rounding the allocations up
and the budget down never admits more than the budget. -/
theorem capacity_units_exact (hfinite : value.isFinite = true) (hnonneg : 0 ≤ value.toRat) :
    (∀ field rounding, toCapacityUnits field value rounding =
      (U128.checked (rounding.wholeUnits value.toRat)).elim
        (.error (capacityRangeError field value)) .ok) ∧
    ∀ (allocations : List (Binary64 × U128)) (field budgetField : String) (budget : U128),
      (∀ a ∈ allocations, toCapacityUnits field a.1 .up = .ok a.2) →
      toCapacityUnits budgetField value .down = .ok budget →
      (allocations.map fun a => a.2.val).sum ≤ budget.val →
      (allocations.map fun a => a.1.toRat).sum ≤ value.toRat :=
  ⟨toCapacityUnits_exact hfinite hnonneg, fun _ _ _ _ => fits_of_units⟩

/-- A size of 1.5 GB. -/
def oneAndHalf : Binary64 := ⟨0x3ff8000000000000⟩

theorem capacity_units_exact_oneAndHalf :
    toCapacityUnits "budget_gb" oneAndHalf .down =
      (U128.checked (Rounding.down.wholeUnits oneAndHalf.toRat)).elim
        (.error (capacityRangeError "budget_gb" oneAndHalf)) .ok := by
  have hfinite : oneAndHalf.isFinite = true := by decide
  refine (capacity_units_exact hfinite ?_).1 "budget_gb" .down
  rw [← not_lt, ← Binary64.lt_zero_iff hfinite]
  decide

end Budgets

end Supervisor
