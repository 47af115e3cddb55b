import Mathlib.Data.Int.Log
import Mathlib.Data.Rat.Floor
import Mathlib.Tactic.Linarith
import Mathlib.Tactic.Positivity
import Mathlib.Tactic.NormNum

/-!
# 64-bit binary floating-point numbers, by their bits

Sign, exponent and fraction of a word, the exact rational number they stand for, the comparison
of such words, and sums rounded to the nearest word.
-/

/-- A 64-bit floating-point number is its bits. -/
structure Binary64 where
  bits : UInt64
  deriving DecidableEq

namespace Binary64

def zero : Binary64 := ⟨0⟩

def exponentBits (x : Binary64) : Nat := ((x.bits >>> 52) &&& 0x7ff).toNat

def fraction (x : Binary64) : Nat := (x.bits &&& (((1 : UInt64) <<< 52) - 1)).toNat

def isNegative (x : Binary64) : Bool := x.bits >>> 63 == 1

def isFinite (x : Binary64) : Bool := x.exponentBits != 0x7ff

def isNaN (x : Binary64) : Bool := x.exponentBits == 0x7ff && x.fraction != 0

/-- The significand, with the leading bit of a normal number, and the binary exponent. -/
def decode (x : Binary64) : Nat × Int :=
  if x.exponentBits = 0 then (x.fraction, -1074)
  else ((1 <<< 52) ||| x.fraction, (x.exponentBits : Int) - 1023 - 52)

/-- The number a finite word stands for. -/
def toRat (x : Binary64) : ℚ :=
  (if x.isNegative then -1 else 1) * x.decode.1 * 2 ^ x.decode.2

/-- The bits below the sign: the larger they are, the larger is the number without it. -/
def magnitude (x : Binary64) : Nat := x.bits.toNat % 2 ^ 63

def signed (x : Binary64) : Int := if x.isNegative then -x.magnitude else x.magnitude

def lt (x y : Binary64) : Bool := !x.isNaN && !y.isNaN && decide (x.signed < y.signed)

def le (x y : Binary64) : Bool := !x.isNaN && !y.isNaN && decide (x.signed ≤ y.signed)

/-- The two zeros are equal. -/
def beq (x y : Binary64) : Bool := !x.isNaN && !y.isNaN && decide (x.signed = y.signed)

variable {x y : Binary64}

theorem exponentBits_eq (x : Binary64) : x.exponentBits = x.bits.toNat / 2 ^ 52 % 2 ^ 11 := by
  unfold exponentBits
  rw [UInt64.toNat_and, UInt64.toNat_shiftRight, Nat.shiftRight_eq_div_pow]
  exact Nat.and_two_pow_sub_one_eq_mod _ 11

theorem fraction_eq (x : Binary64) : x.fraction = x.bits.toNat % 2 ^ 52 := by
  unfold fraction
  rw [UInt64.toNat_and]
  exact Nat.and_two_pow_sub_one_eq_mod _ 52

theorem fraction_lt (x : Binary64) : x.fraction < 2 ^ 52 := by
  rw [fraction_eq]
  exact Nat.mod_lt _ (by norm_num)

theorem magnitude_eq (x : Binary64) : x.magnitude = x.exponentBits * 2 ^ 52 + x.fraction := by
  rw [magnitude, exponentBits_eq, fraction_eq]
  omega

theorem decode_of_normal (h : x.exponentBits ≠ 0) :
    x.decode = (2 ^ 52 + x.fraction, (x.exponentBits : Int) - 1023 - 52) := by
  rw [decode, if_neg h, show (1 <<< 52 : Nat) = 2 ^ 52 * 1 from rfl,
    ← Nat.two_pow_add_eq_or_of_lt x.fraction_lt, Nat.mul_one]

theorem significand_lt (x : Binary64) : x.decode.1 < 2 ^ 53 := by
  have hfraction := x.fraction_lt
  by_cases h : x.exponentBits = 0
  · rw [decode, if_pos h]
    omega
  · rw [decode_of_normal h]
    omega

theorem significand_eq_zero : x.decode.1 = 0 ↔ x.magnitude = 0 := by
  rw [magnitude_eq]
  by_cases h : x.exponentBits = 0
  · rw [decode, if_pos h, h]
    omega
  · rw [decode_of_normal h]
    omega

theorem not_isNaN_of_isFinite (h : x.isFinite = true) : x.isNaN = false := by
  simp only [isFinite, bne_iff_ne, ne_eq] at h
  simp [isNaN, h]

/-- A finite number is below zero when it has the sign and is not the zero that has it. -/
theorem lt_zero (h : x.isFinite = true) :
    x.lt zero = true ↔ x.isNegative = true ∧ x.magnitude ≠ 0 := by
  have hzero : zero.signed = 0 ∧ zero.isNaN = false := by decide
  rw [lt, not_isNaN_of_isFinite h, hzero.1, hzero.2]
  rw [Bool.not_false, Bool.true_and, Bool.true_and, decide_eq_true_eq, signed]
  split
  · next hsign =>
    simp only [hsign, true_and]
    omega
  · next hsign =>
    rw [Bool.eq_false_of_not_eq_true hsign]
    simp

theorem beq_zero (h : x.isFinite = true) : x.beq zero = true ↔ x.magnitude = 0 := by
  have hzero : zero.signed = 0 ∧ zero.isNaN = false := by decide
  rw [beq, not_isNaN_of_isFinite h, hzero.1, hzero.2]
  rw [Bool.not_false, Bool.true_and, Bool.true_and, decide_eq_true_eq, signed]
  split <;> omega

theorem toRat_of_magnitude_eq_zero (h : x.magnitude = 0) : x.toRat = 0 := by
  rw [toRat, significand_eq_zero.mpr h]
  simp

/-- The comparison with zero is that of the numbers. -/
theorem lt_zero_iff (h : x.isFinite = true) : x.lt zero = true ↔ x.toRat < 0 := by
  rw [lt_zero h, toRat]
  have hpower : (0 : ℚ) < 2 ^ x.decode.2 := zpow_pos (by norm_num) _
  have hsignificand : (x.decode.1 : ℚ) = 0 ↔ x.magnitude = 0 := by
    rw [Nat.cast_eq_zero, significand_eq_zero]
  have hnonneg : (0 : ℚ) ≤ x.decode.1 := Nat.cast_nonneg _
  constructor
  · rintro ⟨hsign, hmagnitude⟩
    have hpos : (0 : ℚ) < x.decode.1 :=
      lt_of_le_of_ne hnonneg fun heq => hmagnitude (hsignificand.mp heq.symm)
    rw [if_pos hsign, neg_one_mul, neg_mul, neg_lt_zero]
    exact mul_pos hpos hpower
  · intro hneg
    by_cases hsign : x.isNegative = true
    · refine ⟨hsign, fun hmagnitude => ?_⟩
      rw [hsignificand.mpr hmagnitude] at hneg
      simp at hneg
    · rw [if_neg hsign, one_mul] at hneg
      exact absurd hneg (not_lt.mpr (by positivity))

/-- A number that is not negative is its significand at its exponent. -/
theorem toRat_of_nonneg (h : x.isFinite = true) (hnonneg : 0 ≤ x.toRat) :
    x.toRat = x.decode.1 * 2 ^ x.decode.2 := by
  have hnot : ¬(x.isNegative = true ∧ x.magnitude ≠ 0) := by
    rw [← lt_zero h, lt_zero_iff h]
    exact not_lt.mpr hnonneg
  by_cases hmagnitude : x.magnitude = 0
  · rw [toRat_of_magnitude_eq_zero hmagnitude, significand_eq_zero.mpr hmagnitude]
    simp
  · have hsign : ¬x.isNegative = true := fun hsign => hnot ⟨hsign, hmagnitude⟩
    rw [toRat, if_neg hsign, one_mul]

section Order

theorem lt_iff : x.lt y = true ↔ x.isNaN = false ∧ y.isNaN = false ∧ x.signed < y.signed := by
  simp [lt, and_assoc]

theorem le_iff : x.le y = true ↔ x.isNaN = false ∧ y.isNaN = false ∧ x.signed ≤ y.signed := by
  simp [le, and_assoc]

theorem beq_iff : x.beq y = true ↔ x.isNaN = false ∧ y.isNaN = false ∧ x.signed = y.signed := by
  simp [beq, and_assoc]

theorem zero_le : zero.le x = true ↔ x.isNaN = false ∧ 0 ≤ x.signed := by
  have hzero : zero.isNaN = false ∧ zero.signed = 0 := by decide
  rw [le_iff, hzero.2, and_iff_right hzero.1]

theorem signed_nonneg (h : x.isNegative = false) : 0 ≤ x.signed := by
  rw [signed, h]
  exact Int.natCast_nonneg _

end Order

section Rounding

/-- The whole number nearest to one that is not negative, and of two the even one. -/
def nearest (q : ℚ) : Nat :=
  let n := ⌊q⌋₊
  if q - n < 1 / 2 ∨ q - n = 1 / 2 ∧ n % 2 = 0 then n else n + 1

/-- The exponent of the last digit that a number of this size keeps. -/
def lastPlace (q : ℚ) : Int := max (Int.log 2 q - 52) (-1074)

/-- The bits of the nearest number; what is too large is infinite. -/
def nearestMagnitude (q : ℚ) : Nat :=
  if q = 0 then 0
  else min ((lastPlace q + 1074).toNat * 2 ^ 52 + nearest (q / 2 ^ lastPlace q)) (0x7ff * 2 ^ 52)

def ofMagnitude (negative : Bool) (magnitude : Nat) : Binary64 :=
  ⟨UInt64.ofNat (if negative then 2 ^ 63 + magnitude else magnitude)⟩

def rounded (q : ℚ) : Binary64 := ofMagnitude (q < 0) (nearestMagnitude |q|)

def nan : Binary64 := ⟨0x7ff8000000000000⟩

def neg (x : Binary64) : Binary64 := ⟨x.bits ^^^ ((1 : UInt64) <<< 63)⟩

/-- Two zeros below zero add up to such a zero. -/
def add (x y : Binary64) : Binary64 :=
  if x.isNaN then x
  else if y.isNaN then y
  else if x.isFinite then
    if y.isFinite then
      if x.isNegative && y.isNegative && x.magnitude = 0 && y.magnitude = 0 then x
      else rounded (x.toRat + y.toRat)
    else y
  else if y.isFinite || x.isNegative = y.isNegative then x
  else nan

def sub (x y : Binary64) : Binary64 := x.add y.neg

theorem nearestMagnitude_le (q : ℚ) : nearestMagnitude q ≤ 0x7ff * 2 ^ 52 := by
  unfold nearestMagnitude
  split
  · exact Nat.zero_le _
  · exact Nat.min_le_right _ _

theorem ofMagnitude_nonneg {m : Nat} (h : m ≤ 0x7ff * 2 ^ 52) :
    zero.le (ofMagnitude false m) = true := by
  have hbits : (ofMagnitude false m).bits.toNat = m := by
    simp only [ofMagnitude, Bool.false_eq_true, if_false]
    exact UInt64.toNat_ofNat_of_lt' (by norm_num; omega)
  rw [zero_le]
  constructor
  · rw [isNaN, exponentBits_eq, fraction_eq, hbits, Bool.and_eq_false_iff, beq_eq_false_iff_ne,
      bne_eq_false_iff_eq]
    omega
  · refine signed_nonneg (beq_eq_false_iff_ne.mpr fun hsign => ?_)
    have hone := congrArg UInt64.toNat hsign
    rw [UInt64.toNat_shiftRight, hbits, Nat.shiftRight_eq_div_pow] at hone
    have hlow : m / 2 ^ 63 = 0 := Nat.div_eq_of_lt (by norm_num; omega)
    exact absurd (hlow.symm.trans hone) (by decide)

theorem toRat_nonneg (hfinite : x.isFinite = true) (h : 0 ≤ x.signed) : 0 ≤ x.toRat := by
  refine not_lt.mp fun hneg => ?_
  obtain ⟨hsign, hmagnitude⟩ := (lt_zero hfinite).mp ((lt_zero_iff hfinite).mpr hneg)
  rw [signed, if_pos hsign] at h
  omega

theorem not_isNegative (hinfinite : ¬x.isFinite = true) (h : 0 ≤ x.signed) :
    x.isNegative = false := by
  have hexponent : x.exponentBits = 0x7ff := by simpa [isFinite] using hinfinite
  have hmagnitude := x.magnitude_eq
  rw [← Bool.not_eq_true]
  intro hsign
  rw [signed, if_pos hsign] at h
  omega

/-- A sum of numbers that are not below zero is none. -/
theorem zero_le_add (hx : zero.le x = true) (hy : zero.le y = true) : zero.le (x.add y) = true := by
  obtain ⟨hxnan, hxsign⟩ := zero_le.mp hx
  obtain ⟨hynan, hysign⟩ := zero_le.mp hy
  unfold add
  rw [hxnan, hynan]
  simp only [Bool.false_eq_true, if_false]
  split
  · next hxfinite =>
    split
    · next hyfinite =>
      split
      · exact hx
      · have hsum := add_nonneg (toRat_nonneg hxfinite hxsign) (toRat_nonneg hyfinite hysign)
        rw [rounded, decide_eq_false (not_lt.mpr hsum)]
        exact ofMagnitude_nonneg (nearestMagnitude_le _)
    · exact hy
  · next hxinfinite =>
    split
    · exact hx
    · next hsigns =>
      simp only [Bool.or_eq_true, decide_eq_true_eq, not_or] at hsigns
      exact absurd ((not_isNegative hxinfinite hxsign).trans
        (not_isNegative hsigns.1 hysign).symm) hsigns.2

/-- A half and a quarter more than one and two, and the sum of a tenth and two tenths. -/
example : add ⟨0x3ff8000000000000⟩ ⟨0x4002000000000000⟩ = ⟨0x400e000000000000⟩ ∧
    add ⟨0x3fb999999999999a⟩ ⟨0x3fc999999999999a⟩ = ⟨0x3fd3333333333334⟩ := by
  decide +kernel

end Rounding

end Binary64
