import Mathlib.Algebra.Order.Ring.Int
import Mathlib.Tactic.Common

/-!
# Decimal digits

Digit strings of one length are told apart by their values.
-/
namespace Decimal

/-- The digits of a number, with zeros in front up to a width. -/
def padded (width n : Nat) : List Char :=
  List.replicate (width - (Nat.toDigits 10 n).length) '0' ++ Nat.toDigits 10 n

variable {digits digits' : List Char} {c c' : Char} {width n : Nat}

theorem isDigit_range (h : c.isDigit = true) : 48 ≤ c.toNat ∧ c.toNat ≤ 57 :=
  Char.isDigit_iff_toNat.mp h

theorem ofDigitChars_cons_zero (c : Char) (digits : List Char) :
    Nat.ofDigitChars 10 (c :: digits) 0 =
      10 ^ digits.length * (c.toNat - 48) + Nat.ofDigitChars 10 digits 0 := by
  rw [Nat.ofDigitChars_cons, Nat.ofDigitChars_eq_ofDigitChars_zero]
  simp

theorem ofDigitChars_lt (h : ∀ c ∈ digits, c.isDigit = true) :
    Nat.ofDigitChars 10 digits 0 < 10 ^ digits.length := by
  induction digits with
  | nil => simp
  | cons c rest ih =>
    have hrest := ih fun c hc => h c (List.mem_cons_of_mem _ hc)
    have hc := isDigit_range (h c List.mem_cons_self)
    rw [ofDigitChars_cons_zero, List.length_cons, Nat.pow_succ]
    have hle : 10 ^ rest.length * (c.toNat - 48) ≤ 10 ^ rest.length * 9 :=
      Nat.mul_le_mul_left _ (by omega)
    omega

theorem digit_ext (h : c.isDigit = true) (h' : c'.isDigit = true)
    (heq : c.toNat - 48 = c'.toNat - 48) : c = c' := by
  have hrange := isDigit_range h
  have hrange' := isDigit_range h'
  exact Char.toNat_inj.mp (by omega)

/-- Digit strings of one length with one value are equal. -/
theorem ofDigitChars_inj (hlength : digits.length = digits'.length)
    (h : ∀ c ∈ digits, c.isDigit = true) (h' : ∀ c ∈ digits', c.isDigit = true)
    (hvalue : Nat.ofDigitChars 10 digits 0 = Nat.ofDigitChars 10 digits' 0) :
    digits = digits' := by
  induction digits generalizing digits' with
  | nil => exact (List.length_eq_zero_iff.mp hlength.symm).symm
  | cons c rest ih =>
    cases digits' with
    | nil => cases hlength
    | cons c' rest' =>
      have hlengths : rest.length = rest'.length := by simpa using hlength
      have hrest := fun c hc => h c (List.mem_cons_of_mem _ hc)
      have hrest' := fun c hc => h' c (List.mem_cons_of_mem _ hc)
      have hlt := ofDigitChars_lt hrest
      have hlt' := ofDigitChars_lt hrest'
      rw [ofDigitChars_cons_zero, ofDigitChars_cons_zero, ← hlengths] at hvalue
      rw [← hlengths] at hlt'
      have hhead : c.toNat - 48 = c'.toNat - 48 := by
        have := congrArg (· / 10 ^ rest.length) hvalue
        simpa [Nat.mul_add_div (Nat.pow_pos (by decide : 0 < 10)), Nat.div_eq_of_lt hlt,
          Nat.div_eq_of_lt hlt'] using this
      rw [digit_ext (h c List.mem_cons_self) (h' c' List.mem_cons_self) hhead]
      rw [hhead] at hvalue
      rw [ih hlengths hrest hrest' (by omega)]

theorem padded_isDigit : ∀ c ∈ padded width n, c.isDigit = true := by
  intro c hc
  obtain hc | hc := List.mem_append.mp hc
  · rw [(List.mem_replicate.mp hc).2]
    rfl
  · exact Nat.isDigit_of_mem_toDigits (by decide) (by decide) hc

theorem padded_length (hwidth : 0 < width) (hn : n < 10 ^ width) : (padded width n).length = width := by
  have hle := (Nat.length_toDigits_le_iff (by decide : 1 < 10) hwidth).mpr hn
  simp [padded]
  omega

@[simp] theorem padded_value (width n : Nat) : Nat.ofDigitChars 10 (padded width n) 0 = n := by
  simp [padded, Nat.ofDigitChars_append]

/-- Reading a number of a fixed width and writing it again gives the same digits. -/
theorem padded_ofDigitChars (hwidth : 0 < digits.length) (h : ∀ c ∈ digits, c.isDigit = true) :
    padded digits.length (Nat.ofDigitChars 10 digits 0) = digits :=
  ofDigitChars_inj (padded_length hwidth (ofDigitChars_lt h)) padded_isDigit h
    (padded_value _ _)

end Decimal
