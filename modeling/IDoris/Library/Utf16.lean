import Mathlib.Data.List.Basic
import Mathlib.Tactic.Common

/-!
# UTF-16

Strings as code units. A unit is a number; a character above the basic plane is a high
unit and a low one.
-/
namespace Utf16

def isHigh (u : Nat) : Bool := decide (0xD800 ≤ u ∧ u ≤ 0xDBFF)

def isLow (u : Nat) : Bool := decide (0xDC00 ≤ u ∧ u ≤ 0xDFFF)

/-- The scalar value of a pair. -/
def pairValue (high low : Nat) : Nat := 0x10000 + (high - 0xD800) * 1024 + (low - 0xDC00)

def encodeChar (c : Char) : List Nat :=
  if c.toNat < 0x10000 then [c.toNat]
  else [0xD800 + (c.toNat - 0x10000) / 1024, 0xDC00 + (c.toNat - 0x10000) % 1024]

def encodeChars (cs : List Char) : List Nat := cs.flatMap encodeChar

def encode (s : String) : List Nat := encodeChars s.toList

/-- Strict decoding: a half of a pair alone is refused. -/
def decodeChars : List Nat → Option (List Char)
  | [] => some []
  | [u] => if isHigh u || isLow u then none else some [Char.ofNat u]
  | u :: v :: rest =>
    if isHigh u then
      if isLow v then (decodeChars rest).map (Char.ofNat (pairValue u v) :: ·) else none
    else if isLow u then none
    else (decodeChars (v :: rest)).map (Char.ofNat u :: ·)

def decode (units : List Nat) : Option String := (decodeChars units).map String.ofList

/-- Every high unit is followed by a low one, and every low one follows a high one. -/
inductive Paired : List Nat → Prop
  | nil : Paired []
  | single {u : Nat} {rest : List Nat} :
      isHigh u = false → isLow u = false → Paired rest → Paired (u :: rest)
  | pair {u v : Nat} {rest : List Nat} :
      isHigh u = true → isLow v = true → Paired rest → Paired (u :: v :: rest)

@[simp] theorem encodeChars_nil : encodeChars [] = [] := rfl

@[simp] theorem encodeChars_cons (c : Char) (cs : List Char) :
    encodeChars (c :: cs) = encodeChar c ++ encodeChars cs := by simp [encodeChars]

@[simp] theorem encodeChars_append (cs ds : List Char) :
    encodeChars (cs ++ ds) = encodeChars cs ++ encodeChars ds := by simp [encodeChars]

theorem encode_append (s t : String) : encode (s ++ t) = encode s ++ encode t := by
  simp [encode]

theorem pairValue_add (q r : Nat) :
    pairValue (0xD800 + q) (0xDC00 + r) = 0x10000 + q * 1024 + r := by
  have hhigh : 0xD800 + q - 0xD800 = q := Nat.add_sub_cancel_left _ _
  have hlow : 0xDC00 + r - 0xDC00 = r := Nat.add_sub_cancel_left _ _
  show 0x10000 + (0xD800 + q - 0xD800) * 1024 + (0xDC00 + r - 0xDC00) = _
  rw [hhigh, hlow]

/-- A character is one unit outside the surrogates, or a pair that spells its value. -/
theorem encodeChar_cases (c : Char) :
    (c.toNat < 0x10000 ∧ isHigh c.toNat = false ∧ isLow c.toNat = false ∧
      encodeChar c = [c.toNat]) ∨
    ∃ u v, 0x10000 ≤ c.toNat ∧ isHigh u = true ∧ isLow v = true ∧ pairValue u v = c.toNat ∧
      encodeChar c = [u, v] := by
  have hvalid : c.toNat < 0xD800 ∨ 0xDFFF < c.toNat ∧ c.toNat < 0x110000 := c.valid
  by_cases hsmall : c.toNat < 0x10000
  · refine .inl ⟨hsmall, ?_, ?_, by simp [encodeChar, hsmall]⟩
    · rw [isHigh, decide_eq_false_iff_not]
      omega
    · rw [isLow, decide_eq_false_iff_not]
      omega
  · refine .inr ⟨0xD800 + (c.toNat - 0x10000) / 1024, 0xDC00 + (c.toNat - 0x10000) % 1024,
      by omega, ?_, ?_, ?_, by simp only [encodeChar, if_neg hsmall]⟩
    · rw [isHigh, decide_eq_true_eq]
      omega
    · rw [isLow, decide_eq_true_eq]
      omega
    · rw [pairValue_add, Nat.add_assoc, Nat.div_add_mod']
      exact Nat.add_sub_cancel' (Nat.le_of_not_lt hsmall)

theorem paired_encodeChars (cs : List Char) : Paired (encodeChars cs) := by
  induction cs with
  | nil => exact .nil
  | cons c cs ih =>
    rw [encodeChars_cons]
    obtain ⟨-, hhigh, hlow, hc⟩ | ⟨u, v, -, hhigh, hlow, -, hc⟩ := encodeChar_cases c
    · rw [hc]
      exact .single hhigh hlow ih
    · rw [hc]
      exact .pair hhigh hlow ih

theorem paired_encode (s : String) : Paired (encode s) := paired_encodeChars _

theorem ofNat_toNat (c : Char) : Char.ofNat c.toNat = c := by simp

theorem isLow_of_isHigh {u : Nat} (h : isHigh u = true) : isLow u = false := by
  rw [isHigh, decide_eq_true_eq] at h
  rw [isLow, decide_eq_false_iff_not]
  omega

theorem decodeChars_single {u : Nat} (hhigh : isHigh u = false) (hlow : isLow u = false)
    (rest : List Nat) :
    decodeChars (u :: rest) = (decodeChars rest).map (Char.ofNat u :: ·) := by
  cases rest with
  | nil => simp [decodeChars, hhigh, hlow]
  | cons v rest => simp [decodeChars, hhigh, hlow]

@[simp] theorem decodeChars_encodeChars (cs : List Char) :
    decodeChars (encodeChars cs) = some cs := by
  induction cs with
  | nil => rfl
  | cons c cs ih =>
    rw [encodeChars_cons]
    obtain ⟨-, hhigh, hlow, hc⟩ | ⟨u, v, -, hhigh, hlow, hvalue, hc⟩ := encodeChar_cases c
    · rw [hc, List.singleton_append, decodeChars_single hhigh hlow, ih]
      simp
    · simp only [hc, List.cons_append, List.nil_append, decodeChars, hhigh, hlow, if_true, ih,
        Option.map_some, hvalue, ofNat_toNat]

theorem encodeChars_injective {cs ds : List Char} (h : encodeChars cs = encodeChars ds) :
    cs = ds := by
  have hcs := decodeChars_encodeChars cs
  rw [h, decodeChars_encodeChars] at hcs
  exact (Option.some.inj hcs).symm

theorem Paired.append {xs ys : List Nat} (hx : Paired xs) (hy : Paired ys) :
    Paired (xs ++ ys) := by
  induction hx with
  | nil => exact hy
  | single hhigh hlow _ ih => exact .single hhigh hlow ih
  | pair hhigh hlow _ ih => exact .pair hhigh hlow ih

/-- A text of whole characters does not end with the first half of a pair. -/
theorem Paired.last {units : List Nat} (h : Paired units) {u : Nat}
    (hu : units[units.length - 1]? = some u) : isHigh u = false := by
  induction h with
  | nil => simp at hu
  | @single v rest hhigh hlow hrest ih =>
    cases rest with
    | nil =>
      simp only [List.length_singleton, Nat.sub_self, List.getElem?_cons_zero,
        Option.some.injEq] at hu
      exact hu ▸ hhigh
    | cons w rest =>
      refine ih ?_
      rw [← hu]
      simp
  | @pair v w rest hhigh hlow hrest ih =>
    cases rest with
    | nil =>
      simp only [List.length_cons, List.length_nil, Nat.zero_add, Nat.reduceAdd, Nat.reduceSub,
        List.getElem?_cons_succ, List.getElem?_cons_zero, Option.some.injEq] at hu
      subst hu
      rw [isLow, decide_eq_true_eq] at hlow
      rw [isHigh, decide_eq_false_iff_not]
      omega
    | cons x rest =>
      refine ih ?_
      rw [← hu]
      simp

end Utf16
