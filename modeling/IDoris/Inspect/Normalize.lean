import IDoris.Inspect.Types

/-!
# Normal forms

The readings of a text a scan goes over: as it stands, folded with and without its
ignorable characters, with foreign digits and letters folded too, and with the digits
after a short escape left out. A reading keeps where each of its units comes from.
-/
namespace Inspect

open Utf16

/-- A unit of a reading and the range of the text it stands for. -/
structure Cell where
  unit : Nat
  first : Nat
  stop : Nat
  deriving DecidableEq

abbrev View := List Cell

def View.units (view : View) : List Nat := view.map Cell.unit

/-- The range of the text behind a range of a reading. -/
def View.originalSpan (view : View) (start length : Nat) : Option (Nat × Nat) := do
  let first ← view[start]?
  let last ← view[start + length - 1]?
  return (first.first, last.stop - first.first)

/-- Unicode's `Default_Ignorable_Code_Point`. -/
def isDefaultIgnorable (cp : Nat) : Bool :=
  [(0x00AD, 0x00AD), (0x034F, 0x034F), (0x061C, 0x061C), (0x115F, 0x1160), (0x17B4, 0x17B5),
    (0x180B, 0x180F), (0x200B, 0x200F), (0x202A, 0x202E), (0x2060, 0x206F), (0x3164, 0x3164),
    (0xFE00, 0xFE0F), (0xFEFF, 0xFEFF), (0xFFA0, 0xFFA0), (0xFFF0, 0xFFF8), (0x1BCA0, 0x1BCA3),
    (0x1D173, 0x1D17A), (0xE0000, 0xE0FFF)].any fun (low, high) => low ≤ cp && cp ≤ high

/-- The zeros of the decimal digits outside ASCII. -/
def digitZeros : List Nat :=
  [0x0660, 0x06F0, 0x07C0, 0x0966, 0x09E6, 0x0A66, 0x0AE6, 0x0B66, 0x0BE6, 0x0C66, 0x0CE6, 0x0D66,
    0x0DE6, 0x0E50, 0x0ED0, 0x0F20, 0x1040, 0x1090, 0x17E0, 0x1810, 0x1946, 0x19D0, 0x1A80, 0x1A90,
    0x1B50, 0x1BB0, 0x1C40, 0x1C50, 0xA620, 0xA8D0, 0xA900, 0xA9D0, 0xA9F0, 0xAA50, 0xABF0]

def decimalDigitZero (u : Nat) : Option Nat :=
  digitZeros.find? fun first => first ≤ u && u < first + 10

/-- Cyrillic and Greek letters that look like Latin ones. -/
def latinConfusables : List (Nat × Char) :=
  [(0x0430, 'a'), (0x0435, 'e'), (0x043E, 'o'), (0x03BF, 'o'), (0x0440, 'p'), (0x0441, 'c'),
    (0x0443, 'y'), (0x0445, 'x'), (0x0455, 's'), (0x0456, 'i'), (0x0458, 'j'), (0x0410, 'A'),
    (0x0391, 'A'), (0x0412, 'B'), (0x0392, 'B'), (0x0415, 'E'), (0x0395, 'E'), (0x041A, 'K'),
    (0x039A, 'K'), (0x041C, 'M'), (0x039C, 'M'), (0x041D, 'H'), (0x0397, 'H'), (0x041E, 'O'),
    (0x039F, 'O'), (0x0420, 'P'), (0x03A1, 'P'), (0x0421, 'C'), (0x0422, 'T'), (0x03A4, 'T'),
    (0x0425, 'X'), (0x03A7, 'X'), (0x0406, 'I'), (0x0399, 'I'), (0x0408, 'J'), (0x0405, 'S'),
    (0x0396, 'Z'), (0x039D, 'N'), (0x03A5, 'Y')]

def latinConfusable (u : Nat) : Option Nat :=
  (latinConfusables.find? fun (letter, _) => letter = u).map fun (_, latin) => latin.toNat

/-- Fullwidth ASCII, the ideographic space and the many dashes. -/
def foldWidth (u : Nat) : Nat :=
  if 0xFF01 ≤ u ∧ u ≤ 0xFF5E then u - 0xFEE0
  else if u = 0x3000 then ' '.toNat
  else if 0x2010 ≤ u ∧ u ≤ 0x2015 ∨ u = 0x2212 then '-'.toNat
  else u

def foldBmp (u : Nat) (foldScripts : Bool) : Nat :=
  if foldScripts then
    match decimalDigitZero u, latinConfusable u with
    | some first, _ => u - first + '0'.toNat
    | none, some latin => latin
    | none, none => foldWidth u
  else foldWidth u

section Rewrite

variable (dropIgnorables foldScripts : Bool)

/-- A unit that is not part of a pair. -/
def rewriteUnit (u i : Nat) : View :=
  if dropIgnorables && isDefaultIgnorable u then [] else [⟨foldBmp u foldScripts, i, i + 1⟩]

/-- Pairs are kept as they are or dropped whole. -/
def rewriteFrom : List Nat → Nat → View
  | [], _ => []
  | [u], i => rewriteUnit dropIgnorables foldScripts u i
  | u :: v :: rest, i =>
    if isHigh u && isLow v then
      (if dropIgnorables && isDefaultIgnorable (pairValue u v) then []
        else [⟨u, i, i + 1⟩, ⟨v, i + 1, i + 2⟩]) ++ rewriteFrom rest (i + 2)
    else rewriteUnit dropIgnorables foldScripts u i ++ rewriteFrom (v :: rest) (i + 1)

def rewrite (units : List Nat) : View := rewriteFrom dropIgnorables foldScripts units 0

end Rewrite

def identity (units : List Nat) : View := units.zipIdx.map fun (u, i) => ⟨u, i, i + 1⟩

def normalize (units : List Nat) : View := rewrite true false units

def foldKeepingIgnorables (units : List Nat) : View := rewrite false false units

def foldDigitsAndHomoglyphs (units : List Nat) : View := rewrite true true units

/-- The pass of `skipShortEscapeDigits`: the unit before, how many digits are still to be
left out, and at the end whether any were. -/
def skipFrom (k : Nat) : (previous : Option Nat) → (skip : Nat) → List Nat → Nat → View × Bool
  | _, _, [], _ => ([], false)
  | _, skip + 1, u :: rest, i => skipFrom k (some u) skip rest (i + 1)
  | previous, 0, u :: rest, i =>
    let taken := u = 'u'.toNat && previous = some '\\'.toNat && k < rest.length &&
      (rest.take (k + 1)).all isDigit
    let (cells, changed) := skipFrom k (some u) (if taken then k else 0) rest (i + 1)
    (⟨u, i, i + 1⟩ :: cells, taken || changed)

/-- The text without the first `k` digits of each `\u` that more digits follow. -/
def skipShortEscapeDigits (units : List Nat) (k : Nat) : Option View :=
  let (cells, changed) := skipFrom k none 0 units 0
  if changed then some cells else none

end Inspect
