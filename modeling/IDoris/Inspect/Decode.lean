import IDoris.Inspect.Numbers
import IDoris.Inspect.Secrets
import IDoris.Inspect.Tokens
import IDoris.Inspect.Views
import IDoris.Library.Text

/-!
# Decoding one layer

Base64, hexadecimal and percent encoding are undone once, and the plain rules run over
what comes out.
-/
namespace Inspect

open Scanner

variable [Entropy]

/-- The hits of every rule on a text as it stands. -/
def plainHits (units : List Nat) : Option (List Hit) := do
  return (← scanGroups units) ++ (← scanFormatted units) ++ (← scanCountryMobile units) ++
    (← scanTokens units) ++ (← scanSecrets units) ++ (← scanCrosslineModernId units)

def scanPlain (units : List Nat) : Option (List Hit) := do
  return sortDedup (← plainHits units)

def minBase64 : Nat := 12
def minHex : Nat := 16
def minPercentEscapes : Nat := 1

def hexValue (b : Nat) : Option Nat :=
  if isDigit b then some (b - '0'.toNat)
  else if 'a'.toNat ≤ b ∧ b ≤ 'f'.toNat then some (b - 'a'.toNat + 10)
  else if 'A'.toNat ≤ b ∧ b ≤ 'F'.toNat then some (b - 'A'.toNat + 10)
  else none

def hexPairs : List Nat → Option (List Nat)
  | [] => some []
  | [_] => none
  | high :: low :: rest => do
    let value := (← hexValue high) * 16 + (← hexValue low)
    return value :: (← hexPairs rest)

def decodeHex (token : List Nat) : Option (List Nat) :=
  if token.length < minHex || token.length % 2 ≠ 0 then none else hexPairs token

def base64Value (c : Nat) : Option Nat :=
  if isUppercase c then some (c - 'A'.toNat)
  else if isLowercase c then some (c - 'a'.toNat + 26)
  else if isDigit c then some (c - '0'.toNat + 52)
  else if c = '+'.toNat || c = '-'.toNat then some 62
  else if c = '/'.toNat || c = '_'.toNat then some 63
  else none

/-- Six bits at a time; a byte goes out whenever eight bits are there. -/
def base64Bytes : List Nat → (buffer bits : Nat) → Option (List Nat)
  | [], _, _ => some []
  | c :: rest, buffer, bits => do
    let buffer := buffer * 64 + (← base64Value c)
    let bits := bits + 6
    if 8 ≤ bits then
      return buffer / 2 ^ (bits - 8) % 256 ::
        (← base64Bytes rest (buffer % 2 ^ (bits - 8)) (bits - 8))
    else base64Bytes rest buffer bits

/-- The token without two or one equals signs at its end. -/
def base64Body (token : List Nat) : List Nat :=
  if (Utf16.encode "==").isSuffixOf token then token.take (token.length - 2)
  else if (Utf16.encode "=").isSuffixOf token then token.take (token.length - 1)
  else token

def decodeBase64 (token : List Nat) : Option (List Nat) :=
  let body := base64Body token
  if body.length < minBase64 || body.length % 4 = 1 then none else base64Bytes body 0 0

section Percent

/-- The byte an escape at the start spells. -/
def byteAt : List Nat → Option Nat
  | percent :: high :: low :: _ =>
    if percent ≠ '%'.toNat then none else do
      return (← hexValue high) * 16 + (← hexValue low)
  | _ => none

/-- How many bytes a character takes that begins with this one. -/
def utf8Width (first : Nat) : Option Nat :=
  if first ≤ 0x7F then some 1
  else if 0xC2 ≤ first ∧ first ≤ 0xDF then some 2
  else if 0xE0 ≤ first ∧ first ≤ 0xEF then some 3
  else if 0xF0 ≤ first ∧ first ≤ 0xF4 then some 4
  else none

def utf8Text (bytes : List Nat) : Option String := Text.decode (bytes.map UInt8.ofNat)

/-- The character that escapes at the start spell, and how many units they take. -/
def percentChar (units : List Nat) : Option (Char × Nat) := do
  let width ← utf8Width (← byteAt units)
  let bytes ← (List.range width).mapM fun n => byteAt (units.drop (n * 3))
  let c ← (← utf8Text bytes).toList.head?
  return (c, width * 3)

/-- The pass of `decodePercent`: the cells, and how many characters were escaped. -/
def decodePercentFrom : (skip : Nat) → List Nat → Nat → View × Nat
  | _, [], _ => ([], 0)
  | skip + 1, _ :: rest, i => decodePercentFrom skip rest (i + 1)
  | 0, u :: rest, i =>
    match percentChar (u :: rest) with
    | some (c, consumed) =>
      let (cells, escapes) := decodePercentFrom (consumed - 1) rest (i + 1)
      ((Utf16.encodeChar c).map (fun unit => ⟨unit, i, i + consumed⟩) ++ cells, escapes + 1)
    | none =>
      let (cells, escapes) := decodePercentFrom 0 rest (i + 1)
      (⟨u, i, i + 1⟩ :: cells, escapes)

def decodePercent (units : List Nat) : Option View :=
  let (cells, escapes) := decodePercentFrom 0 units 0
  if minPercentEscapes ≤ escapes then some cells else none

end Percent

section Layers

-- The scan of decoded text: the program runs its plain rules over all readings.
variable (inner : List Nat → Option (List Hit))

/-- The hits in decoded bytes, reported at the token they were decoded from. -/
def reportDecoded (start length : Nat) (decoded : List Nat) : Option (List Hit) :=
  match utf8Text decoded with
  | none => some []
  | some text => do
    return (← inner (Utf16.encode text)).map fun hit => { hit with start, length }

def isTokenMember (u : Nat) : Bool := isAlnum u || oneOf "+/_-" u

/-- A token with up to two equals signs behind it. -/
def scanToken (units : List Nat) : Nat × Nat → Option (List Hit)
  | (start, runEnd) => do
    let padding := ((units.drop runEnd).take 2).takeWhile (· = '='.toNat)
    let stop := runEnd + padding.length
    let token ← slice units start stop
    flatMapM (reportDecoded inner start (stop - start))
      ((decodeHex token).toList ++ (decodeBase64 token).toList)

def scanPercent (units : List Nat) : Option (List Hit) :=
  match decodePercent units with
  | none => some []
  | some view => do
    (← inner view.units).mapM fun hit => do
      let (start, length) ← view.originalSpan hit.start hit.length
      return { hit with start, length }

def scanDecoded (units : List Nat) : Option (List Hit) := do
  return (← flatMapM (scanToken inner units) (runs isTokenMember units)) ++
    (← scanPercent inner units)

end Layers

/-- The plain rules, and the same rules one layer down. -/
def scan (units : List Nat) : Option (List Hit) := do
  return sortDedup ((← scanPlain units) ++ (← scanDecoded (scanAllViews scanPlain) units))

end Inspect
