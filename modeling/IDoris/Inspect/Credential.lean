import IDoris.Inspect.Encoded
import IDoris.Library.Matching

/-!
# Looking for a known credential

A text is searched for a credential as it stands, with one layer of JSON escapes undone,
and in one layer of hexadecimal, base64 and percent encoding of both.
-/
namespace Inspect

open Scanner Utf16 ByteText

def normalizedContains (input : String) (credential : List Nat) : Bool :=
  Matching.contains credential (normalize (encode input)).units

section JsonEscapes

/-- The code unit that four hexadecimal digits spell. -/
def escapedHexUnit : List Char → Option Nat
  | a :: b :: c :: d :: _ => do
    return (((← hexValue a.toNat) * 16 + (← hexValue b.toNat)) * 16 + (← hexValue c.toNat)) * 16 +
      (← hexValue d.toNat)
  | _ => none

/-- The character an escape `\u` spells whose digits start here, and how long it is. -/
def unicodeEscape (digits : List Char) : Option (Char × Nat) := do
  let first ← escapedHexUnit digits
  if isHigh first then
    match digits.drop 4 with
    | '\\' :: 'u' :: more => do
      let second ← escapedHexUnit more
      if isLow second then return (Char.ofNat (pairValue first second), 12) else none
    | _ => none
  else if isLow first then none
  else return (Char.ofNat first, 6)

/-- The character an escape at the start spells, and how long it is. -/
def jsonEscape : List Char → Option (Char × Nat)
  | '\\' :: '/' :: _ => some ('/', 2)
  | '\\' :: '\\' :: _ => some ('\\', 2)
  | '\\' :: '"' :: _ => some ('"', 2)
  | '\\' :: 'u' :: digits => unicodeEscape digits
  | _ => none

/-- The pass of `decodeJsonEscapes`: malformed escapes stay as they are. -/
def decodeEscapesFrom : (skip : Nat) → List Char → List Char
  | _, [] => []
  | skip + 1, _ :: rest => decodeEscapesFrom skip rest
  | 0, c :: rest =>
    match jsonEscape (c :: rest) with
    | some (d, consumed) => d :: decodeEscapesFrom (consumed - 1) rest
    | none => c :: decodeEscapesFrom 0 rest

def decodeJsonEscapes (input : String) : String :=
  String.ofList (decodeEscapesFrom 0 input.toList)

end JsonEscapes

section Tokens

def isEncodedMember (b : Nat) : Bool := isAlnum b || oneOf "+/_-" b

def hexTokenBody : List Nat → List Nat
  | first :: second :: rest =>
    if first = '0'.toNat && (second = 'x'.toNat || second = 'X'.toNat) then rest
    else first :: second :: rest
  | token => token

def decodeHexToken (token : List Nat) : Option (List Nat) :=
  let body := hexTokenBody token
  if body.isEmpty || body.length % 2 ≠ 0 then none else hexPairs body

def decodeBase64Token (token : List Nat) : Option (List Nat) :=
  let body := base64Body token
  if body.isEmpty || body.length % 4 = 1 then none else base64Bytes body 0 0

/-- Escapes are undone byte by byte; with the number of them. -/
def percentDecodedFrom : List Nat → List Nat × Nat
  | u :: high :: low :: rest =>
    match hexValue high, hexValue low with
    | some a, some b =>
      if u = '%'.toNat then
        let (out, escapes) := percentDecodedFrom rest
        ((a * 16 + b) :: out, escapes + 1)
      else
        let (out, escapes) := percentDecodedFrom (high :: low :: rest)
        (u :: out, escapes)
    | _, _ =>
      let (out, escapes) := percentDecodedFrom (high :: low :: rest)
      (u :: out, escapes)
  | u :: rest =>
    let (out, escapes) := percentDecodedFrom rest
    (u :: out, escapes)
  | [] => ([], 0)

def percentDecoded (input : List Nat) : Option (List Nat) :=
  let (out, escapes) := percentDecodedFrom input
  if 0 < escapes then some out else none

end Tokens

section Search

def byteCodes (t : String) : List Nat := (utf8 t).map UInt8.toNat

def hexDigit (value : Nat) : Nat :=
  if value < 10 then '0'.toNat + value else 'a'.toNat + (value - 10)

/-- The lower-case digits of some bytes. -/
def hexText (bytes : List Nat) : List Nat :=
  bytes.flatMap fun byte => [hexDigit (byte / 16), hexDigit (byte % 16)]

/-- The bytes themselves, or the text they spell in its normal form. -/
def decodedContains (bytes credential decoded : List Nat) : Bool :=
  Matching.contains bytes decoded || match utf8Text decoded with
    | some text => normalizedContains text credential
    | none => false

/-- A token with up to two equals signs behind it, as hexadecimal digits and as base64 from
each of its first four places. -/
def tokenContains (input bytes credential : List Nat) : Nat × Nat → Bool
  | (start, runEnd) =>
    let padding := ((input.drop runEnd).take 2).takeWhile (· = '='.toNat)
    let token := (input.take (runEnd + padding.length)).drop start
    ((decodeHexToken token).any (decodedContains bytes credential)) ||
      (List.range (min 4 token.length)).any fun shift =>
        (decodeBase64Token (token.drop shift)).any (decodedContains bytes credential)

def encodedContains (input credential : List Nat) : Bool :=
  match decode credential with
  | none => false
  | some secret =>
    let bytes := byteCodes secret
    let hexLen := bytes.length * 2
    (0 < hexLen && hexLen ≤ input.length &&
      Matching.contains (hexText bytes) (input.map toLowercase)) ||
      (runs isEncodedMember input).any (tokenContains input bytes credential) ||
      (percentDecoded input).any (decodedContains bytes credential)

def containsCredential (input credential : String) : Bool :=
  let credential := (normalize (encode credential)).units
  if credential.isEmpty then true
  else
    normalizedContains input credential || encodedContains (byteCodes input) credential ||
      normalizedContains (decodeJsonEscapes input) credential ||
      encodedContains (byteCodes (decodeJsonEscapes input)) credential

end Search

example : decodeJsonEscapes "\\uD83D\\uDE00 a\\/b \\b" = "😀 a/b \\b" := by decide

end Inspect
