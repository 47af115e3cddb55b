import IDoris.Inspect.Types

/-!
# Tokens

The rules on alphanumeric runs (social credit codes, passports, permits, Hong Kong ids),
licence plates and mail addresses.
-/
namespace Inspect

open Scanner

def usccChars : List Nat := Utf16.encode "0123456789ABCDEFGHJKLMNPQRTUWXY"

def usccWeights : List Nat :=
  [1, 3, 9, 27, 19, 26, 16, 17, 20, 29, 25, 13, 8, 24, 10, 30, 28]

def plateProvinces : String := "京津沪渝冀豫云辽黑湘皖鲁新苏浙赣鄂桂甘晋蒙陕吉闽贵粤青藏川宁琼"

def allDigits (t : List Nat) : Bool := t.all isDigit

/-- The tail of a token of at least one unit. -/
def afterFirst (t : List Nat) : Option (List Nat) := slice t 1 t.length

def isPassport (t : List Nat) : Option Bool := do
  let first ← t[0]?
  if first = 'G'.toNat then return allDigits (← afterFirst t)
  else if first = 'E'.toNat then
    let second ← t[1]?
    return allDigits (← afterFirst t) ||
      isUppercase second && second ≠ 'I'.toNat && second ≠ 'O'.toNat &&
        allDigits (← slice t 2 t.length)
  else return false

def isTravelPermit (t : List Nat) : Option Bool := do
  let first ← t[0]?
  return (first = 'H'.toNat || first = 'M'.toNat) && allDigits (← afterFirst t)

/-- Digits where the region stands, and the check unit modulo 31. -/
def usccValid (t : List Nat) : Option Bool :=
  match t.mapM fun c => usccChars.idxOf? c with
  | none => some false
  | some values => do
    let sum := (List.zipWith (· * ·) values usccWeights).sum
    return allDigits (← slice t 2 8) && (← values[17]?) = (31 - sum % 31) % 31

def hkidFullwidthOpen : Nat := 0xFF08
def hkidFullwidthClose : Nat := 0xFF09

/-- The check unit in parentheses right behind a body, after at most one space, and the
length of all that. -/
def hkidParenWindow (rest : List Nat) : Option (Nat × Nat) :=
  let spaced := rest.head? = some ' '.toNat
  let base := if spaced then 1 else 0
  match rest.drop base with
  | opener :: check :: closer :: _ =>
    let asciiPair := opener = '('.toNat && closer = ')'.toNat
    let fullwidthPair := opener = hkidFullwidthOpen && closer = hkidFullwidthClose
    if !(asciiPair || fullwidthPair) || 0x7F < check then none
    else some (toUppercase check, base + 3)
  | _ => none

/-- One or two letters and six digits, with a weighted check modulo 11. -/
def hkidValid (body : List Nat) (check : Nat) : Bool :=
  let letters := body.length - 6
  if !(letters = 1 || letters = 2) || !(body.take letters).all isUppercase ||
      !allDigits (body.drop letters) then false
  else
    let values := (if letters = 1 then [36] else []) ++
      (body.take letters).map (· - 'A'.toNat + 10) ++ (body.drop letters).map digitValue
    let sum := (List.zipWith (· * ·) values [9, 8, 7, 6, 5, 4, 3, 2]).sum
    let remainder := (11 - sum % 11) % 11
    if remainder = 10 then check = 'A'.toNat else check = '0'.toNat + remainder

def parenthesizedHkid (t : List Nat) (letters start : Nat) (rest : List Nat) : List Hit :=
  if t.length ≠ letters + 6 then []
  else match hkidParenWindow rest with
    | none => []
    | some (check, extra) =>
      report (hkidValid t check) ⟨.hkIdentityCard, start, t.length + extra, .s3⟩

/-- A body with its check unit right behind it. -/
def plainHkid (t : List Nat) (start : Nat) : List Hit :=
  match t.getLast? with
  | none => []
  | some check =>
    report (hkidValid t.dropLast check) ⟨.hkIdentityCard, start, t.length, .s3⟩

def classifyToken (t : List Nat) (start : Nat) (rest : List Nat) : Option (List Hit) := do
  let code ← (if t.length = 18 then usccValid t else some false)
  let passport ← (if t.length = 9 then isPassport t else some false)
  let permit ← (if t.length = 9 then isTravelPermit t else some false)
  return report code ⟨.cnUnifiedSocialCreditCode, start, 18, .s1⟩ ++
    report passport ⟨.cnPassport, start, 9, .s3⟩ ++
    report permit ⟨.hkMacauTravelPermit, start, 9, .s3⟩ ++
    parenthesizedHkid t 1 start rest ++ parenthesizedHkid t 2 start rest ++ plainHkid t start

def isPlateChar (u : Nat) : Bool :=
  isAlnum u && u ≠ 'I'.toNat && u ≠ 'O'.toNat && !isLowercase u

/-- How long a plate is that starts with the first unit. -/
def plateLength : List Nat → Option Nat
  | province :: office :: rest =>
    if !oneOf plateProvinces province || !isPlateChar office || isDigit office then none
    else
      let gap := if rest.head?.any fun s => s = 0xB7 || s = ' '.toNat then 1 else 0
      let tail := (rest.drop gap).takeWhile isPlateChar
      let boundary := (rest[gap + tail.length]?).all fun next => !isAlnum next
      if 5 ≤ tail.length && tail.length ≤ 6 && boundary && tail.any isDigit then
        some (2 + gap + tail.length)
      else none
  | _ => none

def scanPlates (units : List Nat) : List Hit :=
  (List.range units.length).filterMap fun i =>
    (plateLength (units.drop i)).map fun length => ⟨.cnLicensePlate, i, length, .s2⟩

def isLocalChar (u : Nat) : Bool := isAlnum u || oneOf "._%+-" u

def isDomainChar (u : Nat) : Bool := isAlnum u || u = '.'.toNat || u = '-'.toNat

/-- The last label of a domain with a dot is at least two letters. -/
def tldOk (domain : List Nat) : Bool :=
  let tld := domain.reverse.takeWhile (· ≠ '.'.toNat)
  domain.contains '.'.toNat && 2 ≤ tld.length && tld.all isAlphabetic

/-- A mail address around the sign at `place`. -/
def emailAt (units : List Nat) (place : Nat) : Option Hit :=
  if units[place]? ≠ some '@'.toNat then none
  else
    let start := place - ((units.take place).reverse.takeWhile isLocalChar).length
    let run := (units.drop (place + 1)).takeWhile isDomainChar
    let domain := (run.reverse.dropWhile (· = '.'.toNat)).reverse
    if start < place && tldOk domain then
      some ⟨.emailAddress, start, place + 1 + domain.length - start, .s2⟩
    else none

def scanEmails (units : List Nat) : List Hit :=
  (List.range units.length).filterMap (emailAt units)

def scanTokens (units : List Nat) : Option (List Hit) := do
  let classified ← flatMapM (fun (start, stop) => do
    let token := (← slice units start stop).map toUppercase
    classifyToken token start (← slice units stop units.length)) (runs isAlnum units)
  return classified ++ scanPlates units ++ scanEmails units

end Inspect
