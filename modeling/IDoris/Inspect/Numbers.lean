import IDoris.Inspect.Types

/-!
# Numbers

The digit rules: resident ids, mobile numbers and bank cards. Digits are taken in groups,
with single separators inside, and a group is judged as a whole and segment by segment.
-/
namespace Inspect

open Scanner

/-- The province codes of resident ids. -/
def provinces : List Nat :=
  [11, 12, 13, 14, 15, 21, 22, 23, 31, 32, 33, 34, 35, 36, 37, 41, 42, 43, 44, 45, 46, 50, 51, 52,
    53, 54, 61, 62, 63, 64, 65, 71, 81, 82]

def idWeights : List Nat := [7, 9, 10, 5, 8, 4, 2, 1, 6, 3, 7, 9, 10, 5, 8, 4, 2]

def idCheck : List Nat := Utf16.encode "10X98765432"

/-- A digit string to judge: its digits, where it starts and stops, and whether an `X`
follows. -/
structure Candidate where
  digits : List Nat
  start : Nat
  stop : Nat
  xSuffix : Bool

def Candidate.hit (c : Candidate) (kind : FindingKind) (stop : Nat) (sensitivity : Sensitivity) :
    Hit := ⟨kind, c.start, stop - c.start, sensitivity⟩

def isSeparator (u : Nat) : Bool := u = ' '.toNat || u = '-'.toNat

def isFormattedSeparator (u : Nat) : Bool :=
  isSeparator u || u = '\t'.toNat || u = '.'.toNat || u = '/'.toNat

def isCheckX (u : Nat) : Bool := u = 'X'.toNat || u = 'x'.toNat

/-- How far digits go on, with single separators between two of them. -/
def joinedLength (separator : Nat → Bool) : List Nat → Nat
  | [] => 0
  | u :: rest =>
    if isDigit u || separator u && rest.head?.any isDigit then joinedLength separator rest + 1
    else 0

/-- The same from a digit on. -/
def groupLength (separator : Nat → Bool) (units : List Nat) : Nat :=
  match units with
  | [] => 0
  | u :: _ => if isDigit u then joinedLength separator units else 0

def number (d : List Nat) : Nat := d.foldl (fun acc digit => acc * 10 + digit) 0

def validDate (year month day : Nat) : Bool :=
  let leap := year % 4 = 0 && year % 100 ≠ 0 || year % 400 = 0
  if [1, 3, 5, 7, 8, 10, 12].contains month then 1 ≤ day && day ≤ 31
  else if [4, 6, 9, 11].contains month then 1 ≤ day && day ≤ 30
  else if month = 2 then 1 ≤ day && day ≤ if leap then 29 else 28
  else false

/-- The first seventeen digits of an id: province and date of birth. -/
def idStructure (d : List Nat) : Option Bool := do
  let year := number (← slice d 6 10)
  let province := (← d[0]?) * 10 + (← d[1]?)
  let provinceOk := provinces.contains province ||
    province = 83 && (← slice d 2 6) = [0, 0, 0, 0]
  let month := number (← slice d 10 12)
  let day := number (← slice d 12 14)
  return provinceOk && 1900 ≤ year && year ≤ 2100 && validDate year month day

/-- The old id of fifteen digits, without a check digit. -/
def legacyIdStructure (d : List Nat) : Option Bool := do
  let year := 1900 + number (← slice d 6 8)
  let province := (← d[0]?) * 10 + (← d[1]?)
  let month := number (← slice d 8 10)
  let day := number (← slice d 10 12)
  return provinces.contains province && validDate year month day

/-- A wrong check digit lowers the sensitivity; the hit stays. -/
def idSensitivity (first17 : List Nat) (check : Nat) : Option Sensitivity := do
  let sum := (List.zipWith (· * ·) first17 idWeights).sum
  let expected ← idCheck[sum % 11]?
  return if expected = toUppercase check then .s3 else .s2

def isMobile (d : List Nat) : Bool :=
  match d with
  | first :: second :: _ => d.length = 11 && first = 1 && 3 ≤ second && second ≤ 9
  | _ => false

def luhnDigit (doubled : Bool) (digit : Nat) : Nat :=
  if doubled then if digit * 2 > 9 then digit * 2 - 9 else digit * 2 else digit

def luhnValid (d : List Nat) : Bool :=
  (d.reverse.zipIdx.map fun (digit, i) => luhnDigit (i % 2 = 1) digit).sum % 10 = 0

/-- A body of seventeen digits with its check unit. -/
def classifyId (c : Candidate) (first17 : List Nat) (check stop : Nat) : Option (List Hit) := do
  if ← idStructure first17 then
    return [c.hit .cnResidentId stop (← idSensitivity first17 check)]
  else return []

def classifySuffixed (c : Candidate) : Option (List Hit) :=
  if c.digits.length = 17 ∧ c.xSuffix = true then classifyId c c.digits 'X'.toNat (c.stop + 1)
  else some []

def classifyModern (c : Candidate) : Option (List Hit) :=
  if c.digits.length = 18 then do
    let first17 ← slice c.digits 0 17
    classifyId c first17 ('0'.toNat + (← c.digits[17]?)) c.stop
  else some []

def classifyLegacy (c : Candidate) : Option (List Hit) :=
  if c.digits.length = 15 then do
    return report (← legacyIdStructure c.digits) (c.hit .cnResidentId c.stop .s2)
  else some []

def isMobileRun (d : List Nat) : Option Bool :=
  if d.length = 11 then some (isMobile d)
  else if d.length = 13 then do
    return (← slice d 0 2) = [8, 6] && isMobile (← slice d 2 13)
  else some false

def isCardRun (d : List Nat) : Option Bool :=
  if 16 ≤ d.length ∧ d.length ≤ 19 then do
    return (← d[0]?) ≠ 0 && luhnValid d
  else some false

def classify (c : Candidate) : Option (List Hit) := do
  let suffixed ← classifySuffixed c
  let modern ← classifyModern c
  let legacy ← classifyLegacy c
  let mobile := report (← isMobileRun c.digits) (c.hit .cnMobile c.stop .s2)
  let card := report (← isCardRun c.digits) (c.hit .bankCard c.stop .s3)
  return suffixed ++ modern ++ legacy ++ mobile ++ card

section Groups

/-- The pattern's units at the start of a text, up to a folding of the text. -/
def startsWith (fold : Nat → Nat) : (pattern units : List Nat) → Bool
  | [], _ => true
  | _ :: _, [] => false
  | p :: pattern, u :: units => fold u = p && startsWith fold pattern units

/-- `unit + 32` for units whose low byte is an ASCII capital. -/
def foldLowByte (unit : Nat) : Nat := if isUppercase (unit % 256) then unit + 32 else unit

def containsUnits (window : List Nat) (needle : String) : Bool :=
  window.tails.any (startsWith id (Utf16.encode needle))

def containsAsciiCi (window : List Nat) (needle : String) : Bool :=
  window.tails.any (startsWith foldLowByte ((Utf16.encode needle).map toLowercase))

def cues : List String :=
  ["电话", "手机", "号码", "联系", "微信", "手機", "號碼", "聯繫", "tel", "mobile", "phone",
    "cell", "call", "contact", "wechat", "whatsapp"]

/-- A word for a telephone near the range. -/
def phoneContext (units : List Nat) (start stop : Nat) : Option Bool := do
  let window ← slice units (start - 64) (min (stop + 64) units.length)
  return cues.any fun cue =>
    if cue.toList.all fun c => c.toNat < 128 then containsAsciiCi window cue
    else containsUnits window cue

/-- Every segment of a group that starts at `base`, with its digits from `joined`. -/
def classifySegments (joined : List Nat) (base stop : Nat) (xSuffix : Bool) :
    List (Nat × Nat) → Nat → Option (List Hit)
  | [], _ => some []
  | (a, b) :: rest, offset => do
    let digits ← slice joined offset (offset + (b - a))
    let found ← classify ⟨digits, base + a, base + b, base + b = stop && xSuffix⟩
    let more ← classifySegments joined base stop xSuffix rest (offset + (b - a))
    return found ++ more

/-- Two groupings that sum to a mobile number but are rows of a table, unless a telephone
is near. -/
def isTableRow (segments : List (Nat × Nat)) : Bool :=
  let lengths := segments.map fun (a, b) => b - a
  lengths = [3, 3, 5] || lengths = [4, 4, 3]

def scanGroup (units : List Nat) : Nat × Nat → Option (List Hit)
  | (start, stop) => do
    let xSuffix := units[stop]?.any isCheckX
    let group ← slice units start stop
    let joined := (group.filter isDigit).map digitValue
    let whole ← classify ⟨joined, start, stop, xSuffix⟩
    if joined.length = stop - start then return whole
    else
      let segments := runs isDigit group
      let parts ← classifySegments joined start stop xSuffix segments 0
      let grouped := whole ++ parts
      if isTableRow segments && !(← phoneContext units start stop) then
        return grouped.filter fun hit =>
          hit.kind ≠ .cnMobile || hit.start ≠ start || hit.length ≠ stop - start
      else return grouped

/-- The first loop of the plain scan. -/
def scanGroups (units : List Nat) : Option (List Hit) :=
  flatMapM (scanGroup units) (stretches (groupLength isSeparator) units)

end Groups

section Formatted

/-- Mobile numbers, cards in groups of four, and ids in two layouts. -/
def formattedWindow (units : List Nat) (segments : List (Nat × Nat)) : Option (List Hit) :=
  let count := segments.length
  let lengths := segments.map fun (a, b) => b - a
  let total := lengths.sum
  if count = 0 ∨ 5 < count ∨ 19 < total then some []
  else do
    let mobileShape := lengths = [3, 4, 4] || lengths = [2, 3, 4, 4] || lengths = [2, 11]
    let cardShape := 16 ≤ total && total ≤ 19 && 4 ≤ count && lengths.dropLast.all (· = 4) &&
      lengths.getLast?.any fun len => 1 ≤ len && len ≤ 4
    let id18 := lengths = [6, 8, 4] || lengths = [6, 4, 4, 4]
    let id17 := lengths = [6, 8, 3] || lengths = [6, 4, 4, 3]
    let (start, _) ← segments.head?
    let (_, stop) ← segments.getLast?
    let xSuffix := id17 && units[stop]?.any isCheckX
    let idShape := id18 || xSuffix
    if !(count = 1 || mobileShape || cardShape || idShape) then return []
    let digits := (← flatMapM (fun (a, b) => slice units a b) segments).map digitValue
    let hits ← classify ⟨digits, start, stop, xSuffix⟩
    if idShape && !mobileShape && !cardShape then
      return hits.filter (·.kind = .cnResidentId)
    else return hits

/-- The shortest window of at most five segments and nineteen digits with a hit, and how
many segments it takes. -/
def shortestWindow (units : List Nat) (segments : List (Nat × Nat)) :
    (left taken : Nat) → Option (Option (Nat × List Hit))
  | 0, _ => some none
  | left + 1, taken =>
    if segments.length ≤ taken then some none
    else
      let window := segments.take (taken + 1)
      if 19 < (window.map fun (a, b) => b - a).sum then some none
      else do
        let found ← formattedWindow units window
        if found ≠ [] then return some (taken + 1, found)
        else shortestWindow units segments left (taken + 1)

/-- A window that an earlier one covers is left out. -/
def scanWindows (units : List Nat) :
    List (Nat × Nat) → (start coveredUntil : Nat) → Option (List Hit)
  | [], _, _ => some []
  | segment :: rest, start, coveredUntil => do
    match ← shortestWindow units (segment :: rest) 5 0 with
    | some (taken, found) =>
      if coveredUntil < start + taken then
        return found ++ (← scanWindows units rest (start + 1) (start + taken))
      else scanWindows units rest (start + 1) coveredUntil
    | none => scanWindows units rest (start + 1) coveredUntil

def scanChain (units : List Nat) : Nat × Nat → Option (List Hit)
  | (start, stop) => do
    let chain ← slice units start stop
    scanWindows units ((runs isDigit chain).map fun (a, b) => (start + a, start + b)) 0 0

def scanFormatted (units : List Nat) : Option (List Hit) :=
  flatMapM (scanChain units) (stretches (groupLength isFormattedSeparator) units)

end Formatted

section CountryMobile

/-- The end of a layout of `0086` and a mobile number, over at most `left` more runs. -/
def countryMobile (units : List Nat) :
    (left : Nat) → (lengths digits : List Nat) → (stop : Nat) → Option Nat
  | 0, _, _, _ => none
  | left + 1, lengths, digits, stop =>
    if digits.length = 15 &&
        (lengths = [15] || lengths = [4, 11] || lengths = [4, 3, 8] || lengths = [4, 3, 4, 4]) &&
        digits.take 4 = [0, 0, 8, 6] && isMobile (digits.drop 4) then some stop
    else if left = 0 || !units[stop]?.any isFormattedSeparator || !units[stop + 1]?.any isDigit then
      none
    else
      let next := (units.drop (stop + 1)).takeWhile isDigit
      let taken := next.take (15 - digits.length)
      if taken.length < next.length then none
      else countryMobile units left (lengths ++ [taken.length])
        (digits ++ taken.map digitValue) (stop + 1 + taken.length)

def scanCountryMobile (units : List Nat) : Option (List Hit) :=
  flatMapM (fun (start, stop) => do
    if 15 < stop - start then return []
    let run ← slice units start stop
    match countryMobile units 4 [stop - start] (run.map digitValue) stop with
    | some found => return [⟨.cnMobile, start, found - start, .s2⟩]
    | none => return []) (runs isDigit units)

end CountryMobile

section Crossline

def crosslineSeparator (u : Nat) : Bool :=
  u = ' '.toNat || u = '-'.toNat || u = '\t'.toNat || u = '\n'.toNat || u = '\r'.toNat

def isLineBreak (u : Nat) : Bool := u = '\n'.toNat || u = '\r'.toNat

/-- A gap of one to three separators that ends at a digit: where it ends, and whether it
holds a line break. -/
def crosslineGap (units : List Nat) (start : Nat) : Option (Nat × Bool) :=
  let gap := ((units.drop start).take 3).takeWhile crosslineSeparator
  let stop := start + gap.length
  if start < stop && units[stop]?.any isDigit then some (stop, gap.any isLineBreak) else none

/-- A run on the same line right before the start. -/
def crosslineLeftNeighbor (units : List Nat) (start : Nat) : Bool :=
  let gap := ((units.take start).reverse.take 3).takeWhile crosslineSeparator
  let cursor := start - gap.length
  cursor < start && 0 < cursor && !gap.any isLineBreak && units[cursor - 1]?.any isDigit

def crosslineRightNeighbor (units : List Nat) (stop : Nat) : Bool :=
  units[stop]?.any isDigit || (crosslineGap units stop).any fun (_, lineBreak) => !lineBreak

/-- The modern id that starts with these digits and goes on over gaps. Every gap adds a
digit, so eighteen of them are more than enough. -/
def crosslineId (units : List Nat) (start : Nat) :
    (left : Nat) → (digits : List Nat) → (stop : Nat) → (crossed : Bool) → Option (List Hit)
  | 0, _, _, _ => some []
  | left + 1, digits, stop, crossed =>
    let xSuffix := digits.length = 17 && units[stop]?.any isCheckX
    if digits.length = 18 || xSuffix then do
      let checkStop := if xSuffix then stop + 1 else stop
      let check ← (if xSuffix then some 'X'.toNat else (digits[17]?).map (· + '0'.toNat))
      let first17 ← slice digits 0 17
      let found := crossed && !crosslineRightNeighbor units checkStop && (← idStructure first17) &&
        (← idSensitivity first17 check) = .s3
      return report found ⟨.cnResidentId, start, checkStop - start, .s3⟩
    else match crosslineGap units stop with
      | none => some []
      | some (next, lineBreak) =>
        let run := (units.drop next).takeWhile isDigit
        let taken := run.take (18 - digits.length)
        if taken.length < run.length then some []
        else crosslineId units start left (digits ++ taken.map digitValue) (next + taken.length)
          (crossed || lineBreak)

def scanCrosslineModernId (units : List Nat) : Option (List Hit) :=
  flatMapM (fun (start, stop) => do
    if 18 < stop - start || crosslineLeftNeighbor units start then return []
    let run ← slice units start stop
    crosslineId units start 19 (run.map digitValue) stop false) (runs isDigit units)

end Crossline

end Inspect
