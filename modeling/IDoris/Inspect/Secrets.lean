import IDoris.Inspect.Types

/-!
# Secrets

Private keys, keys with a known prefix, random-looking tokens and paths of credential files.
-/
namespace Inspect

open Scanner

/-- Prefixes of keys, with the length of the shortest body. -/
def keyPrefixes : List (String × Nat) :=
  [("sk-", 20), ("AKIA", 16), ("ASIA", 16), ("ghp_", 36), ("gho_", 36), ("ghu_", 36),
    ("ghs_", 36), ("ghr_", 36), ("github_pat_", 22), ("glpat-", 20), ("xoxb-", 10),
    ("xoxp-", 10), ("AIza", 35), ("hf_", 30)]

def credentialPaths : List String :=
  [".ssh/", "id_rsa", "id_ed25519", "id_ecdsa", ".aws/credentials", ".netrc", ".pgpass",
    ".docker/config.json", ".kube/config", ".keychain", ".pem", ".p12", ".pfx", ".jks"]

section PrivateKeys

def beginMark : List Nat := Utf16.encode "-----BEGIN "
def endMark : List Nat := Utf16.encode "-----END "
def dashes : List Nat := Utf16.encode "-----"
def keyLabel : List Nat := Utf16.encode "PRIVATE KEY"

/-- Where the header that begins at `start` ends; an open one ends with the text. -/
def headerEnd (units : List Nat) (start : Nat) : Nat :=
  ((find units (start + 11) dashes).map (· + 5)).getD units.length

/-- Where the block behind a header ends; one without an end goes on to the end of the text. -/
def blockEnd (units : List Nat) (header : Nat) : Nat :=
  (((find units header endMark).bind fun stop => find units (stop + 9) dashes).map (· + 5)).getD
    units.length

/-- The loop from `from`; every marker moves it on, so one round for each unit is enough. -/
def privateKeysFrom (units : List Nat) : (left start : Nat) → Option (List Hit)
  | 0, _ => some []
  | left + 1, start =>
    match find units start beginMark with
    | none => some []
    | some begin => do
      let header := headerEnd units begin
      if (find (← slice units begin header) 0 keyLabel).isNone then
        privateKeysFrom units left header
      else
        let stop := blockEnd units header
        return ⟨.privateKey, begin, stop - begin, .s3⟩ :: (← privateKeysFrom units left stop)

def scanPrivateKeys (units : List Nat) : Option (List Hit) :=
  privateKeysFrom units (units.length + 1) 0

end PrivateKeys

def hasKeyPrefix (token : List Nat) : Bool :=
  keyPrefixes.any fun (pre, minBody) =>
    (Utf16.encode pre).length + minBody ≤ token.length &&
      (Utf16.encode pre).isPrefixOf token

def isKeyMember (u : Nat) : Bool := isAlnum u || u = '_'.toNat || u = '-'.toNat

def scanKeyPrefixes (units : List Nat) : Option (List Hit) :=
  flatMapM (fun (start, stop) => do
    return report (hasKeyPrefix (← slice units start stop)) ⟨.apiKey, start, stop - start, .s3⟩)
    (runs isKeyMember units)

section Entropy

variable [Entropy]

def entropyMember (u : Nat) : Bool := isAlnum u || oneOf "+/_-" u

/-- Lower case, upper case, digit, other. -/
def unitClass (u : Nat) : Nat :=
  if isLowercase u then 0 else if isUppercase u then 1 else if isDigit u then 2 else 3

def switches : List Nat → Nat
  | u :: v :: rest => (if unitClass u ≠ unitClass v then 1 else 0) + switches (v :: rest)
  | _ => 0

/-- How often each residue modulo 128 occurs, without the zeros. -/
def unitCounts (token : List Nat) : List Nat :=
  ((List.range 128).map fun slot => (token.filter (· % 128 = slot)).length).filter (0 < ·)

def looksRandom (token : List Nat) : Bool :=
  if token.length < 32 then false
  else Entropy.reaches (unitCounts token) token.length && token.length - 1 ≤ switches token * 2

/-- A part of a token with its padding, unless the padding is followed by a value. -/
def paddedPart (token : List Nat) : Nat × Nat → Nat × Nat
  | (start, stop) =>
    let padding := ((token.drop stop).take 2).takeWhile (· = '='.toNat)
    let padded := stop + padding.length
    if (token[padded]?).all fun u => !entropyMember u then (start, padded) else (start, stop)

/-- The value parts, what follows the first equals sign, and the whole token. -/
def entropyCandidates (token : List Nat) : List (Nat × Nat) :=
  (runs entropyMember token).map (paddedPart token) ++
    ((token.idxOf? '='.toNat).map fun place => (place + 1, token.length)).toList ++
    [(0, token.length)]

/-- The random-looking candidates that overlap none accepted before. -/
def acceptRandom (token : List Nat) (start : Nat) :
    (candidates accepted : List (Nat × Nat)) → Option (List Hit)
  | [], _ => some []
  | (a, b) :: rest, accepted => do
    if looksRandom (← slice token a b) && !accepted.any fun (x, y) => a < y && x < b then
      return ⟨.highEntropySecret, start + a, b - a, .s3⟩ ::
        (← acceptRandom token start rest (accepted ++ [(a, b)]))
    else acceptRandom token start rest accepted

def scanEntropy (units : List Nat) : Option (List Hit) :=
  flatMapM (fun (start, stop) => do
    let token ← slice units start stop
    acceptRandom token start (entropyCandidates token) [])
    (runs (fun u => entropyMember u || u = '='.toNat) units)

end Entropy

section Paths

/-- Backslashes as slashes, and a run of slashes as one. -/
def foldPath (token : List Nat) : List Nat :=
  token.foldl (fun folded u =>
    let u := if u = '\\'.toNat then '/'.toNat else u
    if u ≠ '/'.toNat || folded.getLast? ≠ some u then folded ++ [u] else folded) []

/-- `.env` as a file name: behind a slash or a tilde, before a dot or the end. -/
def isEnvFile (token : List Nat) : Bool :=
  (List.range token.length).any fun place =>
    (Utf16.encode ".env").isPrefixOf (token.drop place) &&
      (place = 0 || (token[place - 1]?).any fun u => u = '/'.toNat || u = '~'.toNat) &&
      (token[place + 4]?).all fun u => u = '.'.toNat

def credentialPath (token : List Nat) : Bool :=
  (credentialPaths.any fun path => (find token 0 (Utf16.encode path)).isSome) || isEnvFile token

def isPathMember (u : Nat) : Bool := isAlnum u || oneOf "._~/-\\" u

def isPlainPathMember (u : Nat) : Bool := isAlnum u || oneOf "._~/-" u

/-- A run without the backslashes at its end; where folding finds nothing, its parts
between backslashes are judged alone. -/
def scanPath (units : List Nat) : Nat × Nat → Option (List Hit)
  | (start, runEnd) => do
    let run ← slice units start runEnd
    let trimmed := (run.reverse.dropWhile (· = '\\'.toNat)).reverse
    if credentialPath (foldPath trimmed) then
      return [⟨.credentialPath, start, trimmed.length, .s2⟩]
    else flatMapM (fun (a, b) => do
      return report (credentialPath (← slice trimmed a b))
        ⟨.credentialPath, start + a, b - a, .s2⟩) (runs isPlainPathMember trimmed)

def scanPaths (units : List Nat) : Option (List Hit) :=
  flatMapM (scanPath units) (runs isPathMember units)

end Paths

def scanSecrets [Entropy] (units : List Nat) : Option (List Hit) := do
  return (← scanPrivateKeys units) ++ (← scanKeyPrefixes units) ++ (← scanEntropy units) ++
    (← scanPaths units)

end Inspect
