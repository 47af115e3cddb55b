import IDoris.Library.Text
import IDoris.Inspect.Types

/-!
# The shape of placeholders

A placeholder is a bracketed name with an index. Texts are lists of characters here.
-/
namespace Redact

open Inspect (FindingKind)

/-- Fullwidth ASCII as ASCII. -/
def foldWidth (c : Char) : Char :=
  if 0xFF01 ≤ c.toNat ∧ c.toNat ≤ 0xFF5E then Char.ofNat (c.toNat - 0xFEE0) else c

/-- The letters and digits of a text, in upper case. -/
def normalize (text : List Char) : List Char :=
  ((text.map foldWidth).filter Char.isAlphanum).map Char.toUpper

/-- The length in UTF-8. -/
def byteLength (text : List Char) : Nat := (text.map Char.utf8Size).sum

def isWord (c : Char) : Bool := (foldWidth c).isAlphanum || foldWidth c = '_'

def asStr : FindingKind → String
  | .cnResidentId => "cn_resident_id"
  | .cnMobile => "cn_mobile"
  | .bankCard => "bank_card"
  | .cnUnifiedSocialCreditCode => "cn_unified_social_credit_code"
  | .cnLicensePlate => "cn_license_plate"
  | .cnPassport => "cn_passport"
  | .hkIdentityCard => "hk_identity_card"
  | .hkMacauTravelPermit => "hk_macau_travel_permit"
  | .emailAddress => "email_address"
  | .apiKey => "api_key"
  | .privateKey => "private_key"
  | .highEntropySecret => "high_entropy_secret"
  | .credentialPath => "credential_path"
  | .inputLimitExceeded => "input_limit_exceeded"

def label (kind : FindingKind) : List Char := (asStr kind).toList.map Char.toUpper

def reservedKinds : List FindingKind :=
  [.cnResidentId, .cnMobile, .bankCard, .cnUnifiedSocialCreditCode, .cnLicensePlate, .cnPassport,
    .hkIdentityCard, .hkMacauTravelPermit, .emailAddress, .apiKey, .privateKey,
    .highEntropySecret, .credentialPath, .inputLimitExceeded]

/-- The names of persons and of findings, in any case. -/
def reservedKind (kind : List Char) : Bool :=
  Text.eqIgnoreAsciiCase (String.ofList kind) "person" ||
    reservedKinds.any fun k => Text.eqIgnoreAsciiCase (String.ofList kind) (asStr k)

/-- What is known of an open bracket: the text so far, unless it became too long, and whether
it is the shape of a placeholder. -/
structure Token where
  spelling : List Char
  overflow : Bool
  uppercase : Bool
  reserved : Bool
  digits : Bool
  indexed : Bool
  deriving DecidableEq

namespace Token

def new : Token := ⟨['['], false, true, false, false, false⟩

def advance (t : Token) (c : Char) : Token :=
  let c := foldWidth c
  let uppercase := t.uppercase && !c.isLower
  if c = '_' then
    { t with
      uppercase
      reserved := !t.overflow && reservedKind ((t.spelling.drop 1).map foldWidth)
      indexed := t.overflow || 1 < byteLength t.spelling
      digits := false }
  else if c.isDigit then { t with uppercase, digits := t.indexed }
  else { t with uppercase, indexed := false, digits := false }

def placeholder (t : Token) : Bool := t.digits && (t.uppercase || t.reserved)

end Token

/-- The closed brackets around a name, each from the last bracket that opens before it. -/
def placeholderTokensFrom : Option Token → List Char → List (List Char)
  | _, [] => []
  | token, c :: cs =>
    if c = '[' then placeholderTokensFrom (some .new) cs
    else match token with
      | none => placeholderTokensFrom none cs
      | some current =>
        if c = ']' then (current.spelling ++ [c]) :: placeholderTokensFrom none cs
        else if isWord c then
          let next := current.advance c
          placeholderTokensFrom (some { next with spelling := next.spelling ++ [c] }) cs
        else placeholderTokensFrom none cs

def placeholderTokens (text : List Char) : List (List Char) := placeholderTokensFrom none text

section Reading

/-- A name that is followed by an index. -/
def HasIndex (body kind digits : List Char) : Prop :=
  body.map foldWidth = kind ++ '_' :: digits ∧ kind ≠ [] ∧ digits ≠ [] ∧ ∀ d ∈ digits, d.isDigit

def NoLower (body : List Char) : Prop := ∀ c ∈ body, (foldWidth c).isLower = false

/-- The name in the brackets has the shape of a placeholder. -/
def Shaped (body : List Char) : Prop :=
  ∃ kind digits, HasIndex body kind digits ∧ (NoLower body ∨ reservedKind kind = true)

/-- A reserved name with lower-case letters that reaches the limit of what is held. -/
def Overlong (limit : Nat) (body : List Char) : Prop :=
  ∃ kind digits, HasIndex body kind digits ∧ ¬NoLower body ∧ reservedKind kind = true ∧
    limit ≤ 1 + byteLength (body.take kind.length)

end Reading

end Redact
