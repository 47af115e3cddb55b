import Mathlib.Algebra.Order.Ring.Int
import IDoris.Library.Scanner
import IDoris.Library.Utf16
import IDoris.Proxy.Types

/-!
# Findings

What a scan reports. Texts are lists of UTF-16 code units, and a scan that indexes out of
range, where the program panics, is `none`.
-/
namespace Inspect

open Proxy (PrivacyClass)

inductive FindingKind where
  | cnResidentId | cnMobile | bankCard | cnUnifiedSocialCreditCode | cnLicensePlate | cnPassport
  | hkIdentityCard | hkMacauTravelPermit | emailAddress | apiKey | privateKey | highEntropySecret
  | credentialPath | inputLimitExceeded
  deriving DecidableEq

/-- `kind as u8`. -/
def FindingKind.index : FindingKind → Nat
  | .cnResidentId => 0
  | .cnMobile => 1
  | .bankCard => 2
  | .cnUnifiedSocialCreditCode => 3
  | .cnLicensePlate => 4
  | .cnPassport => 5
  | .hkIdentityCard => 6
  | .hkMacauTravelPermit => 7
  | .emailAddress => 8
  | .apiKey => 9
  | .privateKey => 10
  | .highEntropySecret => 11
  | .credentialPath => 12
  | .inputLimitExceeded => 13

theorem FindingKind.index_injective {a b : FindingKind} (h : a.index = b.index) : a = b := by
  cases a <;> cases b <;> first | rfl | cases h

/-- Public, internal, personal, special category. -/
inductive Sensitivity where
  | s0 | s1 | s2 | s3
  deriving DecidableEq

namespace Sensitivity

def rank : Sensitivity → Nat
  | .s0 => 0
  | .s1 => 1
  | .s2 => 2
  | .s3 => 3

def max (a b : Sensitivity) : Sensitivity := if a.rank ≤ b.rank then b else a

theorem rank_injective {a b : Sensitivity} (h : a.rank = b.rank) : a = b := by
  cases a <;> cases b <;> first | rfl | cases h

@[simp] theorem rank_max (a b : Sensitivity) : (a.max b).rank = Nat.max a.rank b.rank := by
  cases a <;> cases b <;> rfl

end Sensitivity

structure Hit where
  kind : FindingKind
  start : Nat
  length : Nat
  sensitivity : Sensitivity
  deriving DecidableEq

def Hit.stop (hit : Hit) : Nat := hit.start + hit.length

inductive InspectAction where
  | block | redact | allow
  deriving DecidableEq

structure InspectSpan where
  start : Nat
  length : Nat
  deriving DecidableEq

structure InspectFinding where
  kind : FindingKind
  span : Option InspectSpan
  deriving DecidableEq

structure InspectResponse where
  sensitivity : Sensitivity
  findings : List InspectFinding
  action : InspectAction
  deriving DecidableEq

structure InspectCtx where
  declared : PrivacyClass
  remoteAllowed : Bool
  redactConsent : Bool
  maxInputUtf16 : Nat

def defaultMaxInputUtf16 : Nat := 256 * 1024

/-- The one floating-point test of the scanner: whether the Shannon entropy of a token
with these counts, as the program sums it, reaches four bits a unit. -/
class Entropy where
  reaches : (counts : List Nat) → (length : Nat) → Bool

/-- The same test on whole numbers, for runs that are evaluated: with `n` units, counts `c`
reach four bits when `16 ^ n * ∏ c ^ c ≤ n ^ n`. -/
instance : Entropy where
  reaches counts n := 16 ^ n * (counts.map fun c => c ^ c).prod ≤ n ^ n

section Units

def isDigit (u : Nat) : Bool := decide ('0'.toNat ≤ u ∧ u ≤ '9'.toNat)

def isLowercase (u : Nat) : Bool := decide ('a'.toNat ≤ u ∧ u ≤ 'z'.toNat)

def isUppercase (u : Nat) : Bool := decide ('A'.toNat ≤ u ∧ u ≤ 'Z'.toNat)

def isAlphabetic (u : Nat) : Bool := isLowercase u || isUppercase u

def isAlnum (u : Nat) : Bool := isAlphabetic u || isDigit u

def toUppercase (u : Nat) : Nat := if isLowercase u then u - 32 else u

def toLowercase (u : Nat) : Nat := if isUppercase u then u + 32 else u

/-- One of the units of a string. -/
def oneOf (s : String) (u : Nat) : Bool := (Utf16.encode s).contains u

def digitValue (u : Nat) : Nat := u - '0'.toNat

end Units

/-- A list with one hit, if it was found. -/
def report (found : Bool) (hit : Hit) : List Hit := if found then [hit] else []

@[simp] theorem mem_report {found : Bool} {hit h : Hit} :
    h ∈ report found hit ↔ found = true ∧ h = hit := by
  cases found with
  | false => simp [report]
  | true => simp [report]

end Inspect
