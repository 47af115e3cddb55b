import IDoris.Library.Bounded
import IDoris.Proxy.Types
import IDoris.Supervisor.Types

/-!
# Routing candidates

Component cards, the catalogue's health threshold and the test for a trusted
local card. Prices and memory sizes are `f64` in the program and stay a parameter;
`F64` names the tests the catalogue performs on them and promises no law.
-/
namespace Policy

open Bounded Proxy Supervisor

/-- The tests on an `f64` the catalogue performs. -/
class F64 (F : Type) where
  isNaN : F → Bool
  gt : F → F → Bool

namespace F64

instance : F64 Float where
  isNaN := Float.isNaN
  gt a b := decide (b < a)

/-- Whole numbers, for runs that are evaluated. -/
instance : F64 Nat where
  isNaN _ := false
  gt a b := Nat.blt b a

end F64

inductive Capability where
  | chat | reasoning | vision | asr | tts | coding | embedding | rerank
  deriving DecidableEq

inductive Tier where
  | «local» | remote | lora
  deriving DecidableEq

inductive Complexity where
  | simple | complex
  deriving DecidableEq

inductive FallbackPolicy where
  | failClosed | nextInChain
  deriving DecidableEq

inductive Form where
  | httpService | spawnCli | bundledBinary | nostrNode | mitmProxy | batchJob
  deriving DecidableEq

inductive Egress where
  | none | loopback | lan | internet
  deriving DecidableEq

inductive Role where
  | fast | daily | deep | vision | embed | rerank | decide | auto
  deriving DecidableEq

/-- Every role but `auto`, which leaves the choice to the router. -/
def Role.isCatalogRole : Role → Bool
  | .auto => false
  | _ => true

/-- Prices for a million tokens. -/
structure Cost (F : Type) where
  inputPerM : F
  outputPerM : F

structure ProviderDescriptor (F : Type) where
  id : String
  tier : Tier
  capabilities : List Capability
  privacyClass : PrivacyClass
  cost : Cost F
  locality : Locality

structure ComponentCard (F : Type) where
  provider : ProviderDescriptor F
  form : Form
  endpoint : String
  privacyClass : PrivacyClass
  allowedEgress : List Egress
  loadPolicy : Option LoadPolicy
  extensions : Option (List (String × Json))

inductive AdmissionStatus where
  | ready | requiresEviction | blocked
  deriving DecidableEq

/-- One routing candidate; a cost of `none` is an unknown price, not a free one. -/
structure Card (F : Type) where
  component : ComponentCard F
  roles : List Role
  experiment : Bool
  minRamGb : F
  estimatedCostMinor : Option I64
  admissionStatus : AdmissionStatus

def Card.id {F : Type} (card : Card F) : String := card.component.provider.id

def subscriptionProviderId : String := "subscription"

def isSubscriptionProviderId (providerId : String) : Bool := providerId = subscriptionProviderId

section Locality

variable {F : Type}

/-- Where the inference of a card really runs. -/
def servedLocality (component : ComponentCard F) : Locality :=
  if component.form = .spawnCli || isSubscriptionProviderId component.provider.id then .remote
  else component.provider.locality

/-- Served on loopback, carrying only local requests, with no way out. -/
def trustedLocal (component : ComponentCard F) : Bool :=
  servedLocality component = .loopback && component.privacyClass = .localOnly &&
    component.allowedEgress.all fun egress => egress = .none || egress = .loopback

def effectiveServedLocality (card : Card F) : Locality := servedLocality card.component

def isLocalCapable (card : Card F) : Bool := trustedLocal card.component

/-- A content check can only tighten the declared floor. -/
def effectivePrivacy (floor : PrivacyClass) (contentTightening : Option PrivacyClass) :
    PrivacyClass :=
  match contentTightening with
  | some .localOnly => .localOnly
  | some .any => floor
  | none => floor

@[simp] theorem effectivePrivacy_none (floor : PrivacyClass) :
    effectivePrivacy floor none = floor := rfl

end Locality

section Catalogue

variable {F : Type} [F64 F]

/-- The health threshold; a NaN on either side refuses the card. -/
def isCatalogMetadataEligible (experiment : Bool) (requiredRamGb : F)
    (availableRamGb : Option F) : Bool :=
  if experiment || F64.isNaN requiredRamGb then false
  else match availableRamGb with
    | some available => !(F64.isNaN available || F64.gt requiredRamGb available)
    | none => true

def isCatalogEligible (card : Card F) (minRamGb : Option F) : Bool :=
  isCatalogMetadataEligible card.experiment card.minRamGb minRamGb

def isRoleMetadataEligible (experiment : Bool) (requiredRamGb : F) (roles : List Role)
    (role : Role) (availableRamGb : Option F) : Bool :=
  role.isCatalogRole && isCatalogMetadataEligible experiment requiredRamGb availableRamGb &&
    roles.contains role

def isEligibleForRole (card : Card F) (role : Role) (minRamGb : Option F) : Bool :=
  isRoleMetadataEligible card.experiment card.minRamGb card.roles role minRamGb

variable {card : Card F} {role : Role} {minRamGb : Option F}

/-- Eligibility for a role includes the health threshold. -/
theorem isCatalogEligible_of_role (h : isEligibleForRole card role minRamGb = true) :
    isCatalogEligible card minRamGb = true := by
  simp only [isEligibleForRole, isRoleMetadataEligible, Bool.and_eq_true] at h
  exact h.1.2

end Catalogue

end Policy
