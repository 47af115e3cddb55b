import IDoris.Library.Selection
import IDoris.Library.Transaction
import IDoris.Policy.Card

/-!
# The decision pipeline

Privacy, role and capability, price, admission, budget, choice: every stage filters
the candidates the one before it left over, and the choice takes the first minimum.
-/
namespace Policy

open Bounded Proxy

structure TaskProfile where
  privacy : Option PrivacyClass
  intent : Option String
  complexity : Option Complexity
  capabilities : Option (List Capability)
  fallback : Option FallbackPolicy

structure RequestProfile where
  task : TaskProfile
  role : Option Role
  tenantId : Option String
  contentTightening : Option PrivacyClass

namespace RequestProfile

def effectivePrivacy (req : RequestProfile) : PrivacyClass :=
  Policy.effectivePrivacy (req.task.privacy.getD .localOnly) req.contentTightening

def effectiveCapabilities (req : RequestProfile) : List Capability :=
  req.task.capabilities.getD [.chat]

def allowFallback (req : RequestProfile) : Bool := req.task.fallback = some .nextInChain

end RequestProfile

inductive BudgetScope where
  | paidOnly | all
  deriving DecidableEq

structure BudgetSnapshot where
  limitMinor : I64
  spentMinor : I64
  scope : BudgetScope

namespace BudgetSnapshot

def isOver (snapshot : BudgetSnapshot) : Bool := snapshot.limitMinor.val ≤ snapshot.spentMinor.val

/-- The `i64` subtraction of a release build. -/
def balanceMinor (snapshot : BudgetSnapshot) : I64 :=
  .wrappingSub snapshot.limitMinor snapshot.spentMinor

end BudgetSnapshot

structure PolicyCtx (F : Type) where
  minRamGb : Option F
  budget : Option (String → Option BudgetSnapshot)

inductive Stage where
  | roleCapability | pricing | admission
  deriving DecidableEq

inductive ReasonCode where
  | privacyLoopbackOnly
  | privacyTightenedByContent
  | roleMatched (role : Role)
  | roleFallbackCapabilityOnly
  | priceUnknownExcluded
  | budgetWithinLimit
  | budgetNoTenantContext
  | budgetFallbackToFreeCandidate
  | admissionReady
  | admissionRequiresEviction
  deriving DecidableEq

inductive Degradation where
  | roleFallback (requested : Role)
  | budgetFallback (estimatedCostMinor : I64)
  deriving DecidableEq

structure Decision where
  chosenId : String
  reasonCodes : List ReasonCode
  degradations : List Degradation
  deriving DecidableEq

inductive Rejection where
  | unknownRole (requested : String)
  | localOnlyUnavailable
  | budgetExceeded (balanceMinor estimatedCostMinor : I64) (topupHint : String)
  | noEligibleCandidate (stage : Stage)
  deriving DecidableEq

section Choice

variable {F : Type}

def admissionRank : AdmissionStatus → Nat
  | .ready => 0
  | .requiresEviction => 1
  | .blocked => 2

/-- The cost the order and the budget compare with; an unknown one counts as zero. -/
def Card.costMinor (card : Card F) : Int := (card.estimatedCostMinor.getD (.lit 0)).val

def Card.isFree (card : Card F) : Bool := card.estimatedCostMinor = some (.lit 0)

def Card.isPaid (card : Card F) : Bool := card.estimatedCostMinor.any fun cost => 0 < cost.val

/-- Stable FNV-1a score of a session and a candidate. -/
def affinityScore (session candidateId : String) : UInt64 :=
  (session.toUTF8.data.toList ++ 0 :: candidateId.toUTF8.data.toList).foldl
    (fun hash byte => (hash ^^^ byte.toUInt64) * 0x100000001b3) 0xcbf29ce484222325

/-- Admission first, then cost, readiness and session affinity, then the id. -/
def compareCards (affinityKey : Option String) (ready : List String) (a b : Card F) : Ordering :=
  (compare (admissionRank a.admissionStatus) (admissionRank b.admissionStatus)).then <|
  (compare a.costMinor b.costMinor).then <|
  (match affinityKey with
    | some _ => compare (!ready.contains a.id) (!ready.contains b.id)
    | none => .eq).then <|
  (match affinityKey with
    | some session => compare (affinityScore session b.id) (affinityScore session a.id)
    | none => .eq).then <|
  compare a.id b.id

def pick (candidates : List (Card F)) (affinityKey : Option String) (ready : List String) :
    Option (Card F) :=
  Selection.minBy (compareCards affinityKey ready) candidates

variable {candidates : List (Card F)} {affinityKey : Option String} {ready : List String}
  {card : Card F}

theorem pick_mem (h : pick candidates affinityKey ready = some card) : card ∈ candidates :=
  Selection.minBy_mem h

theorem pick_isSome (h : candidates ≠ []) :
    ∃ card, pick candidates affinityKey ready = some card := Selection.minBy_isSome h

end Choice

section Stages

variable {F : Type} [F64 F]

def hasCapabilities (card : Card F) (needed : List Capability) : Bool :=
  needed.all fun capability => card.component.provider.capabilities.contains capability

/-- Recorded when the floor was `any` and the content check made it `local_only`. -/
def tighteningReasons (req : RequestProfile) : List ReasonCode :=
  if req.task.privacy.getD .localOnly = .any && req.effectivePrivacy = .localOnly
  then [.privacyTightenedByContent] else []

def privacyStage (req : RequestProfile) (cards : List (Card F)) :
    Except Rejection (List (Card F) × List ReasonCode) := do
  if req.effectivePrivacy = .localOnly then
    let trusted := cards.filter isLocalCapable
    if trusted = [] then throw .localOnlyUnavailable
    return (trusted, tighteningReasons req ++ [.privacyLoopbackOnly])
  else
    return (cards, tighteningReasons req)

/-- Healthy and able, whatever the role. -/
def isCapabilityCandidate (req : RequestProfile) (ctx : PolicyCtx F) (card : Card F) : Bool :=
  isCatalogEligible card ctx.minRamGb && hasCapabilities card req.effectiveCapabilities

def isRoleCandidate (req : RequestProfile) (ctx : PolicyCtx F) (role : Role) (card : Card F) :
    Bool :=
  isEligibleForRole card role ctx.minRamGb && hasCapabilities card req.effectiveCapabilities

/-- The role of the request that restricts the candidates. -/
def catalogRole (req : RequestProfile) : Option Role := req.role.filter Role.isCatalogRole

def roleStage (req : RequestProfile) (ctx : PolicyCtx F) (privacyOk : List (Card F)) :
    Except Rejection (List (Card F) × List ReasonCode × Option Degradation) := do
  let capabilityOnly := privacyOk.filter (isCapabilityCandidate req ctx)
  match catalogRole req with
  | some role =>
    let roleMatched := privacyOk.filter (isRoleCandidate req ctx role)
    if roleMatched ≠ [] then
      return (roleMatched, [.roleMatched role], none)
    if !req.allowFallback then throw (.noEligibleCandidate .roleCapability)
    if capabilityOnly = [] then throw (.noEligibleCandidate .roleCapability)
    return (capabilityOnly, [.roleFallbackCapabilityOnly], some (.roleFallback role))
  | none =>
    if capabilityOnly = [] then throw (.noEligibleCandidate .roleCapability)
    return (capabilityOnly, [], none)

def priceKnown (card : Card F) : Bool := card.estimatedCostMinor.any fun cost => 0 ≤ cost.val

def pricingStage (candidates : List (Card F)) :
    Except Rejection (List (Card F) × List ReasonCode) := do
  let priced := candidates.filter priceKnown
  if priced = [] then throw (.noEligibleCandidate .pricing)
  return (priced,
    if priced.length < candidates.length then [.priceUnknownExcluded] else [])

def notBlocked (card : Card F) : Bool := card.admissionStatus ≠ .blocked

def admissionStage (candidates : List (Card F)) : Except Rejection (List (Card F)) := do
  let admissible := candidates.filter notBlocked
  if admissible = [] then throw (.noEligibleCandidate .admission)
  return admissible

def tenantSnapshot (req : RequestProfile) (ctx : PolicyCtx F) : Option BudgetSnapshot := do
  let view ← ctx.budget
  let tenant ← req.tenantId
  view tenant

def cheapestPaidCost (candidates : List (Card F)) : I64 :=
  (Selection.minBy (fun a b => compare a.val b.val)
    ((candidates.filter Card.isPaid).filterMap Card.estimatedCostMinor)).getD (.lit 0)

def budgetTopupHint (snapshot : BudgetSnapshot) (estimatedCostMinor : I64) : String :=
  "预算不足：余额 " ++ toString snapshot.balanceMinor.val ++ " minor units，本次预计花费 " ++
    toString estimatedCostMinor.val ++ " minor units；" ++
    "请充值，或在请求头声明 X-iDoris-Fallback 以改用本地路径。"

def budgetExceeded (snapshot : BudgetSnapshot) (estimatedCostMinor : I64) : Rejection :=
  .budgetExceeded snapshot.balanceMinor estimatedCostMinor
    (budgetTopupHint snapshot estimatedCostMinor)

/-- Whether the budget does not cover a choice of this cost. -/
def wouldExceed (snapshot : BudgetSnapshot) (cost : I64) : Bool :=
  0 < cost.val && (snapshot.isOver || snapshot.balanceMinor.val < cost.val)

/-- Only the path that would be taken anyway decides: if it costs more than the budget
covers, free candidates replace it, but only with a declared fallback. -/
def budgetStage (req : RequestProfile) (ctx : PolicyCtx F) (candidates : List (Card F))
    (affinityKey : Option String) (ready : List String) :
    Except Rejection (List (Card F) × List ReasonCode × Option Degradation) :=
  match tenantSnapshot req ctx with
  | none => return (candidates, [.budgetNoTenantContext], none)
  | some snapshot => do
    let naturalCost := ((pick candidates affinityKey ready).bind Card.estimatedCostMinor).getD
      (.lit 0)
    let free := candidates.filter Card.isFree
    if snapshot.scope = .all && snapshot.isOver then
      throw (budgetExceeded snapshot (cheapestPaidCost candidates))
    if !wouldExceed snapshot naturalCost then
      return (candidates, [.budgetWithinLimit], none)
    if req.allowFallback && free ≠ [] then
      return (free, [.budgetFallbackToFreeCandidate], some (.budgetFallback naturalCost))
    throw (budgetExceeded snapshot naturalCost)

/-- The reason codes of the admission states that are left. -/
def admissionReasons (candidates : List (Card F)) : List ReasonCode :=
  (if candidates.any (·.admissionStatus = .requiresEviction)
    then [.admissionRequiresEviction] else []) ++
  (if candidates.any (·.admissionStatus = .ready) then [.admissionReady] else [])

/-- The pipeline. The last `none` is the source's `expect` on a non-empty list. -/
def decideWithAffinityAndReadySelected (req : RequestProfile) (cards : List (Card F))
    (ctx : PolicyCtx F) (affinityKey : Option String) (ready : List String) :
    Except Rejection (Option (Decision × Card F)) := do
  let (privacyOk, privacyReasons) ← privacyStage req cards
  let (matched, roleReasons, roleDegradation) ← roleStage req ctx privacyOk
  let (pricedKnown, priceReasons) ← pricingStage matched
  let admissionEligible ← admissionStage pricedKnown
  let (afterBudget, budgetReasons, budgetDegradation) ←
    budgetStage req ctx admissionEligible affinityKey ready
  return (pick afterBudget affinityKey ready).map fun chosen =>
    (⟨chosen.id,
      privacyReasons ++ roleReasons ++ priceReasons ++ budgetReasons ++
        admissionReasons afterBudget,
      roleDegradation.toList ++ budgetDegradation.toList⟩, chosen)

end Stages

end Policy
