import IDoris.Library.Text
import IDoris.Policy.Decide
import IDoris.Pricing.Quote

/-!
# The selection of a provider

The cards that may serve a request become the candidates of the decision pipeline. A
snapshot of the gates blocks some of them; if that leaves nothing, a second pass over the
same snapshot blocks only the providers that no later refusal covers.
-/
namespace Dispatch

open Bounded Policy Proxy Supervisor Text Transaction

/-- The tests on prices that the selection performs, and the quote. -/
class Quotes (F : Type) extends F64 F where
  zero : F
  isZero : F → Bool
  isFinite : F → Bool
  estimateCostMinorWithCompletion : Cost F → String → Nat → Option I64

def rateGt : Pricing.Rate → Pricing.Rate → Bool
  | .finite a, .finite b => b < a
  | .infinite false, .finite _ => true
  | .infinite false, .infinite true => true
  | .finite _, .infinite true => true
  | _, _ => false

instance : Quotes Pricing.Rate where
  isNaN rate := rate = .nan
  gt := rateGt
  zero := .finite 0
  isZero := Pricing.Rate.isZero
  isFinite := Pricing.Rate.isFinite
  estimateCostMinorWithCompletion cost :=
    Pricing.estimateCostMinorWithCompletion ⟨cost.inputPerM, cost.outputPerM⟩

section Roles

def roleText : Role → String
  | .fast => "fast"
  | .daily => "daily"
  | .deep => "deep"
  | .vision => "vision"
  | .embed => "embed"
  | .rerank => "rerank"
  | .decide => "decide"
  | .auto => "auto"

def roles : List Role := [.fast, .daily, .deep, .vision, .embed, .rerank, .decide, .auto]

theorem mem_roles (role : Role) : role ∈ roles := by cases role <;> decide

def isEcmascriptWhitespace (c : Char) : Bool :=
  let n := c.toNat
  decide (9 ≤ n ∧ n ≤ 13 ∨ n = 32 ∨ n = 160 ∨ n = 5760 ∨ 8192 ≤ n ∧ n ≤ 8202 ∨
    n = 8232 ∨ n = 8233 ∨ n = 8239 ∨ n = 8287 ∨ n = 12288 ∨ n = 65279)

def idorisPrefix : String := "idoris/"

/-- The role a model name asks for; the error holds the part that names no role. -/
def parseModelRole (model : String) : Except String (Option Role) :=
  let trimmed := ((model.toList.dropWhile isEcmascriptWhitespace).reverse.dropWhile
    isEcmascriptWhitespace).reverse
  let candidate := String.ofList (trimmed.take idorisPrefix.length)
  let rolePart := String.ofList (trimmed.drop idorisPrefix.length)
  if eqIgnoreAsciiCase candidate idorisPrefix then
    match roles.find? fun role => roleText role = rolePart with
    | some role => .ok (some role)
    | none => .error rolePart
  else .ok none

/-- The control characters of Unicode. -/
def isControl (c : Char) : Bool := decide (c.toNat < 32 ∨ 127 ≤ c.toNat ∧ c.toNat < 160)

/-- A backend model may be bound to a role: neither is empty, dressed up or itself a role. -/
def isBinding (role model : String) : Bool :=
  roles.any (fun r => roleText r = role) && !(trim model).isEmpty && model = trim model &&
    !model.toList.any isControl && (match parseModelRole model with | .ok none => true | _ => false)

inductive RoleModelsError where
  | subscription
  | malformed
  | invalidBinding (role : String)
  deriving DecidableEq

def asString : Json → Option String
  | .string value => some value
  | _ => none

variable {F : Type}

/-- The backend models an operator has bound to roles. -/
def roleModels (component : ComponentCard F) :
    Except RoleModelsError (List (String × String)) :=
  match component.extensions.bind (·.lookup "idoris_role_models") with
  | none => .ok []
  | some value => do
    refuseIf (component.provider.id = subscriptionProviderId) .subscription
    let models ← orRefuse (value.asObject.bind fun fields =>
      fields.mapM fun entry => (asString entry.2).map fun model => (entry.1, model)) .malformed
    match models.find? fun entry => !isBinding entry.1 entry.2 with
    | some entry => .error (.invalidBinding entry.1)
    | none => .ok models

end Roles

section Subscription

inductive CardBoundary where
  | ordinary | subscription
  deriving DecidableEq

inductive SubscriptionCardError where
  | spawnCliImpersonation | wrongForm | wrongEndpoint | wrongTier | wrongPrivacy | invalidCost
  deriving DecidableEq

def subscriptionEndpoint : String := "spawn://subscription"

variable {F : Type} [Quotes F]

def classifySubscriptionCard (card : ComponentCard F) :
    Except SubscriptionCardError CardBoundary := do
  if card.provider.id ≠ subscriptionProviderId then
    refuseIf (card.form = .spawnCli) .spawnCliImpersonation
    return .ordinary
  refuseIf (card.form ≠ .spawnCli) .wrongForm
  refuseIf (card.endpoint ≠ subscriptionEndpoint) .wrongEndpoint
  refuseIf (card.provider.tier ≠ .remote) .wrongTier
  refuseIf (card.provider.privacyClass ≠ .any ∨ card.privacyClass ≠ .any) .wrongPrivacy
  let cost := card.provider.cost
  refuseIf (!Quotes.isFinite cost.inputPerM || !Quotes.isFinite cost.outputPerM ||
    !Quotes.isZero cost.inputPerM || !Quotes.isZero cost.outputPerM) .invalidCost
  return .subscription

/-- A subscription runs its own model, and serves every role unless roles are bound. -/
def fixedSubscriptionRoles (component : ComponentCard F) : Bool :=
  classifySubscriptionCard component = .ok .subscription &&
    !component.extensions.any fun fields => (fields.lookup "idoris_role_models").isSome

end Subscription

section Select

/-- The parts of a parsed profile that the selection reads. -/
structure ParsedProfile where
  task : TaskProfile
  role : Option Role
  tenantId : Option String

structure Selected (F : Type) where
  decision : Decision
  servedLocality : Locality
  card : ComponentCard F
  loadPolicy : LoadPolicy
  estimatedCostMinor : I64

/-- Forwarded directly instead of through the supervisor. -/
def isResidentHttpService {F : Type} (card : ComponentCard F) : Bool :=
  card.form = .httpService && card.loadPolicy.any fun policy => policy.mode = .resident

def defaultLoadPolicy : LoadPolicy := ⟨.onDemand, .idleTtl 300, .coexist⟩

variable {F : Type} [Quotes F]

/-- Some role of the card, or the one that is asked for. -/
def bindsRole (component : ComponentCard F) (role : Role) : Bool :=
  fixedSubscriptionRoles component ||
    (((roleModels component).toOption.getD []).lookup (roleText role)).isSome

def candidate (component : ComponentCard F) (prompt : String) (completion : Nat) : Card F where
  component := component
  roles := roles.filter fun role => role.isCatalogRole && bindsRole component role
  experiment := false
  minRamGb := Quotes.zero
  estimatedCostMinor :=
    if isResidentHttpService component then
      Quotes.estimateCostMinorWithCompletion component.provider.cost prompt completion
    else
      Quotes.estimateCostMinorWithCompletion component.provider.cost prompt
        Pricing.reservedCompletionTokens
  admissionStatus := .ready

/-- A card whose role bindings can be read, and that binds the role of the request. -/
def isCandidate (profile : ParsedProfile) (component : ComponentCard F) : Bool :=
  (roleModels component).isOk && profile.role.all (bindsRole component)

def gatedCandidate (prompt : String) (completion : Nat) (entry : ComponentCard F × Bool) :
    Card F :=
  let card := candidate entry.1 prompt completion
  if entry.2 then { card with admissionStatus := .blocked } else card

def gateCandidates (cards : List (ComponentCard F)) (profile : ParsedProfile) (prompt : String)
    (blocked : List Bool) (completion : Nat) : List (Card F) :=
  ((cards.zip blocked).filter fun entry => isCandidate profile entry.1).map
    (gatedCandidate prompt completion)

/-- With a tightened content the floor is `any` again and the content check narrows it. -/
def requestProfile (profile : ParsedProfile) (contentTightened : Bool) : RequestProfile where
  task := if contentTightened then { profile.task with privacy := some .any } else profile.task
  role := profile.role
  tenantId := profile.tenantId
  contentTightening := if contentTightened then some .localOnly else none

/-- One pass. An answer of `none` is a panic of the source. -/
def selectWithGateSnapshotAndCompletion (cards : List (ComponentCard F)) (profile : ParsedProfile)
    (prompt : String) (affinityKey : Option String) (ready : List String) (blocked : List Bool)
    (completion : Nat) (contentTightened : Bool) : Except Rejection (Option (Selected F)) := do
  if cards.length ≠ blocked.length then return none
  let chosen ← decideWithAffinityAndReadySelected (requestProfile profile contentTightened)
    (gateCandidates cards profile prompt blocked completion) ⟨none, none⟩ affinityKey ready
  return chosen.map fun (decision, card) =>
    { decision
      servedLocality := effectiveServedLocality card
      card := card.component
      loadPolicy := card.component.loadPolicy.getD defaultLoadPolicy
      estimatedCostMinor := card.estimatedCostMinor.getD (.lit 0) }

/-- The mask of the second pass: only a resident service may be tried although it is blocked. -/
def fallbackMask (cards : List (ComponentCard F)) (blocked : List Bool) : List Bool :=
  (cards.zip blocked).map fun entry => entry.2 && !isResidentHttpService entry.1

def selectWithGateFallbackAndCompletion (cards : List (ComponentCard F)) (profile : ParsedProfile)
    (prompt : String) (affinityKey : Option String) (ready : List String) (blocked : List Bool)
    (completion : Nat) (contentTightened : Bool) : Except Rejection (Option (Selected F)) :=
  match selectWithGateSnapshotAndCompletion cards profile prompt affinityKey ready blocked
    completion contentTightened with
  | .error _ =>
    selectWithGateSnapshotAndCompletion cards profile prompt affinityKey ready
      (fallbackMask cards blocked) completion contentTightened
  | .ok result => .ok result

end Select

end Dispatch
