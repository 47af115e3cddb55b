import IDoris.Dispatch.Select
import IDoris.Ledger.Schema
import IDoris.Library.Interaction
import IDoris.Proxy.Gates

/-!
# Local dispatch

One request that a supervisor serves, one action at a time. Three guards are alive while it
waits: the budget reservation, the ticket of the provider's breaker and the cancellation token.
An await names the guards that are dropped with the future, and a return drops them.
-/
namespace Dispatch

open Bounded Interaction Ledger Policy Program Proxy Supervisor Transaction

section Values

/-- Prices, and what a number of tokens costs. -/
class Charges (F : Type) extends Quotes F where
  pricedMinor : Cost F → Nat → Nat → Option I64

instance : Charges Pricing.Rate where
  pricedMinor cost := Pricing.pricedMinor ⟨cost.inputPerM, cost.outputPerM⟩

def estimateActualCostMinor {F : Type} [Charges F] (cost : Cost F) (prompt completion : String)
    (reservedMinor : I64) : I64 :=
  (Charges.pricedMinor cost (Pricing.estimateTokens prompt)
    (Pricing.estimateTokens completion)).getD reservedMinor

structure ChatMessage where
  role : String
  content : String

structure ChatRequest where
  native : Option Json
  model : String
  messages : List ChatMessage

structure ChatResponse where
  native : Option Json
  model : String
  content : String

structure ModelInfo (G : Type) where
  id : String
  memoryGb : G

inductive DispatchFailure where
  | backend (error : BackendError)
  | budget (error : BudgetError)

structure ChatOutcome where
  decision : Decision
  servedLocality : Locality
  result : Except DispatchFailure ChatResponse
  actualCostMinor : Option I64

inductive ObservedDispatchError where
  | dispatch (rejection : Rejection)
  | eventLogUnavailable

/-- The identity a supervisor executes, without the handle. -/
structure BoundSupervisor (G : Type) where
  providerId : String
  endpoint : String
  locality : Locality
  admissionModel : Option (String × G)

def BoundSupervisor.matches {F G : Type} (bound : BoundSupervisor G) (card : ComponentCard F) :
    Bool :=
  bound.providerId = card.provider.id && bound.endpoint = card.endpoint &&
    bound.locality = card.provider.locality

/-- The model that is loaded and asked for the selected card. -/
def backendModelId {F : Type} (profile : ParsedProfile) (requestedModel : Option String)
    (card : ComponentCard F) : Except Rejection String :=
  match profile.role with
  | none => .ok (requestedModel.getD card.provider.id)
  | some role => orRefuse ((roleModels card).toOption.bind (·.lookup (roleText role)))
      (.noEligibleCandidate .roleCapability)

/-- What a failed call says about the provider; a load also covers evictions and the start. -/
def nativeProviderOutcome (error : BackendError) (requested : String) (loading : Bool) :
    ProviderOutcome :=
  let named := fun modelId : String =>
    if modelId = requested then ProviderOutcome.fault else .ignored
  match error with
  | .adapterPanicked modelId _ => if loading then .ignored else named modelId
  | .modelUnavailable modelId | .oom modelId | .probeTimedOut modelId | .adapterTimedOut modelId
  | .loadUnconfirmed modelId _ | .loadPostconditionFailed modelId _ => named modelId
  | .upstream _ | .modelNotFound _ | .modelLoading _ | .evictionImpossible _ | .evictionFailed _
  | .headroomConfirmationRequired _ | .cancelled | .invalidRequest _ | .supervisorUnavailable
  | .busy _ _ _ | .invariantViolation _ | .lockPoisoned _ | .internal _ => .ignored

end Values

section Guards

def personalTenantId : String := "personal"

def defaultKeyId : String := "default"

def tenantOf (tenantId : Option String) : String := tenantId.getD personalTenantId

def budgetScope (tenantId : Option String) (providerId : String) : Ledger.BudgetScope :=
  ⟨tenantOf tenantId, defaultKeyId, providerId, providerId⟩

/-- What happens at once. -/
inductive Call where
  | reserve (scope : Ledger.BudgetScope) (estimatedCostMinor : I64)
  | settle (tenantId reservationId : String) (actualCostMinor : I64)
  | release (tenantId reservationId : String)
  | beginProvider (providerId : String) (credential : CredentialClass)
  | finishProvider (capture : ProviderCapture) (outcome : ProviderOutcome)
  | cancel

abbrev Call.Answer : Call → Type
  | .reserve _ _ => Except BudgetError String
  | .settle _ _ _ => Except BudgetError I64
  | .release _ _ => Except BudgetError Unit
  | .beginProvider _ _ => ProviderCapture
  | .finishProvider _ _ => Unit
  | .cancel => Unit

/-- `ledger`: there is one. -/
structure ReservationGuard where
  ledger : Bool
  tenantId : Option String
  id : Option String
  releaseOnDrop : Bool

/-- The guards that are alive. `provider` is empty without an admission and once it has been
finished. -/
structure Frame where
  reservation : ReservationGuard
  provider : Option ProviderCapture
  cancelOnDrop : Bool

def ReservationGuard.drop (guard : ReservationGuard) : List Call :=
  if guard.releaseOnDrop && guard.ledger then
    (guard.id.map fun id => Call.release (tenantOf guard.tenantId) id).toList
  else []

/-- In reverse order of declaration. -/
def Frame.drop (frame : Frame) : List Call :=
  (if frame.cancelOnDrop then [.cancel] else []) ++
    (frame.provider.map fun capture => Call.finishProvider capture .ignored).toList ++
    frame.reservation.drop

end Guards

section Program

/-- What is waited for. -/
inductive Await (G : Type) where
  | appendBudgetReserved
  | list
  | loadWithHeadroom (id : String) (memoryGb : G) (policy : LoadPolicy)
      (allowHeadroomBreach : Bool)
  | appendDispatched
  | chat (request : ChatRequest)
  | appendCompletedWithUsage (outcome : String) (tokensIn tokensOut : Nat)
  | appendCompleted (outcome : String)
  | appendBudgetSettled (settledMinor : I64)

abbrev Await.Answer {G : Type} : Await G → Type
  | .appendBudgetReserved => Bool
  | .list => Except BackendError (List (ModelInfo G))
  | .loadWithHeadroom _ _ _ _ => Except BackendError Unit
  | .appendDispatched => Bool
  | .chat _ => Except BackendError ChatResponse
  | .appendCompletedWithUsage _ _ _ => Bool
  | .appendCompleted _ => Bool
  | .appendBudgetSettled _ => Bool

inductive Op (G : Type) where
  | call (c : Call)
  | await (frame : Frame) (a : Await G)

abbrev Op.Answer {G : Type} : Op G → Type
  | .call c => c.Answer
  | .await _ a => a.Answer

abbrev LocalDispatch (G : Type) := Program (Op G) Op.Answer (Except ObservedDispatchError ChatOutcome)

structure LocalExecutionContext (G : Type) where
  providerAdmission : Bool
  native : Option Json
  supervisor : Option (BoundSupervisor G)
  budgetLedger : Bool
  budgetEvent : Bool
  dispatchedEvent : Bool
  completedEvent : Bool
  budgetSettledEvent : Bool
  headroomBreachConfirmed : Bool

structure DispatchInput where
  requestedModel : Option String
  prompt : String
  affinityKey : Option String

inductive LocalSelection (F : Type) where
  | cards (cards : List (ComponentCard F))
  | preselected (selected : Selected F)

/-- What the steps of one dispatch read. -/
structure Job (F G : Type) where
  selected : Selected F
  execution : LocalExecutionContext G
  profile : ParsedProfile
  input : DispatchInput
  messages : List ChatMessage
  backendModelId : String

variable {F G : Type}

/-- A call of every guard that is still armed, then the result. -/
def performAll (result : Except ObservedDispatchError ChatOutcome) : List Call → LocalDispatch G
  | [] => .ret result
  | call :: rest => .ask (.call call) fun _ => performAll result rest

def leave (frame : Frame) (result : Except ObservedDispatchError ChatOutcome) : LocalDispatch G :=
  performAll result frame.drop

namespace Job

def outcome (job : Job F G) (result : Except DispatchFailure ChatResponse)
    (actualCostMinor : Option I64) : Except ObservedDispatchError ChatOutcome :=
  .ok ⟨job.selected.decision, job.selected.servedLocality, result, actualCostMinor⟩

def fails (job : Job F G) (frame : Frame) (error : BackendError) : LocalDispatch G :=
  leave frame (job.outcome (.error (.backend error)) none)

def unobserved (frame : Frame) : LocalDispatch G := leave frame (.error .eventLogUnavailable)

def isPaid (job : Job F G) : Bool := Pricing.isPaid (some job.selected.estimatedCostMinor)

/-- `ProviderGuard::finish` consumes the guard. -/
def finishProvider (frame : Frame) (outcome : ProviderOutcome) (next : Frame → LocalDispatch G) :
    LocalDispatch G :=
  match frame.provider with
  | some capture =>
    .ask (.call (.finishProvider capture outcome)) fun () => next { frame with provider := none }
  | none => next frame

def reply (job : Job F G) (frame : Frame) (chatResult : Except BackendError ChatResponse)
    (actualCostMinor : Option I64) : LocalDispatch G :=
  match chatResult with
  | .error err => job.fails frame err
  | .ok response => leave frame (job.outcome (.ok response) actualCostMinor)

/-- A settled event that cannot be written is only reported. -/
def announceSettled (job : Job F G) (frame : Frame)
    (chatResult : Except BackendError ChatResponse) (actualCostMinor : Option I64) : LocalDispatch G :=
  match actualCostMinor with
  | some settledMinor =>
    if job.execution.budgetSettledEvent then
      .ask (.await frame (.appendBudgetSettled settledMinor)) fun _ =>
        job.reply frame chatResult actualCostMinor
    else job.reply frame chatResult actualCostMinor
  | none => job.reply frame chatResult actualCostMinor

def announceCompleted (job : Job F G) (frame : Frame)
    (chatResult : Except BackendError ChatResponse) (actualCostMinor : Option I64) : LocalDispatch G :=
  if job.execution.completedEvent then
    match chatResult with
    | .ok response =>
      .ask (.await frame (.appendCompletedWithUsage "success"
          (Pricing.estimateTokens job.input.prompt) (Pricing.estimateTokens response.content)))
        fun ok =>
          if ok then job.announceSettled frame chatResult actualCostMinor else unobserved frame
    | .error _ => .ask (.await frame (.appendCompleted "failure")) fun ok =>
      if ok then job.announceSettled frame chatResult actualCostMinor else unobserved frame
  else job.announceSettled frame chatResult actualCostMinor

/-- The charge comes before any event that can fail, and its own failure is not one. -/
def charge [Charges F] (job : Job F G) (frame : Frame)
    (chatResult : Except BackendError ChatResponse) : LocalDispatch G :=
  match chatResult with
  | .error _ => job.announceCompleted frame chatResult none
  | .ok response =>
    let taken := { frame with reservation := { frame.reservation with id := none } }
    match frame.reservation.ledger, frame.reservation.id with
    | true, some id =>
      let actual := estimateActualCostMinor job.selected.card.provider.cost job.input.prompt
        response.content job.selected.estimatedCostMinor
      .ask (.call (.settle (tenantOf job.profile.tenantId) id actual)) fun settled =>
        job.announceCompleted taken chatResult (settled.toOption.filter fun _ => job.isPaid)
    | _, _ => job.announceCompleted taken chatResult none

def chat [Charges F] (job : Job F G) (frame : Frame) : LocalDispatch G :=
  .ask (.await frame (.chat ⟨job.execution.native, job.backendModelId, job.messages⟩))
    fun chatResult =>
      let outcome := match chatResult with
        | .ok _ => ProviderOutcome.success
        | .error err => nativeProviderOutcome err job.backendModelId false
      finishProvider frame outcome fun frame => job.charge frame chatResult

def load [Charges F] [Gigabytes G] (job : Job F G) (frame : Frame) (memoryGb : G) : LocalDispatch G :=
  if !Gigabytes.isFinite memoryGb || Gigabytes.le memoryGb Gigabytes.zero then
    job.fails frame (.upstream "selected lifecycle model has no positive pre-load memory footprint")
  else
    .ask (.await frame (.loadWithHeadroom job.backendModelId memoryGb job.selected.loadPolicy
        job.execution.headroomBreachConfirmed)) fun
      | .error err =>
        finishProvider frame (nativeProviderOutcome err job.backendModelId true) fun frame =>
          job.fails frame err
      | .ok () =>
        if job.execution.dispatchedEvent then
          .ask (.await frame .appendDispatched) fun ok =>
            if ok then job.chat frame else unobserved frame
        else job.chat frame

/-- The bound footprint, or the one in the catalog of the runtime. -/
def admission [Charges F] [Gigabytes G] (job : Job F G) (frame : Frame)
    (supervisor : BoundSupervisor G) : LocalDispatch G :=
  let frame := { frame with cancelOnDrop := true }
  match supervisor.admissionModel.filter fun bound => bound.1 = job.backendModelId with
  | some bound => job.load frame bound.2
  | none => .ask (.await frame .list) fun
    | .error err => job.fails frame err
    | .ok catalog =>
      match catalog.find? fun model => model.id = job.backendModelId with
      | some model => job.load frame model.memoryGb
      | none => job.fails frame (.modelNotFound job.backendModelId)

def supervised [Charges F] [Gigabytes G] (job : Job F G) (frame : Frame) : LocalDispatch G :=
  match job.execution.supervisor with
  | some supervisor => job.admission frame supervisor
  | none => job.fails frame .supervisorUnavailable

/-- The reservation is made; the breaker is asked only where a supervisor is bound. -/
def reserved [Charges F] [Gigabytes G] (job : Job F G) (guard : ReservationGuard) : LocalDispatch G :=
  let announce := fun frame : Frame =>
    if job.isPaid && job.execution.budgetEvent then
      .ask (.await frame .appendBudgetReserved) fun ok =>
        if ok then job.supervised frame else unobserved frame
    else job.supervised frame
  if job.execution.providerAdmission && job.execution.supervisor.isSome then
    .ask (.call (.beginProvider job.selected.card.provider.id .local)) fun capture =>
      announce ⟨guard, some capture, false⟩
  else announce ⟨guard, none, false⟩

/-- `ReservationGuard::reserve`: with a ledger even a free call is reserved, and without one a
paid call is refused. -/
def reserve [Charges F] [Gigabytes G] (job : Job F G) : LocalDispatch G :=
  let tenantId := job.profile.tenantId
  let scope := budgetScope tenantId job.selected.card.provider.id
  let refused := fun err => .ret (job.outcome (.error (.budget err)) none)
  if job.execution.budgetLedger then
    .ask (.call (.reserve scope job.selected.estimatedCostMinor)) fun
      | .ok id => job.reserved ⟨true, tenantId, some id, true⟩
      | .error err => refused err
  else if job.isPaid then refused (.notConfigured scope)
  else job.reserved ⟨false, tenantId, none, true⟩

end Job

variable [Charges F] [Gigabytes G]

def selectLocal (selection : LocalSelection F) (profile : ParsedProfile) (input : DispatchInput) :
    Except Rejection (Option (Selected F)) :=
  match selection with
  | .preselected selected => .ok (some selected)
  | .cards cards => selectWithGateSnapshotAndCompletion cards profile input.prompt
      input.affinityKey [] (List.replicate cards.length false) Pricing.reservedCompletionTokens false

/-- The dispatch. A selection of `none` is a panic of the source, before anything is taken. -/
def dispatchLocalInner (selection : LocalSelection F) (execution : LocalExecutionContext G)
    (profile : ParsedProfile) (input : DispatchInput) (messages : List ChatMessage) :
    Option (LocalDispatch G) :=
  match selectLocal selection profile input with
  | .error rejection => some (.ret (.error (.dispatch rejection)))
  | .ok none => none
  | .ok (some selected) =>
    if execution.supervisor.any fun bound => !bound.matches selected.card then
      some (.ret (.ok ⟨selected.decision, selected.servedLocality,
        .error (.backend .supervisorUnavailable), none⟩))
    else match backendModelId profile input.requestedModel selected.card with
      | .error rejection => some (.ret (.error (.dispatch rejection)))
      | .ok model => some (Job.reserve ⟨selected, execution, profile, input, messages, model⟩)

end Program

end Dispatch
