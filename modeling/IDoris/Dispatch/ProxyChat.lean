import IDoris.Dispatch.Local
import IDoris.Library.Headers
import IDoris.Proxy.Forward

/-!
# A chat through the proxy, and its budget

The observer of the forward reserves and announces, the success gate settles, and the end
releases what was not used. What is waited for names the budget that is dropped with the future.
-/
namespace Dispatch

open Bounded Http Interaction Ledger Policy Program Proxy Transaction

section Budget

inductive ProxyBudgetError where
  | ledger (error : BudgetError)
  | stateUnavailable

inductive ProxyObserverError where
  | eventLog
  | budget (error : ProxyBudgetError)

/-- `admission` holds nothing for a paid request, `paid` its reservation once there is one. -/
structure ProxyBudget where
  ledger : Bool
  tenantId : Option String
  providerId : String
  estimate : I64
  admission : ReservationGuard
  paid : Option ReservationGuard
  settlement : Option (I64 × UsageEvidence)

/-- What the ledger is asked. -/
inductive LedgerCall where
  | checkAdmission (scope : Ledger.BudgetScope) (estimatedCostMinor : I64)
  | reserve (scope : Ledger.BudgetScope) (estimatedCostMinor : I64)
  | replaySettlement (tenantId reservationId : String) (actualCostMinor : I64)
  | release (tenantId reservationId : String)

abbrev LedgerCall.Answer : LedgerCall → Type
  | .checkAdmission _ _ => Except BudgetError Unit
  | .reserve _ _ => Except BudgetError String
  | .replaySettlement _ _ _ => Except BudgetError Unit
  | .release _ _ => Except BudgetError Unit

inductive ProxyEvent where
  | budgetReserved
  | dispatched
  | completed (status : String)

/-- What is waited for has the budget, which is dropped with the future. `stream` is the
streaming half. -/
inductive ChatOp where
  | ledger (call : LedgerCall)
  | forward (budget : ProxyBudget) (op : Action)
  | append (budget : ProxyBudget) (event : ProxyEvent)
  | stream (budget : ProxyBudget)

/-- `S` is the answer of the streaming half. -/
abbrev ChatOp.Answer (S : Type) : ChatOp → Type
  | .ledger call => call.Answer
  | .forward _ op => op.Answer ProxyObserverError
  | .append _ _ => Bool
  | .stream _ => S

abbrev ProxyProgram (S α : Type) := Program ChatOp (ChatOp.Answer S) α

variable {S : Type}

namespace ReservationGuard

/-- A placeholder without a row in the ledger. -/
def vacant (ledger : Bool) (tenantId : Option String) : ReservationGuard :=
  ⟨ledger, tenantId, none, true⟩

def reserve (ledger : Bool) (tenantId : Option String) (providerId : String)
    (estimatedCostMinor : I64) : ProxyProgram S (Except BudgetError ReservationGuard) :=
  if ledger then
    .ask (.ledger (.reserve (budgetScope tenantId providerId) estimatedCostMinor)) fun
      | .ok id => .ret (.ok ⟨true, tenantId, some id, true⟩)
      | .error error => .ret (.error error)
  else if Pricing.isPaid (some estimatedCostMinor) then
    .ret (.error (.notConfigured (budgetScope tenantId providerId)))
  else .ret (.ok ⟨false, tenantId, none, true⟩)

/-- The id is taken, whatever the ledger answers. -/
def taken (guard : ReservationGuard) : ReservationGuard := { guard with id := none }

def releaseNow (guard : ReservationGuard) :
    ProxyProgram S (Except BudgetError Unit × ReservationGuard) :=
  match guard.ledger, guard.id with
  | true, some id => .ask (.ledger (.release (tenantOf guard.tenantId) id)) fun answer =>
      .ret (answer, guard.taken)
  | _, _ => .ret (.ok (), guard.taken)

def settleReplayable (guard : ReservationGuard) (actualCostMinor : I64) :
    ProxyProgram S (Except BudgetError (Option I64) × ReservationGuard) :=
  match guard.ledger, guard.id with
  | true, some id =>
    .ask (.ledger (.replaySettlement (tenantOf guard.tenantId) id actualCostMinor)) fun
      | .ok () => .ret (.ok (some actualCostMinor), guard.taken)
      | .error error => .ret (.error error, guard.taken)
  | _, _ => .ret (.ok none, guard.taken)

def retainUntilExpiry (guard : ReservationGuard) : ReservationGuard := guard.taken

def retainOnDrop (guard : ReservationGuard) : ReservationGuard :=
  { guard with releaseOnDrop := false }

def dropped (guard : ReservationGuard) : List LedgerCall :=
  guard.drop.filterMap fun
    | .release tenantId id => some (.release tenantId id)
    | _ => none

end ReservationGuard

def actualCostFromUsage {F : Type} [Charges F] (cost : Cost F) (usage : UsageEvidence) :
    Except UsageEvidenceError I64 :=
  orRefuse (Charges.pricedMinor cost usage.inputTokens.toNat usage.outputTokens.toNat)
    .invalidPriceOrAmount

theorem actualCostFromUsage_rate (cost : Cost Pricing.Rate) (usage : UsageEvidence) :
    actualCostFromUsage cost usage =
      Pricing.actualCostFromUsage ⟨cost.inputPerM, cost.outputPerM⟩ usage := by
  have hpriced : Charges.pricedMinor cost usage.inputTokens.toNat usage.outputTokens.toNat =
      Pricing.pricedMinor ⟨cost.inputPerM, cost.outputPerM⟩ usage.inputTokens.toNat
        usage.outputTokens.toNat := rfl
  unfold actualCostFromUsage Pricing.actualCostFromUsage
  rw [hpriced]
  split <;> rename_i hcharge <;> rw [hcharge] <;> rfl

def usageInvalid : SuccessFinalizeError :=
  ⟨502, "upstream_usage_invalid", "付费上游成功响应缺少可验证的 usage 证据"⟩

def internalError (remediation : String) : SuccessFinalizeError :=
  ⟨500, "internal_error", remediation⟩

namespace ProxyBudget

/-- A paid request is only admitted here, and reserved before its POST; a free one is reserved at
once, at no cost. -/
def new (ledger : Bool) (tenantId : Option String) (providerId : String) (estimate : I64) :
    ProxyProgram S (Except BudgetError ProxyBudget) :=
  let budget := fun admission =>
    ProxyBudget.mk ledger tenantId providerId estimate admission none none
  if Pricing.isPaid (some estimate) then
    if ledger then
      .ask (.ledger (.checkAdmission (budgetScope tenantId providerId) (.lit 0))) fun
        | .ok () => .ret (.ok (budget (.vacant ledger tenantId)))
        | .error error => .ret (.error error)
    else .ret (.error (.notConfigured (budgetScope tenantId providerId)))
  else (ReservationGuard.reserve ledger tenantId providerId (.lit 0)).bind fun
    | .ok guard => .ret (.ok (budget guard))
    | .error error => .ret (.error error)

def prepareForPost (budget : ProxyBudget) :
    ProxyProgram S (Except ProxyBudgetError Unit × ProxyBudget) :=
  if budget.paid.isSome then .ret (.error .stateUnavailable, budget)
  else budget.admission.releaseNow.bind fun released =>
    let budget := { budget with admission := released.2 }
    match released.1 with
    | .error error => .ret (.error (.ledger error), budget)
    | .ok () =>
      (ReservationGuard.reserve budget.ledger budget.tenantId budget.providerId
        budget.estimate).bind fun
        | .ok guard => .ret (.ok (), { budget with paid := some guard })
        | .error error => .ret (.error (.ledger error), budget)

/-- Called after everything that may fail before the POST. -/
def arm (budget : ProxyBudget) : Except ProxyBudgetError Unit × ProxyBudget :=
  match budget.paid with
  | some guard => (.ok (), { budget with paid := some guard.retainOnDrop })
  | none => (.error .stateUnavailable, budget)

def settleResponse {F : Type} [Charges F] (cost : Cost F) (outcome : ForwardOutcome)
    (budget : ProxyBudget) : ProxyProgram S (Except SuccessFinalizeError Unit × ProxyBudget) :=
  match parseOpenaiUsage outcome.body with
  | .error _ => .ret (.error usageInvalid, budget)
  | .ok usage =>
    match budget.paid with
    | none => .ret (.error (internalError "付费上游缺少可结算的预算预留"), budget)
    | some guard =>
      match actualCostFromUsage cost usage with
      | .error _ => .ret (.error (internalError "付费上游 usage 无法转换为安全结算金额"),
          { budget with paid := some guard.retainUntilExpiry })
      | .ok actual => (guard.settleReplayable actual).bind fun settled =>
        let budget := { budget with paid := some settled.2 }
        match settled.1 with
        | .error _ =>
          .ret (.error (internalError "付费上游结算未能确认，请稍后查询预算账本"), budget)
        | .ok none => .ret (.error (internalError "付费上游缺少可结算的预算预留"), budget)
        | .ok (some charged) => .ret (.ok (), { budget with settlement := some (charged, usage) })

def releaseUnsent (budget : ProxyBudget) :
    ProxyProgram S (Except ProxyBudgetError Unit × ProxyBudget) :=
  budget.admission.releaseNow.bind fun released =>
    let budget := { budget with admission := released.2 }
    match released.1, budget.paid with
    | .error error, _ => .ret (.error (.ledger error), budget)
    | .ok (), none => .ret (.ok (), budget)
    | .ok (), some guard => guard.releaseNow.bind fun released =>
        .ret (released.1.mapError .ledger, { budget with paid := some released.2 })

def finish (outcome : ForwardOutcome) (budget : ProxyBudget) :
    ProxyProgram S (Except ProxyBudgetError Unit × ProxyBudget) :=
  match outcome.execution with
  | .notExecuted | .replay => budget.releaseUnsent
  | .uncertain =>
    .ret (.ok (), { budget with paid := budget.paid.map ReservationGuard.retainUntilExpiry })
  | .executed => if isSuccess outcome.status then .ret (.ok (), budget) else budget.releaseUnsent

/-- The fields go in the order of their declaration. -/
def drop (budget : ProxyBudget) : List LedgerCall :=
  budget.admission.dropped ++ (budget.paid.map ReservationGuard.dropped).getD []

end ProxyBudget

end Budget

section Chat

/-- What one chat reads: the selected card, its headers and profile, and which of its events
have a context. -/
structure ProxyChat (F : Type) where
  config : ProxyConfig
  selected : Selected F
  headers : HeaderMap
  profile : ParsedProfile
  fingerprint : Option Fingerprint
  streamRequested : Bool
  recordId : String
  ledger : Bool
  budgetReservedEvent : Bool
  dispatchedEvent : Bool
  completedEvent : Bool

/-- The budget, and whether the dispatched event was stored. -/
structure ChatState where
  budget : ProxyBudget
  dispatched : Bool

inductive ProxyReply (S : Type) where
  | refused (error : BudgetError)
  | paidProxyUnavailable
  | streamed (answer : S)
  | releaseFailed
  | eventLogUnavailable
  | budgetFailed (error : ProxyBudgetError)
  | response (outcome : ForwardOutcome) (settlement : Option (I64 × UsageEvidence))

namespace ProxyChat

variable {F : Type} [Charges F]

def isPaid (chat : ProxyChat F) : Bool := Pricing.isPaid (some chat.selected.estimatedCostMinor)

def opts (chat : ProxyChat F) : ForwardOpts where
  requestId := (chat.headers.get "x-idoris-request-id").bind toStr
  tenantId := chat.profile.tenantId
  recordId := chat.recordId
  providerId := chat.selected.card.provider.id
  servedLocality := chat.selected.servedLocality
  privacy := chat.profile.task.privacy.getD .localOnly
  requireOpenaiUsage := chat.isPaid

def call (chat : ProxyChat F) : ForwardCall where
  endpoint := chat.selected.card.endpoint
  path := "/v1/chat/completions"
  fingerprint := chat.fingerprint
  opts := chat.opts

/-- An event for which there is a context. -/
def announce (wanted : Bool) (budget : ProxyBudget) (event : ProxyEvent) : ProxyProgram S Bool :=
  if wanted then .ask (.append budget event) .ret else .ret true

def armPaid (chat : ProxyChat F) (budget : ProxyBudget) :
    Except ProxyObserverError Unit × ChatState :=
  (budget.arm.1.mapError .budget, ⟨budget.arm.2, chat.dispatchedEvent⟩)

def announcePaid (chat : ProxyChat F) (state : ChatState) (budget : ProxyBudget) :
    ProxyProgram S (Except ProxyObserverError Unit × ChatState) :=
  (announce chat.budgetReservedEvent budget .budgetReserved).bind fun
    | false => .ret (.error .eventLog, { state with budget := budget })
    | true => (announce chat.dispatchedEvent budget .dispatched).bind fun
      | false => .ret (.error .eventLog, { state with budget := budget })
      | true => .ret (chat.armPaid budget)

/-- The reservation is armed last. -/
def observePaid (chat : ProxyChat F) (state : ChatState) :
    ProxyProgram S (Except ProxyObserverError Unit × ChatState) :=
  state.budget.prepareForPost.bind fun prepared =>
    match prepared.1 with
    | .error error => .ret (.error (.budget error), { state with budget := prepared.2 })
    | .ok () => chat.announcePaid state prepared.2

def observeFree (chat : ProxyChat F) (state : ChatState) :
    ProxyProgram S (Except ProxyObserverError Unit × ChatState) :=
  (announce chat.dispatchedEvent state.budget .dispatched).bind fun
    | true => .ret (.ok (), { state with dispatched := chat.dispatchedEvent })
    | false => .ret (.error .eventLog, state)

def eventStatus (status : Nat) : String := if isSuccess status then "success" else "failure"

/-- A call of its own that was dispatched. -/
def completes (chat : ProxyChat F) (state : ChatState) (outcome : ForwardOutcome) : Bool :=
  state.dispatched && !outcome.cached && outcome.execution != .replay && chat.completedEvent

def observeCompleted (chat : ProxyChat F) (outcome : ForwardOutcome) (state : ChatState) :
    ProxyProgram S (Except ProxyObserverError Unit × ChatState) :=
  (announce (chat.completes state outcome) state.budget
    (.completed (eventStatus outcome.status))).bind fun
      | true => .ret (.ok (), state)
      | false => .ret (.error .eventLog, state)

/-- The observers and the gate of the forward; the rest of it is asked. -/
def handle (chat : ProxyChat F) : (op : Action) → ChatState →
    ProxyProgram S (op.Answer ProxyObserverError × ChatState)
  | .observe, state => if chat.isPaid then chat.observePaid state else chat.observeFree state
  | .gate outcome, state =>
    if chat.isPaid then
      (state.budget.settleResponse chat.selected.card.provider.cost outcome).bind fun settled =>
        .ret (settled.1, { state with budget := settled.2 })
    else .ret (.ok (), state)
  | .completed outcome, state =>
    if chat.isPaid then .ret (.ok (), state) else chat.observeCompleted outcome state
  | op, state => .ask (.forward state.budget op) fun answer => .ret (answer, state)

def statusCode (status : Nat) : Nat := if 100 ≤ status && status < 1000 then status else 502

/-- A completed event that cannot be written fails the request, unless it was charged. -/
def conclude (chat : ProxyChat F) (outcome : ForwardOutcome) (state : ChatState) :
    ProxyProgram S (ProxyReply S × ProxyBudget) :=
  (announce (chat.isPaid && chat.completes state outcome) state.budget
    (.completed (eventStatus (statusCode outcome.status)))).bind fun stored =>
      if !stored && state.budget.settlement.isNone then .ret (.eventLogUnavailable, state.budget)
      else .ret (.response outcome state.budget.settlement, state.budget)

def observerFailed : ProxyObserverError → ProxyReply S
  | .eventLog => .eventLogUnavailable
  | .budget error => .budgetFailed error

def settleForward (chat : ProxyChat F) (state : ChatState) :
    Except ProxyObserverError ForwardOutcome → ProxyProgram S (ProxyReply S × ProxyBudget)
  | .error error =>
    if chat.isPaid then state.budget.releaseUnsent.bind fun released =>
      .ret (if released.1.toBool then observerFailed error else .releaseFailed, released.2)
    else .ret (observerFailed error, state.budget)
  | .ok outcome =>
    if chat.isPaid then (state.budget.finish outcome).bind fun finished =>
      match finished.1 with
      | .error error => .ret (.budgetFailed error, finished.2)
      | .ok () => chat.conclude outcome { state with budget := finished.2 }
    else chat.conclude outcome state

def chatViaProxyBuffered (chat : ProxyChat F) (budget : ProxyBudget) :
    ProxyProgram S (ProxyReply S × ProxyBudget) :=
  ((forwardBuffered chat.config chat.call).interpret chat.handle ⟨budget, false⟩).bind
    fun forwarded => chat.settleForward forwarded.2 forwarded.1

/-- The guards go with the request. -/
def leave (reply : ProxyReply S) : List LedgerCall → ProxyProgram S (ProxyReply S)
  | [] => .ret reply
  | call :: rest => .ask (.ledger call) fun _ => leave reply rest

/-- How the handler of a chat has a resident card answered. -/
def chatViaProxy (chat : ProxyChat F) : ProxyProgram S (ProxyReply S) :=
  (ProxyBudget.new chat.ledger chat.profile.tenantId chat.selected.card.provider.id
    chat.selected.estimatedCostMinor).bind fun
    | .error error => .ret (.refused error)
    | .ok budget =>
      if chat.streamRequested then
        if chat.isPaid then leave .paidProxyUnavailable budget.drop
        else .ask (.stream budget) fun answer => leave (.streamed answer) budget.drop
      else (chat.chatViaProxyBuffered budget).bind fun concluded =>
        leave concluded.1 concluded.2.drop

end ProxyChat

end Chat

end Dispatch
