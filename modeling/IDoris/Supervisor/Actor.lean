import IDoris.Supervisor.Env

/-!
# The commands and messages of the actor

Each handler is a function of the actor's state: it changes the state, answers
or keeps the caller waiting, and may spawn one operation.
-/
namespace Supervisor

open Transaction

variable {G : Type}

/-- A spawned operation: what it still has to ask and what its panic is reported as.
`issued` is the number of the call that is out. -/
structure OpTask (G : Type) where
  serial : Nat
  id : String
  request : Request G
  evict : List String
  onPanic : String → OpOutcome G
  body : Flow G (OpOutcome G)
  issued : Option Nat

/-- What a handler leaves: the state, the marker, the answer (`none`: the caller waits) and
the operation it spawned. -/
structure Handled (G : Type) where
  actor : Actor G
  marker : Bool
  answer : Option (Except BackendError Unit)
  spawned : Option (OpTask G)

variable [Gigabytes G]

section Unload

def startUnload (serial : Nat) (id : String) (maxUsedGb : G) (env : Env G) : OpTask G where
  serial := serial
  id := id
  request := .unload id
  evict := []
  onPanic message := .unload (.error (.adapterPanicked id message)) none
  body := runUnloadFlow env.config id maxUsedGb
  issued := none

def unloadLimit (env : Env G) (models : Models G) (id : String) : G :=
  Gigabytes.add (models.ledgerUsedExcept id) (env.effectiveReservedGbExcept models (some id))

def busyWith (active : ActiveOp G) : BackendError :=
  .busy "a different id currently holds the load/evict/unload mutex" (some active.id) none

/-- The caller joins the operation that holds its reply channel. -/
def ActiveOp.join (op : ActiveOp G) (caller : Nat) : ActiveOp G :=
  { op with kind := match op.kind with
    | .load policy memoryGb breach waiters => .load policy memoryGb breach (waiters ++ [caller])
    | .unload waiters started => .unload (waiters ++ [caller]) started }

def Actor.join (actor : Actor G) (caller : Nat) : Actor G :=
  { actor with activeOp := actor.activeOp.map fun op => op.join caller }

/-- What is decided before an operation starts. -/
inductive Screening where
  | answer (result : Except BackendError Unit)
  | join
  | admitted

def screenUnloadSlot (actor : Actor G) (id : String) : Screening :=
  match actor.models.get id with
  | none => .answer (.error (.modelNotFound id))
  | some slot =>
    if slot.state = .stopped ∧ slot.inherited = false then .answer (.ok ())
    else if slot.loadUnconfirmed then .answer (.error (.modelUnavailable id))
    else match actor.activeOp with
      | some active => .answer (.error (busyWith active))
      | none => .admitted

def screenUnload (actor : Actor G) (id : String) : Screening :=
  match actor.activeOp with
  | some active =>
    if active.id = id then
      match active.kind with
      | .unload _ _ => .join
      | .load _ _ _ _ =>
        .answer (.error (.busy "a load for this id is already in flight" (some id) none))
    else screenUnloadSlot actor id
  | none => screenUnloadSlot actor id

/-- The unload takes the mutex; it waits for the chats in flight before it starts. -/
def installUnload (actor : Actor G) (serial caller : Nat) (id : String) : Actor G × Option (OpTask G) :=
  let models := actor.models.setState id .stopping
  let inflight := ((models.get id).map (·.inflight)).getD 0
  ({ actor with
      models := models
      activeOp := some ⟨serial, id, .unload [caller] (inflight = 0)⟩ },
    if inflight = 0 then
      some (startUnload serial id (unloadLimit actor.env models id) actor.env)
    else none)

def handleUnload (actor : Actor G) (serial caller : Nat) (id : String) (marker : Bool) : Handled G :=
  match screenUnload actor id with
  | .answer result => ⟨actor, marker, some result, none⟩
  | .join => ⟨actor.join caller, marker, none, none⟩
  | .admitted =>
    let (actor, spawned) := installUnload actor serial caller id
    ⟨actor, marker, none, spawned⟩

end Unload

section Load

def screenMutex (actor : Actor G) : Screening :=
  match actor.activeOp with
  | some active => .answer (.error (busyWith active))
  | none => .admitted

def screenLoadSlot (actor : Actor G) (req : LoadRequest G) : Screening :=
  match actor.models.get req.id with
  | none => screenMutex actor
  | some slot =>
    if slot.loadUnconfirmed then .answer (.error (.modelUnavailable req.id))
    else if slot.state = .ready ∧ slot.policy = req.policy then .answer (.ok ())
    else if slot.inflight ≠ 0 then
      .answer (.error (.busy "model has chats in flight" (some req.id) none))
    else screenMutex actor

def screenLoad (actor : Actor G) (req : LoadRequest G) : Screening :=
  if Gigabytes.malformed req.memoryGb then
    .answer (.error (.invalidRequest
      ("memory_gb must be finite and >= 0, got " ++ Gigabytes.render req.memoryGb)))
  else match actor.activeOp with
    | none => screenLoadSlot actor req
    | some active =>
      if active.id = req.id then
        let conflicting : BackendError :=
          .busy "a load for this id with a different policy or memory_gb is already in flight"
            (some req.id) none
        match active.kind with
        | .load policy memoryGb breach _ =>
          if policy = req.policy ∧ Gigabytes.beq memoryGb req.memoryGb then
            if breach = req.allowHeadroomBreach then .join
            else .answer (.error (.busy
              "another request is loading this model with a different headroom confirmation; retry shortly"
              (some req.id) none))
          else .answer (.error conflicting)
        | .unload _ _ => .answer (.error conflicting)
      else screenLoadSlot actor req

/-- The last case never happens: a snapshot leaves the requested model out. -/
def mapPlanError (err : PlanEvictionError G) (id : String) : BackendError :=
  match err with
  | .insufficientCapacity _ _ _ _ => .evictionImpossible id
  | .invalidCapacity field value =>
    .invalidRequest ("invalid capacity for " ++ field ++ ": " ++ Gigabytes.render value)
  | .snapshotContainsRequestedModel _ =>
    .invariantViolation ("snapshot for " ++ id.quote ++ " contained itself")

def chosenVictims (plan : Except (PlanEvictionError G) EvictionPlan) (id : String) :
    Except BackendError (List String) :=
  match plan with
  | .ok .notNeeded => .ok []
  | .ok (.evict victims) => .ok victims
  | .error err => .error (mapPlanError err id)

structure LoadPlan (G : Type) where
  evict : List String
  inherited : Bool
  requestCharge : G
  plannedGb : G
  plannedCharge : Option CapacityCharge
  charge : CapacityCharge

/-- The exact charges of the plan, for a runtime that claims exact bytes. -/
def chargePlan (env : Env G) (models : Models G) (req : LoadRequest G) (evict : List String)
    (inherited : Bool) : Except BackendError (Option CapacityCharge × CapacityCharge) :=
  if ((env.runtimeCapacity.bind (·.exactClaim)).isNone) then .ok (none, .default)
  else do
    let target ← CapacityCharge.fromGb req.memoryGb
    let charge ← if inherited then do
        let reserved ← env.exactReservedCharge models
        pure (target.saturatingSub reserved)
      else pure target
    let remaining := (models.entries.filter fun e => e.1 ≠ req.id && !evict.contains e.1).map
      Prod.snd
    let occupied ← env.exactCharge models remaining
    let planned ← occupied.checkedAdd charge
    return (some planned, charge)

def planLoad (env : Env G) (models : Models G) (req : LoadRequest G) :
    Except BackendError (LoadPlan G) := do
  let inherited := ((models.get req.id).map (·.inherited)).getD false
  let reservation := env.effectiveReservedGb models
  refuseIf (Gigabytes.lt env.config.budgetGb reservation) (.evictionImpossible req.id)
  let requestCharge :=
    if inherited then Gigabytes.sub (Gigabytes.max req.memoryGb reservation) reservation
    else req.memoryGb
  let evict ← chosenVictims (planEviction
    (models.buildSnapshot (Gigabytes.sub env.config.budgetGb reservation) req.id)
    ⟨req.id, requestCharge⟩) req.id
  let plannedGb := Gigabytes.add (Gigabytes.add reservation requestCharge)
    (models.occupiedExcept (req.id :: evict))
  let (plannedCharge, charge) ← chargePlan env models req evict inherited
  return ⟨evict, inherited, requestCharge, plannedGb, plannedCharge, charge⟩

/-- The report of a load whose task panicked: every victim is resolved, the fence stays. -/
def loadPanic (id : String) (evict : List String) (previous : Option (PreviousModel G))
    (message : String) : OpOutcome G :=
  .load (.error (.adapterPanicked id message))
    (evict.map fun victim => (victim, .error (.adapterPanicked victim
      "load task panicked mid-eviction; this victim's real state is unknown")))
    none Gigabytes.zero (.retainUnconfirmedLoad previous)

/-- The arguments of the flow, read from the ledger after the target is marked `Loading`. -/
def loadContext (req : LoadRequest G) (evict : List String) (previous : Option (PreviousModel G))
    (models : Models G) (env : Env G) : LoadFlowContext G :=
  let releaseLimitGb := models.occupiedExcept (req.id :: evict)
  let reserved := env.effectiveReservedGb models
  let previousMemoryGb := (previous.map (·.memoryGb)).getD Gigabytes.zero
  { config := env.config
    releaseLimits := {
      targetAbsentGb := Gigabytes.add releaseLimitGb reserved
      afterEvictionGb := Gigabytes.add (Gigabytes.add releaseLimitGb previousMemoryGb) reserved }
    inherited := (previous.map (·.inherited)).getD false
    id := req.id
    policy := req.policy }

def startLoad (serial : Nat) (req : LoadRequest G) (evict : List String)
    (previous : Option (PreviousModel G)) (models : Models G) (env : Env G) :
    Models G × OpTask G :=
  let models := models.setState req.id .loading
  (models, {
    serial := serial
    id := req.id
    request := .load req
    evict := evict
    onPanic := loadPanic req.id evict previous
    body := runLoadFlow (loadContext req evict previous models env) evict previous
    issued := none })

/-- Every budget-occupying state of the slot counts as a previous instance. -/
def previousOf (models : Models G) (id : String) : Option (PreviousModel G) :=
  ((models.get id).filter (·.occupiesBudget)).map fun slot =>
    ⟨slot.state, slot.policy, slot.memoryGb, slot.charge, slot.inherited⟩

/-- The load takes the mutex: victims stop, the slot is overwritten, the flow is spawned. -/
def installLoad (actor : Actor G) (serial caller : Nat) (req : LoadRequest G) (plan : LoadPlan G) :
    Actor G × OpTask G :=
  let models := plan.evict.foldl (fun models victim => models.setState victim .stopping) actor.models
  let lastUsedSeq := ((models.get req.id).map (·.lastUsedSeq)).getD 0
  let previous := previousOf models req.id
  let slot : ModelSlot G := {
    memoryGb := if plan.inherited then plan.requestCharge else req.memoryGb
    charge := plan.charge
    state := .launching
    lastUsedSeq := lastUsedSeq
    policy := req.policy
    inflight := 0
    loadUnconfirmed := false
    inherited := plan.inherited }
  let (models, task) := startLoad serial req plan.evict previous (models.insert req.id slot) actor.env
  ({ actor with
      models := models
      activeOp := some ⟨serial, req.id,
        .load req.policy req.memoryGb req.allowHeadroomBreach [caller]⟩ }, task)

/-- The faults of the marker operations inside `handle_load`. -/
structure LoadFaults where
  begin : DiskFault
  clear : DiskFault

def handleLoad (actor : Actor G) (serial caller : Nat) (req : LoadRequest G) (faults : LoadFaults)
    (marker : Bool) : Handled G :=
  match screenLoad actor req with
  | .answer result => ⟨actor, marker, some result, none⟩
  | .join => ⟨actor.join caller, marker, none, none⟩
  | .admitted =>
    match planLoad actor.env actor.models req, actor.env.loadFence with
    | .error err, _ => ⟨actor, marker, some (.error err), none⟩
    | .ok _, none => ⟨actor, marker, some (.error (.internal "load fence is unavailable")), none⟩
    | .ok plan, some fence =>
      match fence.begin faults.begin marker with
      | (.error err, marker) => ⟨actor, marker, some (.error err), none⟩
      | (.ok (), marker) =>
        match actor.env.claimRuntimeCapacity plan.plannedGb plan.plannedCharge
            req.allowHeadroomBreach with
        | .error err =>
          match LoadFence.clear faults.clear marker with
          | (.ok (), marker) => ⟨actor, marker, some (.error err), none⟩
          | (.error clearErr, marker) => ⟨actor, marker, some (.error clearErr), none⟩
        | .ok env =>
          let (actor, task) := installLoad { actor with env := env } serial caller req plan
          ⟨actor, marker, none, some task⟩

end Load

section Chat

def notReadyError (modelId : String) (state : ModelState) : BackendError :=
  match state with
  | .launching | .loading => .modelLoading modelId
  | .ready | .error | .stopping | .stopped => .modelUnavailable modelId

/-- The slot counts the chat before it is dispatched. `permit`: a call slot was free. -/
def handleChat (actor : Actor G) (model : String) (permit : Bool) : Except BackendError (Actor G) :=
  match actor.models.get model with
  | none => .error (.modelNotFound model)
  | some slot =>
    if slot.state ≠ .ready then .error (notReadyError model slot.state)
    else if permit then
      .ok { actor with
        nextSeq := actor.nextSeq + 1
        models := actor.models.modify model fun slot => { slot with
          lastUsedSeq := actor.nextSeq + 1
          inflight := slot.inflight + 1 } }
    else .error (.busy "concurrent adapter-call limit reached" none none)

/-- A deferred unload of `model` that waits for its chats. -/
def ActiveOp.draining (op : ActiveOp G) (model : String) : Option (List Nat) :=
  match op.kind with
  | .unload waiters false => if op.id = model then some waiters else none
  | _ => none

def chatDone (actor : Actor G) (model : String) : Actor G × Option (OpTask G) :=
  match actor.models.get model with
  | none => ({ actor with poisoned := some ("ledger has no entry for " ++ model.quote) }, none)
  | some slot =>
    let models := actor.models.modify model fun slot => { slot with inflight := slot.inflight - 1 }
    match actor.activeOp.bind fun op => (op.draining model).map (op.serial, ·) with
    | some (serial, waiters) =>
      if slot.inflight - 1 = 0 then
        ({ actor with
            models := models
            activeOp := some ⟨serial, model, .unload waiters true⟩ },
          some (startUnload serial model (unloadLimit actor.env models model) actor.env))
      else ({ actor with models := models }, none)
    | none => ({ actor with models := models }, none)

end Chat

section OpDone

def applyVictims (models : Models G) : List VictimResult → Models G × Option String
  | [] => (models, none)
  | (victim, result) :: rest =>
    match models.setStateOrPoison victim (if isError result then .error else .stopped) with
    | .ok models => applyVictims models rest
    | .error violation => (models, some violation)

/-- The previous instance as the slot keeps it after an uncertain release. -/
def PreviousModel.retained (previous : PreviousModel G) (slot : ModelSlot G) : PreviousModel G :=
  { previous with
    state := .error
    memoryGb := Gigabytes.max slot.memoryGb previous.memoryGb
    charge := slot.charge.max previous.charge }

def ModelSlot.restore (slot : ModelSlot G) (previous : PreviousModel G) : ModelSlot G :=
  { slot with
    state := previous.state
    policy := previous.policy
    memoryGb := previous.memoryGb
    charge := previous.charge
    inherited := previous.inherited }

def ModelSlot.retainUnconfirmed (slot : ModelSlot G) (previous : Option (PreviousModel G)) :
    ModelSlot G :=
  let slot := { slot with state := .error, loadUnconfirmed := true }
  match previous with
  | none => slot
  | some previous => { slot with
      policy := previous.policy
      memoryGb := Gigabytes.max slot.memoryGb previous.memoryGb
      charge := slot.charge.max previous.charge }

def Actor.onSlot (actor : Actor G) (id : String) (missing : String) (f : ModelSlot G → ModelSlot G) :
    Actor G × Option String :=
  match actor.models.get id with
  | some _ => ({ actor with models := actor.models.modify id f }, none)
  | none => (actor, some ("ledger lost " ++ id.quote ++ missing))

def Actor.settleState (actor : Actor G) (id : String) (state : ModelState) :
    Actor G × Option String :=
  match actor.models.setStateOrPoison id state with
  | .ok models => ({ actor with models := models }, none)
  | .error violation => (actor, some violation)

def Actor.applyFailure (actor : Actor G) (id : String) :
    LoadFailureOutcome G → Actor G × Option String
  | .settle state => actor.settleState id state
  | .settleReleased status =>
    match actor.settleState id .stopped with
    | (actor, none) =>
      ({ actor with env := actor.env.refreshAggregate actor.models status }, none)
    | (actor, some violation) => (actor, some violation)
  | .restorePrevious previous => actor.onSlot id " mid-op (reload)" fun slot => slot.restore previous
  | .retainPreviousOnError previous =>
    actor.onSlot id " mid-op (reload)" fun slot => slot.restore (previous.retained slot)
  | .retainUnconfirmedLoad previous =>
    actor.onSlot id " mid-op (unconfirmed load)" fun slot => slot.retainUnconfirmed previous

/-- A load that is done leaves its slot ready, an unload leaves it stopped. -/
def ModelSlot.finish (slot : ModelSlot G) (doneState : ModelState) (seq : Nat) : ModelSlot G :=
  { slot with
    state := doneState
    inherited := slot.inherited && doneState ≠ .stopped
    lastUsedSeq := if doneState = .ready then seq else slot.lastUsedSeq }

def Actor.applyResult (actor : Actor G) (id : String) (result : Except BackendError Unit)
    (doneState : ModelState) (failure : LoadFailureOutcome G) : Actor G × Option String :=
  match result with
  | .ok () =>
    let seq := actor.nextSeq + 1
    { actor with nextSeq := seq }.onSlot id " mid-op" fun slot => slot.finish doneState seq
  | .error _ => actor.applyFailure id failure

/-- Release the mutex, reconcile the shared claim, and decide what the waiters hear. -/
def Actor.conclude (actor : Actor G) (id : String) (violation : Option String)
    (result : Except BackendError Unit) : Actor G × Except BackendError Unit :=
  let poison := fun (actor : Actor G) (msg : String) =>
    ({ actor with poisoned := some msg }, (Except.error (.invariantViolation msg) : Except _ Unit))
  let orphaned := actor.activeOp.isNone
  let actor := { actor with activeOp := none }
  match violation with
  | some msg => poison actor msg
  | none =>
    if orphaned then poison actor ("OpDone for " ++ id.quote ++ " with no active op")
    else
      let (settled, env) := actor.env.settleRuntimeCapacity actor.models
      let actor := { actor with env := env }
      match settled with
      | .ok () => (actor, result)
      | .error err => poison actor ("global capacity reconciliation failed: " ++ err.display)

def Actor.refresh (actor : Actor G) (status : Option (BackendStatus G)) (excludedId : Option String)
    (creditGb : G) : Actor G :=
  match status with
  | none => actor
  | some status => { actor with
      env := actor.env.refreshAggregateExcept actor.models status excludedId creditGb }

/-- The report of an operation reaches an actor that is not poisoned. -/
def opDone (actor : Actor G) (id : String) : OpOutcome G → Actor G × Except BackendError Unit
  | .load result victimResults aggregateStatus creditGb failure =>
    let (models, violation) := applyVictims actor.models victimResults
    let actor := { actor with models := models }
    match violation with
    | some violation => actor.conclude id (some violation) result
    | none =>
      let (actor, violation) :=
        (actor.refresh aggregateStatus (some id) creditGb).applyResult id result .ready failure
      actor.conclude id violation result
  | .unload result status =>
    let (actor, violation) := actor.applyResult id result .stopped (.settle .error)
    (actor.refresh status none Gigabytes.zero).conclude id violation result

end OpDone

end Supervisor
