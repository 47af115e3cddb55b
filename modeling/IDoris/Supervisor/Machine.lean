import IDoris.Supervisor.Actor

/-!
# Runs of one supervisor process

The actor takes one message at a time; spawned operations and dispatched chats
move in between in any order, and each adapter call is answered, times out or
panics whenever it likes. Beside the program's state the world keeps records no
code reads: which call was answered how, what was started and what was delivered.
-/
namespace Supervisor

open Interaction

variable {G : Type} [Gigabytes G]

section Host

/-- An engine-side load that was issued and has not been confirmed ended. -/
structure LoadCall where
  number : Nat
  id : String
  deriving DecidableEq

/-- What outlives the process: the marker, and the loads the engine may still run. -/
structure Host where
  marker : Bool
  calls : Nat
  unconfirmed : List LoadCall

/-- The answers the next call gets, by kind, and the fault of the next marker operation. -/
structure Responses (G : Type) where
  unload : Timed Unit
  load : Timed Unit
  status : Timed (BackendStatus G)
  probeReady : Timed Bool
  fault : DiskFault

def Responses.answer (r : Responses G) (marker : Bool) : (op : Effect) → op.Answer G × Bool
  | .unload _ => (r.unload, marker)
  | .load _ _ => (r.load, marker)
  | .status => (r.status, marker)
  | .probeReady _ => (r.probeReady, marker)
  | .clearFence => LoadFence.clear r.fault marker

def Host.issue (host : Host) (op : Effect) : Host :=
  { host with
    calls := host.calls + 1
    unconfirmed := match op with
      | .load id _ => host.unconfirmed ++ [⟨host.calls, id⟩]
      | _ => host.unconfirmed }

/-- An explicit rejection (out of memory and failed postcondition included) ends its load; a
Ready probe ends the loads of its model that were issued before it. -/
def Host.learn (host : Host) (number : Nat) : (op : Effect) → op.Answer G → Host
  | .load _ _, some (.error err) =>
    if err.leavesLoadUnconfirmed then host
    else { host with unconfirmed := host.unconfirmed.filter fun c => c.number ≠ number }
  | .probeReady id, some (.ok true) =>
    { host with unconfirmed :=
        host.unconfirmed.filter fun c => ¬(c.id = id ∧ c.number < number) }
  | _, _ => host

end Host

section Tasks

/-- The question the operation is about to ask. -/
def OpTask.pending (t : OpTask G) : Option Effect :=
  match t.issued, t.body with
  | none, .ask op _ => some op
  | _, _ => none

def OpTask.respond (t : OpTask G) (r : Responses G) (host : Host) : Option (OpTask G × Host) :=
  match t.issued, t.body with
  | some number, .ask op next =>
    let (answer, marker) := r.answer host.marker op
    some ({ t with body := next answer, issued := none },
      { host.learn number op answer with marker := marker })
  | _, _ => none

/-- The inner task died; the outer one reports for it. -/
def OpTask.panic (t : OpTask G) (message : String) : OpTask G :=
  match t.body with
  | .ask _ _ => { t with body := .ret (t.onPanic message), issued := none }
  | .ret _ => t

def OpTask.finished (t : OpTask G) : Option (OpOutcome G) :=
  match t.body with
  | .ret outcome => some outcome
  | .ask _ _ => none

end Tasks

/-- A dispatched chat; `returned`: its caller has the answer and its `ChatDone` is queued. -/
structure ChatTask where
  number : Nat
  model : String
  returned : Bool
  deriving DecidableEq

/-- What was started for a model, with its slot at that moment. -/
inductive JournalEntry where
  | chatDispatched (model : String) (state : Option ModelState)
  | unloadStarted (id : String) (inflight : Nat)
  | loadStarted (id : String) (inflight : Nat)
  | slotReplaced (id : String) (inflight : Nat)
  deriving DecidableEq

/-- The one report of operation `serial`, and what its waiters were told. -/
structure Delivery (G : Type) where
  serial : Nat
  request : Request G
  result : Except BackendError Unit

/-- `cause` is the delivery the reply comes from; early answers have none. -/
structure Reply (G : Type) where
  caller : Nat
  result : Except BackendError Unit
  cause : Option (Delivery G)

/-- `waited` lists the callers an operation kept waiting. -/
structure World (G : Type) where
  actor : Actor G
  host : Host
  tasks : List (OpTask G)
  chats : List ChatTask
  nextSerial : Nat
  callers : List (Request G)
  waited : List Nat
  replies : List (Reply G)
  chatReplies : List (String × Except BackendError Unit)
  started : List Nat
  delivered : List (Delivery G)
  discarded : List String
  journal : List JournalEntry

inductive Event (G : Type) where
  | load (req : LoadRequest G) (faults : LoadFaults)
  | unload (id : String)
  | chat (model : String) (permit : Bool)
  | issue (serial : Nat)
  | respond (serial : Nat) (responses : Responses G)
  | panic (serial : Nat) (message : String)
  | opDone (serial : Nat)
  | chatReturns (chat : ChatTask) (result : Except BackendError Unit)
  | chatDone (chat : ChatTask)
  | rehashModels (n : Nat)
  | rehashCovered (n : Nat)
  | peer (key : String) (allocation : Option (CapacityAllocation G))

/-- A poisoned actor only lets the waiters go. -/
def Actor.receive (actor : Actor G) (id : String) (outcome : OpOutcome G) :
    Actor G × Except BackendError Unit :=
  match actor.poisoned with
  | some msg => ({ actor with activeOp := none }, .error (.invariantViolation msg))
  | none => opDone actor id outcome

namespace World

def inflight (w : World G) (id : String) : Nat := ((w.actor.models.get id).map (·.inflight)).getD 0

def task (w : World G) (serial : Nat) : Option (OpTask G) :=
  w.tasks.find? fun t => t.serial = serial

def updateTask (w : World G) (serial : Nat) (t : OpTask G) : World G :=
  { w with tasks := w.tasks.map fun old => if old.serial = serial then t else old }

def spawn (w : World G) (spawned : Option (OpTask G)) : World G :=
  { w with
    tasks := w.tasks ++ spawned.toList
    started := w.started ++ spawned.toList.map (·.serial) }

def answer (w : World G) (caller : Nat) (result : Except BackendError Unit) : World G :=
  { w with replies := w.replies ++ [⟨caller, result, none⟩] }

/-- The new caller's number is the number of callers before it. -/
def register (w : World G) (request : Request G) : World G :=
  { w with callers := w.callers ++ [request] }

def apply (w : World G) (caller : Nat) (h : Handled G) : World G :=
  let w := { w with
    actor := h.actor
    host := { w.host with marker := h.marker }
    nextSerial := w.nextSerial + 1 }
  match h.answer with
  | some result => (w.spawn h.spawned).answer caller result
  | none => { w.spawn h.spawned with waited := w.waited ++ [caller] }

/-- The gate before every command: a poisoned actor and a failed start refuse. -/
def refusal (actor : Actor G) : Option BackendError :=
  match actor.poisoned with
  | some msg => some (.invariantViolation msg)
  | none => actor.env.startupError

def load (w : World G) (req : LoadRequest G) (faults : LoadFaults) : World G :=
  let caller := w.callers.length
  match refusal w.actor with
  | some err => (w.register (.load req)).answer caller (.error err)
  | none =>
    let h := handleLoad w.actor w.nextSerial caller req faults w.host.marker
    let replaced := h.spawned.toList.map fun t => JournalEntry.slotReplaced t.id (w.inflight t.id)
    ({ w.register (.load req) with journal := w.journal ++ replaced }).apply caller h

def unload (w : World G) (id : String) : World G :=
  let caller := w.callers.length
  match refusal w.actor with
  | some err => (w.register (.unload id)).answer caller (.error err)
  | none => (w.register (.unload id)).apply caller
      (handleUnload w.actor w.nextSerial caller id w.host.marker)

def chat (w : World G) (model : String) (permit : Bool) : World G :=
  match refusal w.actor with
  | some err => { w with chatReplies := w.chatReplies ++ [(model, .error err)] }
  | none =>
    match handleChat w.actor model permit with
    | .error err => { w with chatReplies := w.chatReplies ++ [(model, .error err)] }
    | .ok actor => { w with
        actor := actor
        chats := w.chats ++ [⟨w.nextSerial, model, false⟩]
        nextSerial := w.nextSerial + 1
        journal := w.journal ++
          [.chatDispatched model ((w.actor.models.get model).map (·.state))] }

def journalOf (w : World G) : Effect → List JournalEntry
  | .unload id => [.unloadStarted id (w.inflight id)]
  | .load id _ => [.loadStarted id (w.inflight id)]
  | _ => []

def issue (w : World G) (serial : Nat) : World G :=
  match w.task serial with
  | none => w
  | some t =>
    match t.pending with
    | none => w
    | some op => { w.updateTask serial { t with issued := some w.host.calls } with
        host := w.host.issue op
        journal := w.journal ++ w.journalOf op }

def respond (w : World G) (serial : Nat) (responses : Responses G) : World G :=
  match (w.task serial).bind fun t => t.respond responses w.host with
  | none => w
  | some (t, host) => { w.updateTask serial t with host := host }

def panic (w : World G) (serial : Nat) (message : String) : World G :=
  match w.task serial with
  | none => w
  | some t => w.updateTask serial (t.panic message)

/-- Deliver the report of operation `t`, and its result to every waiter. -/
def deliver (w : World G) (t : OpTask G) (outcome : OpOutcome G) : World G :=
  let (actor, result) := w.actor.receive t.id outcome
  let delivery : Delivery G := ⟨t.serial, t.request, result⟩
  { w with
    actor := actor
    tasks := w.tasks.filter fun other => other.serial ≠ t.serial
    delivered := w.delivered ++ [delivery]
    replies := w.replies ++ w.actor.waiters.map fun caller => ⟨caller, result, some delivery⟩ }

def opDone (w : World G) (serial : Nat) : World G :=
  match w.task serial with
  | none => w
  | some t =>
    match t.finished with
    | none => w
    | some outcome => w.deliver t outcome

def chatReturns (w : World G) (chat : ChatTask) (result : Except BackendError Unit) : World G :=
  if chat ∈ w.chats ∧ chat.returned = false then
    { w with
      chats := w.chats.erase chat ++ [{ chat with returned := true }]
      chatReplies := w.chatReplies ++ [(chat.model, result)] }
  else w

/-- A poisoned actor takes the message from its queue and leaves it unprocessed. -/
def chatDone (w : World G) (chat : ChatTask) : World G :=
  if chat ∈ w.chats ∧ chat.returned = true then
    match w.actor.poisoned with
    | some _ => { w with
        chats := w.chats.erase chat
        discarded := w.discarded ++ [chat.model] }
    | none =>
      let (actor, spawned) := Supervisor.chatDone w.actor chat.model
      ({ w with actor := actor, chats := w.chats.erase chat }).spawn spawned
  else w

def rehashModels (w : World G) (n : Nat) : World G :=
  { w with actor := { w.actor with models := w.actor.models.exchange n } }

def rehashCovered (w : World G) (n : Nat) : World G :=
  { w with actor := { w.actor with env := { w.actor.env with
      aggregateCovered := w.actor.env.aggregateCovered.exchange n } } }

/-- Another runtime changes its own allocation in the shared ledger. -/
def peer (w : World G) (key : String) (allocation : Option (CapacityAllocation G)) : World G :=
  match w.actor.env.runtimeCapacity with
  | none => w
  | some tracking =>
    if key = tracking.allocationKey then w
    else
      let allocations := match allocation with
        | some a => tracking.ledger.allocations.insert key a
        | none => tracking.ledger.allocations.remove key
      let ledger := { tracking.ledger with allocations := allocations }
      let env := w.actor.env.withTracking { tracking with ledger := ledger }
      { w with actor := { w.actor with env := env } }

/-- An event that is not enabled changes nothing. -/
def step (w : World G) : Event G → World G
  | .load req faults => w.load req faults
  | .unload id => w.unload id
  | .chat model permit => w.chat model permit
  | .issue serial => w.issue serial
  | .respond serial responses => w.respond serial responses
  | .panic serial message => w.panic serial message
  | .opDone serial => w.opDone serial
  | .chatReturns chat result => w.chatReturns chat result
  | .chatDone chat => w.chatDone chat
  | .rehashModels n => w.rehashModels n
  | .rehashCovered n => w.rehashCovered n
  | .peer key allocation => w.peer key allocation

def run (w : World G) (events : List (Event G)) : World G := events.foldl step w

theorem run_append (w : World G) (first rest : List (Event G)) :
    w.run (first ++ rest) = (w.run first).run rest := List.foldl_append

theorem run_snoc (w : World G) (events : List (Event G)) (event : Event G) :
    w.run (events ++ [event]) = (w.run events).step event := w.run_append events [event]

end World

section Start

/-- What a new process finds: the fence it could claim, the startup sample of the engine. -/
structure Boot (G : Type) where
  config : SupervisorConfig G
  fence : Except BackendError LoadFence
  checkFault : DiskFault
  capacity : Option (StartupCapacityTracking G)
  startupProbe : Bool
  status : Except BackendError (BackendStatus G)

def Boot.startup (boot : Boot G) : Except BackendError (BackendStatus G) :=
  let status := if boot.startupProbe then boot.status
    else .ok ⟨.unknown, Gigabytes.zero, boot.config.budgetGb, []⟩
  match status with
  | .error err => .error err
  | .ok status =>
    if Gigabytes.malformed status.usedGb ||
        (Gigabytes.beq status.usedGb (Gigabytes.zero : G) && !status.loaded.isEmpty) then
      .error (.internal "engine residency has no valid memory measurement")
    else .ok status

def StartupCapacityTracking.recordObservedClaim (tracking : StartupCapacityTracking G) (gb : G) :
    StartupCapacityTracking G × Option BackendError :=
  match tracking.exactClaim with
  | none => ({ tracking with claimedGb := gb }, none)
  | some _ =>
    match CapacityCharge.fromGb gb with
    | .ok charge => ({ tracking with exactClaim := some charge, claimedGb := gb }, none)
    | .error err => (tracking, some err)

/-- Charge the sampled residency, or the whole budget when it is unknown. -/
def StartupCapacityTracking.observe (tracking : StartupCapacityTracking G)
    (startup : Except BackendError (BackendStatus G)) :
    StartupCapacityTracking G × Option BackendError :=
  match startup with
  | .ok status =>
    match tracking.ledger.adoptObserved tracking.allocationKey none status.usedGb with
    | .ok ledger => { tracking with ledger := ledger }.recordObservedClaim status.usedGb
    | .error err => (tracking, some err)
  | .error _ =>
    match tracking.ledger.blockGrowthForUnknownResidency tracking.allocationKey none with
    | .ok (ledger, claimedGb) => { tracking with ledger := ledger }.recordObservedClaim claimedGb
    | .error err => (tracking, some err)

def inheritedSlot : ModelSlot G where
  memoryGb := Gigabytes.zero
  charge := .default
  state := .error
  lastUsedSeq := 0
  policy := ⟨.onDemand, .pinned true, .coexist⟩
  inflight := 0
  loadUnconfirmed := false
  inherited := true

def inheritedModels (loaded : List String) : Models G :=
  loaded.foldl (fun models id => models.insert id inheritedSlot) Keyed.Map.empty

def errorOf {α : Type} : Except BackendError α → Option BackendError
  | .error err => some err
  | .ok _ => none

def Boot.fenceError (boot : Boot G) (marker : Bool) : Option BackendError :=
  match boot.fence with
  | .ok fence => errorOf (fence.checkClear boot.checkFault marker)
  | .error err => some err

/-- The state of `run_actor` when it accepts its first command. -/
def Boot.actor (boot : Boot G) (marker : Bool) : Actor G :=
  let startup := boot.startup
  let observed := (if boot.startupProbe then boot.capacity else none).map (·.observe startup)
  { models := match startup with
      | .ok status => inheritedModels status.loaded
      | .error _ => Keyed.Map.empty
    activeOp := none
    nextSeq := 0
    poisoned := none
    env := {
      config := boot.config
      loadFence := boot.fence.toOption
      reservedGb := match startup with
        | .ok status => status.usedGb
        | .error _ => Gigabytes.zero
      aggregateCovered := Keyed.Map.empty
      runtimeCapacity := observed.map Prod.fst
      startupError := (boot.fenceError marker).or
        ((observed.bind Prod.snd).or (errorOf startup)) } }

/-- A process that has just started on a host. -/
def Boot.world (boot : Boot G) (host : Host) : World G where
  actor := boot.actor host.marker
  host := host
  tasks := []
  chats := []
  nextSerial := 0
  callers := []
  waited := []
  replies := []
  chatReplies := []
  started := []
  delivered := []
  discarded := []
  journal := []

end Start

end Supervisor
