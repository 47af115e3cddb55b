import IDoris.Library.Keyed
import IDoris.Subscription.Relay

/-!
# The subscription service

Chat calls and shutdowns take turns; what is done under the state's lock is one turn. A request
that is accepted has a task that goes on without its caller. A shutdown waits for the notifier,
which wakes the waits that are registered and leaves nothing for later ones.
-/
namespace Subscription

open Transition

/-- How far a chat call is. `unbridged`: the task no longer forwards the caller's cancellation;
`removed`: it has left the active set, and whether that is now empty. -/
inductive Stage where
  | calling
  | refused
  | gone
  | admitted (id : Nat)
  | spawned (id : Nat)
  | running (id : Nat)
  | ended (id : Nat) (result : Except ErrorCode String)
  | unbridged (id : Nat) (result : Except ErrorCode String)
  | removed (empty : Bool) (result : Except ErrorCode String)
  | notified (result : Except ErrorCode String)
  | finished (result : Except ErrorCode String)

inductive CallerState where
  | waiting
  | answered (result : Except ErrorCode String)
  | dropped

def CallerState.answer (result : Except ErrorCode String) : CallerState → CallerState
  | .waiting => .answered result
  | caller => caller

/-- `cancelRequested`: the token the caller gave is cancelled. -/
structure Request where
  stage : Stage
  caller : CallerState
  cancelRequested : Bool

/-- `heard`: the notifier has been called since this wait was registered. -/
inductive ShutdownStage where
  | calling
  | cancelling (left : List Nat)
  | looping
  | checking (heard : Bool)
  | waiting (heard : Bool)
  | returned (result : Except ErrorCode Unit)
  | dropped

def ShutdownStage.hear : ShutdownStage → ShutdownStage
  | .checking _ => .checking true
  | .waiting _ => .waiting true
  | stage => stage

/-- A call of `shutdown`, and the tokens it took under the lock. -/
structure Shutdown where
  stage : ShutdownStage
  tokens : List Nat

/-- A request's own token is named by its place. `removals`: whose entries were removed. -/
structure Service where
  accepting : Bool
  nextId : Nat
  active : Keyed.Map Nat Nat
  cancelled : Nat → Bool
  requests : List Request
  shutdowns : List Shutdown
  removals : List Nat

/-- `result` is the relay's, where its run ends; `rehash`: the set's order is arbitrary. -/
inductive ServiceEvent where
  | call
  | turn (i : Nat) (result : Except ErrorCode String)
  | cancel (i : Nat)
  | bridge (i : Nat)
  | dropCaller (i : Nat)
  | shutdown
  | shutdownTurn (j : Nat)
  | timeout (j : Nat)
  | dropShutdown (j : Nat)
  | rehash (n : Nat)

namespace Service

def new : Service where
  accepting := true
  nextId := 1
  active := .empty
  cancelled := fun _ => false
  requests := []
  shutdowns := []
  removals := []

def setRequest (w : Service) (i : Nat) (r : Request) : Service :=
  { w with requests := w.requests.set i r }

def setShutdown (w : Service) (j : Nat) (s : Shutdown) : Service :=
  { w with shutdowns := w.shutdowns.set j s }

def cancelToken (w : Service) (token : Nat) : Service :=
  { w with cancelled := Function.update w.cancelled token true }

section Chat

variable (w : Service) (i : Nat) (r : Request)

/-- `next_id.wrapping_add(1).max(1)`. -/
def followingId (id : Nat) : Nat := max ((id + 1) % 2 ^ 64) 1

/-- The critical section of `chat`. -/
def admission : Service :=
  if w.accepting then
    { w with
      nextId := followingId w.nextId
      active := w.active.insert w.nextId i
      cancelled := Function.update w.cancelled i false
      requests := w.requests.set i { r with stage := .admitted w.nextId } }
  else w.setRequest i { r with stage := .refused, caller := .answered (.error .cancelled) }

/-- The critical section of `finish_request`. -/
def finishRequest (id : Nat) (result : Except ErrorCode String) : Service :=
  let active := w.active.remove id
  { w with
    active := active
    requests := w.requests.set i { r with
      stage := .removed ((w.active.get id).isSome && active.entries.isEmpty) result }
    removals := w.removals ++ (w.active.get id).toList }

def notifyWaiters : Service :=
  { w with shutdowns := w.shutdowns.map fun s => { s with stage := s.stage.hear } }

/-- The next turn of a chat call, or of its task. -/
def turn (result : Except ErrorCode String) : Option Service :=
  match r.stage with
  | .calling => some (w.admission i r)
  | .admitted id => some (w.setRequest i { r with stage := .spawned id })
  | .spawned id => some (w.setRequest i { r with stage := .running id })
  | .running id => some (w.setRequest i { r with stage := .ended id result })
  | .ended id result => some (w.setRequest i { r with stage := .unbridged id result })
  | .unbridged id result => some (w.finishRequest i r id result)
  | .removed empty result =>
    some ((if empty then w.notifyWaiters else w).setRequest i { r with stage := .notified result })
  | .notified result =>
    some (w.setRequest i { r with
      stage := .finished result
      caller := r.caller.answer result })
  | .refused | .gone | .finished _ => none

/-- The task's bridge hands the caller's cancellation on. -/
def bridge : Option Service :=
  match r.stage with
  | .running _ | .ended _ _ => if r.cancelRequested then some (w.cancelToken i) else none
  | _ => none

/-- The caller's future is dropped where it awaits: at the lock, or at the answer. -/
def dropCaller : Option Service :=
  match r.stage, r.caller with
  | .calling, .waiting => some (w.setRequest i { r with stage := .gone, caller := .dropped })
  | .admitted _, _ => none
  | _, .waiting => some (w.setRequest i { r with caller := .dropped })
  | _, _ => none

end Chat

section Shutdown

variable (w : Service) (j : Nat) (s : Shutdown)

def shutdownTurn : Option Service :=
  match s.stage with
  | .calling =>
    some ({ w with accepting := false }.setShutdown j ⟨.cancelling w.active.values, w.active.values⟩)
  | .cancelling [] => some (w.setShutdown j { s with stage := .looping })
  | .cancelling (token :: rest) =>
    some ((w.cancelToken token).setShutdown j { s with stage := .cancelling rest })
  | .looping => some (w.setShutdown j { s with stage := .checking false })
  | .checking heard =>
    some (w.setShutdown j { s with
      stage := if w.active.entries.isEmpty then .returned (.ok ()) else .waiting heard })
  | .waiting true => some (w.setShutdown j { s with stage := .looping })
  | .waiting false | .returned _ | .dropped => none

/-- The wait takes too long. -/
def timeout : Option Service :=
  match s.stage with
  | .checking _ | .waiting false =>
    some (w.setShutdown j { s with stage := .returned (.error .cleanupFailed) })
  | _ => none

def dropShutdown : Option Service :=
  match s.stage with
  | .calling | .checking _ | .waiting _ => some (w.setShutdown j { s with stage := .dropped })
  | _ => none

end Shutdown

def step (w : Service) : ServiceEvent → Option Service
  | .call => some { w with requests := w.requests ++ [⟨.calling, .waiting, false⟩] }
  | .turn i result => w.requests[i]?.bind fun r => w.turn i r result
  | .cancel i => w.requests[i]?.map fun r => w.setRequest i { r with cancelRequested := true }
  | .bridge i => w.requests[i]?.bind fun r => w.bridge i r
  | .dropCaller i => w.requests[i]?.bind fun r => w.dropCaller i r
  | .shutdown => some { w with shutdowns := w.shutdowns ++ [⟨.calling, []⟩] }
  | .shutdownTurn j => w.shutdowns[j]?.bind fun s => w.shutdownTurn j s
  | .timeout j => w.shutdowns[j]?.bind fun s => w.timeout j s
  | .dropShutdown j => w.shutdowns[j]?.bind fun s => w.dropShutdown j s
  | .rehash n => some { w with active := w.active.exchange n }

def system : System Service ServiceEvent where
  step w event w' := w.step event = some w'

end Service

end Subscription
