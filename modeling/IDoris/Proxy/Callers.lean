import Mathlib.Algebra.BigOperators.Group.Finset.Basic
import IDoris.Library.System
import IDoris.Proxy.Registry

/-!
# Forwards that run at the same time

Any number of callers, each with the rest of its program, take turns. An action under the
registry's lock, and one that adjusts the byte counter, takes several turns; a future may be
dropped wherever it awaits, and its locals are dropped one a turn.
-/
namespace Proxy

open Interaction Transition

variable {E : Type}

section Phases

/-- How far a caller is with the outcome of its flight. `stored`: the flight is charged for
the replay, which is not in its place yet. -/
inductive Phase where
  | outside
  | joined
  | locked
  | begun
  | stored (replay : ForwardOutcome)
  | ended

def Phase.next (phase : Phase) : (op : Action) → op.Answer E → Phase
  | .enter, .flight _ => .joined
  | .lockOutcome, none => .locked
  | .lockOutcome, some _ => .ended
  | .begin, _ => .begun
  | .resize replay, true => .stored replay
  | .reset, _ => .ended
  | .publish _, _ => .ended
  | _, _ => phase

end Phases

/-- Where a caller stands inside an action of several turns. -/
inductive Stage where
  | between
  | scanning (now : Nat) (left : List (String × Nat))
  | reserved
  | adjusted (retained : Nat)
  | leaving

/-- The byte counter has a new charge that no flight has yet. -/
def Stage.adjusting : Stage → Bool
  | .reserved | .adjusted _ => true
  | _ => false

/-- A buffered forward in flight. `guarded`: it has the cancellation guard, and whether that is
armed. -/
structure Caller (E : Type) where
  call : ForwardCall
  program : Forward E (Except E ForwardOutcome)
  stage : Stage
  phase : Phase
  flight : Option Nat
  guarded : Option Bool

namespace Caller

def key (c : Caller E) : String := c.call.key.getD ""

def fingerprint (c : Caller E) : Fingerprint := c.call.fingerprint.getD 0

/-- The caller's own handle on the flight, and the one of its guard. -/
def handles (c : Caller E) (f : Nat) : Nat :=
  if c.flight = some f then (if c.guarded.isSome then 2 else 1) else 0

/-- The flight a caller inserts when it finds none. -/
def newFlight (config : ProxyConfig) (c : Caller E) : Flight :=
  Shared.newFlight config c.key c.fingerprint

def cacheEntry (c : Caller E) (now : Nat) (outcome : ForwardOutcome) : CacheEntry where
  storedAt := now
  fingerprint := c.fingerprint
  status := outcome.status
  body := outcome.body
  recordId := c.call.opts.recordId
  servedLocality := c.call.opts.servedLocality

end Caller

/-- What a caller is answered by the permits, its observers and gates, and the upstream. -/
structure Replies (E : Type) where
  permit : Bool
  claimed : Bool
  observed : Except E Unit
  sent : Sent
  received : Received
  gated : Except SuccessFinalizeError Unit
  completed : Except E Unit

/-- `underflowed`: more was taken from the byte counter than it held. -/
structure World (E : Type) where
  shared : Shared
  registryHolder : Option Nat
  callers : List (Caller E)
  underflowed : Bool

namespace World

/-- The references to a flight: the registry's and the callers'. -/
def strongCount (w : World E) (f : Nat) : Nat :=
  w.shared.flights.values.count f + (w.callers.map fun c => c.handles f).sum

/-- The flights that are allocated and not dropped. -/
def live (w : World E) : Finset Nat :=
  (Finset.range w.shared.nextFlight).filter fun f => 0 < w.strongCount f

def setCaller (w : World E) (i : Nat) (c : Caller E) : World E :=
  { w with callers := w.callers.set i c }

def giveBack (w : World E) (bytes : Nat) : World E :=
  { w with
    shared := { w.shared with flightBytes := w.shared.flightBytes - bytes }
    underflowed := w.underflowed || decide (w.shared.flightBytes < bytes) }

/-- A handle on the flight is gone; the last owner gives its bytes back. -/
def dropHandle (w : World E) (f : Nat) : World E :=
  if w.strongCount f = 0 then w.giveBack (w.shared.heap f).retainedBytes else w

def modifyFlight (w : World E) (f : Nat) (g : Flight → Flight) : World E :=
  { w with shared := w.shared.modifyFlight f g }

/-- The caller is answered and goes on. -/
def resume (w : World E) (i : Nat) (c : Caller E) (op : Action)
    (next : op.Answer E → Forward E (Except E ForwardOutcome)) (answer : op.Answer E) : World E :=
  w.setCaller i { c with
    program := next answer
    stage := .between
    phase := c.phase.next op answer }

def remember (config : ProxyConfig) (w : World E) (c : Caller E) (outcome : ForwardOutcome) :
    World E :=
  { w with
    shared := w.shared.remember config c.key (c.cacheEntry w.shared.clock outcome) }

section Registry

variable (config : ProxyConfig) (w : World E) (i : Nat) (c : Caller E)
  (next : Entered → Forward E (Except E ForwardOutcome))

def lockRegistry : Option (World E) :=
  if w.registryHolder.isNone then
    some ({ w with registryHolder := some i }.setCaller i
      { c with stage := .scanning w.shared.clock w.shared.flights.entries })
  else none

/-- `retain` looks at one entry. -/
def scan (now : Nat) (e : String × Nat) (rest : List (String × Nat)) : World E :=
  let scanned := w.setCaller i { c with stage := .scanning now rest }
  if Shared.stays { w.shared with clock := now } config w.strongCount e.2 then scanned
  else { scanned with
    shared := { w.shared with flights := w.shared.flights.remove e.1 } }.dropHandle e.2

/-- The answer of `enter`, with the registry unlocked. -/
def entered (answer : Entered) : World E :=
  { w with registryHolder := none }.resume i c .enter next answer

/-- After `retain`: the flight of the key, no room, or the bytes of a new flight. -/
def find : World E :=
  match w.shared.flights.get c.key with
  | some f => w.entered i { c with flight := some f } next (.flight (w.shared.heap f).fingerprint)
  | none =>
    if config.maxEntries ≤ w.shared.flights.entries.length then
      match w.shared.lookupCached config c.key c.fingerprint c.call.opts with
      | some hit => w.entered i c next (.hit hit)
      | none => w.entered i c next .full
    else match w.shared.reserveBytes config (c.newFlight config).retainedBytes with
      | some reserved => { w with shared := reserved }.setCaller i { c with stage := .reserved }
      | none => w.entered i c next .full

def insertFlight : World E :=
  { w with shared := w.shared.insertFlight c.key (c.newFlight config) }.entered i
    { c with flight := some w.shared.nextFlight } next (.flight c.fingerprint)

def enter : Option (World E) :=
  match c.stage with
  | .scanning now (e :: rest) => some (w.scan config i c now e rest)
  | .scanning _ [] => some (w.find config i c next)
  | .reserved => some (w.insertFlight config i c next)
  | _ => w.lockRegistry i c

end Registry

section Outcome

variable (config : ProxyConfig) (w : World E) (i : Nat) (c : Caller E) (f : Nat)

def lockOutcome (next : Option ForwardOutcome → Forward E (Except E ForwardOutcome)) :
    Option (World E) :=
  if (w.shared.heap f).holder.isNone then
    some ((w.modifyFlight f fun flight => { flight with holder := some i }).resume i c .lockOutcome
      next (w.shared.heap f).outcome)
  else none

/-- The counter follows the new charge before the flight does. -/
def adjust (replay : ForwardOutcome) (next : Bool → Forward E (Except E ForwardOutcome)) : World E :=
  let flight := w.shared.heap f
  let retained := flight.baseBytes + config.layout.outcomeBytes replay
  let adjusted := { c with stage := .adjusted retained }
  if retained ≤ flight.retainedBytes then
    (w.giveBack (flight.retainedBytes - retained)).setCaller i adjusted
  else match w.shared.reserveBytes config (retained - flight.retainedBytes) with
    | some reserved => { w with shared := reserved }.setCaller i adjusted
    | none => w.resume i c (.resize replay) next false

def resize (replay : ForwardOutcome) (next : Bool → Forward E (Except E ForwardOutcome)) : World E :=
  match c.stage with
  | .adjusted retained =>
    (w.modifyFlight f fun flight => { flight with retainedBytes := retained }).resume i c
      (.resize replay) next true
  | _ => w.adjust config i c f replay next

/-- An action of the caller that has the outcome locked. -/
def write (g : Flight → Flight) (guarded : Option Bool) (op : Action)
    (next : op.Answer E → Forward E (Except E ForwardOutcome)) (answer : op.Answer E) : World E :=
  (w.modifyFlight f g).resume i { c with guarded := guarded } op next answer

end Outcome

/-- One turn of a caller at an action; `none` where it has to wait. -/
def perform (config : ProxyConfig) (w : World E) (i : Nat) (c : Caller E) (replies : Replies E) :
    (op : Action) → (op.Answer E → Forward E (Except E ForwardOutcome)) → Option (World E)
  | .acquirePermit, next => some (w.resume i c .acquirePermit next replies.permit)
  | .lookup, next => some (w.resume i c .lookup next
      (w.shared.lookupCached config c.key c.fingerprint c.call.opts))
  | .enter, next => w.enter config i c next
  | .lockOutcome, next => c.flight.bind fun f => w.lockOutcome i c f next
  | .begin, next => c.flight.map fun f =>
      w.write i c f (fun flight => { flight with outcome := some Shared.fallback }) (some true)
        .begin next ()
  | .claimSend, next => some (w.resume i c .claimSend next replies.claimed)
  | .observe, next => some (w.resume i c .observe next replies.observed)
  | .send, next => some (w.resume i c .send next replies.sent)
  | .sleepRetry attempt, next => some (w.resume i c (.sleepRetry attempt) next ())
  | .read resp, next => some (w.resume i c (.read resp) next (readBuffered config resp replies.received))
  | .gate outcome, next => some (w.resume i c (.gate outcome) next replies.gated)
  | .completed outcome, next => some (w.resume i c (.completed outcome) next replies.completed)
  | .remember outcome, next => some ((w.remember config c outcome).resume i c (.remember outcome) next ())
  | .resize replay, next => c.flight.map fun f => w.resize config i c f replay next
  | .retainCompleted, next => c.flight.map fun f =>
      w.write i c f (fun flight => { flight with cancelledAt := some w.shared.clock }) (some false)
        .retainCompleted next ()
  | .disarm, next => c.flight.map fun f => w.write i c f id (some false) .disarm next ()
  | .reset, next => c.flight.map fun f =>
      w.write i c f (fun flight => { flight with outcome := none }) (some false) .reset next ()
  | .publish outcome, next => c.flight.map fun f =>
      w.write i c f (fun flight => { flight with outcome := some outcome }) c.guarded
        (.publish outcome) next ()

/-- The caller's locals go: its guard, the lock of the outcome, its handle on the flight. -/
def leave (w : World E) (i : Nat) (c : Caller E) : Option (World E) :=
  c.flight.map fun f =>
    match c.guarded with
    | some armed =>
      ((w.modifyFlight f fun flight =>
        if armed then { flight with cancelledAt := some w.shared.clock } else flight).setCaller i
          { c with guarded := none }).dropHandle f
    | none =>
      if (w.shared.heap f).holder = some i then
        w.modifyFlight f fun flight => { flight with holder := none }
      else (w.setCaller i { c with flight := none }).dropHandle f

def depart (w : World E) (i : Nat) (c : Caller E) : World E :=
  w.setCaller i { c with stage := .leaving, phase := .ended }

end World

/-- `rehash`: the registry's iteration order is arbitrary. -/
inductive Event (E : Type) where
  | arrive (call : ForwardCall)
  | turn (caller : Nat) (replies : Replies E)
  | drop (caller : Nat)
  | tick (elapsed : Nat)
  | rehash (n : Nat)

namespace World

def newCaller (config : ProxyConfig) (call : ForwardCall) : Caller E where
  call := call
  program := forwardBuffered config call
  stage := .between
  phase := .outside
  flight := none
  guarded := none

def turn (config : ProxyConfig) (w : World E) (i : Nat) (c : Caller E) (replies : Replies E) :
    Option (World E) :=
  match c.stage, c.program with
  | .leaving, _ => w.leave i c
  | _, .ret _ => some (w.depart i c)
  | _, .ask op next => w.perform config i c replies op next

/-- The future is dropped where it awaits. -/
def cancel (w : World E) (i : Nat) (c : Caller E) : Option (World E) :=
  match c.stage, c.program with
  | .between, .ask op _ => if op.awaits then some (w.depart i c) else none
  | _, _ => none

def step (config : ProxyConfig) (w : World E) : Event E → Option (World E)
  | .arrive call => some { w with callers := w.callers ++ [newCaller config call] }
  | .turn i replies => w.callers[i]?.bind fun c => w.turn config i c replies
  | .drop i => w.callers[i]?.bind fun c => w.cancel i c
  | .tick elapsed => some { w with shared := { w.shared with clock := w.shared.clock + elapsed } }
  | .rehash n => some { w with shared := { w.shared with flights := w.shared.flights.exchange n } }

/-- A new proxy. -/
def start (config : ProxyConfig) : World E where
  shared :=
    { clock := 0
      cache := []
      flights := .empty
      heap := fun _ => Shared.newFlight config "" 0
      nextFlight := 0
      flightBytes := 0 }
  registryHolder := none
  callers := []
  underflowed := false

/-- Every interleaving of buffered forwards. -/
def system (config : ProxyConfig) (E : Type) : System (World E) (Event E) where
  step w event w' := w.step config event = some w'

end World

end Proxy
