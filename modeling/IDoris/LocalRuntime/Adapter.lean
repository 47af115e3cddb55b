import Mathlib.Logic.Function.Basic
import IDoris.Library.System
import IDoris.Library.ProcessGroup

/-!
# The adapter of a local runtime

Calls share one slot with the process of the engine. A call that finds the process
exited, or unloads it, takes it out of the slot and shuts its group down. Any call can
be dropped where it awaits, and every inspection, signal and wait can fail.
-/
namespace LocalRuntime

open ProcessGroup Transition

/-- Where the group is checked for live members: before the leader is reaped, or after. -/
inductive Platform where
  | linux
  | otherUnix
  deriving DecidableEq

inductive Kind where
  | load
  | unload
  | status
  | probeReady
  | chat
  deriving DecidableEq

/-- Where a call is. Every place but the first two of them and `spawning` holds a process. -/
inductive Pc where
  | locking
  | terminating (g : Nat)
  | waiting (g : Nat)
  | sweeping (g : Nat)
  | cleaning (g : Nat)
  | reaping (g : Nat) (clean : Option Bool)
  | failing (g : Nat)
  | spawning
  | storing (g : Nat)
  deriving DecidableEq

/-- What a call answers; a probe or a chat goes on when the process runs. -/
inductive Reply where
  | error
  | done
  | running (running : Bool)
  deriving DecidableEq

def Pc.held : Pc → Option Nat
  | .locking | .spawning => none
  | .terminating g | .waiting g | .sweeping g | .cleaning g | .reaping g _ | .failing g
  | .storing g => some g

/-- `answer` is the answer of the last step, if it ended a call. -/
structure Adapter where
  slot : Option Nat
  groups : Nat → Group
  spawned : Nat
  calls : Nat → Option (Kind × Pc)
  answer : Option (Kind × Reply)

/-- The results of inspections, signals and waits are chosen by the system: `none` is an
error, and a wait that is `some false` has timed out. -/
inductive Event where
  | begin (i : Nat) (kind : Kind)
  | lock (i : Nat) (running : Option Bool)
  | terminate (i : Nat) (ok : Bool)
  | leaderWait (i : Nat) (exited : Option Bool)
  | sweep (i : Nat) (ok : Bool)
  | cleanup (i : Nat) (clean : Option Bool)
  | reap (i : Nat) (ok : Bool)
  | fail (i : Nat)
  | spawn (i : Nat) (ok : Bool)
  | store (i : Nat)
  | drop (i : Nat)
  | change (g : Nat) (c : Change)
  deriving DecidableEq

namespace Adapter

def start : Adapter where
  slot := none
  groups := fun _ => .absent
  spawned := 0
  calls := fun _ => none
  answer := none

/-- The call answers and is over. -/
def reply (s : Adapter) (i : Nat) (kind : Kind) (answer : Reply) : Adapter :=
  { s with calls := Function.update s.calls i none, answer := some (kind, answer) }

def goto (s : Adapter) (i : Nat) (kind : Kind) (pc : Pc) : Adapter :=
  { s with calls := Function.update s.calls i (some (kind, pc)), answer := none }

def setGroup (s : Adapter) (g : Nat) (group : Group) : Adapter :=
  { s with groups := Function.update s.groups g group }

/-- `guard.take()`: the process leaves the slot before it is shut down. -/
def takeOut (s : Adapter) (i : Nat) (kind : Kind) (g : Nat) : Adapter :=
  { s with slot := none }.goto i kind (.terminating g)

/-- What the call does when no process is left. -/
def stopped (s : Adapter) (i : Nat) (kind : Kind) : Adapter :=
  match kind with
  | .load => s.goto i kind .spawning
  | .unload => s.reply i kind .done
  | .status | .probeReady | .chat => s.reply i kind (.running false)

/-- The process of the slot runs. -/
def found (s : Adapter) (i : Nat) (kind : Kind) : Adapter :=
  match kind with
  | .load => s.reply i kind .done
  | _ => s.reply i kind (.running true)

/-- What a call does under the lock. Only the leader is looked at. -/
def look (s : Adapter) (i : Nat) (kind : Kind) (running : Option Bool) : Option Adapter :=
  match s.slot with
  | none => some (s.stopped i kind)
  | some g =>
    if kind = .unload then some (s.takeOut i kind g)
    else
      match running with
      | none => some (s.reply i kind .error)
      | some true => if (s.groups g).leader = .running then some (s.found i kind) else none
      | some false =>
        if (s.groups g).leader = .running then none else some (s.takeOut i kind g)

/-- The end of a shutdown, by what its check of the group has seen. -/
def shutDown (s : Adapter) (i : Nat) (kind : Kind) (g : Nat) (clean : Option Bool) : Adapter :=
  if clean = some true then s.stopped i kind else s.goto i kind (.failing g)

def next (s : Adapter) (platform : Platform) (i : Nat) (kind : Kind) (pc : Pc) :
    Event → Option Adapter
  | .lock _ running => if pc = .locking then s.look i kind running else none
  | .terminate _ ok =>
    match pc with
    | .terminating g => some (s.goto i kind (if ok then .waiting g else .failing g))
    | _ => none
  | .leaderWait _ exited =>
    match pc with
    | .waiting g =>
      if exited = some true ∧ (s.groups g).leader = .running then none
      else some (s.goto i kind (if exited.isSome then .sweeping g else .failing g))
    | _ => none
  | .sweep _ ok =>
    match pc with
    | .sweeping g =>
      if ok then
        match platform with
        | .linux => some (s.goto i kind (.cleaning g))
        | .otherUnix => some (s.goto i kind (.reaping g none))
      else some (s.goto i kind (.failing g))
    | _ => none
  | .cleanup _ clean =>
    match pc with
    | .cleaning g =>
      if clean = some true ∧ (s.groups g).Live then none
      else
        match platform with
        | .linux => some (s.goto i kind (.reaping g clean))
        | .otherUnix => some (s.shutDown i kind g clean)
    | _ => none
  | .reap _ ok =>
    match pc with
    | .reaping g clean =>
      if ok then
        (s.groups g).reap.map fun group =>
          match platform with
          | .linux => (s.setGroup g group).shutDown i kind g clean
          | .otherUnix => (s.setGroup g group).goto i kind (.cleaning g)
      else some (s.goto i kind (.failing g))
    | _ => none
  | .fail _ =>
    match pc with
    | .failing _ => some (s.reply i kind .error)
    | _ => none
  | .spawn _ ok =>
    match kind, pc with
    | .load, .spawning =>
      if ok then
        some ({ s.setGroup s.spawned .spawned with spawned := s.spawned + 1 }.goto i .load
          (.storing s.spawned))
      else some (s.reply i .load .error)
    | _, _ => none
  | .store _ =>
    match kind, pc with
    | .load, .storing g => some ({ s with slot := some g }.reply i .load .done)
    | _, _ => none
  | .drop _ => some { s with calls := Function.update s.calls i none, answer := none }
  | .begin _ _ | .change _ _ => none

/-- The call of an event. -/
def caller : Event → Option Nat
  | .begin _ _ | .change _ _ => none
  | .lock i _ | .terminate i _ | .leaderWait i _ | .sweep i _ | .cleanup i _ | .reap i _ | .fail i
  | .spawn i _ | .store i | .drop i => some i

def step (s : Adapter) (platform : Platform) (event : Event) : Option Adapter :=
  match event with
  | .begin i kind => if s.calls i = none then some (s.goto i kind .locking) else none
  | .change g c =>
    ((s.groups g).change c).map fun group => { s.setGroup g group with answer := none }
  | event => do
    let i ← caller event
    let (kind, pc) ← s.calls i
    s.next platform i kind pc event

/-- Every interleaving of the calls and the processes. -/
def interleaving (platform : Platform) : System Adapter Event where
  step s event t := s.step platform event = some t

end Adapter

end LocalRuntime
