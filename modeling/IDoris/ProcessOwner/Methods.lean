import IDoris.Library.Interaction
import IDoris.LocalRuntime.Adapter
import IDoris.Subscription.Relay

/-!
# The owners of process groups

`ManagedRuntimeProcess` and `ProcessGroupReaper` address their group by its number. What they
ask of the system is a question each; only some of them are awaited.
-/
namespace ProcessOwner

open Interaction LocalRuntime Subscription

section Questions

inductive Signal where
  | sigterm
  | sigkill
  deriving DecidableEq

inductive Errno where
  | esrch
  | eperm
  | other
  deriving DecidableEq

inductive Waited where
  | exited (code : Option Int)
  | failed
  | elapsed
  deriving DecidableEq

/-- What `run_controlled` selects: the leader, or a reason to terminate it. -/
inductive Selected where
  | parent (code : Option Int)
  | failed
  | cancelled
  | timeout
  | outputLimit
  deriving DecidableEq

/-- A signal that is `none` only looks for the group. `waitid` leaves the leader unreaped, and
`wait` is bounded by the grace period. -/
inductive Op where
  | killpg (signal : Option Signal)
  | waitid
  | procScan
  | deadlinePassed
  | sleep
  | wait
  | select
  | disarm
  deriving DecidableEq

abbrev Op.Answer : Op → Type
  | .killpg _ => Except Errno Unit
  | .waitid => Option Bool
  | .procScan => Option Bool
  | .deadlinePassed => Bool
  | .sleep => Unit
  | .wait => Waited
  | .select => Selected
  | .disarm => Unit

/-- Where the future of a method can be dropped. -/
def Op.isAwait : Op → Bool
  | .sleep | .wait | .select => true
  | _ => false

abbrev Method (α : Type) := Program Op Op.Answer α

end Questions

section Shared

variable {ε α β : Type}

/-- Go on with what did not fail. -/
def andThen (method : Method (Except ε α)) (next : α → Method (Except ε β)) :
    Method (Except ε β) :=
  method.bind fun
    | .ok value => next value
    | .error error => .ret (.error error)

def classifySignalResult (error : ε) : Except Errno Unit → Except ε Unit
  | .ok () | .error .esrch | .error .eperm => .ok ()
  | .error .other => .error error

def classifyGroupProbe (error : ε) : Except Errno Unit → Except ε Bool
  | .ok () | .error .eperm => .ok true
  | .error .esrch => .ok false
  | .error .other => .error error

def signalGroup (error : ε) (signal : Signal) : Method (Except ε Unit) :=
  .ask (.killpg (some signal)) fun result => .ret (classifySignalResult error result)

def groupExists (error : ε) : Method (Except ε Bool) :=
  .ask (.killpg none) fun result => .ret (classifyGroupProbe error result)

/-- Look until there is nothing left, or the deadline has passed; it has after `polls` sleeps. -/
def waitUntilGone (look : Method (Except ε Bool)) : Nat → Method (Except ε Bool)
  | 0 => andThen look fun left => .ret (.ok !left)
  | polls + 1 => andThen look fun
    | false => .ret (.ok true)
    | true => .ask .deadlinePassed fun
      | true => .ret (.ok false)
      | false => .ask .sleep fun () => waitUntilGone look polls

end Shared

namespace ManagedRuntimeProcess

def signalError : String := "failed to signal local runtime process group"

def processError : String := "failed to inspect local runtime process"

def groupError : String := "failed to inspect local runtime process group"

def signalTerminate : Method (Except String Unit) := signalGroup signalError .sigterm

def signalKill : Method (Except String Unit) := signalGroup signalError .sigkill

def childRunningWithoutReap : Method (Except String Bool) :=
  .ask .waitid fun
    | some running => .ret (.ok running)
    | none => .ret (.error processError)

def waitChildExitWithoutReap (polls : Nat) : Method (Except String Bool) :=
  waitUntilGone childRunningWithoutReap polls

/-- Linux keeps a group of zombies, so that its members are inspected. -/
def groupHasLiveMembers : Platform → Method (Except String Bool)
  | .linux => andThen (groupExists groupError) fun
    | false => .ret (.ok false)
    | true => .ask .procScan fun
      | some live => .ret (.ok live)
      | none => .ret (.error groupError)
  | .otherUnix => groupExists groupError

def waitGroupCleanup (platform : Platform) (polls : Nat) : Method (Except String Bool) :=
  waitUntilGone (groupHasLiveMembers platform) polls

/-- No signal may follow: from here on the number may be used again. -/
def reapLeader : Method (Except String Unit) :=
  .ask .wait fun
    | .elapsed => .ret (.error "timed out reaping local runtime process")
    | .failed => .ret (.error "failed to reap local runtime process")
    | .exited _ => .ask .disarm fun () => .ret (.ok ())

def confirmClean : Except String Bool → Except String Unit
  | .error error => .error error
  | .ok true => .ok ()
  | .ok false => .error "timed out waiting for local runtime process group cleanup"

/-- The descendants that survived are swept while the leader is not reaped. -/
def sweep (leaderExited : Bool) : Method (Except String Unit) :=
  if leaderExited then andThen (groupExists groupError) fun
    | true => signalKill
    | false => .ret (.ok ())
  else signalKill

/-- An error of the check of the group is looked at last. -/
def reapAfter (clean : Except String Bool) : Method (Except String Unit) :=
  andThen reapLeader fun () => .ret (confirmClean clean)

def confirmAfter (polls : Nat) : Method (Except String Unit) :=
  (waitGroupCleanup .otherUnix polls).bind fun clean => .ret (confirmClean clean)

/-- On Linux the group is checked while its number is still its own. -/
def reapAndConfirm (polls : Nat) : Platform → Method (Except String Unit)
  | .linux => (waitGroupCleanup .linux polls).bind reapAfter
  | .otherUnix => andThen reapLeader fun () => confirmAfter polls

def sweepAndReap (platform : Platform) (polls : Nat) (leaderExited : Bool) :
    Method (Except String Unit) :=
  andThen (sweep leaderExited) fun () => reapAndConfirm polls platform

def shutdown (platform : Platform) (polls : Nat) : Method (Except String Unit) :=
  andThen signalTerminate fun () =>
    andThen (waitChildExitWithoutReap polls) (sweepAndReap platform polls)

end ManagedRuntimeProcess

namespace ProcessGroupReaper

structure ReapOutcome where
  exitCode : Option Int
  escalatedToKill : Bool

structure ControlledOutcome where
  reap : ReapOutcome
  reason : Reason

/-- `cleanup_error()`, the one error of the reaper. -/
def cleanupError : ErrorCode := .cleanupFailed

abbrev Reaping (α : Type) := Method (Except ErrorCode α)

def waitGroupGone (polls : Nat) : Reaping Bool := waitUntilGone (groupExists cleanupError) polls

/-- A group that was killed has to be gone in time. -/
def goneOrFailed (polls : Nat) : Reaping Bool :=
  andThen (waitGroupGone polls) fun
    | true => .ret (.ok true)
    | false => .ret (.error cleanupError)

def killDescendants (polls : Nat) : Reaping Bool :=
  andThen (signalGroup cleanupError .sigkill) fun () => goneOrFailed polls

def goneOrKilled (polls : Nat) : Reaping Bool :=
  andThen (waitGroupGone polls) fun
    | true => .ret (.ok false)
    | false => killDescendants polls

def terminateDescendants (polls : Nat) : Reaping Bool :=
  andThen (signalGroup cleanupError .sigterm) fun () => goneOrKilled polls

/-- Whether the group had to be killed. -/
def cleanupDescendants (polls : Nat) : Reaping Bool :=
  andThen (groupExists cleanupError) fun
    | false => .ret (.ok false)
    | true => terminateDescendants polls

/-- Wait for the leader, and do something else when it does not end in time. -/
def waitOr (elapsed : Reaping (Option Int × Bool)) : Reaping (Option Int × Bool) :=
  .ask .wait fun
    | .exited code => .ret (.ok (code, false))
    | .failed => .ret (.error cleanupError)
    | .elapsed => elapsed

def waitKilled : Reaping (Option Int × Bool) :=
  .ask .wait fun
    | .exited code => .ret (.ok (code, true))
    | .failed | .elapsed => .ret (.error cleanupError)

def killAndWait : Reaping (Option Int × Bool) :=
  andThen (signalGroup cleanupError .sigkill) fun () => waitKilled

def disarmed (code : Option Int) (escalated : Bool) : Reaping ReapOutcome :=
  .ask .disarm fun () => .ret (.ok ⟨code, escalated⟩)

/-- The leader is reaped, and the group is still signalled by its number. -/
def cleanUp (polls : Nat) (status : Option Int × Bool) : Reaping ReapOutcome :=
  andThen (cleanupDescendants polls) fun killed => disarmed status.1 (killed || status.2)

def terminate (polls : Nat) : Reaping ReapOutcome :=
  andThen (signalGroup cleanupError .sigterm) fun () =>
    andThen (waitOr killAndWait) fun status => cleanUp polls status

def finishAfterParentExit (polls : Nat) : Reaping ReapOutcome :=
  andThen
    (waitOr (andThen (signalGroup cleanupError .sigterm) fun () => waitOr killAndWait))
    fun status => cleanUp polls status

def outcome (reason : Reason) (method : Reaping ReapOutcome) : Reaping ControlledOutcome :=
  andThen method fun reap => .ret (.ok ⟨reap, reason⟩)

def runControlled (polls : Nat) : Reaping ControlledOutcome :=
  .ask .select fun
    | .parent code => outcome .exited (cleanUp polls (code, false))
    | .failed => .ret (.error cleanupError)
    | .cancelled => outcome .cancelled (terminate polls)
    | .timeout => outcome .timeout (terminate polls)
    | .outputLimit => outcome .outputLimit (terminate polls)

end ProcessGroupReaper

end ProcessOwner
