import Mathlib.Logic.Function.Basic
import IDoris.Library.ProcessGroup
import IDoris.Library.System
import IDoris.Library.Text

/-!
# The relay of a subscription

One chat runs a command line tool in its own process group and workspace. Two tasks read
its output under one byte limit, one writes its input, and the call itself waits for the
leader, a cancellation, the timeout or the limit, then cleans the group up.
-/
namespace Subscription

open ProcessGroup Transition

abbrev Bytes := List UInt8

inductive ErrorCode where
  | cliFailed
  | emptyOutput
  | spawnFailed
  | outputLimit
  | timeout
  | cancelled
  | cleanupFailed
  deriving DecidableEq

section Select

/-- What stands at the path of the result file. -/
inductive ResultFile where
  | missing
  | unreadable
  | regular (bytes : Bytes)

def maxResultBytes : Nat := 256 * 1024

def nonEmpty (value : String) : Except ErrorCode String :=
  if Text.trim value = "" then .error .emptyOutput else .ok (Text.trim value)

def selectOutput (file : ResultFile) (stdout : String) (exitCode : Option Int) :
    Except ErrorCode String :=
  if exitCode ≠ some 0 then .error .cliFailed
  else
    match file with
    | .missing => nonEmpty stdout
    | .unreadable => .error .cliFailed
    | .regular bytes =>
      if maxResultBytes < bytes.length then .error .outputLimit
      else
        match Text.decode bytes with
        | none => .error .cliFailed
        | some text => if Text.trim text = "" then nonEmpty stdout else .ok (Text.trim text)

end Select

section Readers

inductive Output where
  | stdout
  | stderr
  deriving DecidableEq

/-- `counting` has read a chunk that the shared counter does not know yet. -/
inductive ReaderPc where
  | reading
  | counting (chunk : Bytes)
  | marking
  | cancelling
  | done
  | failed
  | aborted
  deriving DecidableEq

/-- A pipe with its reader. -/
structure Reader where
  written : Bytes
  unread : Bytes
  closed : Bool
  pc : ReaderPc
  counted : Bytes
  kept : Bytes

def Reader.new : Reader := ⟨[], [], false, .reading, [], []⟩

/-- The bytes between the pipe and the counter. -/
def Reader.pending (r : Reader) : Bytes :=
  match r.pc with
  | .counting chunk => chunk
  | _ => []

/-- The counter was at `previous` before the chunk. -/
def Reader.count (r : Reader) (limit previous : Nat) (chunk : Bytes) : Reader :=
  if limit ≤ previous then { r with pc := .marking, counted := r.counted ++ chunk }
  else
    let keep := min chunk.length (limit - previous)
    { r with
      pc := if keep < chunk.length then .marking else .reading
      counted := r.counted ++ chunk
      kept := r.kept ++ chunk.take keep }

end Readers

inductive Reason where
  | exited
  | cancelled
  | timeout
  | outputLimit
  deriving DecidableEq

def Reason.error : Reason → Option ErrorCode
  | .exited => none
  | .cancelled => some .cancelled
  | .timeout => some .timeout
  | .outputLimit => some .outputLimit

/-- How the leader ended, and why the call went on. -/
structure Ending where
  reason : Reason
  code : Option Int

/-- What became of a reader: its bytes, its error, or nothing in time. -/
inductive Drain where
  | pending
  | kept
  | failed
  | lost
  deriving DecidableEq

inductive Writer where
  | running
  | done
  | failed
  | aborted
  deriving DecidableEq

/-- Where the call is. -/
inductive Pc where
  | creating
  | starting
  | selecting
  | terminating (reason : Reason)
  | termWait (reason : Reason)
  | killing (reason : Reason)
  | killWait (reason : Reason)
  | probing (ending : Ending)
  | sweepTerm (ending : Ending)
  | sweepWait (ending : Ending)
  | sweepKill (ending : Ending)
  | sweepKillWait (ending : Ending)
  | joiningStdin (ending : Ending)
  | draining (ending : Ending) (stdout stderr : Drain)
  | collecting (code : Option Int)
  | cleaning (result : Except ErrorCode String)
  | returned (result : Except ErrorCode String)
  | dropped

/-- `removed` says that the removal of the workspace has begun; `total` does not wrap. -/
structure Relay where
  pc : Pc
  cancel : Bool
  started : Bool
  group : Group
  readers : Output → Reader
  total : Nat
  exceeded : Bool
  outputLimit : Bool
  writer : Writer
  file : ResultFile
  removed : Bool

inductive Wait where
  | reaped
  | timedOut
  | failed
  deriving DecidableEq

/-- `unnamed` has made a workspace whose path is no UTF-8. -/
inductive Creation where
  | failed
  | unnamed
  | made
  deriving DecidableEq

/-- What can happen next. Every signal, wait, inspection and read can fail, and every wait
can time out. -/
inductive Event where
  -- the call
  | create (result : Creation)
  | spawn (owned : Option Bool)
  | exits (ok : Bool)
  | seesCancel
  | timesOut
  | seesLimit
  | signal (ok : Bool)
  | wait (result : Wait)
  | probe (gone : Option Bool)
  | joinStdin (timedOut : Bool)
  | drain (out : Output) (timedOut : Bool)
  | finishDrains
  | collect
  | cleanup (ok : Bool)
  | drop
  -- the tasks
  | read (out : Output) (n : Nat)
  | endOfFile (out : Output)
  | readFails (out : Output)
  | count (out : Output)
  | mark (out : Output)
  | cancelLimit (out : Output)
  | writerEnds (ok : Bool)
  -- the caller and the group
  | requestCancel
  | write (out : Output) (bytes : Bytes)
  | close (out : Output)
  | writeFile (file : ResultFile)
  | change (c : Change)

namespace Relay

def start : Relay where
  pc := .creating
  cancel := false
  started := false
  group := .absent
  readers := fun _ => .new
  total := 0
  exceeded := false
  outputLimit := false
  writer := .running
  file := .missing
  removed := false

def goto (s : Relay) (pc : Pc) : Relay := { s with pc := pc }

def setReader (s : Relay) (out : Output) (r : Reader) : Relay :=
  { s with readers := Function.update s.readers out r }

/-- The workspace is left behind when the cleanup of the group was not confirmed. -/
def finish (s : Relay) (result : Except ErrorCode String) : Relay :=
  match result with
  | .error .cleanupFailed => s.goto (.returned result)
  | _ => s.goto (.cleaning result)

def fail (s : Relay) (code : ErrorCode) : Relay := s.finish (.error code)

/-- The leader is reaped, or the wait for it ends otherwise. -/
def awaitLeader (s : Relay) (result : Wait) (reason : Reason) (timedOut : Relay) : Option Relay :=
  match result with
  | .failed => some (s.fail .cleanupFailed)
  | .timedOut => some timedOut
  | .reaped =>
    match s.group.leader, s.group.reap with
    | .exited code, some group => some { s with group := group, pc := .probing ⟨reason, code⟩ }
    | _, _ => none

/-- The group is looked for; that it is gone can be seen only of a group that is gone. -/
def lookFor (s : Relay) (gone : Option Bool) (ending : Ending) (present : Relay) : Option Relay :=
  match gone with
  | none => some (s.fail .cleanupFailed)
  | some false => some present
  | some true => if s.group.Present then none else some (s.goto (.joiningStdin ending))

def collectOutput (s : Relay) (code : Option Int) : Relay :=
  if s.exceeded then s.fail .outputLimit
  else
    match Text.decode (s.readers .stdout).kept, Text.decode (s.readers .stderr).kept with
    | some stdout, some _ =>
      if code ≠ some 0 then s.fail .cliFailed else s.finish (selectOutput s.file stdout code)
    | _, _ => s.fail .cliFailed

/-- The error of the ending comes before those of the drains. -/
def drained (s : Relay) (ending : Ending) (stdout stderr : Drain) : Option Relay :=
  match stdout, stderr with
  | .pending, _ | _, .pending => none
  | stdout, stderr =>
    match ending.reason.error with
    | some code => some (s.fail code)
    | none =>
      match stdout, stderr with
      | .lost, _ => some (s.fail .cleanupFailed)
      | .failed, _ => some (s.fail .cliFailed)
      | _, .lost => some (s.fail .cleanupFailed)
      | _, .failed => some (s.fail .cliFailed)
      | _, _ => some (s.goto (.collecting ending.code))

/-- A reader that is not finished in time is aborted where it awaits. -/
def drainReader (s : Relay) (out : Output) (timedOut : Bool) : Option (Relay × Drain) :=
  let r := s.readers out
  match timedOut, r.pc with
  | false, .done => some (s, .kept)
  | false, .failed => some (s, .failed)
  | true, .reading => some (s.setReader out { r with pc := .aborted }, .lost)
  | _, _ => none

/-- The steps of the call. -/
def advance (s : Relay) : Event → Option Relay
  | .create result =>
    match s.pc with
    | .creating =>
      match result with
      | .failed => some (s.fail .cleanupFailed)
      -- returned before the cleanup, so that the workspace is left behind
      | .unnamed => some { s with pc := .returned (.error .cliFailed), file := .regular [] }
      | .made => some { s with pc := .starting, file := .regular [] }
    | _ => none
  | .spawn owned =>
    match s.pc with
    | .starting =>
      if s.cancel then some (s.fail .cancelled)
      else
        match owned with
        | none => some (s.fail .spawnFailed)
        | some false => some ({ s with group := .spawned, started := true }.fail .cleanupFailed)
        | some true => some { s with group := .spawned, started := true, pc := .selecting }
    | _ => none
  | .exits ok =>
    match s.pc with
    | .selecting => s.awaitLeader (if ok then .reaped else .failed) .exited s
    | _ => none
  | .seesCancel =>
    match s.pc with
    | .selecting => if s.cancel then some (s.goto (.terminating .cancelled)) else none
    | _ => none
  | .timesOut =>
    match s.pc with
    | .selecting => some (s.goto (.terminating .timeout))
    | _ => none
  | .seesLimit =>
    match s.pc with
    | .selecting => if s.outputLimit then some (s.goto (.terminating .outputLimit)) else none
    | _ => none
  | .signal ok =>
    match s.pc with
    | .terminating reason =>
      some (if ok then s.goto (.termWait reason) else s.fail .cleanupFailed)
    | .killing reason => some (if ok then s.goto (.killWait reason) else s.fail .cleanupFailed)
    | .sweepTerm ending => some (if ok then s.goto (.sweepWait ending) else s.fail .cleanupFailed)
    | .sweepKill ending =>
      some (if ok then s.goto (.sweepKillWait ending) else s.fail .cleanupFailed)
    | _ => none
  | .wait result =>
    match s.pc with
    | .termWait reason => s.awaitLeader result reason (s.goto (.killing reason))
    | .killWait reason => s.awaitLeader result reason (s.fail .cleanupFailed)
    | _ => none
  | .probe gone =>
    match s.pc with
    | .probing ending => s.lookFor gone ending (s.goto (.sweepTerm ending))
    | .sweepWait ending => s.lookFor gone ending (s.goto (.sweepKill ending))
    | .sweepKillWait ending => s.lookFor gone ending (s.fail .cleanupFailed)
    | _ => none
  | .joinStdin timedOut =>
    match s.pc with
    | .joiningStdin ending =>
      if ending.reason = .exited then
        match timedOut, s.writer with
        | false, .done => some (s.goto (.draining ending .pending .pending))
        | false, .failed => some (s.fail .spawnFailed)
        | true, .running => some ({ s with writer := .aborted }.fail .cleanupFailed)
        | _, _ => none
      else some { s with writer := .aborted, pc := .draining ending .pending .pending }
    | _ => none
  | .drain out timedOut =>
    match s.pc, out with
    | .draining ending .pending stderr, .stdout =>
      (s.drainReader out timedOut).map fun after => after.1.goto (.draining ending after.2 stderr)
    | .draining ending stdout .pending, .stderr =>
      (s.drainReader out timedOut).map fun after => after.1.goto (.draining ending stdout after.2)
    | _, _ => none
  | .finishDrains =>
    match s.pc with
    | .draining ending stdout stderr => s.drained ending stdout stderr
    | _ => none
  | .collect =>
    match s.pc with
    | .collecting code => some (s.collectOutput code)
    | _ => none
  | .cleanup ok =>
    match s.pc with
    | .cleaning result =>
      some { s with
        removed := true
        pc := .returned (if ok then result else .error .cleanupFailed) }
    | _ => none
  | .drop =>
    match s.pc with
    | .returned _ => none
    | _ => some (s.goto .dropped)
  | _ => none

/-- The steps of the tasks. -/
def task (s : Relay) (limit : Nat) : Event → Option Relay
  | .read out n =>
    let r := s.readers out
    if s.started ∧ r.pc = .reading ∧ 0 < n ∧ n ≤ 8192 ∧ n ≤ r.unread.length then
      some (s.setReader out { r with pc := .counting (r.unread.take n), unread := r.unread.drop n })
    else none
  | .endOfFile out =>
    let r := s.readers out
    if s.started ∧ r.pc = .reading ∧ r.unread = [] ∧ r.closed then
      some (s.setReader out { r with pc := .done })
    else none
  | .readFails out =>
    let r := s.readers out
    if s.started ∧ r.pc = .reading then some (s.setReader out { r with pc := .failed }) else none
  | .count out =>
    let r := s.readers out
    match r.pc with
    | .counting chunk =>
      some { s.setReader out (r.count limit s.total chunk) with total := s.total + chunk.length }
    | _ => none
  | .mark out =>
    let r := s.readers out
    if r.pc = .marking then
      some { s.setReader out { r with pc := .cancelling } with exceeded := true }
    else none
  | .cancelLimit out =>
    let r := s.readers out
    if r.pc = .cancelling then
      some { s.setReader out { r with pc := .reading } with outputLimit := true }
    else none
  | .writerEnds ok =>
    if s.started ∧ s.writer = .running then
      some { s with writer := if ok then .done else .failed }
    else none
  | _ => none

/-- The caller cancels; the members of the group write and exit. -/
def environment (s : Relay) : Event → Option Relay
  | .requestCancel => some { s with cancel := true }
  | .write out bytes =>
    let r := s.readers out
    if s.group.Live ∧ r.closed = false then
      some (s.setReader out { r with written := r.written ++ bytes, unread := r.unread ++ bytes })
    else none
  | .close out =>
    if s.started then some (s.setReader out { s.readers out with closed := true }) else none
  | .writeFile file => if s.group.Live then some { s with file := file } else none
  | .change c => (s.group.change c).map fun group => { s with group := group }
  | _ => none

def step (s : Relay) (limit : Nat) (event : Event) : Option Relay :=
  ((s.advance event).or (s.task limit event)).or (s.environment event)

/-- Every interleaving of the call, its tasks, its caller and the group. -/
def interleaving (limit : Nat) : System Relay Event where
  step s event t := s.step limit event = some t

end Relay

end Subscription
