import IDoris.Library.System
import IDoris.Proxy.Sse

/-!
# A streamed response

A task reads the upstream response and hands its chunks to the body through a queue
of one slot. The body tells the task when it has drained the queue, and the task tells
the body how the stream ended. Around the body stand the guard of the terminating
event and the observer that appends the completion event. The parties step in any order.
-/
namespace Proxy.Streaming

open EventStream Transition

/-- The two streaming interfaces. -/
inductive Api where
  | chat
  | messages

def Api.terminal : Api → TerminalField
  | .chat => .dataDone
  | .messages => .event (ascii "message_stop")

theorem Api.terminal_short (api : Api) : api.terminal.Short := by
  cases api with
  | chat => trivial
  | messages => exact ⟨by decide, by decide⟩

/-- Where the task is: `answering` has left its loop and tells how the stream ended. -/
inductive Producer where
  | reading
  | reserving (chunk : Bytes)
  | closing
  | draining
  | answering (ok : Bool)
  | leaving
  | ended
  deriving DecidableEq

/-- A signal that is sent once, or never because its sender is gone. -/
inductive Signal (α : Type) where
  | pending
  | sent (value : α)
  | dropped
  deriving DecidableEq

inductive Status where
  | success
  | failure
  deriving DecidableEq

/-- Where the consumer of the body is. -/
inductive Poll where
  | resting
  | receiving
  | waiting
  | appending (status : Status)
  | finished
  deriving DecidableEq

/-- What a body yields: a chunk, an error, or its end. -/
inductive Item where
  | chunk (bytes : Bytes)
  | error
  | done

structure Task where
  producer : Producer
  senderAlive : Bool
  terminal : Signal Bool
  read : List Bytes
  eof : Bool

/-- The body, the guard around it, the observer around both, and what the client saw. -/
structure Body where
  poll : Poll
  dropped : Bool
  receiverAlive : Bool
  drained : Signal Unit
  terminalRx : Bool
  drainedTx : Bool
  permit : Bool
  marker : TerminalEvent
  guardFinished : Bool
  event : Bool
  observerFinished : Bool
  delivered : List Bytes
  failed : Bool
  appended : List (Status × Bool)

structure Stream where
  task : Task
  queue : Option Bytes
  body : Body

namespace Body

def new (api : Api) (event : Bool) : Body where
  poll := .resting
  dropped := false
  receiverAlive := true
  drained := .pending
  terminalRx := true
  drainedTx := true
  permit := true
  marker := .new api.terminal
  guardFinished := false
  event := event
  observerFinished := false
  delivered := []
  failed := false
  appended := []

/-- The observer hands the end of the stream, or an error, to the client. -/
def conclude (b : Body) : Status → Body
  | .success => { b with poll := .finished }
  | .failure => { b with poll := .resting, observerFinished := true, failed := true }

/-- The observer sees the end of the guarded stream, or its error. -/
def complete (b : Body) (status : Status) : Body :=
  if b.event then { b with event := false, poll := .appending status } else b.conclude status

/-- The guard sees an item of the body. -/
def yield (b : Body) : Item → Body
  | .chunk bytes =>
    { b with
      marker := b.marker.feed bytes
      poll := .resting
      delivered := b.delivered ++ [bytes] }
  | .error => complete { b with guardFinished := true } .failure
  | .done =>
    if b.marker.done then b.complete .success
    else complete { b with guardFinished := true } .failure

/-- The body ends, and its receiver with it. -/
def finish (b : Body) : Body := yield { b with receiverAlive := false } .done

def next (b : Body) : Body :=
  if b.observerFinished then { b with poll := .finished }
  else if b.guardFinished then b.complete .success
  else { b with poll := .receiving }

def receive (b : Body) (chunk : Bytes) : Body :=
  if b.permit then b.yield (.chunk chunk) else b.finish

/-- The queue is empty and closed. -/
def receiveNone (b : Body) : Body :=
  let b := if b.drainedTx then { b with drainedTx := false, drained := .sent () } else b
  if b.terminalRx then { b with poll := .waiting } else b.finish

def receiveTerminal (b : Body) : Signal Bool → Body
  | .sent true => finish { b with terminalRx := false, permit := false }
  | .sent false => yield { b with terminalRx := false, permit := false } .error
  | _ => finish { b with terminalRx := false }

/-- The append of the completion event returns. -/
def appendReturns (b : Body) (status : Status) (ok : Bool) : Body :=
  let b := { b with appended := b.appended ++ [(status, ok)] }
  if ok then b.conclude status else b.conclude .failure

def drop (b : Body) : Body :=
  { b with
    dropped := true
    receiverAlive := false
    drained := if b.drainedTx then .dropped else b.drained
    drainedTx := false }

end Body

namespace Stream

/-- A response whose task is about to read, with or without an event log. -/
def start (api : Api) (event : Bool) : Stream where
  task :=
    { producer := .reading
      senderAlive := true
      terminal := .pending
      read := []
      eof := false }
  queue := none
  body := .new api event

/-- What can happen next. A read or a wait can time out whenever it is under way. -/
inductive Event where
  | readChunk (chunk : Bytes)
  | readEof
  | readFails
  | readTimesOut
  | seesClosed
  | reserved
  | reserveTimesOut
  | dropsSender
  | seesDrained
  | seesUndrained
  | drainTimesOut
  | answers
  | leaves
  | poll
  | receives
  | receivesNone
  | receivesTerminal
  | appends (ok : Bool)
  | drops

/-- The task and the queue after an event of the task. -/
def produce (s : Stream) : Event → Option (Task × Option Bytes)
  | .readChunk chunk =>
    if s.task.producer = .reading then
      some ({ s.task with producer := .reserving chunk, read := s.task.read ++ [chunk] }, s.queue)
    else none
  | .readEof =>
    if s.task.producer = .reading then
      some ({ s.task with producer := .closing, eof := true }, s.queue)
    else none
  | .readFails | .readTimesOut =>
    if s.task.producer = .reading then some ({ s.task with producer := .answering false }, s.queue)
    else none
  | .seesClosed =>
    match s.task.producer with
    | .reading | .reserving _ =>
      if s.body.receiverAlive then none else some ({ s.task with producer := .leaving }, s.queue)
    | _ => none
  | .reserved =>
    match s.task.producer, s.queue with
    | .reserving chunk, none =>
      if s.body.receiverAlive then some ({ s.task with producer := .reading }, some chunk) else none
    | _, _ => none
  | .reserveTimesOut =>
    match s.task.producer with
    | .reserving _ => some ({ s.task with producer := .answering false }, s.queue)
    | _ => none
  | .dropsSender =>
    if s.task.producer = .closing then
      some ({ s.task with producer := .draining, senderAlive := false }, s.queue)
    else none
  | .seesDrained =>
    if s.task.producer = .draining ∧ s.body.drained = .sent () then
      some ({ s.task with producer := .answering true }, s.queue)
    else none
  | .seesUndrained =>
    if s.task.producer = .draining ∧ s.body.drained = .dropped then
      some ({ s.task with producer := .leaving }, s.queue)
    else none
  | .drainTimesOut =>
    if s.task.producer = .draining then some ({ s.task with producer := .answering false }, s.queue)
    else none
  | .answers =>
    match s.task.producer with
    | .answering ok => some ({ s.task with producer := .leaving, terminal := .sent ok }, s.queue)
    | _ => none
  | .leaves =>
    -- What the task still holds is dropped with it.
    if s.task.producer = .leaving then
      some ({ s.task with
        producer := .ended
        senderAlive := false
        terminal := if s.task.terminal = .pending then .dropped else s.task.terminal }, s.queue)
    else none
  | _ => none

/-- The queue and the body after an event of the body. -/
def consume (s : Stream) : Event → Option (Option Bytes × Body)
  | .poll => if s.body.poll = .resting then some (s.queue, s.body.next) else none
  | .receives =>
    match s.body.poll, s.queue with
    | .receiving, some chunk => some (none, s.body.receive chunk)
    | _, _ => none
  | .receivesNone =>
    if s.body.poll = .receiving ∧ s.queue = none ∧ s.task.senderAlive = false then
      some (s.queue, s.body.receiveNone)
    else none
  | .receivesTerminal =>
    if s.body.poll = .waiting ∧ s.task.terminal ≠ .pending then
      some (s.queue, s.body.receiveTerminal s.task.terminal)
    else none
  | .appends ok =>
    match s.body.poll with
    | .appending status => some (s.queue, s.body.appendReturns status ok)
    | _ => none
  | .drops => some (s.queue, s.body.drop)
  | _ => none

/-- One party takes a step; a dropped body takes none. -/
def step (s : Stream) (event : Event) : Option Stream :=
  match s.produce event with
  | some (task, queue) => some { s with task := task, queue := queue }
  | none =>
    if s.body.dropped then none
    else (s.consume event).map fun after => { s with queue := after.1, body := after.2 }

/-- Every interleaving of the task and the body, whatever the upstream does. -/
def interleaving : System Stream Event where
  step s event t := s.step event = some t

end Stream

end Proxy.Streaming
