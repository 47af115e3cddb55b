import IDoris.Library.System

/-!
# The write deadline of a connection

An IO stream whose pending writes, flushes and shutdowns have a deadline. One sleep serves them
all, and a flag says whether a flush armed it.
-/
namespace Server

open Transition

/-- What is not ready yet is asked again later. -/
inductive Poll (α : Type) where
  | pending
  | ready (answer : α)

/-- Why a poll fails: the wrapper's `TimedOut`, or the inner stream's own error. -/
inductive Failure (Error : Type) where
  | timedOut
  | inner (error : Error)

/-- A sleep is known by its end; `elapsed` says of one with that end, polled at a time, whether
it is over. -/
structure WriteTimeoutIo where
  timeout : Nat
  deadline : Option Nat
  flushOnlyDeadline : Bool
  timedOut : Bool

variable {Error α : Type}

/-- The answer of a poll, the stream after it, and whether the inner stream was asked. -/
structure Polled (Error α : Type) where
  answer : Poll (Except (Failure Error) α)
  io : WriteTimeoutIo
  asked : Bool

namespace WriteTimeoutIo

def new (timeout : Nat) : WriteTimeoutIo where
  timeout := timeout
  deadline := none
  flushOnlyDeadline := false
  timedOut := false

variable (elapsed : Nat → Nat → Bool) (io : WriteTimeoutIo) (now : Nat)

def expired : Bool := io.timedOut || io.deadline.any fun deadline => elapsed deadline now

def pollDeadline : Poll (Failure Error) × WriteTimeoutIo :=
  if io.expired elapsed now then (.ready .timedOut, { io with timedOut := true })
  else (.pending, io)

/-- A write or a shutdown replaces the deadline of a flush. -/
def armed (flush : Bool) : WriteTimeoutIo :=
  if io.deadline.isNone || (io.flushOnlyDeadline && !flush) then
    { io with deadline := some (now + io.timeout), flushOnlyDeadline := flush }
  else io

def armDeadline (flush : Bool) : Poll (Failure Error) × WriteTimeoutIo :=
  (io.armed now flush).pollDeadline elapsed now

def clear : WriteTimeoutIo := { io with deadline := none, flushOnlyDeadline := false }

/-- The inner stream is asked, if there is still time; where it is pending the deadline is
armed, and `settle` is what its success changes. -/
def pollInner (flush : Bool) (settle : α → WriteTimeoutIo → WriteTimeoutIo)
    (inner : Poll (Except Error α)) : Polled Error α :=
  match io.pollDeadline elapsed now with
  | (.ready error, io) => ⟨.ready (.error error), io, false⟩
  | (.pending, io) =>
    match inner with
    | .pending =>
      match io.armDeadline elapsed now flush with
      | (.pending, io) => ⟨.pending, io, true⟩
      | (.ready error, io) => ⟨.ready (.error error), io, true⟩
    | .ready (.ok value) => ⟨.ready (.ok value), settle value io, true⟩
    | .ready (.error error) => ⟨.ready (.error (.inner error)), io, true⟩

def pollControl (flush : Bool) (inner : Poll (Except Error Unit)) : Polled Error Unit :=
  io.pollInner elapsed now flush
    (fun _ io => if io.flushOnlyDeadline && flush then io.clear else io) inner

def pollWrite (inner : Poll (Except Error Nat)) : Polled Error Nat :=
  io.pollInner elapsed now false (fun written io => if written > 0 then io.clear else io) inner

def pollWriteVectored (inner : Poll (Except Error Nat)) : Polled Error Nat :=
  io.pollInner elapsed now false (fun written io => if written > 0 then io.clear else io) inner

def pollFlush (inner : Poll (Except Error Unit)) : Polled Error Unit :=
  io.pollControl elapsed now true inner

def pollShutdown (inner : Poll (Except Error Unit)) : Polled Error Unit :=
  io.pollControl elapsed now false inner

end WriteTimeoutIo

section Calls

/-- A write-side poll, and what the inner stream answers if it is asked. -/
inductive Call (Error : Type) where
  | write (inner : Poll (Except Error Nat))
  | writeVectored (inner : Poll (Except Error Nat))
  | flush (inner : Poll (Except Error Unit))
  | shutdown (inner : Poll (Except Error Unit))

inductive Outcome where
  | pending
  | timedOut
  | failed
  | done (written : Nat)
  deriving DecidableEq

def Outcome.of (written : α → Nat) : Poll (Except (Failure Error) α) → Outcome
  | .pending => .pending
  | .ready (.error .timedOut) => .timedOut
  | .ready (.error (.inner _)) => .failed
  | .ready (.ok value) => .done (written value)

def Call.isFlush : Call Error → Bool
  | .flush _ => true
  | _ => false

/-- What a poll left behind. -/
structure Entry (Error : Type) where
  now : Nat
  call : Call Error
  outcome : Outcome
  asked : Bool

def Polled.entry (polled : Polled Error α) (now : Nat) (call : Call Error) (written : α → Nat) :
    Entry Error × WriteTimeoutIo :=
  (⟨now, call, .of written polled.answer, polled.asked⟩, polled.io)

def WriteTimeoutIo.poll (elapsed : Nat → Nat → Bool) (io : WriteTimeoutIo) (now : Nat)
    (call : Call Error) : Entry Error × WriteTimeoutIo :=
  match call with
  | .write inner => (io.pollWrite elapsed now inner).entry now call id
  | .writeVectored inner => (io.pollWriteVectored elapsed now inner).entry now call id
  | .flush inner => (io.pollFlush elapsed now inner).entry now call fun _ => 0
  | .shutdown inner => (io.pollShutdown elapsed now inner).entry now call fun _ => 0

namespace Entry

variable (e : Entry Error)

/-- A write or a shutdown was answered `Pending`. -/
def stalls : Prop := e.call.isFlush = false ∧ e.outcome = .pending

/-- A write accepted bytes. -/
def accepts : Prop := ∃ written, e.outcome = .done written ∧ 0 < written

def flushes : Prop := e.call.isFlush = true ∧ e.outcome = .done 0

end Entry

/-- A stream, and the time of its last poll. -/
structure Connection where
  io : WriteTimeoutIo
  clock : Nat

/-- Any polls, at times that do not decrease. -/
def system (elapsed : Nat → Nat → Bool) (Error : Type) : System Connection (Entry Error) where
  step c e c' := c.clock ≤ e.now ∧ c.io.poll elapsed e.now e.call = (e, c'.io) ∧ c'.clock = e.now

def start (timeout : Nat) : Connection := ⟨.new timeout, 0⟩

end Calls

section Effects

variable {elapsed : Nat → Nat → Bool} {io io' : WriteTimeoutIo} {now : Nat} {call : Call Error}
  {e : Entry Error}

/-- The inner stream would answer `Pending`. -/
def Call.blocked : Call Error → Prop
  | .write inner | .writeVectored inner => inner = .pending
  | .flush inner | .shutdown inner => inner = .pending

/-- All that a poll can do. -/
inductive Effect (elapsed : Nat → Nat → Bool) (io : WriteTimeoutIo) (now : Nat)
    (call : Call Error) : Outcome → Bool → WriteTimeoutIo → Prop where
  | late : io.expired elapsed now = true →
      Effect elapsed io now call .timedOut false { io with timedOut := true }
  | stalled : io.expired elapsed now = false →
      (io.armed now call.isFlush).expired elapsed now = false →
      Effect elapsed io now call .pending true (io.armed now call.isFlush)
  | lateAtOnce : io.expired elapsed now = false → call.blocked →
      (io.armed now call.isFlush).expired elapsed now = true →
      Effect elapsed io now call .timedOut true { io.armed now call.isFlush with timedOut := true }
  | accepted (written : Nat) : io.expired elapsed now = false → 0 < written →
      Effect elapsed io now call (.done written) true io.clear
  | flushed : io.expired elapsed now = false → call.isFlush = true →
      Effect elapsed io now call (.done 0) true (if io.flushOnlyDeadline then io.clear else io)
  | unmoved : io.expired elapsed now = false → call.isFlush = false →
      Effect elapsed io now call (.done 0) true io
  | failed : io.expired elapsed now = false → Effect elapsed io now call .failed true io

/-- The part of a poll that all calls share; `hok` is about what success changes. -/
theorem effect_pollInner {settle : α → WriteTimeoutIo → WriteTimeoutIo} {written : α → Nat}
    {inner : Poll (Except Error α)} (hblocked : inner = .pending → call.blocked)
    (hok : io.expired elapsed now = false → ∀ value, inner = .ready (.ok value) →
      Effect elapsed io now call (.done (written value)) true (settle value io))
    {polled : Polled Error α} (h : io.pollInner elapsed now call.isFlush settle inner = polled) :
    Effect elapsed io now call (.of written polled.answer) polled.asked polled.io := by
  subst h
  unfold WriteTimeoutIo.pollInner WriteTimeoutIo.armDeadline WriteTimeoutIo.pollDeadline
  cases hlate : io.expired elapsed now with
  | true => exact .late hlate
  | false =>
    cases inner with
    | pending =>
      cases harmed : (io.armed now call.isFlush).expired elapsed now with
      | true =>
        simp only [Bool.false_eq_true, if_false, harmed, if_true]
        exact .lateAtOnce hlate (hblocked rfl) harmed
      | false =>
        simp only [Bool.false_eq_true, if_false, harmed]
        exact .stalled hlate harmed
    | ready answer =>
      cases answer with
      | ok value => exact hok hlate value rfl
      | error error => exact .failed hlate

theorem effect_written (hflush : call.isFlush = false)
    (hlate : io.expired elapsed now = false) (written : Nat) :
    Effect elapsed io now call (.done written) true (if written > 0 then io.clear else io) := by
  split
  · next hpos => exact .accepted written hlate hpos
  · next hnone =>
    obtain rfl : written = 0 := by omega
    exact .unmoved hlate hflush

theorem poll_effect (h : io.poll elapsed now call = (e, io')) :
    e.now = now ∧ e.call = call ∧ Effect elapsed io now call e.outcome e.asked io' := by
  unfold WriteTimeoutIo.poll at h
  cases call with
  | write inner =>
    obtain ⟨rfl, rfl⟩ := Prod.mk.inj h
    refine ⟨rfl, rfl, effect_pollInner id (fun hlate written _ => ?_) rfl⟩
    exact effect_written rfl hlate written
  | writeVectored inner =>
    obtain ⟨rfl, rfl⟩ := Prod.mk.inj h
    refine ⟨rfl, rfl, effect_pollInner id (fun hlate written _ => ?_) rfl⟩
    exact effect_written rfl hlate written
  | flush inner =>
    obtain ⟨rfl, rfl⟩ := Prod.mk.inj h
    refine ⟨rfl, rfl, effect_pollInner id (fun hlate _ _ => ?_) rfl⟩
    simp only [Bool.and_true]
    exact .flushed hlate rfl
  | shutdown inner =>
    obtain ⟨rfl, rfl⟩ := Prod.mk.inj h
    refine ⟨rfl, rfl, effect_pollInner id (fun hlate _ _ => ?_) rfl⟩
    simp only [Bool.and_false]
    exact .unmoved hlate rfl

end Effects

end Server
