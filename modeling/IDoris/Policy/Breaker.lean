import IDoris.Library.Keyed

/-!
# The circuit breaker

A pure state machine without a clock: callers pass `nowMs`. Every admitted request
gets a one-shot ticket, and a report hands the ticket back.
-/
namespace Policy

/-- The largest `u64`; times and generations saturate there. -/
def u64Max : Nat := 2 ^ 64 - 1

def saturatingAdd (a b : Nat) : Nat := min (a + b) u64Max

theorem saturatingAdd_of_lt {n : Nat} (h : n < u64Max) : saturatingAdd n 1 = n + 1 :=
  Nat.min_eq_left h

inductive CredentialClass where
  | oAuth
  | apiKey
  | «local»
  deriving DecidableEq, Repr

namespace CredentialClass

def failureThreshold : CredentialClass → Nat
  | oAuth => 3
  | apiKey => 5
  | «local» => 2

def recoveryMs : CredentialClass → Nat
  | oAuth => 60000
  | apiKey => 30000
  | «local» => 15000

end CredentialClass

inductive State where
  | closed (failures : Nat)
  | opened (untilMs : Nat)
  | halfOpen (probing : Bool)
  deriving DecidableEq, Repr

namespace State

def isClosed : State → Bool
  | closed _ => true
  | _ => false

def isOpen : State → Bool
  | opened _ => true
  | _ => false

def isHalfOpen : State → Bool
  | halfOpen _ => true
  | _ => false

end State

inductive Admission where
  | allowed
  | probe
  | rejected (retryAfterMs : Nat)
  deriving DecidableEq, Repr

def Admission.admitted : Admission → Bool
  | rejected _ => false
  | _ => true

structure AdmissionTicket where
  issuer : Nat
  generation : Nat
  probe : Bool
  deriving DecidableEq, Repr

/-- A rejection carries no ticket. -/
structure Admit where
  admission : Admission
  ticket : Option AdmissionTicket
  deriving DecidableEq, Repr

structure Breaker where
  issuer : Nat
  credential : CredentialClass
  state : State
  generation : Nat
  openCohort : Option Nat
  deriving DecidableEq, Repr

/-- What one ticket is moved into. -/
inductive Report where
  | success
  | failure (nowMs : Nat)
  | failureWithRetryAfter (nowMs : Nat) (retryAfterMs : Option Nat)
  | retryAfter (nowMs retryAfterMs : Nat)
  deriving DecidableEq, Repr

/-- The reports that pass a `Retry-After` on. -/
def Report.hasRetryAfter : Report → Bool
  | failureWithRetryAfter _ (some _) => true
  | retryAfter _ _ => true
  | _ => false

namespace Breaker

def new (issuer : Nat) (credential : CredentialClass) : Breaker where
  issuer := issuer
  credential := credential
  state := .closed 0
  generation := 0
  openCohort := none

def clone (b : Breaker) (issuer : Nat) : Breaker := { b with issuer := issuer }

def ticket (b : Breaker) (probe : Bool) : AdmissionTicket := ⟨b.issuer, b.generation, probe⟩

def readiness (b : Breaker) (nowMs : Nat) : Admission :=
  match b.state with
  | .closed _ => .allowed
  | .opened untilMs => if nowMs < untilMs then .rejected (untilMs - nowMs) else .probe
  | .halfOpen false => .probe
  | .halfOpen true => .rejected 0

def claimProbe (b : Breaker) : Breaker := { b with state := .halfOpen true }

def admitAt (b : Breaker) (nowMs : Nat) : Breaker × Admit :=
  match b.state with
  | .closed _ => (b, ⟨.allowed, some (b.ticket false)⟩)
  | .opened untilMs =>
    if nowMs < untilMs then (b, ⟨.rejected (untilMs - nowMs), none⟩)
    else (b.claimProbe, ⟨.probe, some (b.ticket true)⟩)
  | .halfOpen false => (b.claimProbe, ⟨.probe, some (b.ticket true)⟩)
  | .halfOpen true => (b, ⟨.rejected 0, none⟩)

def onSuccess (b : Breaker) (t : AdmissionTicket) : Breaker :=
  if t.issuer ≠ b.issuer then b
  else if t.generation ≠ b.generation then b
  else match b.state with
    | .halfOpen _ =>
      if t.probe then
        { b with state := .closed 0, openCohort := none, generation := saturatingAdd b.generation 1 }
      else b
    | .closed _ => { b with state := .closed 0 }
    | .opened _ => b

/-- The start of a new window; the tickets of this generation become its cohort. -/
def reopen (b : Breaker) (untilMs : Nat) : Breaker :=
  { b with
    state := .opened untilMs
    generation := saturatingAdd b.generation 1
    openCohort := some b.generation }

def onFailure (b : Breaker) (t : AdmissionTicket) (nowMs : Nat) : Breaker :=
  if t.issuer ≠ b.issuer then b
  else if t.generation ≠ b.generation then b
  else if b.state.isHalfOpen && !t.probe then b
  else match b.state with
    | .closed failures =>
      if failures + 1 < b.credential.failureThreshold then
        { b with state := .closed (failures + 1) }
      else b.reopen (saturatingAdd nowMs b.credential.recoveryMs)
    | .opened _ => b
    | .halfOpen _ => b.reopen (saturatingAdd nowMs b.credential.recoveryMs)

/-- The end of the window a `Retry-After` asks for; it never shortens an open one. -/
def retryUntil (b : Breaker) (t : AdmissionTicket) (nowMs retryAfterMs : Nat) : Nat :=
  let untilMs := saturatingAdd nowMs retryAfterMs
  let untilMs :=
    if t.probe then max untilMs (saturatingAdd nowMs b.credential.recoveryMs) else untilMs
  match b.state with
  | .opened existing => max existing untilMs
  | _ => untilMs

def onRetryAfter (b : Breaker) (t : AdmissionTicket) (nowMs retryAfterMs : Nat) : Breaker :=
  if t.issuer ≠ b.issuer then b
  else if b.state.isHalfOpen && !t.probe then b
  else if t.generation = b.generation then b.reopen (b.retryUntil t nowMs retryAfterMs)
  else if b.state.isOpen && b.openCohort = some t.generation then
    { b with state := .opened (b.retryUntil t nowMs retryAfterMs) }
  else b

def onFailureWithRetryAfter (b : Breaker) (t : AdmissionTicket) (nowMs : Nat)
    (retryAfterMs : Option Nat) : Breaker :=
  match retryAfterMs with
  | none => b.onFailure t nowMs
  | some ms => (b.onFailure t nowMs).onRetryAfter t nowMs ms

def report (b : Breaker) (t : AdmissionTicket) : Report → Breaker
  | .success => b.onSuccess t
  | .failure nowMs => b.onFailure t nowMs
  | .failureWithRetryAfter nowMs retryAfterMs => b.onFailureWithRetryAfter t nowMs retryAfterMs
  | .retryAfter nowMs retryAfterMs => b.onRetryAfter t nowMs retryAfterMs

end Breaker

end Policy
