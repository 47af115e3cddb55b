import IDoris.Policy.Breaker

/-!
# A book of breakers

One breaker for each credential class and key. `none` is the panic of an exhausted
issuer counter; it comes before the book is changed.
-/
namespace Policy

def nextIssuer (next : Nat) : Option Nat := if next < u64Max then some (next + 1) else none

structure BreakerBook (K : Type) [DecidableEq K] where
  breakers : Keyed.Map (CredentialClass × K) Breaker

inductive PairReject where
  | duplicate
  | gate (first second : Admission)
  deriving DecidableEq, Repr

namespace BreakerBook

variable {K : Type} [DecidableEq K]

def new : BreakerBook K := ⟨Keyed.Map.empty⟩

def readiness (book : BreakerBook K) (key : CredentialClass × K) (nowMs : Nat) : Admission :=
  ((book.breakers.get key).map (·.readiness nowMs)).getD .allowed

/-- Make sure the key has a breaker; `next` is the next issuer id of the process. -/
def prepare (book : BreakerBook K) (next : Nat) (key : CredentialClass × K) :
    Option (BreakerBook K × Nat) :=
  match book.breakers.get key with
  | some _ => some (book, next)
  | none => (nextIssuer next).map fun after =>
      (⟨book.breakers.insert key (Breaker.new next key.1)⟩, after)

/-- The admission at a breaker that is in the book. -/
def claim (book : BreakerBook K) (key : CredentialClass × K) (nowMs : Nat) :
    BreakerBook K × Admit :=
  match book.breakers.get key with
  | none => (book, ⟨.rejected 0, none⟩)
  | some b => (⟨book.breakers.insert key (b.admitAt nowMs).1⟩, (b.admitAt nowMs).2)

def admitAt (book : BreakerBook K) (next : Nat) (key : CredentialClass × K) (nowMs : Nat) :
    Option ((BreakerBook K × Admit) × Nat) :=
  (book.prepare next key).map fun (book, next) => (book.claim key nowMs, next)

/-- Both gates or neither. -/
def admitPair (book : BreakerBook K) (next : Nat) (first second : CredentialClass × K)
    (nowMs : Nat) : Except PairReject (Option ((BreakerBook K × Admit × Admit) × Nat)) :=
  if first = second then .error .duplicate
  else if !(book.readiness first nowMs).admitted || !(book.readiness second nowMs).admitted then
    .error (.gate (book.readiness first nowMs) (book.readiness second nowMs))
  else .ok <|
    (book.prepare next first).bind fun (book, next) =>
      (book.prepare next second).map fun (book, next) =>
        let (book, firstAdmit) := book.claim first nowMs
        let (book, secondAdmit) := book.claim second nowMs
        ((book, firstAdmit, secondAdmit), next)

def report (book : BreakerBook K) (key : CredentialClass × K) (t : AdmissionTicket) (r : Report) :
    BreakerBook K :=
  match book.breakers.get key with
  | none => book
  | some b => ⟨book.breakers.insert key (b.report t r)⟩

end BreakerBook

end Policy
