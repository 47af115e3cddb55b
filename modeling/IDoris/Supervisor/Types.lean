import IDoris.Library.Bounded

/-!
# Values of the backend crate

The engine-agnostic policy, the errors with their texts, the sizes in GB and
the status a runtime adapter reports. Sizes are `f64` in the program; every
definition below takes them through `Gigabytes`, which names the operations the
program performs on them and promises no law.
-/
namespace Supervisor

inductive LoadMode where
  | resident
  | onDemand
  | evictToLoad
  deriving DecidableEq

inductive Keepalive where
  | pinned (pinned : Bool)
  | idleTtl (idleTtlS : UInt32)
  deriving DecidableEq

inductive Admission where
  | coexist
  | requiresEviction
  deriving DecidableEq

structure LoadPolicy where
  mode : LoadMode
  keepalive : Keepalive
  admission : Admission
  deriving DecidableEq

inductive BackendError where
  | modelNotFound (modelId : String)
  | modelLoading (modelId : String)
  | modelUnavailable (modelId : String)
  | evictionImpossible (modelId : String)
  | evictionFailed (modelId : String)
  | oom (modelId : String)
  | headroomConfirmationRequired (modelId : String)
  | probeTimedOut (modelId : String)
  | adapterTimedOut (modelId : String)
  | adapterPanicked (modelId message : String)
  | loadUnconfirmed (modelId message : String)
  | loadPostconditionFailed (modelId message : String)
  | upstream (message : String)
  | cancelled
  | invalidRequest (message : String)
  | supervisorUnavailable
  | busy (reason : String) (activeId : Option String) (retryAfterMs : Option UInt64)
  | invariantViolation (message : String)
  | lockPoisoned (message : String)
  | internal (message : String)
  deriving DecidableEq

namespace BackendError

/-- The text of the error. -/
def display : BackendError → String
  | modelNotFound modelId => "model not found: " ++ modelId
  | modelLoading modelId => "model still loading: " ++ modelId
  | modelUnavailable modelId => "model unavailable: " ++ modelId
  | evictionImpossible modelId => "cannot admit " ++ modelId ++ ": no viable eviction plan"
  | evictionFailed modelId =>
    "eviction failed while admitting " ++ modelId ++ ": a chosen victim's unload failed"
  | oom modelId => "out of memory while loading " ++ modelId
  | headroomConfirmationRequired modelId =>
    "loading " ++ modelId ++ " needs the reserved memory headroom; explicit confirmation required"
  | probeTimedOut modelId => "timed out waiting for " ++ modelId ++ " to become ready"
  | adapterTimedOut modelId => "adapter call for " ++ modelId ++ " timed out"
  | adapterPanicked modelId message =>
    "adapter call for " ++ modelId ++ " panicked: " ++ message
  | loadUnconfirmed modelId message => "load of " ++ modelId ++ " not confirmed: " ++ message
  | loadPostconditionFailed modelId message =>
    "load postcondition failed for " ++ modelId ++ ": " ++ message
  | upstream message => "upstream error: " ++ message
  | cancelled => "request cancelled"
  | invalidRequest message => "invalid request: " ++ message
  | supervisorUnavailable => "supervisor is not running"
  | busy reason _ _ => "supervisor busy: " ++ reason
  | invariantViolation message => "internal invariant violated: " ++ message
  | lockPoisoned message => "internal lock poisoned: " ++ message
  | internal message => "internal backend error: " ++ message

def isOom : BackendError → Bool
  | oom _ => true
  | _ => false

/-- A load that ends with one of these may still allocate in the engine. -/
def leavesLoadUnconfirmed : BackendError → Bool
  | adapterTimedOut _ => true
  | loadUnconfirmed _ _ => true
  | _ => false

def isPostconditionFailure : BackendError → Bool
  | loadPostconditionFailed _ _ => true
  | _ => false

theorem confirmed_of_isOom {err : BackendError} (h : err.isOom = true) :
    err.leavesLoadUnconfirmed = false := by
  cases err <;> first | rfl | cases h

theorem confirmed_of_isPostconditionFailure {err : BackendError}
    (h : err.isPostconditionFailure = true) : err.leavesLoadUnconfirmed = false := by
  cases err <;> first | rfl | cases h

end BackendError

/-- The operations of the program on sizes in GB. `decode` gives significand and binary
exponent of a finite value that is not negative. -/
class Gigabytes (G : Type) where
  zero : G
  add : G → G → G
  sub : G → G → G
  max : G → G → G
  min : G → G → G
  abs : G → G
  le : G → G → Bool
  lt : G → G → Bool
  beq : G → G → Bool
  isFinite : G → Bool
  decode : G → Nat × Int
  ofUnits : Nat → G
  epsilon : G
  render : G → String

namespace Gigabytes

variable {G : Type} [Gigabytes G]

/-- Multiples of 2⁻⁷² GB, the last binary digit of the program's epsilon, for runs that
are evaluated. -/
instance : Gigabytes Int where
  zero := 0
  add := Int.add
  sub := Int.sub
  max := Max.max
  min := Min.min
  abs value := value.natAbs
  le a b := decide (a ≤ b)
  lt a b := decide (a < b)
  beq a b := decide (a = b)
  isFinite _ := true
  decode value := (value.toNat, -72)
  ofUnits units := units * 2 ^ 72 / 10 ^ 9
  epsilon := 4722366482869645
  render := toString

/-- `n` GB as such a multiple. -/
def ofGb (n : Int) : Int := n * 2 ^ 72

def sum (sizes : List G) : G := sizes.foldl add zero

/-- `!value.is_finite() || value < 0.0`. -/
def malformed (value : G) : Bool := !isFinite value || lt value (zero : G)

end Gigabytes

/-- What the accounting relies on in the order of `f64`: a size that is not below zero is
not NaN, and such sizes add up and compare as numbers do. -/
class LawfulGigabytes (G : Type) [Gigabytes G] : Prop where
  zero_nonneg : Gigabytes.le (Gigabytes.zero : G) Gigabytes.zero = true
  beq_refl (a : G) : Gigabytes.isFinite a = true → Gigabytes.beq a a = true
  nonneg (a : G) : Gigabytes.malformed a = false → Gigabytes.le Gigabytes.zero a = true
  add_nonneg (a b : G) : Gigabytes.le Gigabytes.zero a = true →
    Gigabytes.le Gigabytes.zero b = true → Gigabytes.le Gigabytes.zero (Gigabytes.add a b) = true
  le_refl (a : G) : Gigabytes.le Gigabytes.zero a = true → Gigabytes.le a a = true
  le_trans (a b c : G) : Gigabytes.le a b = true → Gigabytes.le b c = true →
    Gigabytes.le a c = true
  le_of_lt (a b : G) : Gigabytes.lt a b = true → Gigabytes.le a b = true
  le_of_beq (a b : G) : Gigabytes.beq a b = true → Gigabytes.le a b = true
  le_max_left (a b : G) : Gigabytes.le Gigabytes.zero a = true →
    Gigabytes.le a (Gigabytes.max a b) = true
  le_max_right (a b : G) : Gigabytes.le Gigabytes.zero b = true →
    Gigabytes.le b (Gigabytes.max a b) = true

instance : LawfulGigabytes Int where
  zero_nonneg := rfl
  beq_refl a _ := decide_eq_true rfl
  nonneg a h := by
    simp only [Gigabytes.malformed, Gigabytes.isFinite, Gigabytes.lt, Gigabytes.zero,
      Bool.not_true, Bool.false_or, decide_eq_false_iff_not, Int.not_lt] at h
    exact decide_eq_true h
  add_nonneg a b ha hb := by
    simp only [Gigabytes.le, Gigabytes.zero, decide_eq_true_eq] at ha hb ⊢
    exact Int.add_nonneg ha hb
  le_refl a _ := decide_eq_true (Int.le_refl a)
  le_trans a b c hab hbc := by
    simp only [Gigabytes.le, decide_eq_true_eq] at hab hbc ⊢
    exact Int.le_trans hab hbc
  le_of_lt a b h := by
    simp only [Gigabytes.lt, Gigabytes.le, decide_eq_true_eq] at h ⊢
    exact Int.le_of_lt h
  le_of_beq a b h := by
    simp only [Gigabytes.beq, Gigabytes.le, decide_eq_true_eq] at h ⊢
    exact Int.le_of_eq h
  le_max_left a b _ := decide_eq_true (Int.le_max_left a b)
  le_max_right a b _ := decide_eq_true (Int.le_max_right a b)

inductive Pressure where
  | ok
  | soft
  | hard
  | ceiling
  | unknown
  deriving DecidableEq

structure BackendStatus (G : Type) where
  pressure : Pressure
  usedGb : G
  modelMemoryMaxGb : G
  loaded : List String

end Supervisor
