import IDoris.Library.Keyed
import IDoris.Library.Text
import IDoris.Supervisor.Types

/-!
# The global capacity ledger

Memory reservations that otherwise independent runtimes share, in exact units of
10⁻⁹ GB: budgets round down and allocations round up.
-/
namespace Supervisor

open Bounded

variable {G : Type} [Gigabytes G]

def capacityUnitsPerGb : Nat := 1000000000
def capacityEpsilonUnits : Nat := 1000

def capacityEpsilon : U128 := ⟨capacityEpsilonUnits, by decide⟩

inductive Rounding where
  | down
  | up
  deriving DecidableEq

def capacityRangeError (field : String) (value : G) : BackendError :=
  .invalidRequest ("global capacity " ++ field ++
    " is too large for exact fixed-point accounting: " ++ Gigabytes.render value)

/-- Scale the exact binary value by 10⁹ with integer arithmetic. -/
def toCapacityUnits (field : String) (value : G) (rounding : Rounding) :
    Except BackendError U128 :=
  let range : Option U128 → Except BackendError U128 := fun units =>
    units.elim (.error (capacityRangeError field value)) .ok
  if Gigabytes.malformed value then
    .error (.invalidRequest
      ("invalid global capacity " ++ field ++ ": " ++ Gigabytes.render value))
  else if Gigabytes.beq value (Gigabytes.zero : G) then .ok U128.zero
  else
    let (significand, exponent) := Gigabytes.decode value
    match U128.checked (significand * capacityUnitsPerGb) with
    | none => range none
    | some scaled =>
      if 0 ≤ exponent then
        if 128 ≤ exponent then range none
        else range (U128.checked (scaled.val * 2 ^ exponent.toNat))
      else if 128 ≤ -exponent then
        match rounding with
        | .down => .ok U128.zero
        | .up => range (U128.checked 1)
      else
        let divisor := 2 ^ (-exponent).toNat
        match rounding with
        | .down => range (U128.checked (scaled.val / divisor))
        | .up =>
          if scaled.val % divisor ≠ 0 then range (U128.checked (scaled.val / divisor + 1))
          else range (U128.checked (scaled.val / divisor))

section Conversion

variable {field field' : String} {value : G} {rounding : Rounding} {units : U128}
  {e : BackendError}

/-- The arithmetic of the conversion ends in zero or in one range check. -/
theorem scaled_eq (scale : Nat) (decoded : Nat × Int) (rounding : Rounding) :
    ∃ pick : Option (Option U128), ∀ range : Option U128 → Except BackendError U128,
      (match decoded with
      | (significand, exponent) =>
        match U128.checked (significand * scale) with
        | none => range none
        | some scaled =>
          if 0 ≤ exponent then
            if 128 ≤ exponent then range none
            else range (U128.checked (scaled.val * 2 ^ exponent.toNat))
          else if 128 ≤ -exponent then
            match rounding with
            | .down => .ok U128.zero
            | .up => range (U128.checked 1)
          else
            let divisor := 2 ^ (-exponent).toNat
            match rounding with
            | .down => range (U128.checked (scaled.val / divisor))
            | .up =>
              if scaled.val % divisor ≠ 0 then range (U128.checked (scaled.val / divisor + 1))
              else range (U128.checked (scaled.val / divisor))) =
        pick.elim (.ok U128.zero) range := by
  obtain ⟨significand, exponent⟩ := decoded
  cases hscaled : U128.checked (significand * scale) with
  | none => exact ⟨some none, fun range => by simp only [hscaled, Option.elim_some]⟩
  | some scaled =>
    by_cases hsign : 0 ≤ exponent
    · by_cases hlarge : 128 ≤ exponent
      · exact ⟨some none, fun range => by simp only [hscaled, hsign, hlarge, if_true,
          Option.elim_some]⟩
      · exact ⟨some (U128.checked (scaled.val * 2 ^ exponent.toNat)), fun range => by
          simp only [hscaled, hsign, hlarge, if_true, if_false, Option.elim_some]⟩
    · by_cases hlarge : 128 ≤ -exponent
      · cases rounding with
        | down => exact ⟨none, fun range => by simp only [hscaled, hsign, hlarge, if_true, if_false,
            Option.elim_none]⟩
        | up => exact ⟨some (U128.checked 1), fun range => by simp only [hscaled, hsign, hlarge,
            if_true, if_false, Option.elim_some]⟩
      · cases rounding with
        | down => exact ⟨some (U128.checked (scaled.val / 2 ^ (-exponent).toNat)), fun range => by
            simp only [hscaled, hsign, hlarge, if_false, Option.elim_some]⟩
        | up =>
          by_cases hexact : scaled.val % 2 ^ (-exponent).toNat ≠ 0
          · exact ⟨some (U128.checked (scaled.val / 2 ^ (-exponent).toNat + 1)), fun range => by
              simp only [hscaled, hsign, hlarge, if_false, if_pos hexact, Option.elim_some]⟩
          · exact ⟨some (U128.checked (scaled.val / 2 ^ (-exponent).toNat)), fun range => by
              simp only [hscaled, hsign, hlarge, if_false, if_neg hexact, Option.elim_some]⟩

theorem checked_of_lt {n : Nat} (h : n < 2 ^ 128) : U128.checked n = some ⟨n, h⟩ := dif_pos h

theorem checked_of_le {n : Nat} (h : 2 ^ 128 ≤ n) : U128.checked n = none :=
  dif_neg (Nat.not_lt.mpr h)

/-- What the shift of a scaled significand comes to, by exact arithmetic. -/
def Rounding.shifted (rounding : Rounding) (scaled : Nat) : Int → Nat
  | .ofNat n => scaled * 2 ^ n
  | .negSucc n =>
    match rounding with
    | .down => scaled / 2 ^ (n + 1)
    | .up =>
      if scaled % 2 ^ (n + 1) ≠ 0 then scaled / 2 ^ (n + 1) + 1 else scaled / 2 ^ (n + 1)

/-- Where the scaled significand fits, the conversion is one range check, however many shifts
there are. -/
theorem scaled_shifted (scale : Nat) (decoded : Nat × Int) (rounding : Rounding)
    (range : Option U128 → Except BackendError U128) :
    decoded.1 * scale < 2 ^ 128 → 0 < decoded.1 * scale →
    (∀ units, range (some units) = .ok units) →
    (match decoded with
    | (significand, exponent) =>
      match U128.checked (significand * scale) with
      | none => range none
      | some scaled =>
        if 0 ≤ exponent then
          if 128 ≤ exponent then range none
          else range (U128.checked (scaled.val * 2 ^ exponent.toNat))
        else if 128 ≤ -exponent then
          match rounding with
          | .down => .ok U128.zero
          | .up => range (U128.checked 1)
        else
          let divisor := 2 ^ (-exponent).toNat
          match rounding with
          | .down => range (U128.checked (scaled.val / divisor))
          | .up =>
            if scaled.val % divisor ≠ 0 then range (U128.checked (scaled.val / divisor + 1))
            else range (U128.checked (scaled.val / divisor))) =
      range (U128.checked (rounding.shifted (decoded.1 * scale) decoded.2)) := by
  obtain ⟨significand, exponent⟩ := decoded
  intro hsmall hpos hok
  dsimp only at hsmall hpos ⊢
  rw [checked_of_lt hsmall]
  dsimp only
  have hlarge : ∀ n, 128 ≤ n → 2 ^ 128 ≤ 2 ^ n := fun n hn => Nat.pow_le_pow_right (by omega) hn
  cases exponent with
  | ofNat n =>
    have hsign : 0 ≤ Int.ofNat n := Int.natCast_nonneg n
    rw [if_pos hsign, Rounding.shifted]
    split
    · next hn =>
      have hpow := hlarge n (Int.ofNat_le.mp hn)
      rw [checked_of_le (Nat.le_trans hpow (Nat.le_mul_of_pos_left _ hpos))]
    · rfl
  | negSucc n =>
    rw [if_neg (by omega), show -Int.negSucc n = (n + 1 : Nat) from rfl, Int.toNat_natCast]
    simp only [Rounding.shifted]
    split
    · next hn =>
      have hpow := hlarge (n + 1) (Int.ofNat_le.mp hn)
      have hdiv : significand * scale / 2 ^ (n + 1) = 0 := Nat.div_eq_of_lt (by omega)
      have hmod : significand * scale % 2 ^ (n + 1) ≠ 0 := by
        rw [Nat.mod_eq_of_lt (by omega)]
        omega
      cases rounding with
      | down =>
        have hnone : U128.checked 0 = some U128.zero := rfl
        dsimp only
        rw [hdiv, hnone, hok]
      | up =>
        dsimp only
        rw [if_pos hmod, hdiv]
    · cases rounding with
      | down => rfl
      | up =>
        by_cases hexact : significand * scale % 2 ^ (n + 1) ≠ 0
        · dsimp only
          rw [if_pos hexact, if_pos hexact]
        · dsimp only
          rw [if_neg hexact, if_neg hexact]

theorem toCapacityUnits_shifted (hformed : Gigabytes.malformed value = false)
    (hnonzero : Gigabytes.beq value Gigabytes.zero = false)
    (hsmall : (Gigabytes.decode value).1 * capacityUnitsPerGb < 2 ^ 128)
    (hpos : 0 < (Gigabytes.decode value).1 * capacityUnitsPerGb) :
    toCapacityUnits field value rounding =
      (U128.checked (rounding.shifted ((Gigabytes.decode value).1 * capacityUnitsPerGb)
        (Gigabytes.decode value).2)).elim (.error (capacityRangeError field value)) .ok := by
  unfold toCapacityUnits
  extract_lets range
  rw [if_neg (by rw [hformed]; exact Bool.false_ne_true),
    if_neg (by rw [hnonzero]; exact Bool.false_ne_true),
    scaled_shifted capacityUnitsPerGb (Gigabytes.decode value) rounding range hsmall hpos fun _ => rfl]

theorem toCapacityUnits_zero (hformed : Gigabytes.malformed value = false)
    (hzero : Gigabytes.beq value Gigabytes.zero = true) :
    toCapacityUnits field value rounding = .ok U128.zero := by
  unfold toCapacityUnits
  extract_lets range
  rw [if_neg (by rw [hformed]; exact Bool.false_ne_true), if_pos hzero]

theorem toCapacityUnits_eq (value : G) (rounding : Rounding) :
    ∃ pick : Option (Option U128), ∀ field, toCapacityUnits field value rounding =
      if Gigabytes.malformed value then
        .error (.invalidRequest
          ("invalid global capacity " ++ field ++ ": " ++ Gigabytes.render value))
      else pick.elim (.ok U128.zero) fun units =>
        units.elim (.error (capacityRangeError field value)) .ok := by
  obtain ⟨pick, hpick⟩ := scaled_eq capacityUnitsPerGb (Gigabytes.decode value) rounding
  by_cases hzero : Gigabytes.beq value (Gigabytes.zero : G) = true
  · refine ⟨none, fun field => ?_⟩
    unfold toCapacityUnits
    extract_lets range
    rw [if_pos hzero, Option.elim_none]
  · refine ⟨pick, fun field => ?_⟩
    unfold toCapacityUnits
    extract_lets range
    rw [if_neg hzero, hpick range]

/-- A size that cannot be converted is the caller's mistake. -/
theorem toCapacityUnits_error (h : toCapacityUnits field value rounding = .error e) :
    ∃ msg, e = .invalidRequest msg := by
  obtain ⟨pick, hpick⟩ := toCapacityUnits_eq value rounding
  rw [hpick] at h
  split at h
  · exact ⟨_, (Except.error.inj h).symm⟩
  · cases pick with
    | none => cases h
    | some units =>
      cases units with
      | none => exact ⟨_, (Except.error.inj h).symm⟩
      | some units => cases h

/-- The name of the field shows in the error only. -/
theorem toCapacityUnits_ok (h : toCapacityUnits field value rounding = .ok units)
    (field' : String) :
    Gigabytes.malformed value = false ∧ toCapacityUnits field' value rounding = .ok units := by
  obtain ⟨pick, hpick⟩ := toCapacityUnits_eq value rounding
  rw [hpick] at h ⊢
  split at h
  · cases h
  · rename_i hformed
    rw [if_neg hformed]
    refine ⟨by simpa using hformed, ?_⟩
    cases pick with
    | none => exact h
    | some units =>
      cases units with
      | none => cases h
      | some units => exact h

end Conversion

/-- A conservative byte charge, converted before distinct model estimates sum. -/
structure CapacityCharge where
  units : U128
  deriving DecidableEq

namespace CapacityCharge

def default : CapacityCharge := ⟨U128.zero⟩

def fromGb (value : G) : Except BackendError CapacityCharge :=
  (toCapacityUnits "model charge" value .up).map mk

def checkedAdd (a b : CapacityCharge) : Except BackendError CapacityCharge :=
  match U128.checkedAdd a.units b.units with
  | some units => .ok ⟨units⟩
  | none => .error (.invariantViolation "runtime capacity charge overflowed")

def saturatingSub (a b : CapacityCharge) : CapacityCharge := ⟨U128.saturatingSub a.units b.units⟩

def max (a b : CapacityCharge) : CapacityCharge := ⟨U128.max a.units b.units⟩

def min (a b : CapacityCharge) : CapacityCharge := if b.units.val < a.units.val then b else a

def gb (a : CapacityCharge) : G := Gigabytes.ofUnits a.units.val

end CapacityCharge

structure CapacityAllocation (G : Type) where
  requestedGb : G
  chargedUnits : U128

inductive ExpectedAllocation (G : Type) where
  | estimate (value : Option G)
  | charge (value : Option CapacityCharge)

structure GlobalCapacityLedger (G : Type) where
  budgetGb : G
  budgetUnits : U128
  admissionEpsilonUnits : U128
  headroomUnits : U128
  allocations : Keyed.Map String (CapacityAllocation G)

def exactTotalUnits (allocations : Keyed.Map String (CapacityAllocation G)) : Option U128 :=
  allocations.values.foldlM (fun total allocation => U128.checkedAdd total allocation.chargedUnits)
    U128.zero

def sameEstimate : Option G → Option G → Bool
  | some a, some b => Gigabytes.beq a b
  | none, none => true
  | _, _ => false

def ExpectedAllocation.matches (expected : ExpectedAllocation G)
    (current : Option (CapacityAllocation G)) : Bool :=
  match expected with
  | .estimate value => sameEstimate (current.map (·.requestedGb)) value
  | .charge value => current.map (fun a => CapacityCharge.mk a.chargedUnits) = value

namespace GlobalCapacityLedger

def new (budgetGb : G) : Except BackendError (GlobalCapacityLedger G) := do
  let budgetUnits ← toCapacityUnits "budget_gb" budgetGb .down
  return ⟨budgetGb, budgetUnits, ⟨capacityEpsilonUnits, by decide⟩, U128.zero, Keyed.Map.empty⟩

def newBytesWithHeadroom (budgetBytes headroomBytes : UInt64) : GlobalCapacityLedger G :=
  ⟨Gigabytes.ofUnits budgetBytes.toNat, U128.ofUInt64 budgetBytes, U128.zero,
    U128.ofUInt64 headroomBytes, Keyed.Map.empty⟩

def newBytes (budgetBytes : UInt64) : GlobalCapacityLedger G := newBytesWithHeadroom budgetBytes 0

/-- Admission against the full ceiling and, unless the breach is confirmed, against the
ceiling minus headroom. -/
def checkAdmission (ledger : GlobalCapacityLedger G) (key : String) (totalUnits : U128)
    (allowHeadroomBreach : Bool) : Except BackendError Unit :=
  let full := U128.saturatingAdd ledger.budgetUnits ledger.admissionEpsilonUnits
  let reduced := U128.saturatingAdd
    (U128.saturatingSub ledger.budgetUnits ledger.headroomUnits) ledger.admissionEpsilonUnits
  if full.val < totalUnits.val then .error (.oom key)
  else if !allowHeadroomBreach ∧ reduced.val < totalUnits.val then
    .error (.headroomConfirmationRequired key)
  else .ok ()

/-- The plan is judged against the bare budget. -/
def checkPlan (ledger : GlobalCapacityLedger G) (key : String) (otherUnits : U128)
    (allowHeadroomBreach : Bool) (planned : CapacityCharge) : Except BackendError Unit :=
  match U128.checkedAdd otherUnits planned.units with
  | none => .error (.oom key)
  | some total =>
    if ledger.budgetUnits.val < total.val then .error (.oom key)
    else if !allowHeadroomBreach ∧
        (U128.saturatingSub ledger.budgetUnits ledger.headroomUnits).val < total.val then
      .error (.headroomConfirmationRequired key)
    else .ok ()

def replaceAllocation (ledger : GlobalCapacityLedger G) (key : String)
    (expected : ExpectedAllocation G) (next : Option (CapacityAllocation G))
    (enforceGrowthAdmission : Bool) (plannedCharge : Option CapacityCharge)
    (allowHeadroomBreach : Bool) : Except BackendError (GlobalCapacityLedger G) := do
  if Text.isBlank key then
    throw (.invalidRequest "global capacity allocation key must not be empty")
  let current := ledger.allocations.get key
  if !expected.matches current then
    throw (.invariantViolation
      ("global capacity allocation " ++ key.quote ++ " changed before compare-and-set"))
  let overflowed := BackendError.invariantViolation "global capacity exact total overflowed"
  let currentUnits := (current.map (·.chargedUnits)).getD U128.zero
  let nextUnits := (next.map (·.chargedUnits)).getD U128.zero
  let total ← (exactTotalUnits ledger.allocations).elim (throw overflowed) pure
  if total.val < currentUnits.val then throw overflowed
  let otherUnits := U128.saturatingSub total currentUnits
  let requestedTotalUnits ← (U128.checkedAdd otherUnits nextUnits).elim (throw overflowed) pure
  match plannedCharge with
  | some planned => ledger.checkPlan key otherUnits allowHeadroomBreach planned
  | none => pure ()
  if enforceGrowthAdmission ∧ currentUnits.val < nextUnits.val then
    if Gigabytes.beq ledger.budgetGb (Gigabytes.zero : G) then throw (.oom key)
    ledger.checkAdmission key requestedTotalUnits allowHeadroomBreach
  match next with
  | some allocation =>
    return { ledger with allocations := ledger.allocations.insert key allocation }
  | none => return { ledger with allocations := ledger.allocations.remove key }

/-- A repeated reservation of the same amount changes nothing; another amount is refused. -/
def reserveWithHeadroom (ledger : GlobalCapacityLedger G) (key : String) (memoryGb : G)
    (allowHeadroomBreach : Bool) : Except BackendError (GlobalCapacityLedger G) := do
  let chargedUnits ← toCapacityUnits "memory_gb" memoryGb .up
  if Text.isBlank key then
    throw (.invalidRequest "global capacity allocation key must not be empty")
  match ledger.allocations.get key with
  | some existing =>
    if Gigabytes.beq existing.requestedGb memoryGb then return ledger
    else throw (.invariantViolation ("global capacity allocation " ++ key.quote ++
      " changed from " ++ Gigabytes.render existing.requestedGb ++ "GB to " ++
      Gigabytes.render memoryGb ++ "GB"))
  | none =>
    let reserved := exactTotalUnits ledger.allocations
    let requestedTotalUnits ← (reserved.bind fun reserved =>
      U128.checkedAdd reserved chargedUnits).elim (throw (.oom key)) pure
    if Gigabytes.beq ledger.budgetGb (Gigabytes.zero : G) ∧ 0 < chargedUnits.val then
      throw (.oom key)
    ledger.checkAdmission key requestedTotalUnits allowHeadroomBreach
    return { ledger with allocations := ledger.allocations.insert key ⟨memoryGb, chargedUnits⟩ }

def reserve (ledger : GlobalCapacityLedger G) (key : String) (memoryGb : G) :
    Except BackendError (GlobalCapacityLedger G) :=
  ledger.reserveWithHeadroom key memoryGb true

def release (ledger : GlobalCapacityLedger G) (key : String) : GlobalCapacityLedger G × Bool :=
  ({ ledger with allocations := ledger.allocations.remove key },
    (ledger.allocations.get key).isSome)

/-- Single-owner compare-and-set in exact units; observation may exceed the ceiling. -/
def updateCharge (ledger : GlobalCapacityLedger G) (key : String)
    (expected : Option CapacityCharge) (next : CapacityCharge) (admitGrowth : Bool) :
    Except BackendError (GlobalCapacityLedger G) :=
  ledger.replaceAllocation key (.charge expected) (some ⟨next.gb, next.units⟩) admitGrowth none true

/-- Check the plan after eviction while the old claim is retained until release is
confirmed. -/
def claimCharge (ledger : GlobalCapacityLedger G) (key : String)
    (current planned : CapacityCharge) (allowHeadroomBreach : Bool) :
    Except BackendError (GlobalCapacityLedger G) :=
  let held := current.max planned
  ledger.replaceAllocation key (.charge (some current)) (some ⟨held.gb, held.units⟩) true
    (some planned) allowHeadroomBreach

def compareAndSet (ledger : GlobalCapacityLedger G) (key : String) (expectedGb nextGb : Option G)
    (enforceGrowthAdmission : Bool) : Except BackendError (GlobalCapacityLedger G) := do
  match expectedGb with
  | some value => discard (toCapacityUnits "expected_gb" value .up)
  | none => pure ()
  let next ← match nextGb with
    | some value => do
      let units ← toCapacityUnits "next_gb" value .up
      pure (some (CapacityAllocation.mk value units))
    | none => pure none
  ledger.replaceAllocation key (.estimate expectedGb) next enforceGrowthAdmission none true

def resize (ledger : GlobalCapacityLedger G) (key : String) (expectedGb nextGb : Option G) :
    Except BackendError (GlobalCapacityLedger G) :=
  ledger.compareAndSet key expectedGb nextGb true

/-- Record trusted residency without admission. -/
def adoptObserved (ledger : GlobalCapacityLedger G) (key : String) (expectedGb : Option G)
    (observedGb : G) : Except BackendError (GlobalCapacityLedger G) :=
  ledger.compareAndSet key expectedGb (some observedGb) false

/-- Charge one full budget for residency that cannot be measured. -/
def blockGrowthForUnknownResidency (ledger : GlobalCapacityLedger G) (key : String)
    (expectedGb : Option G) : Except BackendError (GlobalCapacityLedger G × G) :=
  (ledger.compareAndSet key expectedGb (some ledger.budgetGb) false).map (·, ledger.budgetGb)

end GlobalCapacityLedger

end Supervisor
