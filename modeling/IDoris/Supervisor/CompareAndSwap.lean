import IDoris.Library.Effect
import IDoris.Supervisor.SharedLedger

/-!
# The capacity ledger compares and swaps

The operations once more, as they run on the locked map: a check that fails leaves what was
written before it. Nothing is written before the last check.
-/
namespace Supervisor

open Bounded Transaction
open Effectful (Eff run_bind run_discard run_get_bind run_guard run_ofExcept)

variable {G : Type}

/-- What an operation does on the locked ledger. -/
abbrev Locked (G α : Type) := Eff BackendError (GlobalCapacityLedger G) α

namespace Locked

def insert (key : String) (allocation : CapacityAllocation G) : Locked G Unit :=
  modify fun ledger => { ledger with allocations := ledger.allocations.insert key allocation }

def remove (key : String) : Locked G Unit :=
  modify fun ledger => { ledger with allocations := ledger.allocations.remove key }

variable [Gigabytes G]

def reserveWithHeadroom (key : String) (memoryGb : G) (allowHeadroomBreach : Bool) :
    Locked G Unit := do
  let chargedUnits ← Effectful.ofExcept (toCapacityUnits "memory_gb" memoryGb .up)
  if Text.isBlank key then
    throw (.invalidRequest "global capacity allocation key must not be empty")
  let ledger ← get
  match ledger.allocations.get key with
  | some existing =>
    if Gigabytes.beq existing.requestedGb memoryGb then return ()
    else throw (.invariantViolation ("global capacity allocation " ++ key.quote ++
      " changed from " ++ Gigabytes.render existing.requestedGb ++ "GB to " ++
      Gigabytes.render memoryGb ++ "GB"))
  | none =>
    let requestedTotalUnits ← Effectful.ofExcept <| orRefuse
      ((exactTotalUnits ledger.allocations).bind fun reserved =>
        U128.checkedAdd reserved chargedUnits) (.oom key)
    if Gigabytes.beq ledger.budgetGb (Gigabytes.zero : G) ∧ 0 < chargedUnits.val then
      throw (.oom key)
    Effectful.ofExcept (ledger.checkAdmission key requestedTotalUnits allowHeadroomBreach)
    insert key ⟨memoryGb, chargedUnits⟩

def replaceAllocation (key : String) (expected : ExpectedAllocation G)
    (next : Option (CapacityAllocation G)) (enforceGrowthAdmission : Bool)
    (plannedCharge : Option CapacityCharge) (allowHeadroomBreach : Bool) : Locked G Unit := do
  if Text.isBlank key then
    throw (.invalidRequest "global capacity allocation key must not be empty")
  let ledger ← get
  let current := ledger.allocations.get key
  if !expected.matches current then
    throw (.invariantViolation
      ("global capacity allocation " ++ key.quote ++ " changed before compare-and-set"))
  let overflowed := BackendError.invariantViolation "global capacity exact total overflowed"
  let currentUnits := (current.map (·.chargedUnits)).getD U128.zero
  let nextUnits := (next.map (·.chargedUnits)).getD U128.zero
  let total ← Effectful.ofExcept (orRefuse (exactTotalUnits ledger.allocations) overflowed)
  if total.val < currentUnits.val then throw overflowed
  let otherUnits := U128.saturatingSub total currentUnits
  let requestedTotalUnits ←
    Effectful.ofExcept (orRefuse (U128.checkedAdd otherUnits nextUnits) overflowed)
  match plannedCharge with
  | some planned =>
    Effectful.ofExcept (ledger.checkPlan key otherUnits allowHeadroomBreach planned)
  | none => pure ()
  if enforceGrowthAdmission ∧ currentUnits.val < nextUnits.val then
    if Gigabytes.beq ledger.budgetGb (Gigabytes.zero : G) then throw (.oom key)
    Effectful.ofExcept (ledger.checkAdmission key requestedTotalUnits allowHeadroomBreach)
  match next with
  | some allocation => insert key allocation
  | none => remove key

def reserve (key : String) (memoryGb : G) : Locked G Unit := reserveWithHeadroom key memoryGb true

def release (key : String) : Locked G Bool := do
  let ledger ← get
  remove key
  return (ledger.allocations.get key).isSome

def updateCharge (key : String) (expected : Option CapacityCharge) (next : CapacityCharge)
    (admitGrowth : Bool) : Locked G Unit :=
  replaceAllocation key (.charge expected) (some ⟨next.gb, next.units⟩) admitGrowth none true

def claimCharge (key : String) (current planned : CapacityCharge) (allowHeadroomBreach : Bool) :
    Locked G Unit :=
  let held := current.max planned
  replaceAllocation key (.charge (some current)) (some ⟨held.gb, held.units⟩) true (some planned)
    allowHeadroomBreach

def compareAndSet (key : String) (expectedGb nextGb : Option G) (enforceGrowthAdmission : Bool) :
    Locked G Unit := do
  match expectedGb with
  | some value => discard (Effectful.ofExcept (toCapacityUnits "expected_gb" value .up))
  | none => pure ()
  let next ← match nextGb with
    | some value => do
      let units ← Effectful.ofExcept (toCapacityUnits "next_gb" value .up)
      pure (some (CapacityAllocation.mk value units))
    | none => pure none
  replaceAllocation key (.estimate expectedGb) next enforceGrowthAdmission none true

def resize (key : String) (expectedGb nextGb : Option G) : Locked G Unit :=
  compareAndSet key expectedGb nextGb true

def adoptObserved (key : String) (expectedGb : Option G) (observedGb : G) : Locked G Unit :=
  compareAndSet key expectedGb (some observedGb) false

def blockGrowthForUnknownResidency (key : String) (expectedGb : Option G) : Locked G G := do
  let ledger ← get
  compareAndSet key expectedGb (some ledger.budgetGb) false
  return ledger.budgetGb

end Locked

/-- One operation on the locked ledger. -/
def CapacityCall.perform [Gigabytes G] : CapacityCall G → Locked G Unit
  | reserve key memoryGb => Locked.reserve key memoryGb
  | reserveWithHeadroom key memoryGb allow => Locked.reserveWithHeadroom key memoryGb allow
  | release key => discard (Locked.release key)
  | resize key expectedGb nextGb => Locked.resize key expectedGb nextGb
  | adoptObserved key expectedGb observedGb => Locked.adoptObserved key expectedGb observedGb
  | blockGrowth key expectedGb => discard (Locked.blockGrowthForUnknownResidency key expectedGb)
  | updateCharge key expected next admitGrowth => Locked.updateCharge key expected next admitGrowth
  | claimCharge key current planned allow => Locked.claimCharge key current planned allow

/-- What the pure operation says of the locked one. -/
def outcome (ledger : GlobalCapacityLedger G) :
    Except BackendError (GlobalCapacityLedger G) → Except BackendError Unit × GlobalCapacityLedger G
  | .ok after => (.ok (), after)
  | .error err => (.error err, ledger)

section Runs

variable {ledger : GlobalCapacityLedger G} {α : Type}

theorem run_guard_outcome {p : Prop} [Decidable p] {err : BackendError}
    {rest : PUnit → Locked G Unit} {rest' : PUnit → Except BackendError (GlobalCapacityLedger G)}
    (h : Effectful.run (rest ⟨⟩) ledger = outcome ledger (rest' ⟨⟩)) :
    Effectful.run (if p then throw err >>= rest else rest ⟨⟩) ledger =
      outcome ledger (if p then throw err >>= rest' else rest' ⟨⟩) := by
  rw [run_guard]
  by_cases hp : p
  · simp only [if_pos hp]
    rfl
  · simp only [if_neg hp, h]

theorem run_ite_outcome {p : Prop} [Decidable p] {x y : Locked G Unit}
    {x' y' : Except BackendError (GlobalCapacityLedger G)}
    (hx : Effectful.run x ledger = outcome ledger x') (hy : Effectful.run y ledger = outcome ledger y') :
    Effectful.run (if p then x else y) ledger = outcome ledger (if p then x' else y') := by
  by_cases hp : p
  · simp only [if_pos hp, hx]
  · simp only [if_neg hp, hy]

theorem run_ofExcept_outcome {result : Except BackendError α} {rest : α → Locked G Unit}
    {rest' : α → Except BackendError (GlobalCapacityLedger G)}
    (h : ∀ a, Effectful.run (rest a) ledger = outcome ledger (rest' a)) :
    Effectful.run (Effectful.ofExcept result >>= rest) ledger = outcome ledger (result >>= rest') := by
  rw [run_bind, run_ofExcept]
  cases result with
  | error err => rfl
  | ok a => exact h a

theorem discard_ofExcept (result : Except BackendError α) :
    (discard (Effectful.ofExcept result) : Locked G PUnit) = Effectful.ofExcept (discard result) := by
  cases result <;> rfl

theorem elim_throw {value : Option α} {err : BackendError} :
    value.elim (throw err) pure = orRefuse value err := by
  cases value <;> rfl

variable [Gigabytes G] {key : String} {memoryGb : G}

theorem run_reserveWithHeadroom {allow : Bool} :
    Effectful.run (Locked.reserveWithHeadroom key memoryGb allow) ledger =
      outcome ledger (ledger.reserveWithHeadroom key memoryGb allow) := by
  unfold Locked.reserveWithHeadroom GlobalCapacityLedger.reserveWithHeadroom
  refine run_ofExcept_outcome fun units => run_guard_outcome ?_
  rw [run_get_bind]
  cases ledger.allocations.get key with
  | some existing =>
    dsimp only
    split
    · rfl
    · rfl
  | none =>
    dsimp only
    rw [elim_throw]
    exact run_ofExcept_outcome fun total => run_guard_outcome (run_ofExcept_outcome fun _ => rfl)

theorem run_replaceAllocation {expected : ExpectedAllocation G}
    {next : Option (CapacityAllocation G)} {enforce allow : Bool}
    {planned : Option CapacityCharge} :
    Effectful.run (Locked.replaceAllocation key expected next enforce planned allow) ledger =
      outcome ledger (ledger.replaceAllocation key expected next enforce planned allow) := by
  unfold Locked.replaceAllocation GlobalCapacityLedger.replaceAllocation
  refine run_guard_outcome ?_
  rw [run_get_bind]
  refine run_guard_outcome ?_
  dsimp only
  rw [elim_throw]
  refine run_ofExcept_outcome fun total => run_guard_outcome ?_
  rw [elim_throw]
  refine run_ofExcept_outcome fun requested => ?_
  have hcommit : Effectful.run (match next with
      | some allocation => Locked.insert key allocation
      | none => Locked.remove key) ledger = outcome ledger (match next with
      | some allocation =>
        pure { ledger with allocations := ledger.allocations.insert key allocation }
      | none => pure { ledger with allocations := ledger.allocations.remove key }) := by
    cases next <;> rfl
  cases planned with
  | none =>
    refine run_ite_outcome (run_guard_outcome ?_) hcommit
    exact run_ofExcept_outcome fun _ => hcommit
  | some charge =>
    refine run_ofExcept_outcome fun _ => run_ite_outcome (run_guard_outcome ?_) hcommit
    exact run_ofExcept_outcome fun _ => hcommit

theorem run_compareAndSet {expectedGb nextGb : Option G} {enforce : Bool} :
    Effectful.run (Locked.compareAndSet key expectedGb nextGb enforce) ledger =
      outcome ledger (ledger.compareAndSet key expectedGb nextGb enforce) := by
  unfold Locked.compareAndSet GlobalCapacityLedger.compareAndSet
  cases expectedGb <;> cases nextGb <;>
    simp only [discard_ofExcept, pure_bind]
  · exact run_replaceAllocation
  · exact run_ofExcept_outcome fun units => run_replaceAllocation
  · exact run_ofExcept_outcome fun _ => run_replaceAllocation
  · exact run_ofExcept_outcome fun _ => run_ofExcept_outcome fun units => run_replaceAllocation

/-- The locked operations are the pure ones. -/
theorem run_perform (call : CapacityCall G) :
    Effectful.run call.perform ledger = outcome ledger (call.apply ledger) := by
  cases call with
  | reserve key memoryGb =>
    rw [CapacityCall.perform, CapacityCall.apply, Locked.reserve, GlobalCapacityLedger.reserve,
      run_reserveWithHeadroom]
  | reserveWithHeadroom key memoryGb allow =>
    rw [CapacityCall.perform, CapacityCall.apply, run_reserveWithHeadroom]
  | release key => rfl
  | resize key expectedGb nextGb =>
    rw [CapacityCall.perform, CapacityCall.apply, Locked.resize, GlobalCapacityLedger.resize,
      run_compareAndSet]
  | adoptObserved key expectedGb observedGb =>
    rw [CapacityCall.perform, CapacityCall.apply, Locked.adoptObserved,
      GlobalCapacityLedger.adoptObserved, run_compareAndSet]
  | blockGrowth key expectedGb =>
    rw [CapacityCall.perform, CapacityCall.apply, Locked.blockGrowthForUnknownResidency,
      GlobalCapacityLedger.blockGrowthForUnknownResidency, run_discard, run_get_bind, run_bind,
      run_compareAndSet]
    cases ledger.compareAndSet key expectedGb (some ledger.budgetGb) false <;> rfl
  | updateCharge key expected next admitGrowth =>
    rw [CapacityCall.perform, CapacityCall.apply, Locked.updateCharge,
      GlobalCapacityLedger.updateCharge, run_replaceAllocation]
  | claimCharge key current planned allow =>
    rw [CapacityCall.perform, CapacityCall.apply, Locked.claimCharge,
      GlobalCapacityLedger.claimCharge, run_replaceAllocation]

end Runs

namespace CapacityCall

def key : CapacityCall G → String
  | reserve key _ | reserveWithHeadroom key _ _ | release key | resize key _ _
  | adoptObserved key _ _ | blockGrowth key _ | updateCharge key _ _ _ | claimCharge key _ _ _ =>
    key

variable [Gigabytes G]

/-- The previous allocation that the operation expects; a reservation expects none, or its own. -/
def Expects (call : CapacityCall G) (current : Option (CapacityAllocation G)) : Prop :=
  match call with
  | reserve _ memoryGb | reserveWithHeadroom _ memoryGb _ =>
    ∀ existing ∈ current, Gigabytes.beq existing.requestedGb memoryGb = true
  | release _ => True
  | resize _ expectedGb _ | adoptObserved _ expectedGb _ | blockGrowth _ expectedGb =>
    sameEstimate (current.map (·.requestedGb)) expectedGb = true
  | updateCharge _ expected _ _ => current.map (fun a => CapacityCharge.mk a.chargedUnits) = expected
  | claimCharge _ charge _ _ => current.map (fun a => CapacityCharge.mk a.chargedUnits) = some charge

/-- The allocation of so many gigabytes, or none. -/
def Converted (field : String) (gb : Option G) (next : Option (CapacityAllocation G)) : Prop :=
  match gb with
  | some value => ∃ units, toCapacityUnits field value .up = .ok units ∧ next = some ⟨value, units⟩
  | none => next = none

/-- The allocation that the operation asks for; an allocation of the same gigabytes is kept. -/
def Stores (call : CapacityCall G) (budgetGb : G) (current next : Option (CapacityAllocation G)) :
    Prop :=
  match call with
  | reserve _ memoryGb | reserveWithHeadroom _ memoryGb _ =>
    current = none ∧ Converted "memory_gb" (some memoryGb) next ∨
      ∃ existing, current = some existing ∧ Gigabytes.beq existing.requestedGb memoryGb = true ∧
        next = some existing
  | release _ => next = none
  | resize _ _ nextGb => Converted "next_gb" nextGb next
  | adoptObserved _ _ observedGb => Converted "next_gb" (some observedGb) next
  | blockGrowth _ _ => Converted "next_gb" (some budgetGb) next
  | updateCharge _ _ charge _ => next = some ⟨charge.gb, charge.units⟩
  | claimCharge _ current planned _ =>
    next = some ⟨(current.max planned).gb, (current.max planned).units⟩

def isReserve : CapacityCall G → Bool
  | reserve .. | reserveWithHeadroom .. => true
  | _ => false

end CapacityCall

section Swaps

variable [Gigabytes G] {ledger after : GlobalCapacityLedger G} {key : String}
  {call : CapacityCall G}

theorem replaceAllocation_matches {expected : ExpectedAllocation G}
    {next : Option (CapacityAllocation G)} {enforce allow : Bool} {planned : Option CapacityCharge}
    (h : ledger.replaceAllocation key expected next enforce planned allow = .ok after) :
    expected.matches (ledger.allocations.get key) = true := by
  unfold GlobalCapacityLedger.replaceAllocation at h
  simp only [guard_eq_ok] at h
  simpa using h.2.1

theorem compareAndSet_swaps {expectedGb nextGb : Option G} {enforce : Bool}
    (h : ledger.compareAndSet key expectedGb nextGb enforce = .ok after) :
    sameEstimate ((ledger.allocations.get key).map (·.requestedGb)) expectedGb = true ∧
      ∃ next, CapacityCall.Converted "next_gb" nextGb next ∧ after = ledger.assign key next := by
  unfold GlobalCapacityLedger.compareAndSet at h
  cases expectedGb <;> cases nextGb <;> simp only [bind_eq_ok, pure_bind] at h
  · exact ⟨replaceAllocation_matches h, none, rfl,
      (GlobalCapacityLedger.replaceAllocation_ok h).assigned⟩
  · obtain ⟨units, hunits, h⟩ := h
    exact ⟨replaceAllocation_matches h, _, ⟨units, hunits, rfl⟩,
      (GlobalCapacityLedger.replaceAllocation_ok h).assigned⟩
  · obtain ⟨_, -, h⟩ := h
    exact ⟨replaceAllocation_matches h, none, rfl,
      (GlobalCapacityLedger.replaceAllocation_ok h).assigned⟩
  · obtain ⟨_, -, units, hunits, h⟩ := h
    exact ⟨replaceAllocation_matches h, _, ⟨units, hunits, rfl⟩,
      (GlobalCapacityLedger.replaceAllocation_ok h).assigned⟩

theorem replaceAllocation_swaps {expected : Option CapacityCharge} {next : CapacityAllocation G}
    {enforce allow : Bool} {planned : Option CapacityCharge}
    (h : ledger.replaceAllocation key (.charge expected) (some next) enforce planned allow =
      .ok after) :
    (ledger.allocations.get key).map (fun a => CapacityCharge.mk a.chargedUnits) = expected ∧
      after = ledger.assign key (some next) := by
  have hmatches := replaceAllocation_matches h
  exact ⟨of_decide_eq_true hmatches, (GlobalCapacityLedger.replaceAllocation_ok h).assigned⟩

/-- A reservation is new, or the one that is there. -/
theorem reserve_swaps {memoryGb : G} {allow : Bool}
    (h : ledger.reserveWithHeadroom key memoryGb allow = .ok after) :
    (∀ existing ∈ ledger.allocations.get key,
        Gigabytes.beq existing.requestedGb memoryGb = true) ∧
      ∃ next, (CapacityCall.reserveWithHeadroom key memoryGb allow).Stores ledger.budgetGb
          (ledger.allocations.get key) next ∧
        (after = ledger.assign key next ∨ after = ledger ∧ next = ledger.allocations.get key) := by
  unfold GlobalCapacityLedger.reserveWithHeadroom at h
  simp only [guard_eq_ok, bind_eq_ok] at h
  obtain ⟨units, hunits, -, h⟩ := h
  cases hfound : ledger.allocations.get key with
  | some existing =>
    simp only [hfound] at h
    split at h
    · rename_i hsame
      refine ⟨by simpa using hsame, some existing, .inr ⟨existing, rfl, hsame, rfl⟩, ?_⟩
      exact .inr ⟨(pure_eq_ok.mp h).symm, rfl⟩
    · exact absurd h throw_eq_ok
  | none =>
    simp only [hfound, guard_eq_ok, bind_eq_ok] at h
    obtain ⟨-, -, -, -, -, hdone⟩ := h
    refine ⟨by simp, some ⟨memoryGb, units⟩, .inl ⟨rfl, units, hunits, rfl⟩, ?_⟩
    exact .inl (pure_eq_ok.mp hdone).symm

/-- What an operation that succeeds has found and what it leaves. -/
theorem apply_swaps (h : call.apply ledger = .ok after) :
    call.Expects (ledger.allocations.get call.key) ∧
      ∃ next, call.Stores ledger.budgetGb (ledger.allocations.get call.key) next ∧
        (after = ledger.assign call.key next ∨
          after = ledger ∧ next = ledger.allocations.get call.key) := by
  cases call with
  | reserve key memoryGb => exact reserve_swaps h
  | reserveWithHeadroom key memoryGb allow => exact reserve_swaps h
  | release key =>
    rw [CapacityCall.apply] at h
    exact ⟨trivial, none, rfl, .inl (Except.ok.inj h).symm⟩
  | resize key expectedGb nextGb =>
    rw [CapacityCall.apply, GlobalCapacityLedger.resize] at h
    obtain ⟨hexpected, next, hnext, hafter⟩ := compareAndSet_swaps h
    exact ⟨hexpected, next, hnext, .inl hafter⟩
  | adoptObserved key expectedGb observedGb =>
    rw [CapacityCall.apply, GlobalCapacityLedger.adoptObserved] at h
    obtain ⟨hexpected, next, hnext, hafter⟩ := compareAndSet_swaps h
    exact ⟨hexpected, next, hnext, .inl hafter⟩
  | blockGrowth key expectedGb =>
    have hset : ledger.compareAndSet key expectedGb (some ledger.budgetGb) false = .ok after := by
      rw [CapacityCall.apply, GlobalCapacityLedger.blockGrowthForUnknownResidency] at h
      cases hset : ledger.compareAndSet key expectedGb (some ledger.budgetGb) false with
      | error err =>
        rw [hset] at h
        cases h
      | ok other =>
        rw [hset] at h
        exact h
    obtain ⟨hexpected, next, hnext, hafter⟩ := compareAndSet_swaps hset
    exact ⟨hexpected, next, hnext, .inl hafter⟩
  | updateCharge key expected next admitGrowth =>
    rw [CapacityCall.apply, GlobalCapacityLedger.updateCharge] at h
    obtain ⟨hexpected, hafter⟩ := replaceAllocation_swaps h
    exact ⟨hexpected, _, rfl, .inl hafter⟩
  | claimCharge key current planned allow =>
    rw [CapacityCall.apply, GlobalCapacityLedger.claimCharge] at h
    obtain ⟨hexpected, hafter⟩ := replaceAllocation_swaps h
    exact ⟨hexpected, _, rfl, .inl hafter⟩

/-- What every operation does at every state of the ledger. -/
structure CompareAndSwap (ledger : GlobalCapacityLedger G) (call : CapacityCall G) : Prop where
  refused : ∀ err after, Effectful.run call.perform ledger = (.error err, after) → after = ledger
  others : ∀ after, Effectful.run call.perform ledger = (.ok (), after) → ∀ key ≠ call.key,
    after.allocations.get key = ledger.allocations.get key
  stores : ∀ after, Effectful.run call.perform ledger = (.ok (), after) →
    call.Stores ledger.budgetGb (ledger.allocations.get call.key)
      (after.allocations.get call.key)
  stale : ¬call.Expects (ledger.allocations.get call.key) →
    ∃ err, Effectful.run call.perform ledger = (.error err, ledger)
  repeated : call.isReserve = true → ∀ after,
    Effectful.run call.perform ledger = (.ok (), after) →
      Effectful.run call.perform after = (.ok (), after)

theorem run_perform_ok (h : Effectful.run call.perform ledger = (.ok (), after)) :
    call.apply ledger = .ok after := by
  rw [run_perform] at h
  cases happly : call.apply ledger with
  | error err =>
    rw [happly] at h
    cases h
  | ok other =>
    rw [happly] at h
    rw [(Prod.mk.inj h).2]

theorem run_perform_error {err : BackendError}
    (h : Effectful.run call.perform ledger = (.error err, after)) : after = ledger := by
  rw [run_perform] at h
  cases happly : call.apply ledger with
  | error err =>
    rw [happly] at h
    exact (Prod.mk.inj h).2.symm
  | ok other =>
    rw [happly] at h
    cases h

theorem reserve_again [LawfulGigabytes G] {memoryGb : G} {allow : Bool}
    (h : ledger.reserveWithHeadroom key memoryGb allow = .ok after) :
    after.reserveWithHeadroom key memoryGb allow = .ok after := by
  obtain ⟨units, hunits, hblank⟩ : ∃ units, toCapacityUnits "memory_gb" memoryGb .up = .ok units ∧
      ¬Text.isBlank key = true := by
    unfold GlobalCapacityLedger.reserveWithHeadroom at h
    simp only [guard_eq_ok, bind_eq_ok] at h
    obtain ⟨units, hunits, hblank, -⟩ := h
    exact ⟨units, hunits, hblank⟩
  have hsame : Gigabytes.beq memoryGb memoryGb = true := by
    have hformed := (toCapacityUnits_ok hunits "memory_gb").1
    rw [Gigabytes.malformed, Bool.or_eq_false_iff] at hformed
    exact LawfulGigabytes.beq_refl memoryGb (by simpa using hformed.1)
  obtain ⟨existing, hfound, hbeq⟩ : ∃ existing, after.allocations.get key = some existing ∧
      Gigabytes.beq existing.requestedGb memoryGb = true := by
    obtain ⟨-, next, hstores, hafter⟩ := reserve_swaps h
    have hget : after.allocations.get key = next := by
      obtain rfl | ⟨rfl, rfl⟩ := hafter
      · exact GlobalCapacityLedger.get_assign next
      · rfl
    obtain ⟨-, charged, -, rfl⟩ | ⟨existing, -, hbeq, rfl⟩ := hstores
    · exact ⟨_, hget, hsame⟩
    · exact ⟨existing, hget, hbeq⟩
  unfold GlobalCapacityLedger.reserveWithHeadroom
  simp only [hunits, hblank, hfound, hbeq, if_true]
  rfl

/-- Every operation of the capacity ledger is a compare-and-swap of its key. -/
theorem capacity_compare_and_swap [LawfulGigabytes G] (ledger : GlobalCapacityLedger G)
    (call : CapacityCall G) : CompareAndSwap ledger call := by
  constructor
  · exact fun err after h => run_perform_error h
  · intro after h key hkey
    obtain ⟨-, next, -, rfl | ⟨rfl, -⟩⟩ := apply_swaps (run_perform_ok h)
    · exact GlobalCapacityLedger.get_assign_of_ne next hkey
    · rfl
  · intro after h
    obtain ⟨-, next, hstores, rfl | ⟨rfl, rfl⟩⟩ := apply_swaps (run_perform_ok h)
    · rwa [GlobalCapacityLedger.get_assign]
    · exact hstores
  · intro hstale
    rw [run_perform]
    cases happly : call.apply ledger with
    | error err => exact ⟨err, rfl⟩
    | ok after => exact absurd (apply_swaps happly).1 hstale
  · intro hreserve after h
    have happly := run_perform_ok h
    rw [run_perform]
    cases call with
    | reserve key memoryGb =>
      have hagain : CapacityCall.apply after (.reserve key memoryGb) = .ok after :=
        reserve_again happly
      rw [hagain]
      rfl
    | reserveWithHeadroom key memoryGb allow =>
      have hagain : CapacityCall.apply after (.reserveWithHeadroom key memoryGb allow) =
          .ok after := reserve_again happly
      rw [hagain]
      rfl
    | _ => cases hreserve

end Swaps

/-- One byte reserved of ten. -/
theorem capacity_compare_and_swap_bytes :
    CompareAndSwap (GlobalCapacityLedger.newBytes (G := Int) 10) (.reserve "model" 1) :=
  capacity_compare_and_swap _ _

end Supervisor
