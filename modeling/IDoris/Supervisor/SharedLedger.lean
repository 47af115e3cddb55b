import IDoris.Library.Transaction
import IDoris.Supervisor.Capacity
import Mathlib.Data.List.Induction

/-!
# The bound of the shared capacity ledger

Each call takes the lock once, so any interleaving of clients is a list of calls. The
totals are unbounded sums, so a bound on them is also free of overflow.
-/
namespace Supervisor

open Bounded Transaction

variable {G : Type}

namespace GlobalCapacityLedger

variable {ledger after : GlobalCapacityLedger G} {key : String} {allow : Bool} {units : U128}

/-- All units charged to somebody. -/
def totalUnits (ledger : GlobalCapacityLedger G) : Nat :=
  ledger.allocations.total fun allocation => allocation.chargedUnits.val

/-- The units charged to one key. -/
def chargedTo (ledger : GlobalCapacityLedger G) (key : String) : Nat :=
  ((ledger.allocations.get key).map fun allocation => allocation.chargedUnits.val).getD 0

/-- The ceiling of an admission, as a natural number. -/
def ceiling (ledger : GlobalCapacityLedger G) (confirmed : Bool) : Nat :=
  (if confirmed then ledger.budgetUnits.val
    else ledger.budgetUnits.val - ledger.headroomUnits.val) + ledger.admissionEpsilonUnits.val

theorem exactTotalUnits_eq_some (allocations : Keyed.Map String (CapacityAllocation G))
    (h : exactTotalUnits allocations = some units) :
    units.val = allocations.total fun allocation => allocation.chargedUnits.val := by
  have hgo : ∀ (values : List (CapacityAllocation G)) (acc : U128),
      values.foldlM (fun total allocation => U128.checkedAdd total allocation.chargedUnits) acc =
        some units →
      units.val = acc.val + (values.map fun allocation => allocation.chargedUnits.val).sum := by
    intro values
    induction values with
    | nil =>
      intro acc hfold
      cases hfold
      simp
    | cons allocation rest ih =>
      intro acc hfold
      simp only [List.foldlM_cons, Option.bind_eq_bind, Option.bind_eq_some_iff] at hfold
      obtain ⟨next, hnext, hrest⟩ := hfold
      rw [ih next hrest, U128.checkedAdd_eq_some.mp hnext, List.map_cons, List.sum_cons]
      omega
  simpa [Keyed.Map.total] using hgo allocations.values U128.zero h

theorem checkAdmission_ok (h : ledger.checkAdmission key units allow = .ok ()) :
    units.val ≤ ledger.ceiling true ∧ (allow = false → units.val ≤ ledger.ceiling false) := by
  unfold checkAdmission at h
  have hfull : (U128.saturatingAdd ledger.budgetUnits ledger.admissionEpsilonUnits).val ≤
      ledger.ceiling true := U128.saturatingAdd_le
  have hreduced : (U128.saturatingAdd
      (U128.saturatingSub ledger.budgetUnits ledger.headroomUnits)
      ledger.admissionEpsilonUnits).val ≤ ledger.ceiling false := U128.saturatingAdd_le
  simp only at h
  split at h
  · cases h
  · rename_i hle
    split at h
    · cases h
    · rename_i hconfirmed
      refine ⟨by omega, fun hallow => ?_⟩
      simp only [hallow, Bool.not_false, true_and] at hconfirmed
      omega

/-- Give a key an allocation, or take it away. -/
def assign (ledger : GlobalCapacityLedger G) (key : String)
    (next : Option (CapacityAllocation G)) : GlobalCapacityLedger G :=
  match next with
  | some allocation => { ledger with allocations := ledger.allocations.insert key allocation }
  | none => { ledger with allocations := ledger.allocations.remove key }

def unitsOf (next : Option (CapacityAllocation G)) : Nat :=
  (next.map fun allocation => allocation.chargedUnits.val).getD 0

@[simp] theorem get_assign (next : Option (CapacityAllocation G)) :
    (ledger.assign key next).allocations.get key = next := by
  cases next with
  | some allocation => exact Keyed.Map.get_insert_self
  | none => exact Keyed.Map.get_remove_self

theorem get_assign_of_ne (next : Option (CapacityAllocation G)) {other : String}
    (h : other ≠ key) :
    (ledger.assign key next).allocations.get other = ledger.allocations.get other := by
  cases next with
  | some allocation => exact (Keyed.Map.get_insert).trans (if_neg (Ne.symm h))
  | none => exact Keyed.Map.get_remove_of_ne h

@[simp] theorem assign_ceiling (next : Option (CapacityAllocation G)) (confirmed : Bool) :
    (ledger.assign key next).ceiling confirmed = ledger.ceiling confirmed := by
  cases next <;> rfl

theorem assign_totalUnits (ledger : GlobalCapacityLedger G) (key : String)
    (next : Option (CapacityAllocation G)) :
    (ledger.assign key next).totalUnits + ledger.chargedTo key =
      ledger.totalUnits + unitsOf next := by
  cases next with
  | some allocation => exact Keyed.Map.total_insert _
  | none => exact Keyed.Map.total_remove _

theorem getD_chargedUnits (allocation : Option (CapacityAllocation G)) :
    ((allocation.map (·.chargedUnits)).getD U128.zero).val = unitsOf allocation := by
  cases allocation <;> rfl

/-- What a successful call has done: one key has a new allocation, and growth was admitted. -/
structure Replaced (ledger : GlobalCapacityLedger G) (key : String)
    (next : Option (CapacityAllocation G)) (enforce allow : Bool)
    (after : GlobalCapacityLedger G) : Prop where
  assigned : after = ledger.assign key next
  admitted : enforce = true → ledger.chargedTo key < unitsOf next →
    after.totalUnits ≤ ledger.ceiling true ∧
      (allow = false → after.totalUnits ≤ ledger.ceiling false)

variable [Gigabytes G]

theorem replaceAllocation_ok {expected : ExpectedAllocation G}
    {next : Option (CapacityAllocation G)} {enforce : Bool} {planned : Option CapacityCharge}
    (h : ledger.replaceAllocation key expected next enforce planned allow = .ok after) :
    ledger.Replaced key next enforce allow after := by
  unfold replaceAllocation at h
  simp only [guard_eq_ok, bind_eq_ok, elim_eq_ok] at h
  obtain ⟨-, -, total, htotal, hle, requested, hrequested, hrest⟩ := h
  have hsum : total.val = ledger.totalUnits := exactTotalUnits_eq_some _ htotal
  have hafter := assign_totalUnits ledger key next
  rw [U128.checkedAdd_eq_some, U128.saturatingSub_val, getD_chargedUnits, getD_chargedUnits]
    at hrequested
  rw [getD_chargedUnits] at hle
  have hcurrent : unitsOf (ledger.allocations.get key) = ledger.chargedTo key := rfl
  have htail : ∀ {commit : Except BackendError (GlobalCapacityLedger G)},
      (commit = .ok after → after = ledger.assign key next) →
      (if enforce = true ∧ ((Option.map (fun x => x.chargedUnits)
          (ledger.allocations.get key)).getD U128.zero).val <
            ((Option.map (fun x => x.chargedUnits) next).getD U128.zero).val then
        if Gigabytes.beq ledger.budgetGb (Gigabytes.zero : G) = true then
          throw (BackendError.oom key) >>= fun _ : PUnit =>
            ledger.checkAdmission key requested allow >>= fun _ => commit
        else ledger.checkAdmission key requested allow >>= fun _ => commit
      else commit) = .ok after → ledger.Replaced key next enforce allow after := by
    intro commit hcommit h
    rw [getD_chargedUnits, getD_chargedUnits, hcurrent] at h
    split at h
    · simp only [guard_eq_ok, bind_eq_ok] at h
      obtain ⟨-, _, hadmission, hdone⟩ := h
      have hassigned := hcommit hdone
      rw [← hassigned] at hafter
      have hadmitted := checkAdmission_ok hadmission
      have heq : after.totalUnits = requested.val := by omega
      exact ⟨hassigned, fun _ _ => heq ▸ hadmitted⟩
    · rename_i hno
      exact ⟨hcommit h, fun henforce hgrow => absurd ⟨henforce, hgrow⟩ hno⟩
  have hcommit : ∀ {commit : Except BackendError (GlobalCapacityLedger G)},
      commit = .ok (ledger.assign key next) → commit = .ok after →
        after = ledger.assign key next := by
    intro commit hsome hdone
    rw [hsome] at hdone
    exact (Except.ok.inj hdone).symm
  cases planned with
  | none => exact htail (hcommit (by cases next <;> rfl)) hrest
  | some charge =>
    simp only [bind_eq_ok] at hrest
    obtain ⟨_, -, hrest⟩ := hrest
    exact htail (hcommit (by cases next <;> rfl)) hrest

theorem compareAndSet_ok {expectedGb nextGb : Option G} {enforce : Bool}
    (h : ledger.compareAndSet key expectedGb nextGb enforce = .ok after) :
    ∃ next, ledger.Replaced key next enforce true after := by
  unfold compareAndSet at h
  cases expectedGb <;> cases nextGb <;>
    simp only [bind_eq_ok, pure_bind] at h
  · exact ⟨none, replaceAllocation_ok h⟩
  · obtain ⟨units, -, h⟩ := h
    exact ⟨_, replaceAllocation_ok h⟩
  · obtain ⟨_, -, h⟩ := h
    exact ⟨none, replaceAllocation_ok h⟩
  · obtain ⟨_, -, units, -, h⟩ := h
    exact ⟨_, replaceAllocation_ok h⟩

/-- A reservation changes nothing or is a new allocation that was admitted. -/
theorem reserveWithHeadroom_ok {memoryGb : G}
    (h : ledger.reserveWithHeadroom key memoryGb allow = .ok after) :
    after = ledger ∨ ∃ next, ledger.Replaced key next true allow after := by
  unfold reserveWithHeadroom at h
  simp only [guard_eq_ok, bind_eq_ok] at h
  obtain ⟨charged, -, -, h⟩ := h
  cases hfound : ledger.allocations.get key with
  | some existing =>
    simp only [hfound] at h
    split at h
    · exact .inl (pure_eq_ok.mp h).symm
    · exact absurd h throw_eq_ok
  | none =>
    simp only [hfound, guard_eq_ok, bind_eq_ok, elim_eq_ok, Option.bind_eq_some_iff] at h
    obtain ⟨requested, ⟨reserved, hreserved, hrequested⟩, -, _, hadmission, hdone⟩ := h
    have hsum : reserved.val = ledger.totalUnits := exactTotalUnits_eq_some _ hreserved
    rw [U128.checkedAdd_eq_some] at hrequested
    have hassigned := (pure_eq_ok.mp hdone).symm
    have htotal := assign_totalUnits ledger key (some ⟨memoryGb, charged⟩)
    have hnothing : ledger.chargedTo key = 0 := by
      simp only [chargedTo, hfound, Option.map_none, Option.getD_none]
    have hcharged : unitsOf (some (CapacityAllocation.mk memoryGb charged)) = charged.val := rfl
    have hafter : after = ledger.assign key (some ⟨memoryGb, charged⟩) := hassigned
    rw [← hafter] at htotal
    have heq : after.totalUnits = requested.val := by omega
    exact .inr ⟨_, hafter, fun _ _ => heq ▸ checkAdmission_ok hadmission⟩

end GlobalCapacityLedger

/-- One operation of a client; `updateCharge` without `admitGrowth` records an observation. -/
inductive CapacityCall (G : Type) where
  | reserve (key : String) (memoryGb : G)
  | reserveWithHeadroom (key : String) (memoryGb : G) (allow : Bool)
  | release (key : String)
  | resize (key : String) (expectedGb nextGb : Option G)
  | adoptObserved (key : String) (expectedGb : Option G) (observedGb : G)
  | blockGrowth (key : String) (expectedGb : Option G)
  | updateCharge (key : String) (expected : Option CapacityCharge) (next : CapacityCharge)
      (admitGrowth : Bool)
  | claimCharge (key : String) (current planned : CapacityCharge) (allow : Bool)

namespace CapacityCall

/-- The operations that record what is there without asking. -/
def observes : CapacityCall G → Bool
  | adoptObserved .. => true
  | blockGrowth .. => true
  | updateCharge _ _ _ admitGrowth => !admitGrowth
  | _ => false

/-- Whether the operation may use the headroom when it grows. -/
def confirmed : CapacityCall G → Bool
  | reserveWithHeadroom _ _ allow => allow
  | claimCharge _ _ _ allow => allow
  | _ => true

variable [Gigabytes G]

def apply (ledger : GlobalCapacityLedger G) :
    CapacityCall G → Except BackendError (GlobalCapacityLedger G)
  | reserve key memoryGb => ledger.reserve key memoryGb
  | reserveWithHeadroom key memoryGb allow => ledger.reserveWithHeadroom key memoryGb allow
  | release key => .ok (ledger.release key).1
  | resize key expectedGb nextGb => ledger.resize key expectedGb nextGb
  | adoptObserved key expectedGb observedGb => ledger.adoptObserved key expectedGb observedGb
  | blockGrowth key expectedGb =>
    (ledger.blockGrowthForUnknownResidency key expectedGb).map Prod.fst
  | updateCharge key expected next admitGrowth => ledger.updateCharge key expected next admitGrowth
  | claimCharge key current planned allow => ledger.claimCharge key current planned allow

end CapacityCall

namespace GlobalCapacityLedger

variable [Gigabytes G] {ledger after : GlobalCapacityLedger G} {call : CapacityCall G}

/-- A call that fails leaves the ledger as it was. -/
def step (ledger : GlobalCapacityLedger G) (call : CapacityCall G) : GlobalCapacityLedger G :=
  (call.apply ledger).toOption.getD ledger

def run (ledger : GlobalCapacityLedger G) (calls : List (CapacityCall G)) :
    GlobalCapacityLedger G := calls.foldl step ledger

theorem apply_ok (h : call.apply ledger = .ok after) :
    after = ledger ∨ ∃ key next enforce, ledger.Replaced key next enforce call.confirmed after ∧
      (call.observes = false → ledger.chargedTo key < unitsOf next → enforce = true) := by
  cases call with
  | reserve key memoryGb =>
    obtain rfl | ⟨next, hreplaced⟩ := reserveWithHeadroom_ok h
    · exact .inl rfl
    · exact .inr ⟨key, next, true, hreplaced, fun _ _ => rfl⟩
  | reserveWithHeadroom key memoryGb allow =>
    obtain rfl | ⟨next, hreplaced⟩ := reserveWithHeadroom_ok h
    · exact .inl rfl
    · exact .inr ⟨key, next, true, hreplaced, fun _ _ => rfl⟩
  | release key =>
    refine .inr ⟨key, none, false, ⟨(Except.ok.inj h).symm, nofun⟩, fun _ hgrow => ?_⟩
    cases hgrow
  | resize key expectedGb nextGb =>
    obtain ⟨next, hreplaced⟩ := compareAndSet_ok h
    exact .inr ⟨key, next, true, hreplaced, fun _ _ => rfl⟩
  | adoptObserved key expectedGb observedGb =>
    have hset : ledger.compareAndSet key expectedGb (some observedGb) false = .ok after := h
    obtain ⟨next, hreplaced⟩ := compareAndSet_ok hset
    exact .inr ⟨key, next, false, hreplaced, nofun⟩
  | blockGrowth key expectedGb =>
    simp only [CapacityCall.apply, blockGrowthForUnknownResidency] at h
    cases hset : ledger.compareAndSet key expectedGb (some ledger.budgetGb) false with
    | error err => rw [hset] at h; cases h
    | ok other =>
      rw [hset] at h
      cases h
      obtain ⟨next, hreplaced⟩ := compareAndSet_ok hset
      exact .inr ⟨key, next, false, hreplaced, nofun⟩
  | updateCharge key expected next admitGrowth =>
    have hset : ledger.replaceAllocation key (.charge expected) (some ⟨next.gb, next.units⟩)
        admitGrowth none true = .ok after := h
    refine .inr ⟨key, _, admitGrowth, replaceAllocation_ok hset, fun hadmits _ => ?_⟩
    simpa [CapacityCall.observes] using hadmits
  | claimCharge key current planned allow =>
    have hset : ledger.replaceAllocation key (.charge (some current))
        (some ⟨(current.max planned).gb, (current.max planned).units⟩) true (some planned) allow =
          .ok after := h
    exact .inr ⟨key, _, true, replaceAllocation_ok hset, fun _ _ => rfl⟩

/-- Growth that is not an observation was admitted under the ceiling. -/
theorem step_cases (ledger : GlobalCapacityLedger G) (call : CapacityCall G) :
    (∀ confirmed, (ledger.step call).ceiling confirmed = ledger.ceiling confirmed) ∧
      ((ledger.step call).totalUnits ≤ ledger.totalUnits ∨
        (call.observes = false → (ledger.step call).totalUnits ≤ ledger.ceiling true ∧
          (call.confirmed = false → (ledger.step call).totalUnits ≤ ledger.ceiling false))) := by
  unfold step
  cases happly : call.apply ledger with
  | error err => exact ⟨fun _ => rfl, .inl (Nat.le_refl _)⟩
  | ok after =>
    simp only [Except.toOption, Option.getD_some]
    obtain rfl | ⟨key, next, enforce, ⟨hassigned, hadmitted⟩, henforce⟩ := apply_ok happly
    · exact ⟨fun _ => rfl, .inl (Nat.le_refl _)⟩
    · have htotal := assign_totalUnits ledger key next
      rw [← hassigned] at htotal
      refine ⟨fun _ => hassigned ▸ assign_ceiling next _, ?_⟩
      by_cases hgrow : ledger.chargedTo key < unitsOf next
      · exact .inr fun hobserves => hadmitted (henforce hobserves hgrow) hgrow
      · exact .inl (by omega)

theorem run_append (calls more : List (CapacityCall G)) :
    ledger.run (calls ++ more) = (ledger.run calls).run more := List.foldl_append

theorem run_ceiling (calls : List (CapacityCall G)) (confirmed : Bool) :
    (ledger.run calls).ceiling confirmed = ledger.ceiling confirmed := by
  induction calls generalizing ledger with
  | nil => rfl
  | cons call rest ih =>
    have hstep := (step_cases ledger call).1 confirmed
    exact ih.trans hstep

/-- The call takes more than the run before it had reserved. -/
def Grows (ledger : GlobalCapacityLedger G) (calls : List (CapacityCall G))
    (call : CapacityCall G) : Prop :=
  (ledger.run calls).totalUnits < (ledger.run (calls ++ [call])).totalUnits

/-- A run stays under a ceiling when each call that grows it leaves it there. -/
theorem run_le {limit : Nat} (calls : List (CapacityCall G)) (hstart : ledger.totalUnits ≤ limit)
    (hgrow : ∀ before call after, calls = before ++ call :: after → ledger.Grows before call →
      (ledger.run (before ++ [call])).totalUnits ≤ limit) :
    (ledger.run calls).totalUnits ≤ limit := by
  induction calls using List.reverseRecOn with
  | nil => exact hstart
  | append_singleton calls call ih =>
    have hbefore := ih fun before other after heq =>
      hgrow before other (after ++ [call]) (by rw [heq, List.append_assoc, List.cons_append])
    by_cases hgrows : ledger.Grows calls call
    · exact hgrow calls call [] rfl hgrows
    · unfold Grows at hgrows
      omega

theorem admitted_growth {calls : List (CapacityCall G)} (hobserves : call.observes = false)
    (hgrows : ledger.Grows calls call) :
    (ledger.run (calls ++ [call])).totalUnits ≤ ledger.ceiling true ∧
      (call.confirmed = false →
        (ledger.run (calls ++ [call])).totalUnits ≤ ledger.ceiling false) := by
  have hcases := (step_cases (ledger.run calls) call).2
  have hlast : ledger.run (calls ++ [call]) = (ledger.run calls).step call := run_append calls [call]
  unfold Grows at hgrows
  rw [hlast] at hgrows ⊢
  rw [run_ceiling, run_ceiling] at hcases
  rcases hcases with hle | hadmitted
  · omega
  · exact hadmitted hobserves

end GlobalCapacityLedger

theorem CapacityCall.observes_of_unconfirmed {call : CapacityCall G}
    (h : call.confirmed = false) : call.observes = false := by
  cases call <;> first | rfl | cases h

/-- How a ledger is made: from gigabytes with a tolerance, or from exact bytes. -/
inductive CapacityBudget (G : Type) where
  | gb (budgetGb : G)
  | bytes (budgetBytes headroomBytes : UInt64)

namespace CapacityBudget

def tolerance : CapacityBudget G → Nat
  | gb _ => capacityEpsilonUnits
  | bytes .. => 0

variable [Gigabytes G]

def ledger : CapacityBudget G → Except BackendError (GlobalCapacityLedger G)
  | gb budgetGb => GlobalCapacityLedger.new budgetGb
  | bytes budgetBytes headroomBytes =>
    .ok (GlobalCapacityLedger.newBytesWithHeadroom budgetBytes headroomBytes)

theorem ledger_ok {budget : CapacityBudget G} {ledger : GlobalCapacityLedger G}
    (h : budget.ledger = .ok ledger) :
    ledger.totalUnits = 0 ∧ ledger.admissionEpsilonUnits.val = budget.tolerance := by
  cases budget with
  | gb budgetGb =>
    simp only [CapacityBudget.ledger, GlobalCapacityLedger.new, bind_eq_ok, pure_eq_ok] at h
    obtain ⟨units, -, rfl⟩ := h
    exact ⟨rfl, rfl⟩
  | bytes budgetBytes headroomBytes =>
    cases h
    exact ⟨rfl, rfl⟩

/-- The bound on every run of a ledger: growth that is admitted ends within the budget, so does
every run without observations, and a run that never grows into the headroom leaves it free. -/
def Bounds (budget : CapacityBudget G) : Prop :=
  ∀ ledger, budget.ledger = .ok ledger → ∀ calls : List (CapacityCall G),
    (∀ call : CapacityCall G, call.observes = false → ledger.Grows calls call →
      (ledger.run (calls ++ [call])).totalUnits ≤ ledger.budgetUnits.val + budget.tolerance) ∧
    ((∀ call ∈ calls, call.observes = false) →
      (ledger.run calls).totalUnits ≤ ledger.budgetUnits.val + budget.tolerance) ∧
    ((∀ before call after, calls = before ++ call :: after → ledger.Grows before call →
        call.confirmed = false) →
      (ledger.run calls).totalUnits ≤
        ledger.budgetUnits.val - ledger.headroomUnits.val + budget.tolerance)

/-- Whatever the clients do, the shared ledger stays within its budget. -/
theorem global_capacity_bound (budget : CapacityBudget G) : budget.Bounds := by
  intro ledger hledger calls
  obtain ⟨hempty, htolerance⟩ := ledger_ok hledger
  rw [← htolerance]
  refine ⟨fun call hobserves hgrows => ?_, fun hobserves => ?_, fun hconfirmed => ?_⟩
  · exact (GlobalCapacityLedger.admitted_growth hobserves hgrows).1
  · refine GlobalCapacityLedger.run_le calls (by omega) fun before call after heq hgrows => ?_
    have hmem : call ∈ calls := by simp [heq]
    exact (GlobalCapacityLedger.admitted_growth (hobserves call hmem) hgrows).1
  · refine GlobalCapacityLedger.run_le calls (by omega) fun before call after heq hgrows => ?_
    have hunconfirmed := hconfirmed before call after heq hgrows
    exact (GlobalCapacityLedger.admitted_growth
      (CapacityCall.observes_of_unconfirmed hunconfirmed) hgrows).2 hunconfirmed

end CapacityBudget

end Supervisor
