import IDoris.Supervisor.Fence
import IDoris.Supervisor.LoadFlow

/-!
# Slots, the active operation and the memory accounting of the actor
-/
namespace Supervisor

variable {G : Type}

structure ModelSlot (G : Type) where
  memoryGb : G
  charge : CapacityCharge
  state : ModelState
  lastUsedSeq : Nat
  policy : LoadPolicy
  inflight : Nat
  loadUnconfirmed : Bool
  inherited : Bool

abbrev Models (G : Type) := Keyed.Map String (ModelSlot G)

structure LoadRequest (G : Type) where
  id : String
  memoryGb : G
  policy : LoadPolicy
  allowHeadroomBreach : Bool

inductive Request (G : Type) where
  | load (req : LoadRequest G)
  | unload (id : String)

/-- Waiters are the callers whose reply channels the operation holds. -/
inductive ActiveKind (G : Type) where
  | load (policy : LoadPolicy) (memoryGb : G) (allowHeadroomBreach : Bool) (waiters : List Nat)
  | unload (waiters : List Nat) (started : Bool)

/-- The serial number tells operations apart; the program keeps none. -/
structure ActiveOp (G : Type) where
  serial : Nat
  id : String
  kind : ActiveKind G

def ActiveKind.waiters : ActiveKind G → List Nat
  | .load _ _ _ waiters => waiters
  | .unload waiters _ => waiters

/-- The request the operation was started for. -/
def ActiveOp.request (op : ActiveOp G) : Request G :=
  match op.kind with
  | .load policy memoryGb allowHeadroomBreach _ =>
    .load ⟨op.id, memoryGb, policy, allowHeadroomBreach⟩
  | .unload _ _ => .unload op.id

structure StartupCapacityTracking (G : Type) where
  ledger : GlobalCapacityLedger G
  allocationKey : String
  claimedGb : G
  exactClaim : Option CapacityCharge

structure Env (G : Type) where
  config : SupervisorConfig G
  loadFence : Option LoadFence
  reservedGb : G
  aggregateCovered : Keyed.Map String G
  runtimeCapacity : Option (StartupCapacityTracking G)
  startupError : Option BackendError

/-- The state `run_actor` owns. -/
structure Actor (G : Type) where
  models : Models G
  activeOp : Option (ActiveOp G)
  nextSeq : Nat
  poisoned : Option String
  env : Env G

def Actor.waiters (actor : Actor G) : List Nat :=
  (actor.activeOp.map fun op => op.kind.waiters).getD []

def ModelSlot.occupiesBudget (slot : ModelSlot G) : Bool := slot.state.occupiesBudget

namespace Models

def setState (models : Models G) (id : String) (state : ModelState) : Models G :=
  models.modify id fun slot => { slot with state := state }

/-- A state set after an adapter call; `Stopped` also ends an inherited residency. -/
def setStateOrPoison (models : Models G) (id : String) (state : ModelState) :
    Except String (Models G) :=
  match models.get id with
  | some _ => .ok (models.modify id fun slot => { slot with
      state := state
      inherited := slot.inherited && state ≠ .stopped })
  | none => .error ("ledger has no entry for " ++ id.quote)

/-- Every model except the one being requested. -/
def buildSnapshot (models : Models G) (budgetGb : G) (exclude : String) : Snapshot G :=
  ⟨budgetGb, (models.entries.filter fun e => e.1 ≠ exclude).map fun (id, slot) =>
    { id := id
      memoryGb := slot.memoryGb
      state := slot.state
      pinned := slot.loadUnconfirmed || slot.inherited || slot.policy.keepalive = .pinned true
      lastUsedSeq := slot.lastUsedSeq
      inflight := slot.inflight }⟩

/-- Victims come from the table, without the requested model, and are idle and settled. -/
theorem buildSnapshot_mem {models : Models G} {budgetGb : G} {exclude : String}
    {m : ModelEntry G} (h : m ∈ (models.buildSnapshot budgetGb exclude).models) :
    m.id ≠ exclude ∧ ∃ slot, models.get m.id = some slot ∧ m.state = slot.state ∧
      m.inflight = slot.inflight ∧ (slot.loadUnconfirmed = true → m.pinned = true) := by
  obtain ⟨⟨id, slot⟩, he, rfl⟩ := List.mem_map.mp h
  obtain ⟨hmem, hne⟩ := List.mem_filter.mp he
  refine ⟨by simpa using hne, slot, Keyed.Map.mem_entries.mp hmem, rfl, rfl, fun hunconfirmed => ?_⟩
  simp [hunconfirmed]

variable [Gigabytes G]

/-- The memory of the budget-occupying models that are not left out. -/
def occupiedExcept (models : Models G) (exclude : List String) : G :=
  Gigabytes.sum ((models.entries.filter fun e =>
    !exclude.contains e.1 && e.2.occupiesBudget).map fun e => e.2.memoryGb)

def ledgerUsedExcept (models : Models G) (exclude : String) : G := models.occupiedExcept [exclude]

end Models

namespace Env

variable [Gigabytes G]

def coveredCharge (models : Models G) (id : String) (credit : G) :
    Except BackendError CapacityCharge :=
  match models.get id with
  | some slot =>
    if slot.occupiesBudget && !slot.loadUnconfirmed then
      (CapacityCharge.fromGb credit).map slot.charge.min
    else .ok .default
  | none => .ok .default

def exactReservedCharge (env : Env G) (models : Models G) : Except BackendError CapacityCharge := do
  let covered ← env.aggregateCovered.entries.foldlM (fun sum (id, credit) => do
    let charge ← coveredCharge models id credit
    sum.checkedAdd charge) CapacityCharge.default
  let reserved ← CapacityCharge.fromGb env.reservedGb
  return reserved.saturatingSub covered

def exactCharge (env : Env G) (models : Models G) (slots : List (ModelSlot G)) :
    Except BackendError CapacityCharge := do
  let reserved ← env.exactReservedCharge models
  (slots.filter (·.occupiesBudget)).foldlM (fun sum slot => sum.checkedAdd slot.charge) reserved

/-- The aggregate residency less what independent slots already cover. -/
def effectiveReservedGbExcept (env : Env G) (models : Models G) (excludedId : Option String) : G :=
  let coveredSlotsGb := Gigabytes.sum (env.aggregateCovered.entries.filterMap fun (id, credit) =>
    if excludedId = some id then none
    else (models.get id).bind fun slot =>
      if slot.occupiesBudget && !slot.loadUnconfirmed then some (Gigabytes.min slot.memoryGb credit)
      else none)
  Gigabytes.max (Gigabytes.sub env.reservedGb coveredSlotsGb) Gigabytes.zero

def effectiveReservedGb (env : Env G) (models : Models G) : G :=
  env.effectiveReservedGbExcept models none

def accountedGb (env : Env G) (models : Models G) : G :=
  Gigabytes.add (models.occupiedExcept []) (env.effectiveReservedGb models)

def withTracking (env : Env G) (tracking : StartupCapacityTracking G) : Env G :=
  { env with runtimeCapacity := some tracking }

def claimRuntimeCapacity (env : Env G) (plannedGb : G) (plannedCharge : Option CapacityCharge)
    (allowHeadroomBreach : Bool) : Except BackendError (Env G) :=
  match env.runtimeCapacity with
  | none => .ok env
  | some tracking =>
    match tracking.exactClaim with
    | some current => do
      let planned ← plannedCharge.elim (throw (.invariantViolation "missing exact load charge")) pure
      let ledger ← tracking.ledger.claimCharge tracking.allocationKey current planned
        allowHeadroomBreach
      return env.withTracking
        { tracking with ledger := ledger, exactClaim := some (current.max planned) }
    | none => do
      let nextGb := Gigabytes.max tracking.claimedGb plannedGb
      if Gigabytes.beq nextGb tracking.claimedGb then return env
      let ledger ← tracking.ledger.resize tracking.allocationKey (some tracking.claimedGb)
        (some nextGb)
      return env.withTracking { tracking with ledger := ledger, claimedGb := nextGb }

def exceededClaim : BackendError :=
  .invariantViolation "runtime capacity exceeded its admitted global claim"

def settleExactClaim (env : Env G) (tracking : StartupCapacityTracking G)
    (current accounted : CapacityCharge) (hasUnconfirmedLoad : Bool) :
    Except BackendError Unit × Env G :=
  let grown : Bool := current.units.val < accounted.units.val
  let verdict : Except BackendError Unit :=
    if grown && !hasUnconfirmedLoad then .error exceededClaim else .ok ()
  if grown || !hasUnconfirmedLoad then
    match tracking.ledger.updateCharge tracking.allocationKey (some current) accounted !grown with
    | .error err => (.error err, env)
    | .ok ledger =>
      (verdict, env.withTracking { tracking with ledger := ledger, exactClaim := some accounted })
  else (verdict, env)

def settleEstimatedClaim (env : Env G) (tracking : StartupCapacityTracking G) (accountedGb : G)
    (hasUnconfirmedLoad : Bool) : Except BackendError Unit × Env G :=
  let claimed := some tracking.claimedGb
  let settled := fun ledger =>
    env.withTracking { tracking with ledger := ledger, claimedGb := accountedGb }
  if Gigabytes.le (Gigabytes.abs (Gigabytes.sub accountedGb tracking.claimedGb))
      Gigabytes.epsilon then (.ok (), env)
  else if Gigabytes.lt tracking.claimedGb accountedGb then
    match tracking.ledger.adoptObserved tracking.allocationKey claimed accountedGb with
    | .error err => (.error err, env)
    | .ok ledger =>
      (if hasUnconfirmedLoad then .ok () else .error exceededClaim, settled ledger)
  else if hasUnconfirmedLoad then (.ok (), env)
  else
    match tracking.ledger.resize tracking.allocationKey claimed (some accountedGb) with
    | .error err => (.error err, env)
    | .ok ledger => (.ok (), settled ledger)

def settleRuntimeCapacity (env : Env G) (models : Models G) : Except BackendError Unit × Env G :=
  let hasUnconfirmedLoad := models.values.any (·.loadUnconfirmed)
  match env.runtimeCapacity with
  | none => (.ok (), env)
  | some tracking =>
    match tracking.exactClaim with
    | some current =>
      match env.exactCharge models models.values with
      | .error err => (.error err, env)
      | .ok accounted => env.settleExactClaim tracking current accounted hasUnconfirmedLoad
    | none => env.settleEstimatedClaim tracking (env.accountedGb models) hasUnconfirmedLoad

/-- Rebase the aggregate on a fresh status, the target excepted. -/
def refreshAggregateExcept (env : Env G) (models : Models G) (status : BackendStatus G)
    (excludedId : Option String) (excludedCreditGb : G) : Env G :=
  let covered := status.loaded.foldl (fun covered id =>
    if excludedId = some id then covered
    else match models.get id with
      | some slot =>
        if slot.occupiesBudget && !slot.loadUnconfirmed then covered.insert id slot.memoryGb
        else covered
      | none => covered) Keyed.Map.empty
  let withTarget := match excludedId with
    | some id =>
      if Gigabytes.lt (Gigabytes.zero : G) excludedCreditGb && status.loaded.contains id then
        covered.insert id excludedCreditGb
      else covered
    | none => covered
  { env with reservedGb := status.usedGb, aggregateCovered := withTarget }

def refreshAggregate (env : Env G) (models : Models G) (status : BackendStatus G) : Env G :=
  env.refreshAggregateExcept models status none Gigabytes.zero

end Env

end Supervisor
