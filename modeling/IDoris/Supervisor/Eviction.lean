import Mathlib.Data.List.Sort
import IDoris.Library.Transaction
import IDoris.Supervisor.Types

/-!
# Eviction planning

A decision only: which idle models make room for a request. The supervisor turns
the decision into calls.
-/
namespace Supervisor

open Transaction

variable {G : Type} [Gigabytes G]

inductive ModelState where
  | launching
  | loading
  | ready
  | error
  | stopping
  | stopped
  deriving DecidableEq

namespace ModelState

/-- Which states count against the memory budget: all whose memory is not confirmed free. -/
def occupiesBudget : ModelState → Bool
  | loading | ready | stopping | error => true
  | launching | stopped => false

/-- The states no operation is working on. -/
def settled : ModelState → Bool
  | ready | error | stopped => true
  | launching | loading | stopping => false

end ModelState

structure ModelEntry (G : Type) where
  id : String
  memoryGb : G
  state : ModelState
  pinned : Bool
  lastUsedSeq : Nat
  inflight : Nat

structure Snapshot (G : Type) where
  budgetGb : G
  models : List (ModelEntry G)

structure ModelReq (G : Type) where
  id : String
  memoryGb : G

inductive EvictionPlan where
  | notNeeded
  | evict (victims : List String)
  deriving DecidableEq

inductive PlanEvictionError (G : Type) where
  | insufficientCapacity (modelId : String) (shortfallGb budgetGb evictableGb : G)
  | invalidCapacity (field : String) (value : G)
  | snapshotContainsRequestedModel (modelId : String)

def validateCapacity (field : String) (value : G) : Except (PlanEvictionError G) Unit :=
  if Gigabytes.isFinite value && Gigabytes.le (Gigabytes.zero : G) value then .ok ()
  else .error (.invalidCapacity field value)

/-- Idle, unpinned and holding memory. -/
def ModelEntry.evictable (m : ModelEntry G) : Bool :=
  (m.state = .ready || m.state = .error) && !m.pinned &&
    Gigabytes.lt (Gigabytes.zero : G) m.memoryGb && m.inflight = 0

/-- Take candidates in order until the shortfall is covered. -/
def chooseVictims (shortfallGb freedGb : G) : List (ModelEntry G) → G × List String
  | [] => (freedGb, [])
  | candidate :: rest =>
    if Gigabytes.le shortfallGb (Gigabytes.add freedGb Gigabytes.epsilon) then (freedGb, [])
    else
      let (freed, chosen) :=
        chooseVictims shortfallGb (Gigabytes.add freedGb candidate.memoryGb) rest
      (freed, candidate.id :: chosen)

/-- The victims that close the shortfall, least recently used first. -/
def evictFor (state : Snapshot G) (need : ModelReq G) (availableGb : G) :
    Except (PlanEvictionError G) EvictionPlan := do
  let shortfallGb := Gigabytes.sub need.memoryGb availableGb
  validateCapacity "shortfall_gb" shortfallGb
  let candidates := (state.models.filter ModelEntry.evictable).insertionSort
    fun a b => a.lastUsedSeq ≤ b.lastUsedSeq
  let (freedGb, chosen) := chooseVictims shortfallGb Gigabytes.zero candidates
  validateCapacity "cumulative freed_gb" freedGb
  if Gigabytes.lt (Gigabytes.add freedGb Gigabytes.epsilon) shortfallGb then
    let evictableGb := Gigabytes.sum (candidates.map (·.memoryGb))
    validateCapacity "sum of evictable candidate.memory_gb" evictableGb
    .error (.insufficientCapacity need.id shortfallGb state.budgetGb evictableGb)
  else .ok (.evict chosen)

def planEviction (state : Snapshot G) (need : ModelReq G) :
    Except (PlanEvictionError G) EvictionPlan := do
  validateCapacity "budget_gb" state.budgetGb
  validateCapacity "need.memory_gb" need.memoryGb
  state.models.forM fun model => validateCapacity "model.memory_gb" model.memoryGb
  refuseIf (state.models.any fun m => m.id = need.id) (.snapshotContainsRequestedModel need.id)
  let occupiedGb := Gigabytes.sum
    ((state.models.filter fun m => m.state.occupiesBudget).map (·.memoryGb))
  validateCapacity "sum of occupied model.memory_gb" occupiedGb
  let availableGb := Gigabytes.sub state.budgetGb occupiedGb
  if Gigabytes.le need.memoryGb (Gigabytes.add availableGb Gigabytes.epsilon) then .ok .notNeeded
  else evictFor state need availableGb

theorem chooseVictims_mem {shortfallGb freedGb : G} {candidates : List (ModelEntry G)}
    {v : String} (h : v ∈ (chooseVictims shortfallGb freedGb candidates).2) :
    ∃ m ∈ candidates, m.id = v := by
  induction candidates generalizing freedGb with
  | nil => simp [chooseVictims] at h
  | cons candidate rest ih =>
    rw [chooseVictims] at h
    split at h
    · simp at h
    · rcases List.mem_cons.mp h with rfl | h
      · exact ⟨candidate, List.mem_cons_self, rfl⟩
      · obtain ⟨m, hm, hid⟩ := ih h
        exact ⟨m, List.mem_cons_of_mem _ hm, hid⟩

/-- Every chosen victim is a model of the snapshot that is idle, unpinned and settled. -/
theorem evictFor_evict {state : Snapshot G} {need : ModelReq G} {availableGb : G}
    {victims : List String} (h : evictFor state need availableGb = .ok (.evict victims)) :
    ∀ v ∈ victims, ∃ m ∈ state.models, m.id = v ∧ m.evictable = true := by
  simp only [evictFor, bind_eq_ok] at h
  obtain ⟨-, -, -, -, h⟩ := h
  split at h
  · obtain ⟨-, -, h⟩ := bind_eq_ok.mp h
    cases h
  · intro v hv
    cases h
    obtain ⟨m, hm, hid⟩ := chooseVictims_mem hv
    rw [List.mem_insertionSort, List.mem_filter] at hm
    exact ⟨m, hm.1, hid, hm.2⟩

theorem planEviction_evict {state : Snapshot G} {need : ModelReq G} {victims : List String}
    (h : planEviction state need = .ok (.evict victims)) :
    ∀ v ∈ victims, ∃ m ∈ state.models, m.id = v ∧ m.evictable = true := by
  simp only [planEviction, bind_eq_ok] at h
  obtain ⟨-, -, -, -, -, -, -, -, -, -, h⟩ := h
  split at h
  · cases h
  · exact evictFor_evict h

theorem ModelEntry.evictable_iff {m : ModelEntry G} :
    m.evictable = true ↔ (m.state = .ready ∨ m.state = .error) ∧ m.pinned = false ∧
      Gigabytes.lt (Gigabytes.zero : G) m.memoryGb = true ∧ m.inflight = 0 := by
  simp [evictable, and_assoc]

end Supervisor
