import Mathlib.Algebra.Order.Group.Int
import Mathlib.Algebra.Order.Group.Unbundled.Basic
import Mathlib.Algebra.BigOperators.Group.List.Basic
import Mathlib.Tactic.Abel
import IDoris.Supervisor.Eviction

/-!
# Eviction plans are shortest prefixes

Over sizes that add and compare exactly, a plan lists the least recently used models that can
go, and no more of them than the request needs.
-/
namespace Supervisor

open Transaction

/-- Sizes whose operations are those of an ordered group. -/
class ExactGigabytes (G : Type) [Gigabytes G] [AddCommGroup G] [LinearOrder G]
    [IsOrderedAddMonoid G] : Prop where
  zero_eq : (Gigabytes.zero : G) = 0
  add_eq (a b : G) : Gigabytes.add a b = a + b
  sub_eq (a b : G) : Gigabytes.sub a b = a - b
  le_iff (a b : G) : Gigabytes.le a b = true ↔ a ≤ b
  lt_iff (a b : G) : Gigabytes.lt a b = true ↔ a < b
  isFinite_eq (a : G) : Gigabytes.isFinite a = true
  epsilon_nonneg : 0 ≤ (Gigabytes.epsilon : G)

instance : ExactGigabytes Int where
  zero_eq := rfl
  add_eq _ _ := rfl
  sub_eq _ _ := rfl
  le_iff _ _ := decide_eq_true_iff
  lt_iff _ _ := decide_eq_true_iff
  isFinite_eq _ := rfl
  epsilon_nonneg := by decide

section Plans

variable {G : Type} [Gigabytes G]

/-- What a plan may assume: sizes that are not negative, and one entry for each model, none for
the requested one. -/
structure Snapshot.Valid [AddCommGroup G] [LinearOrder G] (state : Snapshot G)
    (need : ModelReq G) : Prop where
  budget : 0 ≤ state.budgetGb
  request : 0 ≤ need.memoryGb
  models : ∀ m ∈ state.models, 0 ≤ m.memoryGb
  ids : (state.models.map ModelEntry.id).Nodup
  absent : ∀ m ∈ state.models, m.id ≠ need.id

/-- The models that can go, least recently used first. -/
def Snapshot.candidates (state : Snapshot G) : List (ModelEntry G) :=
  (state.models.filter ModelEntry.evictable).insertionSort fun a b => a.lastUsedSeq ≤ b.lastUsedSeq

def memory [AddCommGroup G] (models : List (ModelEntry G)) : G :=
  (models.map ModelEntry.memoryGb).sum

/-- What occupies budget. -/
def Snapshot.occupied [AddCommGroup G] (state : Snapshot G) : G :=
  memory (state.models.filter fun m => m.state.occupiesBudget)

/-- The request fits beside what occupies budget once `freed` is given back, up to a
tolerance. -/
def Snapshot.Fits [AddCommGroup G] [LinearOrder G] (tolerance : G) (state : Snapshot G)
    (need : ModelReq G) (freed : G) : Prop :=
  state.occupied - freed + need.memoryGb ≤ state.budgetGb + tolerance

instance [AddCommGroup G] [LinearOrder G] (tolerance : G) (state : Snapshot G) (need : ModelReq G)
    (freed : G) : Decidable (state.Fits tolerance need freed) :=
  inferInstanceAs (Decidable (_ ≤ _))

/-- What a plan promises: the shortest prefix of the candidates after which the request fits. -/
structure Planned [AddCommGroup G] [LinearOrder G] (tolerance : G) (state : Snapshot G)
    (need : ModelReq G) (plan : Except (PlanEvictionError G) EvictionPlan) : Prop where
  notNeeded : plan = .ok .notNeeded ↔ state.Fits tolerance need 0
  evict : ∀ victims, plan = .ok (.evict victims) ↔ ¬state.Fits tolerance need 0 ∧
    ∃ n ≤ state.candidates.length, victims = (state.candidates.take n).map ModelEntry.id ∧
      state.Fits tolerance need (memory (state.candidates.take n)) ∧
      ∀ m < n, ¬state.Fits tolerance need (memory (state.candidates.take m))
  insufficient : (∃ shortfallGb budgetGb evictableGb,
      plan = .error (.insufficientCapacity need.id shortfallGb budgetGb evictableGb)) ↔
    ¬state.Fits tolerance need (memory state.candidates)
  answered : ∀ err, plan = .error err → ∃ shortfallGb budgetGb evictableGb,
    err = .insufficientCapacity need.id shortfallGb budgetGb evictableGb
  victims : ∀ victims, plan = .ok (.evict victims) → victims.Nodup ∧
    ∀ v ∈ victims, ∃ m ∈ state.models, m.id = v ∧ m.evictable = true

end Plans

section Exact

variable {G : Type} [Gigabytes G] [AddCommGroup G] [LinearOrder G] [IsOrderedAddMonoid G]
  [ExactGigabytes G] {state : Snapshot G} {need : ModelReq G} {field : String} {value : G}

open ExactGigabytes

theorem gigabytes_sum (sizes : List G) : Gigabytes.sum sizes = sizes.sum := by
  have hfold : ∀ (sizes : List G) (start : G),
      sizes.foldl Gigabytes.add start = start + sizes.sum := by
    intro sizes
    induction sizes with
    | nil => intro start; simp
    | cons size rest ih =>
      intro start
      rw [List.foldl_cons, ih, add_eq, List.sum_cons, add_assoc]
  rw [Gigabytes.sum, hfold, zero_eq, zero_add]

theorem validateCapacity_nonneg (h : 0 ≤ value) :
    validateCapacity field value = .ok () := by
  have hle : Gigabytes.le (Gigabytes.zero : G) value = true := by
    rw [le_iff, zero_eq]
    exact h
  rw [validateCapacity, isFinite_eq, hle]
  rfl

/-- The chosen victims are a prefix that is not enough before its end, and enough if any is. -/
theorem chooseVictims_prefix (shortfallGb freedGb : G) (candidates : List (ModelEntry G)) :
    ∃ n ≤ candidates.length,
      chooseVictims shortfallGb freedGb candidates =
        (freedGb + memory (candidates.take n), (candidates.take n).map ModelEntry.id) ∧
      (∀ m < n, freedGb + memory (candidates.take m) + Gigabytes.epsilon < shortfallGb) ∧
      (n = candidates.length ∨
        shortfallGb ≤ freedGb + memory (candidates.take n) + Gigabytes.epsilon) := by
  induction candidates generalizing freedGb with
  | nil => exact ⟨0, Nat.le_refl 0, by simp [chooseVictims, memory], nofun, .inl rfl⟩
  | cons candidate rest ih =>
    rw [chooseVictims]
    split
    · rename_i henough
      rw [le_iff, add_eq] at henough
      exact ⟨0, Nat.zero_le _, by simp [memory], nofun, .inr (by simpa [memory] using henough)⟩
    · rename_i hshort
      rw [le_iff, add_eq, not_le] at hshort
      obtain ⟨n, hn, hchosen, hbefore, hend⟩ := ih (Gigabytes.add freedGb candidate.memoryGb)
      have hmemory : ∀ k, freedGb + memory ((candidate :: rest).take (k + 1)) =
          Gigabytes.add freedGb candidate.memoryGb + memory (rest.take k) := by
        intro k
        simp only [memory, List.take_succ_cons, List.map_cons, List.sum_cons, add_eq, add_assoc]
      refine ⟨n + 1, Nat.succ_le_succ hn, ?_, ?_, ?_⟩
      · rw [hchosen, hmemory]
        rfl
      · intro m hm
        cases m with
        | zero => simpa [memory] using hshort
        | succ m =>
          rw [hmemory]
          exact hbefore m (Nat.lt_of_succ_lt_succ hm)
      · rw [hmemory]
        obtain rfl | hend := hend
        · exact .inl rfl
        · exact .inr hend

omit [ExactGigabytes G] in
theorem fits_iff {freed : G} : state.Fits Gigabytes.epsilon need freed ↔
    need.memoryGb - (state.budgetGb - state.occupied) ≤ freed + Gigabytes.epsilon := by
  rw [Snapshot.Fits, ← sub_nonneg, ← sub_nonneg (b := need.memoryGb - _)]
  have hsame : state.budgetGb + Gigabytes.epsilon - (state.occupied - freed + need.memoryGb) =
      freed + Gigabytes.epsilon - (need.memoryGb - (state.budgetGb - state.occupied)) := by abel
  rw [hsame]

omit [Gigabytes G] [ExactGigabytes G] in
theorem memory_sum_nonneg {models : List (ModelEntry G)} (h : ∀ m ∈ models, 0 ≤ m.memoryGb) :
    0 ≤ memory models :=
  List.sum_nonneg fun size hsize => by
    obtain ⟨m, hm, rfl⟩ := List.mem_map.mp hsize
    exact h m hm

theorem validate_models {models : List (ModelEntry G)} (h : ∀ m ∈ models, 0 ≤ m.memoryGb) :
    (models.forM fun model => validateCapacity field model.memoryGb) = .ok () := by
  induction models with
  | nil => rfl
  | cons m rest ih =>
    have hrest := ih fun other hother => h other (List.mem_cons_of_mem m hother)
    have hcons : ((m :: rest).forM fun model => validateCapacity field model.memoryGb) =
        validateCapacity field m.memoryGb >>= fun _ =>
          rest.forM fun model => validateCapacity field model.memoryGb := rfl
    rw [hcons, validateCapacity_nonneg (h m List.mem_cons_self)]
    exact hrest

/-- A valid snapshot passes every check, and the rest is the test whether the request fits. -/
theorem planEviction_eq (h : state.Valid need) : planEviction state need =
    if state.Fits Gigabytes.epsilon need 0 then .ok .notNeeded
    else evictFor state need (state.budgetGb - state.occupied) := by
  have habsent : ¬(state.models.any fun m => decide (m.id = need.id)) = true := by
    simpa using h.absent
  have hoccupied : Gigabytes.sum
      ((state.models.filter fun m => m.state.occupiesBudget).map ModelEntry.memoryGb) =
        state.occupied := gigabytes_sum _
  have hnonneg : 0 ≤ state.occupied :=
    memory_sum_nonneg fun m hm => h.models m (List.mem_of_mem_filter hm)
  have htest : Gigabytes.le need.memoryGb
      (Gigabytes.add (Gigabytes.sub state.budgetGb state.occupied) Gigabytes.epsilon) = true ↔
        state.Fits Gigabytes.epsilon need 0 := by
    rw [le_iff, add_eq, sub_eq, fits_iff, zero_add, sub_le_iff_le_add, add_comm]
  simp only [planEviction, validateCapacity_nonneg h.budget, validateCapacity_nonneg h.request,
    validate_models h.models, refuseIf, habsent, hoccupied, validateCapacity_nonneg hnonneg, htest]
  rw [← sub_eq]
  rfl

omit [AddCommGroup G] [LinearOrder G] [IsOrderedAddMonoid G] [ExactGigabytes G] in
theorem mem_candidates {m : ModelEntry G} :
    m ∈ state.candidates ↔ m ∈ state.models ∧ m.evictable = true := by
  rw [Snapshot.candidates, List.mem_insertionSort, List.mem_filter]

omit [IsOrderedAddMonoid G] [ExactGigabytes G] in
theorem candidates_nonneg (h : state.Valid need) : ∀ m ∈ state.candidates, 0 ≤ m.memoryGb :=
  fun m hm => h.models m (mem_candidates.mp hm).1

/-- The victims are the shortest prefix that is enough, or there is none. -/
theorem evictFor_cases (h : state.Valid need) (hshort : ¬state.Fits Gigabytes.epsilon need 0) :
    ∃ n ≤ state.candidates.length,
      (∀ m < n, ¬state.Fits Gigabytes.epsilon need (memory (state.candidates.take m))) ∧
      (state.Fits Gigabytes.epsilon need (memory (state.candidates.take n)) ∧
          evictFor state need (state.budgetGb - state.occupied) =
            .ok (.evict ((state.candidates.take n).map ModelEntry.id)) ∨
        ¬state.Fits Gigabytes.epsilon need (memory state.candidates) ∧
          evictFor state need (state.budgetGb - state.occupied) =
            .error (.insufficientCapacity need.id
              (need.memoryGb - (state.budgetGb - state.occupied)) state.budgetGb
              (memory state.candidates))) := by
  have hpositive : 0 ≤ need.memoryGb - (state.budgetGb - state.occupied) := by
    rw [fits_iff, zero_add, not_le] at hshort
    exact epsilon_nonneg.trans hshort.le
  obtain ⟨n, hn, hchosen, hbefore, hend⟩ := chooseVictims_prefix
    (need.memoryGb - (state.budgetGb - state.occupied)) 0 state.candidates
  simp only [zero_add] at hchosen hbefore hend
  have hfreed : 0 ≤ memory (state.candidates.take n) :=
    memory_sum_nonneg fun m hm => candidates_nonneg h m (List.mem_of_mem_take hm)
  have hall : 0 ≤ memory state.candidates := memory_sum_nonneg (candidates_nonneg h)
  have hsum : Gigabytes.sum (state.candidates.map fun m => m.memoryGb) = memory state.candidates :=
    gigabytes_sum _
  refine ⟨n, hn, fun m hm => by rw [fits_iff, not_le]; exact hbefore m hm, ?_⟩
  have hevict : evictFor state need (state.budgetGb - state.occupied) =
      if state.Fits Gigabytes.epsilon need (memory (state.candidates.take n)) then
        .ok (.evict ((state.candidates.take n).map ModelEntry.id))
      else .error (.insufficientCapacity need.id
        (need.memoryGb - (state.budgetGb - state.occupied)) state.budgetGb
        (memory state.candidates)) := by
    have htest : Gigabytes.lt (Gigabytes.add (memory (state.candidates.take n)) Gigabytes.epsilon)
        (need.memoryGb - (state.budgetGb - state.occupied)) = true ↔
          ¬state.Fits Gigabytes.epsilon need (memory (state.candidates.take n)) := by
      rw [lt_iff, add_eq, fits_iff, not_le]
    unfold evictFor
    rw [← Snapshot.candidates]
    simp only [sub_eq, zero_eq, hchosen, hsum, htest, validateCapacity_nonneg hpositive,
      validateCapacity_nonneg hfreed, validateCapacity_nonneg hall]
    by_cases hfits : state.Fits Gigabytes.epsilon need (memory (state.candidates.take n)) <;>
      simp [hfits] <;> rfl
  rw [hevict]
  by_cases hfits : state.Fits Gigabytes.epsilon need (memory (state.candidates.take n))
  · exact .inl ⟨hfits, if_pos hfits⟩
  · obtain rfl | hend := hend
    · rw [List.take_length] at hfits
      exact .inr ⟨hfits, if_neg (by rwa [List.take_length])⟩
    · exact absurd (fits_iff.mpr hend) hfits

omit [ExactGigabytes G] in
/-- Evicting more never makes the request fit less. -/
theorem fits_of_take (h : state.Valid need) {n : Nat}
    (hfits : state.Fits Gigabytes.epsilon need (memory (state.candidates.take n))) :
    state.Fits Gigabytes.epsilon need (memory state.candidates) := by
  have hrest : 0 ≤ memory (state.candidates.drop n) :=
    memory_sum_nonneg fun m hm => candidates_nonneg h m (List.mem_of_mem_drop hm)
  have hsplit : memory state.candidates =
      memory (state.candidates.take n) + memory (state.candidates.drop n) := by
    rw [memory, memory, memory, ← List.sum_append, ← List.map_append, List.take_append_drop]
  rw [fits_iff] at hfits ⊢
  rw [hsplit]
  exact hfits.trans (by gcongr; exact le_add_of_nonneg_right hrest)

omit [IsOrderedAddMonoid G] [ExactGigabytes G] in
theorem candidates_ids_nodup (h : state.Valid need) :
    (state.candidates.map ModelEntry.id).Nodup := by
  have hperm := (List.perm_insertionSort (fun a b : ModelEntry G => a.lastUsedSeq ≤ b.lastUsedSeq)
    (state.models.filter ModelEntry.evictable)).map ModelEntry.id
  exact hperm.nodup_iff.mpr (h.ids.sublist (List.filter_sublist.map ModelEntry.id))

theorem evict_victims (h : state.Valid need) {victims : List String}
    (hplan : planEviction state need = .ok (.evict victims)) : victims.Nodup := by
  rw [planEviction_eq h] at hplan
  split at hplan
  · cases hplan
  · rename_i hshort
    obtain ⟨n, -, -, ⟨-, hevict⟩ | ⟨-, hrefused⟩⟩ := evictFor_cases h hshort
    · rw [hevict] at hplan
      cases hplan
      exact (candidates_ids_nodup h).sublist ((List.take_sublist n _).map ModelEntry.id)
    · rw [hrefused] at hplan
      cases hplan

/-- A plan evicts the shortest prefix that makes room, up to the tolerance of the fit test. -/
theorem planEviction_planned (h : state.Valid need) :
    Planned Gigabytes.epsilon state need (planEviction state need) := by
  have hvictims : ∀ victims, planEviction state need = .ok (.evict victims) →
      victims.Nodup ∧ ∀ v ∈ victims, ∃ m ∈ state.models, m.id = v ∧ m.evictable = true :=
    fun victims hplan => ⟨evict_victims h hplan, planEviction_evict hplan⟩
  by_cases hfits : state.Fits Gigabytes.epsilon need 0
  · have hplan : planEviction state need = .ok .notNeeded := by
      rw [planEviction_eq h, if_pos hfits]
    have hall : state.Fits Gigabytes.epsilon need (memory state.candidates) :=
      fits_of_take h (n := 0) (by simpa [memory] using hfits)
    constructor
    · simp [hplan, hfits]
    · simp [hplan, hfits]
    · simp [hplan, hall]
    · simp [hplan]
    · exact hvictims
  · obtain ⟨n, hn, hbefore, ⟨henough, hevict⟩ | ⟨hnever, hrefused⟩⟩ := evictFor_cases h hfits
    · have hplan : planEviction state need =
          .ok (.evict ((state.candidates.take n).map ModelEntry.id)) := by
        rw [planEviction_eq h, if_neg hfits, hevict]
      constructor
      · simp [hplan, hfits]
      · intro victims
        constructor
        · intro hgiven
          rw [hplan] at hgiven
          cases hgiven
          exact ⟨hfits, n, hn, rfl, henough, hbefore⟩
        · rintro ⟨-, k, hk, rfl, hcovers, hleast⟩
          obtain hlt | rfl | hlt := lt_trichotomy n k
          · exact absurd henough (hleast n hlt)
          · exact hplan
          · exact absurd hcovers (hbefore k hlt)
      · simp [hplan, fits_of_take h henough]
      · simp [hplan]
      · exact hvictims
    · have hplan : planEviction state need = .error (.insufficientCapacity need.id
          (need.memoryGb - (state.budgetGb - state.occupied)) state.budgetGb
          (memory state.candidates)) := by
        rw [planEviction_eq h, if_neg hfits, hrefused]
      constructor
      · simp [hplan, hfits]
      · intro victims
        simp only [hplan, reduceCtorEq, false_iff, not_and, not_exists]
        intro _ k _ _ hcovers
        exact absurd (fits_of_take h hcovers) hnever
      · simp [hplan, hnever]
      · simp [hplan]
      · exact hvictims

end Exact

/-- Ten gigabytes are free. -/
def emptySnapshot : Snapshot Int := ⟨Gigabytes.ofGb 10, []⟩

/-- The least more than what is free. -/
def slightlyLarger : ModelReq Int := ⟨"model", Gigabytes.ofGb 10 + 1⟩

theorem slightlyLarger_valid : emptySnapshot.Valid slightlyLarger := by
  constructor <;> simp [emptySnapshot, slightlyLarger, Gigabytes.ofGb]

/-- The fit test lets a request pass that is larger than what is free. -/
theorem not_planned_without_tolerance : emptySnapshot.Valid slightlyLarger ∧
    ¬Planned 0 emptySnapshot slightlyLarger (planEviction emptySnapshot slightlyLarger) := by
  refine ⟨slightlyLarger_valid, fun h => ?_⟩
  have hplan : planEviction emptySnapshot slightlyLarger = .ok .notNeeded := by rfl
  exact absurd (h.notNeeded.mp hplan) (by decide)

/-- Ten gigabytes, of which two idle models and a busy one have nine. -/
def sampleSnapshot : Snapshot Int where
  budgetGb := Gigabytes.ofGb 10
  models :=
    [⟨"busy", Gigabytes.ofGb 3, .ready, false, 1, 1⟩, ⟨"new", Gigabytes.ofGb 2, .ready, false, 3, 0⟩,
      ⟨"old", Gigabytes.ofGb 4, .error, false, 2, 0⟩]

def sampleNeed : ModelReq Int := ⟨"model", Gigabytes.ofGb 5⟩

theorem planEviction_planned_sample :
    Planned Gigabytes.epsilon sampleSnapshot sampleNeed (planEviction sampleSnapshot sampleNeed) :=
  planEviction_planned (by
    constructor <;> simp [sampleSnapshot, sampleNeed, Gigabytes.ofGb])

example : planEviction sampleSnapshot sampleNeed = .ok (.evict ["old"]) := by rfl

end Supervisor
