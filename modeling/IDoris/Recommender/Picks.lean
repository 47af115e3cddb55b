import Mathlib.Tactic.Positivity
import Mathlib.Tactic.Linarith
import IDoris.Recommender.Recommend

/-!
# What is picked

Every pick is a quantisation of a model of the catalogue, within the budget it was picked for.
-/
namespace Recommender

open Policy (Capability)
open Loop (foldl_keeps foldlM_seen consider_eq_some consider_beats)

section Models

variable {policy : RecommenderPolicy} {model : CatalogModel} {pick : QuantPick} {budgetGb minQuality : ℚ}

/-- A model has this quantisation. -/
def Offers (policy : RecommenderPolicy) (model : CatalogModel) (pick : QuantPick) : Prop :=
  ∃ quant ∈ model.quantOptions, toPick quant model policy = some pick

/-- No size of memory is negative. -/
structure CatalogModel.NonNegative (model : CatalogModel) : Prop where
  params : 0 ≤ model.paramsTotalB
  layers : 0 ≤ model.arch.nLayers
  heads : 0 ≤ model.arch.nKvHeads
  dim : 0 ≤ model.arch.headDim
  bpp : ∀ quant ∈ model.quantOptions, ∀ bpp ∈ quant.bpp, 0 ≤ bpp
  weights : ∀ quant ∈ model.quantOptions, ∀ weights ∈ quant.weightsGb, 0 ≤ weights

theorem bytesToGb_nonneg {bytes : ℚ} (h : 0 ≤ bytes) : 0 ≤ bytesToGb bytes :=
  div_nonneg h (by norm_num [bytesPerGb])

theorem kvCacheGb_nonneg (h : model.NonNegative) (ctx : Nat) (kvQuant : KvQuant) :
    0 ≤ kvCacheGb model.arch ctx kvQuant := by
  have hbytes : 0 ≤ kvQuant.bytesPerElement := by
    cases kvQuant <;> norm_num [KvQuant.bytesPerElement]
  have hlayers := h.layers
  have hheads := h.heads
  have hdim := h.dim
  refine bytesToGb_nonneg ?_
  unfold kvBytes
  positivity

theorem weightsGb_nonneg (h : model.NonNegative) {quant : CatalogQuant}
    (hquant : quant ∈ model.quantOptions) {weights : ℚ}
    (hweights : weightsGb model.paramsTotalB quant = some weights) : 0 ≤ weights := by
  obtain ⟨bytes, hbytes, rfl⟩ := Option.map_eq_some_iff.mp hweights
  refine bytesToGb_nonneg ?_
  have hunit : (0 : ℚ) ≤ bytesPerGb := by norm_num [bytesPerGb]
  unfold weightBytes at hbytes
  split at hbytes
  · rename_i given hgiven
    obtain rfl := Option.some.inj hbytes
    exact mul_nonneg (h.weights quant hquant given hgiven) hunit
  · obtain ⟨bpp, hbpp, rfl⟩ := Option.map_eq_some_iff.mp hbytes
    exact mul_nonneg (mul_nonneg h.params (h.bpp quant hquant bpp hbpp)) hunit

/-- The sizes of a model are not negative. -/
theorem footprint_nonneg (h : model.NonNegative) (hpick : Offers policy model pick) :
    0 ≤ pick.footprintGb := by
  obtain ⟨quant, hquant, htake⟩ := hpick
  obtain ⟨weights, hweights, hmade⟩ := Option.bind_eq_some_iff.mp htake
  obtain rfl := Option.some.inj hmade
  have hleft := weightsGb_nonneg h hquant hweights
  have hright := kvCacheGb_nonneg h policy.contextTarget policy.kvQuant
  show 0 ≤ weights + kvCacheGb model.arch policy.contextTarget policy.kvQuant + defaultOverheadGb
  have hone : (0 : ℚ) ≤ defaultOverheadGb := by norm_num [defaultOverheadGb]
  linarith

theorem pickQuant_some (h : pickQuant model budgetGb policy minQuality = some pick) :
    Offers policy model pick ∧ pick.footprintGb ≤ budgetGb := by
  obtain ⟨best, hbest, hpick⟩ := Option.bind_eq_some_iff.mp h
  have hseen := foldlM_seen .option (fun seen best => ∀ found, best = some found →
    (∃ quant ∈ seen, toPick quant model policy = some found) ∧ found.footprintGb ≤ budgetGb)
    (fun _ hnone => by cases hnone)
    (fun seen quant best best' hseen hstep found hfound => ?_) hbest
  · exact hseen pick hpick
  · have hkeep : best = some found →
        (∃ quant' ∈ seen ++ [quant], toPick quant' model policy = some found) ∧
          found.footprintGb ≤ budgetGb := by
      intro hbefore
      obtain ⟨⟨quant', hquant', htake⟩, hle⟩ := hseen found hbefore
      exact ⟨⟨quant', List.mem_append_left _ hquant', htake⟩, hle⟩
    split at hstep
    · obtain rfl := Option.some.inj hstep
      exact hkeep hfound
    · obtain ⟨pick', htake, hconsidered⟩ := Option.bind_eq_some_iff.mp hstep
      split at hconsidered
      · obtain rfl := Option.some.inj hconsidered
        exact hkeep hfound
      · rename_i hfits
        obtain rfl := Option.some.inj hconsidered
        obtain rfl | hbefore := consider_eq_some hfound
        · exact ⟨⟨quant, List.mem_append_right _ (List.mem_singleton_self quant), htake⟩,
            not_lt.mp hfits⟩
        · exact hkeep hbefore

/-- The smallest quantisation is one of the model's, and none is smaller. -/
theorem lowestFootprintPick_some (h : lowestFootprintPick model policy = some pick) :
    Offers policy model pick ∧
      ∀ other, Offers policy model other → pick.footprintGb ≤ other.footprintGb := by
  obtain ⟨best, hbest, hpick⟩ := Option.bind_eq_some_iff.mp h
  have hseen := foldlM_seen .option (fun seen best =>
    (∀ found, best = some found → ∃ quant ∈ seen, toPick quant model policy = some found) ∧
      ∀ quant ∈ seen, ∀ other, toPick quant model policy = some other →
        ∃ found, best = some found ∧ found.footprintGb ≤ other.footprintGb)
    ⟨fun _ hnone => (by cases hnone), fun _ hquant => (by cases hquant)⟩
    (fun seen quant best best' hseen hstep => ?_) hbest
  · obtain ⟨hfrom, hleast⟩ := hseen
    refine ⟨hfrom pick hpick, fun other ⟨quant, hquant, htake⟩ => ?_⟩
    obtain ⟨found, hfound, hle⟩ := hleast quant hquant other htake
    rw [hpick, Option.some.injEq] at hfound
    exact hfound ▸ hle
  · obtain ⟨hfrom, hleast⟩ := hseen
    obtain ⟨pick', htake, hconsidered⟩ := Option.bind_eq_some_iff.mp hstep
    obtain rfl := Option.some.inj hconsidered
    refine ⟨fun found hfound => ?_, fun quant' hquant' other hother => ?_⟩
    · obtain rfl | hbefore := consider_eq_some hfound
      · exact ⟨quant, List.mem_append_right _ (List.mem_singleton_self quant), htake⟩
      · obtain ⟨quant', hquant', htake'⟩ := hfrom found hbefore
        exact ⟨quant', List.mem_append_left _ hquant', htake'⟩
    · obtain ⟨found, hfound⟩ := Loop.exists_consider
        (fun pick current : QuantPick => decide (pick.footprintGb < current.footprintGb)) best pick'
      refine ⟨found, hfound, ?_⟩
      have hnew : found.footprintGb ≤ pick'.footprintGb := by
        obtain ⟨rfl, -⟩ | ⟨-, hbeats⟩ := consider_beats hfound
        · exact le_rfl
        · exact not_lt.mp (of_decide_eq_false hbeats)
      obtain hquant' | hquant' := List.mem_append.mp hquant'
      · obtain ⟨current, hcurrent, hle⟩ := hleast quant' hquant' other hother
        obtain ⟨rfl, hbeats⟩ | ⟨hkept, -⟩ := consider_beats hfound
        · exact (le_of_lt (of_decide_eq_true (hbeats current hcurrent))).trans hle
        · rw [hcurrent, Option.some.injEq] at hkept
          exact hkept ▸ hle
      · rw [List.mem_singleton.mp hquant', htake, Option.some.injEq] at hother
        exact hother ▸ hnew

theorem quantByLabel_some {label : String} (h : quantByLabel model label policy = some pick) :
    Offers policy model pick := by
  obtain ⟨quant, hfind, htake⟩ := Option.bind_eq_some_iff.mp h
  exact ⟨quant, List.mem_of_find?_eq_some hfind, htake⟩

end Models

section Choices

variable {catalog : Catalog} {host : HostFacts} {policy : RecommenderPolicy}
  {budget : BudgetBreakdown} {resident : Option ResidentChoice} {capability : Capability}
  {remaining : ℚ}

/-- The host can run a model with this identifier, and this is the memory that one of its
quantisations takes. -/
def Hosted (catalog : Catalog) (host : HostFacts) (policy : RecommenderPolicy) (id : String)
    (footprintGb : ℚ) : Prop :=
  ∃ model ∈ catalog.catalog, model.id = id ∧ model.minRamGb ≤ host.ramGb ∧
    ∃ pick, Offers policy model pick ∧ pick.footprintGb = footprintGb

def Catalog.UniqueIds (catalog : Catalog) : Prop := (catalog.catalog.map CatalogModel.id).Nodup

instance (catalog : Catalog) : Decidable catalog.UniqueIds :=
  inferInstanceAs (Decidable (List.Nodup _))

theorem Catalog.UniqueIds.eq {model other : CatalogModel} (h : catalog.UniqueIds)
    (hmodel : model ∈ catalog.catalog) (hother : other ∈ catalog.catalog)
    (hid : model.id = other.id) : model = other :=
  List.inj_on_of_nodup_map h hmodel hother hid

theorem Hosted.nonneg (hcatalog : ∀ model ∈ catalog.catalog, model.NonNegative) {id : String}
    {footprintGb : ℚ} (h : Hosted catalog host policy id footprintGb) : 0 ≤ footprintGb := by
  obtain ⟨model, hmodel, -, -, pick, hpick, rfl⟩ := h
  exact footprint_nonneg (hcatalog model hmodel) hpick

theorem minRam_of_eligible {model : CatalogModel} {role : CatalogRole} {ramGb : ℚ}
    (h : modelIsEligible model role (some ramGb) = true) : model.minRamGb ≤ ramGb := by
  simp only [modelIsEligible, Policy.isRoleMetadataEligible, Policy.isCatalogMetadataEligible,
    Bool.and_eq_true] at h
  have hmetadata := h.1.2
  split at hmetadata
  · cases hmetadata
  · simp only [Policy.F64.gt, Bool.not_eq_eq_eq_not, Bool.not_true, Bool.or_eq_false_iff,
      decide_eq_false_iff_not, not_lt] at hmetadata
    exact hmetadata.2

/-- The resident is a model of the catalogue that the host can run, within the budget. -/
theorem chooseResident_some (hunique : catalog.UniqueIds) {choice : ResidentChoice}
    (h : chooseResident catalog host policy budget = some choice) :
    Hosted catalog host policy choice.id choice.footprintGb ∧
      choice.footprintGb ≤ budget.residentBudgetGb := by
  have hcandidate : ∀ id ∈ roleCandidates catalog ⟨.daily, rfl⟩ none (some host.ramGb),
      ∀ model, catalog.catalog.find? (·.id = id) = some model → model.minRamGb ≤ host.ramGb := by
    intro id hid model hfind
    obtain ⟨candidate, hcandidate, rfl⟩ := List.mem_map.mp hid
    obtain ⟨hin, heligible⟩ := List.mem_filter.mp (List.mem_filter.mp hcandidate).1
    have hsame : model.id = candidate.id := by simpa using List.find?_some hfind
    rw [hunique.eq (List.mem_of_find?_eq_some hfind) hin hsame]
    exact minRam_of_eligible heligible
  refine foldl_keeps (fun best => ∀ choice, best = some choice →
    Hosted catalog host policy choice.id choice.footprintGb ∧
      choice.footprintGb ≤ budget.residentBudgetGb) (fun _ hnone => (by cases hnone))
    (fun id hid best hbest choice hchoice => ?_) choice h
  split at hchoice
  · exact hbest choice hchoice
  · rename_i model hfind
    split at hchoice
    · exact hbest choice hchoice
    · rename_i pick hpick
      obtain ⟨hoffers, hle⟩ := pickQuant_some hpick
      obtain rfl | hbefore := consider_eq_some hchoice
      · exact ⟨⟨model, List.mem_of_find?_eq_some hfind, rfl, hcandidate id hid model hfind, pick,
          hoffers, rfl⟩, hle⟩
      · exact hbest choice hbefore

theorem forcedPick_some {model : CatalogModel} {label : Option String} {residentBudget : ℚ}
    {pick : QuantPick} (h : forcedPick model label residentBudget policy = some pick) :
    Offers policy model pick := by
  rw [forcedPick, Option.or_eq_some_iff, Option.or_eq_some_iff] at h
  obtain (hlabel | ⟨-, hbest⟩) | ⟨-, hlowest⟩ := h
  · obtain ⟨label, -, hquant⟩ := Option.bind_eq_some_iff.mp hlabel
    exact quantByLabel_some hquant
  · exact (pickQuant_some hbest).1
  · exact (lowestFootprintPick_some hlowest).1

/-- With an allocation, a forced model is active only if it fits and the host can run it. -/
theorem applyCoreOverride_resident (catalog : Catalog) (host : HostFacts)
    (policy : RecommenderPolicy) (forced : Option String) (current : Option ResidentChoice)
    (hallocated : budget.allocatedBudgetBytes.isSome = true) :
    (applyCoreOverride catalog host policy forced current budget).resident = current ∨
      ∃ choice, applyCoreOverride catalog host policy forced current budget =
          ⟨some choice, some ⟨choice.id, true⟩⟩ ∧
        Hosted catalog host policy choice.id choice.footprintGb ∧
        choice.footprintGb ≤ budget.usableGb := by
  unfold applyCoreOverride
  split
  · exact .inl rfl
  · split
    split
    · exact .inl rfl
    · rename_i model hfind
      split
      · exact .inl rfl
      · rename_i pick hpick
        split
        · exact .inl rfl
        · rename_i hfits
          simp only [hallocated, Bool.true_and, Bool.or_eq_true, decide_eq_true_eq, not_or,
            not_lt] at hfits
          exact .inr ⟨_, rfl, ⟨model, List.mem_of_find?_eq_some hfind, rfl, hfits.2, pick,
            forcedPick_some hpick, rfl⟩, hfits.1⟩

theorem minRam_of_isEligible {model : CatalogModel} (h : isEligible model host resident = true) :
    model.minRamGb ≤ host.ramGb := by
  simp only [isEligible, Bool.and_eq_true, decide_eq_true_eq] at h
  exact h.1.2

theorem bestModelForCapability_some {model : CatalogModel}
    (h : bestModelForCapability catalog host resident capability = some model) :
    model ∈ catalog.catalog ∧ isEligible model host resident = true := by
  refine foldl_keeps (fun best : Option CatalogModel × ℚ => ∀ model, best.1 = some model →
    model ∈ catalog.catalog ∧ isEligible model host resident = true)
    (fun _ hnone => (by cases hnone)) (fun candidate hcandidate best hbest model hmodel => ?_) model h
  split at hmodel
  · rename_i heligible
    dsimp only at hmodel
    split at hmodel
    · obtain rfl := Option.some.inj hmodel
      exact ⟨hcandidate, heligible⟩
    · exact hbest model hmodel
  · exact hbest model hmodel

/-- An alternative fits what remains. -/
def TempAlternative.Fits (catalog : Catalog) (host : HostFacts) (policy : RecommenderPolicy)
    (remaining : ℚ) (alternative : TempAlternative) : Prop :=
  Hosted catalog host policy alternative.id alternative.quant.footprintGb ∧
    alternative.quant.footprintGb ≤ remaining

theorem degradedAlternative_fits {best : CatalogModel} {alternative : TempAlternative}
    (h : degradedAlternative catalog host policy resident capability best remaining =
      some alternative) : alternative.Fits catalog host policy remaining := by
  obtain ⟨found, hfound, rfl⟩ := Option.map_eq_some_iff.mp h
  refine foldl_keeps (fun known : Option (ℚ × CatalogModel × QuantPick) => ∀ found,
    known = some found → Hosted catalog host policy found.2.1.id found.2.2.footprintGb ∧
      found.2.2.footprintGb ≤ remaining)
    (fun _ hnone => (by cases hnone)) (fun model hmodel known hknown found hfound => ?_) found hfound
  split at hfound
  · exact hknown found hfound
  · rename_i heligible
    simp only [Bool.or_eq_true, Bool.not_eq_eq_eq_not, not_or, Bool.not_true,
      Bool.not_eq_false] at heligible
    dsimp only at hfound
    split at hfound
    · exact hknown found hfound
    · split at hfound
      · rename_i pick hpick
        obtain rfl := Option.some.inj hfound
        obtain ⟨hoffers, hle⟩ := pickQuant_some hpick
        exact ⟨⟨model, hmodel, rfl, minRam_of_isEligible heligible.2, pick, hoffers, rfl⟩, hle⟩
      · exact hknown found hfound

end Choices

end Recommender
