import IDoris.Recommender.Allocation

/-!
# The resident is the best choice

Two nested passes keep the best so far: over the quantisations of a model, and over the models.
What they end with is best of all, and a larger allocation only adds to what there is to choose from.
-/
namespace Recommender

open Loop (best Ranks best_isSome_iff best_spec foldlM_eq_some foldlM_eq_none)

theorem ranks_quant : Ranks QuantPick.beats where
  irrefl a := by simp [QuantPick.beats]
  trans a b c hab hbc := by
    simp only [QuantPick.beats, Bool.or_eq_true, Bool.and_eq_true, decide_eq_true_eq] at hab hbc ⊢
    grind

theorem ranks_resident : Ranks ResidentChoice.beats where
  irrefl a := by simp [ResidentChoice.beats]
  trans a b c hab hbc := by
    simp only [ResidentChoice.beats, Bool.or_eq_true, Bool.and_eq_true, decide_eq_true_eq] at hab hbc ⊢
    grind

section Quant

variable {policy : RecommenderPolicy} {model : CatalogModel} {pick other : QuantPick}
  {budgetGb minQuality : ℚ}

/-- The size of every quantisation of this quality is known. -/
def Sized (policy : RecommenderPolicy) (minQuality : ℚ) (model : CatalogModel) : Prop :=
  ∀ quant ∈ model.quantOptions, minQuality ≤ quant.quality → ∃ pick, toPick quant model policy = some pick

/-- A quantisation of the model, good enough and within the budget. -/
structure Fits (policy : RecommenderPolicy) (budgetGb minQuality : ℚ) (model : CatalogModel)
    (pick : QuantPick) : Prop where
  offers : Offers policy model pick
  quality : minQuality ≤ pick.quality
  footprint : pick.footprintGb ≤ budgetGb

/-- The pick of one quantisation, if it is good enough and fits. -/
def fittingPick (model : CatalogModel) (budgetGb : ℚ) (policy : RecommenderPolicy)
    (minQuality : ℚ) (quant : CatalogQuant) : Option QuantPick :=
  if quant.quality < minQuality then none
  else (toPick quant model policy).filter fun pick => pick.footprintGb ≤ budgetGb

theorem toPick_quality {quant : CatalogQuant} (h : toPick quant model policy = some pick) :
    pick.quality = quant.quality := by
  obtain ⟨weights, -, hmade⟩ := Option.bind_eq_some_iff.mp h
  exact Option.some.inj hmade ▸ rfl

theorem mem_fitting : pick ∈ model.quantOptions.filterMap (fittingPick model budgetGb policy minQuality) ↔
    Fits policy budgetGb minQuality model pick := by
  simp only [List.mem_filterMap, fittingPick]
  constructor
  · rintro ⟨quant, hquant, hpick⟩
    split at hpick
    · cases hpick
    · next hquality =>
      obtain ⟨htake, hfits⟩ := Option.filter_eq_some_iff.mp hpick
      refine ⟨⟨quant, hquant, htake⟩, ?_, of_decide_eq_true hfits⟩
      rw [toPick_quality htake]
      exact not_lt.mp hquality
  · rintro ⟨⟨quant, hquant, htake⟩, hquality, hfits⟩
    refine ⟨quant, hquant, ?_⟩
    rw [toPick_quality htake] at hquality
    rw [if_neg (not_lt.mpr hquality), Option.filter_eq_some_iff]
    exact ⟨htake, decide_eq_true hfits⟩

theorem pickQuant_of_sized (h : Sized policy minQuality model) :
    pickQuant model budgetGb policy minQuality = best QuantPick.beats
      (model.quantOptions.filterMap (fittingPick model budgetGb policy minQuality)) := by
  have hloop := @foldlM_eq_some _ _ (none : Option QuantPick) model.quantOptions
    (fun best quant =>
      if quant.quality < minQuality then some best
      else do
        let pick ← toPick quant model policy
        if budgetGb < pick.footprintGb then return best
        else return Loop.consider QuantPick.beats best pick)
    (fun best quant =>
      ((fittingPick model budgetGb policy minQuality quant).map
        (Loop.consider QuantPick.beats best)).getD best) ?_
  · rw [pickQuant, hloop, best, List.foldl_filterMap]
    simp only [Option.bind_eq_bind, Option.bind_some]
    congr 1
    funext current quant
    cases fittingPick model budgetGb policy minQuality quant <;> rfl
  · intro quant hquant current
    unfold fittingPick
    split
    · rfl
    · next hquality =>
      obtain ⟨pick, hpick⟩ := h quant hquant (not_lt.mp hquality)
      rw [hpick]
      by_cases hfits : budgetGb < pick.footprintGb
      · simp [hfits, not_le.mpr hfits, Option.filter_some]
      · simp [hfits, not_lt.mp hfits, Option.filter_some]

theorem pickQuant_of_unsized (h : ¬Sized policy minQuality model) :
    pickQuant model budgetGb policy minQuality = none := by
  simp only [Sized, not_forall] at h
  obtain ⟨quant, hquant, hquality, hunknown⟩ := h
  have hnone : toPick quant model policy = none := by
    cases htake : toPick quant model policy with
    | none => rfl
    | some pick => exact absurd ⟨pick, htake⟩ hunknown
  rw [pickQuant, foldlM_eq_none hquant]
  · rfl
  · intro current
    rw [if_neg (not_lt.mpr hquality), hnone]
    rfl

/-- A model has a pick exactly when its sizes are known and one of its quantisations fits. -/
theorem pickQuant_isSome_iff : (pickQuant model budgetGb policy minQuality).isSome = true ↔
    Sized policy minQuality model ∧ ∃ pick, Fits policy budgetGb minQuality model pick := by
  by_cases hsized : Sized policy minQuality model
  · rw [pickQuant_of_sized hsized, best_isSome_iff]
    constructor
    · intro hne
      obtain ⟨pick, hpick⟩ := List.exists_mem_of_ne_nil _ hne
      exact ⟨hsized, pick, mem_fitting.mp hpick⟩
    · rintro ⟨-, pick, hpick⟩
      exact List.ne_nil_of_mem (mem_fitting.mpr hpick)
  · simp [pickQuant_of_unsized hsized, hsized]

/-- The pick fits, and no other that fits is better, or as good and smaller. -/
theorem pickQuant_best (h : pickQuant model budgetGb policy minQuality = some pick) :
    Sized policy minQuality model ∧ Fits policy budgetGb minQuality model pick ∧
      ∀ other, Fits policy budgetGb minQuality model other → other.beats pick = false := by
  have hsized := (pickQuant_isSome_iff.mp (Option.isSome_iff_exists.mpr ⟨pick, h⟩)).1
  rw [pickQuant_of_sized hsized] at h
  obtain ⟨hmem, hbest⟩ := best_spec ranks_quant h
  exact ⟨hsized, mem_fitting.mp hmem, fun other hother => hbest other (mem_fitting.mpr hother)⟩

end Quant

section Resident

variable {catalog : Catalog} {host : HostFacts} {policy : RecommenderPolicy} {budgetGb : ℚ}
  {budget : BudgetBreakdown} {model : CatalogModel} {pick : QuantPick} {choice : ResidentChoice}

def dailyEligible (host : HostFacts) (model : CatalogModel) : Bool :=
  modelIsEligible model ⟨.daily, Eq.refl true⟩ (some host.ramGb)

/-- What the choice is between: eligible models with their quantisations. -/
structure Candidate (catalog : Catalog) (host : HostFacts) (policy : RecommenderPolicy)
    (budgetGb : ℚ) (model : CatalogModel) (pick : QuantPick) : Prop where
  mem : model ∈ catalog.catalog
  eligible : dailyEligible host model = true
  sized : Sized policy policy.qualityThreshold model
  fits : Fits policy budgetGb policy.qualityThreshold model pick

def score (model : CatalogModel) (pick : QuantPick) : ℚ :=
  model.capabilityScore (capabilityKey .reasoning) * pick.quality

def residentOf (policy : RecommenderPolicy) (model : CatalogModel) (pick : QuantPick) :
    ResidentChoice :=
  .fromPick model.id policy.contextTarget (score model pick) pick

/-- The choice of one identifier. -/
def residentCandidate (catalog : Catalog) (policy : RecommenderPolicy) (budgetGb : ℚ) (id : String) :
    Option ResidentChoice :=
  (catalog.catalog.find? (·.id = id)).bind fun model =>
    (pickQuant model budgetGb policy policy.qualityThreshold).map (residentOf policy model)

theorem chooseResident_eq : chooseResident catalog host policy budget =
    best ResidentChoice.beats ((roleCandidates catalog ⟨.daily, rfl⟩ none (some host.ramGb)).filterMap
      (residentCandidate catalog policy budget.residentBudgetGb)) := by
  rw [chooseResident, best, List.foldl_filterMap]
  congr 1
  funext current id
  unfold residentCandidate
  cases catalog.catalog.find? (·.id = id) with
  | none => rfl
  | some model =>
    simp only [Option.bind_some]
    cases pickQuant model budget.residentBudgetGb policy policy.qualityThreshold <;> rfl

theorem find_model (hunique : catalog.UniqueIds) (h : model ∈ catalog.catalog) :
    catalog.catalog.find? (·.id = model.id) = some model := by
  have hsome : (catalog.catalog.find? (·.id = model.id)).isSome = true :=
    List.find?_isSome.mpr ⟨model, h, decide_eq_true rfl⟩
  obtain ⟨found, hfound⟩ := Option.isSome_iff_exists.mp hsome
  have hid : found.id = model.id := by simpa using List.find?_some hfound
  rw [hfound, hunique.eq (List.mem_of_find?_eq_some hfound) h hid]

theorem mem_candidates (hunique : catalog.UniqueIds) :
    choice ∈ (roleCandidates catalog ⟨.daily, rfl⟩ none (some host.ramGb)).filterMap
      (residentCandidate catalog policy budgetGb) ↔
    ∃ model ∈ catalog.catalog, dailyEligible host model = true ∧
      ∃ pick, pickQuant model budgetGb policy policy.qualityThreshold = some pick ∧
        residentOf policy model pick = choice := by
  simp only [List.mem_filterMap, roleCandidates, Option.all_none, List.filter_true, List.mem_map,
    List.mem_filter]
  constructor
  · rintro ⟨_, ⟨model, ⟨hmodel, heligible⟩, rfl⟩, hchoice⟩
    rw [residentCandidate, find_model hunique hmodel, Option.bind_some,
      Option.map_eq_some_iff] at hchoice
    exact ⟨model, hmodel, heligible, hchoice⟩
  · rintro ⟨model, hmodel, heligible, hpick⟩
    refine ⟨model.id, ⟨model, ⟨hmodel, heligible⟩, rfl⟩, ?_⟩
    rw [residentCandidate, find_model hunique hmodel, Option.bind_some, Option.map_eq_some_iff]
    exact hpick

/-- There is a resident exactly when there is a candidate. -/
theorem chooseResident_isSome_iff (hunique : catalog.UniqueIds) :
    (chooseResident catalog host policy budget).isSome = true ↔
      ∃ model pick, Candidate catalog host policy budget.residentBudgetGb model pick := by
  rw [chooseResident_eq, best_isSome_iff]
  constructor
  · intro hne
    obtain ⟨choice, hchoice⟩ := List.exists_mem_of_ne_nil _ hne
    obtain ⟨model, hmodel, heligible, pick, hpick, -⟩ := (mem_candidates hunique).mp hchoice
    obtain ⟨hsized, hfits, -⟩ := pickQuant_best hpick
    exact ⟨model, pick, hmodel, heligible, hsized, hfits⟩
  · rintro ⟨model, pick, hcandidate⟩
    obtain ⟨found, hfound⟩ := Option.isSome_iff_exists.mp
      (pickQuant_isSome_iff.mpr ⟨hcandidate.sized, pick, hcandidate.fits⟩)
    exact List.ne_nil_of_mem ((mem_candidates hunique).mpr
      ⟨model, hcandidate.mem, hcandidate.eligible, found, hfound, rfl⟩)

/-- No capability score of the catalogue is negative. -/
def Catalog.Scored (catalog : Catalog) : Prop :=
  ∀ model ∈ catalog.catalog, ∀ scores, model.capability = some scores → ∀ entry ∈ scores, 0 ≤ entry.2

theorem Catalog.Scored.nonneg (h : catalog.Scored) (hmodel : model ∈ catalog.catalog)
    (key : String) : 0 ≤ model.capabilityScore key := by
  unfold CatalogModel.capabilityScore
  cases hcapability : model.capability with
  | none => exact le_rfl
  | some scores =>
    rw [Option.bind_some]
    cases hlookup : scores.lookup key with
    | none => exact le_rfl
    | some value =>
      obtain ⟨front, back, hscores, -⟩ := List.lookup_eq_some_iff.mp hlookup
      exact h model hmodel scores hcapability (key, value) (hscores ▸ by simp)

/-- The model's best quantisation among those that fit. -/
structure BestPick (catalog : Catalog) (host : HostFacts) (policy : RecommenderPolicy)
    (budgetGb : ℚ) (model : CatalogModel) (pick : QuantPick) : Prop where
  candidate : Candidate catalog host policy budgetGb model pick
  best : ∀ other, Candidate catalog host policy budgetGb model other → other.beats pick = false

theorem quality_le_of_not_beats {pick other : QuantPick} (h : other.beats pick = false) :
    other.quality ≤ pick.quality ∧
      (other.quality = pick.quality → pick.footprintGb ≤ other.footprintGb) := by
  simp only [QuantPick.beats, Bool.or_eq_false_iff, Bool.and_eq_false_iff, decide_eq_false_iff_not,
    not_lt] at h
  exact ⟨h.1, fun heq => h.2.resolve_left fun hne => hne heq⟩

theorem score_le_of_not_beats {choice current : ResidentChoice} (h : choice.beats current = false) :
    choice.score ≤ current.score ∧
      (choice.score = current.score → current.footprintGb ≤ choice.footprintGb) := by
  simp only [ResidentChoice.beats, Bool.or_eq_false_iff, Bool.and_eq_false_iff,
    decide_eq_false_iff_not, not_lt] at h
  exact ⟨h.1, fun heq => h.2.resolve_left fun hne => hne heq⟩

/-- What holds of the resident: it is a candidate, and none is better. -/
structure Optimal (catalog : Catalog) (host : HostFacts) (policy : RecommenderPolicy)
    (budgetGb : ℚ) (choice : ResidentChoice) : Prop where
  chosen : ∃ model pick, Candidate catalog host policy budgetGb model pick ∧
    residentOf policy model pick = choice
  score : ∀ model pick, Candidate catalog host policy budgetGb model pick →
    score model pick ≤ choice.score
  footprint : ∀ model pick, BestPick catalog host policy budgetGb model pick →
    Recommender.score model pick = choice.score → choice.footprintGb ≤ pick.footprintGb

theorem chooseResident_optimal (hunique : catalog.UniqueIds) (hscored : catalog.Scored)
    (h : chooseResident catalog host policy budget = some choice) :
    Optimal catalog host policy budget.residentBudgetGb choice := by
  rw [chooseResident_eq] at h
  obtain ⟨hmem, hbest⟩ := best_spec ranks_resident h
  have hagainst : ∀ model pick, Candidate catalog host policy budget.residentBudgetGb model pick →
      ∃ found, pickQuant model budget.residentBudgetGb policy policy.qualityThreshold = some found ∧
        pick.beats found = false ∧ (residentOf policy model found).beats choice = false := by
    intro model pick hcandidate
    obtain ⟨found, hfound⟩ := Option.isSome_iff_exists.mp
      (pickQuant_isSome_iff.mpr ⟨hcandidate.sized, pick, hcandidate.fits⟩)
    exact ⟨found, hfound, (pickQuant_best hfound).2.2 pick hcandidate.fits,
      hbest _ ((mem_candidates hunique).mpr
        ⟨model, hcandidate.mem, hcandidate.eligible, found, hfound, rfl⟩)⟩
  constructor
  · obtain ⟨model, hmodel, heligible, pick, hpick, hchoice⟩ := (mem_candidates hunique).mp hmem
    obtain ⟨hsized, hfits, -⟩ := pickQuant_best hpick
    exact ⟨model, pick, ⟨hmodel, heligible, hsized, hfits⟩, hchoice⟩
  · intro model pick hcandidate
    obtain ⟨found, -, hpick, hchoice⟩ := hagainst model pick hcandidate
    have hquality := (quality_le_of_not_beats hpick).1
    calc score model pick ≤ score model found :=
          mul_le_mul_of_nonneg_left hquality (hscored.nonneg hcandidate.mem _)
      _ ≤ choice.score := (score_le_of_not_beats hchoice).1
  · intro model pick hbestPick hscore
    obtain ⟨found, hfound, hpick, hchoice⟩ := hagainst model pick hbestPick.candidate
    obtain ⟨hsized, hfits, -⟩ := pickQuant_best hfound
    have hother := hbestPick.best found
      ⟨hbestPick.candidate.mem, hbestPick.candidate.eligible, hsized, hfits⟩
    have hquality : found.quality = pick.quality :=
      le_antisymm (quality_le_of_not_beats hother).1 (quality_le_of_not_beats hpick).1
    have hsame : score model found = choice.score := by
      rw [← hscore, score, score, hquality]
    exact ((score_le_of_not_beats hchoice).2 hsame).trans
      ((quality_le_of_not_beats hpick).2 hquality.symm)

end Resident

section Allocation

variable {catalog : Catalog} {host : HostFacts} {policy : RecommenderPolicy} {a b : Nat}
  {model : CatalogModel} {pick : QuantPick}

theorem usable_mono (hab : a ≤ b) : (budgetBreakdown host policy (some a)).usableGb ≤
    (budgetBreakdown host policy (some b)).usableGb := by
  simp only [budgetBreakdown]
  exact div_le_div_of_nonneg_right (Nat.cast_le.mpr hab) (by norm_num)

theorem residentBudget_mono (hab : a ≤ b) :
    (budgetBreakdown host policy (some a)).residentBudgetGb ≤
      (budgetBreakdown host policy (some b)).residentBudgetGb := by
  have husable : (budgetBreakdown host policy (some a)).usableGb ≤
      (budgetBreakdown host policy (some b)).usableGb := usable_mono hab
  simp only [budgetBreakdown] at husable ⊢
  linarith

theorem Candidate.mono {budgetGb larger : ℚ} (h : Candidate catalog host policy budgetGb model pick)
    (hle : budgetGb ≤ larger) : Candidate catalog host policy larger model pick :=
  ⟨h.mem, h.eligible, h.sized, h.fits.offers, h.fits.quality, h.fits.footprint.trans hle⟩

/-- A larger allocation chooses a resident of at least the same score. -/
theorem chooseResident_mono (hunique : catalog.UniqueIds) (hscored : catalog.Scored) (hab : a ≤ b)
    {choice : ResidentChoice}
    (h : chooseResident catalog host policy (budgetBreakdown host policy (some a)) = some choice) :
    ∃ choice', chooseResident catalog host policy (budgetBreakdown host policy (some b)) =
      some choice' ∧ choice.score ≤ choice'.score := by
  obtain ⟨model, pick, hcandidate, rfl⟩ := (chooseResident_optimal hunique hscored h).chosen
  have hlarger := hcandidate.mono (residentBudget_mono hab)
  obtain ⟨choice', hchoice'⟩ := Option.isSome_iff_exists.mp
    ((chooseResident_isSome_iff hunique).mpr ⟨model, pick, hlarger⟩)
  exact ⟨choice', hchoice', (chooseResident_optimal hunique hscored hchoice').score model pick hlarger⟩

/-- A model without a quantisation of known size is an error for every allocation alike. -/
theorem blockedChoice_error_iff {budget : BudgetBreakdown}
    (hallocated : budget.allocatedBudgetBytes.isSome = true) :
    (∃ err, blockedChoice host policy budget model = .error err) ↔
      lowestFootprintPick model policy = none := by
  have hsome : budget.allocatedBudgetBytes.isNone = false := by
    rw [← Option.not_isSome, hallocated]
    rfl
  rw [blockedChoice, hsome]
  simp only [Bool.and_false, Bool.false_eq_true, if_false]
  cases lowestFootprintPick model policy with
  | none => simp
  | some pick =>
    simp only [reduceCtorEq, iff_false, not_exists]
    intro err
    split <;> rintro ⟨⟩

/-- A larger allocation blocks no more models. -/
theorem blockedChoices_mono (hab : a ≤ b) {blocked : List BlockedChoice}
    (h : blockedChoices catalog host policy (budgetBreakdown host policy (some a)) = .ok blocked) :
    ∃ blocked', blockedChoices catalog host policy (budgetBreakdown host policy (some b)) =
      .ok blocked' ∧ ∀ entry ∈ blocked', entry.id ∈ blocked.map BlockedChoice.id := by
  have hsized : ∀ model ∈ catalog.catalog, lowestFootprintPick model policy ≠ none := by
    refine Loop.foldlM_seen (.except RecommendError)
      (fun seen _ => ∀ model ∈ seen, lowestFootprintPick model policy ≠ none) nofun ?_ h
    intro seen model current next hseen hstep
    obtain ⟨result, hresult, -⟩ := (Loop.Outcome.except RecommendError).of_bind hstep
    refine List.forall_mem_append.mpr ⟨hseen, List.forall_mem_singleton.mpr fun hnone => ?_⟩
    obtain ⟨err, herr⟩ : ∃ err,
        blockedChoice host policy (budgetBreakdown host policy (some a)) model = .error err :=
      (blockedChoice_error_iff rfl).mpr hnone
    exact nomatch herr.symm.trans hresult
  obtain ⟨blocked', hblocked'⟩ : ∃ blocked',
      blockedChoices catalog host policy (budgetBreakdown host policy (some b)) = .ok blocked' := by
    apply Loop.foldlM_ok
    intro model hmodel current
    cases hchoice : blockedChoice host policy (budgetBreakdown host policy (some b)) model with
    | error err => exact absurd ((blockedChoice_error_iff rfl).mp ⟨err, hchoice⟩) (hsized model hmodel)
    | ok result => cases result <;> exact ⟨_, rfl⟩
  refine ⟨blocked', hblocked', fun entry hentry => ?_⟩
  obtain ⟨model, hmodel, hid, hunfit⟩ := (blockedChoices_ok rfl hblocked').1.sound entry hentry
  rw [← hid]
  apply (blockedChoices_ok rfl h).1.complete model hmodel
  exact hunfit.imp id fun hlarge pick hpick => (usable_mono hab).trans_lt (hlarge pick hpick)

/-- The resident is the best candidate, and a larger allocation makes nothing worse. -/
theorem resident_optimal (hunique : catalog.UniqueIds) (hscored : catalog.Scored) :
    (∀ allocated : Option Nat,
      ((chooseResident catalog host policy (budgetBreakdown host policy allocated)).isSome = true ↔
        ∃ model pick, Candidate catalog host policy
          (budgetBreakdown host policy allocated).residentBudgetGb model pick) ∧
      ∀ choice, chooseResident catalog host policy (budgetBreakdown host policy allocated) =
        some choice → Optimal catalog host policy
          (budgetBreakdown host policy allocated).residentBudgetGb choice) ∧
    ∀ a b : Nat, a ≤ b →
      (∀ blocked, blockedChoices catalog host policy (budgetBreakdown host policy (some a)) =
        .ok blocked → ∃ blocked',
          blockedChoices catalog host policy (budgetBreakdown host policy (some b)) = .ok blocked' ∧
          ∀ entry ∈ blocked', entry.id ∈ blocked.map BlockedChoice.id) ∧
      ∀ choice, chooseResident catalog host policy (budgetBreakdown host policy (some a)) =
        some choice → ∃ choice',
          chooseResident catalog host policy (budgetBreakdown host policy (some b)) =
            some choice' ∧ choice.score ≤ choice'.score := by
  constructor
  · intro allocated
    exact ⟨chooseResident_isSome_iff hunique,
      fun choice hchoice => chooseResident_optimal hunique hscored hchoice⟩
  · intro a b hab
    exact ⟨fun blocked hblocked => blockedChoices_mono hab hblocked,
      fun choice hchoice => chooseResident_mono hunique hscored hab hchoice⟩

end Allocation

section Sample

theorem sampleCatalog_scored : sampleCatalog.Scored := by
  simp only [Catalog.Scored, sampleCatalog, sampleModel, List.forall_mem_cons, List.not_mem_nil,
    false_implies, implies_true, and_true, Option.some.injEq, forall_eq']
  norm_num

/-- Nine gigabytes and fourteen: a stronger model becomes the resident, and one model is no
longer blocked. -/
theorem resident_optimal_small :
    (∃ choice choice', chooseResident sampleCatalog ⟨16⟩ .default
        (budgetBreakdown ⟨16⟩ .default (some 9000000000)) = some choice ∧
      chooseResident sampleCatalog ⟨16⟩ .default
        (budgetBreakdown ⟨16⟩ .default (some 14000000000)) = some choice' ∧
      choice.id = "small" ∧ choice'.id = "strong" ∧ choice.score ≤ choice'.score) ∧
    ∃ blocked blocked', blockedChoices sampleCatalog ⟨16⟩ .default
        (budgetBreakdown ⟨16⟩ .default (some 9000000000)) = .ok blocked ∧
      blockedChoices sampleCatalog ⟨16⟩ .default
        (budgetBreakdown ⟨16⟩ .default (some 14000000000)) = .ok blocked' ∧
      blocked.map BlockedChoice.id = ["huge", "coder"] ∧ blocked'.map BlockedChoice.id = ["huge"] ∧
      ∀ entry ∈ blocked', entry.id ∈ blocked.map BlockedChoice.id := by
  have hfirst : (chooseResident sampleCatalog ⟨16⟩ .default
      (budgetBreakdown ⟨16⟩ .default (some 9000000000))).map ResidentChoice.id = some "small" := by
    decide +kernel
  have hlater : (chooseResident sampleCatalog ⟨16⟩ .default
      (budgetBreakdown ⟨16⟩ .default (some 14000000000))).map ResidentChoice.id = some "strong" := by
    decide +kernel
  have hblocks : (blockedChoices sampleCatalog ⟨16⟩ .default
      (budgetBreakdown ⟨16⟩ .default (some 9000000000))).toOption.map
        (List.map BlockedChoice.id) = some ["huge", "coder"] := by decide +kernel
  have hfewer : (blockedChoices sampleCatalog ⟨16⟩ .default
      (budgetBreakdown ⟨16⟩ .default (some 14000000000))).toOption.map
        (List.map BlockedChoice.id) = some ["huge"] := by decide +kernel
  obtain ⟨hmono, hresident⟩ := (@resident_optimal sampleCatalog ⟨16⟩ .default (by decide)
    sampleCatalog_scored).2 9000000000 14000000000 (by decide)
  constructor
  · obtain ⟨choice, hchoice, hid⟩ := Option.map_eq_some_iff.mp hfirst
    obtain ⟨choice', hchoice', hle⟩ := hresident choice hchoice
    rw [hchoice'] at hlater
    exact ⟨choice, choice', hchoice, hchoice', hid, Option.some.inj hlater, hle⟩
  · cases hblocked : blockedChoices sampleCatalog ⟨16⟩ .default
        (budgetBreakdown ⟨16⟩ .default (some 9000000000)) with
    | error e =>
      rw [hblocked] at hblocks
      cases hblocks
    | ok blocked =>
      obtain ⟨blocked', hblocked', hless⟩ := hmono blocked hblocked
      rw [hblocked] at hblocks
      rw [hblocked'] at hfewer
      exact ⟨blocked, blocked', rfl, hblocked', Option.some.inj hblocks, Option.some.inj hfewer,
        hless⟩

/-- A model with two quantisations, the size of one of which is not given. -/
def halfSized : CatalogModel :=
  { sampleModel "half" 3 [("reasoning", 1)] with
    quantOptions := [⟨"q8_0", none, some 3, 1⟩, ⟨"q4_0", none, none, 1⟩] }

/-- One size that is not given takes the whole model out of the choice. -/
theorem no_resident_halfSized :
    (Catalog.mk [halfSized]).UniqueIds ∧ (Catalog.mk [halfSized]).Scored ∧
      dailyEligible ⟨16⟩ halfSized = true ∧
      (∃ pick, Fits .default (budgetBreakdown ⟨16⟩ .default none).residentBudgetGb
        RecommenderPolicy.default.qualityThreshold halfSized pick) ∧
      chooseResident ⟨[halfSized]⟩ ⟨16⟩ .default (budgetBreakdown ⟨16⟩ .default none) = none := by
  refine ⟨by decide, ?_, by decide +kernel, ⟨⟨"q8_0", 1, 3, 0, 4⟩, ?_, ?_, ?_⟩, by decide +kernel⟩
  · intro model hmodel scores hscores entry hentry
    rw [List.mem_singleton.mp hmodel] at hscores
    rw [← Option.some.inj hscores, List.mem_singleton] at hentry
    rw [hentry]
    norm_num
  · exact ⟨⟨"q8_0", none, some 3, 1⟩, List.mem_cons_self, by decide +kernel⟩
  · decide +kernel
  · decide +kernel

end Sample

end Recommender
