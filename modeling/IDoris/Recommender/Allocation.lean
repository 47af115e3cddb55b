import IDoris.Recommender.Picks

/-!
# Recommendations within an allocation

With an allocation no pass goes beyond it: the resident, the models beside it and those that need
its eviction fit, and exactly the others are blocked.
-/
namespace Recommender

open Policy (Capability)
open Loop (foldl_keeps foldlM_seen)

section Blocked

variable {catalog : Catalog} {host : HostFacts} {policy : RecommenderPolicy}
  {budget : BudgetBreakdown} {model : CatalogModel} {usableGb : ℚ}

/-- The host has too little memory for the model, or every quantisation takes too much. -/
def Unfit (host : HostFacts) (policy : RecommenderPolicy) (usableGb : ℚ) (model : CatalogModel) :
    Prop :=
  host.ramGb < model.minRamGb ∨ ∀ pick, Offers policy model pick → usableGb < pick.footprintGb

theorem blockedChoice_ok {result : Option BlockedChoice}
    (hallocated : budget.allocatedBudgetBytes.isSome = true)
    (h : blockedChoice host policy budget model = .ok result) :
    (∃ choice, result = some choice ∧ choice.id = model.id ∧ choice.degradedAlternatives = [] ∧
      Unfit host policy budget.usableGb model) ∨
      result = none ∧ ¬Unfit host policy budget.usableGb model := by
  have hsome : budget.allocatedBudgetBytes.isNone = false := by
    rw [← Option.not_isSome, hallocated]
    rfl
  rw [blockedChoice, hsome] at h
  simp only [Bool.and_false, Bool.false_eq_true, if_false] at h
  split at h
  · cases h
  · rename_i low hlow
    obtain ⟨hoffers, hleast⟩ := lowestFootprintPick_some hlow
    split at h
    · rename_i hblocked
      obtain rfl := Except.ok.inj h
      refine .inl ⟨_, rfl, rfl, rfl, ?_⟩
      simp only [Bool.or_eq_true, decide_eq_true_eq] at hblocked
      obtain hram | hlarge := hblocked
      · exact .inl hram
      · exact .inr fun pick hpick => hlarge.trans_le (hleast pick hpick)
    · rename_i hfits
      obtain rfl := Except.ok.inj h
      simp only [Bool.or_eq_true, decide_eq_true_eq, not_or, not_lt] at hfits
      refine .inr ⟨rfl, ?_⟩
      rintro (hram | hlarge)
      · exact absurd hram (not_lt.mpr hfits.1)
      · exact absurd (hlarge low hoffers) (not_lt.mpr hfits.2)

/-- Exactly the unfit models are listed, in the order of the catalogue. -/
structure Lists (host : HostFacts) (policy : RecommenderPolicy) (usableGb : ℚ)
    (models : List CatalogModel) (blocked : List BlockedChoice) : Prop where
  ids : (blocked.map BlockedChoice.id).Sublist (models.map CatalogModel.id)
  complete : ∀ model ∈ models, Unfit host policy usableGb model →
    model.id ∈ blocked.map BlockedChoice.id
  sound : ∀ entry ∈ blocked, ∃ model ∈ models, model.id = entry.id ∧ Unfit host policy usableGb model

theorem Lists.skip {models : List CatalogModel} {blocked : List BlockedChoice}
    (h : Lists host policy usableGb models blocked) (hfits : ¬Unfit host policy usableGb model) :
    Lists host policy usableGb (models ++ [model]) blocked where
  ids := by
    rw [List.map_append]
    exact h.ids.trans (List.sublist_append_left _ _)
  complete other hother hunfit := by
    obtain hother | hother := List.mem_append.mp hother
    · exact h.complete other hother hunfit
    · rw [List.mem_singleton.mp hother] at hunfit
      exact absurd hunfit hfits
  sound entry hentry := by
    obtain ⟨other, hother, hid, hunfit⟩ := h.sound entry hentry
    exact ⟨other, List.mem_append_left _ hother, hid, hunfit⟩

theorem Lists.push {models : List CatalogModel} {blocked : List BlockedChoice}
    {choice : BlockedChoice} (h : Lists host policy usableGb models blocked)
    (hid : choice.id = model.id) (hunfit : Unfit host policy usableGb model) :
    Lists host policy usableGb (models ++ [model]) (blocked ++ [choice]) where
  ids := by
    rw [List.map_append, List.map_append, List.map_singleton, List.map_singleton, hid]
    exact h.ids.append (List.Sublist.refl _)
  complete other hother hother' := by
    rw [List.map_append, List.mem_append]
    obtain hother | hother := List.mem_append.mp hother
    · exact .inl (h.complete other hother hother')
    · rw [List.mem_singleton.mp hother, ← hid]
      exact .inr (List.mem_singleton_self _)
  sound entry hentry := by
    obtain hentry | hentry := List.mem_append.mp hentry
    · obtain ⟨other, hother, hsame, hother'⟩ := h.sound entry hentry
      exact ⟨other, List.mem_append_left _ hother, hsame, hother'⟩
    · rw [List.mem_singleton.mp hentry]
      exact ⟨model, List.mem_append_right _ (List.mem_singleton_self model), hid.symm, hunfit⟩

theorem blockedChoices_ok {blocked : List BlockedChoice}
    (hallocated : budget.allocatedBudgetBytes.isSome = true)
    (h : blockedChoices catalog host policy budget = .ok blocked) :
    Lists host policy budget.usableGb catalog.catalog blocked ∧
      ∀ entry ∈ blocked, entry.degradedAlternatives = [] := by
  have hstart : Lists host policy budget.usableGb [] [] ∧
      ∀ entry ∈ ([] : List BlockedChoice), entry.degradedAlternatives = [] :=
    ⟨⟨.slnil, List.forall_mem_nil _, List.forall_mem_nil _⟩, List.forall_mem_nil _⟩
  refine foldlM_seen (.except RecommendError) (fun models blocked =>
    Lists host policy budget.usableGb models blocked ∧
      ∀ entry ∈ blocked, entry.degradedAlternatives = []) hstart
    (fun models model blocked blocked' hlists hstep => ?_) h
  obtain ⟨result, hresult, hpushed⟩ := (Loop.Outcome.except RecommendError).of_bind hstep
  obtain ⟨choice, rfl, hid, hnone, hunfit⟩ | ⟨rfl, hfits⟩ := blockedChoice_ok hallocated hresult
  · obtain rfl := Except.ok.inj hpushed
    exact ⟨hlists.1.push hid hunfit,
      List.forall_mem_append.mpr ⟨hlists.2, List.forall_mem_singleton.mpr hnone⟩⟩
  · obtain rfl := Except.ok.inj hpushed
    exact ⟨hlists.1.skip hfits, hlists.2⟩

end Blocked

section Temp

variable {catalog : Catalog} {host : HostFacts} {policy : RecommenderPolicy}
  {budget : BudgetBreakdown} {resident : Option ResidentChoice} {capability : Capability}

/-- A choice fits what is usable, beside the resident exactly when it is ready, and so does its
alternative. -/
structure TempChoice.Fits (catalog : Catalog) (host : HostFacts) (policy : RecommenderPolicy)
    (usable remaining : ℚ) (choice : TempChoice) : Prop where
  hosted : Hosted catalog host policy choice.id choice.quant.footprintGb
  within : choice.quant.footprintGb ≤ usable
  beside : choice.status = .ready ↔ choice.quant.footprintGb ≤ remaining
  alternative : ∀ alternative ∈ choice.degradedAlternative,
    alternative.Fits catalog host policy remaining

/-- What is known of a capability fits. -/
def Admission.Fits (catalog : Catalog) (host : HostFacts) (policy : RecommenderPolicy)
    (usable remaining : ℚ) : Admission → Prop
  | .skipped => True
  | .chosen choice => choice.Fits catalog host policy usable remaining
  | .tooLarge _ alternative =>
    ∀ found ∈ alternative, TempAlternative.Fits catalog host policy remaining found

theorem admission_fits (hallocated : budget.allocatedBudgetBytes.isSome = true) :
    (admission catalog host policy resident budget capability).Fits catalog host policy
      budget.usableGb (remainingGb resident budget) := by
  unfold admission
  dsimp only
  split
  · trivial
  · rename_i model hbest
    obtain ⟨hmodel, heligible⟩ := bestModelForCapability_some hbest
    have hram := minRam_of_isEligible heligible
    split
    · trivial
    · rename_i quant hquant
      rw [Option.or_eq_some_iff, Option.or_eq_some_iff] at hquant
      have hoffers : Offers policy model quant := by
        obtain hfitting | ⟨-, husable | ⟨-, hlowest⟩⟩ := hquant
        · exact (pickQuant_some hfitting).1
        · exact (pickQuant_some husable).1
        · exact (lowestFootprintPick_some hlowest).1
      have hhosted : Hosted catalog host policy model.id quant.footprintGb :=
        ⟨model, hmodel, rfl, hram, quant, hoffers, rfl⟩
      rw [hallocated]
      simp only [Bool.true_and, decide_eq_true_eq, Bool.or_eq_true]
      split
      · exact fun found hfound => degradedAlternative_fits hfound
      · rename_i hwithin
        split
        · rename_i hready
          refine ⟨hhosted, not_lt.mp hwithin, iff_of_true rfl ?_, nofun⟩
          obtain hfitting | hfits := hready
          · obtain hsome | ⟨hnone, -⟩ := hquant
            · exact (pickQuant_some hsome).2
            · rw [hnone] at hfitting
              cases hfitting
          · exact hfits
        · rename_i hevicts
          rw [not_or] at hevicts
          exact ⟨hhosted, not_lt.mp hwithin, iff_of_false nofun hevicts.2,
            fun found hfound => degradedAlternative_fits hfound⟩

/-- Everything that is admitted fits. -/
structure TempResult.Fits (catalog : Catalog) (host : HostFacts) (policy : RecommenderPolicy)
    (usable remaining : ℚ) (result : TempResult) : Prop where
  choices : ∀ choice ∈ result.choices, choice.Fits catalog host policy usable remaining
  alternatives : ∀ found ∈ result.blockedAlternatives,
    found.2.Fits catalog host policy remaining

theorem TempResult.Fits.push {usable remaining : ℚ} {result : TempResult} {admission : Admission}
    (h : result.Fits catalog host policy usable remaining)
    (hadmission : admission.Fits catalog host policy usable remaining) :
    (result.push admission).Fits catalog host policy usable remaining := by
  cases admission with
  | skipped => exact h
  | chosen choice =>
    exact ⟨List.forall_mem_append.mpr ⟨h.choices, List.forall_mem_singleton.mpr hadmission⟩,
      h.alternatives⟩
  | tooLarge id alternative =>
    cases alternative with
    | none => exact h
    | some alternative =>
      rw [TempResult.push]
      split
      · exact h
      · exact ⟨h.choices, List.forall_mem_append.mpr ⟨h.alternatives,
          List.forall_mem_singleton.mpr (hadmission alternative rfl)⟩⟩

theorem tempAdmission_fits (catalog : Catalog) (host : HostFacts) (policy : RecommenderPolicy)
    (resident : Option ResidentChoice) (hallocated : budget.allocatedBudgetBytes.isSome = true) :
    (tempAdmission catalog host policy resident budget).Fits catalog host policy budget.usableGb
      (remainingGb resident budget) := by
  have hstart : TempResult.Fits catalog host policy budget.usableGb (remainingGb resident budget)
      ⟨[], []⟩ := ⟨List.forall_mem_nil _, List.forall_mem_nil _⟩
  unfold tempAdmission
  exact foldl_keeps _ hstart fun capability _ result hresult =>
    hresult.push (admission_fits hallocated)

end Temp

section Attached

variable {blocked : List BlockedChoice} {id : String} {alternative : TempAlternative}

@[simp] theorem attachAlternative_ids :
    (attachAlternative blocked id alternative).map BlockedChoice.id =
      blocked.map BlockedChoice.id := by
  induction blocked with
  | nil => rfl
  | cons entry rest ih =>
    rw [attachAlternative]
    split
    · rfl
    · rw [List.map_cons, List.map_cons, ih]

theorem attachAlternative_alternatives {P : TempAlternative → Prop} (halternative : P alternative)
    (h : ∀ entry ∈ blocked, ∀ found ∈ entry.degradedAlternatives, P found) :
    ∀ entry ∈ attachAlternative blocked id alternative,
      ∀ found ∈ entry.degradedAlternatives, P found := by
  induction blocked with
  | nil => exact List.forall_mem_nil _
  | cons first rest ih =>
    obtain ⟨hfirst, hrest⟩ := List.forall_mem_cons.mp h
    rw [attachAlternative]
    split
    · exact List.forall_mem_cons.mpr ⟨List.forall_mem_append.mpr ⟨hfirst,
        List.forall_mem_singleton.mpr halternative⟩, hrest⟩
    · exact List.forall_mem_cons.mpr ⟨hfirst, ih hrest⟩

/-- Attaching alternatives changes no identifier, and adds what was to be attached. -/
theorem attached_fit {P : TempAlternative → Prop} {found : List (String × TempAlternative)}
    (hfound : ∀ pair ∈ found, P pair.2)
    (h : ∀ entry ∈ blocked, entry.degradedAlternatives = []) :
    (found.foldl (fun blocked (id, alternative) => attachAlternative blocked id alternative)
        blocked).map BlockedChoice.id = blocked.map BlockedChoice.id ∧
      ∀ entry ∈ found.foldl (fun blocked (id, alternative) =>
          attachAlternative blocked id alternative) blocked,
        ∀ alternative ∈ entry.degradedAlternatives, P alternative := by
  have hstart : ∀ entry ∈ blocked, ∀ alternative ∈ entry.degradedAlternatives, P alternative := by
    intro entry hentry
    rw [h entry hentry]
    exact List.forall_mem_nil _
  exact foldl_keeps (fun attached : List BlockedChoice =>
    attached.map BlockedChoice.id = blocked.map BlockedChoice.id ∧
      ∀ entry ∈ attached, ∀ alternative ∈ entry.degradedAlternatives, P alternative) ⟨rfl, hstart⟩
    fun pair hpair attached hattached => ⟨attachAlternative_ids.trans hattached.1,
      attachAlternative_alternatives (hfound pair hpair) hattached.2⟩

end Attached

section Whole

variable {catalog : Catalog} {hardware : HostFacts} {policy : RecommenderPolicy}
  {partialPolicy : Option PartialPolicy} {forced : Option String} {bytes : Nat}
  {result : Recommendation}

/-- The memory of the resident, if there is one. -/
def Recommendation.residentGb (result : Recommendation) : ℚ :=
  (result.resident.map ResidentChoice.footprintGb).getD 0

/-- The models that are offered in place of one that needs eviction or is blocked. -/
def Recommendation.alternatives (result : Recommendation) : List TempAlternative :=
  result.temp.filterMap TempChoice.degradedAlternative ++
    result.blocked.flatMap BlockedChoice.degradedAlternatives

/-- Whatever is recommended, with its memory. -/
def Recommendation.offered (result : Recommendation) : List (String × ℚ) :=
  (result.resident.toList ++ result.headroomBreachOption.toList).map
      (fun choice => (choice.id, choice.footprintGb)) ++
    result.temp.map (fun choice => (choice.id, choice.quant.footprintGb)) ++
    result.alternatives.map fun alternative => (alternative.id, alternative.quant.footprintGb)

/-- The resident that is chosen when none is forced. -/
def automaticResident (catalog : Catalog) (hardware : HostFacts) (policy : RecommenderPolicy)
    (bytes : Nat) : Option ResidentChoice :=
  chooseResident catalog hardware policy (budgetBreakdown hardware policy (some bytes))

/-- The memory of an allocation. -/
def allocatedGb (bytes : Nat) : ℚ := bytes / 1000000000

/-- No pass goes beyond the allocation, and the passes agree. -/
structure Respects (catalog : Catalog) (hardware : HostFacts) (bytes : Nat)
    (result : Recommendation) : Prop where
  within : ∀ offer ∈ result.offered, Hosted catalog hardware result.policy offer.1 offer.2 ∧
    offer.2 ≤ allocatedGb bytes
  resident : result.resident = automaticResident catalog hardware result.policy bytes ∨
    ∃ choice, result.resident = some choice ∧ result.overrideChoice = some ⟨choice.id, true⟩
  beside : ∀ choice ∈ result.temp, choice.status = .ready ↔
    choice.quant.footprintGb + result.residentGb ≤ allocatedGb bytes
  alternatives : ∀ alternative ∈ result.alternatives,
    alternative.quant.footprintGb + result.residentGb ≤ allocatedGb bytes
  blocked : (result.blocked.map BlockedChoice.id).Nodup ∧ ∀ model ∈ catalog.catalog,
    model.id ∈ result.blocked.map BlockedChoice.id ↔
      Unfit hardware result.policy (allocatedGb bytes) model
  disjoint : ∀ offer ∈ result.offered, offer.1 ∉ result.blocked.map BlockedChoice.id
  headroom : ∀ choice ∈ result.headroomBreachOption,
    ∀ current ∈ automaticResident catalog hardware result.policy bytes, current.score < choice.score

/-- What the host runs within the allocation is not blocked. -/
theorem Lists.not_mem (hunique : catalog.UniqueIds) {usableGb : ℚ} {blocked : List BlockedChoice}
    (h : Lists hardware policy usableGb catalog.catalog blocked) {id : String} {footprintGb : ℚ}
    (hhosted : Hosted catalog hardware policy id footprintGb) (hle : footprintGb ≤ usableGb) :
    id ∉ blocked.map BlockedChoice.id := by
  intro hmem
  obtain ⟨model, hmodel, rfl, hram, pick, hpick, rfl⟩ := hhosted
  obtain ⟨entry, hentry, hid⟩ := List.mem_map.mp hmem
  obtain ⟨other, hother, hsame, hunfit⟩ := h.sound entry hentry
  obtain rfl := hunique.eq hother hmodel (hsame.trans hid)
  obtain hlow | hlarge := hunfit
  · exact absurd hlow (not_lt.mpr hram)
  · exact absurd (hlarge pick hpick) (not_lt.mpr hle)

theorem headroomBreach_some (hunique : catalog.UniqueIds) {budget : BudgetBreakdown}
    {automatic : Option ResidentChoice} {choice : ResidentChoice}
    (h : headroomBreach catalog hardware policy budget automatic = some choice) :
    Hosted catalog hardware policy choice.id choice.footprintGb ∧
      choice.footprintGb ≤ budget.usableGb ∧
      ∀ current ∈ automatic, current.score < choice.score := by
  obtain ⟨hchosen, hbetter⟩ := Option.filter_eq_some_iff.mp h
  obtain ⟨hhosted, hle⟩ := chooseResident_some hunique hchosen
  refine ⟨hhosted, hle.trans (min_le_right _ _), fun current hcurrent => ?_⟩
  rw [Option.mem_def.mp hcurrent] at hbetter
  exact of_decide_eq_true hbetter

theorem residentBudget_le (hardware : HostFacts) (policy : RecommenderPolicy)
    (allocated : Option Nat) :
    (budgetBreakdown hardware policy allocated).residentBudgetGb ≤
      (budgetBreakdown hardware policy allocated).usableGb := by
  have hslots : (0 : ℚ) ≤ policy.tempSlots * tempSlotReserveGb :=
    mul_nonneg (Nat.cast_nonneg _) (by norm_num [tempSlotReserveGb])
  have hheadroom : (0 : ℚ) ≤ headroomGb := by norm_num [headroomGb]
  simp only [budgetBreakdown]
  linarith

/-- What the passes of a recommendation give. -/
structure Passes (catalog : Catalog) (hardware : HostFacts) (bytes : Nat)
    (result : Recommendation) : Prop where
  resident : ∀ choice ∈ result.resident,
    Hosted catalog hardware result.policy choice.id choice.footprintGb ∧
      choice.footprintGb ≤ allocatedGb bytes
  temp : ∀ choice ∈ result.temp, choice.Fits catalog hardware result.policy (allocatedGb bytes)
    (allocatedGb bytes - result.residentGb)
  attached : ∀ entry ∈ result.blocked, ∀ alternative ∈ entry.degradedAlternatives,
    alternative.Fits catalog hardware result.policy (allocatedGb bytes - result.residentGb)
  blocked : ∃ listed, Lists hardware result.policy (allocatedGb bytes) catalog.catalog listed ∧
    result.blocked.map BlockedChoice.id = listed.map BlockedChoice.id
  headroom : ∀ choice ∈ result.headroomBreachOption,
    Hosted catalog hardware result.policy choice.id choice.footprintGb ∧
      choice.footprintGb ≤ allocatedGb bytes ∧
      ∀ current ∈ automaticResident catalog hardware result.policy bytes,
        current.score < choice.score

theorem Passes.alternative (h : Passes catalog hardware bytes result) :
    ∀ alternative ∈ result.alternatives,
      alternative.Fits catalog hardware result.policy (allocatedGb bytes - result.residentGb) := by
  intro alternative halternative
  obtain htemp | hblocked := List.mem_append.mp halternative
  · obtain ⟨choice, hchoice, hgiven⟩ := List.mem_filterMap.mp htemp
    exact (h.temp choice hchoice).alternative alternative hgiven
  · obtain ⟨entry, hentry, hgiven⟩ := List.mem_flatMap.mp hblocked
    exact h.attached entry hentry alternative hgiven

theorem Passes.residentGb_nonneg (h : Passes catalog hardware bytes result)
    (hcatalog : ∀ model ∈ catalog.catalog, model.NonNegative) : 0 ≤ result.residentGb := by
  unfold Recommendation.residentGb
  cases hresident : result.resident with
  | none => exact le_rfl
  | some choice => exact (h.resident choice hresident).1.nonneg hcatalog

theorem Passes.within (h : Passes catalog hardware bytes result)
    (hcatalog : ∀ model ∈ catalog.catalog, model.NonNegative) :
    ∀ offer ∈ result.offered, Hosted catalog hardware result.policy offer.1 offer.2 ∧
      offer.2 ≤ allocatedGb bytes := by
  have hnonneg := h.residentGb_nonneg hcatalog
  intro offer hoffer
  rw [Recommendation.offered, List.mem_append, List.mem_append] at hoffer
  obtain (hchosen | htemp) | halternative := hoffer
  · obtain ⟨choice, hchoice, rfl⟩ := List.mem_map.mp hchosen
    rw [List.mem_append, Option.mem_toList, Option.mem_toList] at hchoice
    obtain hresident | hheadroom := hchoice
    · exact h.resident choice hresident
    · exact ⟨(h.headroom choice hheadroom).1, (h.headroom choice hheadroom).2.1⟩
  · obtain ⟨choice, hchoice, rfl⟩ := List.mem_map.mp htemp
    exact ⟨(h.temp choice hchoice).hosted, (h.temp choice hchoice).within⟩
  · obtain ⟨alternative, hgiven, rfl⟩ := List.mem_map.mp halternative
    obtain ⟨hhosted, hle⟩ := h.alternative alternative hgiven
    exact ⟨hhosted, hle.trans (sub_le_self _ hnonneg)⟩

theorem Passes.respects (h : Passes catalog hardware bytes result) (hunique : catalog.UniqueIds)
    (hcatalog : ∀ model ∈ catalog.catalog, model.NonNegative)
    (hresident : result.resident = automaticResident catalog hardware result.policy bytes ∨
      ∃ choice, result.resident = some choice ∧
        result.overrideChoice = some ⟨choice.id, true⟩) :
    Respects catalog hardware bytes result := by
  obtain ⟨listed, hlists, hids⟩ := h.blocked
  refine ⟨h.within hcatalog, hresident, fun choice hchoice => ?_, fun alternative hgiven => ?_,
    ⟨?_, fun model hmodel => ?_⟩, fun offer hoffer => ?_, fun choice hchoice => ?_⟩
  · rw [(h.temp choice hchoice).beside, le_sub_iff_add_le]
  · exact le_sub_iff_add_le.mp (h.alternative alternative hgiven).2
  · rw [hids]
    exact hlists.ids.nodup hunique
  · rw [hids]
    refine ⟨fun hmem => ?_, hlists.complete model hmodel⟩
    obtain ⟨entry, hentry, hid⟩ := List.mem_map.mp hmem
    obtain ⟨other, hother, hsame, hunfit⟩ := hlists.sound entry hentry
    exact hunique.eq hother hmodel (hsame.trans hid) ▸ hunfit
  · obtain ⟨hhosted, hle⟩ := h.within hcatalog offer hoffer
    rw [hids]
    exact hlists.not_mem hunique hhosted hle
  · exact (h.headroom choice hchoice).2.2

/-- Within an allocation, what is recommended fits and what does not fit is blocked. -/
theorem recommend_respects (hunique : catalog.UniqueIds)
    (hcatalog : ∀ model ∈ catalog.catalog, model.NonNegative)
    (h : recommend hardware catalog partialPolicy forced (some bytes) = .ok result) :
    Respects catalog hardware bytes result := by
  obtain ⟨blocked, hblocked, hresult⟩ := (Loop.Outcome.except RecommendError).of_bind h
  obtain rfl := Except.ok.inj hresult
  obtain ⟨hlists, hempty⟩ := blockedChoices_ok rfl hblocked
  let policy := RecommenderPolicy.merged partialPolicy
  let budget := budgetBreakdown hardware policy (some bytes)
  let automatic := automaticResident catalog hardware policy bytes
  have hallocated : budget.allocatedBudgetBytes.isSome = true := rfl
  have hforced := applyCoreOverride_resident catalog hardware policy forced automatic hallocated
  have htemp := tempAdmission_fits catalog hardware policy
    (applyCoreOverride catalog hardware policy forced automatic budget).resident hallocated
  obtain ⟨hids, hattached⟩ := attached_fit htemp.alternatives hempty
  refine Passes.respects ⟨fun choice hchoice => ?_, htemp.choices, hattached,
    ⟨blocked, hlists, hids⟩, fun choice hchoice => ?_⟩ hunique hcatalog ?_
  · obtain hsame | ⟨active, hactive, hhosted, hle⟩ := hforced
    · obtain ⟨hhosted, hle⟩ := chooseResident_some hunique (hsame.symm.trans hchoice)
      exact ⟨hhosted, hle.trans (residentBudget_le hardware policy (some bytes))⟩
    · obtain rfl := Option.some.inj ((congrArg ForcedResult.resident hactive).symm.trans hchoice)
      exact ⟨hhosted, hle⟩
  · have hbreach : headroomBreach catalog hardware policy budget automatic = some choice := by
      dsimp only at hchoice
      split at hchoice
      · cases hchoice
      · exact hchoice
    exact headroomBreach_some hunique hbreach
  · obtain hsame | ⟨active, hactive, -⟩ := hforced
    · exact .inl hsame
    · exact .inr ⟨active, congrArg ForcedResult.resident hactive,
        congrArg ForcedResult.overrideChoice hactive⟩

end Whole

section Sample

/-- A model for daily use with weights of one size. -/
def sampleModel (id : String) (weightsGb : ℚ) (capability : List (String × ℚ)) : CatalogModel where
  id := id
  paramsTotalB := 8
  arch := ⟨0, 0, 0⟩
  roles := [⟨.daily, Eq.refl true⟩]
  capability := some capability
  quantOptions := [⟨"q8_0", none, some weightsGb, 1⟩]
  minRamGb := 8
  status := none

theorem sampleModel_nonNegative (id : String) {weightsGb : ℚ} (capability : List (String × ℚ))
    (h : 0 ≤ weightsGb) : (sampleModel id weightsGb capability).NonNegative := by
  refine ⟨by norm_num [sampleModel], le_rfl, le_rfl, le_rfl, ?_, ?_⟩
  · intro quant hquant bpp hbpp
    rw [List.mem_singleton.mp hquant] at hbpp
    cases hbpp
  · intro quant hquant weights hweights
    rw [List.mem_singleton.mp hquant] at hweights
    exact Option.some.inj hweights ▸ h

def sampleCatalog : Catalog :=
  ⟨[sampleModel "small" 3 [("reasoning", 1)], sampleModel "strong" 7 [("reasoning", 2)],
    sampleModel "huge" 70 [("vision", 2)], sampleModel "coder" 9 [("coding", 2)],
    sampleModel "eye" 2 [("vision", 1), ("coding", 1)]]⟩

theorem sampleCatalog_nonNegative : ∀ model ∈ sampleCatalog.catalog, model.NonNegative := by
  simp only [sampleCatalog, List.forall_mem_cons, List.not_mem_nil, false_implies, implies_true,
    and_true]
  refine ⟨?_, ?_, ?_, ?_, ?_⟩ <;> exact sampleModel_nonNegative _ _ (by norm_num)

/-- The models of a recommendation, with the smaller ones in their place. -/
structure Chosen where
  resident : Option String
  temp : List (String × Option String)
  blocked : List (String × List String)
  headroom : Option String
  deriving DecidableEq

def Recommendation.chosen (result : Recommendation) : Chosen where
  resident := result.resident.map ResidentChoice.id
  temp := result.temp.map fun choice =>
    (choice.id, choice.degradedAlternative.map TempAlternative.id)
  blocked := result.blocked.map fun choice =>
    (choice.id, choice.degradedAlternatives.map TempAlternative.id)
  headroom := result.headroomBreachOption.map ResidentChoice.id

/-- In twelve gigabytes one model is the resident, a stronger one would spend the headroom, one
has to evict the resident, and one is blocked; for both of these there is a smaller one. -/
theorem recommend_respects_small : ∃ result,
    recommend ⟨16⟩ sampleCatalog none none (some 12000000000) = .ok result ∧
      result.chosen = ⟨some "small", [("coder", some "eye")], [("huge", ["eye"])], some "strong"⟩ ∧
      Respects sampleCatalog ⟨16⟩ 12000000000 result := by
  have hrun : (recommend ⟨16⟩ sampleCatalog none none (some 12000000000)).toOption.map
      Recommendation.chosen = some ⟨some "small", [("coder", some "eye")], [("huge", ["eye"])],
        some "strong"⟩ := by decide +kernel
  cases hresult : recommend ⟨16⟩ sampleCatalog none none (some 12000000000) with
  | error e =>
    rw [hresult] at hrun
    cases hrun
  | ok result =>
    rw [hresult] at hrun
    exact ⟨result, rfl, Option.some.inj hrun,
      recommend_respects (by decide) sampleCatalog_nonNegative hresult⟩

end Sample

end Recommender
