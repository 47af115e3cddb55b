import IDoris.Capabilities.Snapshot
import IDoris.Recommender.Allocation

/-!
# The snapshot agrees with the recommendation

What a recommendation without a forced model gives, and that its snapshot has every model once,
with the option at one place.
-/
namespace Capabilities

open Policy (Capability)
open Recommender
open Loop (foldl_keeps foldlM_seen)

section Recommended

variable {catalog : Catalog} {host : HostFacts} {policy : RecommenderPolicy}
  {budget : BudgetBreakdown} {resident : Option ResidentChoice} {capability : Capability}

/-- The host can run a model with this identifier, within the allocation if there is one. -/
def Placed (catalog : Catalog) (host : HostFacts) (policy : RecommenderPolicy)
    (budget : BudgetBreakdown) (id : String) : Prop :=
  ∃ model ∈ catalog.catalog, model.id = id ∧ model.minRamGb ≤ host.ramGb ∧
    (budget.allocatedBudgetBytes.isSome = true →
      ∃ pick, Offers policy model pick ∧ pick.footprintGb ≤ budget.usableGb)

/-- What is blocked: one entry a model at most, and none the host can run within its allocation. -/
structure Bars (catalog : Catalog) (host : HostFacts) (policy : RecommenderPolicy)
    (budget : BudgetBreakdown) (blocked : List BlockedChoice) : Prop where
  nodup : (blocked.map BlockedChoice.id).Nodup
  placed : ∀ id, Placed catalog host policy budget id → id ∉ blocked.map BlockedChoice.id

theorem Placed.of_hosted {id : String} {footprintGb : ℚ}
    (h : Hosted catalog host policy id footprintGb) (hle : footprintGb ≤ budget.usableGb) :
    Placed catalog host policy budget id := by
  obtain ⟨model, hmodel, hid, hram, pick, hoffers, rfl⟩ := h
  exact ⟨model, hmodel, hid, hram, fun _ => ⟨pick, hoffers, hle⟩⟩

theorem blockedChoice_low {model : CatalogModel} {result : Option BlockedChoice}
    (hnone : budget.allocatedBudgetBytes.isSome = false)
    (h : blockedChoice host policy budget model = .ok result) :
    (∃ choice, result = some choice ∧ choice.id = model.id ∧ host.ramGb < model.minRamGb) ∨
      result = none := by
  have hisNone : budget.allocatedBudgetBytes.isNone = true := by
    rw [← Option.not_isSome, hnone]
    rfl
  rw [blockedChoice, hisNone] at h
  simp only [Bool.and_true, Bool.not_eq_eq_eq_not, Bool.not_true, decide_eq_false_iff_not] at h
  split at h
  · exact .inr (Except.ok.inj h).symm
  · next hlow =>
    split at h
    · cases h
    · split at h
      · exact .inl ⟨_, (Except.ok.inj h).symm, rfl, not_not.mp hlow⟩
      · exact .inr (Except.ok.inj h).symm

/-- Without an allocation, only what the host's memory is too small for is blocked. -/
theorem blockedChoices_low {blocked : List BlockedChoice}
    (hnone : budget.allocatedBudgetBytes.isSome = false)
    (h : blockedChoices catalog host policy budget = .ok blocked) :
    (blocked.map BlockedChoice.id).Sublist (catalog.catalog.map CatalogModel.id) ∧
      ∀ entry ∈ blocked, ∃ model ∈ catalog.catalog, model.id = entry.id ∧
        host.ramGb < model.minRamGb := by
  refine foldlM_seen (.except RecommendError) (fun models blocked =>
    (blocked.map BlockedChoice.id).Sublist (models.map CatalogModel.id) ∧
      ∀ entry ∈ blocked, ∃ model ∈ models, model.id = entry.id ∧ host.ramGb < model.minRamGb)
    ⟨.slnil, List.forall_mem_nil _⟩ (fun models model blocked blocked' hseen hstep => ?_) h
  obtain ⟨result, hresult, hpushed⟩ := (Loop.Outcome.except RecommendError).of_bind hstep
  have hkeep : ∀ entry ∈ blocked, ∃ other ∈ models ++ [model], other.id = entry.id ∧
      host.ramGb < other.minRamGb := by
    intro entry hentry
    obtain ⟨other, hother, hid, hlow⟩ := hseen.2 entry hentry
    exact ⟨other, List.mem_append_left _ hother, hid, hlow⟩
  rw [List.map_append, List.map_singleton]
  obtain ⟨choice, rfl, hid, hlow⟩ | rfl := blockedChoice_low hnone hresult
  · obtain rfl := Except.ok.inj hpushed
    rw [List.map_append, List.map_singleton, hid]
    refine ⟨hseen.1.append (List.Sublist.refl _), List.forall_mem_append.mpr ⟨hkeep, ?_⟩⟩
    exact List.forall_mem_singleton.mpr
      ⟨model, List.mem_append_right _ (List.mem_singleton_self model), hid.symm, hlow⟩
  · obtain rfl := Except.ok.inj hpushed
    exact ⟨hseen.1.trans (List.sublist_append_left _ _), hkeep⟩

theorem blockedChoices_bars (hunique : catalog.UniqueIds) {blocked : List BlockedChoice}
    (h : blockedChoices catalog host policy budget = .ok blocked) :
    Bars catalog host policy budget blocked := by
  cases hallocated : budget.allocatedBudgetBytes.isSome with
  | true =>
    obtain ⟨hlists, -⟩ := blockedChoices_ok hallocated h
    refine ⟨hlists.ids.nodup hunique, ?_⟩
    rintro id ⟨model, hmodel, hid, hram, hwithin⟩
    obtain ⟨pick, hoffers, hle⟩ := hwithin hallocated
    exact hlists.not_mem hunique ⟨model, hmodel, hid, hram, pick, hoffers, rfl⟩ hle
  | false =>
    obtain ⟨hids, hlow⟩ := blockedChoices_low hallocated h
    refine ⟨hids.nodup hunique, ?_⟩
    rintro id ⟨model, hmodel, rfl, hram, -⟩ hmem
    obtain ⟨entry, hentry, hid⟩ := List.mem_map.mp hmem
    obtain ⟨other, hother, hsame, hlow⟩ := hlow entry hentry
    obtain rfl := hunique.eq hother hmodel (hsame.trans hid)
    exact absurd hlow (not_lt.mpr hram)

theorem admission_chosen {choice : TempChoice}
    (h : admission catalog host policy resident budget capability = .chosen choice) :
    choice.capability = capability ∧ Placed catalog host policy budget choice.id := by
  unfold admission at h
  dsimp only at h
  split at h
  · cases h
  · next model hbest =>
    obtain ⟨hmodel, heligible⟩ := bestModelForCapability_some hbest
    have hram := minRam_of_isEligible heligible
    split at h
    · cases h
    · next quant hquant =>
      rw [Option.or_eq_some_iff, Option.or_eq_some_iff] at hquant
      have hoffers : Offers policy model quant := by
        obtain hfitting | ⟨-, husable | ⟨-, hlowest⟩⟩ := hquant
        · exact (pickQuant_some hfitting).1
        · exact (pickQuant_some husable).1
        · exact (lowestFootprintPick_some hlowest).1
      split at h
      · cases h
      · next hwithin =>
        simp only [Bool.and_eq_true, decide_eq_true_eq, not_and, not_lt] at hwithin
        have hplaced : Placed catalog host policy budget model.id :=
          ⟨model, hmodel, rfl, hram, fun hallocated => ⟨quant, hoffers, hwithin hallocated⟩⟩
        split at h
        · cases h
          exact ⟨rfl, hplaced⟩
        · cases h
          exact ⟨rfl, hplaced⟩

/-- The choices are for needed capabilities, in their order. -/
theorem tempAdmission_choices (catalog : Catalog) (host : HostFacts) (policy : RecommenderPolicy)
    (resident : Option ResidentChoice) (budget : BudgetBreakdown) :
    ((tempAdmission catalog host policy resident budget).choices.map TempChoice.capability).Sublist
        policy.neededCapabilities ∧
      ∀ choice ∈ (tempAdmission catalog host policy resident budget).choices,
        Placed catalog host policy budget choice.id := by
  unfold tempAdmission
  generalize policy.neededCapabilities = needed
  induction needed using List.reverseRecOn with
  | nil => exact ⟨.slnil, List.forall_mem_nil _⟩
  | append_singleton needed capability ih =>
    rw [List.foldl_append, List.foldl_cons, List.foldl_nil]
    generalize List.foldl _ _ needed = result at ih
    obtain ⟨hcapabilities, hplaced⟩ := ih
    have hskip : (result.choices.map TempChoice.capability).Sublist (needed ++ [capability]) :=
      hcapabilities.trans (List.sublist_append_left _ _)
    cases hadmission : admission catalog host policy resident budget capability with
    | skipped => exact ⟨hskip, hplaced⟩
    | chosen choice =>
      obtain ⟨hcapability, hchosen⟩ := admission_chosen hadmission
      simp only [TempResult.push, List.map_append, List.map_singleton, hcapability]
      exact ⟨hcapabilities.append (List.Sublist.refl _),
        List.forall_mem_append.mpr ⟨hplaced, List.forall_mem_singleton.mpr hchosen⟩⟩
    | tooLarge id alternative =>
      cases alternative with
      | none => exact ⟨hskip, hplaced⟩
      | some alternative =>
        simp only [TempResult.push]
        split
        · exact ⟨hskip, hplaced⟩
        · exact ⟨hskip, hplaced⟩

theorem attached_ids (found : List (String × TempAlternative)) (blocked : List BlockedChoice) :
    (found.foldl (fun blocked (id, alternative) => attachAlternative blocked id alternative)
      blocked).map BlockedChoice.id = blocked.map BlockedChoice.id := by
  induction found generalizing blocked with
  | nil => rfl
  | cons pair found ih => rw [List.foldl_cons, ih, attachAlternative_ids]

/-- What the snapshot needs of a recommendation. -/
structure Recommended (result : Recommendation) : Prop where
  blocked : (result.blocked.map BlockedChoice.id).Nodup
  temp : (result.temp.map TempChoice.capability).Nodup
  tempFree : ∀ choice ∈ result.temp, choice.id ∉ result.blocked.map BlockedChoice.id
  residentFree : ∀ choice ∈ result.resident, choice.id ∉ result.blocked.map BlockedChoice.id

theorem recommend_recommended {partialPolicy : Option PartialPolicy} {allocated : Option Nat}
    {result : Recommendation} (hunique : catalog.UniqueIds)
    (hneeded : (RecommenderPolicy.merged partialPolicy).neededCapabilities.Nodup)
    (h : recommend host catalog partialPolicy none allocated = .ok result) : Recommended result := by
  obtain ⟨blocked, hblocked, hresult⟩ := (Loop.Outcome.except RecommendError).of_bind h
  obtain rfl := Except.ok.inj hresult
  have hbars := blockedChoices_bars hunique hblocked
  have htemp := tempAdmission_choices catalog host (RecommenderPolicy.merged partialPolicy)
    (applyCoreOverride catalog host (RecommenderPolicy.merged partialPolicy) none
      (chooseResident catalog host (RecommenderPolicy.merged partialPolicy)
        (budgetBreakdown host (RecommenderPolicy.merged partialPolicy) allocated))
      (budgetBreakdown host (RecommenderPolicy.merged partialPolicy) allocated)).resident
    (budgetBreakdown host (RecommenderPolicy.merged partialPolicy) allocated)
  refine ⟨?_, hneeded.sublist htemp.1, fun choice hchoice => ?_, fun choice hchoice => ?_⟩
  · rw [attached_ids]
    exact hbars.nodup
  · rw [attached_ids]
    exact hbars.placed _ (htemp.2 choice hchoice)
  · rw [attached_ids]
    obtain ⟨hhosted, hle⟩ := chooseResident_some hunique hchoice
    exact hbars.placed _ (.of_hosted hhosted (hle.trans (residentBudget_le _ _ _)))

end Recommended

section Taking

variable {α γ : Type} {idOf : α → String} {entry : α → Option HeadroomBreachOption → CapabilityEntry}

/-- What an entry does not take from the option is as the list has it. -/
theorem takingEntries_map {g : CapabilityEntry → γ} {f : α → γ}
    (hg : ∀ x option, g (entry x option) = f x) (held : Option HeadroomBreachOption) (xs : List α) :
    (takingEntries idOf entry held xs).map g = xs.map f := by
  induction xs generalizing held with
  | nil => rfl
  | cons x xs ih => rw [takingEntries, List.map_cons, List.map_cons, hg, ih]

theorem mem_takingEntries {held : Option HeadroomBreachOption} {xs : List α} {e : CapabilityEntry}
    (h : e ∈ takingEntries idOf entry held xs) : ∃ x ∈ xs, ∃ option, e = entry x option := by
  induction xs generalizing held with
  | nil => cases h
  | cons x xs ih =>
    obtain rfl | h := List.mem_cons.mp h
    · exact ⟨x, List.mem_cons_self, _, rfl⟩
    · obtain ⟨y, hy, hentry⟩ := ih h
      exact ⟨y, List.mem_cons_of_mem _ hy, hentry⟩

theorem takingEntries_mem (idOf : α → String)
    (entry : α → Option HeadroomBreachOption → CapabilityEntry)
    (held : Option HeadroomBreachOption) {xs : List α} {x : α} (h : x ∈ xs) :
    ∃ option, entry x option ∈ takingEntries idOf entry held xs := by
  induction xs generalizing held with
  | nil => cases h
  | cons y xs ih =>
    obtain rfl | h := List.mem_cons.mp h
    · exact ⟨_, List.mem_cons_self⟩
    · obtain ⟨option, hmem⟩ := ih _ h
      exact ⟨option, List.mem_cons_of_mem _ hmem⟩

theorem takingEntries_none (hentry : ∀ x option, (entry x option).headroomBreachOption = option)
    (xs : List α) :
    (takingEntries idOf entry none xs).filterMap CapabilityEntry.headroomBreachOption = [] := by
  induction xs with
  | nil => rfl
  | cons x xs ih =>
    have htakes : takeIf none (idOf x) = (none, none) := rfl
    rw [takingEntries, htakes, List.filterMap_cons_none (hentry x _)]
    exact ih

/-- The option is taken once if a member has its model. -/
theorem takingEntries_some (hentry : ∀ x option, (entry x option).headroomBreachOption = option)
    {option : HeadroomBreachOption} {xs : List α} (h : option.id ∈ xs.map idOf) :
    (takingEntries idOf entry (some option) xs).filterMap CapabilityEntry.headroomBreachOption =
      [option] := by
  induction xs with
  | nil => cases h
  | cons x xs ih =>
    rw [takingEntries]
    by_cases hid : option.id = idOf x
    · have htakes : takeIf (some option) (idOf x) = (some option, none) := by
        simp [takeIf, hid]
      rw [htakes, List.filterMap_cons_some (hentry x _), takingEntries_none hentry]
    · have hpasses : takeIf (some option) (idOf x) = (none, some option) := by
        simp [takeIf, hid]
      rw [hpasses, List.filterMap_cons_none (hentry x _)]
      exact ih ((List.mem_cons.mp h).resolve_left hid)

end Taking

theorem capabilityName_injective : Function.Injective capabilityName := by
  intro a b h
  cases a <;> cases b <;> first | rfl | exact absurd h (by decide)

def CapabilityEntry.key (entry : CapabilityEntry) : String × Bool × String :=
  (entry.id, entry.resident, entry.capability)

section Snapshot

variable {result : Recommendation} {catalog : Catalog} {queueDepth : Nat}

/-- Where the option goes when no model is resident. -/
inductive Goes (result : Recommendation) (catalog : Catalog) (queueDepth : Nat)
    (option : HeadroomBreachOption) : Placement → Prop where
  | blocked (h : option.id ∈ result.blocked.map BlockedChoice.id) :
      Goes result catalog queueDepth option ⟨[], some option, none⟩
  | temp (hblocked : option.id ∉ result.blocked.map BlockedChoice.id) (temp : TempChoice)
      (hfirst : result.temp.find? (·.id = option.id) = some temp)
      (hlabel : temp.quant.label ≠ option.quant) :
      Goes result catalog queueDepth option ⟨[], none, some option⟩
  | dropped (hblocked : option.id ∉ result.blocked.map BlockedChoice.id) (temp : TempChoice)
      (hfirst : result.temp.find? (·.id = option.id) = some temp)
      (hlabel : temp.quant.label = option.quant) :
      Goes result catalog queueDepth option ⟨[], none, none⟩
  | own (hblocked : option.id ∉ result.blocked.map BlockedChoice.id)
      (htemp : option.id ∉ result.temp.map TempChoice.id) :
      Goes result catalog queueDepth option ⟨[optionEntry catalog queueDepth option], none, none⟩

theorem placement_goes (catalog : Catalog) (queueDepth : Nat) {option : ResidentChoice}
    (hresident : result.resident = none) (hoption : result.headroomBreachOption = some option) :
    Goes result catalog queueDepth (headroomOption option)
      (placement result catalog queueDepth) := by
  simp only [placement, hresident, hoption, Option.map_some]
  split
  · next hblocked =>
    simp only [List.any_eq_true, decide_eq_true_eq] at hblocked
    obtain ⟨entry, hentry, hid⟩ := hblocked
    exact .blocked (List.mem_map.mpr ⟨entry, hentry, hid⟩)
  · next hblocked =>
    have hnot : (headroomOption option).id ∉ result.blocked.map BlockedChoice.id := by
      intro hmem
      obtain ⟨entry, hentry, hid⟩ := List.mem_map.mp hmem
      exact hblocked (List.any_eq_true.mpr ⟨entry, hentry, decide_eq_true hid⟩)
    split
    · next temp hfirst =>
      split
      · next hlabel => exact .temp hnot temp hfirst hlabel
      · next hlabel => exact .dropped hnot temp hfirst (not_not.mp hlabel)
    · next hnone =>
      refine .own hnot fun hmem => ?_
      obtain ⟨temp, htemp, hid⟩ := List.mem_map.mp hmem
      exact List.find?_eq_none.mp hnone temp htemp (decide_eq_true hid)

/-- The first of the model's temp entries has the option's quantisation. -/
def Dropped (result : Recommendation) (option : ResidentChoice) : Prop :=
  result.resident = none ∧ ∃ temp, result.temp.find? (·.id = option.id) = some temp ∧
    temp.quant.label = option.label

/-- What the snapshot has of a recommendation. -/
structure Describes (result : Recommendation) (entries : List CapabilityEntry) : Prop where
  resident : ∀ choice ∈ result.resident, ∃ entry ∈ entries, entry.id = choice.id ∧
    entry.resident = true ∧ entry.admissionStatus = .ready
  temp : ∀ choice ∈ result.temp, ∃ entry ∈ entries,
    entry.key = (choice.id, false, capabilityName choice.capability) ∧
      entry.admissionStatus ≠ .blocked
  blocked : ∀ choice ∈ result.blocked, ∃ entry ∈ entries, entry.id = choice.id ∧
    entry.admissionStatus = .blocked
  disjoint : ∀ entry ∈ entries, ∀ other ∈ entries, entry.id = other.id →
    entry.admissionStatus = .blocked → other.admissionStatus = .blocked
  distinct : (entries.map CapabilityEntry.key).Nodup
  carried : ∀ option, result.headroomBreachOption = some option → ¬Dropped result option →
    entries.filterMap CapabilityEntry.headroomBreachOption = [headroomOption option]
  dropped : ∀ option, result.headroomBreachOption = some option → Dropped result option →
    entries.filterMap CapabilityEntry.headroomBreachOption = []
  without : result.headroomBreachOption = none →
    entries.filterMap CapabilityEntry.headroomBreachOption = []

/-- The entries before the others: the resident's, or one of the option's own. -/
theorem placement_entries {e : CapabilityEntry}
    (h : e ∈ (placement result catalog queueDepth).entries) :
    (∃ choice option, result.resident = some choice ∧ e = residentEntry queueDepth choice option) ∨
      ∃ option, result.resident = none ∧ e = optionEntry catalog queueDepth option ∧
        option.id ∉ result.blocked.map BlockedChoice.id ∧
        option.id ∉ result.temp.map TempChoice.id := by
  cases hresident : result.resident with
  | some choice =>
    simp only [placement, hresident, List.mem_singleton] at h
    exact .inl ⟨choice, _, rfl, h⟩
  | none =>
    cases hoption : result.headroomBreachOption with
    | none =>
      simp only [placement, hresident, hoption, Option.map_none] at h
      cases h
    | some option =>
      have hgoes := placement_goes catalog queueDepth hresident hoption
      generalize placement result catalog queueDepth = placed at h hgoes
      cases hgoes with
      | own hblocked htemp => exact .inr ⟨_, rfl, List.mem_singleton.mp h, hblocked, htemp⟩
      | _ => cases h

theorem placement_length (result : Recommendation) (catalog : Catalog) (queueDepth : Nat) :
    (placement result catalog queueDepth).entries.length ≤ 1 := by
  cases hresident : result.resident with
  | some choice => simp [placement, hresident]
  | none =>
    cases hoption : result.headroomBreachOption with
    | none => simp [placement, hresident, hoption]
    | some option =>
      have hgoes := placement_goes catalog queueDepth hresident hoption
      generalize placement result catalog queueDepth = placed at hgoes
      cases hgoes <;> simp

theorem mem_mapRecommendation {e : CapabilityEntry}
    (h : e ∈ mapRecommendation result catalog queueDepth) :
    e ∈ (placement result catalog queueDepth).entries ∨
      (∃ temp ∈ result.temp, ∃ option, e = tempEntry result queueDepth temp option) ∨
      ∃ blocked ∈ result.blocked, ∃ option,
        e = blockedEntry result catalog queueDepth blocked option := by
  obtain h | h := List.mem_append.mp h
  · obtain h | h := List.mem_append.mp h
    · exact .inl h
    · exact .inr (.inl (mem_takingEntries h))
  · exact .inr (.inr (mem_takingEntries h))

theorem tempEntry_not_blocked {temp : TempChoice} {option : Option HeadroomBreachOption} :
    (tempEntry result queueDepth temp option).admissionStatus ≠ .blocked := by
  cases hstatus : temp.status <;> simp [tempEntry, hstatus]

theorem Recommended.disjoint (h : Recommended result) {e other : CapabilityEntry}
    (he : e ∈ mapRecommendation result catalog queueDepth)
    (hother : other ∈ mapRecommendation result catalog queueDepth) (hid : e.id = other.id)
    (hblocked : e.admissionStatus = .blocked) : other.admissionStatus = .blocked := by
  obtain hother | ⟨temp, htemp, option, rfl⟩ | ⟨entry, -, option, rfl⟩ := mem_mapRecommendation hother
  · obtain ⟨choice, option, hresident, rfl⟩ | ⟨option, -, rfl, -⟩ := placement_entries hother
    · exfalso
      obtain he | ⟨temp, -, option', rfl⟩ | ⟨entry, hentry, option', rfl⟩ := mem_mapRecommendation he
      · obtain ⟨_, _, -, rfl⟩ | ⟨_, hnone, -⟩ := placement_entries he
        · cases hblocked
        · rw [hresident] at hnone
          cases hnone
      · exact tempEntry_not_blocked hblocked
      · exact h.residentFree choice hresident (List.mem_map.mpr ⟨entry, hentry, hid⟩)
    · rfl
  · exfalso
    obtain he | ⟨temp', -, option', rfl⟩ | ⟨entry, hentry, option', rfl⟩ := mem_mapRecommendation he
    · obtain ⟨_, _, -, rfl⟩ | ⟨found, -, rfl, -, hfree⟩ := placement_entries he
      · cases hblocked
      · exact hfree (List.mem_map.mpr ⟨temp, htemp, hid.symm⟩)
    · exact tempEntry_not_blocked hblocked
    · exact h.tempFree temp htemp (List.mem_map.mpr ⟨entry, hentry, hid⟩)
  · rfl

theorem Recommended.distinct (h : Recommended result) :
    ((mapRecommendation result catalog queueDepth).map CapabilityEntry.key).Nodup := by
  have htemps : ((takingEntries TempChoice.id (tempEntry result queueDepth)
      (placement result catalog queueDepth).tempOption result.temp).map CapabilityEntry.key) =
      result.temp.map fun temp => (temp.id, false, capabilityName temp.capability) := by
    apply takingEntries_map
    exact fun _ _ => rfl
  have hblocked : ((takingEntries BlockedChoice.id (blockedEntry result catalog queueDepth)
      (placement result catalog queueDepth).blockedOption result.blocked).map CapabilityEntry.key) =
      result.blocked.map fun blocked =>
        (blocked.id, false, topCapability (catalog.catalog.find? (·.id = blocked.id))) := by
    apply takingEntries_map
    exact fun _ _ => rfl
  rw [mapRecommendation, List.map_append, List.map_append, htemps, hblocked, List.append_assoc,
    List.nodup_append', List.nodup_append']
  refine ⟨?_, ⟨?_, ?_, ?_⟩, ?_⟩
  · have hlength := placement_length result catalog queueDepth
    generalize (placement result catalog queueDepth).entries = entries at hlength
    match entries with
    | [] => exact List.nodup_nil
    | [e] => exact List.nodup_singleton _
  · refine List.Nodup.of_map (fun key : String × Bool × String => key.2.2) ?_
    have hnames := h.temp.map capabilityName_injective
    rw [List.map_map] at hnames ⊢
    exact hnames
  · refine List.Nodup.of_map Prod.fst ?_
    rw [List.map_map]
    exact h.blocked
  · intro key htemp hbar
    obtain ⟨temp, hmem, rfl⟩ := List.mem_map.mp htemp
    obtain ⟨entry, hentry, hkey⟩ := List.mem_map.mp hbar
    exact h.tempFree temp hmem (List.mem_map.mpr ⟨entry, hentry, congrArg Prod.fst hkey⟩)
  · intro key hplaced hothers
    obtain ⟨e, he, rfl⟩ := List.mem_map.mp hplaced
    have hresident : e.resident = true := by
      obtain ⟨_, _, -, rfl⟩ | ⟨_, -, rfl, -⟩ := placement_entries he
      · rfl
      · rfl
    obtain hother | hother := List.mem_append.mp hothers
    · obtain ⟨_, -, hkey⟩ := List.mem_map.mp hother
      have hflag : false = e.resident := congrArg (·.2.1) hkey
      rw [hresident] at hflag
      cases hflag
    · obtain ⟨_, -, hkey⟩ := List.mem_map.mp hother
      have hflag : false = e.resident := congrArg (·.2.1) hkey
      rw [hresident] at hflag
      cases hflag

/-- The options of all entries, by where the option goes. -/
theorem mapRecommendation_options :
    (mapRecommendation result catalog queueDepth).filterMap CapabilityEntry.headroomBreachOption =
      (placement result catalog queueDepth).entries.filterMap CapabilityEntry.headroomBreachOption ++
        (takingEntries TempChoice.id (tempEntry result queueDepth)
          (placement result catalog queueDepth).tempOption result.temp).filterMap
            CapabilityEntry.headroomBreachOption ++
        (takingEntries BlockedChoice.id (blockedEntry result catalog queueDepth)
          (placement result catalog queueDepth).blockedOption result.blocked).filterMap
            CapabilityEntry.headroomBreachOption := by
  rw [mapRecommendation, List.filterMap_append, List.filterMap_append]

/-- With a resident, its entry alone has the option, if there is one. -/
theorem options_resident {choice : ResidentChoice} (hresident : result.resident = some choice) :
    (mapRecommendation result catalog queueDepth).filterMap CapabilityEntry.headroomBreachOption =
      (result.headroomBreachOption.map headroomOption).toList := by
  have hplacement : placement result catalog queueDepth = ⟨[residentEntry queueDepth choice
      (result.headroomBreachOption.map headroomOption)], none, none⟩ := by
    simp only [placement, hresident]
  rw [mapRecommendation_options, hplacement, takingEntries_none (fun _ _ => rfl),
    takingEntries_none (fun _ _ => rfl)]
  cases result.headroomBreachOption <;> rfl

theorem Recommended.options_none (h : Recommended result) (hresident : result.resident = none)
    {option : ResidentChoice} (hoption : result.headroomBreachOption = some option) :
    (Dropped result option ∧ (mapRecommendation result catalog queueDepth).filterMap
        CapabilityEntry.headroomBreachOption = []) ∨
      ¬Dropped result option ∧ (mapRecommendation result catalog queueDepth).filterMap
        CapabilityEntry.headroomBreachOption = [headroomOption option] := by
  have hgoes := placement_goes catalog queueDepth hresident hoption
  rw [mapRecommendation_options]
  generalize placement result catalog queueDepth = placed at hgoes ⊢
  cases hgoes with
  | blocked hblocked =>
    right
    constructor
    · rintro ⟨-, temp, hfirst, -⟩
      have hid : temp.id = option.id := by simpa using List.find?_some hfirst
      exact h.tempFree temp (List.mem_of_find?_eq_some hfirst) (hid ▸ hblocked)
    · rw [takingEntries_none (fun _ _ => rfl), takingEntries_some (fun _ _ => rfl) hblocked]
      rfl
  | temp hblocked temp hfirst hlabel =>
    right
    have hmem : (headroomOption option).id ∈ result.temp.map TempChoice.id := by
      have hid : temp.id = (headroomOption option).id := by simpa using List.find?_some hfirst
      exact List.mem_map.mpr ⟨temp, List.mem_of_find?_eq_some hfirst, hid⟩
    constructor
    · rintro ⟨-, other, hother, hsame⟩
      have heq : some temp = some other := hfirst.symm.trans hother
      exact hlabel (Option.some.inj heq ▸ hsame)
    · rw [takingEntries_none (fun _ _ => rfl), takingEntries_some (fun _ _ => rfl) hmem]
      rfl
  | dropped hblocked temp hfirst hlabel =>
    left
    refine ⟨⟨hresident, temp, hfirst, hlabel⟩, ?_⟩
    rw [takingEntries_none (fun _ _ => rfl), takingEntries_none (fun _ _ => rfl)]
    rfl
  | own hblocked htemp =>
    right
    constructor
    · rintro ⟨-, temp, hfirst, -⟩
      have hid : temp.id = option.id := by simpa using List.find?_some hfirst
      exact htemp (List.mem_map.mpr ⟨temp, List.mem_of_find?_eq_some hfirst, hid⟩)
    · rw [takingEntries_none (fun _ _ => rfl), takingEntries_none (fun _ _ => rfl)]
      rfl

theorem Recommended.describes (h : Recommended result) :
    Describes result (mapRecommendation result catalog queueDepth) := by
  constructor
  · intro choice hchoice
    refine ⟨residentEntry queueDepth choice (result.headroomBreachOption.map headroomOption),
      List.mem_append_left _ (List.mem_append_left _ ?_), rfl, rfl, rfl⟩
    simp only [placement, Option.mem_def.mp hchoice, List.mem_singleton]
  · intro choice hchoice
    obtain ⟨option, hmem⟩ := takingEntries_mem TempChoice.id (tempEntry result queueDepth)
      (placement result catalog queueDepth).tempOption hchoice
    exact ⟨_, List.mem_append_left _ (List.mem_append_right _ hmem), rfl, tempEntry_not_blocked⟩
  · intro choice hchoice
    obtain ⟨option, hmem⟩ := takingEntries_mem BlockedChoice.id (blockedEntry result catalog queueDepth)
      (placement result catalog queueDepth).blockedOption hchoice
    exact ⟨_, List.mem_append_right _ hmem, rfl, rfl⟩
  · exact fun e he other hother hid hblocked => h.disjoint he hother hid hblocked
  · exact h.distinct
  · intro option hoption hkept
    cases hresident : result.resident with
    | some choice =>
      rw [options_resident hresident, hoption]
      rfl
    | none =>
      obtain ⟨hdropped, -⟩ | ⟨-, hcarried⟩ := h.options_none hresident hoption
      · exact absurd hdropped hkept
      · exact hcarried
  · intro option hoption hdropped
    obtain ⟨-, hnone⟩ | ⟨hkept, -⟩ := h.options_none hdropped.1 hoption
    · exact hnone
    · exact absurd hdropped hkept
  · intro hoption
    cases hresident : result.resident with
    | some choice =>
      rw [options_resident hresident, hoption]
      rfl
    | none =>
      have hplacement : placement result catalog queueDepth = ⟨[], none, none⟩ := by
        simp only [placement, hresident, hoption, Option.map_none]
      rw [mapRecommendation_options, hplacement, takingEntries_none (fun _ _ => rfl),
        takingEntries_none (fun _ _ => rfl)]
      rfl

/-- Every snapshot of the live provider describes what was recommended. -/
theorem snapshot_describes (provider : LiveCapabilitiesProvider) (queueDepth : Nat)
    (hunique : provider.catalog.UniqueIds)
    (hneeded : (RecommenderPolicy.merged provider.policy).neededCapabilities.Nodup)
    {entries : List CapabilityEntry} (h : provider.liveSnapshot queueDepth = .ok entries) :
    ∃ result, recommend provider.facts provider.catalog provider.policy none
      provider.allocatedBudgetBytes = .ok result ∧ Describes result entries := by
  unfold LiveCapabilitiesProvider.liveSnapshot at h
  split at h
  · cases h
  · next result hresult =>
    obtain rfl := Except.ok.inj h
    exact ⟨result, hresult, (recommend_recommended hunique hneeded hresult).describes⟩

def sampleProvider : LiveCapabilitiesProvider := ⟨sampleCatalog, ⟨16⟩, none, some 12000000000⟩

/-- The resident carries the option that would spend the headroom. -/
theorem snapshot_describes_small : ∃ entries result, sampleProvider.liveSnapshot 3 = .ok entries ∧
    entries.map CapabilityEntry.key = [("small", true, "reasoning"), ("coder", false, "coding"),
      ("huge", false, "vision")] ∧
    (entries.filterMap CapabilityEntry.headroomBreachOption).map HeadroomBreachOption.id =
      ["strong"] ∧ Describes result entries := by
  have hrun : (sampleProvider.liveSnapshot 3).toOption.map (fun entries =>
      (entries.map CapabilityEntry.key, (entries.filterMap
        CapabilityEntry.headroomBreachOption).map HeadroomBreachOption.id)) =
      some ([("small", true, "reasoning"), ("coder", false, "coding"), ("huge", false, "vision")],
        ["strong"]) := by decide +kernel
  cases hentries : sampleProvider.liveSnapshot 3 with
  | error text =>
    rw [hentries] at hrun
    cases hrun
  | ok entries =>
    rw [hentries] at hrun
    obtain ⟨hkeys, hoption⟩ := Prod.mk.inj (Option.some.inj hrun)
    obtain ⟨result, -, hdescribes⟩ :=
      snapshot_describes sampleProvider 3 (by decide) (by decide) hentries
    exact ⟨entries, result, rfl, hkeys, hoption, hdescribes⟩

end Snapshot

end Capabilities
