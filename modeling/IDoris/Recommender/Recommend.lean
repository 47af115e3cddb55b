import IDoris.Library.Text
import IDoris.Recommender.Memory

/-!
# Recommendations

The resident model, the models that are loaded on demand and the models that are blocked, within
the memory of the host or an allocation. The texts for the user are left out.
-/
namespace Recommender

open Policy (Capability)

structure BudgetBreakdown where
  allocatedBudgetBytes : Option Nat
  reserveGb : ℚ
  usableGb : ℚ
  tempReserveGb : ℚ
  residentBudgetGb : ℚ
  deriving DecidableEq

structure ResidentChoice where
  id : String
  ctx : Nat
  score : ℚ
  label : String
  quality : ℚ
  weightsGb : ℚ
  kvGb : ℚ
  footprintGb : ℚ
  deriving DecidableEq

def ResidentChoice.fromPick (id : String) (ctx : Nat) (score : ℚ) (pick : QuantPick) :
    ResidentChoice :=
  ⟨id, ctx, score, pick.label, pick.quality, pick.weightsGb, pick.kvGb, pick.footprintGb⟩

/-- A model that fits beside the resident. -/
structure TempAlternative where
  id : String
  capability : Capability
  quant : QuantPick
  deriving DecidableEq

structure BlockedChoice where
  id : String
  minRamGb : ℚ
  estimatedMemoryGb : ℚ
  degradedAlternatives : List TempAlternative
  deriving DecidableEq

inductive TempStatus where
  | ready | requiresEviction
  deriving DecidableEq

structure TempChoice where
  id : String
  capability : Capability
  status : TempStatus
  minRamGb : ℚ
  quant : QuantPick
  degradedAlternative : Option TempAlternative
  deriving DecidableEq

inductive RecommendError where
  | emptyQuantOptions (id : String)
  deriving DecidableEq

section Resident

def tempSlotReserveGb : ℚ := 7 / 2

def headroomGb : ℚ := 1

/-- An allocation takes the place of what the host can use. -/
def budgetBreakdown (host : HostFacts) (policy : RecommenderPolicy)
    (allocatedBudgetBytes : Option Nat) : BudgetBreakdown :=
  let (reserveGb, usableGb) := match allocatedBudgetBytes with
    | some bytes => ((0 : ℚ), (bytes / 1000000000 : ℚ))
    | none => (appleReserveGb host.ramGb, appleUsableGb host.ramGb policy.wiredMode)
  let tempReserveGb := policy.tempSlots * tempSlotReserveGb
  ⟨allocatedBudgetBytes, reserveGb, usableGb, tempReserveGb,
    usableGb - tempReserveGb - headroomGb⟩

def blockedChoice (host : HostFacts) (policy : RecommenderPolicy) (budget : BudgetBreakdown)
    (model : CatalogModel) : Except RecommendError (Option BlockedChoice) :=
  let belowMinRam := decide (host.ramGb < model.minRamGb)
  if !belowMinRam && budget.allocatedBudgetBytes.isNone then .ok none
  else
    match lowestFootprintPick model policy with
    | none => .error (.emptyQuantOptions model.id)
    | some pick =>
      if belowMinRam || budget.usableGb < pick.footprintGb then
        .ok (some ⟨model.id, model.minRamGb, pick.footprintGb, []⟩)
      else .ok none

def blockedChoices (catalog : Catalog) (host : HostFacts) (policy : RecommenderPolicy)
    (budget : BudgetBreakdown) : Except RecommendError (List BlockedChoice) :=
  catalog.catalog.foldlM (fun blocked model => do
    match ← blockedChoice host policy budget model with
    | some choice => return blocked ++ [choice]
    | none => return blocked) []

def modelIsEligible (model : CatalogModel) (role : CatalogRole) (availableRamGb : Option ℚ) :
    Bool :=
  Policy.isRoleMetadataEligible (model.status = some "experiment") model.minRamGb
    (model.roles.map CatalogRole.role) role.role availableRamGb

def roleCandidates (catalog : Catalog) (role : CatalogRole)
    (installedModelIds : Option (List String)) (availableRamGb : Option ℚ) : List String :=
  ((catalog.catalog.filter fun model => modelIsEligible model role availableRamGb).filter
    fun model => installedModelIds.all (·.contains model.id)).map CatalogModel.id

def capabilityKey : Capability → String
  | .chat => "chat"
  | .reasoning => "reasoning"
  | .vision => "vision"
  | .asr => "asr"
  | .tts => "tts"
  | .coding => "coding"
  | .embedding => "embedding"
  | .rerank => "rerank"

/-- What the catalogue says of a capability; nothing counts as zero. -/
def CatalogModel.capabilityScore (model : CatalogModel) (key : String) : ℚ :=
  (model.capability.bind fun scores => scores.lookup key).getD 0

/-- Higher, or as high and smaller. -/
def ResidentChoice.beats (choice current : ResidentChoice) : Bool :=
  current.score < choice.score ||
    choice.score = current.score && choice.footprintGb < current.footprintGb

def chooseResident (catalog : Catalog) (host : HostFacts) (policy : RecommenderPolicy)
    (budget : BudgetBreakdown) : Option ResidentChoice :=
  (roleCandidates catalog ⟨.daily, rfl⟩ none (some host.ramGb)).foldl (fun best id =>
    match catalog.catalog.find? (·.id = id) with
    | none => best
    | some model =>
      match pickQuant model budget.residentBudgetGb policy policy.qualityThreshold with
      | none => best
      | some pick =>
        let score := model.capabilityScore (capabilityKey .reasoning) * pick.quality
        Loop.consider ResidentChoice.beats best
          (.fromPick model.id policy.contextTarget score pick)) none

end Resident

section Forced

structure CoreOverride where
  id : String
  active : Bool
  deriving DecidableEq

structure ForcedResult where
  resident : Option ResidentChoice
  overrideChoice : Option CoreOverride
  deriving DecidableEq

/-- The identifier and the label of a forced model. -/
def splitForced (forced : String) : String × Option String :=
  match (forced.toList.splitOn '@').map String.ofList with
  | [] => ("", none)
  | [id] => (id, none)
  | id :: label :: _ => (id, some label)

/-- The quantisation that was asked for, the best within the budget, or the smallest. -/
def forcedPick (model : CatalogModel) (label : Option String) (residentBudget : ℚ)
    (policy : RecommenderPolicy) : Option QuantPick :=
  ((label.bind fun label => quantByLabel model label policy).or
    (pickQuant model residentBudget policy 0)).or (lowestFootprintPick model policy)

def applyCoreOverride (catalog : Catalog) (host : HostFacts) (policy : RecommenderPolicy)
    (forced : Option String) (currentResident : Option ResidentChoice)
    (budget : BudgetBreakdown) : ForcedResult :=
  match (forced.map Text.trim).filter (· ≠ "") with
  | none => ⟨currentResident, none⟩
  | some forced =>
    let (forcedId, forcedQuant) := splitForced forced
    match catalog.catalog.find? (·.id = forcedId) with
    | none => ⟨currentResident, none⟩
    | some model =>
      match forcedPick model forcedQuant budget.residentBudgetGb policy with
      | none => ⟨currentResident, none⟩
      | some pick =>
        if budget.allocatedBudgetBytes.isSome &&
            (budget.usableGb < pick.footprintGb || host.ramGb < model.minRamGb) then
          ⟨currentResident, some ⟨model.id, false⟩⟩
        else
          let score := model.capabilityScore (capabilityKey .reasoning) * pick.quality
          ⟨some (.fromPick model.id policy.contextTarget score pick), some ⟨model.id, true⟩⟩

end Forced

section Temp

def isEligible (model : CatalogModel) (host : HostFacts) (resident : Option ResidentChoice) :
    Bool :=
  model.status ≠ some "experiment" && model.minRamGb ≤ host.ramGb &&
    resident.all fun choice => choice.id ≠ model.id

/-- The first of the best models other than the resident. -/
def bestModelForCapability (catalog : Catalog) (host : HostFacts)
    (resident : Option ResidentChoice) (capability : Capability) : Option CatalogModel :=
  (catalog.catalog.foldl (fun (best : Option CatalogModel × ℚ) model =>
    if isEligible model host resident then
      let value := model.capabilityScore (capabilityKey capability)
      if 0 < value && best.2 < value then (some model, value) else best
    else best) (none, -1)).1

/-- The best other model that fits what remains. -/
def degradedAlternative (catalog : Catalog) (host : HostFacts) (policy : RecommenderPolicy)
    (resident : Option ResidentChoice) (capability : Capability) (best : CatalogModel)
    (remaining : ℚ) : Option TempAlternative :=
  (catalog.catalog.foldl (fun (found : Option (ℚ × CatalogModel × QuantPick)) model =>
    if model.id = best.id || !isEligible model host resident then found
    else
      let value := model.capabilityScore (capabilityKey capability)
      if value ≤ 0 || found.any (fun known => value ≤ known.1) then found
      else
        match pickQuant model remaining policy policy.qualityThreshold with
        | some pick => some (value, model, pick)
        | none => found) none).map fun (_, model, quant) => ⟨model.id, capability, quant⟩

structure TempResult where
  choices : List TempChoice
  blockedAlternatives : List (String × TempAlternative)
  deriving DecidableEq

section Admission

variable (catalog : Catalog) (host : HostFacts) (policy : RecommenderPolicy)
  (resident : Option ResidentChoice) (budget : BudgetBreakdown)

/-- What the resident leaves. -/
def remainingGb : ℚ := budget.usableGb - (resident.map ResidentChoice.footprintGb).getD 0

/-- What is known of a capability. -/
inductive Admission where
  | skipped
  | chosen (choice : TempChoice)
  | tooLarge (id : String) (alternative : Option TempAlternative)

def admission (capability : Capability) : Admission :=
  let usable := budget.usableGb
  let remaining := remainingGb resident budget
  match bestModelForCapability catalog host resident capability with
  | none => .skipped
  | some model =>
    let fitting := pickQuant model remaining policy policy.qualityThreshold
    match fitting.or ((pickQuant model usable policy policy.qualityThreshold).or
        (lowestFootprintPick model policy)) with
    | none => .skipped
    | some quant =>
      let allocated := budget.allocatedBudgetBytes.isSome
      let alternative :=
        degradedAlternative catalog host policy resident capability model remaining
      if allocated && usable < quant.footprintGb then .tooLarge model.id alternative
      else if fitting.isSome || allocated && quant.footprintGb ≤ remaining then
        .chosen ⟨model.id, capability, .ready, model.minRamGb, quant, none⟩
      else .chosen ⟨model.id, capability, .requiresEviction, model.minRamGb, quant, alternative⟩

/-- A blocked model has one alternative for each capability. -/
def TempResult.push (result : TempResult) : Admission → TempResult
  | .skipped => result
  | .chosen choice => { result with choices := result.choices ++ [choice] }
  | .tooLarge _ none => result
  | .tooLarge id (some alternative) =>
    if result.blockedAlternatives.any fun known =>
        known.1 = id && known.2.capability = alternative.capability then result
    else { result with blockedAlternatives := result.blockedAlternatives ++ [(id, alternative)] }

def tempAdmission : TempResult :=
  policy.neededCapabilities.foldl (fun result capability =>
    result.push (admission catalog host policy resident budget capability)) ⟨[], []⟩

end Admission

end Temp

structure Recommendation where
  hardware : HostFacts
  policy : RecommenderPolicy
  usableGb : ℚ
  reserveGb : ℚ
  tempReserveGb : ℚ
  residentBudgetGb : ℚ
  resident : Option ResidentChoice
  temp : List TempChoice
  blocked : List BlockedChoice
  recommendedSysctl : Int
  overrideChoice : Option CoreOverride
  headroomBreachOption : Option ResidentChoice
  deriving DecidableEq

/-- An alternative goes to the first blocked model with its identifier. -/
def attachAlternative (blocked : List BlockedChoice) (id : String)
    (alternative : TempAlternative) : List BlockedChoice :=
  match blocked with
  | [] => []
  | entry :: rest =>
    if entry.id = id then
      { entry with degradedAlternatives := entry.degradedAlternatives ++ [alternative] } :: rest
    else entry :: attachAlternative rest id alternative

/-- The resident when the headroom is spent too, if it is better. -/
def headroomBreach (catalog : Catalog) (host : HostFacts) (policy : RecommenderPolicy)
    (budget : BudgetBreakdown) (automatic : Option ResidentChoice) : Option ResidentChoice :=
  (chooseResident catalog host policy { budget with
    residentBudgetGb := min (budget.residentBudgetGb + headroomGb) budget.usableGb }).filter
      fun candidate => automatic.all fun current => current.score < candidate.score

def recommend (hardware : HostFacts) (catalog : Catalog) (partialPolicy : Option PartialPolicy)
    (forced : Option String) (allocatedBudgetBytes : Option Nat) :
    Except RecommendError Recommendation := do
  let policy := RecommenderPolicy.merged partialPolicy
  let budget := budgetBreakdown hardware policy allocatedBudgetBytes
  let blocked ← blockedChoices catalog hardware policy budget
  let automatic := chooseResident catalog hardware policy budget
  let forcedResult := applyCoreOverride catalog hardware policy forced automatic budget
  let headroomBreachOption :=
    if forcedResult.overrideChoice.isSome then none
    else headroomBreach catalog hardware policy budget automatic
  let tempResult := tempAdmission catalog hardware policy forcedResult.resident budget
  let blocked := tempResult.blockedAlternatives.foldl (fun blocked (id, alternative) =>
    attachAlternative blocked id alternative) blocked
  return {
    hardware, policy
    usableGb := budget.usableGb
    reserveGb := budget.reserveGb
    tempReserveGb := budget.tempReserveGb
    residentBudgetGb := budget.residentBudgetGb
    resident := forcedResult.resident
    temp := tempResult.choices
    blocked
    recommendedSysctl :=
      recommendedWiredLimitMb (appleUsableGb hardware.ramGb policy.wiredMode)
    overrideChoice := forcedResult.overrideChoice
    headroomBreachOption }

end Recommender
