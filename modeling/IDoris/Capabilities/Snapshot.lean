import IDoris.Recommender.Recommend

/-!
# The capability snapshot

The entries of `GET /capabilities`, made from a recommendation.
-/
namespace Capabilities

open Policy (Capability)
open Recommender

inductive AdmissionStatus where
  | ready
  | requiresEviction
  | blocked
  deriving DecidableEq

structure AlternativeEntry where
  id : String
  capability : String
  estimatedMemoryGb : ℚ
  quant : String
  reason : String
  deriving DecidableEq

structure HeadroomBreachOption where
  id : String
  quant : String
  estimatedMemoryGb : ℚ
  ctxLimit : Nat
  deriving DecidableEq

/-- `degradedAlternative` is there where an eviction is needed, if only as `null`. -/
structure CapabilityEntry where
  id : String
  capability : String
  resident : Bool
  estimatedMemoryGb : ℚ
  ctxLimit : Nat
  queueDepth : Nat
  admissionStatus : AdmissionStatus
  degradedAlternative : Option (Option AlternativeEntry)
  degradedAlternatives : Option (List AlternativeEntry)
  headroomBreachOption : Option HeadroomBreachOption
  deriving DecidableEq

def capabilityName : Capability → String
  | .chat => "chat"
  | .reasoning => "reasoning"
  | .vision => "vision"
  | .asr => "asr"
  | .tts => "tts"
  | .coding => "coding"
  | .embedding => "embedding"
  | .rerank => "rerank"

/-- Halves are rounded away from zero. -/
def roundGb (value : ℚ) : ℚ :=
  let scaled := value * 100
  (if 0 ≤ scaled then (scaled + 1 / 2).floor else -(-scaled + 1 / 2).floor) / 100

def reasonFitsWithoutEviction : String := "fits_without_eviction"

def alternativeEntry (alt : TempAlternative) : AlternativeEntry where
  id := alt.id
  capability := capabilityName alt.capability
  estimatedMemoryGb := roundGb alt.quant.footprintGb
  quant := alt.quant.label
  reason := reasonFitsWithoutEviction

def priority : List String :=
  ["reasoning", "coding", "vision", "asr", "tts", "embedding", "rerank", "chat"]

/-- The first of the best capabilities of a model. -/
def topCapability (model : Option CatalogModel) : String :=
  match model.bind CatalogModel.capability with
  | none => "chat"
  | some scores =>
    ((priority.foldl (fun (best : Option (String × ℚ)) name =>
      match scores.lookup name with
      | none => best
      | some score =>
        if best.all fun known => known.2 < score then some (name, score) else best) none).map
          Prod.fst).getD "chat"

/-- `take_if`: the option goes to this entry if it is the model's. -/
def takeIf (held : Option HeadroomBreachOption) (id : String) :
    Option HeadroomBreachOption × Option HeadroomBreachOption :=
  if held.any fun option => option.id = id then (held, none) else (none, held)

/-- The entries of a list, the first of which with the option's model takes the option. -/
def takingEntries {α : Type} (idOf : α → String)
    (entry : α → Option HeadroomBreachOption → CapabilityEntry) :
    Option HeadroomBreachOption → List α → List CapabilityEntry
  | _, [] => []
  | held, x :: xs =>
    entry x (takeIf held (idOf x)).1 :: takingEntries idOf entry (takeIf held (idOf x)).2 xs

def headroomOption (option : ResidentChoice) : HeadroomBreachOption where
  id := option.id
  quant := option.label
  estimatedMemoryGb := roundGb option.footprintGb
  ctxLimit := option.ctx

section Entries

variable (recommendation : Recommendation) (catalog : Catalog) (queueDepth : Nat)

def residentEntry (resident : ResidentChoice) (option : Option HeadroomBreachOption) :
    CapabilityEntry where
  id := resident.id
  capability := "reasoning"
  resident := true
  estimatedMemoryGb := roundGb resident.footprintGb
  ctxLimit := resident.ctx
  queueDepth := queueDepth
  admissionStatus := .ready
  degradedAlternative := none
  degradedAlternatives := none
  headroomBreachOption := option

/-- No model is resident, and the option's is in no other entry. -/
def optionEntry (option : HeadroomBreachOption) : CapabilityEntry where
  id := option.id
  capability := topCapability (catalog.catalog.find? (·.id = option.id))
  resident := true
  estimatedMemoryGb := option.estimatedMemoryGb
  ctxLimit := option.ctxLimit
  queueDepth := queueDepth
  admissionStatus := .blocked
  degradedAlternative := none
  degradedAlternatives := some []
  headroomBreachOption := some option

def tempEntry (temp : TempChoice) (option : Option HeadroomBreachOption) : CapabilityEntry where
  id := temp.id
  capability := capabilityName temp.capability
  resident := false
  estimatedMemoryGb := roundGb temp.quant.footprintGb
  ctxLimit := recommendation.policy.contextTarget
  queueDepth := queueDepth
  admissionStatus := match temp.status with
    | .ready => .ready
    | .requiresEviction => .requiresEviction
  degradedAlternative :=
    if temp.status = .requiresEviction then some (temp.degradedAlternative.map alternativeEntry)
    else none
  degradedAlternatives := none
  headroomBreachOption := option

def blockedEntry (blocked : BlockedChoice) (option : Option HeadroomBreachOption) :
    CapabilityEntry where
  id := blocked.id
  capability := topCapability (catalog.catalog.find? (·.id = blocked.id))
  resident := false
  estimatedMemoryGb := roundGb blocked.estimatedMemoryGb
  ctxLimit := recommendation.policy.contextTarget
  queueDepth := queueDepth
  admissionStatus := .blocked
  degradedAlternative := none
  degradedAlternatives := some (blocked.degradedAlternatives.map alternativeEntry)
  headroomBreachOption := option

/-- The entries before the others, and the options that are left for blocked and temp entries. -/
structure Placement where
  entries : List CapabilityEntry
  blockedOption : Option HeadroomBreachOption
  tempOption : Option HeadroomBreachOption

def placement : Placement :=
  let option := recommendation.headroomBreachOption.map headroomOption
  match recommendation.resident, option with
  | some resident, option => ⟨[residentEntry queueDepth resident option], none, none⟩
  | none, none => ⟨[], none, none⟩
  | none, some option =>
    if recommendation.blocked.any fun blocked => blocked.id = option.id then ⟨[], some option, none⟩
    else
      match recommendation.temp.find? fun temp => temp.id = option.id with
      | some temp => ⟨[], none, if temp.quant.label ≠ option.quant then some option else none⟩
      | none => ⟨[optionEntry catalog queueDepth option], none, none⟩

def mapRecommendation : List CapabilityEntry :=
  let placed := placement recommendation catalog queueDepth
  placed.entries ++
    takingEntries TempChoice.id (tempEntry recommendation queueDepth) placed.tempOption
      recommendation.temp ++
    takingEntries BlockedChoice.id (blockedEntry recommendation catalog queueDepth)
      placed.blockedOption recommendation.blocked

end Entries

structure LiveCapabilitiesProvider where
  catalog : Catalog
  facts : HostFacts
  policy : Option PartialPolicy
  allocatedBudgetBytes : Option Nat

def capabilitiesError : String := "recommender snapshot failed"

/-- `queueDepth` is what the runtimes say. -/
def LiveCapabilitiesProvider.liveSnapshot (provider : LiveCapabilitiesProvider) (queueDepth : Nat) :
    Except String (List CapabilityEntry) :=
  match recommend provider.facts provider.catalog provider.policy none
      provider.allocatedBudgetBytes with
  | .error _ => .error capabilitiesError
  | .ok recommendation => .ok (mapRecommendation recommendation provider.catalog queueDepth)

end Capabilities
