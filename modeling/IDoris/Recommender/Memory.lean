import Mathlib.Algebra.Order.Field.Rat
import IDoris.Library.Loop
import IDoris.Policy.Card

/-!
# Memory of models

The catalogue of models, the memory that a quantisation of a model takes, and the quantisation
that is picked within a budget. Memory sizes and qualities are exact.
-/
namespace Recommender

open Policy (Capability Role F64)

instance : F64 ℚ where
  isNaN _ := false
  gt a b := decide (b < a)

inductive KvQuant where
  | fp16 | q8 | q4
  deriving DecidableEq

def KvQuant.bytesPerElement : KvQuant → ℚ
  | fp16 => 2
  | q8 => 1
  | q4 => 1 / 2

inductive WiredMode where
  | conservative | moderate | aggressive
  deriving DecidableEq

def WiredMode.fraction : WiredMode → ℚ
  | conservative => 66 / 100
  | moderate => 70 / 100
  | aggressive => 75 / 100

structure ModelArch where
  nLayers : ℚ
  nKvHeads : ℚ
  headDim : ℚ
  deriving DecidableEq

/-- Every role but `auto`. -/
structure CatalogRole where
  role : Role
  named : role.isCatalogRole = true
  deriving DecidableEq

structure CatalogQuant where
  label : String
  bpp : Option ℚ
  weightsGb : Option ℚ
  quality : ℚ
  deriving DecidableEq

structure CatalogModel where
  id : String
  paramsTotalB : ℚ
  arch : ModelArch
  roles : List CatalogRole
  capability : Option (List (String × ℚ))
  quantOptions : List CatalogQuant
  minRamGb : ℚ
  status : Option String
  deriving DecidableEq

structure Catalog where
  catalog : List CatalogModel
  deriving DecidableEq

structure HostFacts where
  ramGb : ℚ
  deriving DecidableEq

section Policy

structure RecommenderPolicy where
  wiredMode : WiredMode
  contextTarget : Nat
  kvQuant : KvQuant
  tempSlots : Nat
  qualityThreshold : ℚ
  neededCapabilities : List Capability
  deriving DecidableEq

def RecommenderPolicy.default : RecommenderPolicy :=
  ⟨.conservative, 32768, .q8, 1, 98 / 100, [.vision, .coding]⟩

structure PartialPolicy where
  wiredMode : Option WiredMode
  contextTarget : Option Nat
  kvQuant : Option KvQuant
  tempSlots : Option Nat
  qualityThreshold : Option ℚ
  neededCapabilities : Option (List Capability)
  deriving DecidableEq

def RecommenderPolicy.merged : Option PartialPolicy → RecommenderPolicy
  | none => .default
  | some given =>
    { wiredMode := given.wiredMode.getD default.wiredMode
      contextTarget := given.contextTarget.getD default.contextTarget
      kvQuant := given.kvQuant.getD default.kvQuant
      tempSlots := given.tempSlots.getD default.tempSlots
      qualityThreshold := given.qualityThreshold.getD default.qualityThreshold
      neededCapabilities := given.neededCapabilities.getD default.neededCapabilities }

end Policy

section Memory

def defaultOverheadGb : ℚ := 1

def bytesPerGb : ℚ := 1000000000

def bytesToGb (bytes : ℚ) : ℚ := bytes / bytesPerGb

/-- A quantisation gives its weights or the bytes of a parameter. -/
def weightBytes (paramsTotalB : ℚ) (quant : CatalogQuant) : Option ℚ :=
  match quant.weightsGb with
  | some weightsGb => some (weightsGb * bytesPerGb)
  | none => quant.bpp.map fun bpp => paramsTotalB * bpp * bytesPerGb

def weightsGb (paramsTotalB : ℚ) (quant : CatalogQuant) : Option ℚ :=
  (weightBytes paramsTotalB quant).map bytesToGb

def kvBytes (arch : ModelArch) (ctx : Nat) (kvQuant : KvQuant) : ℚ :=
  2 * arch.nLayers * arch.nKvHeads * arch.headDim * ctx * kvQuant.bytesPerElement

def kvCacheGb (arch : ModelArch) (ctx : Nat) (kvQuant : KvQuant) : ℚ :=
  bytesToGb (kvBytes arch ctx kvQuant)

def appleReserveGb (ramGb : ℚ) : ℚ := min (max (ramGb * (30 / 100)) 3) 16

def appleUsableGb (ramGb : ℚ) (mode : WiredMode) : ℚ :=
  min (ramGb * mode.fraction) (ramGb - appleReserveGb ramGb)

/-- Halves are rounded away from zero. -/
def recommendedWiredLimitMb (usableGb : ℚ) : Int :=
  if 0 ≤ usableGb then (usableGb * 1024 + 1 / 2).floor else -(-(usableGb * 1024) + 1 / 2).floor

end Memory

section Quant

structure QuantPick where
  label : String
  quality : ℚ
  weightsGb : ℚ
  kvGb : ℚ
  footprintGb : ℚ
  deriving DecidableEq

def toPick (quant : CatalogQuant) (model : CatalogModel) (policy : RecommenderPolicy) :
    Option QuantPick := do
  let weightsGb ← weightsGb model.paramsTotalB quant
  let kvGb := kvCacheGb model.arch policy.contextTarget policy.kvQuant
  return ⟨quant.label, quant.quality, weightsGb, kvGb, weightsGb + kvGb + defaultOverheadGb⟩

/-- Better, or as good and smaller. -/
def QuantPick.beats (pick current : QuantPick) : Bool :=
  current.quality < pick.quality ||
    pick.quality = current.quality && pick.footprintGb < current.footprintGb

def pickQuant (model : CatalogModel) (budgetGb : ℚ) (policy : RecommenderPolicy)
    (minQuality : ℚ) : Option QuantPick := do
  let best ← model.quantOptions.foldlM (fun best quant =>
    if quant.quality < minQuality then some best
    else do
      let pick ← toPick quant model policy
      if budgetGb < pick.footprintGb then return best
      else return Loop.consider QuantPick.beats best pick) none
  best

def lowestFootprintPick (model : CatalogModel) (policy : RecommenderPolicy) :
    Option QuantPick := do
  let best ← model.quantOptions.foldlM (fun best quant => do
    let pick ← toPick quant model policy
    return Loop.consider (fun pick current => pick.footprintGb < current.footprintGb) best pick)
    none
  best

def quantByLabel (model : CatalogModel) (label : String) (policy : RecommenderPolicy) :
    Option QuantPick := do
  let quant ← model.quantOptions.find? (·.label = label)
  toPick quant model policy

end Quant

end Recommender
