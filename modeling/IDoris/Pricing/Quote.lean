import Mathlib.Algebra.Order.Floor.Defs
import Mathlib.Data.Rat.Floor
import Mathlib.Tactic.Positivity
import Mathlib.Tactic.GCongr
import IDoris.Library.Bounded
import IDoris.Proxy.Types

/-!
# Quotes and charges

What a call is expected to cost before it is made, and what it cost by the usage that the
upstream reports. Rates and amounts are exact; a rate may fail to be a number.
-/
namespace Pricing

open Bounded
open Proxy (Json UsageEvidence UsageEvidenceError)

/-- A rate: exact, or one of the values of `f64` that are not finite. -/
inductive Rate where
  | finite (value : ℚ)
  | infinite (negative : Bool)
  | nan
  deriving DecidableEq

namespace Rate

def isZero : Rate → Bool
  | finite value => value = 0
  | _ => false

def isFinite : Rate → Bool
  | finite _ => true
  | _ => false

def isNegative : Rate → Bool
  | finite value => value < 0
  | infinite negative => negative
  | nan => false

def value : Rate → ℚ
  | finite value => value
  | _ => 0

end Rate

/-- Minor units per million tokens. -/
structure Cost where
  inputPerM : Rate
  outputPerM : Rate

def reservedCompletionTokens : Nat := 1024

def maxExactCompletionTokens : Nat := 2 ^ 53

def Json.field (body : Json) (key : String) : Option Json :=
  body.asObject.bind (·.lookup key)

def isNull : Json → Bool
  | .null => true
  | _ => false

/-- The reservation for a completion: the largest cap that the request names, not less than the
floor; or the field that is refused. -/
def completionReservationTokens (body : Json) : Except String Nat := do
  if (Json.field body "n").any fun count => !isNull count && count.asU64 ≠ some 1 then throw "n"
  ["max_tokens", "max_completion_tokens"].foldlM (fun completion field =>
    match (Json.field body field).filter fun value => !isNull value with
    | some value =>
      match value.asU64.filter fun cap => cap.toNat ≤ maxExactCompletionTokens with
      | some cap => .ok (max completion cap.toNat)
      | none => .error field
    | none => .ok completion) reservedCompletionTokens

def isAscii (c : Char) : Bool := c.toNat < 128

/-- A third of a token for an ASCII character, a token for every byte of another one. -/
def estimateTokens (text : String) : Nat :=
  let asciiBytes := text.toList.countP isAscii
  let nonAsciiBytes := ((text.toList.filter fun c => !isAscii c).map Char.utf8Size).sum
  (asciiBytes + 2) / 3 + nonAsciiBytes

def pricedMinor (cost : Cost) (inputTokens outputTokens : Nat) : Option I64 :=
  if cost.inputPerM.isZero && cost.outputPerM.isZero then some (I64.clamp 0)
  else if !cost.inputPerM.isFinite || !cost.outputPerM.isFinite || cost.inputPerM.isNegative ||
      cost.outputPerM.isNegative then none
  else
    let inputMinor := inputTokens / 1000000 * cost.inputPerM.value
    let outputMinor := outputTokens / 1000000 * cost.outputPerM.value
    let total := ⌈inputMinor + outputMinor⌉
    -- `i64::MAX as f64` is 2^63, and the cast of it saturates.
    if 0 ≤ total ∧ total ≤ 2 ^ 63 then some (I64.clamp total) else none

def actualCostFromUsage (cost : Cost) (usage : UsageEvidence) : Except UsageEvidenceError I64 :=
  match pricedMinor cost usage.inputTokens.toNat usage.outputTokens.toNat with
  | some charge => .ok charge
  | none => .error .invalidPriceOrAmount

def estimateCostMinorWithCompletion (cost : Cost) (prompt : String) (completion : Nat) :
    Option I64 :=
  pricedMinor cost (estimateTokens prompt) (max completion reservedCompletionTokens)

def isPaid (estimatedCostMinor : Option I64) : Bool := estimatedCostMinor.any fun v => 0 < v.val

/-- Finite rates that are not negative, and one of them positive. -/
structure Priced (cost : Cost) : Prop where
  input_finite : cost.inputPerM.isFinite = true
  output_finite : cost.outputPerM.isFinite = true
  input_nonneg : 0 ≤ cost.inputPerM.value
  output_nonneg : 0 ≤ cost.outputPerM.value
  positive : 0 < cost.inputPerM.value ∨ 0 < cost.outputPerM.value

/-- The exact amount, before it is rounded up. -/
def amount (cost : Cost) (inputTokens outputTokens : Nat) : ℚ :=
  inputTokens / 1000000 * cost.inputPerM.value + outputTokens / 1000000 * cost.outputPerM.value

section Amounts

variable {cost : Cost} {inputTokens outputTokens moreInput moreOutput : Nat} {charge : I64}
  {rate : Rate}

theorem Rate.isZero_of_finite (h : rate.isFinite = true) :
    rate.isZero = decide (rate.value = 0) := by
  cases rate with
  | finite value => rfl
  | _ => cases h

theorem Rate.isNegative_of_finite (h : rate.isFinite = true) :
    rate.isNegative = decide (rate.value < 0) := by
  cases rate with
  | finite value => rfl
  | _ => cases h

theorem Priced.amount_nonneg (h : Priced cost) : 0 ≤ amount cost inputTokens outputTokens := by
  have hinput := h.input_nonneg
  have houtput := h.output_nonneg
  unfold amount
  positivity

theorem Priced.amount_mono (h : Priced cost) (hinput : inputTokens ≤ moreInput)
    (houtput : outputTokens ≤ moreOutput) :
    amount cost inputTokens outputTokens ≤ amount cost moreInput moreOutput := by
  have hi := h.input_nonneg
  have ho := h.output_nonneg
  unfold amount
  gcongr

theorem Priced.pricedMinor_eq (h : Priced cost) : pricedMinor cost inputTokens outputTokens =
    if ⌈amount cost inputTokens outputTokens⌉ ≤ 2 ^ 63 then
      some (I64.clamp ⌈amount cost inputTokens outputTokens⌉) else none := by
  have hzero : ¬(cost.inputPerM.isZero && cost.outputPerM.isZero) = true := by
    rw [Rate.isZero_of_finite h.input_finite, Rate.isZero_of_finite h.output_finite]
    simp only [Bool.and_eq_true, decide_eq_true_eq, not_and]
    intro hinput houtput
    obtain hpositive | hpositive := h.positive
    · exact absurd hinput hpositive.ne'
    · exact absurd houtput hpositive.ne'
  have hformed : ¬(!cost.inputPerM.isFinite || !cost.outputPerM.isFinite ||
      cost.inputPerM.isNegative || cost.outputPerM.isNegative) = true := by
    simp [h.input_finite, h.output_finite, Rate.isNegative_of_finite, h.input_nonneg,
      h.output_nonneg]
  have hnonneg : 0 ≤ ⌈amount cost inputTokens outputTokens⌉ := Int.ceil_nonneg h.amount_nonneg
  unfold pricedMinor
  rw [if_neg hzero, if_neg hformed]
  exact if_congr (and_iff_right hnonneg) rfl rfl

theorem Priced.charge_val (h : Priced cost)
    (hcharge : pricedMinor cost inputTokens outputTokens = some charge) :
    ⌈amount cost inputTokens outputTokens⌉ ≤ 2 ^ 63 ∧
      charge.val = min ⌈amount cost inputTokens outputTokens⌉ (2 ^ 63 - 1) := by
  rw [h.pricedMinor_eq] at hcharge
  have hnonneg : 0 ≤ ⌈amount cost inputTokens outputTokens⌉ := Int.ceil_nonneg h.amount_nonneg
  split at hcharge
  · rename_i hle
    obtain rfl := Option.some.inj hcharge
    rw [I64.clamp_val]
    exact ⟨hle, by omega⟩
  · cases hcharge

/-- A charge for no more tokens is defined and no larger. -/
theorem Priced.pricedMinor_mono (h : Priced cost) (hinput : inputTokens ≤ moreInput)
    (houtput : outputTokens ≤ moreOutput) {quote : I64}
    (hquote : pricedMinor cost moreInput moreOutput = some quote) :
    ∃ charge, pricedMinor cost inputTokens outputTokens = some charge ∧
      charge.val ≤ quote.val := by
  have hle : ⌈amount cost inputTokens outputTokens⌉ ≤ ⌈amount cost moreInput moreOutput⌉ :=
    Int.ceil_mono (h.amount_mono hinput houtput)
  obtain ⟨hfits, hval⟩ := h.charge_val hquote
  have hcharge : pricedMinor cost inputTokens outputTokens =
      some (I64.clamp ⌈amount cost inputTokens outputTokens⌉) := by
    rw [h.pricedMinor_eq, if_pos (hle.trans hfits)]
  refine ⟨_, hcharge, ?_⟩
  rw [(h.charge_val hcharge).2, hval]
  omega

theorem Priced.pricedMinor_pos (h : Priced cost)
    (hpositive : 0 < amount cost inputTokens outputTokens)
    (hcharge : pricedMinor cost inputTokens outputTokens = some charge) : 0 < charge.val := by
  have hceil := Int.ceil_pos.mpr hpositive
  rw [(h.charge_val hcharge).2]
  omega

end Amounts

section Quotes

variable {cost : Cost} {prompt : String} {completion : Nat}

theorem estimateTokens_pos (text : String) (h : text ≠ "") : 0 < estimateTokens text := by
  obtain ⟨c, hc⟩ : ∃ c, c ∈ text.toList := by
    apply List.exists_mem_of_ne_nil
    simpa using h
  unfold estimateTokens
  by_cases hascii : isAscii c = true
  · have hcount : 0 < text.toList.countP isAscii := List.countP_pos_iff.mpr ⟨c, hc, hascii⟩
    have hthird : 0 < (text.toList.countP isAscii + 2) / 3 := by omega
    exact Nat.add_pos_left hthird _
  · have hmem : c ∈ text.toList.filter fun c => !isAscii c :=
      List.mem_filter.mpr ⟨hc, by simpa using hascii⟩
    have hsize : c.utf8Size ≤ ((text.toList.filter fun c => !isAscii c).map Char.utf8Size).sum :=
      List.le_sum_of_mem (List.mem_map_of_mem hmem)
    have hpositive := c.utf8Size_pos
    exact Nat.add_pos_right _ (by omega)

/-- A text is estimated at no more than a text it occurs in. -/
theorem estimateTokens_mono {part text : String} (h : part.toList <:+: text.toList) :
    estimateTokens part ≤ estimateTokens text := by
  obtain ⟨before, after, h⟩ := h
  unfold estimateTokens
  rw [← h]
  simp only [List.countP_append, List.filter_append, List.map_append, List.sum_append]
  omega

/-- The quote is not that of a free call. -/
def NeverFree (cost : Cost) (prompt : String) (completion : Nat) : Prop :=
  ∀ quote, estimateCostMinorWithCompletion cost prompt completion = some quote → 0 < quote.val

/-- What is charged for no more tokens than were quoted is defined, and no more than the quote. -/
def Dominates (cost : Cost) (prompt : String) (completion : Nat) : Prop :=
  ∀ quote, estimateCostMinorWithCompletion cost prompt completion = some quote →
    ∀ usage : UsageEvidence, usage.inputTokens.toNat ≤ estimateTokens prompt →
      usage.outputTokens.toNat ≤ max completion reservedCompletionTokens →
        ∃ charge, actualCostFromUsage cost usage = .ok charge ∧ charge.val ≤ quote.val

theorem Priced.dominates (h : Priced cost) : Dominates cost prompt completion := by
  intro quote hquote usage hinput houtput
  obtain ⟨charge, hcharge, hle⟩ := h.pricedMinor_mono hinput houtput hquote
  exact ⟨charge, by rw [actualCostFromUsage, hcharge], hle⟩

theorem Priced.amount_pos (h : Priced cost)
    (hcounts : 0 < cost.outputPerM.value ∨ prompt ≠ "") :
    0 < amount cost (estimateTokens prompt) (max completion reservedCompletionTokens) := by
  have hinput := h.input_nonneg
  have houtput := h.output_nonneg
  have hfloor : 0 < max completion reservedCompletionTokens :=
    lt_of_lt_of_le (by decide) (le_max_right _ _)
  unfold amount
  by_cases hpositive : 0 < cost.outputPerM.value
  · positivity
  · have hrate : 0 < cost.inputPerM.value := h.positive.resolve_right hpositive
    have htokens := estimateTokens_pos prompt (hcounts.resolve_left hpositive)
    positivity

/-- A provider that only prices the prompt is quoted as free for an empty one. -/
theorem Priced.empty_prompt (h : Priced cost) (hrate : ¬0 < cost.outputPerM.value) :
    estimateCostMinorWithCompletion cost "" completion = some (I64.clamp 0) := by
  have hzero : cost.outputPerM.value = 0 := le_antisymm (not_lt.mp hrate) h.output_nonneg
  have hamount : amount cost (estimateTokens "") (max completion reservedCompletionTokens) = 0 := by
    have htokens : estimateTokens "" = 0 := rfl
    rw [amount, htokens, hzero]
    simp
  rw [estimateCostMinorWithCompletion, h.pricedMinor_eq, hamount]
  rfl

/-- In exact arithmetic, the quote of a priced provider is sound exactly when its completions cost
something or the prompt has text; a product that underflows is outside. -/
theorem quote_sound_iff (h : Priced cost) (prompt : String) (completion : Nat) :
    (NeverFree cost prompt completion ∧ Dominates cost prompt completion) ↔
      0 < cost.outputPerM.value ∨ prompt ≠ "" := by
  constructor
  · rintro ⟨hnever, -⟩
    by_contra hcounts
    obtain ⟨hrate, hprompt⟩ := not_or.mp hcounts
    obtain rfl := not_not.mp hprompt
    exact absurd (hnever _ (h.empty_prompt hrate)) (by decide)
  · intro hcounts
    exact ⟨fun quote hquote => h.pricedMinor_pos (h.amount_pos hcounts) hquote, h.dominates⟩

end Quotes

section Samples

/-- Ten million minor units per million prompt tokens; completions are free. -/
def inputOnly : Cost := ⟨.finite 10000000, .finite 0⟩

theorem inputOnly_priced : Priced inputOnly := by
  constructor <;> simp [inputOnly, Rate.isFinite, Rate.value]

/-- A prompt without text is quoted as free although every token of it costs ten. -/
theorem inputOnly_quoted_free : Priced inputOnly ∧ ¬NeverFree inputOnly "" 1024 := by
  refine ⟨inputOnly_priced, fun h => ?_⟩
  have hfree : estimateCostMinorWithCompletion inputOnly "" 1024 = some (I64.clamp 0) :=
    inputOnly_priced.empty_prompt (by decide)
  exact absurd (h _ hfree) (by decide)

theorem quote_sound_inputOnly :
    (NeverFree inputOnly "hi" 1024 ∧ Dominates inputOnly "hi" 1024) ↔
      0 < inputOnly.outputPerM.value ∨ "hi" ≠ "" :=
  quote_sound_iff inputOnly_priced "hi" 1024

end Samples

end Pricing
