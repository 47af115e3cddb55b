import IDoris.Policy.Sound

/-!
# Affinity and readiness break ties

Both are compared after the admission rank and the cost. Whatever they are, the
choice has the same rank and the same cost, and the budget looks at nothing else.
-/
namespace Policy

open Bounded Proxy Transaction

section Statement

variable {F : Type}

/-- What the order compares before affinity and readiness. -/
def Card.rank (card : Card F) : ℕ ×ₗ ℤ :=
  toLex (admissionRank card.admissionStatus, card.costMinor)

/-- Two answers of the pipeline that differ in nothing but which of several equally ranked
and equally priced cards was chosen. -/
inductive EqualUpToTies : Except Rejection (Option (Decision × Card F)) →
    Except Rejection (Option (Decision × Card F)) → Prop where
  | rejected (rejection : Rejection) : EqualUpToTies (.error rejection) (.error rejection)
  | accepted {decision decision' : Decision} {card card' : Card F}
      (reasonCodes : decision.reasonCodes = decision'.reasonCodes)
      (degradations : decision.degradations = decision'.degradations)
      (admissionRank : admissionRank card.admissionStatus = admissionRank card'.admissionStatus)
      (estimatedCost : card.estimatedCostMinor = card'.estimatedCostMinor) :
      EqualUpToTies (.ok (some (decision, card))) (.ok (some (decision', card')))

end Statement

section Choice

variable {F : Type} {candidates : List (Card F)} {affinityKey affinityKey' : Option String}
  {ready ready' : List String} {card card' : Card F}

theorem compareCards_refines (affinityKey : Option String) (ready : List String) :
    Selection.Refines (compareCards (F := F) affinityKey ready) Card.rank :=
  Selection.refines_lex (fun card => admissionRank card.admissionStatus) Card.costMinor _

theorem pick_rank (h : pick candidates affinityKey ready = some card)
    (h' : pick candidates affinityKey' ready' = some card') :
    admissionRank card.admissionStatus = admissionRank card'.admissionStatus ∧
      card.costMinor = card'.costMinor := by
  have hrank := (compareCards_refines affinityKey ready).minBy_rank
    (compareCards_refines affinityKey' ready') h h'
  simpa [Card.rank] using hrank

/-- The cost the budget stage looks at. -/
theorem pick_cost (candidates : List (Card F)) :
    ((pick candidates affinityKey ready).bind Card.estimatedCostMinor).getD (.lit 0) =
      ((pick candidates affinityKey' ready').bind Card.estimatedCostMinor).getD (.lit 0) := by
  by_cases hnil : candidates = []
  · rw [hnil]
    rfl
  · obtain ⟨card, hcard⟩ : ∃ card, pick candidates affinityKey ready = some card :=
      pick_isSome hnil
    obtain ⟨card', hcard'⟩ : ∃ card', pick candidates affinityKey' ready' = some card' :=
      pick_isSome hnil
    rw [hcard, hcard', Option.bind_some, Option.bind_some]
    exact I64.ext' (pick_rank hcard hcard').2

/-- Between known prices the compared cost is the price. -/
theorem estimatedCost_of_costMinor
    (hpriced : ∃ cost, card.estimatedCostMinor = some cost ∧ 0 ≤ cost.val)
    (hpriced' : ∃ cost, card'.estimatedCostMinor = some cost ∧ 0 ≤ cost.val)
    (h : card.costMinor = card'.costMinor) :
    card.estimatedCostMinor = card'.estimatedCostMinor := by
  obtain ⟨cost, hcost, -⟩ := hpriced
  obtain ⟨cost', hcost', -⟩ := hpriced'
  rw [Card.costMinor, Card.costMinor, hcost, hcost'] at h
  have hsame : cost = cost' := I64.ext' h
  rw [hcost, hcost', hsame]

end Choice

section Stages

variable {F : Type} {req : RequestProfile} {ctx : PolicyCtx F} {candidates : List (Card F)}
  {affinityKey affinityKey' : Option String} {ready ready' : List String}

/-- The budget stage accepts, degrades and rejects alike. -/
theorem budgetStage_tiebreak (affinityKey affinityKey' : Option String)
    (ready ready' : List String) :
    budgetStage req ctx candidates affinityKey ready =
      budgetStage req ctx candidates affinityKey' ready' := by
  unfold budgetStage
  rw [pick_cost candidates]

variable [F64 F] {cards : List (Card F)} {rejection : Rejection}

/-- An accepted request always has a decision. -/
theorem decide_answers {answer : Option (Decision × Card F)}
    (h : decideWithAffinityAndReadySelected req cards ctx affinityKey ready = .ok answer) :
    ∃ chosen, answer = some chosen := by
  cases answer with
  | none => exact absurd h decide_ne_none
  | some chosen => exact ⟨chosen, rfl⟩

theorem decide_rejects_alike :
    decideWithAffinityAndReadySelected req cards ctx affinityKey ready = .error rejection ↔
      decideWithAffinityAndReadySelected req cards ctx affinityKey' ready' = .error rejection := by
  simp only [decideWithAffinityAndReadySelected, bind_eq_error, pure_eq_error,
    budgetStage_tiebreak affinityKey affinityKey' ready ready']

/-- Two accepting runs leave the last choice the same candidates. -/
theorem decide_accepts_alike {decision decision' : Decision} {card card' : Card F}
    (h : decideWithAffinityAndReadySelected req cards ctx affinityKey ready =
      .ok (some (decision, card)))
    (h' : decideWithAffinityAndReadySelected req cards ctx affinityKey' ready' =
      .ok (some (decision', card'))) :
    decision.reasonCodes = decision'.reasonCodes ∧
      decision.degradations = decision'.degradations ∧
      ∃ candidates, pick candidates affinityKey ready = some card ∧
        pick candidates affinityKey' ready' = some card' := by
  obtain ⟨privacyOk, matched, priced, eligible, afterBudget, _, _, _, _, _, _, hprivacy, hrole,
    hprice, hadmission, hbudget, hpick, -, hreasons, hdegradations⟩ := decide_stages h
  obtain ⟨_, _, _, _, _, _, _, _, _, _, _, hprivacy', hrole', hprice', hadmission', hbudget',
    hpick', -, hreasons', hdegradations'⟩ := decide_stages h'
  rw [hprivacy] at hprivacy'
  cases hprivacy'
  rw [hrole] at hrole'
  cases hrole'
  rw [hprice] at hprice'
  cases hprice'
  rw [hadmission] at hadmission'
  cases hadmission'
  rw [budgetStage_tiebreak affinityKey' affinityKey ready' ready, hbudget] at hbudget'
  cases hbudget'
  exact ⟨hreasons.trans hreasons'.symm, hdegradations.trans hdegradations'.symm, afterBudget,
    hpick, hpick'⟩

/-- Whatever the two affinity keys and the two ready sets, the pipeline rejects alike or
accepts alike. -/
theorem decide_equal_up_to_ties (req : RequestProfile) (cards : List (Card F)) (ctx : PolicyCtx F)
    (affinityKey affinityKey' : Option String) (ready ready' : List String) :
    EqualUpToTies (decideWithAffinityAndReadySelected req cards ctx affinityKey ready)
      (decideWithAffinityAndReadySelected req cards ctx affinityKey' ready') := by
  cases hfirst : decideWithAffinityAndReadySelected req cards ctx affinityKey ready with
  | error rejection =>
    rw [decide_rejects_alike.mp hfirst]
    exact .rejected rejection
  | ok answer =>
    cases hsecond : decideWithAffinityAndReadySelected req cards ctx affinityKey' ready' with
    | error rejection =>
      rw [decide_rejects_alike.mpr hsecond] at hfirst
      cases hfirst
    | ok answer' =>
      obtain ⟨⟨decision, card⟩, rfl⟩ := decide_answers hfirst
      obtain ⟨⟨decision', card'⟩, rfl⟩ := decide_answers hsecond
      obtain ⟨hreasons, hdegradations, _, hpick, hpick'⟩ := decide_accepts_alike hfirst hsecond
      obtain ⟨hrank, hcost⟩ := pick_rank hpick hpick'
      exact .accepted hreasons hdegradations hrank
        (estimatedCost_of_costMinor (decide_sound hfirst).priced (decide_sound hsecond).priced
          hcost)

end Stages

end Policy
