import IDoris.Policy.Decide

/-!
# Decision soundness

Each stage says what the candidates it leaves have passed; the guarantees of the
chosen card are put together from that.
-/
namespace Policy

open Bounded Proxy Transaction

section Statement

variable {F : Type} [F64 F]

/-- A card the privacy of the request lets in. -/
def PrivacyAdmissible (req : RequestProfile) (card : Card F) : Prop :=
  req.effectivePrivacy = .localOnly → isLocalCapable card = true

instance (req : RequestProfile) : DecidablePred (PrivacyAdmissible (F := F) req) :=
  fun _ => inferInstanceAs (Decidable (_ → _))

/-- The admissible cards that serve the request: those of its role, or all able ones where
it names no catalogue role or none serves it. -/
def serving (req : RequestProfile) (cards : List (Card F)) (ctx : PolicyCtx F) : List (Card F) :=
  let admissible := cards.filter fun card => PrivacyAdmissible req card
  let able := admissible.filter (isCapabilityCandidate req ctx)
  match catalogRole req with
  | some role =>
    if admissible.filter (isRoleCandidate req ctx role) = [] then able
    else admissible.filter (isRoleCandidate req ctx role)
  | none => able

/-- The card that would be chosen if budgets did not exist. -/
def naturalPick (req : RequestProfile) (cards : List (Card F)) (ctx : PolicyCtx F)
    (affinityKey : Option String) (ready : List String) : Option (Card F) :=
  pick (((serving req cards ctx).filter priceKnown).filter notBlocked) affinityKey ready

/-- The card serves the catalogue role, or the fallback across roles was declared, was
necessary and is on record. -/
def RoleSound (req : RequestProfile) (cards : List (Card F)) (ctx : PolicyCtx F)
    (decision : Decision) (card : Card F) (role : Role) : Prop :=
  isEligibleForRole card role ctx.minRamGb = true ∨
    req.task.fallback = some .nextInChain ∧
    (∀ other ∈ cards, PrivacyAdmissible req other →
      ¬(isEligibleForRole other role ctx.minRamGb = true ∧
        hasCapabilities other req.effectiveCapabilities = true)) ∧
    .roleFallback role ∈ decision.degradations

/-- What a budget snapshot of the tenant guarantees about the chosen card. -/
structure BudgetSound (req : RequestProfile) (snapshot : BudgetSnapshot) (decision : Decision)
    (natural card : Card F) : Prop where
  notFrozen : ¬(snapshot.scope = .all ∧ snapshot.isOver = true)
  covered : 0 < card.costMinor → snapshot.isOver = false ∧
    card.costMinor ≤ snapshot.limitMinor.val - snapshot.spentMinor.val
  replaced : card = natural ∨ card.costMinor = 0 ∧ 0 < natural.costMinor ∧
    req.task.fallback = some .nextInChain ∧
    ∃ cost, natural.estimatedCostMinor = some cost ∧ .budgetFallback cost ∈ decision.degradations

/-- The guarantees of a decision and its card. -/
structure Sound (req : RequestProfile) (cards : List (Card F)) (ctx : PolicyCtx F)
    (affinityKey : Option String) (ready : List String) (decision : Decision)
    (card : Card F) : Prop where
  listed : card ∈ cards
  chosen : decision.chosenId = card.id
  admissible : PrivacyAdmissible req card
  able : hasCapabilities card req.effectiveCapabilities = true
  healthy : isCatalogEligible card ctx.minRamGb = true
  role : ∀ role, req.role = some role → role.isCatalogRole = true →
    RoleSound req cards ctx decision card role
  priced : ∃ cost, card.estimatedCostMinor = some cost ∧ 0 ≤ cost.val
  admitted : card.admissionStatus ≠ .blocked
  budget : ∀ snapshot, tenantSnapshot req ctx = some snapshot →
    ∃ natural, naturalPick req cards ctx affinityKey ready = some natural ∧
      BudgetSound req snapshot decision natural card

end Statement

section Cards

variable {F : Type} {req : RequestProfile} {ctx : PolicyCtx F} {cards privacyOk candidates rest : List (Card F)}
  {affinityKey : Option String} {ready : List String} {card : Card F}
  {reasons : List ReasonCode} {degradation : Option Degradation} {decision : Decision}

theorem priceKnown_iff :
    priceKnown card = true ↔ ∃ cost, card.estimatedCostMinor = some cost ∧ 0 ≤ cost.val := by
  simp [priceKnown, Option.any_eq_true]

theorem notBlocked_iff : notBlocked card = true ↔ card.admissionStatus ≠ .blocked := by
  simp [notBlocked]

theorem Card.costMinor_of_isFree (h : card.isFree = true) : card.costMinor = 0 := by
  simp only [Card.isFree, decide_eq_true_eq] at h
  simp [Card.costMinor, h]

theorem pricingStage_ok (h : pricingStage candidates = .ok (rest, reasons)) :
    rest = candidates.filter priceKnown := by
  simp only [pricingStage, guard_eq_ok, pure_eq_ok, Prod.mk.injEq] at h
  exact h.2.1.symm

theorem admissionStage_ok (h : admissionStage candidates = .ok rest) :
    rest = candidates.filter notBlocked := by
  simp only [admissionStage, guard_eq_ok, pure_eq_ok] at h
  exact h.2.symm

/-- Without a snapshot, or within the limit, the stage leaves everything; otherwise the
declared fallback leaves the free candidates. -/
theorem budgetStage_ok
    (h : budgetStage req ctx candidates affinityKey ready = .ok (rest, reasons, degradation)) :
    (tenantSnapshot req ctx = none ∧ rest = candidates ∧ degradation = none) ∨
    ∃ snapshot cost, tenantSnapshot req ctx = some snapshot ∧
      cost = ((pick candidates affinityKey ready).bind Card.estimatedCostMinor).getD (.lit 0) ∧
      ¬(snapshot.scope = .all ∧ snapshot.isOver = true) ∧
      (wouldExceed snapshot cost = false ∧ rest = candidates ∧ degradation = none ∨
        wouldExceed snapshot cost = true ∧ rest = candidates.filter Card.isFree ∧ rest ≠ [] ∧
        req.allowFallback = true ∧ degradation = some (.budgetFallback cost)) := by
  unfold budgetStage at h
  cases hsnapshot : tenantSnapshot req ctx with
  | none =>
    simp only [hsnapshot, pure_eq_ok, Prod.mk.injEq] at h
    exact .inl ⟨rfl, h.1.symm, h.2.2.symm⟩
  | some snapshot =>
    simp only [hsnapshot, guard_eq_ok] at h
    obtain ⟨hfrozen, h⟩ := h
    refine .inr ⟨snapshot, _, rfl, rfl, by simpa using hfrozen, ?_⟩
    split at h
    · next hwithin =>
      simp only [pure_eq_ok, Prod.mk.injEq] at h
      exact .inl ⟨by simpa using hwithin, h.1.symm, h.2.2.symm⟩
    · next hexceeds =>
      split at h
      · next hfree =>
        simp only [pure_eq_ok, Prod.mk.injEq] at h
        obtain ⟨rfl, -, rfl⟩ := h
        simp only [Bool.and_eq_true, decide_eq_true_eq] at hfree
        exact .inr ⟨by simpa using hexceeds, rfl, hfree.2, hfree.1, rfl⟩
      · exact absurd h throw_eq_ok

theorem privacyStage_ok (h : privacyStage req cards = .ok (privacyOk, reasons)) :
    privacyOk = cards.filter fun card => PrivacyAdmissible req card := by
  unfold privacyStage at h
  split at h
  · next hlocal =>
    simp only [guard_eq_ok, pure_eq_ok, Prod.mk.injEq] at h
    rw [← h.2.1]
    simp [PrivacyAdmissible, hlocal]
  · next hany =>
    simp only [pure_eq_ok, Prod.mk.injEq] at h
    rw [← h.1]
    exact (List.filter_eq_self.mpr fun card _ => by simp [PrivacyAdmissible, hany]).symm

theorem budgetStage_subset
    (h : budgetStage req ctx candidates affinityKey ready = .ok (rest, reasons, degradation)) :
    ∀ {card}, card ∈ rest → card ∈ candidates := by
  intro card hcard
  obtain ⟨-, rfl, -⟩ | ⟨_, _, -, -, -, ⟨-, rfl, -⟩ | ⟨-, rfl, -⟩⟩ := budgetStage_ok h
  · exact hcard
  · exact hcard
  · exact (List.mem_filter.mp hcard).1

theorem admissionStage_ne_nil (h : admissionStage candidates = .ok rest) : rest ≠ [] := by
  simp only [admissionStage, guard_eq_ok, pure_eq_ok] at h
  exact h.2 ▸ h.1

theorem budgetStage_ne_nil
    (h : budgetStage req ctx candidates affinityKey ready = .ok (rest, reasons, degradation))
    (hne : candidates ≠ []) : rest ≠ [] := by
  obtain ⟨-, rfl, -⟩ | ⟨_, _, -, -, -, ⟨-, rfl, -⟩ | ⟨-, -, hfree, -⟩⟩ := budgetStage_ok h
  · exact hne
  · exact hne
  · exact hfree

theorem fallback_of_allowFallback (h : req.allowFallback = true) :
    req.task.fallback = some .nextInChain := by
  simpa [RequestProfile.allowFallback] using h

/-- The money part: what the budget stage and the choice after it guarantee. -/
theorem budget_sound {eligible afterBudget : List (Card F)} {snapshot : BudgetSnapshot}
    (hstage : budgetStage req ctx eligible affinityKey ready =
      .ok (afterBudget, reasons, degradation))
    (hsnapshot : tenantSnapshot req ctx = some snapshot)
    (hpriced : ∀ card ∈ eligible, priceKnown card = true)
    (hpick : pick afterBudget affinityKey ready = some card)
    (hdegradation : ∀ d, degradation = some d → d ∈ decision.degradations) :
    ∃ natural, pick eligible affinityKey ready = some natural ∧
      BudgetSound req snapshot decision natural card := by
  obtain ⟨hnone, -, -⟩ | ⟨snapshot', cost, hsome, hcost, hfrozen, hrest⟩ := budgetStage_ok hstage
  · rw [hsnapshot] at hnone
    cases hnone
  rw [hsnapshot] at hsome
  cases hsome
  obtain ⟨hwithin, rfl, -⟩ | ⟨hexceeds, rfl, -, hallow, hdegraded⟩ := hrest
  · refine ⟨card, hpick, hfrozen, ?_, .inl rfl⟩
    intro hpaid
    rw [hpick, Option.bind_some] at hcost
    have hval : cost.val = card.costMinor := by rw [hcost]; rfl
    simp only [wouldExceed, Bool.and_eq_false_iff, decide_eq_false_iff_not, Bool.or_eq_false_iff,
      hval] at hwithin
    obtain hfree | ⟨hover, hcovers⟩ := hwithin
    · exact absurd hpaid hfree
    · have hlimit : snapshot.spentMinor.val < snapshot.limitMinor.val := by
        simpa [BudgetSnapshot.isOver] using hover
      have hbalance : snapshot.balanceMinor.val ≤ _ := I64.wrappingSub_le hlimit
      exact ⟨hover, by omega⟩
  · have hcard := List.mem_filter.mp (pick_mem hpick)
    obtain ⟨natural, hnatural⟩ : ∃ natural, pick eligible affinityKey ready = some natural :=
      pick_isSome (List.ne_nil_of_mem hcard.1)
    obtain ⟨price, hprice, -⟩ :=
      priceKnown_iff.mp (hpriced natural (pick_mem hnatural))
    have hcostPrice : cost = price := by rw [hcost, hnatural, Option.bind_some, hprice]; rfl
    have hcostMinor : natural.costMinor = price.val := by rw [Card.costMinor, hprice]; rfl
    have hfree := Card.costMinor_of_isFree hcard.2
    simp only [wouldExceed, Bool.and_eq_true, decide_eq_true_eq] at hexceeds
    refine ⟨natural, hnatural, hfrozen, ?_, .inr ⟨hfree, ?_, fallback_of_allowFallback hallow,
      price, hprice, ?_⟩⟩
    · intro hpaid
      omega
    · rw [hcostMinor, ← hcostPrice]
      exact hexceeds.1
    · exact hcostPrice ▸ hdegradation _ hdegraded

end Cards

section Stages

variable {F : Type} [F64 F] {req : RequestProfile} {cards privacyOk candidates : List (Card F)}
  {ctx : PolicyCtx F} {affinityKey : Option String} {ready : List String} {card : Card F}
  {reasons : List ReasonCode} {degradation : Option Degradation}

/-- A role candidate is in particular healthy and able. -/
theorem isCapabilityCandidate_of_role {role : Role} (h : isRoleCandidate req ctx role card = true) :
    isCapabilityCandidate req ctx card = true := by
  simp only [isRoleCandidate, isCapabilityCandidate, Bool.and_eq_true] at h ⊢
  exact ⟨isCatalogEligible_of_role h.1, h.2⟩

theorem mem_serving (h : card ∈ serving req cards ctx) :
    card ∈ cards ∧ PrivacyAdmissible req card ∧ isCapabilityCandidate req ctx card = true := by
  have hable : card ∈ (cards.filter fun card => PrivacyAdmissible req card).filter
      (isCapabilityCandidate req ctx) := by
    unfold serving at h
    cases hrole : catalogRole req with
    | none => simpa only [hrole] using h
    | some role =>
      simp only [hrole] at h
      split at h
      · exact h
      · rw [List.mem_filter] at h ⊢
        exact ⟨h.1, isCapabilityCandidate_of_role h.2⟩
  simpa only [List.mem_filter, decide_eq_true_eq, and_assoc] using hable

/-- What the role stage leaves, and when it records a fallback. -/
theorem roleStage_ok
    (h : roleStage req ctx (cards.filter fun card => PrivacyAdmissible req card) =
      .ok (candidates, reasons, degradation)) :
    candidates = serving req cards ctx ∧
    ∀ role, catalogRole req = some role →
      (∀ card ∈ candidates, isRoleCandidate req ctx role card = true) ∨
      req.allowFallback = true ∧ degradation = some (.roleFallback role) ∧
      (cards.filter fun card => PrivacyAdmissible req card).filter
        (isRoleCandidate req ctx role) = [] := by
  unfold roleStage at h
  unfold serving
  cases hrole : catalogRole req with
  | none =>
    simp only [hrole, guard_eq_ok, pure_eq_ok, Prod.mk.injEq] at h
    exact ⟨h.2.1.symm, nofun⟩
  | some role =>
    simp only [hrole] at h
    split at h
    · next hmatched =>
      simp only [pure_eq_ok, Prod.mk.injEq] at h
      obtain ⟨rfl, -, -⟩ := h
      refine ⟨(if_neg hmatched).symm, ?_⟩
      rintro _ ⟨⟩
      exact .inl fun card hcard => (List.mem_filter.mp hcard).2
    · next hempty =>
      simp only [guard_eq_ok, pure_eq_ok, Prod.mk.injEq] at h
      obtain ⟨hfallback, -, rfl, -, rfl⟩ := h
      have hnone := not_not.mp hempty
      refine ⟨(if_pos hnone).symm, ?_⟩
      rintro _ ⟨⟩
      exact .inr ⟨by simpa using hfallback, rfl, hnone⟩

variable {decision : Decision}

/-- The choice at the end never meets an empty list. -/
theorem decide_ne_none :
    decideWithAffinityAndReadySelected req cards ctx affinityKey ready ≠ .ok none := by
  intro h
  simp only [decideWithAffinityAndReadySelected, bind_eq_ok, pure_eq_ok, Option.map_eq_none_iff,
    Prod.exists] at h
  obtain ⟨privacyOk, _, -, matched, _, _, -, priced, _, -, eligible, hadmission, afterBudget, _, _,
    hbudget, hpick⟩ := h
  obtain ⟨card, hcard⟩ : ∃ card, pick afterBudget affinityKey ready = some card :=
    pick_isSome (budgetStage_ne_nil hbudget (admissionStage_ne_nil hadmission))
  rw [hcard] at hpick
  cases hpick

/-- The stages of a run that ends with a card. -/
theorem decide_stages
    (h : decideWithAffinityAndReadySelected req cards ctx affinityKey ready =
      .ok (some (decision, card))) :
    ∃ privacyOk matched priced eligible afterBudget privacyReasons roleReasons priceReasons
        budgetReasons roleDegradation budgetDegradation,
      privacyStage req cards = .ok (privacyOk, privacyReasons) ∧
      roleStage req ctx privacyOk = .ok (matched, roleReasons, roleDegradation) ∧
      pricingStage matched = .ok (priced, priceReasons) ∧
      admissionStage priced = .ok eligible ∧
      budgetStage req ctx eligible affinityKey ready =
        .ok (afterBudget, budgetReasons, budgetDegradation) ∧
      pick afterBudget affinityKey ready = some card ∧
      decision.chosenId = card.id ∧
      decision.reasonCodes = privacyReasons ++ roleReasons ++ priceReasons ++ budgetReasons ++
        admissionReasons afterBudget ∧
      decision.degradations = roleDegradation.toList ++ budgetDegradation.toList := by
  simp only [decideWithAffinityAndReadySelected, bind_eq_ok, pure_eq_ok, Option.map_eq_some_iff,
    Prod.exists, Prod.mk.injEq] at h
  obtain ⟨privacyOk, privacyReasons, hprivacy, matched, roleReasons, roleDegradation, hrole,
    priced, priceReasons, hprice, eligible, hadmission, afterBudget, budgetReasons,
    budgetDegradation, hbudget, chosen, hpick, rfl, rfl⟩ := h
  exact ⟨privacyOk, matched, priced, eligible, afterBudget, privacyReasons, roleReasons,
    priceReasons, budgetReasons, roleDegradation, budgetDegradation, hprivacy, hrole, hprice,
    hadmission, hbudget, hpick, rfl, rfl, rfl⟩

theorem catalogRole_eq {role : Role} (h : req.role = some role)
    (hcatalog : role.isCatalogRole = true) : catalogRole req = some role := by
  simp [catalogRole, h, hcatalog]

/-- What the chosen card has passed on its way. -/
structure Passed (req : RequestProfile) (cards : List (Card F)) (ctx : PolicyCtx F)
    (card : Card F) : Prop where
  listed : card ∈ cards
  admissible : PrivacyAdmissible req card
  able : isCapabilityCandidate req ctx card = true
  priced : priceKnown card = true
  admitted : notBlocked card = true

theorem decide_passed
    (h : decideWithAffinityAndReadySelected req cards ctx affinityKey ready =
      .ok (some (decision, card))) : Passed req cards ctx card := by
  obtain ⟨privacyOk, matched, priced, eligible, afterBudget, _, _, _, _, _, _, hprivacy, hrole,
    hprice, hadmission, hbudget, hpick, -⟩ := decide_stages h
  have heligible := budgetStage_subset hbudget (pick_mem hpick)
  rw [admissionStage_ok hadmission, List.mem_filter, pricingStage_ok hprice, List.mem_filter]
    at heligible
  obtain ⟨⟨hmatched, hpriced⟩, hadmitted⟩ := heligible
  rw [privacyStage_ok hprivacy] at hrole
  obtain ⟨hlisted, hadmissible, hable⟩ := mem_serving ((roleStage_ok hrole).1 ▸ hmatched)
  exact ⟨hlisted, hadmissible, hable, hpriced, hadmitted⟩

/-- Whatever the order of the cards, the prices and the budget, an accepted request gets a
card that meets every guarantee. -/
theorem decide_sound
    (h : decideWithAffinityAndReadySelected req cards ctx affinityKey ready =
      .ok (some (decision, card))) :
    Sound req cards ctx affinityKey ready decision card := by
  obtain ⟨privacyOk, matched, priced, eligible, afterBudget, _, _, _, _, roleDegradation,
    budgetDegradation, hprivacy, hrole, hprice, hadmission, hbudget, hpick, hid, -,
    hdegradations⟩ := decide_stages h
  rw [privacyStage_ok hprivacy] at hrole
  obtain ⟨hserving, hroleSound⟩ := roleStage_ok hrole
  have hpriced := pricingStage_ok hprice
  have heligible := admissionStage_ok hadmission
  have hpassed : ∀ other ∈ eligible, other ∈ matched ∧ priceKnown other = true ∧
      notBlocked other = true := by
    intro other hother
    rw [heligible, List.mem_filter, hpriced, List.mem_filter] at hother
    exact ⟨hother.1.1, hother.1.2, hother.2⟩
  have hcard : card ∈ eligible := budgetStage_subset hbudget (pick_mem hpick)
  obtain ⟨hmatched, hknown, hunblocked⟩ := hpassed card hcard
  obtain ⟨hlisted, hadmissible, hcapable⟩ := mem_serving (hserving ▸ hmatched)
  rw [isCapabilityCandidate, Bool.and_eq_true] at hcapable
  constructor
  · exact hlisted
  · exact hid
  · exact hadmissible
  · exact hcapable.2
  · exact hcapable.1
  · intro role hrequested hcatalog
    obtain hall | ⟨hallow, hdegraded, hnone⟩ :=
      hroleSound role (catalogRole_eq hrequested hcatalog)
    · have hserves := hall card hmatched
      rw [isRoleCandidate, Bool.and_eq_true] at hserves
      exact .inl hserves.1
    · refine .inr ⟨fallback_of_allowFallback hallow, ?_, ?_⟩
      · intro other hother hok hserves
        have hmem : other ∈ (cards.filter fun card => PrivacyAdmissible req card).filter
            (isRoleCandidate req ctx role) := by
          simp [hother, hok, isRoleCandidate, hserves]
        rw [hnone] at hmem
        cases hmem
      · rw [hdegradations, hdegraded]
        exact List.mem_append_left _ List.mem_cons_self
  · exact priceKnown_iff.mp hknown
  · exact notBlocked_iff.mp hunblocked
  · intro snapshot hsnapshot
    rw [naturalPick, ← hserving, ← hpriced, ← heligible]
    apply budget_sound hbudget hsnapshot (fun other hother => (hpassed other hother).2.1) hpick
    intro d hd
    rw [hdegradations, hd]
    exact List.mem_append_right _ List.mem_cons_self

end Stages

section Sample

def sampleCard (id : String) (locality : Locality) (privacy : PrivacyClass) (egress : Egress)
    (status : AdmissionStatus) (costMinor : I64) : Card Nat where
  component :=
    { provider := ⟨id, .local, [.chat], privacy, ⟨0, 0⟩, locality⟩
      form := .httpService
      endpoint := "http://127.0.0.1:8740"
      privacyClass := privacy
      allowedEgress := [egress]
      loadPolicy := none
      extensions := none }
  roles := [.daily]
  experiment := false
  minRamGb := 0
  estimatedCostMinor := some costMinor
  admissionStatus := status

def localCard : Card Nat :=
  sampleCard "local" .loopback .localOnly .loopback .requiresEviction (.lit 0)

def remoteCard : Card Nat := sampleCard "remote" .remote .any .internet .ready (.lit 7)

/-- A request that lets a free card replace a paid one. -/
def fallbackRequest : RequestProfile where
  task := ⟨some .any, none, none, none, some .nextInChain⟩
  role := some .daily
  tenantId := some "acme"
  contentTightening := none

/-- A tenant with 5 left, less than the remote card costs. -/
def shortCtx : PolicyCtx Nat where
  minRamGb := none
  budget := some fun _ => some ⟨.lit 100, .lit 95, .paidOnly⟩

def fallbackDecision : Decision where
  chosenId := "local"
  reasonCodes := [.roleMatched .daily, .budgetFallbackToFreeCandidate, .admissionRequiresEviction]
  degradations := [.budgetFallback (.lit 7)]

theorem decide_sound_fallback :
    Sound fallbackRequest [localCard, remoteCard] shortCtx (some "session") ["remote"]
      fallbackDecision localCard :=
  decide_sound rfl

end Sample

end Policy
