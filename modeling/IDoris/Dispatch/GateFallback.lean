import IDoris.Dispatch.Select
import IDoris.Policy.Sound

/-!
# Blocked providers

Every candidate of a request serves its role, so the role stage cannot leave an open provider
out for a blocked one. A pass therefore rejects exactly when no open card passes the checks,
and blocking cards is the same as taking them away.
-/
namespace Dispatch

open Bounded Policy Proxy Supervisor Transaction

section Pipeline

variable {F : Type} [F64 F] {req : RequestProfile} {ctx : PolicyCtx F} {cards : List (Card F)}
  {card : Card F} {affinityKey : Option String} {ready : List String}

/-- A card that passes every check but admission. -/
structure Servable (req : RequestProfile) (ctx : PolicyCtx F) (card : Card F) : Prop where
  admissible : PrivacyAdmissible req card
  able : isCapabilityCandidate req ctx card = true
  role : ∀ role, catalogRole req = some role → isRoleCandidate req ctx role card = true
  priced : priceKnown card = true

/-- The stages before admission, and a card they leave. -/
def Reaches (req : RequestProfile) (ctx : PolicyCtx F) (cards : List (Card F)) (card : Card F)
    (priced : List (Card F)) : Prop :=
  ∃ privacyOk matched privacyReasons roleReasons degradation priceReasons,
    privacyStage req cards = .ok (privacyOk, privacyReasons) ∧
    roleStage req ctx privacyOk = .ok (matched, roleReasons, degradation) ∧
    pricingStage matched = .ok (priced, priceReasons) ∧ card ∈ priced

omit [F64 F] in
theorem privacyStage_keeps (hmem : card ∈ cards) (h : PrivacyAdmissible req card) :
    ∃ rest reasons, privacyStage req cards = .ok (rest, reasons) ∧ card ∈ rest := by
  unfold privacyStage
  by_cases hlocal : req.effectivePrivacy = .localOnly
  · have hkept : card ∈ cards.filter isLocalCapable := List.mem_filter.mpr ⟨hmem, h hlocal⟩
    simp only [hlocal, if_true, List.ne_nil_of_mem hkept, if_false]
    exact ⟨_, _, rfl, hkept⟩
  · simp only [hlocal, if_false]
    exact ⟨_, _, rfl, hmem⟩

theorem roleStage_keeps (hmem : card ∈ cards) (h : Servable req ctx card) :
    ∃ rest reasons degradation, roleStage req ctx cards = .ok (rest, reasons, degradation) ∧
      card ∈ rest := by
  unfold roleStage
  cases hrole : catalogRole req with
  | none =>
    have hkept : card ∈ cards.filter (isCapabilityCandidate req ctx) :=
      List.mem_filter.mpr ⟨hmem, h.able⟩
    simp only [List.ne_nil_of_mem hkept, if_false]
    exact ⟨_, _, _, rfl, hkept⟩
  | some role =>
    have hkept : card ∈ cards.filter (isRoleCandidate req ctx role) :=
      List.mem_filter.mpr ⟨hmem, h.role role hrole⟩
    simp only [ne_eq, List.ne_nil_of_mem hkept, not_false_eq_true, if_true]
    exact ⟨_, _, _, rfl, hkept⟩

omit [F64 F] in
theorem pricingStage_keeps (hmem : card ∈ cards) (h : priceKnown card = true) :
    ∃ rest reasons, pricingStage cards = .ok (rest, reasons) ∧ card ∈ rest := by
  have hkept : card ∈ cards.filter priceKnown := List.mem_filter.mpr ⟨hmem, h⟩
  unfold pricingStage
  simp only [List.ne_nil_of_mem hkept, if_false]
  exact ⟨_, _, rfl, hkept⟩

omit [F64 F] in
theorem admissionStage_keeps (hmem : card ∈ cards) (h : notBlocked card = true) :
    ∃ rest, admissionStage cards = .ok rest ∧ card ∈ rest := by
  have hkept : card ∈ cards.filter notBlocked := List.mem_filter.mpr ⟨hmem, h⟩
  unfold admissionStage
  simp only [List.ne_nil_of_mem hkept, if_false]
  exact ⟨_, rfl, hkept⟩

theorem Servable.reaches (h : Servable req ctx card) (hmem : card ∈ cards) :
    ∃ priced, Reaches req ctx cards card priced := by
  obtain ⟨privacyOk, privacyReasons, hprivacy, hmem⟩ := privacyStage_keeps hmem h.admissible
  obtain ⟨matched, roleReasons, degradation, hrole, hmem⟩ := roleStage_keeps hmem h
  obtain ⟨priced, priceReasons, hprice, hmem⟩ := pricingStage_keeps hmem h.priced
  exact ⟨priced, _, _, _, _, _, _, hprivacy, hrole, hprice, hmem⟩

/-- Without budgets an open card that passes the checks is enough for an answer. -/
theorem Servable.decide_ok (h : Servable req ctx card) (hmem : card ∈ cards)
    (hopen : card.admissionStatus ≠ .blocked) (hbudget : ctx.budget = none) :
    ∃ answer, decideWithAffinityAndReadySelected req cards ctx affinityKey ready = .ok answer := by
  obtain ⟨priced, privacyOk, matched, _, _, _, _, hprivacy, hrole, hprice, hmem⟩ := h.reaches hmem
  obtain ⟨eligible, hadmission, hmem⟩ := admissionStage_keeps hmem (notBlocked_iff.mpr hopen)
  have hnone : tenantSnapshot req ctx = none := by rw [tenantSnapshot, hbudget]; rfl
  have hstage : budgetStage req ctx eligible affinityKey ready =
      .ok (eligible, [.budgetNoTenantContext], none) := by
    simp only [budgetStage, hnone]
    rfl
  simp only [decideWithAffinityAndReadySelected, bind_eq_ok, pure_eq_ok, Prod.exists]
  exact ⟨_, _, _, hprivacy, _, _, _, hrole, _, _, hprice, _, hadmission, _, _, _, hstage, rfl⟩

end Pipeline

section Passes

variable {F : Type} [Quotes F] {profile : ParsedProfile} {prompt : String} {completion : Nat}
  {tightened : Bool} {component : ComponentCard F} {blocked : Bool}

/-- The checks on a card that is selected, whatever the gates say. -/
def Serves (profile : ParsedProfile) (prompt : String) (completion : Nat) (tightened : Bool)
    (component : ComponentCard F) : Prop :=
  isCandidate profile component = true ∧
    Servable (requestProfile profile tightened) ⟨none, none⟩ (candidate component prompt completion)

theorem gatedCandidate_blocked :
    gatedCandidate prompt completion (component, true) =
      { candidate component prompt completion with admissionStatus := .blocked } := rfl

theorem gatedCandidate_open :
    gatedCandidate prompt completion (component, false) = candidate component prompt completion :=
  rfl

theorem gatedCandidate_status :
    (gatedCandidate prompt completion (component, blocked)).admissionStatus ≠ .blocked ↔
      blocked = false := by
  cases blocked with
  | true => simp [gatedCandidate_blocked]
  | false => simp [gatedCandidate_open, candidate]

/-- A candidate serves the role of the request as soon as it is healthy and able. -/
theorem isRoleCandidate_of_isCandidate {role : Role} (h : isCandidate profile component = true)
    (hrole : catalogRole (requestProfile profile tightened) = some role)
    (hable : isCapabilityCandidate (requestProfile profile tightened) ⟨none, none⟩
      (candidate component prompt completion) = true) :
    isRoleCandidate (requestProfile profile tightened) ⟨none, none⟩ role
      (candidate component prompt completion) = true := by
  obtain ⟨hasked, hcatalog⟩ : profile.role = some role ∧ role.isCatalogRole = true := by
    simpa [catalogRole, requestProfile, Option.filter_eq_some_iff] using hrole
  simp only [isCandidate, hasked, Option.all_some, Bool.and_eq_true] at h
  have hbound : (candidate component prompt completion).roles.contains role = true := by
    simp [candidate, mem_roles, hcatalog, h.2]
  simp only [isCapabilityCandidate, Bool.and_eq_true] at hable
  simp only [isRoleCandidate, isEligibleForRole, isRoleMetadataEligible, hcatalog, hbound,
    Bool.true_and, Bool.and_true, Bool.and_eq_true]
  exact hable

variable {cards : List (ComponentCard F)} {mask : List Bool} {affinityKey : Option String}
  {ready : List String} {card : Card F} {selected : Selected F}

theorem mem_gateCandidates : card ∈ gateCandidates cards profile prompt mask completion ↔
    ∃ component blocked, (component, blocked) ∈ cards.zip mask ∧
      isCandidate profile component = true ∧
      gatedCandidate prompt completion (component, blocked) = card := by
  simp [gateCandidates, and_assoc]

/-- The open candidates are the cards that the mask lets through. -/
theorem open_gateCandidate (h : card ∈ gateCandidates cards profile prompt mask completion)
    (hopen : card.admissionStatus ≠ .blocked) :
    ∃ component, (component, false) ∈ cards.zip mask ∧ isCandidate profile component = true ∧
      card = candidate component prompt completion := by
  obtain ⟨component, blocked, hmem, hcandidate, rfl⟩ := mem_gateCandidates.mp h
  obtain rfl := gatedCandidate_status.mp hopen
  exact ⟨component, hmem, hcandidate, rfl⟩

theorem snapshot_of_length (hmask : cards.length = mask.length) :
    selectWithGateSnapshotAndCompletion cards profile prompt affinityKey ready mask completion
        tightened =
      (decideWithAffinityAndReadySelected (requestProfile profile tightened)
        (gateCandidates cards profile prompt mask completion) ⟨none, none⟩ affinityKey ready >>=
      fun chosen => pure (chosen.map fun (decision, card) =>
        { decision
          servedLocality := effectiveServedLocality card
          card := card.component
          loadPolicy := card.component.loadPolicy.getD defaultLoadPolicy
          estimatedCostMinor := card.estimatedCostMinor.getD (.lit 0) })) := by
  simp only [selectWithGateSnapshotAndCompletion, hmask, ne_eq, not_true_eq_false, if_false]

theorem snapshot_ne_none (hmask : cards.length = mask.length) :
    selectWithGateSnapshotAndCompletion cards profile prompt affinityKey ready mask completion
      tightened ≠ .ok none := by
  intro h
  simp only [snapshot_of_length hmask, bind_eq_ok, pure_eq_ok, Option.map_eq_none_iff] at h
  obtain ⟨_, hdecide, rfl⟩ := h
  exact decide_ne_none hdecide

/-- A pass selects an open card that passes the checks. -/
theorem snapshot_selected (hmask : cards.length = mask.length)
    (h : selectWithGateSnapshotAndCompletion cards profile prompt affinityKey ready mask completion
      tightened = .ok (some selected)) :
    (selected.card, false) ∈ cards.zip mask ∧
      Serves profile prompt completion tightened selected.card := by
  simp only [snapshot_of_length hmask, bind_eq_ok, pure_eq_ok, Option.map_eq_some_iff,
    Prod.exists] at h
  obtain ⟨_, hdecide, decision, card, rfl, rfl⟩ := h
  have hpassed := decide_passed hdecide
  obtain ⟨component, hmem, hcandidate, rfl⟩ :=
    open_gateCandidate hpassed.listed (notBlocked_iff.mp hpassed.admitted)
  exact ⟨hmem, hcandidate, hpassed.admissible, hpassed.able,
    fun role hrole => isRoleCandidate_of_isCandidate hcandidate hrole hpassed.able,
    hpassed.priced⟩

/-- A pass rejects exactly when no open card passes the checks. -/
theorem snapshot_rejects_iff (hmask : cards.length = mask.length) :
    (∃ rejection, selectWithGateSnapshotAndCompletion cards profile prompt affinityKey ready mask
      completion tightened = .error rejection) ↔
    ∀ component, (component, false) ∈ cards.zip mask →
      ¬Serves profile prompt completion tightened component := by
  constructor
  · rintro ⟨rejection, h⟩ component hmem ⟨hcandidate, hservable⟩
    have hlisted : candidate component prompt completion ∈
        gateCandidates cards profile prompt mask completion :=
      mem_gateCandidates.mpr ⟨component, false, hmem, hcandidate, rfl⟩
    obtain ⟨answer, hanswer⟩ : ∃ answer, decideWithAffinityAndReadySelected
        (requestProfile profile tightened)
        (gateCandidates cards profile prompt mask completion) ⟨none, none⟩ affinityKey ready =
          .ok answer :=
      hservable.decide_ok hlisted (by simp [candidate]) rfl
    rw [snapshot_of_length hmask, hanswer] at h
    cases h
  · intro hnone
    cases h : selectWithGateSnapshotAndCompletion cards profile prompt affinityKey ready mask
      completion tightened with
    | error rejection => exact ⟨rejection, rfl⟩
    | ok answer =>
      cases answer with
      | none => exact absurd h (snapshot_ne_none hmask)
      | some selected =>
        obtain ⟨hmem, hserves⟩ := snapshot_selected hmask h
        exact absurd hserves (hnone _ hmem)

end Passes

section Fallback

variable {F : Type} [Quotes F] {cards : List (ComponentCard F)} {mask blocked : List Bool}
  {profile : ParsedProfile} {prompt : String} {affinityKey : Option String} {ready : List String}
  {completion : Nat} {tightened : Bool} {component : ComponentCard F}

/-- The cards that a mask lets through. -/
def openCards (cards : List (ComponentCard F)) (mask : List Bool) : List (ComponentCard F) :=
  ((cards.zip mask).filter fun entry => !entry.2).map Prod.fst

/-- The selection among these cards, none of them blocked. -/
def selectUnmasked (cards : List (ComponentCard F)) (profile : ParsedProfile) (prompt : String)
    (affinityKey : Option String) (ready : List String) (completion : Nat) (tightened : Bool) :
    Except Rejection (Option (Selected F)) :=
  selectWithGateSnapshotAndCompletion cards profile prompt affinityKey ready
    (List.replicate cards.length false) completion tightened

/-- The card passes every check on its own, and the stages before admission of the unmasked
selection leave it. -/
structure PassesUnmasked (cards : List (ComponentCard F)) (profile : ParsedProfile)
    (prompt : String) (completion : Nat) (tightened : Bool) (component : ComponentCard F) :
    Prop where
  serves : Serves profile prompt completion tightened component
  reaches : ∃ priced, Reaches (requestProfile profile tightened) ⟨none, none⟩
    (gateCandidates cards profile prompt (List.replicate cards.length false) completion)
    (candidate component prompt completion) priced

omit [Quotes F] in
theorem mem_openCards : component ∈ openCards cards mask ↔ (component, false) ∈ cards.zip mask := by
  simp [openCards]

omit [Quotes F] in
theorem mem_zip_replicate :
    (component, false) ∈ cards.zip (List.replicate cards.length false) ↔ component ∈ cards := by
  induction cards with
  | nil => simp
  | cons card rest ih => simp [List.replicate_succ, ih]

/-- Blocking cards is the same as taking them away. -/
theorem rejects_iff_open (hmask : cards.length = mask.length) :
    (∃ rejection, selectWithGateSnapshotAndCompletion cards profile prompt affinityKey ready mask
      completion tightened = .error rejection) ↔
    ∃ rejection, selectUnmasked (openCards cards mask) profile prompt affinityKey ready completion
      tightened = .error rejection := by
  unfold selectUnmasked
  rw [snapshot_rejects_iff hmask, snapshot_rejects_iff List.length_replicate.symm]
  simp only [mem_zip_replicate, mem_openCards]

omit [Quotes F] in
theorem length_fallbackMask (hmask : cards.length = blocked.length) :
    cards.length = (fallbackMask cards blocked).length := by
  simp [fallbackMask, hmask]

omit [Quotes F] in
theorem mem_zip_fallbackMask :
    (component, false) ∈ cards.zip (fallbackMask cards blocked) →
      (component, false) ∈ cards.zip blocked ∨ isResidentHttpService component = true := by
  induction cards generalizing blocked with
  | nil => simp
  | cons card rest ih =>
    cases blocked with
    | nil => simp [fallbackMask]
    | cons head tail =>
      intro h
      simp only [fallbackMask, List.zip_cons_cons, List.map_cons, List.mem_cons,
        Prod.mk.injEq] at h ⊢
      obtain ⟨rfl, hhead⟩ | hrest := h
      · cases head with
        | false => exact .inl (.inl ⟨rfl, rfl⟩)
        | true => exact .inr (by simpa using hhead)
      · exact (ih hrest).imp_left .inr

omit [Quotes F] in
/-- A card stands once in the list, so it is either blocked or open. -/
theorem not_blocked_of_open (hids : (cards.map fun card => card.provider.id).Nodup)
    (hopen : (component, false) ∈ cards.zip mask) : (component, true) ∉ cards.zip mask := by
  induction cards generalizing mask with
  | nil => simp
  | cons card rest ih =>
    cases mask with
    | nil => simp
    | cons head tail =>
      simp only [List.map_cons, List.nodup_cons, List.mem_map, not_exists, not_and] at hids
      simp only [List.zip_cons_cons, List.mem_cons, Prod.mk.injEq] at hopen ⊢
      rintro (⟨rfl, rfl⟩ | hrest)
      · obtain ⟨-, hfalse⟩ | hopen := hopen
        · cases hfalse
        · exact hids.1 _ (List.of_mem_zip hopen).1 rfl
      · obtain ⟨rfl, -⟩ | hopen := hopen
        · exact hids.1 _ (List.of_mem_zip hrest).1 rfl
        · exact ih hids.2 hopen hrest

theorem Serves.passes (h : Serves profile prompt completion tightened component)
    (hmem : component ∈ cards) :
    PassesUnmasked cards profile prompt completion tightened component where
  serves := h
  reaches := h.2.reaches (mem_gateCandidates.mpr
    ⟨component, false, mem_zip_replicate.mpr hmem, h.1, rfl⟩)

/-- A blocked card is selected only when it is a resident service and the open cards alone
offer nothing; a rejection means that the cards the second pass may try offer nothing; and
whatever is selected passes the checks of the selection without a mask. -/
theorem gate_fallback_sound (cards : List (ComponentCard F)) (blocked : List Bool)
    (hids : (cards.map fun card => card.provider.id).Nodup)
    (hmask : cards.length = blocked.length) (profile : ParsedProfile) (prompt : String)
    (affinityKey : Option String) (ready : List String) (completion : Nat) (tightened : Bool) :
    (∀ selected, selectWithGateFallbackAndCompletion cards profile prompt affinityKey ready blocked
        completion tightened = .ok (some selected) →
      selected.card ∈ cards ∧
      ((selected.card, true) ∈ cards.zip blocked →
        isResidentHttpService selected.card = true ∧
        ∃ rejection, selectUnmasked (openCards cards blocked) profile prompt affinityKey ready
          completion tightened = .error rejection) ∧
      PassesUnmasked cards profile prompt completion tightened selected.card) ∧
    ((∃ rejection, selectWithGateFallbackAndCompletion cards profile prompt affinityKey ready
        blocked completion tightened = .error rejection) →
      ∃ rejection, selectUnmasked (openCards cards (fallbackMask cards blocked)) profile prompt
        affinityKey ready completion tightened = .error rejection) ∧
    selectWithGateFallbackAndCompletion cards profile prompt affinityKey ready blocked completion
      tightened ≠ .ok none := by
  unfold selectWithGateFallbackAndCompletion
  cases hfirst : selectWithGateSnapshotAndCompletion cards profile prompt affinityKey ready blocked
    completion tightened with
  | ok answer =>
    refine ⟨?_, ?_, fun hnone => ?_⟩
    · rintro selected ⟨⟩
      obtain ⟨hopen, hserves⟩ := snapshot_selected hmask hfirst
      have hmem := (List.of_mem_zip hopen).1
      exact ⟨hmem, fun hblocked => absurd hblocked (not_blocked_of_open hids hopen),
        hserves.passes hmem⟩
    · rintro ⟨rejection, ⟨⟩⟩
    · cases hnone
      exact snapshot_ne_none hmask hfirst
  | error rejection =>
    have hlength := length_fallbackMask hmask
    have hrejects := (rejects_iff_open hmask).mp ⟨rejection, hfirst⟩
    refine ⟨?_, (rejects_iff_open hlength).mp, snapshot_ne_none hlength⟩
    intro selected hsecond
    obtain ⟨hopen, hserves⟩ := snapshot_selected hlength hsecond
    have hmem := (List.of_mem_zip hopen).1
    refine ⟨hmem, fun hblocked => ⟨?_, hrejects⟩, hserves.passes hmem⟩
    obtain hunblocked | hresident := mem_zip_fallbackMask hopen
    · exact absurd hblocked (not_blocked_of_open hids hunblocked)
    · exact hresident

/-- Either pass selects one of the cards, and one that passes the checks. -/
theorem fallback_serves {selected : Selected F} (hmask : cards.length = blocked.length)
    (h : selectWithGateFallbackAndCompletion cards profile prompt affinityKey ready blocked
      completion tightened = .ok (some selected)) :
    selected.card ∈ cards ∧ Serves profile prompt completion tightened selected.card := by
  unfold selectWithGateFallbackAndCompletion at h
  split at h
  · obtain ⟨hopen, hserves⟩ := snapshot_selected (length_fallbackMask hmask) h
    exact ⟨(List.of_mem_zip hopen).1, hserves⟩
  · rename_i hfirst
    obtain rfl := Except.ok.inj h
    obtain ⟨hopen, hserves⟩ := snapshot_selected hmask hfirst
    exact ⟨(List.of_mem_zip hopen).1, hserves⟩

end Fallback

section Sample

/-- A resident service that is bound to the daily role and costs nothing. -/
def residentCard : ComponentCard Pricing.Rate where
  provider := ⟨"resident", .local, [.chat], .any, ⟨.finite 0, .finite 0⟩, .loopback⟩
  form := .httpService
  endpoint := "http://127.0.0.1:8740"
  privacyClass := .any
  allowedEgress := [.loopback]
  loadPolicy := some ⟨.resident, .pinned true, .coexist⟩
  extensions := some [("idoris_role_models", .object [("daily", .string "qwen")])]

def dailyProfile : ParsedProfile := ⟨⟨some .any, none, none, none, none⟩, some .daily, none⟩

/-- The same service without a binding for any role. -/
def unboundCard : ComponentCard Pricing.Rate :=
  { residentCard with
    provider := { residentCard.provider with id := "unbound" }
    extensions := none }

/-- The open card serves no daily request, and the second pass selects the blocked one. -/
theorem gate_fallback_sound_resident :
    isResidentHttpService residentCard = true ∧
      ∃ rejection, selectUnmasked (openCards [unboundCard, residentCard] [false, true])
        dailyProfile "hi" none [] 1024 false = .error rejection :=
  ((gate_fallback_sound [unboundCard, residentCard] [false, true] (by decide) rfl dailyProfile
    "hi" none [] 1024 false).1 ⟨⟨"resident", [.roleMatched .daily, .budgetNoTenantContext,
      .admissionReady], []⟩, .loopback, residentCard, ⟨.resident, .pinned true, .coexist⟩,
      .lit 0⟩ rfl).2.1 (List.mem_cons_of_mem _ List.mem_cons_self)

end Sample

end Dispatch
