import IDoris.Policy.Tiebreak
import Mathlib.Data.List.Nodup
import Mathlib.Data.String.Basic
import Mathlib.Order.BooleanAlgebra.Defs

/-!
# Card order and losers

The order of the cards decides nothing, and a card that was not chosen can be taken
away. Every stage filters the cards, and the choice is the least of what they leave
under a key in which two cards with different ids never agree.
-/
namespace Policy

open Bounded Proxy Transaction

section Choice

variable {F : Type} {candidates candidates' : List (Card F)} {affinityKey : Option String}
  {ready : List String} {card : Card F}

/-- The ids of the cards are pairwise distinct. -/
def DistinctIds (cards : List (Card F)) : Prop := (cards.map Card.id).Nodup

theorem compare_toNat (u v : UInt64) : compare u v = compare u.toNat v.toNat := by
  simp only [compare, compareOfLessAndEq, UInt64.lt_iff_toNat_lt, UInt64.toNat_inj]

/-- Affinity prefers the higher score. -/
def affinityRank (affinityKey : Option String) (card : Card F) : ℕᵒᵈ :=
  .toDual ((affinityKey.map fun session => (affinityScore session card.id).toNat).getD 0)

/-- With an affinity key a card that is ready comes first. -/
def readyRank (affinityKey : Option String) (ready : List String) (card : Card F) : Bool :=
  affinityKey.isSome && !ready.contains card.id

/-- Everything the order compares. -/
def Card.key (affinityKey : Option String) (ready : List String) (card : Card F) :
    ℕ ×ₗ ℤ ×ₗ Bool ×ₗ ℕᵒᵈ ×ₗ String :=
  toLex (admissionRank card.admissionStatus, toLex (card.costMinor,
    toLex (readyRank affinityKey ready card, toLex (affinityRank affinityKey card, card.id))))

theorem compareCards_refines_key (affinityKey : Option String) (ready : List String) :
    Selection.Refines (compareCards (F := F) affinityKey ready) (Card.key affinityKey ready) := by
  refine Selection.Refines.lex (Selection.Refines.lex (Selection.Refines.lex
    (Selection.Refines.lex (Selection.refines_compare Card.id) ?_) ?_) fun _ _ => rfl) fun _ _ => rfl
  · intro a b
    cases affinityKey with
    | none => rfl
    | some session => exact compare_toNat _ _
  · intro a b
    cases affinityKey <;> rfl

theorem DistinctIds.separates (h : DistinctIds candidates) :
    Selection.Separates (Card.key affinityKey ready) candidates := by
  intro a ha b hb hkey
  have hid : a.id = b.id := by
    simp only [Card.key, toLex_inj, Prod.mk.injEq] at hkey
    exact hkey.2.2.2.2
  exact List.inj_on_of_nodup_map h ha hb hid

theorem DistinctIds.sublist (h : DistinctIds candidates) (hsub : candidates'.Sublist candidates) :
    DistinctIds candidates' := List.Nodup.sublist (hsub.map Card.id) h

theorem pick_perm (h : DistinctIds candidates) (hperm : candidates.Perm candidates') :
    pick candidates affinityKey ready = pick candidates' affinityKey ready :=
  (compareCards_refines_key affinityKey ready).minBy_perm h.separates hperm

theorem pick_of_subset (h : Selection.Separates (Card.key affinityKey ready) candidates)
    (hsub : candidates' ⊆ candidates)
    (hmem : card ∈ candidates') (hpick : pick candidates affinityKey ready = some card) :
    pick candidates' affinityKey ready = some card :=
  (compareCards_refines_key affinityKey ready).minBy_of_subset h hsub hmem hpick

end Choice

section Order

variable {F : Type} {X : Type} {req : RequestProfile} {ctx : PolicyCtx F}
  {cards cards' : List (Card F)} {affinityKey : Option String} {ready : List String}
  {p : Card F → Bool}

/-- What a stage makes of two orders of the same cards. -/
structure Permuted (left right : List (Card F) × X) : Prop where
  cards : left.1.Perm right.1
  distinct : DistinctIds left.1
  rest : left.2 = right.2

theorem filter_nil_iff (hperm : cards.Perm cards') :
    cards.filter p = [] ↔ cards'.filter p = [] := by
  rw [← List.length_eq_zero_iff, ← List.length_eq_zero_iff, (hperm.filter p).length_eq]

theorem permuted_filter {x : X} (hperm : cards.Perm cards') (h : DistinctIds cards) :
    Permuted (cards.filter p, x) (cards'.filter p, x) :=
  ⟨hperm.filter p, h.sublist List.filter_sublist, rfl⟩

theorem cheapestPaidCost_perm (hperm : cards.Perm cards') :
    cheapestPaidCost cards = cheapestPaidCost cards' := by
  have hrefines := Selection.refines_compare (α := I64) fun cost => cost.val
  have hsep : Selection.Separates (fun cost : I64 => cost.val)
      ((cards.filter Card.isPaid).filterMap Card.estimatedCostMinor) :=
    fun a _ b _ h => I64.ext' h
  unfold cheapestPaidCost
  rw [hrefines.minBy_perm hsep ((hperm.filter Card.isPaid).filterMap Card.estimatedCostMinor)]

theorem any_perm (hperm : cards.Perm cards') : cards.any p = cards'.any p := by
  rw [Bool.eq_iff_iff, List.any_eq_true, List.any_eq_true]
  simp only [hperm.mem_iff]

theorem admissionReasons_perm (hperm : cards.Perm cards') :
    admissionReasons cards = admissionReasons cards' := by
  unfold admissionReasons
  rw [any_perm hperm, any_perm hperm]

theorem privacyStage_perm (hperm : cards.Perm cards') (h : DistinctIds cards) :
    Agree Eq Permuted (privacyStage req cards) (privacyStage req cards') := by
  unfold privacyStage
  split
  · exact .guard rfl (filter_nil_iff hperm) fun _ => .ok (permuted_filter hperm h)
  · exact .ok ⟨hperm, h, rfl⟩

theorem pricingStage_perm (hperm : cards.Perm cards') (h : DistinctIds cards) :
    Agree Eq Permuted (pricingStage cards) (pricingStage cards') := by
  unfold pricingStage
  refine .guard rfl (filter_nil_iff hperm) fun _ =>
    .ok ⟨hperm.filter priceKnown, h.sublist List.filter_sublist, ?_⟩
  simp only [hperm.length_eq, (hperm.filter priceKnown).length_eq]

theorem admissionStage_perm (hperm : cards.Perm cards') (h : DistinctIds cards) :
    Agree Eq (fun rest rest' => rest.Perm rest' ∧ DistinctIds rest) (admissionStage cards)
      (admissionStage cards') := by
  unfold admissionStage
  exact .guard rfl (filter_nil_iff hperm) fun _ =>
    .ok ⟨hperm.filter notBlocked, h.sublist List.filter_sublist⟩

theorem budgetStage_perm (hperm : cards.Perm cards') (h : DistinctIds cards) :
    Agree Eq Permuted (budgetStage req ctx cards affinityKey ready)
      (budgetStage req ctx cards' affinityKey ready) := by
  unfold budgetStage
  rw [pick_perm h hperm, cheapestPaidCost_perm hperm]
  cases tenantSnapshot req ctx with
  | none => exact .ok ⟨hperm, h, rfl⟩
  | some snapshot =>
    refine .guard rfl Iff.rfl fun _ => ?_
    split
    · exact .ok ⟨hperm, h, rfl⟩
    · simp only [Bool.and_eq_true, decide_eq_true_eq, ne_eq, filter_nil_iff hperm]
      split
      · exact .ok (permuted_filter hperm h)
      · exact .error rfl

variable [F64 F]

theorem roleStage_perm (hperm : cards.Perm cards') (h : DistinctIds cards) :
    Agree Eq Permuted (roleStage req ctx cards) (roleStage req ctx cards') := by
  unfold roleStage
  cases catalogRole req with
  | none => exact .guard rfl (filter_nil_iff hperm) fun _ => .ok (permuted_filter hperm h)
  | some role =>
    simp only [ne_eq, filter_nil_iff hperm]
    split
    · exact .ok (permuted_filter hperm h)
    · exact .guard rfl Iff.rfl fun _ => .guard rfl Iff.rfl fun _ =>
        .ok (permuted_filter hperm h)

/-- Between cards with pairwise distinct ids the decision, the chosen card, the reason codes, the
degradations and the rejection do not depend on the order of the cards. -/
theorem decide_perm (req : RequestProfile) (ctx : PolicyCtx F) (affinityKey : Option String)
    (ready : List String) (h : DistinctIds cards) (hperm : cards.Perm cards') :
    decideWithAffinityAndReadySelected req cards ctx affinityKey ready =
      decideWithAffinityAndReadySelected req cards' ctx affinityKey ready := by
  refine Agree.eq ?_
  refine (privacyStage_perm hperm h).bind ?_
  rintro ⟨privacyOk, privacyReasons⟩ ⟨privacyOk', _⟩ ⟨hprivacy, hdistinct, rfl⟩
  refine (roleStage_perm hprivacy hdistinct).bind ?_
  rintro ⟨matched, roleReasons, roleDegradation⟩ ⟨matched', _, _⟩ ⟨hrole, hdistinct, heq⟩
  cases heq
  refine (pricingStage_perm hrole hdistinct).bind ?_
  rintro ⟨priced, priceReasons⟩ ⟨priced', _⟩ ⟨hprice, hdistinct, rfl⟩
  refine (admissionStage_perm hprice hdistinct).bind ?_
  rintro eligible eligible' ⟨hadmission, hdistinct⟩
  refine (budgetStage_perm hadmission hdistinct).bind ?_
  rintro ⟨afterBudget, budgetReasons, budgetDegradation⟩ ⟨afterBudget', _, _⟩
    ⟨hbudget, hdistinct, heq⟩
  cases heq
  refine .ok ?_
  rw [pick_perm hdistinct hbudget, admissionReasons_perm hbudget]

end Order

/-- The fallback to a free card, in two orders of the cards. -/
theorem decide_perm_fallback :
    decideWithAffinityAndReadySelected fallbackRequest [localCard, remoteCard] shortCtx
        (some "session") ["remote"] =
      decideWithAffinityAndReadySelected fallbackRequest [remoteCard, localCard] shortCtx
        (some "session") ["remote"] :=
  decide_perm _ _ _ _ (show ["local", "remote"].Nodup by decide) (.swap _ _ _)

section Losers

variable {F : Type} {X : Type} {req : RequestProfile} {ctx : PolicyCtx F}
  {cards cards' rest : List (Card F)} {affinityKey : Option String} {ready : List String}
  {p : Card F → Bool} {card : Card F} {reasons : List ReasonCode}
  {degradation : Option Degradation}

/-- What a stage leaves of some of the cards when it leaves this one of all of them. -/
def Survives (card : Card F) (rest : List (Card F)) (stage : Except Rejection (List (Card F) × X)) :
    Prop :=
  ∃ rest' x, stage = .ok (rest', x) ∧ rest' ⊆ rest ∧ card ∈ rest'

theorem filter_subset' (hsub : cards' ⊆ cards) : cards'.filter p ⊆ cards.filter p := by
  intro other hother
  rw [List.mem_filter] at hother ⊢
  exact ⟨hsub hother.1, hother.2⟩

/-- A filter behind the test that it leaves something. -/
theorem survives_filter {e : Rejection} {x : X} (hsub : cards' ⊆ cards) (hmem : card ∈ cards')
    (hcard : card ∈ cards.filter p) :
    Survives card (cards.filter p)
      (if cards'.filter p = [] then throw e >>= fun _ : PUnit => pure (cards'.filter p, x)
        else pure (cards'.filter p, x)) := by
  have hkept : card ∈ cards'.filter p :=
    List.mem_filter.mpr ⟨hmem, (List.mem_filter.mp hcard).2⟩
  rw [if_neg (List.ne_nil_of_mem hkept)]
  exact ⟨_, x, rfl, filter_subset' hsub, hkept⟩

theorem privacyStage_survives (h : privacyStage req cards = .ok (rest, reasons))
    (hsub : cards' ⊆ cards) (hmem : card ∈ cards') (hcard : card ∈ rest) :
    Survives card rest (privacyStage req cards') := by
  unfold privacyStage at h ⊢
  split at h
  · rename_i hlocal
    simp only [guard_eq_ok, pure_eq_ok, Prod.mk.injEq] at h
    obtain ⟨-, rfl, -⟩ := h
    rw [if_pos hlocal]
    exact survives_filter hsub hmem hcard
  · rename_i hany
    simp only [pure_eq_ok, Prod.mk.injEq] at h
    obtain ⟨rfl, -⟩ := h
    rw [if_neg hany]
    exact ⟨_, _, rfl, hsub, hmem⟩

theorem pricingStage_survives (h : pricingStage cards = .ok (rest, reasons))
    (hsub : cards' ⊆ cards) (hmem : card ∈ cards') (hcard : card ∈ rest) :
    Survives card rest (pricingStage cards') := by
  rw [pricingStage_ok h] at hcard ⊢
  exact survives_filter hsub hmem hcard

theorem admissionStage_survives (h : admissionStage cards = .ok rest) (hsub : cards' ⊆ cards)
    (hmem : card ∈ cards') (hcard : card ∈ rest) :
    ∃ rest', admissionStage cards' = .ok rest' ∧ rest' ⊆ rest ∧ card ∈ rest' := by
  rw [admissionStage_ok h] at hcard ⊢
  have hkept : card ∈ cards'.filter notBlocked :=
    List.mem_filter.mpr ⟨hmem, (List.mem_filter.mp hcard).2⟩
  unfold admissionStage
  rw [if_neg (List.ne_nil_of_mem hkept)]
  exact ⟨_, rfl, filter_subset' hsub, hkept⟩

/-- Without a fallback the budget looked at the choice itself, and it is still the choice. -/
theorem budgetStage_survives
    (hdistinct : Selection.Separates (Card.key affinityKey ready) cards)
    (h : budgetStage req ctx cards affinityKey ready = .ok (rest, reasons, degradation))
    (hfallback : ∀ cost, degradation ≠ some (.budgetFallback cost)) (hsub : cards' ⊆ cards)
    (hmem : card ∈ cards') (hpick : pick rest affinityKey ready = some card) :
    ∃ reasons', budgetStage req ctx cards' affinityKey ready = .ok (cards', reasons', none) ∧
      pick cards' affinityKey ready = some card := by
  obtain ⟨hnone, rfl, -⟩ | ⟨snapshot, cost, hsnapshot, hcost, hfrozen, hrest⟩ := budgetStage_ok h
  · have hkept := pick_of_subset hdistinct hsub hmem hpick
    exact ⟨_, by simp only [budgetStage, hnone]; rfl, hkept⟩
  · obtain ⟨hwithin, rfl, -⟩ | ⟨-, -, -, -, hdegraded⟩ := hrest
    · have hkept := pick_of_subset hdistinct hsub hmem hpick
      rw [hpick, ← hkept] at hcost
      refine ⟨[.budgetWithinLimit], ?_, hkept⟩
      have hopen : ¬(decide (snapshot.scope = .all) && snapshot.isOver) = true := by
        simpa using hfrozen
      simp only [budgetStage, hsnapshot, guard_eq_ok, hopen, ← hcost,
        hwithin, Bool.not_false, if_true]
      exact ⟨Bool.false_ne_true, rfl⟩
    · exact absurd hdegraded (hfallback cost)

variable [F64 F]

theorem roleStage_survives (h : roleStage req ctx cards = .ok (rest, reasons, degradation))
    (hsub : cards' ⊆ cards) (hmem : card ∈ cards') (hcard : card ∈ rest) :
    Survives card rest (roleStage req ctx cards') := by
  unfold roleStage at h ⊢
  cases hrole : catalogRole req with
  | none =>
    simp only [hrole, guard_eq_ok, pure_eq_ok, Prod.mk.injEq] at h
    obtain ⟨-, rfl, -⟩ := h
    exact survives_filter hsub hmem hcard
  | some role =>
    simp only [hrole] at h ⊢
    split at h
    · simp only [pure_eq_ok, Prod.mk.injEq] at h
      obtain ⟨rfl, -⟩ := h
      have hkept : card ∈ cards'.filter (isRoleCandidate req ctx role) :=
        List.mem_filter.mpr ⟨hmem, (List.mem_filter.mp hcard).2⟩
      rw [if_pos (List.ne_nil_of_mem hkept)]
      exact ⟨_, _, rfl, filter_subset' hsub, hkept⟩
    · rename_i hempty
      simp only [guard_eq_ok, pure_eq_ok, Prod.mk.injEq] at h
      obtain ⟨hfallback, -, rfl, -⟩ := h
      have hnone : cards'.filter (isRoleCandidate req ctx role) = [] :=
        List.subset_nil.mp (not_not.mp hempty ▸ filter_subset' hsub)
      rw [if_neg (not_not.mpr hnone), if_neg hfallback]
      exact survives_filter hsub hmem hcard

variable {decision : Decision}

/-- The choice among some of the cards, when it was made among all of them. -/
theorem decide_of_subset (hdistinct : DistinctIds cards)
    (h : decideWithAffinityAndReadySelected req cards ctx affinityKey ready =
      .ok (some (decision, card)))
    (hfallback : ∀ cost, .budgetFallback cost ∉ decision.degradations) (hsub : cards' ⊆ cards)
    (hmem : card ∈ cards') :
    ∃ decision', decideWithAffinityAndReadySelected req cards' ctx affinityKey ready =
      .ok (some (decision', card)) := by
  obtain ⟨privacyOk, matched, priced, eligible, afterBudget, _, _, _, _, roleDegradation,
    budgetDegradation, hprivacy, hrole, hprice, hadmission, hbudget, hpick, -, -,
    hdegradations⟩ := decide_stages h
  have hserving := hrole
  rw [privacyStage_ok hprivacy] at hserving
  have hmatched : ∀ other ∈ eligible, other ∈ priced ∧ other ∈ matched := by
    intro other hother
    rw [admissionStage_ok hadmission, List.mem_filter] at hother
    have hpriced := hother.1
    rw [pricingStage_ok hprice, List.mem_filter] at hpriced
    exact ⟨hother.1, hpriced.1⟩
  have hlisted : ∀ other ∈ eligible, other ∈ cards ∧ PrivacyAdmissible req other := by
    intro other hother
    have hserves := mem_serving ((roleStage_ok hserving).1 ▸ (hmatched other hother).2)
    exact ⟨hserves.1, hserves.2.1⟩
  have hcard : card ∈ eligible := budgetStage_subset hbudget (pick_mem hpick)
  have hadmissible : card ∈ privacyOk := by
    rw [privacyStage_ok hprivacy, List.mem_filter]
    exact ⟨(hlisted card hcard).1, decide_eq_true (hlisted card hcard).2⟩
  obtain ⟨privacyOk', privacyReasons', hprivacy', hsub, hmem⟩ :=
    privacyStage_survives hprivacy hsub hmem hadmissible
  obtain ⟨matched', ⟨roleReasons', roleDegradation'⟩, hrole', hsub, hmem⟩ :=
    roleStage_survives hrole hsub hmem (hmatched card hcard).2
  obtain ⟨priced', priceReasons', hprice', hsub, hmem⟩ :=
    pricingStage_survives hprice hsub hmem (hmatched card hcard).1
  obtain ⟨eligible', hadmission', hsub, hmem⟩ :=
    admissionStage_survives hadmission hsub hmem hcard
  have hnone : ∀ cost, budgetDegradation ≠ some (.budgetFallback cost) := by
    intro cost hcost
    refine hfallback cost ?_
    rw [hdegradations, hcost]
    exact List.mem_append_right _ List.mem_cons_self
  obtain ⟨budgetReasons', hbudget', hpick'⟩ := budgetStage_survives
    (hdistinct.separates.subset fun other hother => (hlisted other hother).1) hbudget hnone hsub
    hmem hpick
  simp only [decideWithAffinityAndReadySelected, bind_eq_ok, pure_eq_ok, Option.map_eq_some_iff,
    Prod.exists, Prod.mk.injEq]
  exact ⟨_, _, _, hprivacy', _, _, _, hrole', _, _, hprice', _, hadmission', _, _, _, hbudget', card,
    hpick', rfl, rfl⟩

/-- Deleting a card that was not chosen leaves the choice, unless it was a budget fallback. -/
theorem decide_of_delete (req : RequestProfile) (ctx : PolicyCtx F) (affinityKey : Option String)
    (ready : List String) (before after : List (Card F)) (lost : Card F)
    (hdistinct : DistinctIds (before ++ lost :: after))
    (h : decideWithAffinityAndReadySelected req (before ++ lost :: after) ctx affinityKey ready =
      .ok (some (decision, card)))
    (hfallback : ∀ cost, .budgetFallback cost ∉ decision.degradations) (hlost : lost ≠ card) :
    ∃ decision', decideWithAffinityAndReadySelected req (before ++ after) ctx affinityKey ready =
      .ok (some (decision', card)) ∧ decision'.chosenId = card.id := by
  have hmem : card ∈ before ++ after := by
    have hlisted := (decide_sound h).listed
    simp only [List.mem_append, List.mem_cons] at hlisted ⊢
    obtain hleft | rfl | hright := hlisted
    · exact .inl hleft
    · exact absurd rfl hlost
    · exact .inr hright
  have hsub : before ++ after ⊆ before ++ lost :: after := by
    intro other hother
    simp only [List.mem_append, List.mem_cons] at hother ⊢
    tauto
  obtain ⟨decision', h'⟩ := decide_of_subset hdistinct h hfallback hsub hmem
  exact ⟨decision', h', (decide_sound h').chosen⟩

end Losers

/-- The dearer of two cards goes. -/
theorem decide_of_delete_remote :
    ∃ decision', decideWithAffinityAndReadySelected fallbackRequest [localCard]
        ⟨none, none⟩ none [] = .ok (some (decision', localCard)) ∧
      decision'.chosenId = localCard.id :=
  decide_of_delete fallbackRequest ⟨none, none⟩ none [] [localCard] []
    (sampleCard "other" .remote .any .internet .requiresEviction (.lit 7))
    (show ["local", "other"].Nodup by decide) rfl (by simp)
    fun h => absurd (congrArg Card.id h) (by decide)

end Policy
