import IDoris.Supervisor.Report
import IDoris.Supervisor.SharedLedger

/-!
# The private claim and the shared ledger

The supervisor remembers what it has claimed and presents it as the expectation of its
next compare-and-set. A call of the ledger changes both sides or neither.
-/
namespace Supervisor

open Bounded Transaction

variable {G : Type}

/-- The refusal of a compare-and-set whose expectation is out of date. -/
def staleExpectation (key : String) : BackendError :=
  .invariantViolation
    ("global capacity allocation " ++ key.quote ++ " changed before compare-and-set")

section Ledger

variable {ledger after : GlobalCapacityLedger G} {key field : String}
  {expected : ExpectedAllocation G} {next : Option (CapacityAllocation G)} {enforce allow : Bool}
  {planned : Option CapacityCharge} {value : G} {units : U128} {e : BackendError}

/-- The text of the refusal starts as no other text of an invariant does. -/
theorem staleExpectation_ne {text : String}
    (h : ¬ "global capacity allocation ".toList <+: text.toList) :
    staleExpectation key ≠ .invariantViolation text := by
  intro heq
  simp only [staleExpectation, BackendError.invariantViolation.injEq] at heq
  apply h
  rw [← heq, String.append_assoc, String.toList_append]
  exact List.prefix_append _ _

theorem staleExpectation_ne_overflow (key : String) :
    staleExpectation key ≠ .invariantViolation "global capacity exact total overflowed" :=
  staleExpectation_ne (by decide)

theorem staleExpectation_ne_refusal (h : e = .oom key ∨ e = .headroomConfirmationRequired key) :
    e ≠ staleExpectation key := by
  obtain rfl | rfl := h <;> exact nofun

theorem checkAdmission_error (h : ledger.checkAdmission key units allow = .error e) :
    e = .oom key ∨ e = .headroomConfirmationRequired key := by
  unfold GlobalCapacityLedger.checkAdmission at h
  simp only at h
  split at h
  · exact .inl (Except.error.inj h).symm
  · split at h
    · exact .inr (Except.error.inj h).symm
    · cases h

theorem checkPlan_error {charge : CapacityCharge}
    (h : ledger.checkPlan key units allow charge = .error e) :
    e = .oom key ∨ e = .headroomConfirmationRequired key := by
  unfold GlobalCapacityLedger.checkPlan at h
  split at h
  · exact .inl (Except.error.inj h).symm
  · split at h
    · exact .inl (Except.error.inj h).symm
    · split at h
      · exact .inr (Except.error.inj h).symm
      · cases h

variable [Gigabytes G]

/-- A matching expectation is not what a compare-and-set is refused for. -/
theorem replaceAllocation_not_stale
    (h : expected.matches (ledger.allocations.get key) = true) :
    ledger.replaceAllocation key expected next enforce planned allow ≠
      .error (staleExpectation key) := by
  intro herror
  have hoverflow := (staleExpectation_ne_overflow key).symm
  unfold GlobalCapacityLedger.replaceAllocation at herror
  simp only [h, hoverflow, guard_eq_error, bind_eq_error, elim_eq_error, Bool.not_true,
    Bool.false_eq_true, false_and, and_false, not_false_eq_true, true_and, false_or] at herror
  obtain ⟨-, hempty⟩ | ⟨-, total, -, -, requested, -, herror⟩ := herror
  · exact absurd hempty nofun
  have htail : ∀ {commit : Except BackendError (GlobalCapacityLedger G)},
      (∀ e, commit ≠ .error e) →
      (if enforce = true ∧ ((Option.map (fun x => x.chargedUnits)
          (ledger.allocations.get key)).getD U128.zero).val <
            ((Option.map (fun x => x.chargedUnits) next).getD U128.zero).val then
        if Gigabytes.beq ledger.budgetGb (Gigabytes.zero : G) = true then
          throw (BackendError.oom key) >>= fun _ : PUnit =>
            ledger.checkAdmission key requested allow >>= fun _ => commit
        else ledger.checkAdmission key requested allow >>= fun _ => commit
      else commit) ≠ .error (staleExpectation key) := by
    intro commit hcommit h
    split at h
    · simp only [guard_eq_error, bind_eq_error] at h
      obtain ⟨-, hoom⟩ | ⟨-, hadmission | ⟨_, -, hdone⟩⟩ := h
      · exact absurd hoom nofun
      · exact staleExpectation_ne_refusal (checkAdmission_error hadmission) rfl
      · exact hcommit _ hdone
    · exact hcommit _ h
  have hcommit : ∀ {commit : Except BackendError (GlobalCapacityLedger G)},
      commit = .ok (ledger.assign key next) → ∀ e, commit ≠ .error e := by
    intro commit hok e he
    rw [hok] at he
    cases he
  cases planned with
  | none => exact htail (hcommit (by cases next <;> rfl)) herror
  | some charge =>
    simp only [bind_eq_error] at herror
    obtain hplan | ⟨_, -, herror⟩ := herror
    · exact staleExpectation_ne_refusal (checkPlan_error hplan) rfl
    · exact htail (hcommit (by cases next <;> rfl)) herror

theorem claimCharge_eq (current charge : CapacityCharge) :
    ledger.claimCharge key current charge allow =
      ledger.replaceAllocation key (.charge (some current))
        (some ⟨(current.max charge).gb, (current.max charge).units⟩) true (some charge) allow := rfl

/-- A compare-and-set in GB that is not refused has assigned the next amount. -/
theorem compareAndSet_assigned {expectedGb : Option G}
    (h : ledger.compareAndSet key expectedGb (some value) enforce = .ok after) :
    Gigabytes.malformed value = false ∧ ∃ units, toCapacityUnits "next_gb" value .up = .ok units ∧
      after = ledger.assign key (some ⟨value, units⟩) := by
  unfold GlobalCapacityLedger.compareAndSet at h
  cases expectedGb with
  | none =>
    simp only [bind_eq_ok, pure_bind] at h
    obtain ⟨units, hunits, h⟩ := h
    have hformed := (toCapacityUnits_ok hunits "next_gb").1
    exact ⟨hformed, units, hunits, (GlobalCapacityLedger.replaceAllocation_ok h).assigned⟩
  | some expected =>
    simp only [bind_eq_ok, pure_bind] at h
    obtain ⟨_, -, units, hunits, h⟩ := h
    have hformed := (toCapacityUnits_ok hunits "next_gb").1
    exact ⟨hformed, units, hunits, (GlobalCapacityLedger.replaceAllocation_ok h).assigned⟩

theorem compareAndSet_not_stale {expectedGb : Option G}
    (h : (ExpectedAllocation.estimate expectedGb).matches (ledger.allocations.get key) = true) :
    ledger.compareAndSet key expectedGb (some value) enforce ≠ .error (staleExpectation key) := by
  intro herror
  have hinvalid : ∀ {field : String} {value : G},
      toCapacityUnits field value .up ≠ .error (staleExpectation key) := by
    intro field value hunits
    obtain ⟨msg, hmsg⟩ := toCapacityUnits_error hunits
    cases hmsg
  unfold GlobalCapacityLedger.compareAndSet at herror
  cases expectedGb with
  | none =>
    simp only [bind_eq_error, pure_bind, hinvalid, false_or] at herror
    obtain ⟨units, -, herror⟩ := herror
    exact replaceAllocation_not_stale h herror
  | some expected =>
    simp only [bind_eq_error, pure_bind] at herror
    obtain hunits | ⟨_, -, hunits | ⟨units, -, herror⟩⟩ := herror
    · cases hexpected : toCapacityUnits "expected_gb" expected .up with
      | error err =>
        rw [hexpected] at hunits
        exact hinvalid (hexpected.trans (congrArg Except.error (Except.error.inj hunits)))
      | ok units =>
        rw [hexpected] at hunits
        cases hunits
    · exact hinvalid hunits
    · exact replaceAllocation_not_stale h herror

end Ledger

variable [Gigabytes G]

section Tracking

/-- What the ledger holds for the runtime is what the supervisor remembers. -/
structure StartupCapacityTracking.Agrees (t : StartupCapacityTracking G) : Prop where
  exact : ∀ charge, t.exactClaim = some charge →
    (t.ledger.allocations.get t.allocationKey).map (·.chargedUnits) = some charge.units
  estimate : t.exactClaim = none →
    (t.ledger.allocations.get t.allocationKey).map (·.requestedGb) = some t.claimedGb
  formed : t.exactClaim = none → Gigabytes.malformed t.claimedGb = false

/-- A call that succeeds writes one amount on both sides; another leaves both. -/
inductive StartupCapacityTracking.Moves (t : StartupCapacityTracking G) :
    StartupCapacityTracking G → Prop where
  | stays : Moves t t
  | charge (charge : CapacityCharge) (hexact : t.exactClaim.isSome = true) :
      Moves t { t with
        ledger := t.ledger.assign t.allocationKey (some ⟨charge.gb, charge.units⟩)
        exactClaim := some charge }
  | estimate (gb : G) (units : U128) (hestimate : t.exactClaim = none)
      (hformed : Gigabytes.malformed gb = false) :
      Moves t { t with
        ledger := t.ledger.assign t.allocationKey (some ⟨gb, units⟩)
        claimedGb := gb }

/-- The environment after a call of the ledger. -/
inductive Env.Moves (env : Env G) : Env G → Prop where
  | stays : Moves env env
  | tracked (t t' : StartupCapacityTracking G) (htracking : env.runtimeCapacity = some t)
      (hmoves : t.Moves t') : Moves env (env.withTracking t')

/-- The claim is not below an earlier one. -/
structure StartupCapacityTracking.Grows (before after : StartupCapacityTracking G) : Prop where
  exact : ∀ charge, before.exactClaim = some charge →
    ∃ charge', after.exactClaim = some charge' ∧ charge.units.val ≤ charge'.units.val
  estimate : before.exactClaim = none → after.exactClaim = none ∧
    Gigabytes.le before.claimedGb after.claimedGb = true

variable {t t' : StartupCapacityTracking G} {env env' : Env G} {models : Models G}
  {plannedGb : G} {plannedCharge : Option CapacityCharge} {allow : Bool}
  {verdict : Except BackendError Unit}

theorem StartupCapacityTracking.Moves.agrees (h : t.Moves t') (hagrees : t.Agrees) : t'.Agrees := by
  cases h with
  | stays => exact hagrees
  | charge charge hexact =>
    exact {
      exact := fun other hother => by
        obtain rfl := Option.some.inj hother
        rw [GlobalCapacityLedger.get_assign]
        rfl
      estimate := nofun
      formed := nofun }
  | estimate gb units hestimate hformed =>
    exact {
      exact := fun other hother => by
        rw [hestimate] at hother
        cases hother
      estimate := fun _ => by rw [GlobalCapacityLedger.get_assign]; rfl
      formed := fun _ => hformed }

theorem claimRuntimeCapacity_moves
    (h : env.claimRuntimeCapacity plannedGb plannedCharge allow = .ok env') : env.Moves env' := by
  unfold Env.claimRuntimeCapacity at h
  split at h
  · cases h
    exact .stays
  · rename_i tracking htracking
    split at h
    · rename_i current hcurrent
      simp only [bind_eq_ok] at h
      obtain ⟨planned, -, ledger, hclaim, h⟩ := h
      cases h
      rw [claimCharge_eq] at hclaim
      have hassigned := (GlobalCapacityLedger.replaceAllocation_ok hclaim).assigned
      rw [hassigned]
      exact .tracked tracking _ htracking (.charge (current.max planned) (by rw [hcurrent]; rfl))
    · rename_i hestimate
      simp only at h
      split at h
      · cases h
        exact .stays
      · simp only [bind_eq_ok] at h
        obtain ⟨ledger, hresize, h⟩ := h
        cases h
        obtain ⟨hformed, units, -, hassigned⟩ := compareAndSet_assigned hresize
        rw [hassigned]
        exact .tracked tracking _ htracking (.estimate _ units hestimate hformed)

/-- An amount that cannot be accounted for exactly. -/
def Unaccountable (e : BackendError) : Prop :=
  (∃ msg, e = .invalidRequest msg) ∨
    e = .invariantViolation "runtime capacity charge overflowed"

theorem Unaccountable.ne_stale {e : BackendError} {key : String} (h : Unaccountable e) :
    e ≠ staleExpectation key := by
  obtain ⟨msg, rfl⟩ | rfl := h
  · exact nofun
  · exact (staleExpectation_ne (by decide)).symm

theorem fromGb_error {value : G} {e : BackendError} (h : CapacityCharge.fromGb value = .error e) :
    Unaccountable e := by
  unfold CapacityCharge.fromGb at h
  cases hunits : toCapacityUnits "model charge" value .up with
  | error err =>
    rw [hunits] at h
    cases h
    exact .inl (toCapacityUnits_error hunits)
  | ok units =>
    rw [hunits] at h
    cases h

theorem checkedAdd_error {a b : CapacityCharge} {e : BackendError} (h : a.checkedAdd b = .error e) :
    Unaccountable e := by
  unfold CapacityCharge.checkedAdd at h
  split at h
  · cases h
  · exact .inr (Except.error.inj h).symm

theorem coveredCharge_error {id : String} {credit : G} {e : BackendError}
    (h : Env.coveredCharge models id credit = .error e) : Unaccountable e := by
  unfold Env.coveredCharge at h
  split at h
  · split at h
    · cases hcredit : CapacityCharge.fromGb credit with
      | error err =>
        rw [hcredit] at h
        cases h
        exact fromGb_error hcredit
      | ok charge =>
        rw [hcredit] at h
        cases h
    · cases h
  · cases h

theorem exactCharge_error {slots : List (ModelSlot G)} {e : BackendError}
    (h : env.exactCharge models slots = .error e) : Unaccountable e := by
  simp only [Env.exactCharge, Env.exactReservedCharge, bind_eq_error, bind_eq_ok,
    pure_eq_error, and_false, exists_false, or_false] at h
  obtain (hcovered | ⟨_, -, hreserved⟩) | ⟨_, -, hslots⟩ := h
  · apply foldlM_eq_error _ hcovered
    intro sum entry e hstep
    obtain hcredit | ⟨_, -, hadd⟩ := bind_eq_error.mp hstep
    · exact coveredCharge_error hcredit
    · exact checkedAdd_error hadd
  · exact fromGb_error hreserved
  · exact foldlM_eq_error (fun _ _ _ hstep => checkedAdd_error hstep) hslots

/-- Some load may still be allocating in the engine. -/
def Models.unconfirmed (models : Models G) : Bool := models.values.any (·.loadUnconfirmed)

/-- What a settlement does, branch by branch. -/
inductive Env.Settlement (env : Env G) (models : Models G) :
    Except BackendError Unit → Env G → Prop where
  | untracked (htracking : env.runtimeCapacity = none) : Settlement env models (.ok ()) env
  | unaccountable (t : StartupCapacityTracking G) (err : BackendError)
      (htracking : env.runtimeCapacity = some t)
      (haccounted : env.exactCharge models models.values = .error err) :
      Settlement env models (.error err) env
  | keptCharge (t : StartupCapacityTracking G) (current : CapacityCharge)
      (htracking : env.runtimeCapacity = some t) (hcurrent : t.exactClaim = some current)
      (hunconfirmed : models.unconfirmed = true) : Settlement env models (.ok ()) env
  | refusedCharge (t : StartupCapacityTracking G) (current accounted : CapacityCharge)
      (err : BackendError)
      (htracking : env.runtimeCapacity = some t) (hcurrent : t.exactClaim = some current)
      (haccounted : env.exactCharge models models.values = .ok accounted)
      (hrefused : t.ledger.updateCharge t.allocationKey (some current) accounted
        (!decide (current.units.val < accounted.units.val)) = .error err) :
      Settlement env models (.error err) env
  | charged (t : StartupCapacityTracking G) (current accounted : CapacityCharge)
      (htracking : env.runtimeCapacity = some t) (hcurrent : t.exactClaim = some current)
      (haccounted : env.exactCharge models models.values = .ok accounted)
      (hmay : current.units.val < accounted.units.val ∨ models.unconfirmed = false) :
      Settlement env models
        (if current.units.val < accounted.units.val ∧ models.unconfirmed = false then
          .error Env.exceededClaim else .ok ())
        (env.withTracking { t with
          ledger := t.ledger.assign t.allocationKey (some ⟨accounted.gb, accounted.units⟩)
          exactClaim := some accounted })
  | keptEstimate (t : StartupCapacityTracking G) (htracking : env.runtimeCapacity = some t)
      (hestimate : t.exactClaim = none)
      (hkept : Gigabytes.le (Gigabytes.abs (Gigabytes.sub (env.accountedGb models) t.claimedGb))
        Gigabytes.epsilon = true ∨ models.unconfirmed = true) : Settlement env models (.ok ()) env
  | refusedEstimate (t : StartupCapacityTracking G) (err : BackendError)
      (htracking : env.runtimeCapacity = some t) (hestimate : t.exactClaim = none)
      (hrefused : t.ledger.compareAndSet t.allocationKey (some t.claimedGb)
        (some (env.accountedGb models))
        (!Gigabytes.lt t.claimedGb (env.accountedGb models)) = .error err) :
      Settlement env models (.error err) env
  | estimated (t : StartupCapacityTracking G) (units : U128)
      (htracking : env.runtimeCapacity = some t) (hestimate : t.exactClaim = none)
      (hformed : Gigabytes.malformed (env.accountedGb models) = false)
      (hmay : Gigabytes.lt t.claimedGb (env.accountedGb models) = true ∨
        models.unconfirmed = false) :
      Settlement env models
        (if Gigabytes.lt t.claimedGb (env.accountedGb models) = true ∧ models.unconfirmed = false then
          .error Env.exceededClaim else .ok ())
        (env.withTracking { t with
          ledger := t.ledger.assign t.allocationKey (some ⟨env.accountedGb models, units⟩)
          claimedGb := env.accountedGb models })

theorem settleExactClaim_settlement {current accounted : CapacityCharge}
    (htracking : env.runtimeCapacity = some t) (hcurrent : t.exactClaim = some current)
    (haccounted : env.exactCharge models models.values = .ok accounted) :
    env.Settlement models (env.settleExactClaim t current accounted models.unconfirmed).1
      (env.settleExactClaim t current accounted models.unconfirmed).2 := by
  by_cases hgrown : current.units.val < accounted.units.val
  · simp only [Env.settleExactClaim, hgrown, decide_true, Bool.true_or, if_true, Bool.true_and]
    cases hupdate : t.ledger.updateCharge t.allocationKey (some current) accounted (!true) with
    | error err =>
      apply Env.Settlement.refusedCharge t current accounted err htracking hcurrent haccounted
      rw [decide_eq_true hgrown]
      exact hupdate
    | ok ledger =>
      have hassigned := (GlobalCapacityLedger.replaceAllocation_ok hupdate).assigned
      have hcharged := Env.Settlement.charged t current accounted htracking hcurrent haccounted
        (.inl hgrown)
      simp only [hgrown, true_and] at hcharged
      rw [hassigned]
      simpa using hcharged
  · by_cases hunconfirmed : models.unconfirmed = true
    · simp only [Env.settleExactClaim, hgrown, hunconfirmed, decide_false, Bool.not_true,
        Bool.or_self, Bool.and_self, Bool.false_eq_true, if_false]
      exact .keptCharge t current htracking hcurrent hunconfirmed
    · rw [Bool.not_eq_true] at hunconfirmed
      simp only [Env.settleExactClaim, hgrown, hunconfirmed, decide_false, Bool.not_false,
        Bool.or_true, Bool.false_and, Bool.false_eq_true, if_false, if_true]
      cases hupdate : t.ledger.updateCharge t.allocationKey (some current) accounted true with
      | error err =>
        apply Env.Settlement.refusedCharge t current accounted err htracking hcurrent haccounted
        rw [decide_eq_false hgrown]
        exact hupdate
      | ok ledger =>
        have hassigned := (GlobalCapacityLedger.replaceAllocation_ok hupdate).assigned
        have hcharged := Env.Settlement.charged t current accounted htracking hcurrent haccounted
          (.inr hunconfirmed)
        simp only [hgrown, false_and, if_false] at hcharged
        rw [hassigned]
        exact hcharged

theorem settleEstimatedClaim_settlement (htracking : env.runtimeCapacity = some t)
    (hestimate : t.exactClaim = none) :
    env.Settlement models
      (env.settleEstimatedClaim t (env.accountedGb models) models.unconfirmed).1
      (env.settleEstimatedClaim t (env.accountedGb models) models.unconfirmed).2 := by
  unfold Env.settleEstimatedClaim
  simp only
  split
  · rename_i hwithin
    exact .keptEstimate t htracking hestimate (.inl hwithin)
  · split
    · rename_i hgrown
      split
      · rename_i err hadopt
        apply Env.Settlement.refusedEstimate t err htracking hestimate
        rw [hgrown]
        exact hadopt
      · rename_i ledger hadopt
        obtain ⟨hformed, units, -, hassigned⟩ := compareAndSet_assigned hadopt
        have hestimated := Env.Settlement.estimated t units htracking hestimate hformed (.inl hgrown)
        rw [hassigned]
        cases hunconfirmed : models.unconfirmed with
        | true => simpa [hunconfirmed] using hestimated
        | false => simpa [hunconfirmed, hgrown] using hestimated
    · rename_i hgrown
      split
      · rename_i hunconfirmed
        exact .keptEstimate t htracking hestimate (.inr hunconfirmed)
      · rename_i hunconfirmed
        split
        · rename_i err hresize
          apply Env.Settlement.refusedEstimate t err htracking hestimate
          rw [Bool.eq_false_of_not_eq_true hgrown]
          exact hresize
        · rename_i ledger hresize
          obtain ⟨hformed, units, -, hassigned⟩ := compareAndSet_assigned hresize
          have hestimated := Env.Settlement.estimated t units htracking hestimate hformed
            (.inr (by simpa using hunconfirmed))
          rw [hassigned]
          simpa [hgrown] using hestimated

/-- A settlement is one of the branches. -/
theorem settleRuntimeCapacity_settlement (env : Env G) (models : Models G) :
    env.Settlement models (env.settleRuntimeCapacity models).1
      (env.settleRuntimeCapacity models).2 := by
  unfold Env.settleRuntimeCapacity
  simp only
  split
  · rename_i htracking
    exact .untracked htracking
  · rename_i tracking htracking
    split
    · rename_i current hcurrent
      split
      · rename_i err haccounted
        exact .unaccountable tracking err htracking haccounted
      · rename_i accounted haccounted
        exact settleExactClaim_settlement htracking hcurrent haccounted
    · rename_i hestimate
      exact settleEstimatedClaim_settlement htracking hestimate

theorem Env.Settlement.moves (h : env.Settlement models verdict env') : env.Moves env' := by
  cases h with
  | charged t current accounted htracking hcurrent =>
    exact .tracked t _ htracking (.charge accounted (by rw [hcurrent]; rfl))
  | estimated t units htracking hestimate hformed =>
    exact .tracked t _ htracking (.estimate _ units hestimate hformed)
  | _ => exact .stays

/-- The expectation the supervisor presents is the one the ledger finds. -/
theorem StartupCapacityTracking.Agrees.matches_charge {current : CapacityCharge} (h : t.Agrees)
    (hcurrent : t.exactClaim = some current) :
    (ExpectedAllocation.charge (some current)).matches (t.ledger.allocations.get t.allocationKey) =
      true := by
  have hunits := h.exact current hcurrent
  obtain ⟨allocation, hget, hcharged⟩ := Option.map_eq_some_iff.mp hunits
  simp only [ExpectedAllocation.matches, hget, Option.map_some, hcharged, decide_true]

theorem StartupCapacityTracking.Agrees.matches_estimate [LawfulGigabytes G] (h : t.Agrees)
    (hestimate : t.exactClaim = none) :
    (ExpectedAllocation.estimate (some t.claimedGb)).matches
      (t.ledger.allocations.get t.allocationKey) = true := by
  have hfinite : Gigabytes.isFinite t.claimedGb = true := by
    have hformed := h.formed hestimate
    simp only [Gigabytes.malformed, Bool.or_eq_false_iff, Bool.not_eq_false'] at hformed
    exact hformed.1
  simp only [ExpectedAllocation.matches, h.estimate hestimate, sameEstimate,
    LawfulGigabytes.beq_refl _ hfinite]

theorem claimRuntimeCapacity_not_stale [LawfulGigabytes G] (htracking : env.runtimeCapacity = some t)
    (h : t.Agrees) : env.claimRuntimeCapacity plannedGb plannedCharge allow ≠
      .error (staleExpectation t.allocationKey) := by
  intro herror
  have hmissing : staleExpectation t.allocationKey ≠
      .invariantViolation "missing exact load charge" := staleExpectation_ne (by decide)
  simp only [Env.claimRuntimeCapacity, htracking] at herror
  split at herror
  · rename_i current hcurrent
    simp only [bind_eq_error, elim_eq_error, hmissing.symm, and_false, false_or,
      pure_eq_error, exists_false, or_false] at herror
    obtain ⟨planned, -, hclaim⟩ := herror
    rw [claimCharge_eq] at hclaim
    exact replaceAllocation_not_stale (h.matches_charge hcurrent) hclaim
  · rename_i hestimate
    split at herror
    · cases herror
    · simp only [bind_eq_error, pure_eq_error, and_false, exists_false, or_false] at herror
      exact compareAndSet_not_stale (h.matches_estimate hestimate) herror

theorem Env.Settlement.not_stale [LawfulGigabytes G] (h : env.Settlement models verdict env')
    (htracking : env.runtimeCapacity = some t) (hagrees : t.Agrees) :
    verdict ≠ .error (staleExpectation t.allocationKey) := by
  have hexceeded : Env.exceededClaim ≠ staleExpectation t.allocationKey :=
    (staleExpectation_ne (by decide)).symm
  cases h with
  | untracked => exact nofun
  | unaccountable t' err _ haccounted =>
    exact fun heq => (exactCharge_error haccounted).ne_stale (Except.error.inj heq)
  | keptCharge => exact nofun
  | refusedCharge t' current accounted err htracking' hcurrent haccounted hrefused =>
    obtain rfl := Option.some.inj (htracking.symm.trans htracking')
    intro heq
    obtain rfl := Except.error.inj heq
    exact replaceAllocation_not_stale (hagrees.matches_charge hcurrent) hrefused
  | charged t' current accounted =>
    split
    · exact fun heq => hexceeded (Except.error.inj heq)
    · exact nofun
  | keptEstimate => exact nofun
  | refusedEstimate t' err htracking' hestimate hrefused =>
    obtain rfl := Option.some.inj (htracking.symm.trans htracking')
    intro heq
    obtain rfl := Except.error.inj heq
    exact compareAndSet_not_stale (hagrees.matches_estimate hestimate) hrefused
  | estimated t' units =>
    split
    · exact fun heq => hexceeded (Except.error.inj heq)
    · exact nofun

/-- The claim is the accounted total; sizes in GB may stay apart by the epsilon. -/
structure Env.Settled (env : Env G) (models : Models G) : Prop where
  exact : ∀ t charge, env.runtimeCapacity = some t → t.exactClaim = some charge →
    env.exactCharge models models.values = .ok charge
  estimate : ∀ t, env.runtimeCapacity = some t → t.exactClaim = none →
    t.claimedGb = env.accountedGb models ∨
      Gigabytes.le (Gigabytes.abs (Gigabytes.sub (env.accountedGb models) t.claimedGb))
        Gigabytes.epsilon = true

/-- A settlement that succeeds without an unconfirmed load leaves the claim settled. -/
theorem Env.Settlement.settled (h : env.Settlement models verdict env') (hok : verdict = .ok ())
    (hconfirmed : models.unconfirmed = false) : env'.Settled models := by
  cases h with
  | untracked hnone =>
    have hno : ∀ t, env.runtimeCapacity ≠ some t := fun t h => by rw [hnone] at h; cases h
    exact ⟨fun t _ h => absurd h (hno t), fun t h => absurd h (hno t)⟩
  | unaccountable => cases hok
  | keptCharge t current _ _ hunconfirmed =>
    rw [hconfirmed] at hunconfirmed
    cases hunconfirmed
  | refusedCharge => cases hok
  | charged t current accounted htracking hcurrent haccounted hmay =>
    constructor
    · intro t' charge ht' hcharge
      obtain rfl := Option.some.inj ht'
      obtain rfl := Option.some.inj hcharge
      exact haccounted
    · intro t' ht' hnone
      obtain rfl := Option.some.inj ht'
      cases hnone
  | keptEstimate t htracking hestimate hkept =>
    have hwithin := hkept.resolve_right (by rw [hconfirmed]; exact Bool.false_ne_true)
    constructor
    · intro t' charge ht' hcharge
      obtain rfl := Option.some.inj (htracking.symm.trans ht')
      rw [hestimate] at hcharge
      cases hcharge
    · intro t' ht' _
      obtain rfl := Option.some.inj (htracking.symm.trans ht')
      exact .inr hwithin
  | refusedEstimate => cases hok
  | estimated t units htracking hestimate hformed hmay =>
    constructor
    · intro t' charge ht' hcharge
      obtain rfl := Option.some.inj ht'
      exact absurd (hestimate.symm.trans hcharge) nofun
    · intro t' ht' _
      obtain rfl := Option.some.inj ht'
      exact .inl rfl

section Growth

variable [LawfulGigabytes G]

theorem StartupCapacityTracking.Grows.refl (hagrees : t.Agrees) : t.Grows t where
  exact charge h := ⟨charge, h, Nat.le_refl _⟩
  estimate h := ⟨h, LawfulGigabytes.le_refl _ (LawfulGigabytes.nonneg _ (hagrees.formed h))⟩

theorem StartupCapacityTracking.Grows.trans {before middle after : StartupCapacityTracking G}
    (h : before.Grows middle) (h' : middle.Grows after) : before.Grows after where
  exact charge hcharge := by
    obtain ⟨charge', hmiddle, hle⟩ := h.exact charge hcharge
    obtain ⟨charge'', hafter, hle'⟩ := h'.exact charge' hmiddle
    exact ⟨charge'', hafter, Nat.le_trans hle hle'⟩
  estimate hnone := by
    obtain ⟨hmiddle, hle⟩ := h.estimate hnone
    obtain ⟨hafter, hle'⟩ := h'.estimate hmiddle
    exact ⟨hafter, LawfulGigabytes.le_trans _ _ _ hle hle'⟩

/-- The claim of a load covers its plan. -/
structure Env.Covers (env : Env G) (plannedGb : G) (plannedCharge : Option CapacityCharge) :
    Prop where
  exact : ∀ t charge, env.runtimeCapacity = some t → t.exactClaim = some charge →
    ∃ planned, plannedCharge = some planned ∧ planned.units.val ≤ charge.units.val
  estimate : ∀ t, env.runtimeCapacity = some t → t.exactClaim = none →
    Gigabytes.le plannedGb t.claimedGb = true

/-- A claim that is not refused grows the old one until it covers the plan. -/
theorem claimRuntimeCapacity_grows (htracking : env.runtimeCapacity = some t) (hagrees : t.Agrees)
    (h : env.claimRuntimeCapacity plannedGb plannedCharge allow = .ok env') :
    ∃ t', env'.runtimeCapacity = some t' ∧ t.Grows t' := by
  simp only [Env.claimRuntimeCapacity, htracking] at h
  split at h
  · rename_i current hcurrent
    simp only [bind_eq_ok] at h
    obtain ⟨planned, -, ledger, -, h⟩ := h
    cases h
    refine ⟨_, rfl, fun charge hcharge => ?_, fun hnone => ?_⟩
    · obtain rfl := Option.some.inj (hcurrent.symm.trans hcharge)
      refine ⟨_, rfl, ?_⟩
      simp only [CapacityCharge.max, U128.max_val]
      omega
    · rw [hcurrent] at hnone
      cases hnone
  · rename_i hestimate
    split at h
    · cases h
      exact ⟨t, htracking, .refl hagrees⟩
    · simp only [bind_eq_ok] at h
      obtain ⟨ledger, -, h⟩ := h
      cases h
      refine ⟨_, rfl, fun charge hcharge => ?_, fun _ => ⟨hestimate, ?_⟩⟩
      · rw [hestimate] at hcharge
        cases hcharge
      · exact LawfulGigabytes.le_max_left _ _ (LawfulGigabytes.nonneg _ (hagrees.formed hestimate))

theorem claimRuntimeCapacity_covers
    (hplanned : Gigabytes.le (Gigabytes.zero : G) plannedGb = true)
    (h : env.claimRuntimeCapacity plannedGb plannedCharge allow = .ok env') :
    env'.Covers plannedGb plannedCharge := by
  unfold Env.claimRuntimeCapacity at h
  split at h
  · rename_i hnone
    cases h
    have hno : ∀ t, env.runtimeCapacity ≠ some t := fun t ht => by rw [hnone] at ht; cases ht
    exact ⟨fun t _ ht => absurd ht (hno t), fun t ht => absurd ht (hno t)⟩
  · rename_i tracking htracking
    split at h
    · rename_i current hcurrent
      simp only [bind_eq_ok, elim_eq_ok] at h
      obtain ⟨planned, hsome, ledger, -, h⟩ := h
      cases h
      constructor
      · intro t charge ht hcharge
        obtain rfl := Option.some.inj ht
        obtain rfl := Option.some.inj hcharge
        refine ⟨planned, hsome, ?_⟩
        simp only [CapacityCharge.max, U128.max_val]
        omega
      · intro t ht hnone
        obtain rfl := Option.some.inj ht
        cases hnone
    · rename_i hestimate
      have hmax : Gigabytes.le plannedGb (Gigabytes.max tracking.claimedGb plannedGb) = true :=
        LawfulGigabytes.le_max_right _ _ hplanned
      have hno : ∀ {t : StartupCapacityTracking G} {charge}, t.exactClaim = tracking.exactClaim →
          t.exactClaim ≠ some charge := by
        intro t charge hsame hcharge
        rw [hsame, hestimate] at hcharge
        cases hcharge
      simp only at h
      split at h
      · rename_i hsame
        cases h
        constructor
        · intro t charge ht hcharge
          obtain rfl := Option.some.inj (htracking.symm.trans ht)
          exact absurd hcharge (hno rfl)
        · intro t ht _
          obtain rfl := Option.some.inj (htracking.symm.trans ht)
          exact LawfulGigabytes.le_trans _ _ _ hmax (LawfulGigabytes.le_of_beq _ _ hsame)
      · simp only [bind_eq_ok] at h
        obtain ⟨ledger, -, h⟩ := h
        cases h
        constructor
        · intro t charge ht hcharge
          obtain rfl := Option.some.inj ht
          exact absurd hcharge (hno rfl)
        · intro t ht _
          obtain rfl := Option.some.inj ht
          exact hmax

/-- With an unconfirmed load the claim can only grow. -/
theorem Env.Settlement.grows (h : env.Settlement models verdict env')
    (hunconfirmed : models.unconfirmed = true) (htracking : env.runtimeCapacity = some t)
    (hagrees : t.Agrees) : ∃ t', env'.runtimeCapacity = some t' ∧ t.Grows t' := by
  cases h with
  | charged t' current accounted htracking' hcurrent haccounted hmay =>
    obtain rfl := Option.some.inj (htracking.symm.trans htracking')
    have hgrown := hmay.resolve_right (by simp [hunconfirmed])
    refine ⟨_, rfl, fun charge hcharge => ?_, fun hnone => ?_⟩
    · obtain rfl := Option.some.inj (hcurrent.symm.trans hcharge)
      exact ⟨accounted, rfl, Nat.le_of_lt hgrown⟩
    · rw [hcurrent] at hnone
      cases hnone
  | estimated t' units htracking' hestimate hformed hmay =>
    obtain rfl := Option.some.inj (htracking.symm.trans htracking')
    have hgrown := hmay.resolve_right (by simp [hunconfirmed])
    refine ⟨_, rfl, fun charge hcharge => ?_, fun _ => ⟨hestimate, ?_⟩⟩
    · rw [hestimate] at hcharge
      cases hcharge
    · exact LawfulGigabytes.le_of_lt _ _ hgrown
  | _ => exact ⟨t, htracking, .refl hagrees⟩

end Growth

end Tracking

end Supervisor
