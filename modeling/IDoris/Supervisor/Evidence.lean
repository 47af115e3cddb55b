import IDoris.Supervisor.LoadFlow

/-!
# What a report rests on

A flow is followed through the calls it made and the answers it got. Whatever it reports
as free was shown free by a status read after its last call for that model, or was never
loaded, or was rejected.
-/
namespace Supervisor

open Interaction Program

variable {G : Type}

/-- One call of an operation with its answer. -/
abbrev Call (G : Type) := Exchange Effect (Effect.Answer G)

namespace Call

/-- A load call for the model. -/
def Loads (id : String) (x : Call G) : Prop := ∃ policy answer, x = ⟨.load id policy, answer⟩

/-- A load or unload call for the model. -/
def Touches (id : String) (x : Call G) : Prop :=
  x.Loads id ∨ ∃ answer, x = ⟨.unload id, answer⟩

/-- The engine said that the load ran out of memory. -/
def RunsOut (id : String) (x : Call G) : Prop :=
  ∃ policy err, err.isOom = true ∧ x = ⟨.load id policy, some (.error err)⟩

/-- An explicit rejection: the engine holds nothing for this load. -/
def Rejects (id : String) (x : Call G) : Prop :=
  ∃ policy err, err.isOom = false ∧ err.leavesLoadUnconfirmed = false ∧
    err.isPostconditionFailure = false ∧ x = ⟨.load id policy, some (.error err)⟩

variable [Gigabytes G]

/-- A status snapshot that shows the targets gone and the rest within the limit. -/
def Shows (targets : List String) (limit : G) (x : Call G) : Prop :=
  ∃ status, releaseShown targets limit status = true ∧ x = ⟨.status, some (.ok status)⟩

end Call

section Calls

variable {id : String} {trace front rest : List (Call G)} {x : Call G}
  {result : Except BackendError Unit}

theorem Call.not_touches_status {answer : Timed (BackendStatus G)} :
    ¬Call.Touches id (⟨.status, answer⟩ : Call G) := by
  rintro (⟨policy, a, h⟩ | ⟨a, h⟩) <;> cases h

theorem Call.not_touches_probe {other : String} {answer : Timed Bool} :
    ¬Call.Touches id (⟨.probeReady other, answer⟩ : Call G) := by
  rintro (⟨policy, a, h⟩ | ⟨a, h⟩) <;> cases h

theorem Call.not_touches_clear {answer : Except BackendError Unit} :
    ¬Call.Touches id (⟨.clearFence, answer⟩ : Call G) := by
  rintro (⟨policy, a, h⟩ | ⟨a, h⟩) <;> cases h

theorem Call.not_loads_unload {other : String} {answer : Timed Unit} :
    ¬Call.Loads id (⟨.unload other, answer⟩ : Call G) := by
  rintro ⟨policy, a, h⟩
  cases h

theorem Call.touches_load {policy : LoadPolicy} {answer : Timed Unit} {v : String}
    (h : Call.Touches v (⟨.load id policy, answer⟩ : Call G)) : v = id := by
  obtain ⟨p, a, h⟩ | ⟨a, h⟩ := h <;> cases h
  rfl

theorem Call.RunsOut.loads (h : x.RunsOut id) : x.Loads id := by
  obtain ⟨policy, err, -, rfl⟩ := h
  exact ⟨policy, _, rfl⟩

theorem Call.not_loads (h : ¬x.Touches id) : ¬x.Loads id := fun hl => h (.inl hl)

theorem callUnload_leads (h : Leads (callUnload id) trace (.ret result)) :
    ∃ answer, trace = [⟨.unload id, answer⟩] ∧ result = withAdapterTimeout answer id := by
  obtain ⟨answer, rest, rfl, hrest⟩ := h.of_ask
  obtain ⟨rfl, hret⟩ := hrest.of_ret
  cases hret
  exact ⟨answer, rfl, rfl⟩

theorem callLoad_leads {policy : LoadPolicy} (h : Leads (callLoad id policy) trace (.ret result)) :
    ∃ answer, trace = [⟨.load id policy, answer⟩] ∧ result = withAdapterTimeout answer id := by
  obtain ⟨answer, rest, rfl, hrest⟩ := h.of_ask
  obtain ⟨rfl, hret⟩ := hrest.of_ret
  cases hret
  exact ⟨answer, rfl, rfl⟩

theorem callStatus_leads {label : String} {result : Except BackendError (BackendStatus G)}
    (h : Leads (callStatus label) trace (.ret result)) :
    ∃ answer, trace = [⟨.status, answer⟩] ∧ result = withAdapterTimeout answer label := by
  obtain ⟨answer, rest, rfl, hrest⟩ := h.of_ask
  obtain ⟨rfl, hret⟩ := hrest.of_ret
  cases hret
  exact ⟨answer, rfl, rfl⟩

theorem callProbeReady_leads {result : Except BackendError Bool}
    (h : Leads (callProbeReady id) trace (.ret result)) :
    ∃ answer, trace = [⟨.probeReady id, answer⟩] ∧ result = withAdapterTimeout answer id := by
  obtain ⟨answer, rest, rfl, hrest⟩ := h.of_ask
  obtain ⟨rfl, hret⟩ := hrest.of_ret
  cases hret
  exact ⟨answer, rfl, rfl⟩

/-- The flow keeps the outcome, or the marker stays and so does the load. -/
theorem clearFenceOr_leads {outcome kept : LoadFailureOutcome G}
    {previous : Option (PreviousModel G)}
    (h : Leads (clearFenceOr outcome previous) trace (.ret kept)) :
    (∃ answer, trace = [⟨.clearFence, answer⟩]) ∧
      (kept = outcome ∨ kept = .retainUnconfirmedLoad previous) := by
  obtain ⟨answer, rest, rfl, hrest⟩ := h.of_ask
  cases answer with
  | ok =>
    obtain ⟨rfl, hret⟩ := hrest.of_ret
    cases hret
    exact ⟨⟨_, rfl⟩, .inl rfl⟩
  | error err =>
    obtain ⟨rfl, hret⟩ := hrest.of_ret
    cases hret
    exact ⟨⟨_, rfl⟩, .inr rfl⟩

theorem unloadVictims_leads {evict : List String} {results : List VictimResult}
    (h : Leads (unloadVictims evict) trace (.ret results)) :
    results.map Prod.fst = evict ∧ ∀ target, ∀ y ∈ trace, ¬y.Loads target := by
  obtain ⟨hresults, hquiet⟩ := h.of_each (R := fun (v : String) (r : VictimResult) => r.1 = v)
    (P := fun (y : Call G) => ∀ target, ¬y.Loads target) (by
      intro v trace result hbody
      obtain ⟨first, last, unloaded, rfl, hunload, hlast⟩ := hbody.of_bind
      obtain ⟨answer, rfl, rfl⟩ := callUnload_leads hunload
      obtain ⟨rfl, hret⟩ := hlast.of_ret
      cases hret
      refine ⟨rfl, fun y hy target => ?_⟩
      obtain rfl := List.mem_singleton.mp hy
      exact Call.not_loads_unload)
  exact ⟨map_fst_of_forall₂ hresults, fun target y hy => hquiet y hy target⟩

end Calls

section Release

variable [Gigabytes G] {config : SupervisorConfig G} {id : String} {targets : List String}
  {limit : G} {trace front rest : List (Call G)}

/-- Some status after the last call for the model shows the targets gone. -/
def ReleasedAfter (trace : List (Call G)) (id : String) (targets : List String) (limit : G) : Prop :=
  ∃ (front : List (Call G)) (x : Call G) (back : List (Call G)), trace = front ++ x :: back ∧
    x.Shows targets limit ∧ ∀ y ∈ back, ¬y.Touches id

theorem ReleasedAfter.prepend (h : ReleasedAfter trace id targets limit) (front : List (Call G)) :
    ReleasedAfter (front ++ trace) id targets limit := by
  obtain ⟨before, x, back, rfl, hx, hback⟩ := h
  exact ⟨front ++ before, x, back, (List.append_assoc _ _ _).symm, hx, hback⟩

theorem ReleasedAfter.extend (h : ReleasedAfter trace id targets limit)
    (hrest : ∀ y ∈ rest, ¬y.Touches id) : ReleasedAfter (trace ++ rest) id targets limit := by
  obtain ⟨before, x, back, rfl, hx, hback⟩ := h
  refine ⟨before, x, back ++ rest, by simp, hx, fun y hy => ?_⟩
  obtain hy | hy := List.mem_append.mp hy
  · exact hback y hy
  · exact hrest y hy

theorem ReleasedAfter.of_last {x : Call G} (hx : x.Shows targets limit) :
    ReleasedAfter (front ++ [x]) id targets limit := ⟨front, x, [], rfl, hx, fun _ => nofun⟩

theorem ReleasedAfter.shown (h : ReleasedAfter trace id targets limit) :
    ∃ x ∈ trace, x.Shows targets limit := by
  obtain ⟨before, x, back, rfl, hx, -⟩ := h
  exact ⟨x, by simp, hx⟩

theorem pollRelease_leads {result : Option (BackendStatus G)}
    (h : Leads (pollRelease targets limit) trace (.ret result)) :
    (∀ y ∈ trace, ∃ answer, y = ⟨.status, answer⟩) ∧
      ∀ status, result = some status → ∃ x, trace = [x] ∧ x.Shows targets limit := by
  obtain ⟨first, last, status, rfl, hstatus, hlast⟩ := h.of_bind
  obtain ⟨answer, rfl, rfl⟩ := callStatus_leads hstatus
  have hshown : last = [] ∧ ∀ status, result = some status →
      Call.Shows targets limit (⟨.status, answer⟩ : Call G) := by
    obtain _ | err | status := answer
    · obtain ⟨rfl, hret⟩ := hlast.of_ret
      cases hret
      exact ⟨rfl, nofun⟩
    · obtain ⟨rfl, hret⟩ := hlast.of_ret
      cases hret
      exact ⟨rfl, nofun⟩
    · obtain ⟨rfl, hret⟩ := hlast.of_ret
      refine ⟨rfl, fun shown hshown => ⟨status, ?_, rfl⟩⟩
      subst hshown
      by_contra hne
      simp [hne] at hret
  obtain ⟨rfl, hshown⟩ := hshown
  refine ⟨fun y hy => ⟨answer, ?_⟩, fun status hstatus => ⟨_, rfl, hshown status hstatus⟩⟩
  simpa using hy

/-- Confirmation asks for statuses only, and ends well on one that shows the release. -/
theorem confirmMemoryReleased_leads {result : Except BackendError (BackendStatus G)}
    (h : Leads (confirmMemoryReleased config targets limit) trace (.ret result)) :
    (∀ y ∈ trace, ¬y.Touches id) ∧
      ∀ status, result = .ok status → ReleasedAfter trace id targets limit := by
  obtain ⟨first, last, polled, rfl, hpolled, hlast⟩ := h.of_bind
  obtain ⟨hquiet, hvalue⟩ := hpolled.of_attempts (P := fun y => ¬Call.Touches id y)
    (fun hbody y hy => by
      obtain ⟨answer, rfl⟩ := (pollRelease_leads hbody).1 y hy
      exact Call.not_touches_status)
  cases polled with
  | none =>
    obtain ⟨rfl, hret⟩ := hlast.of_ret
    cases hret
    rw [List.append_nil]
    exact ⟨hquiet, nofun⟩
  | some shown =>
    obtain ⟨rfl, hret⟩ := hlast.of_ret
    cases hret
    rw [List.append_nil]
    refine ⟨hquiet, fun status _ => ?_⟩
    obtain ⟨before, poll, rfl, hpoll⟩ := hvalue shown rfl
    obtain ⟨x, rfl, hx⟩ := (pollRelease_leads hpoll).2 shown rfl
    exact .of_last hx

/-- A release unloads and looks; it loads nothing. -/
theorem bestEffortRelease_leads {result : Option (BackendStatus G)}
    (h : Leads (bestEffortRelease config id limit) trace (.ret result)) :
    (∀ target, ∀ y ∈ trace, ¬y.Loads target) ∧ (∀ target, target ≠ id → ∀ y ∈ trace, ¬y.Touches target) ∧
      ∀ status, result = some status → ReleasedAfter trace id [id] limit := by
  obtain ⟨first, last, unloaded, rfl, hunload, hlast⟩ := h.of_bind
  obtain ⟨answer, rfl, rfl⟩ := callUnload_leads hunload
  have hlast' : (∀ target, ∀ y ∈ last, ¬Call.Touches target y) ∧
      ∀ status, result = some status → ReleasedAfter last id [id] limit := by
    cases hdone : withAdapterTimeout answer id with
    | error err =>
      rw [hdone] at hlast
      obtain ⟨rfl, hret⟩ := hlast.of_ret
      cases hret
      exact ⟨fun _ y hy => absurd hy List.not_mem_nil, fun _ h => nomatch h⟩
    | ok =>
      rw [hdone] at hlast
      obtain ⟨middle, ending, confirmed, rfl, hconfirm, hending⟩ := hlast.of_bind
      cases confirmed with
      | error err =>
        obtain ⟨rfl, hret⟩ := hending.of_ret
        cases hret
        rw [List.append_nil]
        exact ⟨fun target => (confirmMemoryReleased_leads hconfirm).1, nofun⟩
      | ok status =>
        obtain ⟨rfl, hret⟩ := hending.of_ret
        cases hret
        rw [List.append_nil]
        exact ⟨fun target => (confirmMemoryReleased_leads hconfirm).1,
          fun _ _ => (confirmMemoryReleased_leads hconfirm).2 status rfl⟩
  refine ⟨fun target y hy => ?_, fun target hne y hy => ?_, fun status hstatus => ?_⟩
  · obtain rfl | hy := List.mem_cons.mp hy
    · exact Call.not_loads_unload
    · exact Call.not_loads (hlast'.1 target y hy)
  · obtain rfl | hy := List.mem_cons.mp hy
    · rintro (⟨policy, a, h⟩ | ⟨a, h⟩)
      · cases h
      · cases h
        exact hne rfl
    · exact hlast'.1 target y hy
  · exact (hlast'.2 status hstatus).prepend [⟨.unload id, answer⟩]

end Release

section Target

variable [Gigabytes G]

/-- The last load was rejected explicitly; every one before it had run out of memory and was
shown gone. -/
def Rejected (trace : List (Call G)) (id : String) (limit : G) : Prop :=
  ∃ (front : List (Call G)) (x : Call G) (back : List (Call G)), trace = front ++ x :: back ∧
    x.Rejects id ∧ (∀ y ∈ back, ¬y.Touches id) ∧
    ∀ (before : List (Call G)) (y : Call G) (after : List (Call G)), front = before ++ y :: after → y.Loads id →
      y.RunsOut id ∧ ∃ z ∈ after, z.Shows [id] limit

/-- A second load of the operation ran out of memory as well. -/
def RetryRunsOut (trace : List (Call G)) (id : String) : Prop :=
  ∃ (front : List (Call G)) (x : Call G) (back : List (Call G)), trace = front ++ x :: back ∧
    x.RunsOut id ∧ ∃ y ∈ front, y.Loads id

/-- A status after a load that ran out of memory shows the model gone. -/
def OomReleased (trace : List (Call G)) (id : String) (limit : G) : Prop :=
  ∃ (front : List (Call G)) (x : Call G) (back : List (Call G)), trace = front ++ x :: back ∧
    x.RunsOut id ∧ ∃ y ∈ back, y.Shows [id] limit

/-- The instance before the load, unless it was shown gone on the way. -/
def Kept (previous : Option (PreviousModel G)) (trace : List (Call G)) (id : String) (limit : G)
    (kept : Option (PreviousModel G)) : Prop :=
  kept = previous ∨ kept = none ∧ OomReleased trace id limit

/-- What a load reports for its target, and what that rests on. -/
inductive TargetReport (id : String) (previous : Option (PreviousModel G)) (limit : G)
    (trace : List (Call G)) : Except BackendError Unit → LoadFailureOutcome G → Prop where
  | ready (failure : LoadFailureOutcome G) : TargetReport id previous limit trace (.ok ()) failure
  | untouched (err : BackendError) (hfresh : previous = none)
      (huntouched : ∀ y ∈ trace, ¬y.Loads id) :
      TargetReport id previous limit trace (.error err) (.settle .stopped)
  | rejected (err : BackendError) (hfresh : Kept previous trace id limit none)
      (hrejected : Rejected trace id limit) :
      TargetReport id previous limit trace (.error err) (.settle .stopped)
  | retryRunsOut (err : BackendError) (hretry : RetryRunsOut trace id) :
      TargetReport id previous limit trace (.error err) (.settle .stopped)
  | released (err : BackendError) (status : BackendStatus G)
      (hreleased : ReleasedAfter trace id [id] limit) :
      TargetReport id previous limit trace (.error err) (.settleReleased status)
  | unreleased (err : BackendError) :
      TargetReport id previous limit trace (.error err) (.settle .error)
  | restored (err : BackendError) (p : PreviousModel G) (hprevious : previous = some p) :
      TargetReport id previous limit trace (.error err) (.restorePrevious p)
  | retained (err : BackendError) (p : PreviousModel G) (hprevious : previous = some p) :
      TargetReport id previous limit trace (.error err) (.retainPreviousOnError p)
  | unconfirmed (err : BackendError) (kept : Option (PreviousModel G))
      (hkept : Kept previous trace id limit kept) :
      TargetReport id previous limit trace (.error err) (.retainUnconfirmedLoad kept)

/-- The end of a flow: it called nothing but its target, and reports on it. -/
structure Ends (ctx : LoadFlowContext G) (victimResults : List VictimResult)
    (previous : Option (PreviousModel G)) (before trace : List (Call G)) (outcome : OpOutcome G) :
    Prop where
  own : ∀ v, v ≠ ctx.id → ∀ y ∈ trace, ¬y.Touches v
  report : ∃ result status credit failure, outcome = .load result victimResults status credit failure ∧
    TargetReport ctx.id previous ctx.releaseLimits.targetAbsentGb (before ++ trace) result failure

variable {ctx : LoadFlowContext G} {g : Gathered G} {previous : Option (PreviousModel G)}
  {before trace front rest : List (Call G)} {outcome : OpOutcome G} {id : String} {limit : G}
  {kept : Option (PreviousModel G)} {err : BackendError} {failure : LoadFailureOutcome G}

theorem OomReleased.extend (h : OomReleased trace id limit) (rest : List (Call G)) :
    OomReleased (trace ++ rest) id limit := by
  obtain ⟨front, x, back, rfl, hx, y, hy, hshows⟩ := h
  exact ⟨front, x, back ++ rest, by simp, hx, y, List.mem_append_left _ hy, hshows⟩

theorem Kept.extend (h : Kept previous trace id limit kept) (rest : List (Call G)) :
    Kept previous (trace ++ rest) id limit kept := by
  obtain rfl | ⟨rfl, h⟩ := h
  · exact .inl rfl
  · exact .inr ⟨rfl, h.extend rest⟩

theorem Kept.eq_some {p : PreviousModel G} (h : Kept previous trace id limit (some p)) :
    previous = some p := by
  obtain h | ⟨h, -⟩ := h
  · exact h.symm
  · cases h

/-- The removal of the marker at the end of a failure. -/
theorem Ends.clear {t : List (Call G)}
    (hown : ∀ v, v ≠ ctx.id → ∀ y ∈ t, ¬y.Touches v)
    (hkept : Kept previous before ctx.id ctx.releaseLimits.targetAbsentGb g.previous)
    (hreport : ∀ rest, (∀ y ∈ rest, ¬y.Touches ctx.id) →
      TargetReport ctx.id previous ctx.releaseLimits.targetAbsentGb (before ++ (t ++ rest))
        (.error err) failure)
    (h : Leads ((clearFenceOr failure g.previous).bind fun outcome =>
      .ret (g.report (.error err) outcome)) rest (.ret outcome)) :
    Ends ctx g.victimResults previous before (t ++ rest) outcome := by
  obtain ⟨first, last, cleared, rfl, hclear, hlast⟩ := h.of_bind
  obtain ⟨rfl, hret⟩ := hlast.of_ret
  cases hret
  obtain ⟨⟨answer, rfl⟩, hcleared⟩ := clearFenceOr_leads hclear
  have hquiet : ∀ v, ∀ y ∈ [(⟨.clearFence, answer⟩ : Call G)], ¬Call.Touches v y := by
    intro v y hy
    obtain rfl := List.mem_singleton.mp hy
    exact Call.not_touches_clear
  rw [List.append_nil]
  constructor
  · intro v hne y hy
    obtain hy | hy := List.mem_append.mp hy
    · exact hown v hne y hy
    · exact hquiet v y hy
  · obtain rfl | rfl := hcleared
    · exact ⟨_, _, _, _, rfl, hreport _ (hquiet ctx.id)⟩
    · exact ⟨_, _, _, _, rfl, .unconfirmed err _ (hkept.extend _)⟩

/-- The report of an accepted load: ready, or unconfirmed. -/
def ReadyOrKept (g : Gathered G) (outcome : OpOutcome G) : Prop :=
  outcome = g.report (.ok ()) (.settle .error) ∨
    ∃ err, outcome = g.report (.error err) (.retainUnconfirmedLoad g.previous)

theorem ReadyOrKept.ends (h : ReadyOrKept g outcome)
    (hkept : Kept previous before ctx.id ctx.releaseLimits.targetAbsentGb g.previous)
    (hown : ∀ v, v ≠ ctx.id → ∀ y ∈ trace, ¬y.Touches v) :
    Ends ctx g.victimResults previous before trace outcome := by
  obtain rfl | ⟨err, rfl⟩ := h
  · exact ⟨hown, _, _, _, _, rfl, .ready _⟩
  · exact ⟨hown, _, _, _, _, rfl, .unconfirmed err _ (hkept.extend trace)⟩

theorem pollReady_leads {result : Option (OpOutcome G)}
    (h : Leads (pollReady ctx g) trace (.ret result)) :
    (∀ y ∈ trace, ∀ v, v ≠ ctx.id → ¬y.Touches v) ∧
      ∀ o, result = some o → ReadyOrKept g o := by
  obtain ⟨first, last, ready, rfl, hprobe, hlast⟩ := h.of_bind
  obtain ⟨answer, rfl, rfl⟩ := callProbeReady_leads hprobe
  have hrest : (∀ y ∈ last, ∀ v, v ≠ ctx.id → ¬Call.Touches v y) ∧
      ∀ o, result = some o → ReadyOrKept g o := by
    generalize withAdapterTimeout answer ctx.id = probed at hlast
    obtain err | _ | _ := probed
    · obtain ⟨middle, ending, status, rfl, hrelease, hending⟩ := hlast.of_bind
      obtain ⟨rfl, hret⟩ := hending.of_ret
      cases hret
      rw [List.append_nil]
      refine ⟨fun y hy v hne => (bestEffortRelease_leads hrelease).2.1 v hne y hy, fun o ho => ?_⟩
      cases ho
      exact .inr ⟨err, rfl⟩
    · obtain ⟨rfl, hret⟩ := hlast.of_ret
      cases hret
      exact ⟨fun y hy => absurd hy List.not_mem_nil, fun _ h => nomatch h⟩
    · obtain ⟨cleared, ending, rfl, hending⟩ := hlast.of_ask
      have hquiet : ∀ y ∈ [(⟨.clearFence, cleared⟩ : Call G)], ∀ v, v ≠ ctx.id →
          ¬Call.Touches v y := by
        intro y hy v _
        obtain rfl := List.mem_singleton.mp hy
        exact Call.not_touches_clear
      cases cleared with
      | ok =>
        obtain ⟨rfl, hret⟩ := hending.of_ret
        cases hret
        refine ⟨hquiet, fun o ho => ?_⟩
        cases ho
        exact .inl rfl
      | error err =>
        obtain ⟨rfl, hret⟩ := hending.of_ret
        cases hret
        refine ⟨hquiet, fun o ho => ?_⟩
        cases ho
        exact .inr ⟨err, rfl⟩
  refine ⟨fun y hy v hne => ?_, hrest.2⟩
  obtain rfl | hy := List.mem_cons.mp hy
  · exact Call.not_touches_probe
  · exact hrest.1 y hy v hne

theorem awaitReady_leads (h : Leads (awaitReady ctx g) trace (.ret outcome))
    (hkept : Kept previous before ctx.id ctx.releaseLimits.targetAbsentGb g.previous) :
    Ends ctx g.victimResults previous before trace outcome := by
  obtain ⟨first, last, polled, rfl, hpolled, hlast⟩ := h.of_bind
  obtain ⟨hown, hvalue⟩ := hpolled.of_attempts
    (P := fun y => ∀ v, v ≠ ctx.id → ¬Call.Touches v y) fun hbody => (pollReady_leads hbody).1
  cases polled with
  | some o =>
    obtain ⟨rfl, hret⟩ := hlast.of_ret
    cases hret
    rw [List.append_nil]
    obtain ⟨front, poll, rfl, hpoll⟩ := hvalue outcome rfl
    exact ((pollReady_leads hpoll).2 outcome rfl).ends hkept fun v hne y hy => hown y hy v hne
  | none =>
    obtain ⟨middle, ending, status, rfl, hrelease, hending⟩ := hlast.of_bind
    obtain ⟨rfl, hret⟩ := hending.of_ret
    cases hret
    have hreport : ReadyOrKept g
        (g.report (.error (.probeTimedOut ctx.id)) (.retainUnconfirmedLoad g.previous)) :=
      .inr ⟨_, rfl⟩
    refine hreport.ends hkept fun v hne y hy => ?_
    rw [List.append_nil] at hy
    obtain hy | hy := List.mem_append.mp hy
    · exact hown y hy v hne
    · exact (bestEffortRelease_leads hrelease).2.1 v hne y hy

/-- An answer that is no timeout and leaves nothing unconfirmed is the engine's own word. -/
theorem answer_of_confirmed {id : String} {answer : Timed Unit}
    (h : withAdapterTimeout answer id = .error err) (hconfirmed : err.leavesLoadUnconfirmed = false) :
    answer = some (.error err) := by
  cases answer with
  | none =>
    cases h
    cases hconfirmed
  | some result => exact congrArg some h

/-- What is known when a load call has just answered: the loads before it ran out of memory
and were shown gone. -/
structure Attempted (ctx : LoadFlowContext G) (g : Gathered G)
    (previous : Option (PreviousModel G)) (front : List (Call G)) : Prop where
  kept : Kept previous front ctx.id ctx.releaseLimits.targetAbsentGb g.previous
  earlier : ∀ (before : List (Call G)) (y : Call G) (after : List (Call G)),
    front = before ++ y :: after → y.Loads ctx.id →
      y.RunsOut ctx.id ∧ ∃ z ∈ after, z.Shows [ctx.id] ctx.releaseLimits.targetAbsentGb

theorem releasedOr_report {status : Option (BackendStatus G)} {middle : List (Call G)}
    (hkept : Kept previous before ctx.id ctx.releaseLimits.targetAbsentGb g.previous)
    (hreleased : ∀ shown, status = some shown →
      ReleasedAfter middle ctx.id [ctx.id] ctx.releaseLimits.targetAbsentGb)
    (rest : List (Call G)) (hrest : ∀ y ∈ rest, ¬y.Touches ctx.id) :
    TargetReport ctx.id previous ctx.releaseLimits.targetAbsentGb (before ++ (middle ++ rest))
      (.error err) (releasedOr status g.previous) := by
  cases status with
  | some shown => exact .released err shown (((hreleased shown rfl).extend hrest).prepend before)
  | none =>
    cases hprevious : g.previous with
    | none => exact .unreleased err
    | some p =>
      rw [hprevious] at hkept
      exact .retained err p hkept.eq_some

theorem settleAttempt_leads {answer : Timed Unit} (hattempted : Attempted ctx g previous front)
    (hfirst : ∀ err, withAdapterTimeout answer ctx.id = .error err → err.isOom = true →
      ∃ y ∈ front, y.Loads ctx.id)
    (h : Leads (settleAttempt ctx g (withAdapterTimeout answer ctx.id)) trace (.ret outcome)) :
    Ends ctx g.victimResults previous (front ++ [⟨.load ctx.id ctx.policy, answer⟩]) trace
      outcome := by
  have hkept := hattempted.kept.extend [⟨.load ctx.id ctx.policy, answer⟩]
  cases hattempt : withAdapterTimeout answer ctx.id with
  | ok =>
    rw [hattempt] at h
    exact awaitReady_leads h hkept
  | error err =>
    rw [hattempt] at h
    obtain ⟨first, last, failure, rfl, hresolve, hlast⟩ := h.of_bind
    unfold resolveLoadFailure at hresolve
    split at hresolve
    · rename_i hpost
      obtain ⟨middle, ending, status, rfl, hrelease, hending⟩ := hresolve.of_bind
      obtain ⟨rfl, hret⟩ := hending.of_ret
      cases hret
      rw [List.append_nil]
      obtain ⟨-, hown, hreleased⟩ := bestEffortRelease_leads hrelease
      simp only [BackendError.confirmed_of_isPostconditionFailure hpost, Bool.false_eq_true,
        if_false] at hlast
      exact Ends.clear hown hkept (releasedOr_report hkept hreleased) hlast
    · split at hresolve
      · rename_i hunconfirmed
        obtain ⟨middle, ending, status, rfl, hrelease, hending⟩ := hresolve.of_bind
        obtain ⟨rfl, hret⟩ := hending.of_ret
        cases hret
        simp only [hunconfirmed, if_true] at hlast
        obtain ⟨rfl, hret⟩ := hlast.of_ret
        cases hret
        rw [List.append_nil, List.append_nil]
        exact ⟨(bestEffortRelease_leads hrelease).2.1, _, _, _, _, rfl,
          .unconfirmed err _ (hkept.extend middle)⟩
      · rename_i hpost hconfirmed
        rw [Bool.not_eq_true] at hpost hconfirmed
        obtain ⟨rfl, hret⟩ := hresolve.of_ret
        cases hret
        simp only [hconfirmed, Bool.false_eq_true, if_false] at hlast
        have hanswer := answer_of_confirmed hattempt hconfirmed
        refine Ends.clear (fun _ _ y hy => absurd hy List.not_mem_nil) hkept (fun rest hrest => ?_) hlast
        cases hprevious : g.previous with
        | some p =>
          rw [hprevious] at hkept
          exact .restored err p hkept.eq_some
        | none =>
          rw [hanswer, List.append_assoc]
          cases hoom : err.isOom with
          | true =>
            obtain ⟨y, hy, hloads⟩ := hfirst err hattempt hoom
            exact .retryRunsOut err ⟨front, _, rest, rfl, ⟨ctx.policy, err, hoom, rfl⟩, y, hy, hloads⟩
          | false =>
            rw [hprevious] at hkept
            have hfresh := hkept.extend rest
            rw [hanswer, List.append_assoc] at hfresh
            exact .rejected err hfresh ⟨front, _, rest, rfl,
              ⟨ctx.policy, err, hoom, hconfirmed, hpost, rfl⟩, hrest, hattempted.earlier⟩

theorem Ends.prepend {middle : List (Call G)} {victimResults : List VictimResult}
    (h : Ends ctx victimResults previous (before ++ middle) trace outcome)
    (hown : ∀ v, v ≠ ctx.id → ∀ y ∈ middle, ¬y.Touches v) :
    Ends ctx victimResults previous before (middle ++ trace) outcome where
  own v hne y hy := by
    obtain hy | hy := List.mem_append.mp hy
    · exact hown v hne y hy
    · exact h.own v hne y hy
  report := by
    rw [← List.append_assoc]
    exact h.report

/-- The calls between a load that ran out of memory and the retry name no model. -/
theorem Attempted.retry {x : Call G} {confirm : List (Call G)} {status : BackendStatus G}
    (hfresh : ∀ y ∈ front, ¬y.Loads ctx.id) (hx : x.RunsOut ctx.id)
    (hquiet : ∀ y ∈ confirm, ¬y.Touches ctx.id)
    (hshown : ∃ z ∈ confirm, z.Shows [ctx.id] ctx.releaseLimits.targetAbsentGb) :
    Attempted ctx { g with
      aggregateStatus := some status
      aggregateTargetCreditGb := Gigabytes.zero
      previous := none } previous (front ++ x :: confirm) where
  kept := .inr ⟨rfl, front, x, confirm, rfl, hx, hshown⟩
  earlier before y after heq hloads := by
    obtain ⟨rest, rfl, hrest⟩ | ⟨rest, rfl, hrest⟩ := List.append_eq_append_iff.mp heq
    · cases rest with
      | nil =>
        rw [List.nil_append] at hrest
        obtain ⟨rfl, rfl⟩ := List.cons.inj hrest
        exact ⟨hx, hshown⟩
      | cons other rest =>
        obtain ⟨rfl, hconfirm⟩ := List.cons.inj hrest
        have hy : y ∈ confirm := by
          rw [hconfirm]
          exact List.mem_append_right _ List.mem_cons_self
        exact absurd hloads (Call.not_loads (hquiet y hy))
    · cases rest with
      | nil =>
        rw [List.nil_append] at hrest
        obtain ⟨rfl, rfl⟩ := List.cons.inj hrest
        exact ⟨hx, hshown⟩
      | cons other rest =>
        obtain ⟨rfl, -⟩ := List.cons.inj hrest
        exact absurd hloads (hfresh y (List.mem_append_right _ List.mem_cons_self))

theorem recoverFromOom_leads {x : Call G} (hfresh : ∀ y ∈ front, ¬y.Loads ctx.id)
    (hx : x.RunsOut ctx.id) (hprevious : g.previous = previous)
    (h : Leads (recoverFromOom ctx g err) trace (.ret outcome)) :
    Ends ctx g.victimResults previous (front ++ [x]) trace outcome := by
  obtain ⟨first, last, confirmed, rfl, hconfirm, hlast⟩ := h.of_bind
  have hquiet : ∀ v, ∀ y ∈ first, ¬Call.Touches v y := fun v => (confirmMemoryReleased_leads hconfirm).1
  have hreleased : ∀ status, confirmed = .ok status →
      ReleasedAfter first ctx.id [ctx.id] ctx.releaseLimits.targetAbsentGb :=
    (confirmMemoryReleased_leads hconfirm).2
  have hkept : Kept previous (front ++ [x] ++ first) ctx.id ctx.releaseLimits.targetAbsentGb
      g.previous := .inl hprevious
  cases confirmed with
  | error confirmErr =>
    obtain ⟨middle, ending, status, rfl, hrelease, hending⟩ := hlast.of_bind
    obtain ⟨-, hown, hstatus⟩ := bestEffortRelease_leads hrelease
    exact (Ends.clear hown hkept (releasedOr_report hkept hstatus) hending).prepend
      fun v _ => hquiet v
  | ok status =>
    dsimp only at hlast
    split at hlast
    · exact Ends.clear (fun v _ => hquiet v) (.inl hprevious) (fun rest hrest =>
        .released err status (((hreleased status rfl).extend hrest).prepend (front ++ [x]))) hlast
    · obtain ⟨middle, ending, attempt, rfl, hload, hending⟩ := hlast.of_bind
      obtain ⟨answer, rfl, rfl⟩ := callLoad_leads hload
      have hattempted : Attempted ctx { g with
          aggregateStatus := some status
          aggregateTargetCreditGb := Gigabytes.zero
          previous := none } previous (front ++ x :: first) :=
        .retry hfresh hx (hquiet ctx.id) (hreleased status rfl).shown
      have hends := settleAttempt_leads hattempted (fun err _ _ => ⟨x, by simp, hx.loads⟩) hending
      have hown : ∀ v, v ≠ ctx.id → ∀ y ∈ first ++ [(⟨.load ctx.id ctx.policy, answer⟩ : Call G)],
          ¬Call.Touches v y := by
        intro v hne y hy
        obtain hy | hy := List.mem_append.mp hy
        · exact hquiet v y hy
        · obtain rfl := List.mem_singleton.mp hy
          exact fun htouches => hne (Call.touches_load htouches)
      rw [← List.append_assoc]
      apply Ends.prepend _ hown
      simpa using hends

theorem attemptLoad_leads (hfresh : ∀ y ∈ front, ¬y.Loads ctx.id)
    (hprevious : g.previous = previous) (h : Leads (attemptLoad ctx g) trace (.ret outcome)) :
    Ends ctx g.victimResults previous front trace outcome := by
  obtain ⟨first, last, attempt, rfl, hload, hlast⟩ := h.of_bind
  obtain ⟨answer, rfl, rfl⟩ := callLoad_leads hload
  have hattempted : Attempted ctx g previous front := {
    kept := .inl hprevious
    earlier := fun before y after heq hloads => by
      subst heq
      exact absurd hloads (hfresh y (List.mem_append_right _ List.mem_cons_self)) }
  have hown : ∀ v, v ≠ ctx.id → ∀ y ∈ [(⟨.load ctx.id ctx.policy, answer⟩ : Call G)],
      ¬Call.Touches v y := by
    intro v hne y hy
    obtain rfl := List.mem_singleton.mp hy
    exact fun htouches => hne (Call.touches_load htouches)
  apply Ends.prepend _ hown
  cases hattempt : withAdapterTimeout answer ctx.id with
  | ok =>
    rw [hattempt] at hlast
    apply settleAttempt_leads hattempted
    · intro err herr
      rw [hattempt] at herr
      cases herr
    · rw [hattempt]
      exact hlast
  | error err =>
    rw [hattempt] at hlast
    dsimp only at hlast
    split at hlast
    · rename_i hoom
      have hanswer := answer_of_confirmed hattempt (BackendError.confirmed_of_isOom hoom)
      exact recoverFromOom_leads hfresh ⟨ctx.policy, err, hoom, by rw [hanswer]⟩ hprevious hlast
    · rename_i hoom
      apply settleAttempt_leads hattempted
      · intro err' herr hoom'
        rw [hattempt] at herr
        cases herr
        exact absurd hoom' hoom
      · rw [hattempt]
        exact hlast

/-- The check of an inherited model only looks. -/
theorem verifyInherited_leads {verified : Bool}
    (h : Leads (verifyInherited ctx) trace (.ret verified)) :
    ∀ v, ∀ y ∈ trace, ¬y.Touches v := by
  obtain ⟨first, last, sampled, rfl, hstatus, hlast⟩ := h.of_bind
  obtain ⟨answer, rfl, rfl⟩ := callStatus_leads hstatus
  have hrest : ∀ v, ∀ y ∈ last, ¬Call.Touches v y := by
    generalize withAdapterTimeout answer "startup/inherited-status" = sampled at hlast
    cases sampled with
    | error err =>
      obtain ⟨rfl, -⟩ := hlast.of_ret
      exact fun _ y hy => absurd hy List.not_mem_nil
    | ok status =>
      dsimp only at hlast
      split at hlast
      · obtain ⟨middle, ending, ready, rfl, hprobe, hending⟩ := hlast.of_bind
        obtain ⟨probed, rfl, rfl⟩ := callProbeReady_leads hprobe
        have hnil : ending = [] := by
          cases hready : withAdapterTimeout probed ctx.id with
          | error err =>
            rw [hready] at hending
            exact hending.of_ret.1
          | ok ready =>
            rw [hready] at hending
            exact hending.of_ret.1
        subst hnil
        intro v y hy
        rw [List.append_nil] at hy
        obtain rfl := List.mem_singleton.mp hy
        exact Call.not_touches_probe
      · obtain ⟨rfl, -⟩ := hlast.of_ret
        exact fun _ y hy => absurd hy List.not_mem_nil
  intro v y hy
  obtain rfl | hy := List.mem_cons.mp hy
  · exact Call.not_touches_status
  · exact hrest v y hy

theorem restoreOrStop_report (hprevious : g.previous = previous)
    (huntouched : ∀ y ∈ trace, ¬y.Loads ctx.id) :
    TargetReport ctx.id previous ctx.releaseLimits.targetAbsentGb trace (.error err)
      (restoreOrStop g.previous) := by
  cases hg : g.previous with
  | none => exact .untouched err (hprevious.symm.trans hg) huntouched
  | some p => exact .restored err p (hprevious.symm.trans hg)

theorem loadTarget_leads (hfresh : ∀ y ∈ front, ¬y.Loads ctx.id) (hprevious : g.previous = previous)
    (h : Leads (loadTarget ctx g) trace (.ret outcome)) :
    Ends ctx g.victimResults previous front trace outcome := by
  unfold loadTarget at h
  split at h
  · obtain ⟨first, last, verified, rfl, hverify, hlast⟩ := h.of_bind
    have hquiet := verifyInherited_leads hverify
    have hfresh' : ∀ y ∈ front ++ first, ¬Call.Loads ctx.id y := by
      intro y hy
      obtain hy | hy := List.mem_append.mp hy
      · exact hfresh y hy
      · exact Call.not_loads (hquiet ctx.id y hy)
    cases verified with
    | true => exact (attemptLoad_leads hfresh' hprevious hlast).prepend fun v _ => hquiet v
    | false =>
      exact Ends.clear (fun v _ => hquiet v) (.inl hprevious) (fun rest hrest =>
        restoreOrStop_report hprevious fun y hy => by
          rw [← List.append_assoc] at hy
          obtain hy | hy := List.mem_append.mp hy
          · exact hfresh' y hy
          · exact Call.not_loads (hrest y hy)) hlast
  · exact attemptLoad_leads hfresh hprevious h

/-- A load whose victims could not be unloaded never calls its target. -/
theorem failEviction_leads (hfresh : ∀ y ∈ front, ¬y.Loads ctx.id)
    (hprevious : g.previous = previous) (h : Leads (failEviction ctx g) trace (.ret outcome)) :
    Ends ctx g.victimResults previous front trace outcome := by
  obtain ⟨first, last, failure, rfl, hresolve, hlast⟩ := h.of_bind
  have hret : Leads (.ret (restoreOrStop g.previous) : Flow G (LoadFailureOutcome G)) first
      (.ret failure) := hresolve
  obtain ⟨rfl, hfailure⟩ := hret.of_ret
  cases hfailure
  exact Ends.clear (fun _ _ y hy => absurd hy List.not_mem_nil) (.inl hprevious)
    (fun rest hrest => restoreOrStop_report hprevious fun y hy => by
      obtain hy | hy := List.mem_append.mp hy
      · exact hfresh y hy
      · exact Call.not_loads (hrest y hy)) hlast

end Target

section Reports

variable [Gigabytes G] {ctx : LoadFlowContext G} {previous : Option (PreviousModel G)}
  {evict : List String} {trace : List (Call G)} {outcome : OpOutcome G}
  {config : SupervisorConfig G} {id : String} {limit : G}

/-- What a load reports: free victims, and the state of its target, each with its evidence. -/
inductive LoadReport (ctx : LoadFlowContext G) (evict : List String)
    (previous : Option (PreviousModel G)) (trace : List (Call G)) : OpOutcome G → Prop where
  | mk (result : Except BackendError Unit) (victimResults : List VictimResult)
      (status : Option (BackendStatus G)) (credit : G) (failure : LoadFailureOutcome G)
      (htarget : TargetReport ctx.id previous ctx.releaseLimits.targetAbsentGb trace result failure)
      (hvictims : ∀ v, (v, .ok ()) ∈ victimResults →
        ReleasedAfter trace v evict ctx.releaseLimits.afterEvictionGb) :
      LoadReport ctx evict previous trace (.load result victimResults status credit failure)

theorem Ends.loadReport {victimResults : List VictimResult} {before : List (Call G)}
    (h : Ends ctx victimResults previous before trace outcome)
    (hvictims : ∀ v, (v, .ok ()) ∈ victimResults →
      ReleasedAfter (before ++ trace) v evict ctx.releaseLimits.afterEvictionGb) :
    LoadReport ctx evict previous (before ++ trace) outcome := by
  obtain ⟨result, status, credit, failure, rfl, htarget⟩ := h.report
  exact .mk result victimResults status credit failure htarget hvictims

theorem runLoadFlow_leads (hevict : ctx.id ∉ evict)
    (h : Leads (runLoadFlow ctx evict previous) trace (.ret outcome)) :
    LoadReport ctx evict previous trace outcome := by
  obtain ⟨first, last, results, rfl, hunload, hlast⟩ := h.of_bind
  obtain ⟨hresults, hquiet⟩ := unloadVictims_leads hunload
  dsimp only at hlast
  split at hlast
  · rename_i hempty
    rw [List.isEmpty_iff] at hempty
    rw [hempty, List.map_eq_nil_iff] at hresults
    subst hresults
    exact (loadTarget_leads (hquiet ctx.id) rfl hlast).loadReport
      fun v hv => absurd hv List.not_mem_nil
  · obtain ⟨middle, ending, confirmed, rfl, hconfirm, hending⟩ := hlast.of_bind
    have hcalm : ∀ v, ∀ y ∈ middle, ¬Call.Touches v y :=
      fun v => (confirmMemoryReleased_leads hconfirm).1
    have hfresh : ∀ y ∈ first ++ middle, ¬Call.Loads ctx.id y := by
      intro y hy
      obtain hy | hy := List.mem_append.mp hy
      · exact hquiet ctx.id y hy
      · exact Call.not_loads (hcalm ctx.id y hy)
    rw [← List.append_assoc]
    cases confirmed with
    | error err =>
      apply (failEviction_leads hfresh rfl hending).loadReport
      intro v hv
      obtain ⟨r, -, hr⟩ := List.mem_map.mp hv
      cases hr
    | ok status =>
      have hends : Ends ctx results previous (first ++ middle) ending outcome := by
        dsimp only at hending
        split at hending
        · exact failEviction_leads hfresh rfl hending
        · exact loadTarget_leads hfresh rfl hending
      apply hends.loadReport
      intro v hv
      have hmem : v ∈ evict := by
        rw [← hresults]
        exact List.mem_map_of_mem hv
      have hne : v ≠ ctx.id := by
        rintro rfl
        exact hevict hmem
      exact (((confirmMemoryReleased_leads hconfirm).2 status rfl).prepend first).extend
        (hends.own v hne)

/-- An unload that succeeds was shown gone after its call. -/
theorem runUnloadFlow_leads (h : Leads (runUnloadFlow config id limit) trace (.ret outcome)) :
    ∃ result status, outcome = .unload result status ∧
      (result = .ok () → ReleasedAfter trace id [id] limit) := by
  obtain ⟨first, last, unloaded, rfl, hunload, hlast⟩ := h.of_bind
  obtain ⟨answer, rfl, rfl⟩ := callUnload_leads hunload
  cases hdone : withAdapterTimeout answer id with
  | error err =>
    rw [hdone] at hlast
    obtain ⟨rfl, hret⟩ := hlast.of_ret
    cases hret
    exact ⟨_, _, rfl, nofun⟩
  | ok =>
    rw [hdone] at hlast
    obtain ⟨middle, ending, confirmed, rfl, hconfirm, hending⟩ := hlast.of_bind
    cases confirmed with
    | error err =>
      obtain ⟨rfl, hret⟩ := hending.of_ret
      cases hret
      exact ⟨_, _, rfl, nofun⟩
    | ok status =>
      obtain ⟨rfl, hret⟩ := hending.of_ret
      cases hret
      rw [List.append_nil]
      exact ⟨_, _, rfl, fun _ =>
        ((confirmMemoryReleased_leads hconfirm).2 status rfl).prepend [⟨.unload id, answer⟩]⟩

end Reports

end Supervisor
