import IDoris.Supervisor.Actor

/-!
# What a spawned operation may ask

One monitor for both flows: which models may be unloaded or loaded, and when the
fence allows a load and its own removal.
-/
namespace Supervisor

open Interaction Program

variable {G : Type}

/-- Where an operation stands with the fence: its marker is set and no load of it runs, a load
of it may run, or it asks for no load any more. -/
inductive FencePhase where
  | begun
  | loading
  | closed
  deriving DecidableEq

def flowAllowed (id : String) (evict : List String) : FencePhase → Effect → Prop
  | _, .unload target => target = id ∨ target ∈ evict
  | phase, .load target _ => target = id ∧ phase = .begun
  | _, .status => True
  | _, .probeReady target => target = id
  | phase, .clearFence => phase = .begun

/-- Only a rejection or a later Ready probe ends a load. -/
def flowNext (phase : FencePhase) : (op : Effect) → op.Answer G → FencePhase
  | .load _ _, some (.error err) => if err.leavesLoadUnconfirmed then .loading else .begun
  | .load _ _, _ => .loading
  | .probeReady _, some (.ok true) => if phase = .loading then .begun else phase
  | .clearFence, _ => .closed
  | _, _ => phase

def flowMonitor (G : Type) (id : String) (evict : List String) :
    Monitor Effect (Effect.Answer G) FencePhase where
  allowed := flowAllowed id evict
  next := flowNext

/-- The failure leaves the slot in a state no operation is working on. -/
def LoadFailureOutcome.settles : LoadFailureOutcome G → Bool
  | .settle state => state.settled
  | .restorePrevious previous => previous.state.settled
  | .settleReleased _ => true
  | .retainPreviousOnError _ => true
  | .retainUnconfirmedLoad _ => true

/-- A load reports on exactly its victims, an unload on none. -/
def OpOutcome.Fits (evict : List String) : OpOutcome G → Prop
  | .load _ victimResults _ _ failure =>
    victimResults.map Prod.fst = evict ∧ failure.settles = true
  | .unload _ _ => evict = []

def previousSettled (previous : Option (PreviousModel G)) : Prop :=
  ∀ p, previous = some p → p.state.settled = true

def Gathered.Fits (evict : List String) (g : Gathered G) : Prop :=
  g.victimResults.map Prod.fst = evict ∧ previousSettled g.previous

variable {id : String} {evict : List String} {s : FencePhase}
  {previous : Option (PreviousModel G)} {config : SupervisorConfig G} {ctx : LoadFlowContext G}
  {g : Gathered G} {limit : G}

section Safety

theorem safe_callUnload {target : String} (h : target = id ∨ target ∈ evict) :
    Safe (flowMonitor G id evict) (fun _ t => t = s) (callUnload target) s :=
  ⟨h, fun _ => rfl⟩

theorem safe_callStatus (label : String) :
    Safe (flowMonitor G id evict) (fun _ t => t = s) (callStatus label) s :=
  ⟨trivial, fun _ => rfl⟩

theorem safe_clearFenceOr {outcome : LoadFailureOutcome G} (h : outcome.settles = true) :
    Safe (flowMonitor G id evict) (fun o _ => o.settles = true)
      (clearFenceOr outcome previous) .begun := by
  refine ⟨rfl, ?_⟩
  rintro (err | _)
  · rfl
  · exact h

/-- How the phase after an attempt fits its answer. -/
def attemptPhase (attempt : Except BackendError Unit) (s : FencePhase) : Prop :=
  match attempt with
  | .ok () => s = .loading
  | .error err => err.leavesLoadUnconfirmed = false → s = .begun

theorem safe_callLoad {policy : LoadPolicy} :
    Safe (flowMonitor G id evict) attemptPhase (callLoad id policy) .begun := by
  refine ⟨⟨rfl, rfl⟩, ?_⟩
  rintro (_ | err | _)
  · intro h
    cases h
  · intro h
    simp only [flowMonitor, flowNext, h]
    rfl
  · rfl

theorem settles_restoreOrStop (h : previousSettled previous) :
    (restoreOrStop previous).settles = true := by
  cases previous with
  | none => rfl
  | some p => exact h p rfl

/-- The removal of the marker, then the report. -/
theorem safe_clear_report {outcome : LoadFailureOutcome G} (hg : g.Fits evict)
    (h : outcome.settles = true) (result : Except BackendError Unit) :
    Safe (flowMonitor G id evict) (fun o _ => o.Fits evict)
      ((clearFenceOr outcome g.previous).bind fun outcome => .ret (g.report result outcome))
      .begun :=
  (safe_clearFenceOr h).bind fun _ _ ho => ⟨hg.1, ho⟩

theorem safe_unloadVictims :
    Safe (flowMonitor G id evict) (fun results t => results.map Prod.fst = evict ∧ t = s)
      (unloadVictims evict) s := by
  have hall : Safe (flowMonitor G id evict)
      (fun results t => List.Forall₂ (fun v r => r.1 = v) evict results ∧ t = s)
      (unloadVictims evict) s := by
    apply Safe.each (I := fun t => t = s)
    · rintro v hv t rfl
      apply (safe_callUnload (Or.inr hv)).bind
      rintro result t rfl
      exact ⟨rfl, rfl⟩
    · rfl
  apply hall.mono
  rintro results t ⟨h, ht⟩
  exact ⟨map_fst_of_forall₂ h, ht⟩

theorem settles_releasedOr (status : Option (BackendStatus G)) :
    (releasedOr status previous).settles = true := by
  cases status <;> cases previous <;> rfl

variable [Gigabytes G]

theorem safe_confirmMemoryReleased (targets : List String) :
    Safe (flowMonitor G id evict) (fun _ t => t = s)
      (confirmMemoryReleased config targets limit) s := by
  have hpoll : ∀ t, t = s → Safe (flowMonitor G id evict)
      (fun r u => (r = none → u = s) ∧ (r ≠ none → u = s)) (pollRelease targets limit) t := by
    rintro t rfl
    apply (safe_callStatus "status").bind
    rintro (err | status) u rfl
    · exact ⟨fun _ => rfl, fun _ => rfl⟩
    · exact ⟨fun _ => rfl, fun _ => rfl⟩
  have hloop : Safe (flowMonitor G id evict) (fun _ t => t = s)
      (attempts config.releaseConfirmMaxAttempts (pollRelease targets limit)) s :=
    Safe.attempts _ hpoll (fun _ h => h) rfl
  apply hloop.bind
  rintro (none | status) u rfl
  · rfl
  · rfl

theorem safe_bestEffortRelease :
    Safe (flowMonitor G id evict) (fun _ t => t = s) (bestEffortRelease config id limit) s := by
  apply (safe_callUnload (Or.inl rfl)).bind
  rintro (err | _) u rfl
  · rfl
  · apply (safe_confirmMemoryReleased [id]).bind
    rintro (err | status) u rfl
    · rfl
    · rfl

theorem safe_resolveLoadFailure {err : BackendError} (h : previousSettled previous) :
    Safe (flowMonitor G id evict) (fun o t => o.settles = true ∧ t = s)
      (resolveLoadFailure config id err previous limit) s := by
  unfold resolveLoadFailure
  split
  · exact safe_bestEffortRelease.bind fun status t ht => ⟨settles_releasedOr status, ht⟩
  · split
    · exact safe_bestEffortRelease.bind fun _ t ht => ⟨rfl, ht⟩
    · exact ⟨settles_restoreOrStop h, rfl⟩

theorem safe_pollReady (hg : g.Fits evict) :
    Safe (flowMonitor G ctx.id evict)
      (fun r t => (r = none → t = .loading) ∧ (r ≠ none → ∀ o, r = some o → o.Fits evict))
      (pollReady ctx g) .loading := by
  refine ⟨rfl, ?_⟩
  have hdone : ∀ {o : OpOutcome G} {t : FencePhase}, o.Fits evict →
      (some o = none → t = FencePhase.loading) ∧
        (some o ≠ none → ∀ o', some o = some o' → o'.Fits evict) := by
    intro o t ho
    constructor
    · intro h
      cases h
    · rintro _ o' ⟨⟩
      exact ho
  rintro (_ | _ | _ | _)
  · exact safe_bestEffortRelease.bind fun _ _ _ => hdone ⟨hg.1, rfl⟩
  · exact safe_bestEffortRelease.bind fun _ _ _ => hdone ⟨hg.1, rfl⟩
  · exact ⟨fun _ => rfl, fun h => absurd rfl h⟩
  · refine ⟨rfl, ?_⟩
    rintro (err | _)
    · exact hdone ⟨hg.1, rfl⟩
    · exact hdone ⟨hg.1, rfl⟩

theorem safe_awaitReady (hg : g.Fits evict) :
    Safe (flowMonitor G ctx.id evict) (fun o _ => o.Fits evict) (awaitReady ctx g) .loading := by
  have hloop : Safe (flowMonitor G ctx.id evict) (fun r _ => ∀ o, r = some o → o.Fits evict)
      (attempts ctx.config.probeMaxAttempts (pollReady ctx g)) .loading := by
    apply Safe.attempts (I := fun t => t = .loading)
    · rintro t rfl
      exact safe_pollReady hg
    · intro t _ o ho
      cases ho
    · rfl
  apply hloop.bind
  rintro (_ | o) t h
  · exact safe_bestEffortRelease.bind fun _ _ _ => ⟨hg.1, rfl⟩
  · exact h o rfl

theorem safe_settleAttempt {attempt : Except BackendError Unit} (hg : g.Fits evict)
    (h : attemptPhase attempt s) :
    Safe (flowMonitor G ctx.id evict) (fun o _ => o.Fits evict) (settleAttempt ctx g attempt) s := by
  rcases attempt with err | _
  · apply (safe_resolveLoadFailure hg.2).bind
    rintro outcome t ⟨ho, rfl⟩
    cases hu : err.leavesLoadUnconfirmed with
    | true => exact ⟨hg.1, ho⟩
    | false =>
      obtain rfl := h hu
      exact safe_clear_report hg ho _
  · obtain rfl : s = .loading := h
    exact safe_awaitReady hg

theorem safe_recoverFromOom {err : BackendError} (hg : g.Fits evict) :
    Safe (flowMonitor G ctx.id evict) (fun o _ => o.Fits evict) (recoverFromOom ctx g err)
      .begun := by
  apply (safe_confirmMemoryReleased [ctx.id]).bind
  rintro (_ | status) t rfl
  · apply safe_bestEffortRelease.bind
    rintro status t rfl
    exact safe_clear_report hg (settles_releasedOr status) _
  · by_cases hi : ctx.inherited = true
    · simp only [hi, if_true]
      exact safe_clear_report hg rfl _
    · simp only [hi]
      apply safe_callLoad.bind
      intro attempt t ht
      exact safe_settleAttempt ⟨hg.1, fun p hp => by cases hp⟩ ht

theorem safe_attemptLoad (hg : g.Fits evict) :
    Safe (flowMonitor G ctx.id evict) (fun o _ => o.Fits evict) (attemptLoad ctx g) .begun := by
  apply safe_callLoad.bind
  rintro (err | _) t ht
  · by_cases ho : err.isOom = true
    · obtain rfl := ht (BackendError.confirmed_of_isOom ho)
      simp only [ho, if_true]
      exact safe_recoverFromOom hg
    · simp only [ho]
      exact safe_settleAttempt hg ht
  · exact safe_settleAttempt hg ht

theorem safe_verifyInherited :
    Safe (flowMonitor G ctx.id evict) (fun _ t => t = .begun) (verifyInherited ctx) .begun := by
  apply (safe_callStatus "startup/inherited-status").bind
  rintro (err | status) t rfl
  · rfl
  · dsimp only
    split
    · refine ⟨rfl, ?_⟩
      rintro (_ | _ | _ | _) <;> rfl
    · rfl

theorem safe_loadTarget (hg : g.Fits evict) :
    Safe (flowMonitor G ctx.id evict) (fun o _ => o.Fits evict) (loadTarget ctx g) .begun := by
  unfold loadTarget
  split
  · apply safe_verifyInherited.bind
    rintro verified t rfl
    cases verified with
    | true => exact safe_attemptLoad hg
    | false => exact safe_clear_report hg (settles_restoreOrStop hg.2) _
  · exact safe_attemptLoad hg

theorem safe_failEviction (hg : g.Fits evict) :
    Safe (flowMonitor G ctx.id evict) (fun o _ => o.Fits evict) (failEviction ctx g) .begun := by
  apply (safe_resolveLoadFailure hg.2).bind
  rintro outcome t ⟨ho, rfl⟩
  exact safe_clear_report hg ho _

/-- A load asks only what its fence allows, and reports on exactly its victims. -/
theorem runLoadFlow_safe (ctx : LoadFlowContext G) (h : previousSettled previous) :
    Safe (flowMonitor G ctx.id evict) (fun o _ => o.Fits evict) (runLoadFlow ctx evict previous)
      .begun := by
  apply safe_unloadVictims.bind
  rintro results t ⟨hresults, rfl⟩
  dsimp only
  split
  · exact safe_loadTarget ⟨hresults, h⟩
  · apply (safe_confirmMemoryReleased evict).bind
    rintro (err | status) t rfl
    · have hfailed : (failVictims ctx.id results).map Prod.fst = evict := by
        simpa [failVictims, Function.comp_def] using hresults
      exact safe_failEviction ⟨hfailed, h⟩
    · dsimp only
      split
      · exact safe_failEviction ⟨hresults, h⟩
      · exact safe_loadTarget ⟨hresults, h⟩

/-- An unload touches one model and never the fence. -/
theorem runUnloadFlow_safe :
    Safe (flowMonitor G id []) (fun o _ => o.Fits []) (runUnloadFlow config id limit) .closed := by
  apply (safe_callUnload (Or.inl rfl)).bind
  rintro (err | _) t rfl
  · rfl
  · apply (safe_confirmMemoryReleased [id]).bind
    rintro (err | status) t rfl
    · rfl
    · rfl

theorem loadPanic_fits {message : String} : (loadPanic id evict previous message).Fits evict := by
  constructor
  · simp [Function.comp_def]
  · rfl

end Safety

end Supervisor
