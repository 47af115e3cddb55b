import IDoris.Library.Interaction
import IDoris.Supervisor.Capacity
import IDoris.Supervisor.Eviction

/-!
# The adapter side of a load and of an unload

What a spawned operation asks of the runtime adapter and of the durable load
fence, one question at a time, and what it reports at the end.
-/
namespace Supervisor

open Interaction Program

/-- One adapter call, or the removal of the fence marker. -/
inductive Effect where
  | unload (id : String)
  | load (id : String) (policy : LoadPolicy)
  | status
  | probeReady (id : String)
  | clearFence
  deriving DecidableEq

/-- An adapter call answers before its deadline, or the deadline passes. -/
abbrev Timed (α : Type) := Option (Except BackendError α)

abbrev Effect.Answer (G : Type) : Effect → Type
  | .unload _ => Timed Unit
  | .load _ _ => Timed Unit
  | .status => Timed (BackendStatus G)
  | .probeReady _ => Timed Bool
  | .clearFence => Except BackendError Unit

abbrev Flow (G α : Type) := Program Effect (Effect.Answer G) α

/-- Tunables of the supervisor; the intervals and deadlines have no counterpart here. -/
structure SupervisorConfig (G : Type) where
  budgetGb : G
  probeMaxAttempts : Nat
  releaseConfirmMaxAttempts : Nat

structure PreviousModel (G : Type) where
  state : ModelState
  policy : LoadPolicy
  memoryGb : G
  charge : CapacityCharge
  inherited : Bool

inductive LoadFailureOutcome (G : Type) where
  | settle (state : ModelState)
  | settleReleased (status : BackendStatus G)
  | restorePrevious (previous : PreviousModel G)
  | retainPreviousOnError (previous : PreviousModel G)
  | retainUnconfirmedLoad (previous : Option (PreviousModel G))

abbrev VictimResult := String × Except BackendError Unit

/-- What a background operation reports to the actor. -/
inductive OpOutcome (G : Type) where
  | load (result : Except BackendError Unit) (victimResults : List VictimResult)
      (aggregateStatus : Option (BackendStatus G)) (aggregateTargetCreditGb : G)
      (failureOutcome : LoadFailureOutcome G)
  | unload (result : Except BackendError Unit) (status : Option (BackendStatus G))

structure ReleaseLimits (G : Type) where
  targetAbsentGb : G
  afterEvictionGb : G

/-- The arguments `run_load_flow` never changes. -/
structure LoadFlowContext (G : Type) where
  config : SupervisorConfig G
  releaseLimits : ReleaseLimits G
  inherited : Bool
  id : String
  policy : LoadPolicy

/-- What `run_load_flow` has gathered for its report so far. -/
structure Gathered (G : Type) where
  victimResults : List VictimResult
  aggregateStatus : Option (BackendStatus G)
  aggregateTargetCreditGb : G
  previous : Option (PreviousModel G)

variable {G : Type} [Gigabytes G]

def Gathered.report (g : Gathered G) (result : Except BackendError Unit)
    (failureOutcome : LoadFailureOutcome G) : OpOutcome G :=
  .load result g.victimResults g.aggregateStatus g.aggregateTargetCreditGb failureOutcome

def withAdapterTimeout {α : Type} (answer : Timed α) (modelId : String) : Except BackendError α :=
  answer.getD (.error (.adapterTimedOut modelId))

def callUnload (id : String) : Flow G (Except BackendError Unit) :=
  .ask (.unload id) fun answer => .ret (withAdapterTimeout answer id)

def callLoad (id : String) (policy : LoadPolicy) : Flow G (Except BackendError Unit) :=
  .ask (.load id policy) fun answer => .ret (withAdapterTimeout answer id)

def callStatus (label : String) : Flow G (Except BackendError (BackendStatus G)) :=
  .ask .status fun answer => .ret (withAdapterTimeout answer label)

def callProbeReady (id : String) : Flow G (Except BackendError Bool) :=
  .ask (.probeReady id) fun answer => .ret (withAdapterTimeout answer id)

/-- A status that shows every target gone and the rest within the limit. -/
def releaseShown (targets : List String) (maxUsedGb : G) (status : BackendStatus G) : Bool :=
  Gigabytes.isFinite status.usedGb && Gigabytes.le (Gigabytes.zero : G) status.usedGb &&
    (Gigabytes.lt (Gigabytes.zero : G) status.usedGb || status.loaded.isEmpty) &&
    Gigabytes.le status.usedGb (Gigabytes.add maxUsedGb Gigabytes.epsilon) &&
    targets.all fun id => !status.loaded.contains id

def pollRelease (targets : List String) (maxUsedGb : G) : Flow G (Option (BackendStatus G)) :=
  (callStatus "status").bind fun
    | .ok status => .ret (if releaseShown targets maxUsedGb status then some status else none)
    | .error _ => .ret none

def confirmMemoryReleased (config : SupervisorConfig G) (targets : List String) (maxUsedGb : G) :
    Flow G (Except BackendError (BackendStatus G)) :=
  (attempts config.releaseConfirmMaxAttempts (pollRelease targets maxUsedGb)).bind fun
    | some status => .ret (.ok status)
    | none => .ret (.error (.internal "memory release could not be confirmed"))

def bestEffortRelease (config : SupervisorConfig G) (id : String) (maxUsedGb : G) :
    Flow G (Option (BackendStatus G)) :=
  (callUnload id).bind fun
    | .ok () => (confirmMemoryReleased config [id] maxUsedGb).bind fun
      | .ok status => .ret (some status)
      | .error _ => .ret none
    | .error _ => .ret none

def afterRelease (state : ModelState) (previous : Option (PreviousModel G)) :
    LoadFailureOutcome G :=
  match previous with
  | some previous =>
    if state.occupiesBudget then .retainPreviousOnError previous else .settle state
  | none => .settle state

/-- The outcome of a release that was shown, or could not be. -/
def releasedOr (status : Option (BackendStatus G)) (previous : Option (PreviousModel G)) :
    LoadFailureOutcome G :=
  match status with
  | some status => .settleReleased status
  | none => afterRelease .error previous

def restoreOrStop (previous : Option (PreviousModel G)) : LoadFailureOutcome G :=
  match previous with
  | some previous => .restorePrevious previous
  | none => .settle .stopped

def resolveLoadFailure (config : SupervisorConfig G) (id : String) (err : BackendError)
    (previous : Option (PreviousModel G)) (releaseLimitGb : G) : Flow G (LoadFailureOutcome G) :=
  if err.isPostconditionFailure then
    (bestEffortRelease config id releaseLimitGb).bind fun status =>
      .ret (releasedOr status previous)
  else if err.leavesLoadUnconfirmed then
    (bestEffortRelease config id releaseLimitGb).bind fun _ =>
      .ret (.retainUnconfirmedLoad previous)
  else .ret (restoreOrStop previous)

/-- Keep the outcome only when the marker could be removed. -/
def clearFenceOr (outcome : LoadFailureOutcome G) (previous : Option (PreviousModel G)) :
    Flow G (LoadFailureOutcome G) :=
  .ask .clearFence fun
    | .ok () => .ret outcome
    | .error _ => .ret (.retainUnconfirmedLoad previous)

/-- One readiness probe, and the report if it decides the load. -/
def pollReady (ctx : LoadFlowContext G) (g : Gathered G) : Flow G (Option (OpOutcome G)) :=
  (callProbeReady ctx.id).bind fun
    | .ok true => .ask .clearFence fun
      | .ok () => .ret (some (g.report (.ok ()) (.settle .error)))
      | .error err => .ret (some (g.report (.error err) (.retainUnconfirmedLoad g.previous)))
    | .ok false => .ret none
    | .error err =>
      (bestEffortRelease ctx.config ctx.id ctx.releaseLimits.targetAbsentGb).bind fun _ =>
        .ret (some (g.report (.error err) (.retainUnconfirmedLoad g.previous)))

/-- The accepted load becomes ready, or keeps its fence. -/
def awaitReady (ctx : LoadFlowContext G) (g : Gathered G) : Flow G (OpOutcome G) :=
  (attempts ctx.config.probeMaxAttempts (pollReady ctx g)).bind fun
    | some outcome => .ret outcome
    | none =>
      (bestEffortRelease ctx.config ctx.id ctx.releaseLimits.targetAbsentGb).bind fun _ =>
        .ret (g.report (.error (.probeTimedOut ctx.id)) (.retainUnconfirmedLoad g.previous))

/-- The last load attempt has answered. -/
def settleAttempt (ctx : LoadFlowContext G) (g : Gathered G)
    (attempt : Except BackendError Unit) : Flow G (OpOutcome G) :=
  match attempt with
  | .ok () => awaitReady ctx g
  | .error err =>
    (resolveLoadFailure ctx.config ctx.id err g.previous ctx.releaseLimits.targetAbsentGb).bind
      fun outcome =>
        if err.leavesLoadUnconfirmed then .ret (g.report (.error err) outcome)
        else (clearFenceOr outcome g.previous).bind fun outcome =>
          .ret (g.report (.error err) outcome)

/-- The first attempt ran out of memory: at most one more, and only after a shown release. -/
def recoverFromOom (ctx : LoadFlowContext G) (g : Gathered G) (err : BackendError) :
    Flow G (OpOutcome G) :=
  (confirmMemoryReleased ctx.config [ctx.id] ctx.releaseLimits.targetAbsentGb).bind fun
    | .error _ =>
      (bestEffortRelease ctx.config ctx.id ctx.releaseLimits.targetAbsentGb).bind fun status =>
        (clearFenceOr (releasedOr status g.previous) g.previous).bind fun outcome =>
          .ret (g.report (.error err) outcome)
    | .ok status =>
      if ctx.inherited then
        (clearFenceOr (.settleReleased status) g.previous).bind fun outcome =>
          .ret (g.report (.error err) outcome)
      else
        (callLoad ctx.id ctx.policy).bind fun attempt =>
          settleAttempt ctx { g with
            aggregateStatus := some status
            aggregateTargetCreditGb := Gigabytes.zero
            previous := none } attempt

def attemptLoad (ctx : LoadFlowContext G) (g : Gathered G) : Flow G (OpOutcome G) :=
  (callLoad ctx.id ctx.policy).bind fun
    | .ok () => settleAttempt ctx g (.ok ())
    | .error err => if err.isOom then recoverFromOom ctx g err else settleAttempt ctx g (.error err)

/-- An inherited model must still be the one the startup sample named. -/
def verifyInherited (ctx : LoadFlowContext G) : Flow G Bool :=
  (callStatus "startup/inherited-status").bind fun
    | .error _ => .ret false
    | .ok status =>
      if Gigabytes.isFinite status.usedGb && Gigabytes.lt (Gigabytes.zero : G) status.usedGb &&
          Gigabytes.le status.usedGb
            (Gigabytes.add ctx.releaseLimits.afterEvictionGb Gigabytes.epsilon) &&
          status.loaded.contains ctx.id then
        (callProbeReady ctx.id).bind fun
          | .ok ready => .ret ready
          | .error _ => .ret false
      else .ret false

/-- The victims are gone: load the target. -/
def loadTarget (ctx : LoadFlowContext G) (g : Gathered G) : Flow G (OpOutcome G) :=
  if ctx.inherited then
    (verifyInherited ctx).bind fun verified =>
      if verified then attemptLoad ctx g
      else (clearFenceOr (restoreOrStop g.previous) g.previous).bind fun outcome =>
        .ret (g.report (.error (.modelUnavailable ctx.id)) outcome)
  else attemptLoad ctx g

def failEviction (ctx : LoadFlowContext G) (g : Gathered G) : Flow G (OpOutcome G) :=
  let err := BackendError.evictionFailed ctx.id
  (resolveLoadFailure ctx.config ctx.id err g.previous ctx.releaseLimits.targetAbsentGb).bind
    fun outcome => (clearFenceOr outcome g.previous).bind fun outcome =>
      .ret (g.report (.error err) outcome)

/-- Every victim gets an unload attempt, also after an earlier one failed. -/
def unloadVictims (evict : List String) : Flow G (List VictimResult) :=
  each (fun victim => (callUnload victim).bind fun result => .ret (victim, result)) evict

theorem map_fst_of_forall₂ {evict : List String} {results : List VictimResult}
    (h : List.Forall₂ (fun v r => r.1 = v) evict results) : results.map Prod.fst = evict := by
  induction h with
  | nil => rfl
  | cons hv _ ih => rw [List.map_cons, ih, hv]

def failVictims (id : String) (victimResults : List VictimResult) : List VictimResult :=
  victimResults.map fun (victim, _) => (victim, .error (.evictionFailed id))

def isError {α : Type} : Except BackendError α → Bool
  | .error _ => true
  | .ok _ => false

def runLoadFlow (ctx : LoadFlowContext G) (evict : List String)
    (previous : Option (PreviousModel G)) : Flow G (OpOutcome G) :=
  let credit := (previous.map (·.memoryGb)).getD Gigabytes.zero
  (unloadVictims evict).bind fun victimResults =>
    if evict.isEmpty then loadTarget ctx ⟨victimResults, none, credit, previous⟩
    else
      (confirmMemoryReleased ctx.config evict ctx.releaseLimits.afterEvictionGb).bind fun
        | .error _ => failEviction ctx ⟨failVictims ctx.id victimResults, none, credit, previous⟩
        | .ok status =>
          let g : Gathered G := ⟨victimResults, some status, credit, previous⟩
          if victimResults.any fun (_, result) => isError result then failEviction ctx g
          else loadTarget ctx g

/-- The inner task of `start_unload`. -/
def runUnloadFlow (config : SupervisorConfig G) (id : String) (maxUsedGb : G) :
    Flow G (OpOutcome G) :=
  (callUnload id).bind fun
    | .error err => .ret (.unload (.error err) none)
    | .ok () => (confirmMemoryReleased config [id] maxUsedGb).bind fun
      | .ok status => .ret (.unload (.ok ()) (some status))
      | .error err => .ret (.unload (.error err) none)

end Supervisor
