import IDoris.Proxy.Forward

/-!
# Where the POST of a forward stands

What a forward has asked decides how far its POST has come, and its outcome says as much: it is
one that may be billed exactly if the POST may have been executed.
-/
namespace Proxy

open Interaction Program

/-- `observed`: no attempt so far can have been executed. `answered` has a complete 2xx answer with
usage, until the success gate has seen it; `uncompleted` is left by a completion observer that
fails. -/
inductive Course where
  | idle
  | unobserved
  | observed
  | possible
  | refused
  | answered (body : Body)
  | gated
  | uncompleted

/-- It was not proved that nothing has to be paid. -/
def ForwardOutcome.mayBill (outcome : ForwardOutcome) : Bool :=
  match outcome.execution with
  | .notExecuted | .replay => false
  | .uncertain => true
  | .executed => isSuccess outcome.status

/-- The cache, the bytes and the registry entry of a flight. -/
def Action.isBookkeeping : Action → Bool
  | .remember _ | .resize _ | .retainCompleted | .disarm | .reset | .publish _ => true
  | _ => false

namespace Course

variable {E : Type}

def Allows : Course → Action → Prop
  | .uncompleted, _ => True
  | course, .lockOutcome | course, .observe => course = .idle
  | course, .send | course, .sleepRetry _ => course = .observed
  | course, .read _ => course = .possible
  | course, .gate outcome => course = .idle ∨ course = .answered outcome.body
  | _, _ => True

def sent (course : Course) : Sent → Course
  | .response resp => if isUpstreamAuthStatus resp.status then .refused else .possible
  | .connectFailed _ => course
  | .failed _ | .headerTimeout => .possible

def received (resp : Response) : Except Nat Body → Course
  | .error _ => .possible
  | .ok body =>
    if isSuccess resp.status then
      if (parseOpenaiUsage body).toBool then .answered body else .possible
    else if isUncertainStatus resp.status then .possible
    else .refused

def gate : Course → Course
  | .answered _ => .gated
  | course => course

def next (course : Course) : (op : Action) → op.Answer E → Course
  | .observe, .ok () => .observed
  | .observe, .error _ => .unobserved
  | .send, answer => course.sent answer
  | .read resp, body => received resp body
  | .gate _, _ => course.gate
  | .completed _, .error _ => .uncompleted
  | _, _ => course

def watch (E : Type) : Monitor Action (Action.Answer E) Course where
  allowed := Allows
  next course op answer := course.next op answer

/-- What the send leaves. -/
def Sent (course : Course) (outcome : ForwardOutcome) : Prop :=
  match course with
  | .idle => True
  | .observed | .refused => outcome.mayBill = false ∧ outcome.execution ≠ .replay
  | .possible => outcome.execution = .uncertain
  | .answered body => outcome.isFresh = true ∧ outcome.body = body
  | .unobserved | .gated | .uncompleted => False

/-- What the success gate leaves. -/
def Ended (course : Course) (outcome : ForwardOutcome) : Prop :=
  match course with
  | .idle | .uncompleted => True
  | .observed | .refused => outcome.mayBill = false ∧ outcome.execution ≠ .replay
  | .possible | .gated => outcome.mayBill = true
  | .unobserved | .answered _ => False

end Course

section Programs

variable {E : Type} {config : ProxyConfig} {opts : ForwardOpts} {course : Course}
  {sending : Sending}

theorem mayBill_of_uncertain {outcome : ForwardOutcome} (h : outcome.execution = .uncertain) :
    outcome.mayBill = true := by
  simp [ForwardOutcome.mayBill, h]

theorem mayBill_of_isFresh {outcome : ForwardOutcome} (h : outcome.isFresh = true) :
    outcome.mayBill = true := by
  simp only [ForwardOutcome.isFresh, Bool.and_eq_true, decide_eq_true_eq] at h
  simp [ForwardOutcome.mayBill, h.1.1, h.1.2]

/-- The answer of the upstream, once its body is read, says what its POST can have done. -/
theorem sent_classify (husage : opts.requireOpenaiUsage = true) (attempt : Nat) (resp : Response)
    (body : Except Nat Body) :
    (Course.received resp body).Sent (classify opts attempt resp body).outcome := by
  cases body with
  | error status => rfl
  | ok body =>
    unfold classify Course.received lacksUsage
    rw [husage]
    by_cases hsuccess : isSuccess resp.status = true
    · by_cases hparsed : (parseOpenaiUsage body).toBool = true
      · have hcertain : isUncertainStatus resp.status = false := by
          simp only [isSuccess, Bool.and_eq_true, decide_eq_true_eq] at hsuccess
          simp [isUncertainStatus]
          omega
        simp [hsuccess, hparsed, hcertain, Course.Sent, ForwardOutcome.isFresh]
      · simp [hsuccess, hparsed, Course.Sent, flightFailureWithExecution]
    · by_cases huncertain : isUncertainStatus resp.status = true
      · simp [hsuccess, huncertain, Course.Sent]
      · simp [hsuccess, huncertain, Course.Sent, ForwardOutcome.mayBill]

theorem coursed_receive (husage : opts.requireOpenaiUsage = true) (attempt : Nat)
    (resp : Response) : Safe (Course.watch E) (fun sending course => course.Sent sending.outcome)
      (receive opts attempt resp : Forward E Sending)
      (Course.observed.sent (.response resp)) := by
  by_cases hauth : isUpstreamAuthStatus resp.status = true
  · have hcourse : Course.observed.sent (.response resp) = .refused := if_pos hauth
    rw [hcourse, receive, if_pos hauth]
    exact ⟨rfl, nofun⟩
  · have hcourse : Course.observed.sent (.response resp) = .possible := if_neg hauth
    rw [hcourse, receive, if_neg hauth]
    exact ⟨rfl, fun body => sent_classify husage attempt resp body⟩

theorem coursed_sendBuffered (husage : opts.requireOpenaiUsage = true) (left attempt : Nat) :
    Safe (Course.watch E) (fun sending course => course.Sent sending.outcome)
      (sendBuffered opts left attempt : Forward E Sending) .observed := by
  induction left generalizing attempt with
  | zero =>
    rw [sendBuffered]
    refine ⟨rfl, fun sent => ?_⟩
    cases sent with
    | response resp => exact coursed_receive husage attempt resp
    | connectFailed timeout => exact ⟨rfl, nofun⟩
    | failed _ | headerTimeout => rfl
  | succ left ih =>
    rw [sendBuffered]
    refine ⟨rfl, fun sent => ?_⟩
    cases sent with
    | response resp => exact coursed_receive husage attempt resp
    | connectFailed timeout => exact ⟨rfl, fun () => ih (attempt + 1)⟩
    | failed _ | headerTimeout => rfl

/-- What a forward leaves; a failed observer has sent nothing. -/
def Course.SentAll (result : Except E Sending) (course : Course) : Prop :=
  match result with
  | .error _ => course = .unobserved
  | .ok sending => course.Sent sending.outcome

theorem coursed_sendObserved (husage : opts.requireOpenaiUsage = true) :
    Safe (Course.watch E) Course.SentAll
      (sendObserved config opts : Forward E (Except E Sending)) .idle := by
  refine ⟨trivial, fun claimed => ?_⟩
  cases claimed with
  | false => trivial
  | true =>
    refine ⟨rfl, fun observed => ?_⟩
    cases observed with
    | error error => rfl
    | ok _ => exact (coursed_sendBuffered husage _ _).bind fun _ _ hsent => hsent

theorem coursed_forwardOnceObserved (husage : opts.requireOpenaiUsage = true) :
    Safe (Course.watch E) Course.SentAll
      (forwardOnceObserved config opts : Forward E (Except E Sending)) .idle := by
  unfold forwardOnceObserved
  split
  · refine ⟨trivial, fun hit => ?_⟩
    cases hit with
    | some hit => trivial
    | none => exact coursed_sendObserved husage
  · exact coursed_sendObserved husage

theorem coursed_finalizeSuccess (h : course.Sent sending.outcome) :
    Safe (Course.watch E) (fun sending course => course.Ended sending.outcome)
      (finalizeSuccess sending : Forward E Sending) course := by
  unfold finalizeSuccess
  split
  · next hfresh =>
    have hbill := mayBill_of_isFresh hfresh
    cases course with
    | idle =>
      refine ⟨.inl rfl, fun gated => ?_⟩
      cases gated <;> trivial
    | answered body =>
      refine ⟨.inr (congrArg _ h.2.symm), fun gated => ?_⟩
      cases gated with
      | ok _ => exact hbill
      | error error => rfl
    | observed | refused => exact absurd (hbill.symm.trans h.1) nofun
    | possible =>
      have huncertain : sending.outcome.execution = .uncertain := h
      simp [ForwardOutcome.isFresh, huncertain] at hfresh
    | unobserved | gated | uncompleted => exact h.elim
  · next hstale =>
    cases course with
    | idle => trivial
    | answered body => exact absurd h.1 hstale
    | observed | refused => exact h
    | possible => exact mayBill_of_uncertain h
    | unobserved | gated | uncompleted => exact h.elim

/-- The bookkeeping after the send is allowed always, and moves nothing. -/
theorem Course.bookkeeping {op : Action} {α : Type} {next : op.Answer E → Forward E α}
    {Q : α → Course → Prop} (hop : op.isBookkeeping = true)
    (h : ∀ answer, Safe (Course.watch E) Q (next answer) course) :
    Safe (Course.watch E) Q (.ask op next) course := by
  cases op with
  | remember _ | resize _ | retainCompleted | disarm | reset | publish _ =>
    refine ⟨?_, h⟩
    cases course <;> trivial
  | _ => cases hop

theorem coursed_settleGuard : Safe (Course.watch E) (fun _ after => after = course)
    (settleGuard sending : Forward E Unit) course := by
  unfold settleGuard
  split
  · exact Course.bookkeeping rfl fun _ => rfl
  · split
    · exact Course.bookkeeping rfl fun _ => rfl
    · rfl

theorem coursed_rememberFresh : Safe (Course.watch E) (fun _ after => after = course)
    (rememberFresh sending : Forward E Unit) course := by
  unfold rememberFresh
  split
  · exact Course.bookkeeping rfl fun _ => rfl
  · rfl

theorem coursed_retainResult (h : course.Ended sending.outcome) :
    Safe (Course.watch E) (fun outcome course => course.Ended outcome)
      (retainResult opts sending : Forward E ForwardOutcome) course := by
  refine Course.bookkeeping rfl fun fits => ?_
  apply coursed_settleGuard.bind
  rintro _ _ rfl
  exact Course.bookkeeping rfl fun _ => h

/-- What the whole forward leaves: an error of the observer, or of the completion observer. -/
def Course.EndedAll (result : Except E ForwardOutcome) (course : Course) : Prop :=
  match result with
  | .error _ => course = .unobserved ∨ course = .uncompleted
  | .ok outcome => course.Ended outcome

theorem allows_completed (course : Course) (outcome : ForwardOutcome) :
    course.Allows (.completed outcome) := by
  cases course <;> trivial

theorem coursed_concludeLead (h : course.Ended sending.outcome) :
    Safe (Course.watch E) Course.EndedAll
      (concludeLead opts sending : Forward E (Except E ForwardOutcome)) course := by
  refine ⟨allows_completed course _, fun completed => ?_⟩
  cases completed with
  | error error => exact Course.bookkeeping rfl fun _ => .inr rfl
  | ok _ =>
    apply coursed_rememberFresh.bind
    rintro _ _ rfl
    exact (coursed_retainResult h).bind fun _ _ hended => hended

theorem coursed_lead (husage : opts.requireOpenaiUsage = true) :
    Safe (Course.watch E) Course.EndedAll
      (lead config opts : Forward E (Except E ForwardOutcome)) .idle := by
  refine ⟨trivial, fun _ => ?_⟩
  apply (coursed_forwardOnceObserved husage).bind
  intro sent course hsent
  cases sent with
  | error error =>
    refine Course.bookkeeping rfl fun _ => ?_
    exact .inl hsent
  | ok sending =>
    apply (coursed_finalizeSuccess hsent).bind
    intro sending course hended
    exact coursed_concludeLead hended

theorem coursed_follow (outcome : ForwardOutcome) : Safe (Course.watch E) Course.EndedAll
    (follow outcome : Forward E (Except E ForwardOutcome)) .idle := by
  unfold follow
  split
  · refine ⟨trivial, fun hit => ?_⟩
    cases hit <;> trivial
  · trivial

theorem coursed_joinFlight (husage : opts.requireOpenaiUsage = true)
    (fingerprint theirs : Fingerprint) : Safe (Course.watch E) Course.EndedAll
      (joinFlight config opts fingerprint theirs : Forward E (Except E ForwardOutcome)) .idle := by
  unfold joinFlight
  split
  · trivial
  · refine ⟨rfl, fun found => ?_⟩
    cases found with
    | some outcome => exact coursed_follow outcome
    | none => exact coursed_lead husage

theorem coursed_forwardKeyed (husage : opts.requireOpenaiUsage = true)
    (fingerprint : Fingerprint) : Safe (Course.watch E) Course.EndedAll
      (forwardKeyed config opts fingerprint : Forward E (Except E ForwardOutcome)) .idle := by
  refine ⟨trivial, fun hit => ?_⟩
  cases hit with
  | some hit => trivial
  | none =>
    refine ⟨trivial, fun entered => ?_⟩
    cases entered with
    | flight theirs => exact coursed_joinFlight husage fingerprint theirs
    | hit _ | full => trivial

theorem coursed_forwardUnkeyed (husage : opts.requireOpenaiUsage = true) :
    Safe (Course.watch E) Course.EndedAll
      (forwardUnkeyed config opts : Forward E (Except E ForwardOutcome)) .idle := by
  apply (coursed_forwardOnceObserved husage).bind
  intro sent course hsent
  cases sent with
  | error error => exact .inl hsent
  | ok sending =>
    apply (coursed_finalizeSuccess hsent).bind
    intro sending course hended
    refine ⟨allows_completed course _, fun completed => ?_⟩
    cases completed with
    | error error => exact .inr rfl
    | ok _ => exact hended

/-- Every step of a forward that demands usage evidence, and its outcome. -/
theorem coursed_forwardBuffered (call : ForwardCall)
    (husage : call.opts.requireOpenaiUsage = true) : Safe (Course.watch E) Course.EndedAll
      (forwardBuffered config call : Forward E (Except E ForwardOutcome)) .idle := by
  refine ⟨trivial, fun permit => ?_⟩
  cases permit with
  | false => trivial
  | true =>
    change Safe _ _ (forwardInner config call) _
    unfold forwardInner
    split
    · trivial
    · split
      · exact coursed_forwardKeyed husage _
      · exact coursed_forwardUnkeyed husage

end Programs

end Proxy
