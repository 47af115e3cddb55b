import IDoris.Library.Interaction
import IDoris.Proxy.Types

/-!
# One buffered forward

What a forward does to the shared proxy state, to its observers and to the
upstream, one action at a time, and the outcome it hands to its caller.
-/
namespace Proxy

open Interaction Program

/-- An action of a forward; `E` is the error type of its observers. -/
inductive Action where
  | acquirePermit
  | lookup
  | enter
  | lockOutcome
  | begin
  | claimSend
  | observe
  | send
  | sleepRetry (attempt : Nat)
  | read (resp : Response)
  | gate (outcome : ForwardOutcome)
  | completed (outcome : ForwardOutcome)
  | remember (outcome : ForwardOutcome)
  | resize (replay : ForwardOutcome)
  | retainCompleted
  | disarm
  | reset
  | publish (outcome : ForwardOutcome)

/-- The flight of the key, a cached answer, or no room for another flight. -/
inductive Entered where
  | flight (fingerprint : Fingerprint)
  | hit (outcome : ForwardOutcome)
  | full

abbrev Action.Answer (E : Type) : Action → Type
  | .acquirePermit => Bool
  | .lookup => Option ForwardOutcome
  | .enter => Entered
  | .lockOutcome => Option ForwardOutcome
  | .begin => Unit
  | .claimSend => Bool
  | .observe => Except E Unit
  | .send => Sent
  | .sleepRetry _ => Unit
  | .read _ => Except Nat Body
  | .gate _ => Except SuccessFinalizeError Unit
  | .completed _ => Except E Unit
  | .remember _ => Unit
  | .resize _ => Bool
  | .retainCompleted => Unit
  | .disarm => Unit
  | .reset => Unit
  | .publish _ => Unit

/-- Where the future may be dropped. -/
def Action.awaits : Action → Bool
  | .lockOutcome | .observe | .send | .sleepRetry _ | .read _ | .completed _ => true
  | _ => false

/-- The send step: a POST attempt, the pause before the next one, the read of its body. -/
def Action.isSend : Action → Bool
  | .send | .sleepRetry _ | .read _ => true
  | _ => false

abbrev Forward (E α : Type) := Program Action (Action.Answer E) α

variable {E : Type}

/-- An outcome, and whether the POST may have executed without a trustworthy answer. -/
structure Sending where
  outcome : ForwardOutcome
  uncertain : Bool

def uncertainFailure (status attempt : Nat) : Sending :=
  ⟨failureWithExecution status attempt .uncertain, true⟩

def lacksUsage (opts : ForwardOpts) (status : Nat) (body : Body) : Bool :=
  isSuccess status && opts.requireOpenaiUsage && !(parseOpenaiUsage body).toBool

/-- The answer of the upstream once its body is read. -/
def classify (opts : ForwardOpts) (attempt : Nat) (resp : Response) :
    Except Nat Body → Sending
  | .error status => uncertainFailure status attempt
  | .ok body =>
    if lacksUsage opts resp.status body then
      ⟨flightFailureWithExecution 502 "upstream_usage_invalid" .uncertain, true⟩
    else
      let uncertain := isUncertainStatus resp.status
      ⟨{ status := resp.status
         body := body
         contentType := resp.contentType
         cached := false
         originRecordId := none
         replayedServedLocality := none
         retries := attempt
         execution := if uncertain then .uncertain else .executed }, uncertain⟩

/-- The body of a refused credential is discarded unread. -/
def receive (opts : ForwardOpts) (attempt : Nat) (resp : Response) : Forward E Sending :=
  if isUpstreamAuthStatus resp.status then .ret ⟨upstreamAuthFailure attempt, false⟩
  else .ask (.read resp) fun body => .ret (classify opts attempt resp body)

/-- The send loop with `left` retries; only a connection failure is retried. -/
def sendBuffered (opts : ForwardOpts) : (left attempt : Nat) → Forward E Sending
  | left, attempt => .ask .send fun
    | .response resp => receive opts attempt resp
    | .connectFailed timeout =>
      match left with
      | left + 1 => .ask (.sleepRetry attempt) fun () => sendBuffered opts left (attempt + 1)
      | 0 => .ret ⟨failureWithExecution (if timeout then 504 else 502) attempt .notExecuted, false⟩
    | .failed timeout => .ret (uncertainFailure (if timeout then 504 else 502) attempt)
    | .headerTimeout => .ret (uncertainFailure 504 attempt)

/-- Claim the send, let the observer see it, send. -/
def sendObserved (config : ProxyConfig) (opts : ForwardOpts) : Forward E (Except E Sending) :=
  .ask .claimSend fun
    | false => .ret (.ok ⟨flightFailureWithExecution 503 "provider_circuit_open" .notExecuted, false⟩)
    | true => .ask .observe fun
      | .error error => .ret (.error error)
      | .ok () => (sendBuffered opts config.retries 0).bind fun sending => .ret (.ok sending)

def forwardOnceObserved (config : ProxyConfig) (opts : ForwardOpts) :
    Forward E (Except E Sending) :=
  if opts.requestId.isSome then
    .ask .lookup fun
      | some hit => .ret (.ok ⟨hit, false⟩)
      | none => sendObserved config opts
  else sendObserved config opts

/-- A complete 2xx answer of this call's own POST. -/
def ForwardOutcome.isFresh (outcome : ForwardOutcome) : Bool :=
  outcome.execution = .executed && isSuccess outcome.status && !outcome.cached

def finalizeSuccess (sending : Sending) : Forward E Sending :=
  if sending.outcome.isFresh then
    .ask (.gate sending.outcome) fun
      | .ok () => .ret sending
      | .error error => .ret ⟨successFinalizeFailure error, true⟩
  else .ret sending

/-- What later callers of the flight are given. -/
def replayOf (opts : ForwardOpts) (outcome : ForwardOutcome) : ForwardOutcome :=
  if isSuccess outcome.status && !outcome.cached then
    { outcome with
      cached := true
      originRecordId := some opts.recordId
      replayedServedLocality := some opts.servedLocality
      execution := .replay }
  else outcome

/-- The end of the guard: kept through the window, given up, or left to its drop. -/
def settleGuard (sending : Sending) : Forward E Unit :=
  if !sending.uncertain && isSuccess sending.outcome.status then
    .ask .retainCompleted fun () => .ret ()
  else if !sending.uncertain then .ask .disarm fun () => .ret ()
  else .ret ()

def rememberFresh (sending : Sending) : Forward E Unit :=
  if !sending.uncertain && sending.outcome.isFresh then
    .ask (.remember sending.outcome) fun () => .ret ()
  else .ret ()

def retainResult (opts : ForwardOpts) (sending : Sending) : Forward E ForwardOutcome :=
  let replay := replayOf opts sending.outcome
  .ask (.resize replay) fun fits =>
    let replay := if fits then replay
      else flightFailureWithExecution 502 "upstream_unavailable" .uncertain
    (settleGuard { sending with uncertain := sending.uncertain || !fits }).bind fun () =>
      .ask (.publish replay) fun () => .ret sending.outcome

def concludeLead (opts : ForwardOpts) (sending : Sending) : Forward E (Except E ForwardOutcome) :=
  .ask (.completed sending.outcome) fun
    | .error error =>
      .ask (.publish (flightFailureWithExecution 503 "upstream_unavailable" .uncertain)) fun () =>
        .ret (.error error)
    | .ok () => (rememberFresh sending).bind fun () =>
      (retainResult opts sending).bind fun outcome => .ret (.ok outcome)

/-- The caller that found the flight without an outcome. -/
def lead (config : ProxyConfig) (opts : ForwardOpts) : Forward E (Except E ForwardOutcome) :=
  .ask .begin fun () => (forwardOnceObserved config opts).bind fun
    | .error error => .ask .reset fun () => .ret (.error error)
    | .ok sending => (finalizeSuccess sending).bind fun sending => concludeLead opts sending

/-- A caller that finds the outcome of another one. -/
def follow (outcome : ForwardOutcome) : Forward E (Except E ForwardOutcome) :=
  let replay := { outcome with execution := .replay }
  if outcome.status = 502 && !outcome.cached then
    .ask .lookup fun
      | some hit => .ret (.ok hit)
      | none => .ret (.ok replay)
  else .ret (.ok replay)

def joinFlight (config : ProxyConfig) (opts : ForwardOpts) (fingerprint theirs : Fingerprint) :
    Forward E (Except E ForwardOutcome) :=
  if theirs ≠ fingerprint then .ret (.ok (flightFailure 409 "request_id_conflict"))
  else .ask .lockOutcome fun
    | some outcome => follow outcome
    | none => lead config opts

def forwardKeyed (config : ProxyConfig) (opts : ForwardOpts) (fingerprint : Fingerprint) :
    Forward E (Except E ForwardOutcome) :=
  .ask .lookup fun
    | some hit => .ret (.ok hit)
    | none => .ask .enter fun
      | .hit outcome => .ret (.ok outcome)
      | .full => .ret (.ok (flightFailure 503 "upstream_unavailable"))
      | .flight theirs => joinFlight config opts fingerprint theirs

/-- Without a request id there is neither cache nor flight. -/
def forwardUnkeyed (config : ProxyConfig) (opts : ForwardOpts) :
    Forward E (Except E ForwardOutcome) :=
  (forwardOnceObserved config opts).bind fun
    | .error error => .ret (.error error)
    | .ok sending => (finalizeSuccess sending).bind fun sending =>
      .ask (.completed sending.outcome) fun
        | .error error => .ret (.error error)
        | .ok () => .ret (.ok sending.outcome)

def forwardInner (config : ProxyConfig) (call : ForwardCall) :
    Forward E (Except E ForwardOutcome) :=
  match call.fingerprint with
  | none => .ret (.ok (failure 502 0))
  | some fingerprint =>
    if call.opts.requestId.isSome then forwardKeyed config call.opts fingerprint
    else forwardUnkeyed config call.opts

def forwardBuffered (config : ProxyConfig) (call : ForwardCall) :
    Forward E (Except E ForwardOutcome) :=
  .ask .acquirePermit fun
    | false => .ret (.ok (failure 503 0))
    | true => forwardInner config call

end Proxy
