import IDoris.Proxy.Callers

/-!
# The mandate to send

A caller with a key sends only as the leader of its flight, and no more once its POST may have
been executed: what it then does with the flight never lets another one send.
-/
namespace Proxy

open Interaction Program

variable {E : Type} {config : ProxyConfig}

/-- After this answer the POST may have been executed: the upstream answered 2xx, or the
disposition is uncertain, or the success gate or the completion observer failed. -/
def Action.spends : (op : Action) → op.Answer E → Bool
  | .send, .failed _ | .send, .headerTimeout => true
  | .read _, .error _ => true
  | .read resp, .ok _ => isSuccess resp.status || isUncertainStatus resp.status
  | .gate _, .error _ => true
  | .completed _, .error _ => true
  | _, _ => false

/-- What a caller may still do about the POST of its key. `free`: it has no key. -/
inductive Mandate where
  | free
  | outside
  | joined
  | locked
  | sending
  | spent
  | ended

namespace Mandate

def Allows (mandate : Mandate) : Action → Prop
  | .enter => mandate = .outside
  | .lockOutcome => mandate = .joined
  | .begin => mandate = .locked
  | .claimSend | .observe | .send | .sleepRetry _ | .read _ => mandate = .free ∨ mandate = .sending
  | .gate _ | .completed _ => mandate = .free ∨ mandate = .sending ∨ mandate = .spent
  | .remember _ | .resize _ | .retainCompleted => mandate = .sending ∨ mandate = .spent
  | .disarm | .reset => mandate = .sending
  | .publish _ => mandate = .sending ∨ mandate = .spent ∨ mandate = .ended
  | .acquirePermit | .lookup => True

def spend : Mandate → Mandate
  | .sending => .spent
  | mandate => mandate

def next (mandate : Mandate) : (op : Action) → op.Answer E → Mandate
  | .enter, .flight _ => .joined
  | .lockOutcome, none => .locked
  | .lockOutcome, some _ => .ended
  | .begin, _ => .sending
  | .retainCompleted, _ | .disarm, _ | .reset, _ | .publish _, _ => .ended
  | op, answer => if op.spends answer then mandate.spend else mandate

def watch (E : Type) : Monitor Action (Action.Answer E) Mandate where
  allowed := Allows
  next mandate op answer := mandate.next op answer

/-- There is nothing left to send for. -/
def Done (mandate : Mandate) : Prop := mandate = .spent ∨ mandate = .ended

theorem Done.spend {mandate : Mandate} (h : mandate.Done) : mandate.spend.Done := by
  obtain rfl | rfl := h
  · exact .inl rfl
  · exact .inr rfl

theorem Done.not_sends {mandate : Mandate} (h : mandate.Done) {op : Action} (hop : op.isSend = true) :
    ¬mandate.Allows op := by
  cases op with
  | send | sleepRetry _ | read _ =>
    obtain rfl | rfl := h
    · exact fun hallowed => hallowed.elim nofun nofun
    · exact fun hallowed => hallowed.elim nofun nofun
  | _ => cases hop

/-- Once there is nothing left to send for, that stays so. -/
theorem Done.next {mandate : Mandate} (h : mandate.Done) {op : Action} (hallowed : mandate.Allows op)
    (answer : op.Answer E) : (mandate.next op answer).Done := by
  have hspent : ∀ spends : Bool, (if spends then mandate.spend else mandate).Done := by
    intro spends
    cases spends with
    | true => exact h.spend
    | false => exact h
  cases op with
  | enter | lockOutcome | begin =>
    obtain rfl | rfl := h
    · cases hallowed
    · cases hallowed
  | retainCompleted | disarm | reset | publish _ => exact .inr rfl
  | acquirePermit | lookup | claimSend | observe | sleepRetry _ | remember _ | resize _ => exact h
  | send | read _ | gate _ | completed _ => exact hspent (Action.spends _ answer)

end Mandate

section Programs

variable {opts : ForwardOpts} {start mandate : Mandate} {sending : Sending}

/-- What a send leaves: the mandate it began with, or one spent on an answer that says so. -/
def Sending.Leaves (start : Mandate) (sending : Sending) (mandate : Mandate) : Prop :=
  mandate = start ∨ start = .sending ∧ mandate = .spent ∧
    (sending.uncertain = true ∨ isSuccess sending.outcome.status = true)

theorem leaves_spend (hstart : start = .free ∨ start = .sending)
    (h : sending.uncertain = true ∨ isSuccess sending.outcome.status = true) :
    sending.Leaves start start.spend := by
  obtain rfl | rfl := hstart
  · exact .inl rfl
  · exact .inr ⟨rfl, rfl, h⟩

theorem classify_spent {resp : Response} {body : Except Nat Body} {attempt : Nat}
    (h : Action.spends (E := E) (.read resp) body = true) :
    (classify opts attempt resp body).uncertain = true ∨
      isSuccess (classify opts attempt resp body).outcome.status = true := by
  cases body with
  | error status => exact .inl rfl
  | ok body =>
    unfold classify
    dsimp only
    split
    · exact .inl rfl
    · simp only [Action.spends, Bool.or_eq_true] at h
      exact h.symm

theorem mandated_receive {attempt : Nat} {resp : Response}
    (hstart : start = .free ∨ start = .sending) : Safe (Mandate.watch E) (Sending.Leaves start)
      (receive opts attempt resp : Forward E Sending) start := by
  unfold receive
  split
  · exact .inl rfl
  · refine ⟨hstart, fun body => ?_⟩
    change Sending.Leaves _ _ (if Action.spends (E := E) (.read resp) body then _ else _)
    split
    · next hspent => exact leaves_spend hstart (classify_spent hspent)
    · exact .inl rfl

theorem mandated_sendBuffered (hstart : start = .free ∨ start = .sending) (left attempt : Nat) :
    Safe (Mandate.watch E) (Sending.Leaves start)
      (sendBuffered opts left attempt : Forward E Sending) start := by
  induction left generalizing attempt with
  | zero =>
    rw [sendBuffered]
    refine ⟨hstart, fun sent => ?_⟩
    cases sent with
    | response resp => exact mandated_receive hstart
    | connectFailed _ => exact .inl rfl
    | failed _ | headerTimeout => exact leaves_spend hstart (.inl rfl)
  | succ left ih =>
    rw [sendBuffered]
    refine ⟨hstart, fun sent => ?_⟩
    cases sent with
    | response resp => exact mandated_receive hstart
    | connectFailed _ => exact ⟨hstart, fun _ => ih (attempt + 1)⟩
    | failed _ | headerTimeout => exact leaves_spend hstart (.inl rfl)

/-- What a forward leaves; a failed observer has sent nothing. -/
def Outcome.Leaves (start : Mandate) : Except E Sending → Mandate → Prop
  | .error _, mandate => mandate = start
  | .ok sending, mandate => sending.Leaves start mandate

theorem mandated_sendObserved (hstart : start = .free ∨ start = .sending) :
    Safe (Mandate.watch E) (Outcome.Leaves start)
      (sendObserved config opts : Forward E (Except E Sending)) start := by
  refine ⟨hstart, fun claimed => ?_⟩
  cases claimed with
  | false => exact .inl rfl
  | true =>
    refine ⟨hstart, fun observed => ?_⟩
    cases observed with
    | error _ => rfl
    | ok _ => exact (mandated_sendBuffered hstart _ _).bind fun _ _ hleaves => hleaves

theorem mandated_forwardOnceObserved (hstart : start = .free ∨ start = .sending) :
    Safe (Mandate.watch E) (Outcome.Leaves start)
      (forwardOnceObserved config opts : Forward E (Except E Sending)) start := by
  unfold forwardOnceObserved
  split
  · refine ⟨trivial, fun hit => ?_⟩
    cases hit with
    | some _ => exact .inl rfl
    | none => exact mandated_sendObserved hstart
  · exact mandated_sendObserved hstart

/-- A failed success gate spends the mandate. -/
theorem mandated_finalizeSuccess (hstart : start = .free ∨ start = .sending)
    (h : sending.Leaves start mandate) : Safe (Mandate.watch E) (Sending.Leaves start)
      (finalizeSuccess sending : Forward E Sending) mandate := by
  unfold finalizeSuccess
  split
  · constructor
    · obtain rfl | ⟨-, rfl, -⟩ := h
      · exact hstart.imp_right .inl
      · exact .inr (.inr rfl)
    · intro gated
      cases gated with
      | ok _ => exact h
      | error error =>
        obtain rfl | ⟨hsending, rfl, -⟩ := h
        · exact leaves_spend hstart (.inl rfl)
        · exact .inr ⟨hsending, rfl, .inl rfl⟩
  · exact h

/-- The guard is given up only where the upstream proved that nothing was executed. -/
theorem mandated_settleGuard (h : sending.Leaves .sending mandate) :
    Safe (Mandate.watch E) (fun _ m => m = .sending ∨ m = .spent ∨ m = .ended)
      (settleGuard sending : Forward E Unit) mandate := by
  have hholds : mandate = .sending ∨ mandate = .spent := by
    obtain rfl | ⟨-, rfl, -⟩ := h
    · exact .inl rfl
    · exact .inr rfl
  unfold settleGuard
  split
  · exact ⟨hholds, fun _ => .inr (.inr rfl)⟩
  · next hkept =>
    split
    · next hcertain =>
      refine ⟨?_, fun _ => .inr (.inr rfl)⟩
      obtain rfl | ⟨-, -, huncertain | hsuccess⟩ := h
      · rfl
      · rw [huncertain] at hcertain
        cases hcertain
      · rw [hcertain, hsuccess] at hkept
        exact absurd rfl hkept
    · exact hholds.imp_right .inl

theorem mandated_retainResult (h : sending.Leaves .sending mandate) :
    Safe (Mandate.watch E) (fun _ _ => True)
      (retainResult opts sending : Forward E ForwardOutcome) mandate := by
  constructor
  · obtain rfl | ⟨-, rfl, -⟩ := h
    · exact .inl rfl
    · exact .inr rfl
  · intro fits
    have hleaves : Sending.Leaves .sending
        { sending with uncertain := sending.uncertain || !fits } mandate := by
      refine h.imp_right fun ⟨hsending, hspent, hanswer⟩ => ⟨hsending, hspent, ?_⟩
      exact hanswer.imp_left fun huncertain => by rw [huncertain, Bool.true_or]
    apply (mandated_settleGuard hleaves).bind
    exact fun _ _ hholds => ⟨hholds, fun _ => trivial⟩

theorem mandated_concludeLead (h : sending.Leaves .sending mandate) :
    Safe (Mandate.watch E) (fun _ _ => True)
      (concludeLead opts sending : Forward E (Except E ForwardOutcome)) mandate := by
  have hholds : mandate = .sending ∨ mandate = .spent := by
    obtain rfl | ⟨-, rfl, -⟩ := h
    · exact .inl rfl
    · exact .inr rfl
  refine ⟨.inr hholds, fun completed => ?_⟩
  cases completed with
  | error _ =>
    have hspent : mandate.spend = .spent := by
      obtain rfl | rfl := hholds
      · rfl
      · rfl
    exact ⟨.inr (.inl hspent), fun _ => trivial⟩
  | ok _ =>
    have hremember : Safe (Mandate.watch E) (fun _ m => m = mandate)
        (rememberFresh sending : Forward E Unit) mandate := by
      unfold rememberFresh
      split
      · exact ⟨hholds, fun _ => rfl⟩
      · rfl
    apply hremember.bind
    rintro _ _ rfl
    exact (mandated_retainResult h).bind fun _ _ _ => trivial

theorem mandated_lead : Safe (Mandate.watch E) (fun _ _ => True)
    (lead config opts : Forward E (Except E ForwardOutcome)) .locked := by
  refine ⟨rfl, fun _ => ?_⟩
  apply (mandated_forwardOnceObserved (.inr rfl)).bind
  intro sent mandate hleaves
  cases sent with
  | error _ => exact ⟨hleaves, fun _ => trivial⟩
  | ok sending =>
    apply (mandated_finalizeSuccess (.inr rfl) hleaves).bind
    exact fun _ _ hleaves => mandated_concludeLead hleaves

theorem mandated_follow {outcome : ForwardOutcome} : Safe (Mandate.watch E) (fun _ _ => True)
    (follow outcome : Forward E (Except E ForwardOutcome)) .ended := by
  unfold follow
  split
  · refine ⟨trivial, fun hit => ?_⟩
    cases hit <;> trivial
  · trivial

theorem mandated_joinFlight (fingerprint theirs : Fingerprint) :
    Safe (Mandate.watch E) (fun _ _ => True)
      (joinFlight config opts fingerprint theirs : Forward E (Except E ForwardOutcome)) .joined := by
  unfold joinFlight
  split
  · trivial
  · refine ⟨rfl, fun found => ?_⟩
    cases found with
    | some _ => exact mandated_follow
    | none => exact mandated_lead

theorem mandated_forwardKeyed (fingerprint : Fingerprint) : Safe (Mandate.watch E) (fun _ _ => True)
    (forwardKeyed config opts fingerprint : Forward E (Except E ForwardOutcome)) .outside := by
  refine ⟨trivial, fun hit => ?_⟩
  cases hit with
  | some _ => trivial
  | none =>
    refine ⟨rfl, fun entered => ?_⟩
    cases entered with
    | flight theirs => exact mandated_joinFlight fingerprint theirs
    | hit _ | full => trivial

theorem mandated_forwardUnkeyed : Safe (Mandate.watch E) (fun _ _ => True)
    (forwardUnkeyed config opts : Forward E (Except E ForwardOutcome)) .free := by
  apply (mandated_forwardOnceObserved (.inl rfl)).bind
  intro sent mandate hleaves
  cases sent with
  | error _ => trivial
  | ok sending =>
    apply (mandated_finalizeSuccess (.inl rfl) hleaves).bind
    intro sending mandate hleaves
    constructor
    · obtain rfl | ⟨hfree, -⟩ := hleaves
      · exact .inl rfl
      · cases hfree
    · intro completed
      cases completed <;> trivial

/-- A caller without a key has no flight to mind, and one with a key starts outside. -/
def ForwardCall.firstMandate (call : ForwardCall) : Mandate :=
  if call.key.isSome then .outside else .free

theorem mandated_forwardBuffered (call : ForwardCall) : Safe (Mandate.watch E) (fun _ _ => True)
    (forwardBuffered config call : Forward E (Except E ForwardOutcome)) call.firstMandate := by
  refine ⟨trivial, fun permit => ?_⟩
  cases permit with
  | false => trivial
  | true =>
    have hkey : call.key.isSome = call.opts.requestId.isSome := Option.isSome_map ..
    change Safe _ _ (forwardInner config call) call.firstMandate
    unfold forwardInner ForwardCall.firstMandate
    rw [hkey]
    split
    · trivial
    · split
      · exact mandated_forwardKeyed _
      · exact mandated_forwardUnkeyed

end Programs

end Proxy
