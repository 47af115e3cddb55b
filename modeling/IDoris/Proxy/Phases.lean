import IDoris.Proxy.Callers

/-!
# The phases of a forward

What a forward may do with its flight depends on how far it is, and whatever it is answered it
keeps to that.
-/
namespace Proxy

open Interaction Program Transition

variable {E : Type} {config : ProxyConfig}

section Leads

/-- What a caller may do with its flight, by how far it is. -/
def Phase.Allows (config : ProxyConfig) (phase : Phase) : Action → Prop
  | .enter => phase = .outside
  | .lockOutcome => phase = .joined
  | .begin => phase = .locked
  | .resize _ | .reset => phase = .begun
  | .publish outcome => phase = .stored outcome ∨ phase = .begun ∧
      config.layout.outcomeBytes outcome = config.layout.outcomeBytes Shared.fallback
  | .retainCompleted | .disarm => phase = .begun ∨ ∃ replay, phase = .stored replay
  | _ => ∀ replay, phase ≠ .stored replay

def Phase.watch (config : ProxyConfig) : Monitor Action (Action.Answer E) Phase where
  allowed := Phase.Allows config
  next phase op answer := phase.next op answer

/-- The charge of a result is not left without the result. -/
def Phase.Whole (phase : Phase) : Prop := ∀ replay, phase ≠ .stored replay

theorem whole_outside : Phase.outside.Whole := nofun

theorem whole_begun : Phase.begun.Whole := nofun

variable {opts : ForwardOpts} {phase : Phase} {sending : Sending} {outcome : ForwardOutcome}

theorem safe_receive {attempt : Nat} {resp : Response} (h : phase.Whole) :
    Safe (Phase.watch config) (fun _ p => p = phase)
      (receive opts attempt resp : Forward E Sending) phase := by
  unfold receive
  split
  · rfl
  · exact ⟨h, fun _ => rfl⟩

theorem safe_sendBuffered (h : phase.Whole) (left attempt : Nat) :
    Safe (Phase.watch config) (fun _ p => p = phase)
      (sendBuffered opts left attempt : Forward E Sending) phase := by
  induction left generalizing attempt with
  | zero =>
    rw [sendBuffered]
    refine ⟨h, fun sent => ?_⟩
    cases sent with
    | response resp => exact safe_receive h
    | connectFailed _ | failed _ | headerTimeout => rfl
  | succ left ih =>
    rw [sendBuffered]
    refine ⟨h, fun sent => ?_⟩
    cases sent with
    | response resp => exact safe_receive h
    | connectFailed _ => exact ⟨h, fun _ => ih (attempt + 1)⟩
    | failed _ | headerTimeout => rfl

theorem safe_sendObserved (h : phase.Whole) : Safe (Phase.watch config) (fun _ p => p = phase)
    (sendObserved config opts : Forward E (Except E Sending)) phase := by
  refine ⟨h, fun claimed => ?_⟩
  cases claimed with
  | false => rfl
  | true =>
    refine ⟨h, fun observed => ?_⟩
    cases observed with
    | error _ => rfl
    | ok _ => exact (safe_sendBuffered h _ _).bind fun _ _ hp => hp

theorem safe_forwardOnceObserved (h : phase.Whole) :
    Safe (Phase.watch config) (fun _ p => p = phase)
      (forwardOnceObserved config opts : Forward E (Except E Sending)) phase := by
  unfold forwardOnceObserved
  split
  · refine ⟨h, fun hit => ?_⟩
    cases hit with
    | some _ => rfl
    | none => exact safe_sendObserved h
  · exact safe_sendObserved h

theorem safe_finalizeSuccess (h : phase.Whole) : Safe (Phase.watch config) (fun _ p => p = phase)
    (finalizeSuccess sending : Forward E Sending) phase := by
  unfold finalizeSuccess
  split
  · refine ⟨h, fun gated => ?_⟩
    cases gated <;> rfl
  · rfl

/-- The guard may be settled while the result is on its way. -/
theorem safe_settleGuard (h : phase = .begun ∨ ∃ replay, phase = .stored replay) :
    Safe (Phase.watch config) (fun _ p => p = phase) (settleGuard sending : Forward E Unit) phase := by
  unfold settleGuard
  split
  · exact ⟨h, fun _ => rfl⟩
  · split
    · exact ⟨h, fun _ => rfl⟩
    · rfl

theorem safe_retainResult : Safe (Phase.watch config) (fun _ p => p = .ended)
    (retainResult opts sending : Forward E ForwardOutcome) .begun := by
  refine ⟨rfl, fun fits => ?_⟩
  cases fits with
  | true =>
    apply (safe_settleGuard (.inr ⟨_, rfl⟩)).bind
    rintro _ _ rfl
    exact ⟨.inl rfl, fun _ => rfl⟩
  | false =>
    apply (safe_settleGuard (.inl rfl)).bind
    rintro _ _ rfl
    exact ⟨.inr ⟨rfl, rfl⟩, fun _ => rfl⟩

theorem safe_concludeLead : Safe (Phase.watch config) (fun _ p => p = .ended)
    (concludeLead opts sending : Forward E (Except E ForwardOutcome)) .begun := by
  refine ⟨nofun, fun completed => ?_⟩
  cases completed with
  | error _ => exact ⟨.inr ⟨rfl, rfl⟩, fun _ => rfl⟩
  | ok _ =>
    have hremember : Safe (Phase.watch config) (fun _ p => p = .begun)
        (rememberFresh sending : Forward E Unit) .begun := by
      unfold rememberFresh
      split
      · exact ⟨nofun, fun _ => rfl⟩
      · rfl
    apply hremember.bind
    rintro _ _ rfl
    exact safe_retainResult.bind fun _ _ hp => hp

theorem safe_lead : Safe (Phase.watch config) (fun _ p => p = .ended)
    (lead config opts : Forward E (Except E ForwardOutcome)) .locked := by
  refine ⟨rfl, fun _ => ?_⟩
  apply (safe_forwardOnceObserved whole_begun).bind
  rintro sent _ rfl
  cases sent with
  | error _ => exact ⟨rfl, fun _ => rfl⟩
  | ok sending =>
    apply (safe_finalizeSuccess whole_begun).bind
    rintro _ _ rfl
    exact safe_concludeLead

theorem safe_follow : Safe (Phase.watch config) (fun _ p => p = .ended)
    (follow outcome : Forward E (Except E ForwardOutcome)) .ended := by
  unfold follow
  split
  · refine ⟨nofun, fun hit => ?_⟩
    cases hit <;> rfl
  · rfl

theorem safe_joinFlight (fingerprint theirs : Fingerprint) :
    Safe (Phase.watch config) (fun _ p => p.Whole)
      (joinFlight config opts fingerprint theirs : Forward E (Except E ForwardOutcome)) .joined := by
  have hended : ∀ (r : Except E ForwardOutcome) (p : Phase), p = .ended → p.Whole := by
    rintro _ _ rfl
    exact nofun
  unfold joinFlight
  split
  · exact nofun
  · refine ⟨rfl, fun found => ?_⟩
    cases found with
    | some _ => exact safe_follow.mono hended
    | none => exact safe_lead.mono hended

/-- Whatever the answers, a forward keeps to the phases and leaves no charge without its result. -/
theorem safe_forwardBuffered (call : ForwardCall) :
    Safe (Phase.watch config) (fun _ p => p.Whole)
      (forwardBuffered config call : Forward E (Except E ForwardOutcome)) .outside := by
  refine ⟨nofun, fun permit => ?_⟩
  cases permit with
  | false => exact nofun
  | true =>
    unfold forwardInner
    split
    · exact nofun
    · split
      · refine ⟨nofun, fun hit => ?_⟩
        cases hit with
        | some _ => exact nofun
        | none =>
          refine ⟨rfl, fun entered => ?_⟩
          cases entered with
          | flight theirs => exact safe_joinFlight _ theirs
          | hit _ | full => exact nofun
      · apply (safe_forwardOnceObserved whole_outside).bind
        rintro sent _ rfl
        cases sent with
        | error _ => exact nofun
        | ok sending =>
          apply (safe_finalizeSuccess whole_outside).bind
          rintro _ _ rfl
          refine ⟨nofun, fun completed => ?_⟩
          cases completed <;> exact nofun

end Leads

end Proxy
