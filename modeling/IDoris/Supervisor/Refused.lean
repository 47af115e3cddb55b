import IDoris.Supervisor.Agreement

/-!
# Load commands that are answered at once

A load command that is not joined and not installed is answered before the slots, the mutex
or the claim change. Only the marker can be left behind: when creating it fails after the file
is there, or when it cannot be removed after the capacity was refused.
-/
namespace Supervisor

open Transaction

variable {G : Type} [Gigabytes G]

/-- The command is admitted and planned, and the actor has a fence. -/
structure AtFence (actor : Actor G) (req : LoadRequest G) (plan : LoadPlan G) (fence : LoadFence) :
    Prop where
  admitted : screenLoad actor req = .admitted
  planned : planLoad actor.env actor.models req = .ok plan
  fenced : actor.env.loadFence = some fence

/-- Creating the marker failed when the file was already there. -/
def BeginInterrupted (actor : Actor G) (req : LoadRequest G) (faults : LoadFaults)
    (marker : Bool) : Prop :=
  ∃ plan fence error, AtFence actor req plan fence ∧ marker = false ∧ faults.begin = .after error

/-- The capacity was refused under a fresh marker, and the marker could not be removed. -/
def ClearFailed (actor : Actor G) (req : LoadRequest G) (faults : LoadFaults) (marker : Bool) :
    Prop :=
  ∃ plan fence refused error, AtFence actor req plan fence ∧ marker = false ∧
    faults.begin = .none ∧
    actor.env.claimRuntimeCapacity plan.plannedGb plan.plannedCharge req.allowHeadroomBreach =
      .error refused ∧
    faults.clear = .before error

section Handler

variable {actor : Actor G} {serial caller : Nat} {req : LoadRequest G} {faults : LoadFaults}
  {marker : Bool} {plan : LoadPlan G} {fence : LoadFence}
  {result : Except BackendError Unit}

/-- A command that does not get to its fence is answered with everything as it was. -/
theorem handleLoad_before (hnot : ¬∃ plan fence, AtFence actor req plan fence)
    (h : (handleLoad actor serial caller req faults marker).answer = some result) :
    (handleLoad actor serial caller req faults marker).actor = actor ∧
      (handleLoad actor serial caller req faults marker).spawned = none ∧
      (handleLoad actor serial caller req faults marker).marker = marker := by
  unfold handleLoad at h ⊢
  cases hscreen : screenLoad actor req with
  | answer result => exact ⟨rfl, rfl, rfl⟩
  | join => simp [hscreen] at h
  | admitted =>
    cases hplan : planLoad actor.env actor.models req with
    | error err => exact ⟨rfl, rfl, rfl⟩
    | ok plan =>
      cases hfence : actor.env.loadFence with
      | none => exact ⟨rfl, rfl, rfl⟩
      | some fence => exact absurd ⟨plan, fence, hscreen, hplan, hfence⟩ hnot

/-- What the marker is after a command that was answered at its fence. -/
theorem AtFence.handleLoad_answered (hat : AtFence actor req plan fence)
    (h : (handleLoad actor serial caller req faults marker).answer = some result) :
    (handleLoad actor serial caller req faults marker).actor = actor ∧
      (handleLoad actor serial caller req faults marker).spawned = none ∧
      ((handleLoad actor serial caller req faults marker).marker = marker ↔
        ¬(BeginInterrupted actor req faults marker ∨ ClearFailed actor req faults marker)) := by
  simp only [handleLoad, hat.admitted, hat.planned, hat.fenced] at h ⊢
  cases marker with
  | true =>
    obtain ⟨hstays, error, herror⟩ := @LoadFence.begin_present fence faults.begin
    have hbegin : fence.begin faults.begin true = (.error error, true) := Prod.ext herror hstays
    rw [hbegin]
    exact ⟨rfl, rfl, by simp [BeginInterrupted, ClearFailed]⟩
  | false =>
    cases hbegin : faults.begin with
    | before error =>
      exact ⟨rfl, rfl, by simp [BeginInterrupted, ClearFailed, hbegin, LoadFence.begin]⟩
    | after error =>
      refine ⟨rfl, rfl, ?_⟩
      have hleft : BeginInterrupted actor req faults false :=
        ⟨plan, fence, error, hat, rfl, hbegin⟩
      simp [LoadFence.begin, hleft]
    | none =>
      simp only [hbegin, LoadFence.begin, Bool.false_eq_true, if_false] at h ⊢
      cases hclaim : actor.env.claimRuntimeCapacity plan.plannedGb plan.plannedCharge
        req.allowHeadroomBreach with
      | ok env => simp [hclaim] at h
      | error refused =>
        have hnever : ¬BeginInterrupted actor req faults false := by
          simp [BeginInterrupted, hbegin]
        cases hclear : faults.clear with
        | before error =>
          have hleft : ClearFailed actor req faults false :=
            ⟨plan, fence, refused, error, hat, rfl, hbegin, hclaim, hclear⟩
          exact ⟨rfl, rfl, by simp [LoadFence.clear, hleft]⟩
        | after error =>
          exact ⟨rfl, rfl, by simp [LoadFence.clear, hnever, ClearFailed, hclear]⟩
        | none => exact ⟨rfl, rfl, by simp [LoadFence.clear, hnever, ClearFailed, hclear]⟩

theorem handleLoad_answered
    (h : (handleLoad actor serial caller req faults marker).answer = some result) :
    (handleLoad actor serial caller req faults marker).actor = actor ∧
      (handleLoad actor serial caller req faults marker).spawned = none ∧
      ((handleLoad actor serial caller req faults marker).marker = marker ↔
        ¬(BeginInterrupted actor req faults marker ∨ ClearFailed actor req faults marker)) := by
  by_cases hat : ∃ plan fence, AtFence actor req plan fence
  · obtain ⟨plan, fence, hat⟩ := hat
    exact hat.handleLoad_answered h
  · obtain ⟨hactor, hspawned, hmarker⟩ := handleLoad_before hat h
    refine ⟨hactor, hspawned, iff_of_true hmarker ?_⟩
    rintro (⟨plan, fence, _, hreached, -⟩ | ⟨plan, fence, _, _, hreached, -⟩)
    · exact hat ⟨plan, fence, hreached⟩
    · exact hat ⟨plan, fence, hreached⟩

end Handler

section Command

/-- `handle_load` gets the command and answers it at once. -/
def World.AnswersLoad (w : World G) (req : LoadRequest G) (faults : LoadFaults)
    (result : Except BackendError Unit) : Prop :=
  World.refusal w.actor = none ∧
    (handleLoad w.actor w.nextSerial w.callers.length req faults w.host.marker).answer =
      some result

/-- The actor, with its slots, its operation, its claim and the shared ledger, is as it was; no
operation was started and the runtime was asked for nothing. -/
structure World.Untouched (w w' : World G) : Prop where
  actor : w'.actor = w.actor
  tasks : w'.tasks = w.tasks
  started : w'.started = w.started
  chats : w'.chats = w.chats
  calls : w'.host.calls = w.host.calls
  unconfirmed : w'.host.unconfirmed = w.host.unconfirmed
  journal : w'.journal = w.journal

variable {w : World G} {req : LoadRequest G} {faults : LoadFaults}
  {result : Except BackendError Unit}

/-- A load command that is answered at once changes nothing, except that it leaves its marker
behind where it could not be created or removed completely. -/
theorem World.answered_load_untouched (h : w.AnswersLoad req faults result) :
    w.Untouched (w.load req faults) ∧
      ((w.load req faults).host.marker = w.host.marker ↔
        ¬(BeginInterrupted w.actor req faults w.host.marker ∨
          ClearFailed w.actor req faults w.host.marker)) := by
  obtain ⟨hrefusal, hanswer⟩ := h
  obtain ⟨hactor, hspawned, hmarker⟩ := handleLoad_answered hanswer
  have hload : w.load req faults =
      { w with
        host := { w.host with marker := (handleLoad w.actor w.nextSerial w.callers.length req
          faults w.host.marker).marker }
        nextSerial := w.nextSerial + 1
        callers := w.callers ++ [.load req]
        replies := w.replies ++ [⟨w.callers.length, result, none⟩] } := by
    simp [World.load, hrefusal, World.apply, hanswer, hspawned, hactor, World.register,
      World.spawn, World.answer]
  rw [hload]
  exact ⟨⟨rfl, rfl, rfl, rfl, rfl, rfl, rfl⟩, hmarker⟩

end Command

section Samples

def smallLoad : LoadRequest Int :=
  ⟨"a", Gigabytes.ofGb 1, ⟨.onDemand, .pinned false, .coexist⟩, false⟩

/-- The directory of the marker cannot be synced. -/
def unsynced : LoadFaults := ⟨.after (.internal "syncing directory"), .none⟩

def idleWorld : World Int := (idleBoot Keyed.Map.empty).world freshHost

theorem idleWorld_answers :
    idleWorld.AnswersLoad smallLoad unsynced (.error (.internal "syncing directory")) := by
  constructor
  · decide +kernel
  · decide +kernel

/-- The marker stays although no marker had to be removed. -/
theorem marker_left_behind :
    ¬∀ (w : World Int) (req : LoadRequest Int) (faults : LoadFaults)
      (result : Except BackendError Unit), w.AnswersLoad req faults result →
        w.Untouched (w.load req faults) ∧
          ((w.load req faults).host.marker = w.host.marker ∨
            ClearFailed w.actor req faults w.host.marker) := by
  intro h
  obtain ⟨-, hsame | ⟨_, _, _, _, _, -, hbegin, -⟩⟩ :=
    h idleWorld smallLoad unsynced _ idleWorld_answers
  · exact absurd hsame (by decide +kernel)
  · cases hbegin

theorem answered_load_untouched_unsynced :
    idleWorld.Untouched (idleWorld.load smallLoad unsynced) ∧
      ((idleWorld.load smallLoad unsynced).host.marker = false ↔
        ¬(BeginInterrupted idleWorld.actor smallLoad unsynced false ∨
          ClearFailed idleWorld.actor smallLoad unsynced false)) :=
  World.answered_load_untouched idleWorld_answers

end Samples

end Supervisor
