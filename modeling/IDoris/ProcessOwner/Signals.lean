import IDoris.Library.System
import IDoris.ProcessOwner.Methods

/-!
# Where the signals of an owner arrive

An owner and a system that gives the number of its group to an unrelated group as soon as nothing
is left of the owner's. The future of a method, and the owner, can be dropped wherever it waits.
-/
namespace ProcessOwner

open Interaction LocalRuntime ProcessGroup Transition
open Subscription (Reason)

section World

inductive Kind where
  | managedRuntimeProcess (platform : Platform)
  | processGroupReaper
  deriving DecidableEq

inductive Call where
  | shutdown
  | terminate
  | finishAfterParentExit
  | runControlled
  deriving DecidableEq

/-- A method takes its owner, and what it answers stays with the caller. -/
def Kind.method (polls : Nat) : Kind → Call → Option (Method Unit)
  | .managedRuntimeProcess platform, .shutdown =>
    some ((ManagedRuntimeProcess.shutdown platform polls).bind fun _ => .ret ())
  | .processGroupReaper, .terminate =>
    some ((ProcessGroupReaper.terminate polls).bind fun _ => .ret ())
  | .processGroupReaper, .finishAfterParentExit =>
    some ((ProcessGroupReaper.finishAfterParentExit polls).bind fun _ => .ret ())
  | .processGroupReaper, .runControlled =>
    some ((ProcessGroupReaper.runControlled polls).bind fun _ => .ret ())
  | _, _ => none

inductive Owner where
  | idle
  | running (rest : Method Unit)
  | dropped

/-- `delivered` has every signal that found a group, with the turn of the number it found. -/
structure World where
  number : Number
  owner : Owner
  armed : Bool
  delivered : List (Signal × Nat)

/-- `reapOther` reaps the leader of an unrelated group, or of an owner that is gone. -/
inductive Event where
  | change (c : Change)
  | reuse
  | reapOther
  | call (call : Call)
  | answer (exchange : Exchange Op Op.Answer)
  | drop

namespace World

def start : World := ⟨.spawned, .idle, true, []⟩

def deliver (w : World) (signal : Signal) : World :=
  { w with delivered := w.delivered ++ [(signal, w.number.turn)] }

def signalled (w : World) : Option Signal → World
  | some signal => w.deliver signal
  | none => w

/-- `killpg` finds any group that has the number. -/
def killpg (w : World) (signal : Option Signal) : Except Errno Unit → Option World
  | .ok () => if w.number.group.Present then some (w.signalled signal) else none
  | .error .esrch => if w.number.group.Present then none else some w
  | .error .eperm => if w.number.group.Present then some w else none
  | .error .other => some w

/-- The owner is the parent of the first leader, and of no other. -/
def reapLeader (w : World) (code : Option Int) : Option World :=
  if w.number.turn = 0 ∧ w.number.group.leader = .exited code then
    w.number.reap.map fun number => { w with number := number }
  else none

/-- Inspections and deadlines are left open. -/
def hear (w : World) : (op : Op) → op.Answer → Option World
  | .killpg signal, result => w.killpg signal result
  | .wait, .exited code => w.reapLeader code
  | .select, .parent code => w.reapLeader code
  | .disarm, () => some { w with armed := false }
  | _, _ => some w

def goOn (w : World) (rest : Method Unit) : World := { w with owner := .running rest }

/-- `Drop` kills the group of an owner that is armed. -/
def dropOwner (w : World) : World :=
  { (if w.armed ∧ w.number.group.Present then w.deliver .sigkill else w) with
    owner := .dropped, armed := false }

def ask (w : World) (exchange : Exchange Op Op.Answer) : Option World :=
  match w.owner with
  | .running (.ask op next) =>
    if h : exchange.1 = op then
      (w.hear exchange.1 exchange.2).map fun v => v.goOn (next (h ▸ exchange.2))
    else none
  | _ => none

def drop (w : World) : Option World :=
  match w.owner with
  | .idle | .running (.ret ()) => some w.dropOwner
  | .running (.ask op _) => if op.isAwait then some w.dropOwner else none
  | .dropped => none

def reapOther (w : World) : Option World :=
  match w.owner, w.number.turn with
  | .dropped, _ | _, _ + 1 => w.number.reap.map fun number => { w with number := number }
  | _, _ => none

def call (w : World) (kind : Kind) (polls : Nat) (call : Call) : Option World :=
  match w.owner with
  | .idle => (kind.method polls call).map w.goOn
  | _ => none

def step (w : World) (kind : Kind) (polls : Nat) : Event → Option World
  | .change c => (w.number.change c).map fun number => { w with number := number }
  | .reuse => w.number.reuse.map fun number => { w with number := number }
  | .reapOther => w.reapOther
  | .call name => w.call kind polls name
  | .answer exchange => w.ask exchange
  | .drop => w.drop

/-- Every interleaving of the owner and the processes. -/
def interleaving (kind : Kind) (polls : Nat) : System World Event where
  step w event v := w.step kind polls event = some v

/-- Every signal found the group of the owner. -/
def Contained (w : World) : Prop := ∀ signal ∈ w.delivered, signal.2 = 0

/-- No unrelated group gets the number of a reaper that is armed. -/
def Unshared (kind : Kind) (w : World) : Event → Prop
  | .reuse => kind = .processGroupReaper → w.armed = false
  | _ => True

instance (kind : Kind) (w : World) : (event : Event) → Decidable (w.Unshared kind event)
  | .reuse => inferInstanceAs (Decidable (_ → _))
  | .change _ | .reapOther | .call _ | .answer _ | .drop => .isTrue trivial

end World

end World

section Watch

/-- `own` says that the number can have no other group, and `armed` that a drop signals. -/
structure Watch where
  own : Bool
  armed : Bool

def reaps : (op : Op) → op.Answer → Bool
  | .wait, .exited _ => true
  | .select, .parent _ => true
  | _, _ => false

/-- Nothing is signalled and nothing is reaped. -/
def Op.isQuiet : Op → Bool
  | .waitid | .procScan | .deadlinePassed | .sleep => true
  | _ => false

/-- A number stays with the owner until its leader is reaped, and with a reaper while armed. -/
def Kind.keeps (kind : Kind) (op : Op) (answer : op.Answer) : Bool :=
  match kind with
  | .managedRuntimeProcess _ => !reaps op answer
  | .processGroupReaper => op ≠ .disarm

def watch (kind : Kind) : Monitor Op Op.Answer Watch where
  allowed s op :=
    ((∃ signal, op = .killpg (some signal)) → s.own = true) ∧
      (op.isAwait = true → s.armed = true → s.own = true)
  next s op answer := ⟨s.own && kind.keeps op answer, s.armed && op ≠ .disarm⟩

/-- A drop here signals only what is owned. -/
def Watch.Sound (s : Watch) : Prop := s.armed = true → s.own = true

variable {kind : Kind} {platform : Platform} {s : Watch} {ε α β : Type}

/-- The method leaves the watch as it is. -/
def Steady (kind : Kind) (s : Watch) (method : Method α) : Prop :=
  Safe (watch kind) (fun _ t => t = s) method s

theorem Steady.andThen {method : Method (Except ε α)} {next : α → Method (Except ε β)}
    {Q : Except ε β → Watch → Prop} (h : Steady kind s method)
    (hnext : ∀ value, Safe (watch kind) Q (next value) s) (herror : ∀ error, Q (.error error) s) :
    Safe (watch kind) Q (andThen method next) s := by
  apply Safe.bind h
  intro result t ht
  subst ht
  cases result with
  | ok value => exact hnext value
  | error error => exact herror error

theorem next_eq {op : Op} {answer : op.Answer} (hreaps : reaps op answer = false)
    (hop : op ≠ .disarm) : (watch kind).next s op answer = s := by
  cases kind <;> simp [watch, Kind.keeps, hreaps, hop]

theorem Steady.ask {op : Op} {next : op.Answer → Method α} (hop : op.isQuiet = true)
    (hawait : op.isAwait = true → s.Sound) (h : ∀ answer, Steady kind s (next answer)) :
    Steady kind s (.ask op next) := by
  refine ⟨⟨?_, hawait⟩, fun answer => ?_⟩
  · rintro ⟨signal, rfl⟩
    cases hop
  · have hnext : (watch kind).next s op answer = s := by
      cases op with
      | killpg signal => cases hop
      | wait => cases hop
      | select => cases hop
      | disarm => cases hop
      | _ => exact next_eq rfl nofun
    rw [hnext]
    exact h answer

/-- Looking for the group is allowed always, and changes nothing. -/
theorem steady_groupExists (error : ε) : Steady kind s (groupExists error) := by
  exact ⟨⟨nofun, nofun⟩, fun result => next_eq rfl nofun⟩

theorem steady_signalGroup (hs : s.own = true) (error : ε) (signal : Signal) :
    Steady kind s (signalGroup error signal) := by
  exact ⟨⟨fun _ => hs, nofun⟩, fun result => next_eq rfl nofun⟩

theorem steady_waitUntilGone {look : Method (Except ε Bool)} (hs : s.Sound)
    (hlook : Steady kind s look) (polls : Nat) : Steady kind s (waitUntilGone look polls) := by
  induction polls with
  | zero => exact hlook.andThen (fun left => rfl) (fun error => rfl)
  | succ polls ih =>
    apply hlook.andThen _ (fun error => rfl)
    intro left
    cases left with
    | false => rfl
    | true =>
      refine Steady.ask rfl nofun fun passed => ?_
      cases passed with
      | true => rfl
      | false => exact Steady.ask rfl (fun _ => hs) fun () => ih

end Watch

section Methods

variable {platform : Platform} {s : Watch}

/-- Both owners begin with their own number. -/
def Watch.full : Watch := ⟨true, true⟩

/-- What `disarm` leaves of a number that is reaped. -/
def Watch.disarmed : Watch := ⟨false, false⟩

namespace ManagedRuntimeProcess

theorem steady_childRunningWithoutReap :
    Steady (.managedRuntimeProcess platform) s childRunningWithoutReap := by
  refine Steady.ask rfl nofun fun running => ?_
  cases running <;> rfl

theorem steady_groupHasLiveMembers (on : Platform) :
    Steady (.managedRuntimeProcess platform) s (groupHasLiveMembers on) := by
  cases on with
  | otherUnix => exact steady_groupExists _
  | linux =>
    apply (steady_groupExists groupError).andThen _ (fun error => rfl)
    intro left
    cases left with
    | false => rfl
    | true =>
      refine Steady.ask rfl nofun fun live => ?_
      cases live <;> rfl

theorem steady_waitGroupCleanup (hs : s.Sound) (on : Platform) (polls : Nat) :
    Steady (.managedRuntimeProcess platform) s (waitGroupCleanup on polls) :=
  steady_waitUntilGone hs (steady_groupHasLiveMembers on) polls

theorem steady_sweep (hs : s.own = true) (leaderExited : Bool) :
    Steady (.managedRuntimeProcess platform) s (sweep leaderExited) := by
  cases leaderExited with
  | false => exact steady_signalGroup hs _ _
  | true =>
    apply (steady_groupExists groupError).andThen _ (fun error => rfl)
    intro left
    cases left with
    | true => exact steady_signalGroup hs _ _
    | false => rfl

/-- A leader that is reaped leaves a process that is disarmed. -/
theorem safe_reapLeader : Safe (watch (.managedRuntimeProcess platform))
    (fun result t => t.Sound ∧ (result.toBool = true → t = .disarmed)) reapLeader .full := by
  refine ⟨⟨nofun, fun _ _ => rfl⟩, fun waited => ?_⟩
  cases waited with
  | exited code => exact ⟨⟨nofun, nofun⟩, fun () => ⟨nofun, fun _ => rfl⟩⟩
  | failed => exact ⟨fun _ => rfl, nofun⟩
  | elapsed => exact ⟨fun _ => rfl, nofun⟩

/-- No signal follows the reaping of the leader, and no drop between it and `disarm`. -/
theorem safe_shutdown (polls : Nat) : Safe (watch (.managedRuntimeProcess platform))
    (fun _ t => t.Sound) (shutdown platform polls) .full := by
  have hfull : Watch.full.Sound := fun _ => rfl
  have hdisarmed : Watch.disarmed.Sound := nofun
  apply (steady_signalGroup rfl signalError .sigterm).andThen _ (fun _ => hfull)
  intro ()
  apply (steady_waitUntilGone hfull steady_childRunningWithoutReap polls).andThen _ (fun _ => hfull)
  intro leaderExited
  apply (steady_sweep rfl leaderExited).andThen _ (fun _ => hfull)
  intro ()
  cases platform with
  | linux =>
    apply Safe.bind (steady_waitGroupCleanup hfull .linux polls)
    rintro clean t rfl
    apply Safe.bind safe_reapLeader
    rintro (error | ⟨⟩) t ⟨hsound, -⟩
    · exact hsound
    · exact hsound
  | otherUnix =>
    apply Safe.bind safe_reapLeader
    rintro (error | ⟨⟩) t ⟨hsound, hok⟩
    · exact hsound
    · cases hok rfl
      apply Safe.bind (steady_waitGroupCleanup hdisarmed .otherUnix polls)
      rintro clean t rfl
      exact hdisarmed

end ManagedRuntimeProcess

namespace ProcessGroupReaper

/-- A reaper that waits keeps what it has; only the end disarms it. -/
theorem steady_wait {α : Type} {next : Waited → Method α}
    (h : ∀ waited, Steady .processGroupReaper .full (next waited)) :
    Steady .processGroupReaper .full (.ask .wait next) :=
  ⟨⟨nofun, fun _ _ => rfl⟩, h⟩

theorem steady_cleanupDescendants (polls : Nat) :
    Steady .processGroupReaper .full (cleanupDescendants polls) := by
  have hgone : Steady .processGroupReaper .full (waitGroupGone polls) :=
    steady_waitUntilGone (fun _ => rfl) (steady_groupExists cleanupError) polls
  apply (steady_groupExists cleanupError).andThen _ (fun error => rfl)
  intro left
  cases left with
  | false => rfl
  | true =>
    apply (steady_signalGroup rfl cleanupError .sigterm).andThen _ (fun error => rfl)
    intro ()
    apply hgone.andThen _ (fun error => rfl)
    intro gone
    cases gone with
    | true => rfl
    | false =>
      apply (steady_signalGroup rfl cleanupError .sigkill).andThen _ (fun error => rfl)
      intro ()
      apply hgone.andThen _ (fun error => rfl)
      intro gone
      cases gone <;> rfl

theorem steady_waitOr {elapsed : Reaping (Option Int × Bool)}
    (h : Steady .processGroupReaper .full elapsed) :
    Steady .processGroupReaper .full (waitOr elapsed) := by
  apply steady_wait
  intro waited
  cases waited with
  | elapsed => exact h
  | exited code => rfl
  | failed => rfl

theorem steady_killAndWait : Steady .processGroupReaper .full killAndWait := by
  apply (steady_signalGroup rfl cleanupError .sigkill).andThen _ (fun error => rfl)
  intro ()
  apply steady_wait
  intro waited
  cases waited <;> rfl

theorem safe_cleanUp (polls : Nat) (status : Option Int × Bool) :
    Safe (watch .processGroupReaper) (fun _ t => t.Sound) (cleanUp polls status) .full := by
  apply (steady_cleanupDescendants polls).andThen _ (fun error _ => rfl)
  intro killed
  exact ⟨⟨nofun, nofun⟩, fun () => nofun⟩

theorem safe_terminate (polls : Nat) :
    Safe (watch .processGroupReaper) (fun _ t => t.Sound) (terminate polls) .full := by
  apply (steady_signalGroup rfl cleanupError .sigterm).andThen _ (fun error _ => rfl)
  intro ()
  apply (steady_waitOr steady_killAndWait).andThen _ (fun error _ => rfl)
  exact safe_cleanUp polls

theorem safe_finishAfterParentExit (polls : Nat) :
    Safe (watch .processGroupReaper) (fun _ t => t.Sound) (finishAfterParentExit polls) .full := by
  have hterm : Steady .processGroupReaper .full
      (andThen (signalGroup cleanupError .sigterm) fun () => waitOr killAndWait) :=
    (steady_signalGroup rfl cleanupError .sigterm).andThen
      (fun () => steady_waitOr steady_killAndWait) fun error => rfl
  apply (steady_waitOr hterm).andThen _ (fun error _ => rfl)
  exact safe_cleanUp polls

theorem safe_outcome {reason : Reason} {method : Reaping ReapOutcome}
    (h : Safe (watch .processGroupReaper) (fun _ t => t.Sound) method s) :
    Safe (watch .processGroupReaper) (fun _ t => t.Sound) (outcome reason method) s := by
  apply Safe.bind h
  rintro (error | reap) t ht
  · exact ht
  · exact ht

theorem safe_runControlled (polls : Nat) :
    Safe (watch .processGroupReaper) (fun _ t => t.Sound) (runControlled polls) .full := by
  refine ⟨⟨nofun, fun _ _ => rfl⟩, fun selected => ?_⟩
  cases selected with
  | parent code => exact safe_outcome (safe_cleanUp polls (code, false))
  | failed => exact fun _ => rfl
  | cancelled => exact safe_outcome (safe_terminate polls)
  | timeout => exact safe_outcome (safe_terminate polls)
  | outputLimit => exact safe_outcome (safe_terminate polls)

end ProcessGroupReaper

/-- Every method of an owner, from an owner that is armed and has its number. -/
theorem safe_method {kind : Kind} {polls : Nat} {call : Call} {rest : Method Unit}
    (h : kind.method polls call = some rest) :
    Safe (watch kind) (fun _ t => t.Sound) rest .full := by
  cases kind with
  | managedRuntimeProcess platform =>
    cases call with
    | shutdown =>
      cases h
      exact Safe.bind (ManagedRuntimeProcess.safe_shutdown polls) fun _ _ ht => ht
    | terminate => cases h
    | finishAfterParentExit => cases h
    | runControlled => cases h
  | processGroupReaper =>
    cases call with
    | shutdown => cases h
    | terminate =>
      cases h
      exact Safe.bind (ProcessGroupReaper.safe_terminate polls) fun _ _ ht => ht
    | finishAfterParentExit =>
      cases h
      exact Safe.bind (ProcessGroupReaper.safe_finishAfterParentExit polls) fun _ _ ht => ht
    | runControlled =>
      cases h
      exact Safe.bind (ProcessGroupReaper.safe_runControlled polls) fun _ _ ht => ht

end Methods

namespace World

variable {kind : Kind} {polls : Nat} {w v : World} {event : Event} {labels : List Event}

section Holding

/-- The number has no other group: its leader is not reaped, or it is kept for a reaper. -/
def Holds (kind : Kind) (w : World) : Prop :=
  match kind with
  | .managedRuntimeProcess _ => w.number.Anchored
  | .processGroupReaper => w.number.turn = 0 ∧ w.armed = true

theorem Holds.turn (h : w.Holds kind) : w.number.turn = 0 := by
  cases kind <;> exact h.1

theorem Holds.change {c : Change} {number : Number} (h : w.Holds kind)
    (hc : w.number.change c = some number) : ({ w with number := number } : World).Holds kind := by
  cases kind with
  | managedRuntimeProcess platform => exact Number.Anchored.change h hc
  | processGroupReaper => exact ⟨(Number.turn_of_change hc).trans h.1, h.2⟩

/-- The number of a group that is held is not used again. -/
theorem Holds.not_reuse (h : w.Holds kind) (hunshared : w.Unshared kind .reuse) :
    w.number.reuse = none := by
  cases kind with
  | managedRuntimeProcess platform => exact h.not_reuse
  | processGroupReaper => exact absurd ((hunshared rfl).symm.trans h.2) nofun

end Holding

section Contained

theorem Contained.deliver {signal : Signal} (h : w.Contained) (hturn : w.number.turn = 0) :
    (w.deliver signal).Contained := by
  intro sent hsent
  obtain hsent | hsent := List.mem_append.mp hsent
  · exact h sent hsent
  · rw [List.mem_singleton.mp hsent]
    exact hturn

theorem Contained.dropOwner (h : w.Contained) (hown : w.armed = true → w.number.turn = 0) :
    w.dropOwner.Contained := by
  unfold World.dropOwner
  split
  case isTrue harmed => exact h.deliver (hown harmed.1)
  case isFalse => exact h

end Contained

/-- The watch describes the world. -/
structure Watched (kind : Kind) (s : Watch) (w : World) : Prop where
  armed : s.armed = w.armed
  own : s.own = true → w.Holds kind

section Watched

variable {s : Watch}

theorem Watched.keep {op : Op} {answer : op.Answer} (h : w.Watched kind s)
    (hreaps : reaps op answer = false) (hop : op ≠ .disarm) :
    w.Watched kind ((watch kind).next s op answer) := by
  rw [next_eq hreaps hop]
  exact h

/-- What is reaped is no longer the number of a process; a reaper keeps it. -/
theorem Watched.reap {op : Op} {answer : op.Answer} {code : Option Int} (h : w.Watched kind s)
    (hreaps : reaps op answer = true) (hop : op ≠ .disarm) (hreap : w.reapLeader code = some v) :
    v.Watched kind ((watch kind).next s op answer) ∧ v.delivered = w.delivered := by
  unfold reapLeader at hreap
  split at hreap
  case isTrue =>
    obtain ⟨number, hnumber, rfl⟩ := Option.map_eq_some_iff.mp hreap
    refine ⟨⟨?_, ?_⟩, rfl⟩
    · simpa [watch, hop] using h.armed
    · intro hown
      cases kind with
      | managedRuntimeProcess platform => simp [watch, Kind.keeps, hreaps] at hown
      | processGroupReaper =>
        have hs : s.own = true := by
          simp only [watch, Bool.and_eq_true] at hown
          exact hown.1
        exact ⟨(Number.turn_of_reap hnumber).trans (h.own hs).1, (h.own hs).2⟩
  case isFalse => cases hreap

theorem Watched.disarm (h : w.Watched kind s) : ({ w with armed := false } : World).Watched kind
    ((watch kind).next s .disarm ()) := by
  refine ⟨by simp [watch], ?_⟩
  intro hown
  cases kind with
  | managedRuntimeProcess platform =>
    simp only [watch, Bool.and_eq_true] at hown
    exact h.own hown.1
  | processGroupReaper => simp [watch, Kind.keeps] at hown

theorem Watched.killpg {signal : Option Signal} {result : Except Errno Unit}
    (h : w.Watched kind s) (hallowed : (watch kind).allowed s (.killpg signal))
    (hcontained : w.Contained) (hkill : w.killpg signal result = some v) :
    v.Watched kind s ∧ v.Contained := by
  have hsame : w.Watched kind s ∧ w.Contained := ⟨h, hcontained⟩
  unfold World.killpg at hkill
  split at hkill
  · simp only [Option.ite_none_right_eq_some, Option.some.injEq] at hkill
    obtain ⟨-, rfl⟩ := hkill
    cases signal with
    | none => exact hsame
    | some signal =>
      refine ⟨⟨h.armed, fun hown => h.own hown⟩, ?_⟩
      exact hcontained.deliver (h.own (hallowed.1 ⟨signal, rfl⟩)).turn
  · simp only [Option.ite_none_left_eq_some, Option.some.injEq] at hkill
    exact hkill.2 ▸ hsame
  · simp only [Option.ite_none_right_eq_some, Option.some.injEq] at hkill
    exact hkill.2 ▸ hsame
  · exact Option.some.inj hkill ▸ hsame

/-- One question and its answer. -/
theorem Watched.hear {op : Op} {answer : op.Answer} (h : w.Watched kind s)
    (hallowed : (watch kind).allowed s op) (hcontained : w.Contained)
    (hear : w.hear op answer = some v) :
    v.Watched kind ((watch kind).next s op answer) ∧ v.Contained := by
  have hreaped : ∀ code, reaps op answer = true → op ≠ .disarm → w.reapLeader code = some v →
      v.Watched kind ((watch kind).next s op answer) ∧ v.Contained := by
    intro code hreaps hop hreap
    obtain ⟨hwatched, hdelivered⟩ := h.reap hreaps hop hreap
    refine ⟨hwatched, ?_⟩
    unfold Contained
    rw [hdelivered]
    exact hcontained
  have hkept : w = v → reaps op answer = false → op ≠ .disarm →
      v.Watched kind ((watch kind).next s op answer) ∧ v.Contained := by
    rintro rfl hreaps hop
    exact ⟨h.keep hreaps hop, hcontained⟩
  cases op with
  | killpg signal =>
    have hnext : (watch kind).next s (.killpg signal) answer = s := next_eq rfl nofun
    rw [hnext]
    exact h.killpg hallowed hcontained hear
  | disarm =>
    cases hear
    exact ⟨h.disarm, hcontained⟩
  | wait =>
    cases answer with
    | exited code => exact hreaped code rfl nofun hear
    | failed => exact hkept (Option.some.inj hear) rfl nofun
    | elapsed => exact hkept (Option.some.inj hear) rfl nofun
  | select =>
    cases answer with
    | parent code => exact hreaped code rfl nofun hear
    | failed => exact hkept (Option.some.inj hear) rfl nofun
    | cancelled => exact hkept (Option.some.inj hear) rfl nofun
    | timeout => exact hkept (Option.some.inj hear) rfl nofun
    | outputLimit => exact hkept (Option.some.inj hear) rfl nofun
  | waitid => exact hkept (Option.some.inj hear) rfl nofun
  | procScan => exact hkept (Option.some.inj hear) rfl nofun
  | deadlinePassed => exact hkept (Option.some.inj hear) rfl nofun
  | sleep => exact hkept (Option.some.inj hear) rfl nofun

end Watched

section Steps

/-- What is left of the method is watched, and every signal so far found the owner's group. -/
structure Guarded (kind : Kind) (w : World) : Prop where
  contained : w.Contained
  idle : w.owner = .idle → w.armed = true ∧ w.Holds kind
  running : ∀ rest, w.owner = .running rest → ∃ s, w.Watched kind s ∧
    Safe (watch kind) (fun _ t => t.Sound) rest s

theorem guarded_start : start.Guarded kind where
  contained := nofun
  idle _ := by
    cases kind with
    | managedRuntimeProcess platform => exact ⟨rfl, Number.anchored_spawned⟩
    | processGroupReaper => exact ⟨rfl, rfl, rfl⟩
  running := nofun

/-- The number changes, and what holds it does not. -/
theorem Guarded.renumber {number : Number} (h : w.Guarded kind)
    (hholds : w.Holds kind → ({ w with number := number } : World).Holds kind) :
    ({ w with number := number } : World).Guarded kind where
  contained := h.contained
  idle hidle := ⟨(h.idle hidle).1, hholds (h.idle hidle).2⟩
  running rest hrest := by
    obtain ⟨s, hs, hsafe⟩ := h.running rest hrest
    exact ⟨s, ⟨hs.armed, fun hown => hholds (hs.own hown)⟩, hsafe⟩

theorem Guarded.reapOther (h : w.Guarded kind) (hreap : w.reapOther = some v) :
    v.Guarded kind := by
  unfold World.reapOther at hreap
  split at hreap
  · next howner =>
    obtain ⟨number, hnumber, rfl⟩ := Option.map_eq_some_iff.mp hreap
    exact ⟨h.contained, fun hidle => absurd (howner.symm.trans hidle) nofun,
      fun rest hrest => absurd (howner.symm.trans hrest) nofun⟩
  · next hturn _ =>
    obtain ⟨number, hnumber, rfl⟩ := Option.map_eq_some_iff.mp hreap
    exact h.renumber fun hholds => absurd (hturn.symm.trans hholds.turn) nofun
  · cases hreap

theorem Guarded.call {name : Call} (h : w.Guarded kind) (hcall : w.call kind polls name = some v) :
    v.Guarded kind := by
  unfold World.call at hcall
  split at hcall
  case h_1 howner =>
    obtain ⟨rest, hrest, rfl⟩ := Option.map_eq_some_iff.mp hcall
    obtain ⟨harmed, hholds⟩ := h.idle howner
    refine ⟨h.contained, nofun, ?_⟩
    rintro _ ⟨⟩
    exact ⟨.full, ⟨harmed.symm, fun _ => hholds⟩, safe_method hrest⟩
  case h_2 => cases hcall

theorem Guarded.ask {exchange : Exchange Op Op.Answer} (h : w.Guarded kind)
    (hask : w.ask exchange = some v) : v.Guarded kind := by
  obtain ⟨asked, answer⟩ := exchange
  unfold World.ask at hask
  split at hask
  case h_1 op next howner =>
    split at hask
    case isTrue hop =>
      cases hop
      obtain ⟨u, hear, rfl⟩ := Option.map_eq_some_iff.mp hask
      obtain ⟨s, hs, hallowed, hsafe⟩ := h.running _ howner
      obtain ⟨hwatched, hcontained⟩ := hs.hear hallowed h.contained hear
      refine ⟨hcontained, nofun, ?_⟩
      rintro _ ⟨⟩
      exact ⟨_, ⟨hwatched.armed, hwatched.own⟩, hsafe answer⟩
    case isFalse => cases hask
  case h_2 => cases hask

theorem guarded_dropOwner (h : w.Contained) (hown : w.armed = true → w.number.turn = 0) :
    w.dropOwner.Guarded kind :=
  ⟨h.dropOwner hown, nofun, nofun⟩

theorem Guarded.drop (h : w.Guarded kind) (hdrop : w.drop = some v) : v.Guarded kind := by
  unfold World.drop at hdrop
  split at hdrop
  · next howner =>
    cases hdrop
    exact guarded_dropOwner h.contained fun _ => (h.idle howner).2.turn
  · next howner =>
    cases hdrop
    obtain ⟨s, hs, hsound⟩ := h.running _ howner
    exact guarded_dropOwner h.contained fun harmed =>
      (hs.own (hsound (hs.armed.trans harmed))).turn
  · next op next howner =>
    simp only [Option.ite_none_right_eq_some, Option.some.injEq] at hdrop
    obtain ⟨hawait, rfl⟩ := hdrop
    obtain ⟨s, hs, hallowed, -⟩ := h.running _ howner
    exact guarded_dropOwner h.contained fun harmed =>
      (hs.own (hallowed.2 hawait (hs.armed.trans harmed))).turn
  · cases hdrop

theorem Guarded.step (h : w.Guarded kind) (hunshared : w.Unshared kind event)
    (hstep : w.step kind polls event = some v) : v.Guarded kind := by
  cases event with
  | change c =>
    obtain ⟨number, hnumber, rfl⟩ := Option.map_eq_some_iff.mp hstep
    exact h.renumber fun hholds => hholds.change hnumber
  | reuse =>
    obtain ⟨number, hnumber, rfl⟩ := Option.map_eq_some_iff.mp hstep
    exact h.renumber fun hholds =>
      absurd ((hholds.not_reuse hunshared).symm.trans hnumber) nofun
  | reapOther => exact h.reapOther hstep
  | call name => exact h.call hstep
  | answer exchange => exact h.ask hstep
  | drop => exact h.drop hstep

end Steps

/-- While no unrelated group gets the number of an armed reaper, every signal finds the group of
the owner. The condition asks nothing of a `ManagedRuntimeProcess`. -/
theorem signals_contained (kind : Kind) (polls : Nat) (labels : List Event) (w : World)
    (h : ((interleaving kind polls).restrict (Unshared kind)).Run start labels w) :
    w.Contained := by
  have hguarded : w.Guarded kind := by
    refine h.invariant (Guarded kind) ?_ guarded_start
    intro t event u ht hstep
    exact ht.step hstep.1 hstep.2
  exact hguarded.contained

/-- A `ManagedRuntimeProcess` signals no unrelated group in any run. -/
theorem managedRuntimeProcess_contained {platform : Platform}
    (h : (interleaving (.managedRuntimeProcess platform) polls).Run start labels w) :
    w.Contained := by
  have hguarded : w.Guarded (.managedRuntimeProcess platform) := by
    refine h.invariant (Guarded (.managedRuntimeProcess platform)) ?_ guarded_start
    intro t event u ht hstep
    have hunshared : t.Unshared (.managedRuntimeProcess platform) event := by
      cases event with
      | reuse => exact nofun
      | _ => exact trivial
    exact ht.step hunshared hstep
  exact hguarded.contained

def unsharedStep (kind : Kind) (polls : Nat) (w : World) (event : Event) : Option World :=
  if w.Unshared kind event then w.step kind polls event else none

/-- The leader exits by itself and a descendant is swept; the number is used again after that. -/
def sweptRun : List Event :=
  [.call .runControlled, .change .fork, .change (.leaderExits (some 0)),
    .answer ⟨.select, .parent (some 0)⟩, .answer ⟨.killpg none, .ok ()⟩,
    .answer ⟨.killpg (some .sigterm), .ok ()⟩, .answer ⟨.killpg none, .ok ()⟩,
    .answer ⟨.deadlinePassed, false⟩, .change .descendantExits, .change .descendantReaped,
    .answer ⟨.sleep, ()⟩, .answer ⟨.killpg none, .error .esrch⟩, .answer ⟨.disarm, ()⟩, .reuse,
    .drop]

theorem signals_contained_swept : ∃ w,
    ((interleaving .processGroupReaper 1).restrict (Unshared .processGroupReaper)).Run start
      sweptRun w ∧ w.number.turn = 1 ∧ w.delivered = [(.sigterm, 0)] ∧ w.Contained := by
  obtain ⟨w, hw, hturn, hdelivered⟩ : ∃ w,
      sweptRun.foldlM (unsharedStep .processGroupReaper 1) start = some w ∧ w.number.turn = 1 ∧
        w.delivered = [(.sigterm, 0)] := ⟨_, rfl, rfl, rfl⟩
  have hrun := System.run_of_foldlM (S := (interleaving .processGroupReaper 1).restrict
    (Unshared .processGroupReaper)) (fun s event t h => by
      simpa [unsharedStep, System.restrict, interleaving] using h) hw
  exact ⟨w, hrun, hturn, hdelivered, signals_contained .processGroupReaper 1 sweptRun w hrun⟩

/-- The leader is reaped, its number is used again, and the sweep of the descendants begins. -/
def reusedRun : List Event :=
  [.call .runControlled, .change (.leaderExits (some 0)), .answer ⟨.select, .parent (some 0)⟩,
    .reuse, .answer ⟨.killpg none, .ok ()⟩, .answer ⟨.killpg (some .sigterm), .ok ()⟩]

/-- A `SIGTERM` of the reaper finds an unrelated group. -/
theorem signals_foreign : ∃ labels w,
    (interleaving .processGroupReaper 1).Run start labels w ∧ ¬w.Contained := by
  obtain ⟨w, hw, hdelivered⟩ : ∃ w,
      reusedRun.foldlM (fun s event => s.step .processGroupReaper 1 event) start = some w ∧
        w.delivered = [(.sigterm, 1)] := ⟨_, rfl, rfl⟩
  refine ⟨reusedRun, w, System.run_of_foldlM (fun _ _ _ h => h) hw, ?_⟩
  intro hcontained
  rw [Contained, hdelivered] at hcontained
  exact absurd (hcontained _ List.mem_cons_self) nofun

end World

end ProcessOwner
