import IDoris.Policy.Breaker
import Mathlib.Data.List.Count
import Mathlib.Logic.Function.Basic

/-!
# Probe discipline of a population of breakers

Breakers are created and cloned, and any unreported ticket may be handed to any of
them. Tickets are one-shot: a report takes the ticket out of the outstanding ones.
-/
namespace Policy

namespace Breaker

variable {b : Breaker} {t : AdmissionTicket} {r : Report} {nowMs ms : Nat}
  {tickets : List AdmissionTicket}

/-- The ticket belongs to this breaker and to its current generation. -/
def Current (b : Breaker) (t : AdmissionTicket) : Prop :=
  t.issuer = b.issuer ∧ t.generation = b.generation

theorem Current.eq_ticket (h : b.Current t) : t = b.ticket t.probe := by
  obtain ⟨hissuer, hgeneration⟩ := h
  cases t
  simp_all [ticket]

/-- A change of state that keeps the generation. -/
def setState (b : Breaker) (s : State) : Breaker := { b with state := s }

/-- What the success of the current probe does. -/
def close (b : Breaker) : Breaker :=
  { b with state := .closed 0, openCohort := none, generation := saturatingAdd b.generation 1 }

theorem reopen_reopen (h : saturatingAdd b.generation 1 = b.generation) (u v : Nat) :
    (b.reopen u).reopen v = b.reopen v := by
  simp only [reopen, h]

/-- Everything a report can do to a breaker. -/
inductive Effect (b : Breaker) (t : AdmissionTicket) : Report → Breaker → Prop where
  | unchanged {r : Report} : Effect b t r b
  | counted {r : Report} (f g : Nat) (state : b.state = .closed f) (current : b.Current t) :
      Effect b t r (b.setState (.closed g))
  | closed (half : b.state.isHalfOpen = true) (current : b.Current t) (probe : t.probe = true) :
      Effect b t .success b.close
  | reopened {r : Report} (u : Nat) (current : b.Current t)
      (probe : b.state.isHalfOpen = true → t.probe = true) : Effect b t r (b.reopen u)
  | extended {r : Report} (u v : Nat) (state : b.state = .opened u) (le : u ≤ v)
      (own : t.issuer = b.issuer) (cohort : b.openCohort = some t.generation)
      (header : r.hasRetryAfter = true) : Effect b t r (b.setState (.opened v))

theorem le_retryUntil {u : Nat} (h : b.state = .opened u) : u ≤ b.retryUntil t nowMs ms := by
  simp only [retryUntil, h]
  exact Nat.le_max_left _ _

theorem onSuccess_effect : Effect b t .success (b.onSuccess t) := by
  unfold onSuccess
  split
  · exact .unchanged
  · rename_i hissuer
    split
    · exact .unchanged
    · rename_i hgeneration
      have hcurrent : b.Current t := ⟨not_not.mp hissuer, not_not.mp hgeneration⟩
      split
      · rename_i hstate
        split
        · rename_i hprobe
          exact .closed (by rw [hstate]; rfl) hcurrent hprobe
        · exact .unchanged
      · rename_i hstate
        exact .counted _ 0 hstate hcurrent
      · exact .unchanged

theorem onFailure_effect : Effect b t r (b.onFailure t nowMs) := by
  unfold onFailure
  split
  · exact .unchanged
  · rename_i hissuer
    split
    · exact .unchanged
    · rename_i hgeneration
      have hcurrent : b.Current t := ⟨not_not.mp hissuer, not_not.mp hgeneration⟩
      split
      · exact .unchanged
      · rename_i hprobe
        have hprobe : b.state.isHalfOpen = true → t.probe = true := by
          intro hhalf
          simpa [hhalf] using hprobe
        split
        · rename_i f hstate
          split
          · exact .counted f (f + 1) hstate hcurrent
          · exact .reopened _ hcurrent hprobe
        · exact .unchanged
        · exact .reopened _ hcurrent hprobe

theorem onRetryAfter_effect (h : r.hasRetryAfter = true) :
    Effect b t r (b.onRetryAfter t nowMs ms) := by
  unfold onRetryAfter
  split
  · exact .unchanged
  · rename_i hissuer
    split
    · exact .unchanged
    · rename_i hprobe
      have hprobe : b.state.isHalfOpen = true → t.probe = true := by
        intro hhalf
        simpa [hhalf] using hprobe
      split
      · rename_i hgeneration
        exact .reopened _ ⟨not_not.mp hissuer, hgeneration⟩ hprobe
      · split
        · rename_i hcohort
          simp only [Bool.and_eq_true, decide_eq_true_eq] at hcohort
          obtain ⟨hopen, hcohort⟩ := hcohort
          cases hstate : b.state with
          | opened u => exact .extended u _ hstate (le_retryUntil hstate) (not_not.mp hissuer) hcohort h
          | closed f => rw [hstate] at hopen; cases hopen
          | halfOpen p => rw [hstate] at hopen; cases hopen
        · exact .unchanged

/-- After a failure of a current ticket its header can only move the end of the window. -/
theorem reopen_onRetryAfter (u nowMs ms : Nat) (h : b.Current t) :
    ∃ v, (b.reopen u).onRetryAfter t nowMs ms = b.reopen v := by
  obtain ⟨hissuer, hgeneration⟩ := h
  unfold onRetryAfter
  rw [if_neg (by simpa [reopen] using hissuer), if_neg (by simp [reopen, State.isHalfOpen])]
  split
  · rename_i hsame
    rw [hgeneration] at hsame
    exact ⟨_, reopen_reopen hsame.symm u _⟩
  · rw [if_pos (by simp [reopen, State.isOpen, hgeneration])]
    exact ⟨_, rfl⟩

theorem setState_onRetryAfter {f : Nat} (h : b.Current t) :
    (b.setState (.closed f)).onRetryAfter t nowMs ms =
      b.reopen ((b.setState (.closed f)).retryUntil t nowMs ms) := by
  obtain ⟨hissuer, hgeneration⟩ := h
  unfold onRetryAfter
  rw [if_neg (by simpa [setState] using hissuer), if_neg (by simp [setState, State.isHalfOpen]),
    if_pos (by simpa [setState] using hgeneration)]
  rfl

theorem report_effect : Effect b t r (b.report t r) := by
  cases r with
  | success => exact onSuccess_effect
  | failure nowMs => exact onFailure_effect
  | retryAfter nowMs ms => exact onRetryAfter_effect rfl
  | failureWithRetryAfter nowMs header =>
    cases header with
    | none => exact onFailure_effect
    | some ms =>
      have hheader : (Report.failureWithRetryAfter nowMs (some ms)).hasRetryAfter = true := rfl
      have hfailure : Effect b t (.failure nowMs) (b.onFailure t nowMs) := onFailure_effect
      simp only [report, onFailureWithRetryAfter]
      generalize b.onFailure t nowMs = c at hfailure
      cases hfailure with
      | unchanged => exact onRetryAfter_effect hheader
      | counted f g hstate hcurrent =>
        rw [setState_onRetryAfter hcurrent]
        exact .reopened _ hcurrent (by simp [hstate, State.isHalfOpen])
      | reopened u hcurrent hprobe =>
        obtain ⟨v, hv⟩ := reopen_onRetryAfter u nowMs ms hcurrent
        rw [hv]
        exact .reopened v hcurrent hprobe
      | extended u v hstate hle hown hcohort hnone => cases hnone

/-- What the outstanding tickets say about the state they were issued in. -/
def Phase (b : Breaker) (tickets : List AdmissionTicket) : Prop :=
  match b.state with
  | .closed _ => b.ticket true ∉ tickets
  | .opened _ => b.ticket true ∉ tickets ∧ b.ticket false ∉ tickets ∧
      ∃ c, b.openCohort = some c ∧ c + 1 = b.generation
  | .halfOpen probing => probing = true ∧ b.ticket false ∉ tickets ∧
      tickets.count (b.ticket true) ≤ 1

structure Accounted (b : Breaker) (tickets : List AdmissionTicket) : Prop where
  past : ∀ t ∈ tickets, t.issuer = b.issuer → t.generation ≤ b.generation
  phase : b.Phase tickets

/-- Tickets that vanish, and tickets of other breakers, change nothing. -/
theorem Accounted.of_le {fewer : List AdmissionTicket} (h : b.Accounted tickets)
    (hle : ∀ t, t.issuer = b.issuer → fewer.count t ≤ tickets.count t) : b.Accounted fewer := by
  have hmem : ∀ t, t.issuer = b.issuer → t ∈ fewer → t ∈ tickets := by
    intro t hown ht
    have := hle t hown
    have := List.count_pos_iff.mpr ht
    exact List.count_pos_iff.mp (by omega)
  obtain ⟨hpast, hphase⟩ := h
  constructor
  · intro t ht hown
    exact hpast t (hmem t hown ht) hown
  · unfold Phase at hphase ⊢
    cases hstate : b.state with
    | closed f =>
      rw [hstate] at hphase
      exact fun ht => hphase (hmem _ rfl ht)
    | opened u =>
      rw [hstate] at hphase
      obtain ⟨htrue, hfalse, hcohort⟩ := hphase
      exact ⟨fun ht => htrue (hmem _ rfl ht), fun ht => hfalse (hmem _ rfl ht), hcohort⟩
    | halfOpen p =>
      rw [hstate] at hphase
      obtain ⟨hprobing, hfalse, hcount⟩ := hphase
      exact ⟨hprobing, fun ht => hfalse (hmem _ rfl ht), Nat.le_trans (hle _ rfl) hcount⟩

theorem Accounted.erase (h : b.Accounted tickets) : b.Accounted (tickets.erase t) :=
  h.of_le fun _ _ => (List.erase_sublist ..).count_le _

/-- No ticket is of a generation that has only just begun. -/
theorem Accounted.fresh (h : b.Accounted tickets) {c : Breaker} (hissuer : c.issuer = b.issuer)
    (hgeneration : c.generation = b.generation + 1) (probe : Bool) : c.ticket probe ∉ tickets := by
  intro ht
  have := h.past _ ht hissuer
  simp only [ticket] at this
  omega

/-- A report keeps the account of the breaker it is made to. -/
theorem Accounted.effect {c : Breaker} (h : b.Accounted tickets) (hlt : b.generation < u64Max)
    (hc : Effect b t r c) : c.Accounted tickets := by
  have hgrow := saturatingAdd_of_lt hlt
  cases hc with
  | unchanged => exact h
  | counted f g hstate hcurrent =>
    constructor
    · exact h.past
    · have hphase := h.phase
      simp only [Phase, hstate] at hphase
      exact hphase
  | closed hhalf hcurrent hprobe =>
    constructor
    · intro t ht hown
      have := h.past t ht hown
      simp only [close, hgrow]
      omega
    · have hfresh := h.fresh (c := b.close) rfl hgrow
      exact hfresh true
  | reopened u hcurrent hprobe =>
    constructor
    · intro t ht hown
      have := h.past t ht hown
      simp only [reopen, hgrow]
      omega
    · have hfresh := h.fresh (c := b.reopen u) rfl hgrow
      exact ⟨hfresh true, hfresh false, b.generation, rfl, hgrow.symm⟩
  | extended u v hstate hle hown hcohort hheader =>
    constructor
    · exact h.past
    · have hphase := h.phase
      simp only [Phase, hstate] at hphase
      exact hphase

/-- Everything an admission can do. -/
inductive Admitted (b : Breaker) : Breaker × Admit → Prop where
  | allowed (f : Nat) (state : b.state = .closed f) :
      Admitted b (b, ⟨.allowed, some (b.ticket false)⟩)
  | rejected (ms : Nat) : Admitted b (b, ⟨.rejected ms, none⟩)
  | probe (free : b.state ≠ .halfOpen true) (ready : b.state.isClosed = false) :
      Admitted b (b.claimProbe, ⟨.probe, some (b.ticket true)⟩)

theorem admit_cases : Admitted b (b.admitAt nowMs) := by
  unfold admitAt
  split
  · exact .allowed _ ‹_›
  · rename_i hstate
    split
    · exact .rejected _
    · exact .probe (by simp [hstate]) (by simp [hstate, State.isClosed])
  · rename_i hstate
    exact .probe (by simp [hstate]) (by simp [hstate, State.isClosed])
  · exact .rejected 0

theorem admit_halfOpen (h : b.state = .halfOpen true) :
    b.admitAt nowMs = (b, ⟨.rejected 0, none⟩) := by
  simp only [admitAt, h]

end Breaker

/-- The outstanding tickets after an admission. -/
def Admit.issue (a : Admit) (tickets : List AdmissionTicket) : List AdmissionTicket :=
  a.ticket.toList ++ tickets

namespace Breaker

variable {b : Breaker} {nowMs : Nat} {tickets : List AdmissionTicket}

theorem Accounted.admitAt (h : b.Accounted tickets) :
    (b.admitAt nowMs).1.Accounted ((b.admitAt nowMs).2.issue tickets) := by
  have hcases : Admitted b (b.admitAt nowMs) := admit_cases
  generalize b.admitAt nowMs = a at hcases
  cases hcases with
  | rejected ms => exact h
  | allowed f hstate =>
    constructor
    · intro t ht hown
      rcases List.mem_cons.mp ht with rfl | ht
      · exact Nat.le_refl _
      · exact h.past t ht hown
    · have hphase := h.phase
      simp only [Phase, hstate] at hphase
      simpa [Phase, hstate, Admit.issue, ticket] using hphase
  | probe hfree hready =>
    constructor
    · intro t ht hown
      rcases List.mem_cons.mp ht with rfl | ht
      · exact Nat.le_refl _
      · exact h.past t ht hown
    · have hphase := h.phase
      unfold Phase at hphase
      cases hstate : b.state with
      | closed f => simp [hstate, State.isClosed] at hready
      | halfOpen p =>
        rw [hstate] at hphase hfree
        obtain ⟨hprobing, -, -⟩ := hphase
        exact absurd (by rw [hprobing]) hfree
      | opened u =>
        rw [hstate] at hphase
        obtain ⟨htrue, hfalse, -⟩ := hphase
        have hnone : tickets.count (b.ticket true) = 0 := List.count_eq_zero.mpr htrue
        have hfalse : b.ticket false ∉ b.ticket true :: tickets := by
          simpa [ticket] using hfalse
        have hone : (b.ticket true :: tickets).count (b.ticket true) ≤ 1 := by
          rw [List.count_cons_self]
          omega
        exact ⟨rfl, hfalse, hone⟩

theorem Accounted.other {c : Breaker} (h : c.Accounted tickets) (hne : c.issuer ≠ b.issuer) :
    c.Accounted ((b.admitAt nowMs).2.issue tickets) := by
  have hcases : Admitted b (b.admitAt nowMs) := admit_cases
  generalize b.admitAt nowMs = a at hcases
  have hcons : ∀ p, c.Accounted (b.ticket p :: tickets) := by
    intro p
    refine h.of_le fun t hown => ?_
    have hdiff : b.ticket p ≠ t := by
      rintro rfl
      exact hne hown.symm
    exact Nat.le_of_eq (List.count_cons_of_ne hdiff)
  cases hcases with
  | rejected ms => exact h
  | allowed f hstate => exact hcons false
  | probe hfree hready => exact hcons true

end Breaker

/-- Every breaker there is, under the id it was issued, with the unreported tickets. -/
structure Fleet where
  nextIssuer : Nat
  breakers : Nat → Option Breaker
  tickets : List AdmissionTicket

inductive FleetEvent where
  | create (credential : CredentialClass)
  | clone (i : Nat)
  | admitAt (i nowMs : Nat)
  | report (i : Nat) (t : AdmissionTicket) (r : Report)

namespace Fleet

def start : Fleet := ⟨0, fun _ => none, []⟩

def put (w : Fleet) (i : Nat) (b : Breaker) : Fleet :=
  { w with breakers := Function.update w.breakers i (some b) }

/-- Issuer ids are never reused; the process gives up when they are exhausted. -/
def enlist (w : Fleet) (build : Nat → Breaker) : Fleet :=
  if w.nextIssuer < u64Max then
    { w.put w.nextIssuer (build w.nextIssuer) with nextIssuer := w.nextIssuer + 1 }
  else w

def step (w : Fleet) : FleetEvent → Fleet
  | .create credential => w.enlist fun issuer => Breaker.new issuer credential
  | .clone i =>
    match w.breakers i with
    | none => w
    | some b => w.enlist b.clone
  | .admitAt i nowMs =>
    match w.breakers i with
    | none => w
    | some b => { w.put i (b.admitAt nowMs).1 with tickets := (b.admitAt nowMs).2.issue w.tickets }
  | .report i t r =>
    match w.breakers i with
    | none => w
    | some b =>
      if t ∈ w.tickets then { w.put i (b.report t r) with tickets := w.tickets.erase t } else w

def run (w : Fleet) (events : List FleetEvent) : Fleet := events.foldl step w

/-- The books of the whole population; a breaker at the last generation keeps none. -/
structure Sound (w : Fleet) : Prop where
  own : ∀ i b, w.breakers i = some b → b.issuer = i ∧ i < w.nextIssuer
  issued : ∀ t ∈ w.tickets, t.issuer < w.nextIssuer
  accounted : ∀ i b, w.breakers i = some b → b.generation < u64Max → b.Accounted w.tickets

variable {w : Fleet} {i j : Nat} {b c : Breaker}

@[simp] theorem put_nextIssuer : (w.put i b).nextIssuer = w.nextIssuer := rfl
@[simp] theorem put_tickets : (w.put i b).tickets = w.tickets := rfl

theorem put_breakers : (w.put i b).breakers j = if j = i then some b else w.breakers j := by
  simp only [put, Function.update_apply]

theorem start_sound : start.Sound where
  own := by
    intro i b h
    cases h
  issued := by
    intro t ht
    cases ht
  accounted := by
    intro i b h
    cases h

/-- A new breaker has no tickets yet; `build` says how far its state is consistent. -/
theorem Sound.enlist {build : Nat → Breaker} (h : w.Sound)
    (hissuer : ∀ issuer, (build issuer).issuer = issuer)
    (hphase : ∀ issuer, (build issuer).generation < u64Max →
      (∀ t ∈ w.tickets, t.issuer ≠ issuer) → (build issuer).Phase w.tickets) :
    (w.enlist build).Sound := by
  obtain ⟨hown, hissued, haccounted⟩ := h
  unfold Fleet.enlist
  split
  · have hforeign : ∀ t ∈ w.tickets, t.issuer ≠ w.nextIssuer := by
      intro t ht
      have := hissued t ht
      omega
    constructor
    · intro j c hc
      simp only [put_breakers] at hc
      simp only
      split at hc
      · rename_i hj
        cases hc
        exact ⟨by rw [hissuer, hj], by omega⟩
      · have := hown j c hc
        exact ⟨this.1, by omega⟩
    · intro t ht
      have := hissued t ht
      simp only
      omega
    · intro j c hc hlt
      simp only [put_breakers] at hc
      split at hc
      · cases hc
        constructor
        · intro t ht heq
          exact absurd (heq.trans (hissuer _)) (hforeign t ht)
        · exact hphase _ hlt hforeign
      · exact haccounted j c hc hlt
  · exact ⟨hown, hissued, haccounted⟩

theorem Sound.create {credential : CredentialClass} (h : w.Sound) :
    (w.step (.create credential)).Sound := by
  change (w.enlist fun issuer => Breaker.new issuer credential).Sound
  refine h.enlist (fun _ => rfl) fun issuer _ hforeign => ?_
  simp only [Breaker.Phase, Breaker.new]
  exact fun ht => hforeign _ ht rfl

theorem Sound.clone (h : w.Sound) : (w.step (.clone i)).Sound := by
  simp only [Fleet.step]
  cases hb : w.breakers i with
  | none => exact h
  | some b =>
    refine h.enlist (fun _ => rfl) fun issuer hlt hforeign => ?_
    have hphase := (h.accounted i b hb hlt).phase
    have hno : ∀ p, (b.clone issuer).ticket p ∉ w.tickets := fun p ht => hforeign _ ht rfl
    unfold Breaker.Phase at hphase ⊢
    cases hstate : b.state with
    | closed f =>
      simp only [Breaker.clone, hstate]
      exact hno true
    | opened u =>
      rw [hstate] at hphase
      simp only [Breaker.clone, hstate]
      exact ⟨hno true, hno false, hphase.2.2⟩
    | halfOpen p =>
      rw [hstate] at hphase
      simp only [Breaker.clone, hstate]
      refine ⟨hphase.1, hno false, ?_⟩
      have hzero := List.count_eq_zero.mpr (hno true)
      simp only [Breaker.clone, hstate] at hzero
      omega

theorem Sound.admitAt {nowMs : Nat} (h : w.Sound) : (w.step (.admitAt i nowMs)).Sound := by
  simp only [Fleet.step]
  cases hb : w.breakers i with
  | none => exact h
  | some b =>
    obtain ⟨hown, hissued, haccounted⟩ := h
    have hbi := hown i b hb
    have hcases : b.Admitted (b.admitAt nowMs) := Breaker.admit_cases
    have hsame : (b.admitAt nowMs).1.issuer = b.issuer ∧
        (b.admitAt nowMs).1.generation = b.generation := by
      generalize b.admitAt nowMs = a at hcases
      cases hcases <;> exact ⟨rfl, rfl⟩
    have hticket : ∀ t ∈ (b.admitAt nowMs).2.ticket, t.issuer = b.issuer := by
      generalize b.admitAt nowMs = a at hcases
      cases hcases <;> intro t ht <;> cases ht <;> rfl
    constructor
    · intro j c hc
      simp only [put_breakers] at hc
      split at hc
      · rename_i hj
        cases hc
        exact ⟨by rw [hsame.1, hbi.1, hj], hj ▸ hbi.2⟩
      · exact hown j c hc
    · intro t ht
      simp only [Admit.issue, List.mem_append, Option.mem_toList] at ht
      rcases ht with ht | ht
      · rw [hticket t ht, hbi.1]
        exact hbi.2
      · exact hissued t ht
    · intro j c hc hlt
      simp only [put_breakers] at hc
      split at hc
      · cases hc
        exact (haccounted i b hb (hsame.2 ▸ hlt)).admitAt
      · rename_i hne
        have hcj := hown j c hc
        exact (haccounted j c hc hlt).other (by omega)

theorem Effect_generation {t : AdmissionTicket} {r : Report} (h : Breaker.Effect b t r c) :
    c.issuer = b.issuer ∧ (c.generation < u64Max → b.generation < u64Max) := by
  cases h with
  | unchanged => exact ⟨rfl, id⟩
  | counted f g hstate hcurrent => exact ⟨rfl, id⟩
  | extended u v hstate hle hown hcohort hheader => exact ⟨rfl, id⟩
  | closed hhalf hcurrent hprobe =>
    refine ⟨rfl, fun hlt => ?_⟩
    simp only [Breaker.close, saturatingAdd] at hlt
    omega
  | reopened u hcurrent hprobe =>
    refine ⟨rfl, fun hlt => ?_⟩
    simp only [Breaker.reopen, saturatingAdd] at hlt
    omega

theorem Sound.report {t : AdmissionTicket} {r : Report} (h : w.Sound) :
    (w.step (.report i t r)).Sound := by
  simp only [Fleet.step]
  cases hb : w.breakers i with
  | none => exact h
  | some b =>
    simp only
    split
    · obtain ⟨hown, hissued, haccounted⟩ := h
      have heffect : b.Effect t r (b.report t r) := Breaker.report_effect
      obtain ⟨hissuer, hbefore⟩ := Effect_generation heffect
      constructor
      · intro j c hc
        simp only [put_breakers] at hc
        split at hc
        · rename_i hj
          cases hc
          have hbi := hown i b hb
          exact ⟨by rw [hissuer, hbi.1, hj], hj ▸ hbi.2⟩
        · exact hown j c hc
      · intro u hu
        exact hissued u (List.mem_of_mem_erase hu)
      · intro j c hc hlt
        simp only [put_breakers] at hc
        split at hc
        · cases hc
          have hmax := hbefore hlt
          exact ((haccounted i b hb hmax).effect hmax heffect).erase
        · exact (haccounted j c hc hlt).erase
    · exact h

theorem Sound.step {event : FleetEvent} (h : w.Sound) : (w.step event).Sound := by
  cases event with
  | create credential => exact h.create
  | clone i => exact h.clone
  | admitAt i nowMs => exact h.admitAt
  | report i t r => exact h.report

theorem run_sound (events : List FleetEvent) (h : w.Sound) : (w.run events).Sound := by
  induction events generalizing w with
  | nil => exact h
  | cons event rest ih => exact ih h.step

/-- What a step can do to a breaker that is there already. -/
theorem Sound.step_breaker {event : FleetEvent} (h : w.Sound) (hb : w.breakers i = some b)
    (hc : (w.step event).breakers i = some c) :
    c = b ∨ (∃ nowMs, event = .admitAt i nowMs ∧ c = (b.admitAt nowMs).1) ∨
      ∃ t r, event = .report i t r ∧ t ∈ w.tickets ∧ c = b.report t r := by
  have henlist : ∀ build, (w.enlist build).breakers i = some b := by
    intro build
    have := (h.own i b hb).2
    unfold Fleet.enlist
    split
    · simp only [put_breakers]
      rw [if_neg (by omega), hb]
    · exact hb
  cases event with
  | create credential =>
    simp only [Fleet.step, henlist, Option.some.injEq] at hc
    exact .inl hc.symm
  | clone j =>
    simp only [Fleet.step] at hc
    cases hj : w.breakers j with
    | none => simp_all
    | some a =>
      rw [hj] at hc
      simp only [henlist, Option.some.injEq] at hc
      exact .inl hc.symm
  | admitAt j nowMs =>
    simp only [Fleet.step] at hc
    cases hj : w.breakers j with
    | none => simp_all
    | some a =>
      simp only [hj, put_breakers] at hc
      split at hc
      · rename_i hij
        subst hij
        rw [hb] at hj
        cases hj
        cases hc
        exact .inr (.inl ⟨nowMs, rfl, rfl⟩)
      · simp_all
  | report j t r =>
    simp only [Fleet.step] at hc
    cases hj : w.breakers j with
    | none => simp_all
    | some a =>
      simp only [hj] at hc
      split at hc
      · rename_i ht
        simp only [put_breakers] at hc
        split at hc
        · rename_i hij
          subst hij
          rw [hb] at hj
          cases hj
          cases hc
          exact .inr (.inr ⟨t, r, rfl, ht, rfl⟩)
        · simp_all
      · simp_all

/-- What holds of one breaker in every reachable state. -/
structure Disciplined (w : Fleet) (i : Nat) (b : Breaker) : Prop where
  one_probe : w.tickets.count (b.ticket true) ≤ 1
  rejects : b.state.isHalfOpen = true → ∀ nowMs, b.admitAt nowMs = (b, ⟨.rejected 0, none⟩)
  enters : ∀ event c, (w.step event).breakers i = some c → b.state.isHalfOpen = false →
    c.state.isHalfOpen = true → ∃ nowMs, event = .admitAt i nowMs ∧
      b.admitAt nowMs = (c, ⟨.probe, some (c.ticket true)⟩)
  closes : ∀ event c, (w.step event).breakers i = some c → b.state.isClosed = false →
    c.state.isClosed = true → b.state.isHalfOpen = true ∧ b.ticket true ∈ w.tickets ∧
      event = .report i (b.ticket true) .success
  late : ∀ t ∈ w.tickets, t.issuer ≠ b.issuer ∨ t.generation < b.generation → ∀ r,
    b.report t r = b ∨ t.issuer = b.issuer ∧ t.generation + 1 = b.generation ∧
      r.hasRetryAfter = true ∧ ∃ u v, b.state = .opened u ∧ u ≤ v ∧
        b.report t r = { b with state := .opened v }

end Fleet

namespace Breaker

variable {b c : Breaker} {t : AdmissionTicket} {r : Report} {nowMs : Nat}
  {tickets : List AdmissionTicket}

theorem Phase.one_probe (h : b.Phase tickets) : tickets.count (b.ticket true) ≤ 1 := by
  unfold Phase at h
  cases hstate : b.state with
  | closed f =>
    rw [hstate] at h
    rw [List.count_eq_zero.mpr h]
    omega
  | opened u =>
    rw [hstate] at h
    rw [List.count_eq_zero.mpr h.1]
    omega
  | halfOpen p =>
    rw [hstate] at h
    exact h.2.2

theorem Phase.rejects (h : b.Phase tickets) (hhalf : b.state.isHalfOpen = true) :
    b.admitAt nowMs = (b, ⟨.rejected 0, none⟩) := by
  unfold Phase at h
  cases hstate : b.state with
  | closed f => rw [hstate] at hhalf; cases hhalf
  | opened u => rw [hstate] at hhalf; cases hhalf
  | halfOpen p =>
    rw [hstate] at h
    rw [h.1] at hstate
    exact admit_halfOpen hstate

theorem Effect.not_halfOpen (h : Effect b t r c) (hb : b.state.isHalfOpen = false) :
    c.state.isHalfOpen = false := by
  cases h with
  | unchanged => exact hb
  | counted f g hstate hcurrent => rfl
  | closed hhalf hcurrent hprobe => rfl
  | reopened u hcurrent hprobe => rfl
  | extended u v hstate hle hown hcohort hheader => rfl

theorem Effect.closes (h : Effect b t r c) (hb : b.state.isClosed = false)
    (hc : c.state.isClosed = true) :
    b.state.isHalfOpen = true ∧ t = b.ticket true ∧ r = .success := by
  cases h with
  | unchanged => rw [hb] at hc; cases hc
  | counted f g hstate hcurrent => rw [hstate] at hb; cases hb
  | closed hhalf hcurrent hprobe => exact ⟨hhalf, hprobe ▸ hcurrent.eq_ticket, rfl⟩
  | reopened u hcurrent hprobe => cases hc
  | extended u v hstate hle hown hcohort hheader => cases hc

/-- A foreign or outdated ticket changes nothing but the end of the window it helped to open. -/
theorem Effect.late (h : Effect b t r c) (hphase : b.Phase tickets)
    (hlate : t.issuer ≠ b.issuer ∨ t.generation < b.generation) :
    c = b ∨ t.issuer = b.issuer ∧ t.generation + 1 = b.generation ∧ r.hasRetryAfter = true ∧
      ∃ u v, b.state = .opened u ∧ u ≤ v ∧ c = { b with state := .opened v } := by
  have hno : ¬b.Current t := by
    rintro ⟨hissuer, hgeneration⟩
    rcases hlate with hne | hlt
    · exact hne hissuer
    · omega
  cases h with
  | unchanged => exact .inl rfl
  | counted f g hstate hcurrent => exact absurd hcurrent hno
  | closed hhalf hcurrent hprobe => exact absurd hcurrent hno
  | reopened u hcurrent hprobe => exact absurd hcurrent hno
  | extended u v hstate hle hown hcohort hheader =>
    simp only [Phase, hstate] at hphase
    obtain ⟨-, -, g, hg, hnext⟩ := hphase
    rw [hg] at hcohort
    cases hcohort
    exact .inr ⟨hown, hnext, hheader, u, v, hstate, hle, rfl⟩

end Breaker

namespace Fleet

variable {w : Fleet} {i : Nat} {b : Breaker}

theorem Sound.disciplined (h : w.Sound) (hb : w.breakers i = some b)
    (hlt : b.generation < u64Max) : w.Disciplined i b := by
  have hphase := (h.accounted i b hb hlt).phase
  have heffect : ∀ t r, b.Effect t r (b.report t r) := fun _ _ => Breaker.report_effect
  have hcases : ∀ nowMs, b.Admitted (b.admitAt nowMs) := fun _ => Breaker.admit_cases
  constructor
  · exact hphase.one_probe
  · exact fun hhalf _ => hphase.rejects hhalf
  · intro event c hc hbefore hafter
    obtain rfl | ⟨nowMs, rfl, rfl⟩ | ⟨t, r, rfl, ht, rfl⟩ := h.step_breaker hb hc
    · rw [hbefore] at hafter
      cases hafter
    · refine ⟨nowMs, rfl, ?_⟩
      have ha := hcases nowMs
      generalize b.admitAt nowMs = a at ha hafter ⊢
      cases ha with
      | allowed f hstate => rw [hbefore] at hafter; cases hafter
      | rejected ms => rw [hbefore] at hafter; cases hafter
      | probe hfree hready => rfl
    · rw [(heffect t r).not_halfOpen hbefore] at hafter
      cases hafter
  · intro event c hc hbefore hafter
    obtain rfl | ⟨nowMs, rfl, rfl⟩ | ⟨t, r, rfl, ht, rfl⟩ := h.step_breaker hb hc
    · rw [hbefore] at hafter
      cases hafter
    · have ha := hcases nowMs
      generalize b.admitAt nowMs = a at ha hafter
      cases ha with
      | allowed f hstate => rw [hbefore] at hafter; cases hafter
      | rejected ms => rw [hbefore] at hafter; cases hafter
      | probe hfree hready => cases hafter
    · obtain ⟨hhalf, rfl, rfl⟩ := (heffect t r).closes hbefore hafter
      exact ⟨hhalf, ht, rfl⟩
  · exact fun t _ hlate r => (heffect t r).late hphase hlate

/-- Every breaker is disciplined as long as its generation can still advance. -/
def ProbesDisciplined (w : Fleet) : Prop :=
  ∀ i b, w.breakers i = some b → b.generation < u64Max → w.Disciplined i b

theorem probe_discipline (events : List FleetEvent) : (start.run events).ProbesDisciplined := by
  intro i b hb hlt
  exact (run_sound events start_sound).disciplined hb hlt

/-- Two failures open a local breaker; the first admission after the window is the probe. -/
example : (start.run [.create .local, .admitAt 0 0, .admitAt 0 0, .report 0 ⟨0, 0, false⟩ (.failure 0),
    .report 0 ⟨0, 0, false⟩ (.failure 0), .admitAt 0 14999, .admitAt 0 15000]).tickets =
      [⟨0, 1, true⟩] := by decide

end Fleet

end Policy
