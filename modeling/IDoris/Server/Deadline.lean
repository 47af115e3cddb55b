import IDoris.Server.WriteTimeout

/-!
# A stalled client is cut off and a progressing one is not

What the armed sleep says about the polls before it: which of them armed it, and that nothing
has moved since.
-/
namespace Server

open Transition

variable {Error : Type} {elapsed : Nat → Nat → Bool} {timeout : Nat}
  {entries before : List (Entry Error)} {e f g : Entry Error} {c c' : Connection}
  {P Q : Entry Error → Prop}

section Since

/-- The poll was made, and every later one meets the condition. -/
def Since (P : Entry Error → Prop) (entries : List (Entry Error)) (e : Entry Error) : Prop :=
  ∃ front after, entries = front ++ e :: after ∧ ∀ g ∈ after, P g

theorem Since.mem (h : Since P entries e) : e ∈ entries := by
  obtain ⟨front, after, rfl, -⟩ := h
  exact List.mem_append_right _ List.mem_cons_self

theorem since_last (P : Entry Error → Prop) (entries : List (Entry Error)) (e : Entry Error) :
    Since P (entries ++ [e]) e := ⟨entries, [], rfl, nofun⟩

theorem Since.snoc (h : Since P entries e) (hf : P f) : Since P (entries ++ [f]) e := by
  obtain ⟨front, after, rfl, hafter⟩ := h
  refine ⟨front, after ++ [f], by simp, fun g hg => ?_⟩
  obtain hg | hg := List.mem_append.mp hg
  · exact hafter g hg
  · rw [List.mem_singleton.mp hg]
    exact hf

theorem Since.of_snoc (h : Since P (entries ++ [f]) e) : e = f ∨ P f ∧ Since P entries e := by
  obtain ⟨front, after, hsplit, hafter⟩ := h
  induction after using List.reverseRecOn with
  | nil =>
    obtain ⟨-, hlast⟩ := List.append_inj' hsplit rfl
    cases hlast
    exact .inl rfl
  | append_singleton after last _ =>
    have hlast : entries ++ [f] = (front ++ e :: after) ++ [last] := by simpa using hsplit
    obtain ⟨rfl, hf⟩ := List.append_inj' hlast rfl
    cases hf
    exact .inr ⟨hafter f (by simp), front, after, rfl, fun g hg => hafter g (by simp [hg])⟩

end Since

/-- Nothing moved that would clear the deadline which `e` armed. -/
def Entry.Outlasts (e g : Entry Error) : Prop :=
  ¬g.accepts ∧ (e.call.isFlush = true → ¬g.flushes)

section Invariant

/-- What the state of the wrapper says about the polls so far. -/
structure Tracks (timeout : Nat) (entries : List (Entry Error)) (c : Connection) : Prop where
  unchanged : c.io.timeout = timeout
  clock : ∀ e ∈ entries, e.now ≤ c.clock
  latched : c.io.timedOut = true ↔ ∃ e ∈ entries, e.outcome = .timedOut
  armed : c.io.timedOut = false → ∀ d, c.io.deadline = some d → ∃ e : Entry Error,
    e.outcome = .pending ∧ d = e.now + timeout ∧ e.call.isFlush = c.io.flushOnlyDeadline ∧
      Since e.Outlasts entries e
  stalled : c.io.timedOut = false → ∀ e : Entry Error, e.stalls →
    Since (fun g => ¬g.accepts) entries e → c.io.flushOnlyDeadline = false ∧
      ∃ d, c.io.deadline = some d ∧ d ≤ e.now + timeout

theorem tracks_start (timeout : Nat) : Tracks timeout ([] : List (Entry Error)) (start timeout) := by
  constructor
  · rfl
  · exact nofun
  · simp [start, WriteTimeoutIo.new]
  · exact fun _ d hd => by cases hd
  · rintro _ e _ ⟨front, after, hsplit, -⟩
    simp at hsplit

theorem not_accepts_of (h : ∀ written, 0 < written → f.outcome ≠ .done written) : ¬f.accepts :=
  fun ⟨written, hdone, hpos⟩ => h written hpos hdone

theorem Tracks.times (h : Tracks timeout entries c) (hclock : c.clock ≤ f.now) :
    ∀ e ∈ entries ++ [f], e.now ≤ f.now := by
  intro e he
  obtain he | he := List.mem_append.mp he
  · exact Nat.le_trans (h.clock e he) hclock
  · exact Nat.le_of_eq (congrArg Entry.now (List.mem_singleton.mp he))

/-- The sleep is over, or a poll failed before. -/
theorem Tracks.latch (h : Tracks timeout entries c) {io : WriteTimeoutIo} (hclock : c.clock ≤ f.now)
    (htimeout : io.timeout = timeout) (hout : f.outcome = .timedOut) :
    Tracks timeout (entries ++ [f]) ⟨{ io with timedOut := true }, f.now⟩ where
  unchanged := htimeout
  clock := h.times hclock
  latched := iff_of_true rfl ⟨f, by simp, hout⟩
  armed := nofun
  stalled := nofun

/-- A poll that does not fail. -/
theorem Tracks.proceed (h : Tracks timeout entries c) {io : WriteTimeoutIo}
    (hclock : c.clock ≤ f.now) (htimeout : io.timeout = timeout) (hnot : f.outcome ≠ .timedOut)
    (hlatch : io.timedOut = c.io.timedOut)
    (harmed : c.io.timedOut = false → ∀ d, io.deadline = some d → ∃ e : Entry Error,
      e.outcome = .pending ∧ d = e.now + timeout ∧ e.call.isFlush = io.flushOnlyDeadline ∧
        Since e.Outlasts (entries ++ [f]) e)
    (hstalled : c.io.timedOut = false → ∀ e : Entry Error, e.stalls →
      Since (fun g => ¬g.accepts) (entries ++ [f]) e → io.flushOnlyDeadline = false ∧
        ∃ d, io.deadline = some d ∧ d ≤ e.now + timeout) :
    Tracks timeout (entries ++ [f]) ⟨io, f.now⟩ where
  unchanged := htimeout
  clock := h.times hclock
  latched := by
    change io.timedOut = true ↔ _
    rw [hlatch, h.latched]
    constructor
    · rintro ⟨e, he, hout⟩
      exact ⟨e, List.mem_append_left _ he, hout⟩
    · rintro ⟨e, he, hout⟩
      obtain he | he := List.mem_append.mp he
      · exact ⟨e, he, hout⟩
      · rw [List.mem_singleton.mp he] at hout
        exact absurd hout hnot
  armed := fun hlive => harmed (hlatch ▸ hlive)
  stalled := fun hlive => hstalled (hlatch ▸ hlive)

/-- Nothing changes: the poll neither stalls nor moves what the deadline waits for. -/
theorem Tracks.idle (h : Tracks timeout entries c) (hclock : c.clock ≤ f.now)
    (hnot : f.outcome ≠ .timedOut) (hpending : f.outcome ≠ .pending)
    (houtlast : ∀ e : Entry Error, e.call.isFlush = c.io.flushOnlyDeadline → e.Outlasts f) :
    Tracks timeout (entries ++ [f]) ⟨c.io, f.now⟩ := by
  refine h.proceed hclock h.unchanged hnot rfl ?_ ?_
  · intro hlive d hd
    obtain ⟨e, hout, hend, hflush, hsince⟩ := h.armed hlive d hd
    exact ⟨e, hout, hend, hflush, hsince.snoc (houtlast e hflush)⟩
  · intro hlive e hstalls hsince
    obtain rfl | ⟨-, hsince⟩ := hsince.of_snoc
    · exact absurd hstalls.2 hpending
    · exact h.stalled hlive e hstalls hsince

/-- The deadline is cleared where no stalled write or shutdown is waited for. -/
theorem Tracks.cleared (h : Tracks timeout entries c) (hclock : c.clock ≤ f.now)
    (hnot : f.outcome ≠ .timedOut) (hpending : f.outcome ≠ .pending)
    (hmoved : f.accepts ∨ c.io.flushOnlyDeadline = true) :
    Tracks timeout (entries ++ [f]) ⟨c.io.clear, f.now⟩ := by
  refine h.proceed hclock h.unchanged hnot rfl ?_ ?_
  · intro _ d hd
    cases hd
  · intro hlive e hstalls hsince
    obtain rfl | ⟨hno, hsince⟩ := hsince.of_snoc
    · exact absurd hstalls.2 hpending
    · obtain haccepts | hflush := hmoved
      · exact absurd haccepts hno
      · rw [(h.stalled hlive e hstalls hsince).1] at hflush
        cases hflush

/-- A stalled poll arms the deadline, or finds one that is not later than its own. -/
theorem Tracks.arm (h : Tracks timeout entries c) (hclock : c.clock ≤ f.now)
    (hout : f.outcome = .pending) :
    Tracks timeout (entries ++ [f]) ⟨c.io.armed f.now f.call.isFlush, f.now⟩ := by
  have hno : ¬f.accepts := not_accepts_of fun written _ hdone => by
    rw [hout] at hdone
    cases hdone
  have houtlast : ∀ e : Entry Error, e.Outlasts f := by
    refine fun e => ⟨hno, fun _ hflushes => ?_⟩
    rw [hflushes.2] at hout
    cases hout
  have hend : f.now + c.io.timeout = f.now + timeout := by rw [h.unchanged]
  unfold WriteTimeoutIo.armed
  split
  · next hrearm =>
    refine h.proceed hclock h.unchanged (by rw [hout]; exact nofun) rfl ?_ ?_
    · intro _ d hd
      obtain rfl := Option.some.inj hd
      exact ⟨f, hout, hend, rfl, since_last _ _ f⟩
    · intro hlive e hstalls hsince
      obtain rfl | ⟨-, hsince⟩ := hsince.of_snoc
      · exact ⟨hstalls.1, _, rfl, Nat.le_of_eq hend⟩
      · obtain ⟨hflush, d, hd, -⟩ := h.stalled hlive e hstalls hsince
        rw [hd, hflush] at hrearm
        cases hrearm
  · next hkept =>
    rw [Bool.or_eq_true, not_or, Bool.not_eq_true, Bool.not_eq_true] at hkept
    refine h.proceed hclock h.unchanged (by rw [hout]; exact nofun) rfl ?_ ?_
    · intro hlive d hd
      obtain ⟨e, hpending, hend, hflush, hsince⟩ := h.armed hlive d hd
      exact ⟨e, hpending, hend, hflush, hsince.snoc (houtlast e)⟩
    · intro hlive e hstalls hsince
      obtain rfl | ⟨-, hsince⟩ := hsince.of_snoc
      · obtain ⟨hsome, hflush⟩ := hkept
        obtain ⟨d, hd⟩ := Option.isSome_iff_exists.mp (Option.isNone_eq_false_iff.mp hsome)
        obtain ⟨e', -, hend, -, hsince⟩ := h.armed hlive d hd
        have hbefore := h.clock e' hsince.mem
        rw [hstalls.1, Bool.not_false, Bool.and_true] at hflush
        exact ⟨hflush, d, hd, by omega⟩
      · exact h.stalled hlive e hstalls hsince

theorem Tracks.step (h : Tracks timeout entries c) (hstep : (system elapsed Error).step c f c') :
    Tracks timeout (entries ++ [f]) c' := by
  obtain ⟨hclock, hpoll, hnow⟩ := hstep
  obtain ⟨-, -, heffect⟩ := poll_effect hpoll
  obtain ⟨io, clock⟩ := c'
  obtain rfl : clock = f.now := hnow
  dsimp only at heffect
  generalize hout : f.outcome = outcome at heffect
  generalize f.asked = asked at heffect
  have hne : ∀ o, outcome ≠ o → f.outcome ≠ o := fun o ho => by rwa [hout]
  cases heffect with
  | late _ => exact h.latch hclock h.unchanged hout
  | stalled _ _ => exact h.arm hclock hout
  | lateAtOnce _ _ _ =>
    refine h.latch hclock ?_ hout
    unfold WriteTimeoutIo.armed
    split
    · exact h.unchanged
    · exact h.unchanged
  | accepted written _ hpos =>
    exact h.cleared hclock (hne _ nofun) (hne _ nofun) (.inl ⟨written, hout, hpos⟩)
  | flushed _ hcall =>
    have hno : ¬f.accepts := not_accepts_of fun written hpos hdone => by
      rw [hout] at hdone
      cases hdone
      cases hpos
    split
    · next hflush => exact h.cleared hclock (hne _ nofun) (hne _ nofun) (.inr hflush)
    · next hflush =>
      refine h.idle hclock (hne _ nofun) (hne _ nofun) fun e he => ⟨hno, fun hcall' => ?_⟩
      rw [he] at hcall'
      exact absurd hcall' hflush
  | unmoved _ hcall =>
    refine h.idle hclock (hne _ nofun) (hne _ nofun) fun e he => ⟨?_, fun _ hflushes => ?_⟩
    · refine not_accepts_of fun written hpos hdone => ?_
      rw [hout] at hdone
      cases hdone
      cases hpos
    · have hflush := hflushes.1
      rw [hcall] at hflush
      cases hflush
  | failed _ =>
    refine h.idle hclock (hne _ nofun) (hne _ nofun) fun e he => ⟨?_, fun _ hflushes => ?_⟩
    · refine not_accepts_of fun written hpos hdone => ?_
      rw [hout] at hdone
      cases hdone
    · have hdone := hflushes.2
      rw [hout] at hdone
      cases hdone

end Invariant

section Results

/-- A sleep is over exactly from its end on. -/
def Punctual (elapsed : Nat → Nat → Bool) : Prop :=
  ∀ deadline now, elapsed deadline now = true ↔ deadline ≤ now

/-- What is promised of the poll `f` after the polls before it. -/
structure Prompt (timeout : Nat) (before : List (Entry Error)) (f : Entry Error) : Prop where
  cutOff : ∀ e : Entry Error, e.stalls → Since (fun g => ¬g.accepts) before e →
    e.now + timeout ≤ f.now → f.outcome = .timedOut
  justified : f.outcome = .timedOut → (∃ e ∈ before, e.outcome = .timedOut) ∨
    (∃ e : Entry Error, e.outcome = .pending ∧ e.now + timeout ≤ f.now ∧
      Since e.Outlasts before e) ∨ timeout = 0 ∧ f.call.blocked
  latched : (∃ e ∈ before, e.outcome = .timedOut) → f.outcome = .timedOut ∧ f.asked = false

theorem Effect.of_expired {io io' : WriteTimeoutIo} {now : Nat} {call : Call Error}
    {outcome : Outcome} {asked : Bool} (h : Effect elapsed io now call outcome asked io')
    (hlate : io.expired elapsed now = true) : outcome = .timedOut ∧ asked = false := by
  cases h with
  | late _ => exact ⟨rfl, rfl⟩
  | stalled hlive _ | lateAtOnce hlive _ _ | accepted _ hlive _ | flushed hlive _
    | unmoved hlive _ | failed hlive =>
    rw [hlive] at hlate
    cases hlate

theorem Tracks.prompt (h : Tracks timeout before c) (hpunctual : Punctual elapsed)
    (hstep : (system elapsed Error).step c f c') : Prompt timeout before f := by
  obtain ⟨hclock, hpoll, -⟩ := hstep
  obtain ⟨-, -, heffect⟩ := poll_effect hpoll
  have hexpired : c.io.expired elapsed f.now = true ↔ c.io.timedOut = true ∨
      ∃ d, c.io.deadline = some d ∧ d ≤ f.now := by
    simp only [WriteTimeoutIo.expired, Bool.or_eq_true, Option.any_eq_true, hpunctual _ _]
  constructor
  · intro e hstalls hsince hlate
    refine (heffect.of_expired (hexpired.mpr ?_)).1
    cases hlatched : c.io.timedOut with
    | true => exact .inl rfl
    | false =>
      obtain ⟨-, d, hd, hle⟩ := h.stalled hlatched e hstalls hsince
      exact .inr ⟨d, hd, by omega⟩
  · intro hout
    rw [hout] at heffect
    generalize f.asked = asked at heffect
    generalize c'.io = io' at heffect
    cases heffect with
    | late hlate =>
      cases hlatched : c.io.timedOut with
      | true => exact .inl (h.latched.mp hlatched)
      | false =>
        obtain hlatched' | ⟨d, hd, hle⟩ := hexpired.mp hlate
        · rw [hlatched] at hlatched'
          cases hlatched'
        · obtain ⟨e, hpending, hend, -, hsince⟩ := h.armed hlatched d hd
          exact .inr (.inl ⟨e, hpending, by omega, hsince⟩)
    | lateAtOnce hlive hblocked harmed =>
      refine .inr (.inr ⟨?_, hblocked⟩)
      unfold WriteTimeoutIo.armed at harmed
      split at harmed
      · have hlatched : c.io.timedOut = false := by
          rw [WriteTimeoutIo.expired, Bool.or_eq_false_iff] at hlive
          exact hlive.1
        simp only [WriteTimeoutIo.expired, hlatched, Bool.false_or, Option.any_some] at harmed
        have hle := (hpunctual _ _).mp harmed
        rw [h.unchanged] at hle
        omega
      · rw [hlive] at harmed
        cases harmed
  · intro hbefore
    exact heffect.of_expired (hexpired.mpr (.inl (h.latched.mpr hbefore)))

/-- Whatever the inner stream answers, at every poll of every run. -/
theorem write_deadline_prompt (hpunctual : Punctual elapsed) {after : List (Entry Error)}
    (h : (system elapsed Error).Run (start timeout) (before ++ f :: after) c) :
    Prompt timeout before f := by
  rw [List.append_cons] at h
  obtain ⟨c', hrun, -⟩ := h.of_append
  obtain ⟨b, hbefore, hlast⟩ := hrun.of_snoc
  have htracks : Tracks timeout before b := hbefore.history (Tracks timeout)
    (fun _ _ _ _ htracks hstep => htracks.step hstep) (tracks_start timeout)
  exact htracks.prompt hpunctual hlast

section Samples

/-- A poll of a write that the inner stream does not take. -/
def stalledWrite (now : Nat) (outcome : Outcome) (asked : Bool) : Entry Unit :=
  ⟨now, .write .pending, outcome, asked⟩

def atEnd (deadline now : Nat) : Bool := decide (deadline ≤ now)

theorem punctual_atEnd : Punctual atEnd := fun _ _ => decide_eq_true_iff

/-- A write that stalls, and one at the end of its timeout. -/
theorem run_stalled : (system atEnd Unit).Run (start 5)
    ([stalledWrite 0 .pending true] ++ stalledWrite 5 .timedOut false :: [])
    ⟨⟨5, some 5, false, true⟩, 5⟩ := by
  have hfirst : (system atEnd Unit).step (start 5) (stalledWrite 0 .pending true)
      ⟨⟨5, some 5, false, false⟩, 0⟩ := ⟨Nat.le_refl 0, rfl, rfl⟩
  have hlast : (system atEnd Unit).step ⟨⟨5, some 5, false, false⟩, 0⟩
      (stalledWrite 5 .timedOut false) ⟨⟨5, some 5, false, true⟩, 5⟩ := ⟨Nat.zero_le 5, rfl, rfl⟩
  exact .snoc (.snoc .nil hfirst) hlast

theorem write_deadline_prompt_stalled :
    Prompt 5 [stalledWrite 0 .pending true] (stalledWrite 5 .timedOut false) :=
  write_deadline_prompt punctual_atEnd run_stalled

/-- With a timeout of zero the poll that stalls fails itself, with no poll before it. -/
theorem not_only_after_pending : ¬∀ (elapsed : Nat → Nat → Bool) (timeout : Nat)
    (before after : List (Entry Unit)) (f : Entry Unit) (c : Connection), Punctual elapsed →
    (system elapsed Unit).Run (start timeout) (before ++ f :: after) c → f.outcome = .timedOut →
      (∃ e ∈ before, e.outcome = .timedOut) ∨ ∃ e : Entry Unit, e.outcome = .pending ∧
        e.now + timeout ≤ f.now ∧ Since e.Outlasts before e := by
  intro hclaim
  have hstep : (system atEnd Unit).step (start 0) (stalledWrite 0 .timedOut true)
      ⟨⟨0, some 0, false, true⟩, 0⟩ := ⟨Nat.le_refl 0, rfl, rfl⟩
  obtain ⟨e, he, -⟩ | ⟨e, -, -, hsince⟩ :=
    hclaim atEnd 0 [] [] _ _ punctual_atEnd (System.Run.single hstep) rfl
  · cases he
  · cases hsince.mem

end Samples

end Results

end Server
