import IDoris.Policy.Windows
import Mathlib.Data.List.Induction

/-!
# When a breaker opens

The failure counter of a closed breaker stands for a stretch of its history: the
failures of current tickets since the last success of one. What a report means to
the history is read off the breaker it arrives at.
-/
namespace Policy

/-- What a report means to the breaker it arrives at. -/
inductive Mark where
  | stale
  | success
  | failure
  | recovery
  deriving DecidableEq

/-- Somewhere in the history `k` failures stand in a stretch without a success, and the breaker
has not recovered since that stretch began. -/
def Tripped (k : Nat) (marks : List Mark) : Prop :=
  ∃ before stretch after, marks = before ++ stretch ++ after ∧ .recovery ∉ stretch ∧
    .recovery ∉ after ∧ .success ∉ stretch ∧ k ≤ stretch.count .failure

/-- The history ends in a stretch of `k` failures without a success or a recovery. -/
def Streak (k : Nat) (marks : List Mark) : Prop :=
  ∃ before stretch, marks = before ++ stretch ∧ .recovery ∉ stretch ∧ .success ∉ stretch ∧
    k ≤ stretch.count .failure

namespace Breaker

/-- A report of a ticket of this breaker and its current generation counts: the success of a
probe as the recovery, every other one as what it says. -/
def mark (b : Breaker) (t : AdmissionTicket) : Report → Mark
  | .success =>
    if t.issuer = b.issuer ∧ t.generation = b.generation then
      if b.state.isHalfOpen = true ∧ t.probe = true then .recovery else .success
    else .stale
  | _ => if t.issuer = b.issuer ∧ t.generation = b.generation then .failure else .stale

/-- The history of the reports in a sequence. -/
def marks (b : Breaker) : List BreakerOp → List Mark
  | [] => []
  | .admitAt nowMs :: ops => (b.step (.admitAt nowMs)).marks ops
  | .report t r :: ops => b.mark t r :: (b.step (.report t r)).marks ops

end Breaker

variable {k : Nat} {marks : List Mark} {m : Mark}

theorem tripped_nil (hk : 0 < k) : ¬Tripped k [] := by
  rintro ⟨before, stretch, after, heq, -, -, -, hcount⟩
  obtain ⟨hfront, rfl⟩ := List.append_eq_nil_iff.mp heq.symm
  obtain ⟨-, rfl⟩ := List.append_eq_nil_iff.mp hfront
  simp only [List.count_nil] at hcount
  omega

theorem streak_nil : Streak k [] ↔ k = 0 := by
  constructor
  · rintro ⟨before, stretch, heq, -, -, hcount⟩
    obtain ⟨-, rfl⟩ := List.append_eq_nil_iff.mp heq.symm
    simpa using hcount
  · rintro rfl
    exact ⟨[], [], rfl, by simp, by simp, by simp⟩

/-- Two lists that end in one mark differ in front of it only. -/
theorem concat_cases {xs ys : List Mark} (h : marks ++ [m] = xs ++ ys) :
    (ys = [] ∧ xs = marks ++ [m]) ∨ ∃ rest, ys = rest ++ [m] ∧ marks = xs ++ rest := by
  induction ys using List.reverseRecOn with
  | nil => exact .inl ⟨rfl, by simpa using h.symm⟩
  | append_singleton ys y _ =>
    rw [← List.append_assoc] at h
    obtain ⟨hfront, hlast⟩ := List.append_inj' h rfl
    cases hlast
    exact .inr ⟨ys, rfl, hfront⟩

/-- A stretch that is over lies in the history before the last mark. -/
theorem tripped_concat (hk : 0 < k) :
    Tripped k (marks ++ [m]) ↔ m ≠ .recovery ∧ (Tripped k marks ∨ Streak k (marks ++ [m])) := by
  constructor
  · rintro ⟨before, stretch, after, heq, hstretch, hafter, hsuccess, hcount⟩
    rcases concat_cases heq with ⟨rfl, hfront⟩ | ⟨rest, rfl, hfront⟩
    · rcases concat_cases hfront.symm with ⟨rfl, -⟩ | ⟨rest, rfl, -⟩
      · simp only [List.count_nil] at hcount
        omega
      · refine ⟨?_, .inr ⟨before, _, hfront.symm, hstretch, hsuccess, hcount⟩⟩
        rintro rfl
        exact hstretch (by simp)
    · refine ⟨?_, .inl ⟨before, stretch, rest, hfront, hstretch, ?_, hsuccess, hcount⟩⟩
      · rintro rfl
        exact hafter (by simp)
      · exact fun hmem => hafter (by simp [hmem])
  · rintro ⟨hm, ⟨before, stretch, after, rfl, hstretch, hafter, hsuccess, hcount⟩ |
      ⟨before, stretch, heq, hstretch, hsuccess, hcount⟩⟩
    · refine ⟨before, stretch, after ++ [m], by simp, hstretch, ?_, hsuccess, hcount⟩
      simp only [List.mem_append, List.mem_singleton, not_or]
      exact ⟨hafter, Ne.symm hm⟩
    · exact ⟨before, stretch, [], by simpa using heq, hstretch, by simp, hsuccess, hcount⟩

theorem streak_concat :
    Streak k (marks ++ [m]) ↔ k = 0 ∨ m ≠ .recovery ∧ m ≠ .success ∧
      Streak (k - if m = .failure then 1 else 0) marks := by
  constructor
  · rintro ⟨before, stretch, heq, hrecovery, hsuccess, hcount⟩
    rcases concat_cases heq with ⟨rfl, -⟩ | ⟨rest, rfl, hfront⟩
    · left
      simpa using hcount
    · right
      simp only [List.mem_append, List.mem_singleton, not_or] at hrecovery hsuccess
      refine ⟨Ne.symm hrecovery.2, Ne.symm hsuccess.2, before, rest, hfront, hrecovery.1,
        hsuccess.1, ?_⟩
      rw [List.count_append, List.count_singleton] at hcount
      split
      · rename_i hfailure
        simp only [hfailure, beq_self_eq_true, if_true] at hcount
        omega
      · rename_i hfailure
        simp only [beq_iff_eq, hfailure, if_false] at hcount
        omega
  · rintro (rfl | ⟨hrecovery, hsuccess, before, stretch, rfl, hnot, hnotSuccess, hcount⟩)
    · exact ⟨marks ++ [m], [], by simp, by simp, by simp, by simp⟩
    · refine ⟨before, stretch ++ [m], by simp, ?_, ?_, ?_⟩
      · simp only [List.mem_append, List.mem_singleton, not_or]
        exact ⟨hnot, Ne.symm hrecovery⟩
      · simp only [List.mem_append, List.mem_singleton, not_or]
        exact ⟨hnotSuccess, Ne.symm hsuccess⟩
      · rw [List.count_append, List.count_singleton]
        split at hcount
        · rename_i hfailure
          simp only [hfailure, beq_self_eq_true, if_true]
          omega
        · omega

namespace Breaker

variable {b : Breaker} {t : AdmissionTicket} {r : Report} {nowMs : Nat} {ops rest : List BreakerOp}

/-- The counter of a closed breaker is the length of the last streak, and the history of one that
is not closed is tripped. -/
def Counts (b : Breaker) (marks : List Mark) : Prop :=
  match b.state with
  | .closed failures => (∀ k, Streak k marks ↔ k ≤ failures) ∧
      failures < b.credential.failureThreshold ∧ ¬Tripped b.credential.failureThreshold marks
  | _ => Tripped b.credential.failureThreshold marks

theorem threshold_pos (credential : CredentialClass) : 0 < credential.failureThreshold := by
  cases credential <;> decide

theorem counts_new (issuer : Nat) (credential : CredentialClass) :
    (new issuer credential).Counts [] := by
  have hpos := threshold_pos credential
  exact ⟨fun k => streak_nil.trans (by omega), hpos, tripped_nil hpos⟩

/-- A mark that is no failure leaves the history tripped or not, unless it is a recovery. -/
theorem tripped_concat_of_ne (hk : 0 < k) (hm : m ≠ .failure)
    (hstreak : Streak k marks → Tripped k marks) :
    Tripped k (marks ++ [m]) ↔ m ≠ .recovery ∧ Tripped k marks := by
  rw [tripped_concat hk, streak_concat, if_neg hm, Nat.sub_zero]
  constructor
  · rintro ⟨hrecovery, htripped | hzero | ⟨-, -, h⟩⟩
    · exact ⟨hrecovery, htripped⟩
    · omega
    · exact ⟨hrecovery, hstreak h⟩
  · rintro ⟨hrecovery, htripped⟩
    exact ⟨hrecovery, .inl htripped⟩

/-- A streak of that length is a stretch of it. -/
theorem tripped_of_streak (h : Streak k marks) : Tripped k marks := by
  obtain ⟨before, stretch, rfl, hrecovery, hsuccess, hcount⟩ := h
  exact ⟨before, stretch, [], by simp, hrecovery, by simp, hsuccess, hcount⟩

/-- A tripped breaker stays tripped under every mark but a recovery. -/
theorem tripped_more (h : Tripped k marks) (hk : 0 < k) (hm : m ≠ .recovery) :
    Tripped k (marks ++ [m]) := (tripped_concat hk).mpr ⟨hm, .inl h⟩

theorem Counts.stale (h : b.Counts marks) : b.Counts (marks ++ [.stale]) := by
  have hpos := threshold_pos b.credential
  unfold Counts at h ⊢
  cases hstate : b.state with
  | closed failures =>
    rw [hstate] at h
    obtain ⟨hstreak, hlt, hnot⟩ := h
    refine ⟨fun k => ?_, hlt, ?_⟩
    · rw [streak_concat, if_neg (by simp), Nat.sub_zero, hstreak]
      simp only [ne_eq, reduceCtorEq, not_false_eq_true, true_and]
      omega
    · rw [tripped_concat_of_ne hpos (by simp) tripped_of_streak]
      exact fun htripped => hnot htripped.2
  | opened u =>
    rw [hstate] at h
    exact tripped_more h hpos (by simp)
  | halfOpen p =>
    rw [hstate] at h
    exact tripped_more h hpos (by simp)

/-- A closed breaker with no failures after a success or a recovery. -/
theorem counts_reset {c : Breaker} (hstate : c.state = .closed 0)
    (hm : m = .success ∨ m = .recovery)
    (hnot : ¬Tripped c.credential.failureThreshold (marks ++ [m])) : c.Counts (marks ++ [m]) := by
  have hpos := threshold_pos c.credential
  unfold Counts
  rw [hstate]
  refine ⟨fun k => ?_, hpos, hnot⟩
  rw [streak_concat]
  rcases hm with rfl | rfl <;> simp

theorem Counts.success (h : b.Counts marks) :
    (b.onSuccess t).Counts (marks ++ [b.mark t .success]) := by
  have hpos := threshold_pos b.credential
  by_cases hcurrent : t.issuer = b.issuer ∧ t.generation = b.generation
  · simp only [mark, onSuccess, hcurrent.1, hcurrent.2, ne_eq, not_true_eq_false, if_false, and_self,
      if_true]
    unfold Counts at h
    cases hstate : b.state with
    | closed failures =>
      rw [hstate] at h
      simp only [State.isHalfOpen, Bool.false_eq_true, false_and, if_false]
      refine counts_reset rfl (.inl rfl) ?_
      rw [tripped_concat_of_ne hpos (by simp) tripped_of_streak]
      exact fun htripped => h.2.2 htripped.2
    | opened u =>
      rw [hstate] at h
      simp only [Counts, hstate, State.isHalfOpen, Bool.false_eq_true, false_and, if_false]
      exact tripped_more h hpos (by simp)
    | halfOpen p =>
      rw [hstate] at h
      by_cases hprobe : t.probe = true
      · simp only [State.isHalfOpen, hprobe, and_self, if_true]
        refine counts_reset rfl (.inr rfl) ?_
        rw [tripped_concat hpos]
        exact fun htripped => htripped.1 rfl
      · simp only [State.isHalfOpen, hprobe, Bool.false_eq_true, and_false, if_false, Counts, hstate]
        exact tripped_more h hpos (by simp)
  · have hsame : b.onSuccess t = b := by
      unfold onSuccess
      split
      · rfl
      · rename_i hissuer
        rw [if_pos fun hgeneration => hcurrent ⟨not_not.mp hissuer, hgeneration⟩]
    rw [hsame, mark, if_neg hcurrent]
    exact h.stale

/-- One more failure of a current ticket of a closed breaker. -/
theorem streak_failure {failures : Nat} (h : ∀ k, Streak k marks ↔ k ≤ failures) :
    Streak k (marks ++ [.failure]) ↔ k ≤ failures + 1 := by
  rw [streak_concat, if_pos rfl, h]
  simp only [ne_eq, reduceCtorEq, not_false_eq_true, true_and]
  omega

theorem Counts.failure (h : b.Counts marks) :
    (b.onFailure t nowMs).Counts (marks ++ [b.mark t (.failure nowMs)]) := by
  have hpos := threshold_pos b.credential
  by_cases hcurrent : t.issuer = b.issuer ∧ t.generation = b.generation
  · simp only [mark, onFailure, hcurrent.1, hcurrent.2, ne_eq, not_true_eq_false, if_false, and_self,
      if_true]
    unfold Counts at h
    cases hstate : b.state with
    | closed failures =>
      rw [hstate] at h
      obtain ⟨hstreak, hlt, hnot⟩ := h
      simp only [State.isHalfOpen, Bool.false_and, Bool.false_eq_true, if_false]
      split
      · rename_i hbelow
        refine ⟨fun k => streak_failure hstreak, hbelow, ?_⟩
        rw [tripped_concat hpos, streak_failure hstreak]
        rintro ⟨-, htripped | hfull⟩
        · exact hnot htripped
        · omega
      · rename_i hfull
        have hreached : Streak b.credential.failureThreshold (marks ++ [.failure]) :=
          (streak_failure hstreak).mpr (by omega)
        exact tripped_of_streak hreached
    | opened u =>
      rw [hstate] at h
      simp only [Counts, hstate, State.isHalfOpen, Bool.false_and, Bool.false_eq_true, if_false]
      exact tripped_more h hpos (by simp)
    | halfOpen p =>
      rw [hstate] at h
      have hmore : Tripped b.credential.failureThreshold (marks ++ [.failure]) :=
        tripped_more h hpos (by simp)
      by_cases hprobe : t.probe = true
      · simp only [hprobe, Bool.not_true, Bool.and_false, Bool.false_eq_true, if_false]
        exact hmore
      · simp only [State.isHalfOpen, hprobe, Bool.not_false, Bool.and_true, if_true, Counts, hstate]
        exact hmore
  · have hsame : b.onFailure t nowMs = b := by
      unfold onFailure
      split
      · rfl
      · rename_i hissuer
        rw [if_pos fun hgeneration => hcurrent ⟨not_not.mp hissuer, hgeneration⟩]
    simp only [hsame, mark, if_neg hcurrent]
    exact h.stale

theorem Counts.report (h : b.Counts marks) (hheader : r.hasRetryAfter = false) :
    (b.report t r).Counts (marks ++ [b.mark t r]) := by
  cases r with
  | success => exact h.success
  | failure nowMs => exact h.failure
  | retryAfter nowMs ms => cases hheader
  | failureWithRetryAfter nowMs header =>
    cases header with
    | none => exact h.failure
    | some ms => cases hheader

theorem Counts.admitAt (h : b.Counts marks) : (b.admitAt nowMs).1.Counts marks := by
  have hclaimed : b.state.isClosed = false → b.claimProbe.Counts marks := by
    intro hclosed
    unfold Counts at h
    cases hstate : b.state with
    | closed failures => rw [hstate] at hclosed; cases hclosed
    | opened u => rw [hstate] at h; exact h
    | halfOpen p => rw [hstate] at h; exact h
  unfold Breaker.admitAt
  split
  · exact h
  · rename_i u hstate
    split
    · exact h
    · exact hclaimed (by rw [hstate]; rfl)
  · rename_i hstate
    exact hclaimed (by rw [hstate]; rfl)
  · exact h

theorem Counts.run (h : b.Counts marks)
    (hheader : ∀ t r, BreakerOp.report t r ∈ ops → r.hasRetryAfter = false) :
    (b.run ops).Counts (marks ++ b.marks ops) := by
  induction ops generalizing b marks with
  | nil =>
    rw [Breaker.marks, List.append_nil]
    exact h
  | cons op ops ih =>
    have hrest : ∀ t r, BreakerOp.report t r ∈ ops → r.hasRetryAfter = false :=
      fun t r hmem => hheader t r (List.mem_cons_of_mem _ hmem)
    rw [run_cons]
    cases op with
    | admitAt nowMs => exact ih h.admitAt hrest
    | report t r =>
      have hnext := ih (h.report (t := t) (hheader t r List.mem_cons_self)) hrest
      rwa [List.append_assoc] at hnext

@[simp] theorem step_credential (op : BreakerOp) : (b.step op).credential = b.credential := by
  cases op with
  | admitAt nowMs =>
    have ha : Admitted b (b.admitAt nowMs) := admit_cases
    simp only [step]
    generalize b.admitAt nowMs = a at ha
    cases ha <;> rfl
  | report t r =>
    have heffect := report_effect (b := b) (t := t) (r := r)
    simp only [step]
    generalize b.report t r = c at heffect
    cases heffect <;> rfl

theorem run_credential : (b.run ops).credential = b.credential := by
  induction ops generalizing b with
  | nil => rfl
  | cons op ops ih => rw [run_cons, ih, step_credential]

/-- After every sequence of admissions and of reports without a `Retry-After`, in any order, a
breaker is open or half-open exactly when its reports since it was last closed, by its creation or
by the success of a probe, hold a stretch of threshold many failures of current tickets without
the success of one. -/
theorem opens_exactly (issuer : Nat) (credential : CredentialClass) (ops : List BreakerOp)
    (hheader : ∀ t r, BreakerOp.report t r ∈ ops → r.hasRetryAfter = false) :
    ((new issuer credential).run ops).state.isClosed = false ↔
      Tripped credential.failureThreshold ((new issuer credential).marks ops) := by
  have h := (counts_new issuer credential).run hheader
  have hcredential : ((new issuer credential).run ops).credential = credential := run_credential
  unfold Counts at h
  rw [hcredential, List.nil_append] at h
  cases hstate : ((new issuer credential).run ops).state with
  | closed failures =>
    rw [hstate] at h
    simp only [State.isClosed, Bool.true_eq_false, false_iff]
    exact h.2.2
  | opened u =>
    rw [hstate] at h
    exact iff_of_true rfl h
  | halfOpen p =>
    rw [hstate] at h
    exact iff_of_true rfl h

/-- Two failures in a row open a local breaker. -/
theorem opens_exactly_twice :
    Tripped 2 ((new 0 .local).marks [.admitAt 0, .admitAt 0, .report ⟨0, 0, false⟩ (.failure 0),
      .report ⟨0, 0, false⟩ (.failure 0)]) := by
  have hheader : ∀ t r, BreakerOp.report t r ∈ [BreakerOp.admitAt 0, .admitAt 0,
      .report ⟨0, 0, false⟩ (.failure 0), .report ⟨0, 0, false⟩ (.failure 0)] →
      r.hasRetryAfter = false := by
    intro t r hmem
    simp only [List.mem_cons, reduceCtorEq, BreakerOp.report.injEq, List.not_mem_nil, or_false,
      false_or, or_self] at hmem
    obtain ⟨-, rfl⟩ := hmem
    rfl
  exact (opens_exactly 0 .local _ hheader).mp (by decide)

end Breaker

end Policy
