import IDoris.Policy.Probes

/-!
# Open windows

An open breaker stays open until the end of its window, whatever is reported to it,
and turns away every request before that.
-/
namespace Policy

/-- What is done to a breaker. -/
inductive BreakerOp where
  | admitAt (nowMs : Nat)
  | report (t : AdmissionTicket) (r : Report)
  deriving DecidableEq

/-- The time a report is made at; a success has none. -/
def Report.time : Report → Option Nat
  | success => none
  | failure nowMs => some nowMs
  | failureWithRetryAfter nowMs _ => some nowMs
  | retryAfter nowMs _ => some nowMs

def BreakerOp.time : BreakerOp → Option Nat
  | admitAt nowMs => some nowMs
  | report _ r => r.time

/-- The times of a sequence never go back. -/
def Ordered (ops : List BreakerOp) : Prop := (ops.filterMap BreakerOp.time).Pairwise (· ≤ ·)

namespace Breaker

def step (b : Breaker) : BreakerOp → Breaker
  | .admitAt nowMs => (b.admitAt nowMs).1
  | .report t r => b.report t r

def run (b : Breaker) (ops : List BreakerOp) : Breaker := ops.foldl step b

/-- A `Retry-After` of this ticket is not ignored. -/
def Accepts (b : Breaker) (t : AdmissionTicket) : Prop :=
  t.issuer = b.issuer ∧ (b.state.isHalfOpen = true → t.probe = true) ∧
    (t.generation = b.generation ∨ b.state.isOpen = true ∧ b.openCohort = some t.generation)

/-- The failure in a report, apart from its header, opens the breaker. -/
def FailureOpens (b : Breaker) (t : AdmissionTicket) (nowMs : Nat) : Report → Prop
  | .failure at' => at' = nowMs ∧ b.state.isOpen = false ∧ (b.onFailure t nowMs).state.isOpen = true
  | .failureWithRetryAfter at' _ =>
    at' = nowMs ∧ b.state.isOpen = false ∧ (b.onFailure t nowMs).state.isOpen = true
  | _ => False

/-- The `Retry-After` in a report is not ignored. -/
def HeaderAccepted (b : Breaker) (t : AdmissionTicket) (nowMs ms : Nat) : Report → Prop
  | .retryAfter at' ms' => at' = nowMs ∧ ms' = ms ∧ b.Accepts t
  | .failureWithRetryAfter at' header =>
    at' = nowMs ∧ header = some ms ∧ (b.onFailure t nowMs).Accepts t
  | _ => False

variable {b : Breaker} {t : AdmissionTicket} {r : Report} {nowMs ms u d : Nat}
  {ops after : List BreakerOp}

theorem run_cons (op : BreakerOp) : b.run (op :: ops) = (b.step op).run ops := rfl

theorem onSuccess_open (h : b.state = .opened u) : b.onSuccess t = b := by
  unfold onSuccess
  rw [h]
  split
  · rfl
  · split <;> rfl

theorem onFailure_open (h : b.state = .opened u) : b.onFailure t nowMs = b := by
  unfold onFailure
  rw [h]
  split
  · rfl
  · split
    · rfl
    · split <;> rfl

theorem onRetryAfter_open (h : b.state = .opened u) :
    ∃ v, u ≤ v ∧ (b.onRetryAfter t nowMs ms).state = .opened v := by
  unfold onRetryAfter
  split
  · exact ⟨u, Nat.le_refl u, h⟩
  · split
    · exact ⟨u, Nat.le_refl u, h⟩
    · split
      · exact ⟨_, le_retryUntil h, rfl⟩
      · split
        · exact ⟨_, le_retryUntil h, rfl⟩
        · exact ⟨u, Nat.le_refl u, h⟩

/-- No report lowers the end of an open window, or closes it. -/
theorem report_open (t : AdmissionTicket) (r : Report) (h : b.state = .opened u) :
    ∃ v, u ≤ v ∧ (b.report t r).state = .opened v := by
  cases r with
  | success => exact ⟨u, Nat.le_refl u, by rw [report, onSuccess_open h, h]⟩
  | failure nowMs => exact ⟨u, Nat.le_refl u, by rw [report, onFailure_open h, h]⟩
  | retryAfter nowMs ms => exact onRetryAfter_open h
  | failureWithRetryAfter nowMs header =>
    cases header with
    | none => exact ⟨u, Nat.le_refl u, by rw [report, onFailureWithRetryAfter, onFailure_open h, h]⟩
    | some ms =>
      simp only [report, onFailureWithRetryAfter, onFailure_open h]
      exact onRetryAfter_open h

theorem admitAt_open (h : b.state = .opened u) (hlt : nowMs < u) :
    b.admitAt nowMs = (b, ⟨.rejected (u - nowMs), none⟩) := by
  simp only [admitAt, h, if_pos hlt]

/-- While no request comes at the end of the window or later, the breaker stays open. -/
theorem run_open (h : b.state = .opened u) (hle : d ≤ u)
    (hearly : ∀ nowMs, BreakerOp.admitAt nowMs ∈ ops → nowMs < d) :
    ∃ v, d ≤ v ∧ (b.run ops).state = .opened v := by
  induction ops generalizing b u with
  | nil => exact ⟨u, hle, h⟩
  | cons op ops ih =>
    have hrest : ∀ nowMs, BreakerOp.admitAt nowMs ∈ ops → nowMs < d :=
      fun nowMs hmem => hearly nowMs (by simp [hmem])
    rw [run_cons]
    cases op with
    | admitAt nowMs =>
      have hlt := hearly nowMs (by simp)
      have hsame : b.step (.admitAt nowMs) = b := by rw [step, admitAt_open h (by omega)]
      rw [hsame]
      exact ih h hle hrest
    | report t r =>
      obtain ⟨v, huv, hv⟩ := report_open t r h
      exact ih hv (by omega) hrest

theorem time_le_last (h : Ordered (ops ++ [.admitAt nowMs])) {earlier : Nat}
    (hmem : BreakerOp.admitAt earlier ∈ ops) : earlier ≤ nowMs := by
  rw [Ordered, List.filterMap_append, List.pairwise_append] at h
  exact h.2.2 earlier (List.mem_filterMap.mpr ⟨_, hmem, rfl⟩) nowMs (by simp [BreakerOp.time])

/-- Once a breaker is open, every later request before the end of the window is turned away. -/
theorem rejects_before (h : b.state = .opened u) (hle : d ≤ u)
    (hordered : Ordered (after ++ [.admitAt nowMs])) (hlt : nowMs < d) :
    ∃ v, d ≤ v ∧ ((b.run after).admitAt nowMs).2 = ⟨.rejected (v - nowMs), none⟩ := by
  obtain ⟨v, hv, hopen⟩ := run_open h hle fun earlier hmem => by
    have := time_le_last hordered hmem
    omega
  exact ⟨v, hv, by rw [admitAt_open hopen (by omega)]⟩

/-- A failure that opens a breaker opens it for the recovery time of its class. -/
theorem onFailure_opens (hclosed : b.state.isOpen = false)
    (hopen : (b.onFailure t nowMs).state.isOpen = true) :
    (b.onFailure t nowMs).state = .opened (saturatingAdd nowMs b.credential.recoveryMs) := by
  unfold onFailure at hopen ⊢
  split at hopen
  · rw [hclosed] at hopen; cases hopen
  · rename_i hissuer
    rw [if_neg hissuer]
    split at hopen
    · rw [hclosed] at hopen; cases hopen
    · rename_i hgeneration
      rw [if_neg hgeneration]
      split at hopen
      · rw [hclosed] at hopen; cases hopen
      · rename_i hprobe
        rw [if_neg hprobe]
        split at hopen
        · rename_i failures hstate
          split at hopen
          · cases hopen
          · rename_i hthreshold
            simp only [if_neg hthreshold]
            rfl
        · rename_i hstate
          rw [hstate] at hclosed
          cases hclosed
        · rfl

/-- An accepted `Retry-After` leaves the breaker open for at least its time. -/
theorem onRetryAfter_accepted (h : b.Accepts t) :
    ∃ v, saturatingAdd nowMs ms ≤ v ∧ (b.onRetryAfter t nowMs ms).state = .opened v := by
  have hle : saturatingAdd nowMs ms ≤ b.retryUntil t nowMs ms := by
    unfold retryUntil
    split <;> simp only
    · split <;> omega
    · split <;> omega
  obtain ⟨hissuer, hprobe, hgeneration⟩ := h
  have hnotHalf : ¬(b.state.isHalfOpen && !t.probe) = true := by
    rw [Bool.and_eq_true]
    rintro ⟨hhalf, hnot⟩
    rw [hprobe hhalf] at hnot
    cases hnot
  unfold onRetryAfter
  rw [if_neg (not_not.mpr hissuer), if_neg hnotHalf]
  split
  · exact ⟨_, hle, rfl⟩
  · rename_i hstale
    rcases hgeneration with hfresh | ⟨hopen, hcohort⟩
    · exact absurd hfresh hstale
    · rw [if_pos (by simp [hopen, hcohort])]
      exact ⟨_, hle, rfl⟩

/-- In every sequence of admissions and reports with times that do not go back: no report lowers
the end of an open window; every request before it is turned away with the time that is left;
after a failure at a time opened the breaker, no request is admitted before the recovery time of
its class has passed; and after an accepted `Retry-After` none before its time has, both times
saturating. -/
theorem window_honoured (issuer : Nat) (credential : CredentialClass) (before : List BreakerOp) :
    let b := (new issuer credential).run before
    (∀ t r u, b.state = .opened u → ∃ v, u ≤ v ∧ (b.report t r).state = .opened v) ∧
    (∀ nowMs u, b.state = .opened u → nowMs < u →
      b.admitAt nowMs = (b, ⟨.rejected (u - nowMs), none⟩)) ∧
    (∀ t r nowMs after later, b.FailureOpens t nowMs r →
      Ordered (before ++ .report t r :: after ++ [.admitAt later]) →
      later < saturatingAdd nowMs b.credential.recoveryMs →
      (((b.report t r).run after).admitAt later).2.admission.admitted = false) ∧
    ∀ t r nowMs ms after later, b.HeaderAccepted t nowMs ms r →
      Ordered (before ++ .report t r :: after ++ [.admitAt later]) →
      later < saturatingAdd nowMs ms →
      (((b.report t r).run after).admitAt later).2.admission.admitted = false := by
  intro b
  have htail : ∀ {t r after later}, Ordered (before ++ .report t r :: after ++ [.admitAt later]) →
      Ordered (after ++ [.admitAt later]) := by
    intro t r after later hordered
    refine hordered.sublist (List.Sublist.filterMap _ ?_)
    rw [List.append_assoc]
    exact (List.sublist_cons_self _ _).trans (List.sublist_append_right _ _)
  have hrejects : ∀ {c : Breaker} {u d later : Nat} {after : List BreakerOp}, c.state = .opened u →
      d ≤ u → Ordered (after ++ [.admitAt later]) → later < d →
      ((c.run after).admitAt later).2.admission.admitted = false := by
    intro c u d later after hopen hle hordered hlt
    obtain ⟨v, -, hrejected⟩ := rejects_before hopen hle hordered hlt
    rw [hrejected]
    rfl
  refine ⟨fun t r u => report_open t r, fun nowMs u => admitAt_open, ?_, ?_⟩
  · intro t r nowMs after later hopens hordered hlt
    obtain ⟨u, hle, hopen⟩ : ∃ u, saturatingAdd nowMs b.credential.recoveryMs ≤ u ∧
        (b.report t r).state = .opened u := by
      cases r with
      | success => cases hopens
      | retryAfter _ _ => cases hopens
      | failure _ =>
        obtain ⟨rfl, hclosed, hopen⟩ := hopens
        exact ⟨_, Nat.le_refl _, onFailure_opens hclosed hopen⟩
      | failureWithRetryAfter _ header =>
        obtain ⟨rfl, hclosed, hopen⟩ := hopens
        have hfailed := onFailure_opens hclosed hopen
        cases header with
        | none => exact ⟨_, Nat.le_refl _, hfailed⟩
        | some ms => exact onRetryAfter_open hfailed
    exact hrejects hopen hle (htail hordered) hlt
  · intro t r nowMs ms after later haccepted hordered hlt
    obtain ⟨u, hle, hopen⟩ : ∃ u, saturatingAdd nowMs ms ≤ u ∧
        (b.report t r).state = .opened u := by
      cases r with
      | success => cases haccepted
      | failure _ => cases haccepted
      | retryAfter _ _ =>
        obtain ⟨rfl, rfl, haccepts⟩ := haccepted
        exact onRetryAfter_accepted haccepts
      | failureWithRetryAfter _ header =>
        obtain ⟨rfl, rfl, haccepts⟩ := haccepted
        exact onRetryAfter_accepted haccepts
    exact hrejects hopen hle (htail hordered) hlt

/-- One failure of five with a header of a second opens the breaker for that second, and at the
largest time there is a request gets through whatever a header has asked for. -/
theorem window_not_honoured :
    (¬ ∀ (issuer : Nat) (credential : CredentialClass) (before : List BreakerOp)
        (t : AdmissionTicket) (nowMs : Nat) (header : Option Nat) (after : List BreakerOp)
        (later : Nat),
      let b := (new issuer credential).run before
      let c := b.report t (.failureWithRetryAfter nowMs header)
      b.state.isOpen = false → c.state.isOpen = true →
      Ordered (before ++ .report t (.failureWithRetryAfter nowMs header) :: after ++
        [.admitAt later]) →
      later < saturatingAdd nowMs b.credential.recoveryMs →
      ((c.run after).admitAt later).2.admission.admitted = false) ∧
    ¬ ∀ (issuer : Nat) (credential : CredentialClass) (before : List BreakerOp)
        (t : AdmissionTicket) (nowMs ms : Nat) (after : List BreakerOp) (later : Nat),
      let b := (new issuer credential).run before
      b.HeaderAccepted t nowMs ms (.retryAfter nowMs ms) → later ≤ u64Max →
      Ordered (before ++ .report t (.retryAfter nowMs ms) :: after ++ [.admitAt later]) →
      later < nowMs + ms →
      (((b.report t (.retryAfter nowMs ms)).run after).admitAt later).2.admission.admitted =
        false := by
  constructor
  · intro h
    have hrejected := h 0 .apiKey [.admitAt 0] ⟨0, 0, false⟩ 0 (some 1000) [] 1000 (by decide)
      (by decide) (by simp [Ordered, BreakerOp.time, Report.time]) (by decide)
    exact absurd hrejected (by decide)
  · intro h
    have hrejected := h 0 .apiKey [.admitAt 1] ⟨0, 0, false⟩ 1 u64Max [] u64Max
      ⟨rfl, rfl, rfl, by simp [run, step, admitAt, new, State.isHalfOpen], .inl rfl⟩
      (Nat.le_refl _) (by simp [Ordered, BreakerOp.time, Report.time, u64Max]) (by omega)
    exact absurd hrejected (by decide)

end Breaker

end Policy
