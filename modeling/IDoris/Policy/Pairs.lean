import IDoris.Library.System
import IDoris.Policy.Book
import IDoris.Policy.Probes
import Mathlib.Logic.Equiv.Basic

/-!
# Paired admission

A pair of gates is admitted as two single admissions, in either order, or not at
all. Issuers are the only trace of the order, so results are compared up to a
renaming of the issuers that were not given out before.
-/
namespace Policy

/-- A renaming of issuers. -/
abbrev Renaming := Equiv.Perm Nat

def AdmissionTicket.rename (σ : Renaming) (t : AdmissionTicket) : AdmissionTicket :=
  { t with issuer := σ t.issuer }

def Admit.rename (σ : Renaming) (a : Admit) : Admit :=
  { a with ticket := a.ticket.map (AdmissionTicket.rename σ) }

def Breaker.rename (σ : Renaming) (b : Breaker) : Breaker := b.clone (σ b.issuer)

/-- A book and the next issuer id of its process. -/
structure BookState (K : Type) [DecidableEq K] where
  book : BreakerBook K
  next : Nat

/-- What can happen to a book; breakers are also created elsewhere in the process. -/
inductive BookOp (K : Type) where
  | admitAt (key : CredentialClass × K) (nowMs : Nat)
  | admitPair (first second : CredentialClass × K) (nowMs : Nat)
  | report (key : CredentialClass × K) (t : AdmissionTicket) (r : Report)
  | elsewhere

namespace BookState

variable {K : Type} [DecidableEq K]

def readiness (s : BookState K) (key : CredentialClass × K) (nowMs : Nat) : Admission :=
  s.book.readiness key nowMs

def admitAt (s : BookState K) (key : CredentialClass × K) (nowMs : Nat) :
    Option (Admit × BookState K) :=
  (s.book.admitAt s.next key nowMs).map fun ((book, a), next) => (a, ⟨book, next⟩)

/-- A refusal comes before anything is changed. -/
def admitPair (s : BookState K) (first second : CredentialClass × K) (nowMs : Nat) :
    Option (Except PairReject (Admit × Admit) × BookState K) :=
  match s.book.admitPair s.next first second nowMs with
  | .error e => some (.error e, s)
  | .ok result => result.map fun ((book, a, b), next) => (.ok (a, b), ⟨book, next⟩)

/-- Two single admissions, one after the other. -/
def admitTwice (s : BookState K) (first second : CredentialClass × K) (nowMs : Nat) :
    Option (Admit × Admit × BookState K) := do
  let (a, s) ← s.admitAt first nowMs
  let (b, s) ← s.admitAt second nowMs
  some (a, b, s)

def step (s : BookState K) : BookOp K → Option (BookState K)
  | .admitAt key nowMs => (s.admitAt key nowMs).map Prod.snd
  | .admitPair first second nowMs => (s.admitPair first second nowMs).map Prod.snd
  | .report key t r => some { s with book := s.book.report key t r }
  | .elsewhere => (nextIssuer s.next).map fun next => { s with next := next }

end BookState

/-- The life of a book from its creation in a process that has breakers already. -/
def bookSystem (K : Type) [DecidableEq K] : Transition.System (BookState K) (BookOp K) where
  step s op s' := s.step op = some s'

/-- The books of a run that did not end in the panic of an exhausted issuer counter. -/
def BookState.Reachable {K : Type} [DecidableEq K] (s : BookState K) : Prop :=
  ∃ next ops, next ≤ u64Max ∧ (bookSystem K).Run ⟨BreakerBook.new, next⟩ ops s

/-- The same book with its issuers renamed; the order of the entries is not compared. -/
structure BookState.Renamed {K : Type} [DecidableEq K] (σ : Renaming) (s s' : BookState K) :
    Prop where
  next : s'.next = s.next
  breakers : ∀ key, s'.book.breakers.get key = (s.book.breakers.get key).map (Breaker.rename σ)

namespace BreakerBook

variable {K : Type} [DecidableEq K] {book book' : BreakerBook K} {next next' nowMs : Nat}
  {key j : CredentialClass × K} {b : Breaker}

/-- How many breakers have to be created for a key. -/
def absent (book : BreakerBook K) (key : CredentialClass × K) : Nat :=
  if (book.breakers.get key).isSome then 0 else 1

/-- The breaker of a key, a new one when there is none. -/
def gate (book : BreakerBook K) (key : CredentialClass × K) (next : Nat) : Breaker :=
  (book.breakers.get key).getD (Breaker.new next key.1)

theorem prepare_some (h : book.prepare next key = some (book', next')) :
    next' = next + book.absent key ∧ (next ≤ u64Max → next' ≤ u64Max) ∧
      ∀ j, book'.breakers.get j =
        if key = j then some (book.gate key next) else book.breakers.get j := by
  unfold prepare at h
  unfold absent gate
  cases hget : book.breakers.get key with
  | some b =>
    simp only [hget, Option.some.injEq, Prod.mk.injEq] at h
    obtain ⟨rfl, rfl⟩ := h
    refine ⟨rfl, id, fun j => ?_⟩
    split
    · rename_i hkey
      rw [← hkey, hget]
      rfl
    · rfl
  | none =>
    simp only [hget, nextIssuer, Option.map_eq_some_iff] at h
    obtain ⟨after, hnext, heq⟩ := h
    simp only [Prod.mk.injEq] at heq
    obtain ⟨rfl, rfl⟩ := heq
    split at hnext
    · rename_i hlt
      cases hnext
      exact ⟨rfl, fun _ => hlt, fun j => Keyed.Map.get_insert⟩
    · cases hnext

theorem prepare_isSome (h : next + book.absent key ≤ u64Max) :
    ∃ book', book.prepare next key = some (book', next + book.absent key) := by
  unfold prepare
  unfold absent at h ⊢
  cases hget : book.breakers.get key with
  | some b => exact ⟨book, rfl⟩
  | none =>
    rw [hget] at h
    have hlt : next < u64Max := h
    simp only [nextIssuer, if_pos hlt, Option.map_some, Option.isSome_none, Bool.false_eq_true,
      if_false]
    exact ⟨_, rfl⟩

theorem claim_of_get (nowMs : Nat) (h : book.breakers.get key = some b) :
    (book.claim key nowMs).2 = (b.admitAt nowMs).2 ∧
      ∀ j, (book.claim key nowMs).1.breakers.get j =
        if key = j then some (b.admitAt nowMs).1 else book.breakers.get j := by
  simp only [claim, h, true_and]
  exact fun j => Keyed.Map.get_insert

theorem absent_congr (h : book'.breakers.get key = book.breakers.get key) :
    book'.absent key = book.absent key := by
  simp only [absent, h]

theorem gate_congr (h : book'.breakers.get key = book.breakers.get key) :
    book'.gate key next = book.gate key next := by
  simp only [gate, h]

/-- Before its first admission a missing breaker answers as a new one. -/
theorem readiness_gate : book.readiness key nowMs = (book.gate key next).readiness nowMs := by
  unfold readiness gate
  cases book.breakers.get key <;> rfl

end BreakerBook

namespace Breaker

variable {b : Breaker} {σ : Renaming} {t : AdmissionTicket} {r : Report} {nowMs : Nat}

theorem readiness_eq : b.readiness nowMs = (b.admitAt nowMs).2.admission := by
  unfold readiness admitAt
  split
  · rfl
  · split <;> rfl
  · rfl
  · rfl

/-- An admission does not look at the issuer. -/
theorem admitAt_rename :
    (b.rename σ).admitAt nowMs = ((b.admitAt nowMs).1.rename σ, (b.admitAt nowMs).2.rename σ) := by
  simp only [admitAt, rename, clone]
  split
  · rfl
  · split <;> rfl
  · rfl
  · rfl

theorem rename_of_fixed (h : σ b.issuer = b.issuer) : b.rename σ = b := by
  simp only [rename, clone, h]

@[simp] theorem admitAt_issuer : (b.admitAt nowMs).1.issuer = b.issuer := by
  have h : Admitted b (b.admitAt nowMs) := admit_cases
  generalize b.admitAt nowMs = a at h
  cases h <;> rfl

@[simp] theorem report_issuer : (b.report t r).issuer = b.issuer := by
  have h := report_effect (b := b) (t := t) (r := r)
  generalize b.report t r = c at h
  cases h <;> rfl

end Breaker

namespace BookState

variable {K : Type} [DecidableEq K] {s s' s'' : BookState K} {key first second : CredentialClass × K}
  {nowMs : Nat} {a b a' b' : Admit} {op : BookOp K}

/-- Everything a single admission does. -/
structure Single (s : BookState K) (key : CredentialClass × K) (nowMs : Nat) (a : Admit)
    (s' : BookState K) : Prop where
  next : s'.next = s.next + s.book.absent key
  room : s.next ≤ u64Max → s'.next ≤ u64Max
  answer : a = ((s.book.gate key s.next).admitAt nowMs).2
  breakers : ∀ j, s'.book.breakers.get j =
    if key = j then some ((s.book.gate key s.next).admitAt nowMs).1 else s.book.breakers.get j

theorem admitAt_some (h : s.admitAt key nowMs = some (a, s')) : s.Single key nowMs a s' := by
  simp only [admitAt, BreakerBook.admitAt, Option.map_map, Option.map_eq_some_iff] at h
  obtain ⟨⟨book, next⟩, hprepare, heq⟩ := h
  simp only [Function.comp, Prod.mk.injEq] at heq
  obtain ⟨rfl, rfl⟩ := heq
  obtain ⟨hnext, hroom, hget⟩ := BreakerBook.prepare_some hprepare
  obtain ⟨hanswer, hclaimed⟩ := BreakerBook.claim_of_get nowMs ((hget key).trans (if_pos rfl))
  refine ⟨hnext, hroom, hanswer, fun j => ?_⟩
  rw [hclaimed]
  split
  · rfl
  · rename_i hne
    rw [hget, if_neg hne]

theorem admitAt_isSome (nowMs : Nat) (h : s.next + s.book.absent key ≤ u64Max) :
    ∃ a s', s.admitAt key nowMs = some (a, s') := by
  obtain ⟨book, hprepare⟩ := BreakerBook.prepare_isSome h
  simp only [admitAt, BreakerBook.admitAt, hprepare, Option.map_some]
  exact ⟨_, _, rfl⟩

/-- The readiness of a gate is the admission a single admission returns. -/
theorem Single.admission (h : s.Single key nowMs a s') :
    a.admission = s.readiness key nowMs := by
  rw [h.answer, readiness, BreakerBook.readiness_gate, Breaker.readiness_eq]

/-- The admissions of both gates. -/
def Ready (s : BookState K) (first second : CredentialClass × K) (nowMs : Nat) : Prop :=
  (s.readiness first nowMs).admitted = true ∧ (s.readiness second nowMs).admitted = true

/-- How many breakers have to be created for a pair. -/
def missing (s : BookState K) (first second : CredentialClass × K) : Nat :=
  s.book.absent first + s.book.absent second

/-- Everything the admission of a pair does. -/
structure Paired (s : BookState K) (first second : CredentialClass × K) (nowMs : Nat) (a b : Admit)
    (s' : BookState K) : Prop where
  next : s'.next = s.next + s.missing first second
  room : s.next ≤ u64Max → s'.next ≤ u64Max
  answer : a = ((s.book.gate first s.next).admitAt nowMs).2
  answer' : b = ((s.book.gate second (s.next + s.book.absent first)).admitAt nowMs).2
  breakers : ∀ j, s'.book.breakers.get j =
    if first = j then some ((s.book.gate first s.next).admitAt nowMs).1
    else if second = j then
      some ((s.book.gate second (s.next + s.book.absent first)).admitAt nowMs).1
    else s.book.breakers.get j

theorem admitTwice_some (hne : first ≠ second)
    (h : s.admitTwice first second nowMs = some (a, b, s'')) :
    s.Paired first second nowMs a b s'' := by
  simp only [admitTwice, Option.bind_eq_bind, Option.bind_eq_some_iff] at h
  obtain ⟨⟨a', s'⟩, hfirst, ⟨b', t⟩, hsecond, heq⟩ := h
  cases heq
  have h₁ := admitAt_some hfirst
  have h₂ := admitAt_some hsecond
  have hkept : s'.book.breakers.get second = s.book.breakers.get second := by
    rw [h₁.breakers, if_neg hne]
  have hgate : s'.book.gate second s'.next =
      s.book.gate second (s.next + s.book.absent first) := by
    rw [h₁.next]
    exact BreakerBook.gate_congr hkept
  refine ⟨?_, fun hle => h₂.room (h₁.room hle), h₁.answer, ?_, fun j => ?_⟩
  · rw [h₂.next, h₁.next, BreakerBook.absent_congr hkept, missing, Nat.add_assoc]
  · rw [h₂.answer, hgate]
  · rw [h₂.breakers, h₁.breakers, hgate]
    by_cases hj : first = j
    · subst hj
      rw [if_neg (Ne.symm hne), if_pos rfl, if_pos rfl]
    · rw [if_neg hj, if_neg hj]

theorem admitTwice_isSome (nowMs : Nat) (hne : first ≠ second)
    (h : s.next + s.missing first second ≤ u64Max) :
    ∃ a b s', s.admitTwice first second nowMs = some (a, b, s') := by
  unfold missing at h
  have hroom : s.next + s.book.absent first ≤ u64Max := by omega
  obtain ⟨a, s', hfirst⟩ := admitAt_isSome nowMs hroom
  have h₁ := admitAt_some hfirst
  have hkept : s'.book.breakers.get second = s.book.breakers.get second := by
    rw [h₁.breakers, if_neg hne]
  have hroom' : s'.next + s'.book.absent second ≤ u64Max := by
    rw [h₁.next, BreakerBook.absent_congr hkept]
    omega
  obtain ⟨b, s'', hsecond⟩ := admitAt_isSome nowMs hroom'
  refine ⟨a, b, s'', ?_⟩
  simp only [admitTwice, hfirst, hsecond, Option.bind_eq_bind, Option.bind_some]

theorem admitPair_error (h : ¬s.Ready first second nowMs) (hne : first ≠ second) :
    s.admitPair first second nowMs =
      some (.error (.gate (s.readiness first nowMs) (s.readiness second nowMs)), s) := by
  have hgate : (!(s.book.readiness first nowMs).admitted ||
      !(s.book.readiness second nowMs).admitted) = true := by
    simp only [Ready, readiness, not_and_or, Bool.not_eq_true] at h
    simpa using h
  simp only [admitPair, BreakerBook.admitPair, if_neg hne, hgate, if_true, readiness]

/-- A refusal leaves the book as it was. -/
theorem admitPair_refused {e : PairReject}
    (h : s.admitPair first second nowMs = some (.error e, s')) : s' = s := by
  unfold admitPair at h
  split at h
  · cases h
    rfl
  · obtain ⟨_, -, heq⟩ := Option.map_eq_some_iff.mp h
    cases heq

theorem admitPair_ready (h : s.Ready first second nowMs) (hne : first ≠ second) :
    s.admitPair first second nowMs =
      (s.book.prepare s.next first).bind fun (book, next) =>
        (book.prepare next second).map fun (book, next) =>
          (.ok ((book.claim first nowMs).2, ((book.claim first nowMs).1.claim second nowMs).2),
            ⟨((book.claim first nowMs).1.claim second nowMs).1, next⟩) := by
  have hgate : (!(s.book.readiness first nowMs).admitted ||
      !(s.book.readiness second nowMs).admitted) = false := by
    obtain ⟨hfirst, hsecond⟩ := h
    simp only [readiness] at hfirst hsecond
    rw [hfirst, hsecond]
    rfl
  simp only [admitPair, BreakerBook.admitPair, if_neg hne, hgate, Bool.false_eq_true, if_false,
    Option.map_bind, Option.map_map, Function.comp_def]

/-- Both breakers are in the book before the first of them is claimed. -/
theorem admitPair_some (hne : first ≠ second)
    (h : s.admitPair first second nowMs = some (.ok (a, b), s')) :
    s.Ready first second nowMs ∧ s.Paired first second nowMs a b s' := by
  have hready : s.Ready first second nowMs := by
    by_contra hnot
    rw [admitPair_error hnot hne] at h
    cases h
  refine ⟨hready, ?_⟩
  simp only [admitPair_ready hready hne, Option.bind_eq_some_iff, Option.map_eq_some_iff] at h
  obtain ⟨⟨one, next₁⟩, hfirst, ⟨two, next₂⟩, hsecond, heq⟩ := h
  simp only [Prod.mk.injEq, Except.ok.injEq] at heq
  obtain ⟨⟨rfl, rfl⟩, rfl⟩ := heq
  obtain ⟨hnext₁, hroom₁, hget₁⟩ := BreakerBook.prepare_some hfirst
  obtain ⟨hnext₂, hroom₂, hget₂⟩ := BreakerBook.prepare_some hsecond
  subst hnext₁
  subst hnext₂
  have hkept : one.breakers.get second = s.book.breakers.get second := by
    rw [hget₁, if_neg hne]
  have hgate : one.gate second (s.next + s.book.absent first) =
      s.book.gate second (s.next + s.book.absent first) := BreakerBook.gate_congr hkept
  have htwo : two.breakers.get first = some (s.book.gate first s.next) := by
    rw [hget₂, if_neg (Ne.symm hne), hget₁, if_pos rfl]
  obtain ⟨hanswer₁, hclaimed₁⟩ := BreakerBook.claim_of_get nowMs htwo
  have hother : (two.claim first nowMs).1.breakers.get second =
      some (s.book.gate second (s.next + s.book.absent first)) := by
    rw [hclaimed₁, if_neg hne, hget₂, if_pos rfl, hgate]
  obtain ⟨hanswer₂, hclaimed₂⟩ := BreakerBook.claim_of_get nowMs hother
  refine ⟨?_, fun hle => hroom₂ (hroom₁ hle), hanswer₁, hanswer₂, fun j => ?_⟩
  · simp only [BreakerBook.absent_congr hkept, missing, Nat.add_assoc]
  · simp only [hclaimed₂, hclaimed₁, hget₂, hget₁]
    by_cases hj : first = j
    · subst hj
      simp only [if_neg (Ne.symm hne), if_true]
    · by_cases hj' : second = j
      · simp only [hj', if_neg hj, if_true]
      · simp only [if_neg hj, if_neg hj']

theorem admitPair_isSome (hready : s.Ready first second nowMs) (hne : first ≠ second)
    (h : s.next + s.missing first second ≤ u64Max) :
    ∃ a b s', s.admitPair first second nowMs = some (.ok (a, b), s') := by
  unfold missing at h
  have hroom : s.next + s.book.absent first ≤ u64Max := by omega
  obtain ⟨one, hfirst⟩ := BreakerBook.prepare_isSome hroom
  have hkept : one.breakers.get second = s.book.breakers.get second := by
    rw [(BreakerBook.prepare_some hfirst).2.2, if_neg hne]
  have hroom' : s.next + s.book.absent first + one.absent second ≤ u64Max := by
    rw [BreakerBook.absent_congr hkept]
    omega
  obtain ⟨two, hsecond⟩ := BreakerBook.prepare_isSome hroom'
  simp only [admitPair_ready hready hne, hfirst, hsecond, Option.bind_some, Option.map_some]
  exact ⟨_, _, _, rfl⟩

/-- No issuer of the book is still to be given out. -/
structure Issued (s : BookState K) : Prop where
  next : s.next ≤ u64Max
  old : ∀ key b, s.book.breakers.get key = some b → b.issuer < s.next

theorem Issued.gate {n : Nat} (h : s.Issued) (hle : s.next ≤ n) :
    (s.book.gate key n).issuer < n + s.book.absent key := by
  unfold BreakerBook.gate BreakerBook.absent
  cases hget : s.book.breakers.get key with
  | none => exact Nat.lt_succ_self n
  | some b => exact Nat.lt_of_lt_of_le (h.old key b hget) hle

theorem Issued.single (h : s.Issued) (hsingle : s.Single key nowMs a s') : s'.Issued := by
  refine ⟨hsingle.room h.next, fun j b hget => ?_⟩
  rw [hsingle.next]
  rw [hsingle.breakers] at hget
  split at hget
  · cases hget
    rw [Breaker.admitAt_issuer]
    exact h.gate (Nat.le_refl _)
  · exact Nat.lt_add_right _ (h.old j b hget)

theorem Issued.paired (h : s.Issued) (hpaired : s.Paired first second nowMs a b s') :
    s'.Issued := by
  refine ⟨hpaired.room h.next, fun j c hget => ?_⟩
  rw [hpaired.next, missing, ← Nat.add_assoc]
  rw [hpaired.breakers] at hget
  split at hget
  · cases hget
    rw [Breaker.admitAt_issuer]
    exact Nat.lt_add_right _ (h.gate (Nat.le_refl _))
  · split at hget
    · cases hget
      rw [Breaker.admitAt_issuer]
      exact h.gate (Nat.le_add_right _ _)
    · exact Nat.lt_add_right _ (Nat.lt_add_right _ (h.old j c hget))

theorem Issued.step (h : s.Issued) (hstep : s.step op = some s') : s'.Issued := by
  cases op with
  | admitAt key nowMs =>
    obtain ⟨⟨a, t⟩, hadmit, rfl⟩ := Option.map_eq_some_iff.mp hstep
    exact h.single (admitAt_some hadmit)
  | admitPair first second nowMs =>
    obtain ⟨⟨result, t⟩, hadmit, rfl⟩ := Option.map_eq_some_iff.mp hstep
    cases result with
    | error e => exact admitPair_refused hadmit ▸ h
    | ok answers =>
      have hne : first ≠ second := by
        intro heq
        simp only [admitPair, BreakerBook.admitPair, if_pos heq, Option.some.injEq, Prod.mk.injEq,
          reduceCtorEq, false_and] at hadmit
      exact h.paired (admitPair_some hne hadmit).2
  | report key t r =>
    cases hstep
    refine ⟨h.next, fun j b hget => ?_⟩
    simp only [BreakerBook.report] at hget
    split at hget
    · exact h.old j b hget
    · rename_i c hfound
      simp only [Keyed.Map.get_insert] at hget
      split at hget
      · cases hget
        rw [Breaker.report_issuer]
        exact h.old key c hfound
      · exact h.old j b hget
  | elsewhere =>
    obtain ⟨next, hnext, rfl⟩ := Option.map_eq_some_iff.mp hstep
    simp only [nextIssuer] at hnext
    split at hnext
    · rename_i hlt
      cases hnext
      exact ⟨hlt, fun j b hget => Nat.lt_succ_of_lt (h.old j b hget)⟩
    · cases hnext

theorem Reachable.issued (h : s.Reachable) : s.Issued := by
  obtain ⟨next, ops, hle, hrun⟩ := h
  refine hrun.invariant Issued (fun t op u ht hstep => ht.step hstep) ⟨hle, fun key b hget => ?_⟩
  cases hget

/-- Exchanges the two issuers that a pair of missing gates takes. -/
def exchange (s : BookState K) (first second : CredentialClass × K) : Renaming :=
  if s.missing first second = 2 then Equiv.swap s.next (s.next + 1) else Equiv.refl Nat

theorem exchange_old {i : Nat} (h : i < s.next) : s.exchange first second i = i := by
  unfold exchange
  split
  · exact Equiv.swap_apply_of_ne_of_ne (by omega) (by omega)
  · rfl

theorem Issued.rename_old (h : s.Issued) {c : Breaker} (hget : s.book.breakers.get key = some c) :
    c.rename (s.exchange first second) = c :=
  Breaker.rename_of_fixed (exchange_old (h.old key c hget))

/-- The breakers of a pair of gates in the two orders. -/
theorem gate_exchange (s : BookState K) (first second : CredentialClass × K) :
    s.book.gate first (s.next + s.book.absent second) =
        (s.book.gate first s.next).rename (s.exchange first second) ∧
      s.book.gate second s.next =
        (s.book.gate second (s.next + s.book.absent first)).rename (s.exchange first second) := by
  cases hfirst : s.book.breakers.get first with
  | some c =>
    have hmissing : s.missing first second ≠ 2 := by
      simp only [missing, BreakerBook.absent, hfirst, Option.isSome_some, if_true]
      split <;> omega
    simp only [exchange, if_neg hmissing, BreakerBook.gate,
      BreakerBook.absent, hfirst, Option.getD_some, Option.isSome_some, if_true, Nat.add_zero]
    exact ⟨rfl, rfl⟩
  | none =>
    cases hsecond : s.book.breakers.get second with
    | some c =>
      have hmissing : s.missing first second ≠ 2 := by
        simp [missing, BreakerBook.absent, hfirst, hsecond]
      simp only [exchange, if_neg hmissing, BreakerBook.gate,
        BreakerBook.absent, hsecond, Option.getD_some, Option.isSome_some, if_true, Nat.add_zero]
      exact ⟨rfl, rfl⟩
    | none =>
      have hmissing : s.missing first second = 2 := by
        simp [missing, BreakerBook.absent, hfirst, hsecond]
      simp only [exchange, if_pos hmissing, BreakerBook.gate, BreakerBook.absent, hfirst, hsecond,
        Option.getD_none, Option.isSome_none, Bool.false_eq_true, if_false, Breaker.rename,
        Breaker.clone, Breaker.new, Equiv.swap_apply_left, Equiv.swap_apply_right, and_self]

/-- A pair is admitted once: its answers and its book are determined. -/
theorem Paired.unique (h : s.Paired first second nowMs a b s')
    (h' : s.Paired first second nowMs a' b' s'') :
    a' = a ∧ b' = b ∧ s'.Renamed (Equiv.refl Nat) s'' := by
  refine ⟨h'.answer.trans h.answer.symm, h'.answer'.trans h.answer'.symm,
    h'.next.trans h.next.symm, fun j => ?_⟩
  have hsame : s''.book.breakers.get j = s'.book.breakers.get j :=
    (h'.breakers j).trans (h.breakers j).symm
  rw [hsame]
  cases s'.book.breakers.get j <;> rfl

/-- The other order gives out the new issuers the other way around. -/
theorem Paired.reverse (hs : s.Issued) (hne : first ≠ second)
    (h : s.Paired first second nowMs a b s') (h' : s.Paired second first nowMs b' a' s'') :
    a' = a.rename (s.exchange first second) ∧ b' = b.rename (s.exchange first second) ∧
      s'.Renamed (s.exchange first second) s'' := by
  obtain ⟨hfirst, hsecond⟩ := s.gate_exchange first second
  refine ⟨?_, ?_, ?_, fun j => ?_⟩
  · rw [h'.answer', hfirst, Breaker.admitAt_rename, h.answer]
  · rw [h'.answer, hsecond, Breaker.admitAt_rename, h.answer']
  · rw [h'.next, h.next, missing, missing, Nat.add_comm (s.book.absent second)]
  · rw [h'.breakers, h.breakers, hfirst, hsecond, Breaker.admitAt_rename, Breaker.admitAt_rename]
    by_cases hj : first = j
    · subst hj
      rw [if_neg (Ne.symm hne), if_pos rfl, if_pos rfl]
      rfl
    · rw [if_neg hj, if_neg hj]
      split
      · rfl
      · cases hget : s.book.breakers.get j with
        | none => rfl
        | some c => rw [Option.map_some, hs.rename_old hget]

/-- At every reachable book, for two distinct gates: readiness is the admission that a single
admission returns. A pair is refused exactly when one of the gates is not ready, and then nothing
has changed. Otherwise it is admitted, unless the process has no issuers left for the missing
breakers, and its answers and its book are those of two single admissions, in this order exactly
and in the other one up to the names of the issuers that were not given out before. -/
theorem admitPair_eq_admitTwice (hs : s.Reachable) (hne : first ≠ second) (nowMs : Nat) :
    (∀ key a s', s.admitAt key nowMs = some (a, s') → a.admission = s.readiness key nowMs) ∧
    (∀ e s', s.admitPair first second nowMs = some (.error e, s') ↔
      ¬s.Ready first second nowMs ∧
        e = .gate (s.readiness first nowMs) (s.readiness second nowMs) ∧ s' = s) ∧
    ((∃ a b s', s.admitPair first second nowMs = some (.ok (a, b), s')) ↔
      s.Ready first second nowMs ∧ s.next + s.missing first second ≤ u64Max) ∧
    ∀ a b s', s.admitPair first second nowMs = some (.ok (a, b), s') →
      (∃ s'', s.admitTwice first second nowMs = some (a, b, s'') ∧
        s'.Renamed (Equiv.refl Nat) s'') ∧
      ∃ σ : Renaming, (∀ i < s.next, σ i = i) ∧ ∃ s'',
        s.admitTwice second first nowMs = some (b.rename σ, a.rename σ, s'') ∧
          s'.Renamed σ s'' := by
  have hissued := hs.issued
  refine ⟨fun key a s' h => (admitAt_some h).admission, fun e s' => ?_, ?_, ?_⟩
  · by_cases hready : s.Ready first second nowMs
    · simp only [hready, not_true_eq_false, false_and, iff_false, admitPair_ready hready hne,
        Option.bind_eq_some_iff, Option.map_eq_some_iff, not_exists, not_and]
      rintro ⟨one, next⟩ - ⟨two, next'⟩ - hsame
      cases hsame
    · rw [admitPair_error hready hne]
      simp only [hready, not_false_eq_true, true_and, Option.some.injEq, Prod.mk.injEq,
        Except.error.injEq, eq_comm]
  · constructor
    · rintro ⟨a, b, s', h⟩
      obtain ⟨hready, hpaired⟩ := admitPair_some hne h
      exact ⟨hready, hpaired.next ▸ hpaired.room hissued.next⟩
    · rintro ⟨hready, hroom⟩
      exact admitPair_isSome hready hne hroom
  · intro a b s' h
    obtain ⟨-, hpaired⟩ := admitPair_some hne h
    have hroom : s.next + s.missing first second ≤ u64Max :=
      hpaired.next ▸ hpaired.room hissued.next
    have hroom' : s.next + s.missing second first ≤ u64Max := by
      rwa [missing, Nat.add_comm (s.book.absent second)]
    constructor
    · obtain ⟨a', b', s'', htwice⟩ := admitTwice_isSome nowMs hne hroom
      obtain ⟨rfl, rfl, hsame⟩ := hpaired.unique (admitTwice_some hne htwice)
      exact ⟨s'', htwice, hsame⟩
    · obtain ⟨b', a', s'', htwice⟩ := admitTwice_isSome nowMs (Ne.symm hne) hroom'
      obtain ⟨rfl, rfl, hsame⟩ := hpaired.reverse hissued hne
        (admitTwice_some (Ne.symm hne) htwice)
      exact ⟨s.exchange first second, fun i hi => exchange_old hi, s'', htwice, hsame⟩

/-- A pair of missing gates in a fresh book. -/
theorem admitPair_eq_admitTwice_new :
    ∃ a b s', (⟨BreakerBook.new, 0⟩ : BookState Nat).admitPair (.local, 0) (.apiKey, 0) 5 =
      some (.ok (a, b), s') := by
  have hs : (⟨BreakerBook.new, 0⟩ : BookState Nat).Reachable := ⟨0, [], by decide, .nil⟩
  have hne : ((CredentialClass.local, 0) : CredentialClass × Nat) ≠ (.apiKey, 0) := by decide
  exact (admitPair_eq_admitTwice hs hne 5).2.2.1.mpr ⟨⟨by decide, by decide⟩, by decide⟩

end BookState

end Policy
