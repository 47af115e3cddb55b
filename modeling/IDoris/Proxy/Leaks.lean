import IDoris.Proxy.Gates
import IDoris.Policy.Probes

/-!
# No gate is left half open

Every probe ticket in flight belongs to the one breaker that is half open because of
it, and every end of a request reports it there.
-/
namespace Policy.Breaker

variable {b : Breaker} {t : AdmissionTicket} {r : Report} {nowMs : Nat}

/-- Any report of the current probe ends the half-open state. -/
theorem report_probe {p : Bool} (h : b.state = .halfOpen p) :
    (b.report (b.ticket true) r).state.isHalfOpen = false := by
  have hfailure : ∀ nowMs, b.onFailure (b.ticket true) nowMs =
      b.reopen (saturatingAdd nowMs b.credential.recoveryMs) := by
    intro nowMs
    simp [onFailure, ticket, h, State.isHalfOpen]
  have hcurrent : b.Current (b.ticket true) := ⟨rfl, rfl⟩
  cases r with
  | success => simp [report, onSuccess, ticket, h, State.isHalfOpen]
  | failure nowMs =>
    rw [report, hfailure]
    rfl
  | retryAfter nowMs ms => simp [report, onRetryAfter, ticket, reopen, h, State.isHalfOpen]
  | failureWithRetryAfter nowMs header =>
    cases header with
    | none =>
      rw [report, onFailureWithRetryAfter, hfailure]
      rfl
    | some ms =>
      obtain ⟨v, hv⟩ := reopen_onRetryAfter
        (saturatingAdd nowMs b.credential.recoveryMs) nowMs ms hcurrent
      rw [report, onFailureWithRetryAfter, hfailure, hv]
      rfl

/-- A ticket that is no probe cannot touch a half-open breaker. -/
theorem Effect.of_plain {c : Breaker} (h : Effect b t r c) (hplain : t.probe = false)
    (hhalf : b.state.isHalfOpen = true) : c = b := by
  cases h with
  | unchanged => rfl
  | counted f g hstate hcurrent => rw [hstate] at hhalf; cases hhalf
  | closed _ hcurrent hprobe => rw [hplain] at hprobe; cases hprobe
  | reopened u hcurrent hprobe => rw [hplain] at hprobe; cases hprobe hhalf
  | extended u v hstate hle hown hcohort hheader => rw [hstate] at hhalf; cases hhalf

theorem Effect.issuer {c : Breaker} (h : Effect b t r c) : c.issuer = b.issuer := by
  cases h <;> rfl

theorem Effect.probing {c : Breaker} (h : Effect b t r c) (hb : b.state ≠ .halfOpen false) :
    c.state ≠ .halfOpen false := by
  cases h with
  | unchanged => exact hb
  | counted f g hstate hcurrent => exact nofun
  | closed hhalf hcurrent hprobe => exact nofun
  | reopened u hcurrent hprobe => exact nofun
  | extended u v hstate hle hown hcohort hheader => exact nofun

theorem admit_ticket (h : (b.readiness nowMs).admitted = true) :
    (b.admitAt nowMs).2.ticket.isSome = true := by
  unfold readiness at h
  unfold admitAt
  cases hstate : b.state with
  | closed f => rfl
  | opened u =>
    rw [hstate] at h
    by_cases hwait : nowMs < u
    · simp [hwait, Admission.admitted] at h
    · simp [hwait]
  | halfOpen p =>
    rw [hstate] at h
    cases p with
    | false => rfl
    | true => cases h

end Policy.Breaker

namespace Proxy

open Policy

namespace Gates

/-- The breakers agree with the gates that are held. -/
structure Sound (g : Gates) (held : List CapturedGate) : Prop where
  bounded : g.next ≤ u64Max
  fresh : ∀ e b, g.book.breakers.get e = some b → b.issuer < g.next
  distinct : ∀ e b e' b', g.book.breakers.get e = some b → g.book.breakers.get e' = some b' →
    b.issuer = b'.issuer → e = e'
  registered : ∀ gate ∈ held, gate.probe = gate.ticket.probe ∧
    ∃ b, g.book.breakers.get gate.entry = some b ∧ gate.ticket.issuer = b.issuer
  probing : ∀ e b, g.book.breakers.get e = some b → b.state ≠ .halfOpen false
  matched : ∀ e b, g.book.breakers.get e = some b → ∀ t : AdmissionTicket, t.issuer = b.issuer →
    t.probe = true → (held.map (·.ticket)).count t =
      if b.state.isHalfOpen = true ∧ t = b.ticket true then 1 else 0
  balanced : ∀ t : AdmissionTicket, t.probe = true → g.issued.count t =
    (g.delivered.map (·.ticket)).count t + (held.map (·.ticket)).count t
  addressed : ∀ d ∈ g.delivered, d.ticket.issuer = d.issuer

variable {g : Gates} {held : List CapturedGate} {gate : CapturedGate}
  {entry : CredentialClass × BreakerKey} {r : Report} {nowMs next : Nat}
  {book : BreakerBook BreakerKey} {b : Breaker}

theorem start_sound : start.Sound [] where
  bounded := Nat.zero_le _
  fresh := by
    intro e b h
    cases h
  distinct := by
    intro e b e' b' h
    cases h
  registered := by
    intro gate h
    cases h
  probing := by
    intro e b h
    cases h
  matched := by
    intro e b h
    cases h
  balanced := fun _ _ => rfl
  addressed := by
    intro d h
    cases h

theorem Sound.perm {others : List CapturedGate} (h : g.Sound held) (hperm : held.Perm others) :
    g.Sound others := by
  have hcount : ∀ t, (others.map (·.ticket)).count t = (held.map (·.ticket)).count t :=
    fun t => ((hperm.map (·.ticket)).count_eq t).symm
  constructor
  · exact h.bounded
  · exact h.fresh
  · exact h.distinct
  · exact fun gate hgate => h.registered gate (hperm.mem_iff.mpr hgate)
  · exact h.probing
  · intro e b hb t hown hprobe
    rw [hcount]
    exact h.matched e b hb t hown hprobe
  · intro t hprobe
    rw [hcount]
    exact h.balanced t hprobe
  · exact h.addressed

/-- A gate whose ticket is no probe may be forgotten. -/
theorem Sound.forget (h : g.Sound (gate :: held)) (hplain : gate.probe = false) :
    g.Sound held := by
  have hcount : ∀ t : AdmissionTicket, t.probe = true →
      ((gate :: held).map (·.ticket)).count t = (held.map (·.ticket)).count t := by
    intro t ht
    have hgate := (h.registered gate List.mem_cons_self).1
    have hne : gate.ticket ≠ t := by
      rintro rfl
      rw [← hgate, hplain] at ht
      cases ht
    rw [List.map_cons, List.count_cons_of_ne hne]
  constructor
  · exact h.bounded
  · exact h.fresh
  · exact h.distinct
  · exact fun gate hgate => h.registered gate (List.mem_cons_of_mem _ hgate)
  · exact h.probing
  · intro e b hb t hown hprobe
    rw [← hcount t hprobe]
    exact h.matched e b hb t hown hprobe
  · intro t hprobe
    rw [← hcount t hprobe]
    exact h.balanced t hprobe
  · exact h.addressed

/-- A probe that is held is the one probe of a half-open breaker. -/
theorem Sound.held_probe (h : g.Sound (gate :: held)) (hprobe : gate.ticket.probe = true)
    (hb : g.book.breakers.get gate.entry = some b) (hown : gate.ticket.issuer = b.issuer) :
    b.state.isHalfOpen = true ∧ gate.ticket = b.ticket true ∧
      ∀ t : AdmissionTicket, t.issuer = b.issuer → t.probe = true →
        (held.map (·.ticket)).count t = 0 := by
  have hmatched := h.matched gate.entry b hb
  have hself := hmatched gate.ticket hown hprobe
  rw [List.map_cons, List.count_cons_self] at hself
  split at hself
  · rename_i hcond
    refine ⟨hcond.1, hcond.2, fun t ht htp => ?_⟩
    have hother := hmatched t ht htp
    rw [List.map_cons, hcond.2] at hother
    by_cases hsame : t = b.ticket true
    · subst hsame
      rw [List.count_cons_self, if_pos ⟨hcond.1, rfl⟩] at hother
      omega
    · rw [if_neg (by tauto), List.count_cons_of_ne (Ne.symm hsame)] at hother
      exact hother
  · omega

theorem get_report (hb : g.book.breakers.get entry = some b) (t : AdmissionTicket) (r : Report)
    (e : CredentialClass × BreakerKey) :
    (g.book.report entry t r).breakers.get e =
      if entry = e then some (b.report t r) else g.book.breakers.get e := by
  simp only [BreakerBook.report, hb, Keyed.Map.get_insert]

/-- A held ticket is handed back. -/
theorem Sound.deliver (h : g.Sound (gate :: held))
    (hb : g.book.breakers.get gate.entry = some b) :
    Sound { g with
      book := g.book.report gate.entry gate.ticket r
      delivered := ⟨gate.ticket, b.issuer⟩ :: g.delivered } held := by
  obtain ⟨hflag, b', hb', hown⟩ := h.registered gate List.mem_cons_self
  rw [hb] at hb'
  cases hb'
  have heffect : b.Effect gate.ticket r (b.report gate.ticket r) := Breaker.report_effect
  have hsame : ∀ e c, (g.book.report gate.entry gate.ticket r).breakers.get e = some c →
      ∃ c', g.book.breakers.get e = some c' ∧ c.issuer = c'.issuer := by
    intro e c hc
    rw [get_report hb] at hc
    split at hc
    · rename_i he
      subst he
      cases hc
      exact ⟨b, hb, heffect.issuer⟩
    · exact ⟨c, hc, rfl⟩
  constructor
  · exact h.bounded
  · intro e c hc
    obtain ⟨c', hc', hissuer⟩ := hsame e c hc
    rw [hissuer]
    exact h.fresh e c' hc'
  · intro e c e' c' hc hc' heq
    obtain ⟨d, hd, hissuer⟩ := hsame e c hc
    obtain ⟨d', hd', hissuer'⟩ := hsame e' c' hc'
    exact h.distinct e d e' d' hd hd' (by rw [← hissuer, heq, hissuer'])
  · intro other hother
    obtain ⟨hprobe, c, hc, hissuer⟩ := h.registered other (List.mem_cons_of_mem _ hother)
    refine ⟨hprobe, ?_⟩
    simp only [get_report hb]
    split
    · rename_i he
      rw [← he, hb] at hc
      cases hc
      exact ⟨_, rfl, hissuer.trans heffect.issuer.symm⟩
    · exact ⟨c, hc, hissuer⟩
  · intro e c hc
    rw [get_report hb] at hc
    split at hc
    · cases hc
      exact heffect.probing (h.probing _ _ hb)
    · exact h.probing e c hc
  · intro e c hc t ht htp
    rw [get_report hb] at hc
    split at hc
    · rename_i he
      subst he
      cases hc
      rw [heffect.issuer] at ht
      cases hprobe : gate.ticket.probe with
      | true =>
        obtain ⟨hhalf, hticket, hnone⟩ := h.held_probe hprobe hb hown
        have hleft : (b.report gate.ticket r).state.isHalfOpen = false := by
          rw [hticket]
          cases hstate : b.state with
          | halfOpen p => exact Breaker.report_probe hstate
          | closed f => rw [hstate] at hhalf; cases hhalf
          | opened u => rw [hstate] at hhalf; cases hhalf
        rw [hnone t ht htp, hleft, if_neg (by simp)]
      | false =>
        have hforgotten := (h.forget (hflag.trans hprobe)).matched _ b hb t ht htp
        cases hhalf : b.state.isHalfOpen with
        | true =>
          rw [heffect.of_plain hprobe hhalf]
          exact hforgotten
        | false =>
          rw [hhalf, if_neg (by simp)] at hforgotten
          rw [hforgotten, heffect.not_halfOpen hhalf, if_neg (by simp)]
    · rename_i he
      have hne : gate.ticket ≠ t := by
        rintro rfl
        exact he (h.distinct _ _ _ _ hb hc (hown.symm.trans ht))
      have hmatched := h.matched e c hc t ht htp
      rwa [List.map_cons, List.count_cons_of_ne hne] at hmatched
  · intro t htp
    have hbalanced := h.balanced t htp
    simp only [List.map_cons, List.count_cons] at hbalanced ⊢
    omega
  · intro d hd
    rcases List.mem_cons.mp hd with rfl | hd
    · exact hown
    · exact h.addressed d hd

/-- A gate is reported, or forgotten when its ticket is no probe. -/
theorem Sound.settle (h : g.Sound (gate :: held)) {report : Option Report}
    (hprobe : gate.probe = true → report ≠ none) :
    (g.settle gate.entry gate.ticket report).Sound held := by
  obtain ⟨-, b, hb, -⟩ := h.registered gate List.mem_cons_self
  cases report with
  | none =>
    have hplain : gate.probe = false := by
      by_contra hnot
      exact hprobe (by simpa using hnot) rfl
    exact h.forget hplain
  | some r =>
    simp only [Gates.settle, hb]
    exact h.deliver hb

theorem Sound.settleAll {gates : List CapturedGate} (h : g.Sound (gates ++ held))
    {report : CapturedGate → Option Report}
    (hprobe : ∀ gate, gate.probe = true → report gate ≠ none) :
    (g.settleAll gates report).Sound held := by
  induction gates generalizing g with
  | nil => exact h
  | cons gate rest ih => exact ih (h.settle (hprobe gate))

theorem Sound.forgetAll {gates : List CapturedGate} (h : g.Sound (gates ++ held))
    (hplain : ∀ gate ∈ gates, gate.probe = false) : g.Sound held := by
  induction gates with
  | nil => exact h
  | cons gate rest ih =>
    refine ih (h.forget (hplain gate List.mem_cons_self)) fun other hother => ?_
    exact hplain other (List.mem_cons_of_mem _ hother)

theorem outcome_of_probe {status : Nat} {retryAfterMs : Option Nat} (h : gate.probe = true) :
    gate.outcome status retryAfterMs nowMs ≠ none := by
  unfold CapturedGate.outcome
  cases hfault : isFault status <;>
    cases hheader : connectionHeader status retryAfterMs <;> cases gate.key <;> simp [h]

theorem Sound.finish {claim : CapturedSendClaim} {status : Nat} {retryAfterMs : Option Nat}
    (h : g.Sound (claim.gates ++ held)) : (g.finish claim status retryAfterMs nowMs).Sound held :=
  h.settleAll fun _ hprobe => outcome_of_probe hprobe

theorem Sound.dropClaim {claim : CapturedSendClaim} (h : g.Sound (claim.gates ++ held)) :
    (g.dropClaim claim nowMs).Sound held := by
  unfold Gates.dropClaim
  split
  · refine h.settleAll fun gate hprobe => ?_
    simp [CapturedGate.abandoned, hprobe]
  · rename_i hnone
    refine h.forgetAll fun gate hgate => ?_
    simp only [List.any_eq_true, not_exists, not_and, Bool.not_eq_true] at hnone
    exact hnone gate hgate

end Gates

/-- The gate of a native or subscription call, when it was admitted. -/
def ProviderCapture.gate (capture : ProviderCapture) : Option CapturedGate :=
  capture.ticket.map fun ticket => ⟨capture.key, capture.credential, ticket, capture.probe⟩

namespace Gates

variable {g : Gates} {held : List CapturedGate} {entry e : CredentialClass × BreakerKey}
  {nowMs next n : Nat} {book : BreakerBook BreakerKey} {b : Breaker}

theorem Sound.finishProvider {capture : ProviderCapture} {outcome : ProviderOutcome}
    (h : g.Sound (capture.gate.toList ++ held)) :
    (g.finishProvider capture outcome nowMs).Sound held := by
  unfold Gates.finishProvider
  unfold ProviderCapture.gate at h
  cases hticket : capture.ticket with
  | none =>
    rw [hticket] at h
    exact h
  | some ticket =>
    rw [hticket] at h
    change (g.settle (capture.credential, capture.key) ticket
      (outcome.report capture.probe nowMs)).Sound held
    refine h.settle fun hprobe => ?_
    cases outcome <;> simp_all [ProviderOutcome.report]

theorem Sound.setNext (h : g.Sound held) (hle : g.next ≤ next) (hmax : next ≤ u64Max) :
    Sound { g with next := next } held := by
  constructor
  · exact hmax
  · intro e b hb
    exact Nat.lt_of_lt_of_le (h.fresh e b hb) hle
  · exact h.distinct
  · exact h.registered
  · exact h.probing
  · exact h.matched
  · exact h.balanced
  · exact h.addressed

theorem Sound.setFlags (h : g.Sound held) (enabled poisoned : Bool) :
    Sound { g with enabled := enabled, poisoned := poisoned } held :=
  ⟨h.bounded, h.fresh, h.distinct, h.registered, h.probing, h.matched, h.balanced, h.addressed⟩

theorem Sound.panic (h : g.Sound held) : g.panic.Sound held :=
  (h.setNext h.bounded (Nat.le_refl _)).setFlags g.enabled true

/-- No ticket of a breaker that is yet to be made is held. -/
theorem Sound.unheld (h : g.Sound held) {t : AdmissionTicket} (ht : t.issuer = g.next) :
    (held.map (·.ticket)).count t = 0 := by
  refine List.count_eq_zero.mpr fun hmem => ?_
  obtain ⟨gate, hgate, rfl⟩ := List.mem_map.mp hmem
  obtain ⟨-, b, hb, hown⟩ := h.registered gate hgate
  have := h.fresh _ b hb
  omega

theorem Sound.insert (h : g.Sound held) (hnone : g.book.breakers.get entry = none)
    (hlt : g.next < u64Max) (credential : CredentialClass) :
    Sound { g with
      book := ⟨g.book.breakers.insert entry (Breaker.new g.next credential)⟩
      next := g.next + 1 } held := by
  have hnew : ∀ e b, (g.book.breakers.insert entry (Breaker.new g.next credential)).get e = some b →
      e = entry ∧ b = Breaker.new g.next credential ∨ g.book.breakers.get e = some b := by
    intro e b hb
    rw [Keyed.Map.get_insert] at hb
    split at hb
    · rename_i he
      exact .inl ⟨he.symm, (Option.some.inj hb).symm⟩
    · exact .inr hb
  constructor
  · exact hlt
  · intro e b hb
    simp only
    obtain ⟨-, rfl⟩ | hb := hnew e b hb
    · exact Nat.lt_succ_self _
    · exact Nat.lt_succ_of_lt (h.fresh e b hb)
  · intro e b e' b' hb hb' heq
    obtain ⟨rfl, rfl⟩ | hb := hnew e b hb
    · obtain ⟨rfl, -⟩ | hb' := hnew e' b' hb'
      · rfl
      · have := h.fresh e' b' hb'
        simp only [Breaker.new] at heq
        omega
    · obtain ⟨-, rfl⟩ | hb' := hnew e' b' hb'
      · have := h.fresh e b hb
        simp only [Breaker.new] at heq
        omega
      · exact h.distinct e b e' b' hb hb' heq
  · intro gate hgate
    obtain ⟨hprobe, b, hb, hown⟩ := h.registered gate hgate
    refine ⟨hprobe, b, ?_, hown⟩
    simp only [Keyed.Map.get_insert]
    rw [if_neg (by rintro rfl; rw [hnone] at hb; cases hb)]
    exact hb
  · intro e b hb
    obtain ⟨-, rfl⟩ | hb := hnew e b hb
    · rintro ⟨⟩
    · exact h.probing e b hb
  · intro e b hb t ht htp
    obtain ⟨-, rfl⟩ | hb := hnew e b hb
    · rw [h.unheld ht, if_neg (by simp [Breaker.new, State.isHalfOpen])]
    · exact h.matched e b hb t ht htp
  · exact h.balanced
  · exact h.addressed

theorem Sound.prepare (h : g.Sound held) (hp : g.book.prepare g.next entry = some (book, next)) :
    Sound { g with book := book, next := next } held := by
  unfold BreakerBook.prepare at hp
  split at hp
  · cases hp
    exact h
  · rename_i hnone
    unfold nextIssuer at hp
    split at hp
    · rename_i hlt
      cases hp
      exact h.insert hnone hlt entry.1
    · cases hp

theorem Sound.rebook (h : g.Sound held)
    (hsame : ∀ e, book.breakers.get e = g.book.breakers.get e) :
    Sound { g with book := book } held := by
  constructor
  · exact h.bounded
  · simpa only [hsame] using h.fresh
  · simpa only [hsame] using h.distinct
  · simpa only [hsame] using h.registered
  · simpa only [hsame] using h.probing
  · simpa only [hsame] using h.matched
  · exact h.balanced
  · exact h.addressed

/-- A closed breaker hands out a ticket that is no probe. -/
theorem Sound.issuePlain (h : g.Sound held) (hb : g.book.breakers.get entry = some b) :
    Sound { g with issued := b.ticket false :: g.issued }
      (⟨entry.2, entry.1, b.ticket false, false⟩ :: held) := by
  have hne : ∀ t : AdmissionTicket, t.probe = true → b.ticket false ≠ t := by
    rintro t ht rfl
    cases ht
  constructor
  · exact h.bounded
  · exact h.fresh
  · exact h.distinct
  · intro gate hgate
    rcases List.mem_cons.mp hgate with rfl | hgate
    · exact ⟨rfl, b, hb, rfl⟩
    · exact h.registered gate hgate
  · exact h.probing
  · intro e c hc t ht htp
    rw [List.map_cons, List.count_cons_of_ne (hne t htp)]
    exact h.matched e c hc t ht htp
  · intro t htp
    simp only
    rw [List.map_cons, List.count_cons_of_ne (hne t htp), List.count_cons_of_ne (hne t htp)]
    exact h.balanced t htp
  · exact h.addressed

/-- A breaker that cooled down hands out its probe. -/
theorem Sound.issueProbe (h : g.Sound held) (hb : g.book.breakers.get entry = some b)
    (hfree : b.state.isHalfOpen = false) :
    Sound { g with
      book := ⟨g.book.breakers.insert entry b.claimProbe⟩
      issued := b.ticket true :: g.issued } (⟨entry.2, entry.1, b.ticket true, true⟩ :: held) := by
  have hnew : ∀ e c, (g.book.breakers.insert entry b.claimProbe).get e = some c →
      e = entry ∧ c = b.claimProbe ∨ e ≠ entry ∧ g.book.breakers.get e = some c := by
    intro e c hc
    rw [Keyed.Map.get_insert] at hc
    split at hc
    · rename_i he
      exact .inl ⟨he.symm, (Option.some.inj hc).symm⟩
    · rename_i he
      exact .inr ⟨Ne.symm he, hc⟩
  have hold : ∀ e c, (g.book.breakers.insert entry b.claimProbe).get e = some c →
      ∃ c', g.book.breakers.get e = some c' ∧ c.issuer = c'.issuer := by
    intro e c hc
    obtain ⟨rfl, rfl⟩ | ⟨-, hc⟩ := hnew e c hc
    · exact ⟨b, hb, rfl⟩
    · exact ⟨c, hc, rfl⟩
  constructor
  · exact h.bounded
  · intro e c hc
    obtain ⟨c', hc', hissuer⟩ := hold e c hc
    rw [hissuer]
    exact h.fresh e c' hc'
  · intro e c e' c' hc hc' heq
    obtain ⟨d, hd, hissuer⟩ := hold e c hc
    obtain ⟨d', hd', hissuer'⟩ := hold e' c' hc'
    exact h.distinct e d e' d' hd hd' (by rw [← hissuer, heq, hissuer'])
  · intro gate hgate
    simp only [Keyed.Map.get_insert]
    rcases List.mem_cons.mp hgate with rfl | hgate
    · refine ⟨rfl, b.claimProbe, ?_, rfl⟩
      exact if_pos rfl
    · obtain ⟨hprobe, c, hc, hown⟩ := h.registered gate hgate
      refine ⟨hprobe, ?_⟩
      split
      · rename_i he
        rw [← he, hb] at hc
        cases hc
        exact ⟨_, rfl, hown⟩
      · exact ⟨c, hc, hown⟩
  · intro e c hc
    obtain ⟨-, rfl⟩ | ⟨-, hc⟩ := hnew e c hc
    · exact nofun
    · exact h.probing e c hc
  · intro e c hc t ht htp
    obtain ⟨-, rfl⟩ | ⟨he, hc⟩ := hnew e c hc
    · have hnone := h.matched entry b hb t ht htp
      rw [hfree, if_neg (by simp)] at hnone
      have hticket : b.claimProbe.ticket true = b.ticket true := rfl
      have hhalf : b.claimProbe.state.isHalfOpen = true := rfl
      rw [hticket, hhalf, List.map_cons, List.count_cons, hnone]
      by_cases hsame : t = b.ticket true
      · subst hsame
        simp
      · simp [hsame, Ne.symm hsame]
    · have hne : b.ticket true ≠ t := by
        rintro rfl
        exact he (h.distinct e c entry b hc hb ht.symm)
      rw [List.map_cons, List.count_cons_of_ne hne]
      exact h.matched e c hc t ht htp
  · intro t htp
    have hbalanced := h.balanced t htp
    simp only [List.map_cons, List.count_cons]
    omega
  · exact h.addressed

theorem get_insert_same (hb : g.book.breakers.get entry = some b)
    (e : CredentialClass × BreakerKey) :
    (g.book.breakers.insert entry b).get e = g.book.breakers.get e := by
  rw [Keyed.Map.get_insert]
  split
  · rename_i he
    rw [← he, hb]
  · rfl

/-- An admission at one entry of the book, with the gate it leads to. -/
theorem Sound.claim (h : g.Sound held) (entry : CredentialClass × BreakerKey) (nowMs : Nat) :
    Sound (g.admitted (g.book.claim entry nowMs).1 g.next
        (g.book.claim entry nowMs).2.ticket.toList)
      ((captured entry (g.book.claim entry nowMs).2).toList ++ held) := by
  unfold BreakerBook.claim
  cases hb : g.book.breakers.get entry with
  | none => exact h
  | some b =>
    simp only
    have hcases : b.Admitted (b.admitAt nowMs) := Breaker.admit_cases
    generalize b.admitAt nowMs = a at hcases
    cases hcases with
    | allowed f hstate => exact (h.issuePlain hb).rebook (get_insert_same hb)
    | rejected ms => exact h.rebook (get_insert_same hb)
    | probe hfree hready =>
      refine h.issueProbe hb ?_
      have := h.probing entry b hb
      cases hstate : b.state with
      | closed f => rfl
      | opened u => rfl
      | halfOpen p => cases p <;> simp_all

theorem prepare_get {after : BreakerBook BreakerKey}
    (hp : book.prepare next entry = some (after, n)) :
    (∃ b, after.breakers.get entry = some b) ∧
      ∀ e nowMs, after.readiness e nowMs = book.readiness e nowMs := by
  unfold BreakerBook.prepare at hp
  split at hp
  · rename_i b hb
    cases hp
    exact ⟨⟨b, hb⟩, fun _ _ => rfl⟩
  · rename_i hnone
    obtain ⟨next', -, heq⟩ := Option.map_eq_some_iff.mp hp
    cases heq
    refine ⟨⟨_, Keyed.Map.get_insert_self⟩, fun e nowMs => ?_⟩
    simp only [BreakerBook.readiness, Keyed.Map.get_insert]
    split
    · rename_i he
      rw [← he, hnone]
      rfl
    · rfl

theorem prepare_keeps {after : BreakerBook BreakerKey}
    (hp : book.prepare next entry = some (after, n)) (hb : book.breakers.get e = some b) :
    after.breakers.get e = some b := by
  unfold BreakerBook.prepare at hp
  split at hp
  · cases hp
    exact hb
  · rename_i hnone
    obtain ⟨next', -, heq⟩ := Option.map_eq_some_iff.mp hp
    cases heq
    rw [Keyed.Map.get_insert, if_neg (by rintro rfl; rw [hnone] at hb; cases hb), hb]

theorem claim_other (book : BreakerBook BreakerKey) (nowMs : Nat) (h : entry ≠ e) :
    (book.claim entry nowMs).1.breakers.get e = book.breakers.get e := by
  unfold BreakerBook.claim
  cases book.breakers.get entry with
  | none => rfl
  | some b => rw [Keyed.Map.get_insert, if_neg h]

theorem claim_ticket (h : (book.readiness entry nowMs).admitted = true)
    (hb : book.breakers.get entry = some b) :
    (book.claim entry nowMs).2.ticket.isSome = true := by
  simp only [BreakerBook.readiness, hb, Option.map_some, Option.getD_some] at h
  simp only [BreakerBook.claim, hb]
  exact Breaker.admit_ticket h

theorem captured_of_ticket (entry : CredentialClass × BreakerKey) {answer : Admit}
    (h : answer.ticket.isSome = true) :
    ∃ gate, captured entry answer = some gate := by
  obtain ⟨t, ht⟩ := Option.isSome_iff_exists.mp h
  exact ⟨_, by rw [captured, ht]; rfl⟩

/-- Both gates are claimed, or the book is as it was. -/
theorem Sound.pair {first second : CredentialClass × BreakerKey} {one two : Admit}
    (h : g.Sound held)
    (hpair : g.book.admitPair g.next first second nowMs = .ok (some ((book, one, two), n))) :
    ∃ gate gate', captured first one = some gate ∧ captured second two = some gate' ∧
      Sound (g.admitted book n (two.ticket.toList ++ one.ticket.toList))
        (gate :: gate' :: held) := by
  unfold BreakerBook.admitPair at hpair
  split at hpair
  · cases hpair
  · rename_i hne
    split at hpair
    · cases hpair
    · rename_i hready
      simp only [Bool.or_eq_true, Bool.not_eq_true', not_or, Bool.not_eq_false] at hready
      simp only [Except.ok.injEq, Option.bind_eq_some_iff, Option.map_eq_some_iff] at hpair
      obtain ⟨⟨book₁, next₁⟩, hfirst, ⟨book₂, next₂⟩, hsecond, heq⟩ := hpair
      simp only [Prod.mk.injEq] at heq
      obtain ⟨⟨rfl, rfl, rfl⟩, rfl⟩ := heq
      obtain ⟨⟨b₁, hb₁⟩, hread₁⟩ := prepare_get hfirst
      obtain ⟨⟨b₂, hb₂⟩, hread₂⟩ := prepare_get hsecond
      have hsound : Sound { g with book := book₂, next := next₂ } held :=
        (h.prepare hfirst).prepare hsecond
      have hone : (book₂.claim first nowMs).2.ticket.isSome = true := by
        refine claim_ticket ?_ (prepare_keeps hsecond hb₁)
        rw [hread₂, hread₁]
        exact hready.1
      have htwo : ((book₂.claim first nowMs).1.claim second nowMs).2.ticket.isSome = true := by
        have hkeep := claim_other book₂ nowMs hne
        refine claim_ticket ?_ (hkeep.trans hb₂)
        simp only [BreakerBook.readiness, hkeep]
        have := hready.2
        rwa [← hread₁, ← hread₂] at this
      obtain ⟨gate, hgate⟩ := captured_of_ticket first hone
      obtain ⟨gate', hgate'⟩ := captured_of_ticket second htwo
      refine ⟨gate, gate', hgate, hgate', ?_⟩
      have hclaims := (hsound.claim first nowMs).claim second nowMs
      simp only [admitted] at hclaims
      rw [hgate, hgate'] at hclaims
      simp only [admitted, List.append_assoc]
      exact hclaims.perm (.swap gate gate' held)

theorem Sound.admitAt {answer : Admit} (h : g.Sound held)
    (hadmitted : g.book.admitAt g.next entry nowMs = some ((book, answer), n)) :
    Sound (g.admitted book n answer.ticket.toList) ((captured entry answer).toList ++ held) := by
  obtain ⟨⟨book₁, next₁⟩, hprepare, heq⟩ := Option.map_eq_some_iff.mp hadmitted
  simp only [Prod.mk.injEq] at heq
  obtain ⟨hclaim, rfl⟩ := heq
  have hsound := (h.prepare hprepare).claim entry nowMs
  simp only at hsound
  rw [hclaim] at hsound
  exact hsound

theorem Sound.claimSend [UrlParser] (h : g.Sound held) (providerId url : String) (nowMs : Nat) :
    (g.claimSend providerId url nowMs).1.Sound
      ((g.claimSend providerId url nowMs).2.toList.flatMap (·.gates) ++ held) := by
  unfold Gates.claimSend
  split
  · exact h
  · split
    · exact h
    · simp only
      split
      · split
        · exact h
        · exact h.panic
        · rename_i hpair
          obtain ⟨gate, gate', hgate, hgate', hsound⟩ := h.pair hpair
          simpa [hgate, hgate'] using hsound
      · split
        · exact h.panic
        · rename_i book answer n hadmitted
          have hsound := h.admitAt hadmitted
          cases hgate : captured (credentialClass url, providerKey providerId) answer with
          | none => simpa [hgate] using hsound
          | some gate => simpa [hgate] using hsound

theorem Sound.beginProvider (h : g.Sound held) (providerId : String)
    (credential : CredentialClass) (nowMs : Nat) :
    (g.beginProvider providerId credential nowMs).1.Sound
      ((g.beginProvider providerId credential nowMs).2.toList.filterMap (·.gate) ++ held) := by
  unfold Gates.beginProvider
  simp only
  split
  · split
    · exact h.panic
    · rename_i book answer n hadmitted
      have hsound := h.admitAt hadmitted
      cases hticket : answer.ticket with
      | none => simpa [captured, ProviderCapture.gate, hticket] using hsound
      | some ticket => simpa [captured, ProviderCapture.gate, hticket] using hsound
  · exact h

end Gates

namespace Traffic

variable {w : Traffic} {event : TrafficEvent}

/-- Every gate some request in flight still owns. -/
def held (w : Traffic) : List CapturedGate :=
  w.claims.flatMap (·.gates) ++ w.captures.filterMap (·.gate)

theorem held_claim {i : Nat} {claim : CapturedSendClaim} (h : w.claims[i]? = some claim) :
    w.held.Perm (claim.gates ++
      ((w.claims.eraseIdx i).flatMap (·.gates) ++ w.captures.filterMap (·.gate))) := by
  obtain ⟨hi, rfl⟩ := List.getElem?_eq_some_iff.mp h
  have hperm := (List.getElem_cons_eraseIdx_perm hi).flatMap_right fun claim => claim.gates
  rw [← List.append_assoc]
  exact hperm.symm.append_right _

theorem held_capture {i : Nat} {capture : ProviderCapture} (h : w.captures[i]? = some capture) :
    w.held.Perm (capture.gate.toList ++
      (w.claims.flatMap (·.gates) ++ (w.captures.eraseIdx i).filterMap (·.gate))) := by
  obtain ⟨hi, rfl⟩ := List.getElem?_eq_some_iff.mp h
  have hperm := (List.getElem_cons_eraseIdx_perm hi).filterMap fun capture => capture.gate
  have hcons : ∀ (a : ProviderCapture) rest, (a :: rest).filterMap (·.gate) =
      a.gate.toList ++ rest.filterMap (·.gate) := by
    intro a rest
    cases hgate : a.gate with
    | none => simp [hgate]
    | some gate => simp [hgate]
  rw [hcons] at hperm
  refine (hperm.symm.append_left _).trans ?_
  rw [← List.append_assoc, ← List.append_assoc]
  exact List.perm_append_comm.append_right _

section Runs

variable [UrlParser]

theorem step_sound (h : w.gates.Sound w.held) : (w.step event).gates.Sound (w.step event).held := by
  cases event with
  | setEnabled enabled => exact h.setFlags enabled w.gates.poisoned
  | elsewhere =>
    refine h.setNext ?_ ?_
    · have := h.bounded
      unfold nextIssuer
      split <;> simp_all
    · unfold nextIssuer
      split
      · rename_i hlt
        exact hlt
      · exact Nat.le_refl _
  | claimSend providerId url nowMs =>
    have hclaim := h.claimSend providerId url nowMs
    simp only [Traffic.step, Traffic.held, List.flatMap_append, List.append_assoc]
    exact hclaim
  | finish i status retryAfterMs nowMs =>
    simp only [Traffic.step]
    cases hi : w.claims[i]? with
    | none => exact h
    | some claim => exact (h.perm (held_claim hi)).finish
  | drop i nowMs =>
    simp only [Traffic.step]
    cases hi : w.claims[i]? with
    | none => exact h
    | some claim => exact (h.perm (held_claim hi)).dropClaim
  | beginProvider providerId credential nowMs =>
    have hbegin := h.beginProvider providerId credential nowMs
    simp only [Traffic.step, Traffic.held, List.filterMap_append]
    refine hbegin.perm ?_
    rw [Traffic.held, ← List.append_assoc, ← List.append_assoc]
    exact List.perm_append_comm.append_right _
  | finishProvider i outcome nowMs =>
    simp only [Traffic.step]
    cases hi : w.captures[i]? with
    | none => exact h
    | some capture => exact (h.perm (held_capture hi)).finishProvider
  | dropProvider i nowMs =>
    simp only [Traffic.step]
    cases hi : w.captures[i]? with
    | none => exact h
    | some capture => exact (h.perm (held_capture hi)).finishProvider

theorem run_sound (events : List TrafficEvent) (h : w.gates.Sound w.held) :
    (w.run events).gates.Sound (w.run events).held := by
  induction events generalizing w with
  | nil => exact h
  | cons event rest ih => exact ih (step_sound h)

end Runs

/-- Every issued probe is in flight or has been reported, once, to the breaker that issued it;
with no request in flight no gate is half open, and one that cooled down lets a probe through. -/
structure NoLeak (w : Traffic) : Prop where
  accounted : ∀ t : AdmissionTicket, t.probe = true → w.gates.issued.count t =
    (w.gates.delivered.map (·.ticket)).count t + (w.held.map (·.ticket)).count t
  addressed : ∀ d ∈ w.gates.delivered, d.ticket.issuer = d.issuer
  owned : ∀ e b, w.gates.book.breakers.get e = some b → b.state.isHalfOpen = true →
    ∃ gate ∈ w.held, gate.entry = e ∧ gate.ticket = b.ticket true
  idle : w.claims = [] → w.captures = [] → ∀ e b, w.gates.book.breakers.get e = some b →
    b.state.isHalfOpen = false ∧ ∀ nowMs, (∀ u, b.state = .opened u → u ≤ nowMs) →
      (w.gates.book.readiness e nowMs).admitted = true ∧ (b.admitAt nowMs).2.ticket.isSome = true

theorem NoLeak.of_sound (h : w.gates.Sound w.held) : w.NoLeak := by
  have howned : ∀ e b, w.gates.book.breakers.get e = some b → b.state.isHalfOpen = true →
      ∃ gate ∈ w.held, gate.entry = e ∧ gate.ticket = b.ticket true := by
    intro e b hb hhalf
    have hone := h.matched e b hb (b.ticket true) rfl rfl
    rw [if_pos ⟨hhalf, rfl⟩] at hone
    have hmem := List.count_pos_iff.mp (show 0 < _ by rw [hone]; exact Nat.one_pos)
    obtain ⟨gate, hgate, hticket⟩ := List.mem_map.mp hmem
    obtain ⟨-, b', hb', hown⟩ := h.registered gate hgate
    refine ⟨gate, hgate, h.distinct _ _ _ _ hb' hb ?_, hticket⟩
    rw [← hown, hticket]
    rfl
  constructor
  · exact h.balanced
  · exact h.addressed
  · exact howned
  · intro hclaims hcaptures e b hb
    have hclosed : b.state.isHalfOpen = false := by
      by_contra hhalf
      obtain ⟨gate, hgate, -⟩ := howned e b hb (by simpa using hhalf)
      simp [held, hclaims, hcaptures] at hgate
    refine ⟨hclosed, fun nowMs hcool => ?_⟩
    have hready : (b.readiness nowMs).admitted = true := by
      unfold Breaker.readiness
      cases hstate : b.state with
      | closed f => rfl
      | opened u =>
        have := hcool u hstate
        simp only
        rw [if_neg (by omega)]
        rfl
      | halfOpen p =>
        rw [hstate] at hclosed
        cases hclosed
    refine ⟨?_, Breaker.admit_ticket hready⟩
    simpa [BreakerBook.readiness, hb] using hready

/-- No interleaving of sends, native calls, drops and switches leaks a probe. -/
theorem no_half_open_leak [UrlParser] (events : List TrafficEvent) : (start.run events).NoLeak :=
  .of_sound (run_sound events Gates.start_sound)

end Traffic
end Proxy
