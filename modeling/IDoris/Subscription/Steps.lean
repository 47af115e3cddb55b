import IDoris.Library.Slots
import IDoris.Subscription.Service

/-!
# What a step of the subscription service can do

A request changes its stage by its own turns alone, one stage at a time, and a shutdown's stage
is changed by others only where the notifier is heard.
-/
namespace Subscription

open Slots Transition

/-- The stages a request's own turn leads to. -/
inductive Stage.Next (result : Except ErrorCode String) : Stage → Stage → Prop where
  | admits (id : Nat) : Next result .calling (.admitted id)
  | refuses : Next result .calling .refused
  | spawns (id : Nat) : Next result (.admitted id) (.spawned id)
  | starts (id : Nat) : Next result (.spawned id) (.running id)
  | ends (id : Nat) : Next result (.running id) (.ended id result)
  | unbridges (id : Nat) (given : Except ErrorCode String) :
      Next result (.ended id given) (.unbridged id given)
  | removes (id : Nat) (empty : Bool) (given : Except ErrorCode String) :
      Next result (.unbridged id given) (.removed empty given)
  | notifies (empty : Bool) (given : Except ErrorCode String) :
      Next result (.removed empty given) (.notified given)
  | answers (given : Except ErrorCode String) : Next result (.notified given) (.finished given)

/-- The stages a shutdown's own turn leads to once it has the tokens; `empty`: the active set is. -/
inductive ShutdownStage.Next (empty : Bool) : ShutdownStage → ShutdownStage → Prop where
  | cancels (token : Nat) (left : List Nat) : Next empty (.cancelling (token :: left)) (.cancelling left)
  | cancelled : Next empty (.cancelling []) .looping
  | registers : Next empty .looping (.checking false)
  | drains (heard : Bool) : empty = true → Next empty (.checking heard) (.returned (.ok ()))
  | waits (heard : Bool) : empty = false → Next empty (.checking heard) (.waiting heard)
  | wakes : Next empty (.waiting true) .looping

namespace Service

variable {w w' : Service} {e : ServiceEvent} {i j : Nat} {r : Request} {s : Shutdown}
  {result : Except ErrorCode String}

theorem turn_requests (h : w.turn i r result = some w') :
    ∃ r', w'.requests = w.requests.set i r' ∧ r.stage.Next result r'.stage := by
  unfold turn at h
  cases hstage : r.stage with
  | calling =>
    simp only [hstage, Option.some.injEq] at h
    subst h
    unfold admission
    split
    · exact ⟨_, rfl, .admits _⟩
    · exact ⟨_, rfl, .refuses⟩
  | refused => simp only [hstage, reduceCtorEq] at h
  | gone => simp only [hstage, reduceCtorEq] at h
  | finished given => simp only [hstage, reduceCtorEq] at h
  | removed empty given =>
    simp only [hstage, Option.some.injEq] at h
    subst h
    refine ⟨{ r with stage := .notified given }, ?_, .notifies _ _⟩
    cases empty <;> rfl
  | admitted id | spawned id | running id | ended id given | unbridged id given | notified given =>
    simp only [hstage, Option.some.injEq] at h
    subst h
    exact ⟨_, rfl, by constructor⟩

theorem bridge_requests (h : w.bridge i r = some w') :
    w'.requests = w.requests ∧ w'.shutdowns = w.shutdowns := by
  unfold bridge at h
  split at h
  all_goals first
    | cases h
    | split at h
      · cases h
        exact ⟨rfl, rfl⟩
      · cases h

theorem dropCaller_requests (h : w.dropCaller i r = some w') :
    w'.shutdowns = w.shutdowns ∧ ∃ r', w'.requests = w.requests.set i r' ∧
      (r'.stage = r.stage ∨ r.stage = .calling ∧ r'.stage = .gone) := by
  unfold dropCaller at h
  split at h
  · next hstage _ =>
    cases h
    exact ⟨rfl, _, rfl, .inr ⟨hstage, rfl⟩⟩
  · cases h
  · cases h
    exact ⟨rfl, _, rfl, .inl rfl⟩
  · cases h

theorem shutdownTurn_requests (h : w.shutdownTurn j s = some w') :
    w'.requests = w.requests ∧ ∃ s', w'.shutdowns = w.shutdowns.set j s' := by
  unfold shutdownTurn at h
  split at h <;> cases h <;> exact ⟨rfl, _, rfl⟩

theorem timeout_requests (h : w.timeout j s = some w') :
    w'.requests = w.requests ∧ ∃ s', w'.shutdowns = w.shutdowns.set j s' := by
  unfold timeout at h
  split at h <;> cases h <;> exact ⟨rfl, _, rfl⟩

theorem dropShutdown_requests (h : w.dropShutdown j s = some w') :
    w'.requests = w.requests ∧ ∃ s', w'.shutdowns = w.shutdowns.set j s' := by
  unfold dropShutdown at h
  split at h <;> cases h <;> exact ⟨rfl, _, rfl⟩

/-- What a step does to one request. -/
theorem step_request (h : w.step e = some w') (hi : w.requests[i]? = some r) :
    ∃ r', w'.requests[i]? = some r' ∧
      ((∃ result, e = .turn i result ∧ r.stage.Next result r'.stage) ∨
        (∀ result, e ≠ .turn i result) ∧
          (r'.stage = r.stage ∨ r.stage = .calling ∧ r'.stage = .gone)) := by
  have hkeep : w'.requests = w.requests → (∀ result, e ≠ .turn i result) →
      ∃ r', w'.requests[i]? = some r' ∧
      ((∃ result, e = .turn i result ∧ r.stage.Next result r'.stage) ∨
        (∀ result, e ≠ .turn i result) ∧
          (r'.stage = r.stage ∨ r.stage = .calling ∧ r'.stage = .gone)) :=
    fun hsame hne => ⟨r, hsame ▸ hi, .inr ⟨hne, .inl rfl⟩⟩
  cases e with
  | call =>
    obtain rfl := Option.some.inj h
    exact ⟨r, get_concat_of_some hi, .inr ⟨nofun, .inl rfl⟩⟩
  | turn k result =>
    obtain ⟨q, hk, hturn⟩ := Option.bind_eq_some_iff.mp h
    obtain ⟨q', hset, hnext⟩ := turn_requests hturn
    rw [hset]
    by_cases hik : i = k
    · subst hik
      rw [hi] at hk
      cases hk
      exact ⟨q', get_set_self hi, .inl ⟨result, rfl, hnext⟩⟩
    · refine ⟨r, (get_set_of_ne hik).trans hi, .inr ⟨?_, .inl rfl⟩⟩
      rintro _ heq
      cases heq
      exact hik rfl
  | cancel k =>
    obtain ⟨q, hk, rfl⟩ := Option.map_eq_some_iff.mp h
    by_cases hik : i = k
    · subst hik
      rw [hi] at hk
      cases hk
      exact ⟨_, get_set_self hi, .inr ⟨nofun, .inl rfl⟩⟩
    · exact ⟨r, (get_set_of_ne hik).trans hi, .inr ⟨nofun, .inl rfl⟩⟩
  | bridge k =>
    obtain ⟨q, -, hbridge⟩ := Option.bind_eq_some_iff.mp h
    exact hkeep (bridge_requests hbridge).1 nofun
  | dropCaller k =>
    obtain ⟨q, hk, hdrop⟩ := Option.bind_eq_some_iff.mp h
    obtain ⟨-, q', hset, hstage⟩ := dropCaller_requests hdrop
    rw [hset]
    by_cases hik : i = k
    · subst hik
      rw [hi] at hk
      cases hk
      exact ⟨q', get_set_self hi, .inr ⟨nofun, hstage⟩⟩
    · exact ⟨r, (get_set_of_ne hik).trans hi, .inr ⟨nofun, .inl rfl⟩⟩
  | shutdown => exact hkeep (Option.some.inj h ▸ rfl) nofun
  | shutdownTurn j =>
    obtain ⟨s, -, hturn⟩ := Option.bind_eq_some_iff.mp h
    exact hkeep (shutdownTurn_requests hturn).1 nofun
  | timeout j =>
    obtain ⟨s, -, htimeout⟩ := Option.bind_eq_some_iff.mp h
    exact hkeep (timeout_requests htimeout).1 nofun
  | dropShutdown j =>
    obtain ⟨s, -, hdrop⟩ := Option.bind_eq_some_iff.mp h
    exact hkeep (dropShutdown_requests hdrop).1 nofun
  | rehash n => exact hkeep (Option.some.inj h ▸ rfl) nofun

/-- Requests come at the end, and they come calling. -/
theorem step_new (h : w.step e = some w') (hi : w.requests[i]? = none)
    (hi' : w'.requests[i]? = some r) : r.stage = .calling := by
  have hsame : w'.requests = w.requests → r.stage = .calling := by
    intro hsame
    rw [hsame, hi] at hi'
    cases hi'
  have hset : ∀ {k q q'}, w.requests[k]? = some q → w'.requests = w.requests.set k q' →
      r.stage = .calling := by
    intro k q q' hk hset
    rw [hset] at hi'
    obtain ⟨rfl, -⟩ | ⟨-, hi'⟩ := get_set hi'
    · rw [hi] at hk
      cases hk
    · rw [hi] at hi'
      cases hi'
  cases e with
  | call =>
    obtain rfl := Option.some.inj h
    obtain ⟨-, rfl⟩ | hi' := get_concat hi'
    · rfl
    · rw [hi] at hi'
      cases hi'
  | turn k result =>
    obtain ⟨q, hk, hturn⟩ := Option.bind_eq_some_iff.mp h
    obtain ⟨q', hrequests, -⟩ := turn_requests hturn
    exact hset hk hrequests
  | cancel k =>
    obtain ⟨q, hk, rfl⟩ := Option.map_eq_some_iff.mp h
    exact hset hk rfl
  | bridge k =>
    obtain ⟨q, -, hbridge⟩ := Option.bind_eq_some_iff.mp h
    exact hsame (bridge_requests hbridge).1
  | dropCaller k =>
    obtain ⟨q, hk, hdrop⟩ := Option.bind_eq_some_iff.mp h
    obtain ⟨-, q', hrequests, -⟩ := dropCaller_requests hdrop
    exact hset hk hrequests
  | shutdown => exact hsame (Option.some.inj h ▸ rfl)
  | shutdownTurn j =>
    obtain ⟨s, -, hturn⟩ := Option.bind_eq_some_iff.mp h
    exact hsame (shutdownTurn_requests hturn).1
  | timeout j =>
    obtain ⟨s, -, htimeout⟩ := Option.bind_eq_some_iff.mp h
    exact hsame (timeout_requests htimeout).1
  | dropShutdown j =>
    obtain ⟨s, -, hdrop⟩ := Option.bind_eq_some_iff.mp h
    exact hsame (dropShutdown_requests hdrop).1
  | rehash n => exact hsame (Option.some.inj h ▸ rfl)

theorem step_length (h : w.step e = some w') : w.requests.length ≤ w'.requests.length := by
  by_contra hlt
  have hhas : w.requests[w'.requests.length]? = some w.requests[w'.requests.length] :=
    List.getElem?_eq_getElem (by omega)
  obtain ⟨r', hr', -⟩ := step_request h hhas
  exact absurd (List.getElem?_eq_some_iff.mp hr').1 (Nat.lt_irrefl _)

theorem turn_shutdowns (h : w.turn i r result = some w') :
    w'.shutdowns = w.shutdowns ∨ w'.shutdowns = w.notifyWaiters.shutdowns := by
  unfold turn at h
  cases hstage : r.stage with
  | calling =>
    simp only [hstage, Option.some.injEq] at h
    subst h
    unfold admission
    split
    · exact .inl rfl
    · exact .inl rfl
  | refused => simp only [hstage, reduceCtorEq] at h
  | gone => simp only [hstage, reduceCtorEq] at h
  | finished given => simp only [hstage, reduceCtorEq] at h
  | removed empty given =>
    simp only [hstage, Option.some.injEq] at h
    subst h
    cases empty with
    | true => exact .inr rfl
    | false => exact .inl rfl
  | admitted id | spawned id | running id | ended id given | unbridged id given | notified given =>
    simp only [hstage, Option.some.injEq] at h
    subst h
    exact .inl rfl

/-- What a step does to one shutdown. -/
theorem step_shutdown (h : w.step e = some w') (hj : w.shutdowns[j]? = some s) :
    e = .shutdownTurn j ∧ w.shutdownTurn j s = some w' ∨
      e = .timeout j ∧ w.timeout j s = some w' ∨
      e = .dropShutdown j ∧ w.dropShutdown j s = some w' ∨
      e ≠ .shutdownTurn j ∧ (w'.shutdowns[j]? = some s ∨
        w'.shutdowns[j]? = some { s with stage := s.stage.hear }) := by
  have hkeep : e ≠ .shutdownTurn j → w'.shutdowns[j]? = w.shutdowns[j]? →
      e ≠ .shutdownTurn j ∧ (w'.shutdowns[j]? = some s ∨
        w'.shutdowns[j]? = some { s with stage := s.stage.hear }) :=
    fun hne hsame => ⟨hne, .inl (hsame.trans hj)⟩
  cases e with
  | call => exact .inr (.inr (.inr (hkeep nofun (Option.some.inj h ▸ rfl))))
  | turn k result =>
    obtain ⟨q, hk, hturn⟩ := Option.bind_eq_some_iff.mp h
    refine .inr (.inr (.inr ⟨nofun, ?_⟩))
    obtain hsame | hheard := turn_shutdowns hturn
    · exact .inl (hsame ▸ hj)
    · right
      rw [hheard]
      simp only [notifyWaiters, List.getElem?_map, hj, Option.map_some]
  | cancel k =>
    obtain ⟨q, hk, rfl⟩ := Option.map_eq_some_iff.mp h
    exact .inr (.inr (.inr (hkeep nofun rfl)))
  | bridge k =>
    obtain ⟨q, -, hbridge⟩ := Option.bind_eq_some_iff.mp h
    exact .inr (.inr (.inr (hkeep nofun (by rw [(bridge_requests hbridge).2]))))
  | dropCaller k =>
    obtain ⟨q, hk, hdrop⟩ := Option.bind_eq_some_iff.mp h
    exact .inr (.inr (.inr (hkeep nofun (by rw [(dropCaller_requests hdrop).1]))))
  | shutdown =>
    refine .inr (.inr (.inr ⟨nofun, .inl ?_⟩))
    exact Option.some.inj h ▸ get_concat_of_some hj
  | shutdownTurn k =>
    obtain ⟨q, hk, hturn⟩ := Option.bind_eq_some_iff.mp h
    by_cases hjk : j = k
    · subst hjk
      rw [hj] at hk
      cases hk
      exact .inl ⟨rfl, hturn⟩
    · obtain ⟨-, s', hset⟩ := shutdownTurn_requests hturn
      exact .inr (.inr (.inr (hkeep (by rintro ⟨⟩; exact hjk rfl) (by rw [hset]; exact get_set_of_ne hjk))))
  | timeout k =>
    obtain ⟨q, hk, htimeout⟩ := Option.bind_eq_some_iff.mp h
    by_cases hjk : j = k
    · subst hjk
      rw [hj] at hk
      cases hk
      exact .inr (.inl ⟨rfl, htimeout⟩)
    · obtain ⟨-, s', hset⟩ := timeout_requests htimeout
      exact .inr (.inr (.inr (hkeep nofun (by rw [hset]; exact get_set_of_ne hjk))))
  | dropShutdown k =>
    obtain ⟨q, hk, hdrop⟩ := Option.bind_eq_some_iff.mp h
    by_cases hjk : j = k
    · subst hjk
      rw [hj] at hk
      cases hk
      exact .inr (.inr (.inl ⟨rfl, hdrop⟩))
    · obtain ⟨-, s', hset⟩ := dropShutdown_requests hdrop
      exact .inr (.inr (.inr (hkeep nofun (by rw [hset]; exact get_set_of_ne hjk))))
  | rehash n => exact .inr (.inr (.inr (hkeep nofun (Option.some.inj h ▸ rfl))))

theorem shutdownTurn_next (h : w.shutdownTurn j s = some w') (hj : w.shutdowns[j]? = some s)
    (hs : s.stage ≠ .calling) : ∃ s', w'.shutdowns[j]? = some s' ∧ s'.tokens = s.tokens ∧
      ShutdownStage.Next w.active.entries.isEmpty s.stage s'.stage := by
  unfold shutdownTurn at h
  cases hstage : s.stage with
  | calling => exact absurd hstage hs
  | cancelling left =>
    cases left with
    | nil =>
      simp only [hstage, Option.some.injEq] at h
      exact h ▸ ⟨_, get_set_self hj, rfl, .cancelled⟩
    | cons token left =>
      simp only [hstage, Option.some.injEq] at h
      exact h ▸ ⟨_, get_set_self hj, rfl, .cancels token left⟩
  | looping =>
    simp only [hstage, Option.some.injEq] at h
    exact h ▸ ⟨_, get_set_self hj, rfl, .registers⟩
  | checking heard =>
    simp only [hstage, Option.some.injEq] at h
    refine h ▸ ⟨_, get_set_self hj, rfl, ?_⟩
    split
    · next hempty => exact .drains heard hempty
    · next hempty => exact .waits heard (Bool.not_eq_true _ ▸ hempty)
  | waiting heard =>
    cases heard with
    | true =>
      simp only [hstage, Option.some.injEq] at h
      exact h ▸ ⟨_, get_set_self hj, rfl, .wakes⟩
    | false => simp only [hstage, reduceCtorEq] at h
  | returned given => simp only [hstage, reduceCtorEq] at h
  | dropped => simp only [hstage, reduceCtorEq] at h

theorem timeout_get (h : w.timeout j s = some w') (hj : w.shutdowns[j]? = some s) :
    w'.shutdowns[j]? = some { s with stage := .returned (.error .cleanupFailed) } := by
  unfold timeout at h
  split at h <;> cases h <;> exact get_set_self hj

theorem dropShutdown_get (h : w.dropShutdown j s = some w') (hj : w.shutdowns[j]? = some s) :
    w'.shutdowns[j]? = some { s with stage := .dropped } := by
  unfold dropShutdown at h
  split at h <;> cases h <;> exact get_set_self hj

/-- While nothing is admitted the active set can only lose what it has. -/
theorem turn_closed (h : w.turn i r result = some w') (hclosed : w.accepting = false) :
    w'.accepting = false ∧ (w'.active = w.active ∨ ∃ id, w'.active = w.active.remove id) := by
  unfold turn at h
  cases hstage : r.stage with
  | calling =>
    simp only [hstage, Option.some.injEq] at h
    subst h
    rw [admission, hclosed]
    exact ⟨hclosed, .inl rfl⟩
  | refused => simp only [hstage, reduceCtorEq] at h
  | gone => simp only [hstage, reduceCtorEq] at h
  | finished given => simp only [hstage, reduceCtorEq] at h
  | unbridged id given =>
    simp only [hstage, Option.some.injEq] at h
    subst h
    exact ⟨hclosed, .inr ⟨id, rfl⟩⟩
  | removed empty given =>
    simp only [hstage, Option.some.injEq] at h
    subst h
    cases empty with
    | true => exact ⟨hclosed, .inl rfl⟩
    | false => exact ⟨hclosed, .inl rfl⟩
  | admitted id | spawned id | running id | ended id given | notified given =>
    simp only [hstage, Option.some.injEq] at h
    subst h
    exact ⟨hclosed, .inl rfl⟩

theorem step_closed (h : w.step e = some w') (hclosed : w.accepting = false)
    (hempty : w.active.entries = []) : w'.accepting = false ∧ w'.active.entries = [] := by
  cases e with
  | call => exact Option.some.inj h ▸ ⟨hclosed, hempty⟩
  | turn k result =>
    obtain ⟨q, -, hturn⟩ := Option.bind_eq_some_iff.mp h
    obtain ⟨hstill, hsame | ⟨id, hremoved⟩⟩ := turn_closed hturn hclosed
    · exact ⟨hstill, hsame ▸ hempty⟩
    · exact ⟨hstill, by simp only [hremoved, Keyed.Map.remove, hempty, List.filter_nil]⟩
  | cancel k =>
    obtain ⟨q, -, rfl⟩ := Option.map_eq_some_iff.mp h
    exact ⟨hclosed, hempty⟩
  | bridge k =>
    obtain ⟨q, -, hbridge⟩ := Option.bind_eq_some_iff.mp h
    unfold bridge at hbridge
    split at hbridge
    all_goals first
      | cases hbridge
      | split at hbridge <;> cases hbridge
        exact ⟨hclosed, hempty⟩
  | dropCaller k =>
    obtain ⟨q, -, hdrop⟩ := Option.bind_eq_some_iff.mp h
    unfold dropCaller at hdrop
    split at hdrop <;> cases hdrop <;> exact ⟨hclosed, hempty⟩
  | shutdown => exact Option.some.inj h ▸ ⟨hclosed, hempty⟩
  | shutdownTurn j =>
    obtain ⟨s, -, hturn⟩ := Option.bind_eq_some_iff.mp h
    unfold shutdownTurn at hturn
    split at hturn <;> cases hturn <;> first | exact ⟨hclosed, hempty⟩ | exact ⟨rfl, hempty⟩
  | timeout j =>
    obtain ⟨s, -, htimeout⟩ := Option.bind_eq_some_iff.mp h
    unfold timeout at htimeout
    split at htimeout <;> cases htimeout <;> exact ⟨hclosed, hempty⟩
  | dropShutdown j =>
    obtain ⟨s, -, hdrop⟩ := Option.bind_eq_some_iff.mp h
    unfold dropShutdown at hdrop
    split at hdrop <;> cases hdrop <;> exact ⟨hclosed, hempty⟩
  | rehash n =>
    obtain rfl := Option.some.inj h
    exact ⟨hclosed, List.Perm.eq_nil (hempty ▸ Keyed.swapAt_perm n w.active.entries)⟩

end Service

end Subscription
