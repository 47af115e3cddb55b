import IDoris.Subscription.Registered

/-!
# Shutdown drains

What holds across any order of turns once a shutdown has taken the lock, and how many turns of
its own a request or a shutdown still needs.
-/
namespace Subscription

open Slots Transition

namespace ServiceEvent

def isTurn (i : Nat) : ServiceEvent → Bool
  | .turn k _ => k == i
  | _ => false

def isShutdownTurn (j : Nat) : ServiceEvent → Bool
  | .shutdownTurn k => k == j
  | _ => false

/-- The call's wait takes too long, or its future is dropped. -/
def abandons (j : Nat) : ServiceEvent → Bool
  | .timeout k | .dropShutdown k => k == j
  | _ => false

end ServiceEvent

open ServiceEvent

/-- How many turns a request needs before it leaves the active set. -/
def Stage.turnsLeft : Stage → Nat
  | .admitted _ => 5
  | .spawned _ => 4
  | .running _ => 3
  | .ended _ _ => 2
  | .unbridged _ _ => 1
  | _ => 0

theorem Stage.turnsLeft_pos {stage : Stage} {id : Nat} (h : stage.active = some id) :
    0 < stage.turnsLeft := by
  cases stage <;> first | exact Nat.succ_pos _ | cases h

def ShutdownStage.draining : ShutdownStage → Bool
  | .cancelling _ | .looping | .checking _ | .waiting _ => true
  | _ => false

/-- How many turns a shutdown needs once the active set is empty. -/
def ShutdownStage.turnsLeft : ShutdownStage → Nat
  | .cancelling left => left.length + 3
  | .waiting _ => 3
  | .looping => 2
  | .checking _ => 1
  | _ => 0

namespace Service

variable {w w' u : Service} {i j : Nat} {r : Request} {s : Shutdown}
  {first rest later : List ServiceEvent}

/-- A run of events, in which a request's relay run ended with this result. -/
def EndsIn (events : List ServiceEvent) (i : Nat) (result : Except ErrorCode String) : Prop :=
  ∃ before later u r id, events = before ++ .turn i result :: later ∧ system.Run new before u ∧
    u.requests[i]? = some r ∧ r.stage = .running id

theorem EndsIn.snoc {result : Except ErrorCode String} {e : ServiceEvent}
    (h : EndsIn first i result) : EndsIn (first ++ [e]) i result := by
  obtain ⟨before, later, u, r, id, rfl, hrun, hi, hr⟩ := h
  exact ⟨before, later ++ [e], u, r, id, by simp, hrun, hi, hr⟩

theorem ends_of_result (h : system.Run new first w) (hi : w.requests[i]? = some r)
    {result : Except ErrorCode String} (hr : r.stage.result = some result) :
    EndsIn first i result := by
  have hall := h.history (fun events w => system.Run new events w ∧
    ∀ i r result, w.requests[i]? = some r → r.stage.result = some result → EndsIn events i result)
    ?_ ⟨.nil, by intro i r result hi; simp [new] at hi⟩
  · exact hall.2 i r result hi hr
  · rintro events t e u ⟨hrun, hends⟩ hstep
    refine ⟨.snoc hrun hstep, ?_⟩
    intro i r' result hi' hresult
    cases hi : t.requests[i]? with
    | none =>
      rw [step_new hstep hi hi'] at hresult
      cases hresult
    | some r =>
      obtain ⟨q, hq, hchange⟩ := step_request hstep hi
      rw [hi'] at hq
      cases hq
      obtain ⟨given, rfl, hnext⟩ | ⟨-, hsame | ⟨-, hgone⟩⟩ := hchange
      · generalize hold : r.stage = old at hnext
        generalize hnew : r'.stage = fresh at hnext hresult
        cases hnext with
        | ends id =>
          cases hresult
          exact ⟨events, [], t, r, id, rfl, hrun, hi, hold⟩
        | unbridges | removes | notifies | answers =>
          exact (hends i r result hi (by rw [hold]; exact hresult)).snoc
        | admits | refuses | spawns | starts => cases hresult
      · exact (hends i r result hi (hsame ▸ hresult)).snoc
      · rw [hgone] at hresult
        cases hresult

theorem result_of_isRemoved {stage : Stage} (h : stage.isRemoved = true) :
    ∃ result, stage.result = some result := by
  cases stage <;> first | exact ⟨_, rfl⟩ | cases h

/-- Each turn of a request brings it nearer to its removal, whatever else happens. -/
theorem removed_of_turns (h : system.Run w rest w') (hi : w.requests[i]? = some r)
    (hr : r.stage.accepted = true) (hturns : r.stage.turnsLeft ≤ rest.countP (isTurn i)) :
    ∃ r', w'.requests[i]? = some r' ∧ r'.stage.isRemoved = true := by
  have hall := h.history (fun events u => ∃ q, u.requests[i]? = some q ∧ q.stage.accepted = true ∧
    (q.stage.isRemoved = true ∨ q.stage.turnsLeft + events.countP (isTurn i) ≤ r.stage.turnsLeft))
    ?_ ⟨r, hi, hr, .inr (Nat.le_refl _)⟩
  · obtain ⟨q, hq, haccepted, hremoved | hleft⟩ := hall
    · exact ⟨q, hq, hremoved⟩
    · obtain ⟨id, hactive⟩ | hremoved := Stage.active_or_removed haccepted
      · have hpos := Stage.turnsLeft_pos hactive
        omega
      · exact ⟨q, hq, hremoved⟩
  · rintro events t e u ⟨q, hq, haccepted, hleft⟩ hstep
    obtain ⟨q', hq', ⟨result, rfl, hnext⟩ | ⟨hne, hsame | ⟨hcalling, -⟩⟩⟩ := step_request hstep hq
    · refine ⟨q', hq', ?_⟩
      have hcount : (events ++ [ServiceEvent.turn i result]).countP (isTurn i) =
          events.countP (isTurn i) + 1 := by simp [isTurn]
      rw [hcount]
      revert haccepted hleft
      generalize q.stage = old at hnext
      generalize q'.stage = fresh at hnext
      cases hnext <;> simp only [Stage.accepted, Stage.isRemoved, Stage.turnsLeft] <;> grind
    · refine ⟨q', hq', by rw [hsame]; exact haccepted, ?_⟩
      have hnot : isTurn i e = false := by
        cases e with
        | turn k result =>
          have hki : k ≠ i := fun heq => hne result (by rw [heq])
          simp [isTurn, hki]
        | _ => rfl
      have hcount : (events ++ [e]).countP (isTurn i) = events.countP (isTurn i) := by simp [hnot]
      rw [hsame, hcount]
      exact hleft
    · rw [hcalling] at haccepted
      cases haccepted

/-- A request on its way out of the active set is never held up. -/
theorem turn_isSome {id : Nat} (hi : w.requests[i]? = some r) (hr : r.stage.active = some id)
    (result : Except ErrorCode String) : (w.step (.turn i result)).isSome = true := by
  simp only [step, hi, Option.bind_some, turn]
  revert hr
  cases r.stage <;> first | exact fun _ => rfl | exact nofun

theorem closed_of_run (h : system.Run w rest w') (hclosed : w.accepting = false)
    (hempty : w.active.entries = []) : w'.accepting = false ∧ w'.active.entries = [] :=
  h.invariant (fun w => w.accepting = false ∧ w.active.entries = [])
    (fun _ _ _ ht hstep => step_closed hstep ht.1 ht.2) ⟨hclosed, hempty⟩

/-- With nothing in the active set, every request is before its admission or after its removal. -/
theorem Sound.inactive (h : w.Sound) (hempty : w.active.entries = []) :
    ∀ r ∈ w.requests, r.stage.active = none := by
  intro r hr
  obtain ⟨i, hi⟩ := List.mem_iff_getElem?.mp hr
  cases hactive : r.stage.active with
  | none => rfl
  | some id =>
    have hmem := Keyed.Map.mem_entries.mpr ((h.owned id i).mpr ⟨r, hi, hactive⟩)
    rw [hempty] at hmem
    cases hmem

theorem countP_shutdownTurn {e : ServiceEvent} (events : List ServiceEvent)
    (he : e ≠ .shutdownTurn j) :
    (events ++ [e]).countP (isShutdownTurn j) = events.countP (isShutdownTurn j) := by
  have hnot : isShutdownTurn j e = false := by
    cases e with
    | shutdownTurn k =>
      have hkj : k ≠ j := fun heq => he (by rw [heq])
      simp [isShutdownTurn, hkj]
    | _ => rfl
  simp [hnot]

theorem countP_shutdownTurn_self (events : List ServiceEvent) :
    (events ++ [ServiceEvent.shutdownTurn j]).countP (isShutdownTurn j) =
      events.countP (isShutdownTurn j) + 1 := by
  simp [isShutdownTurn]

/-- How far the cancelling is, by the turns it has had. -/
structure Cancels (tokens : List Nat) (turns : Nat) (s : Shutdown) : Prop where
  held : s.tokens = tokens
  calling : s.stage ≠ .calling
  left : ∀ left, s.stage = .cancelling left → left.length + turns ≤ tokens.length

theorem cancels_of_turns {tokens : List Nat} (h : system.Run w rest w')
    (hj : w.shutdowns[j]? = some ⟨.cancelling tokens, tokens⟩) :
    ∃ s', w'.shutdowns[j]? = some s' ∧ Cancels tokens (rest.countP (isShutdownTurn j)) s' := by
  refine h.history (fun events u => ∃ q, u.shutdowns[j]? = some q ∧
    Cancels tokens (events.countP (isShutdownTurn j)) q) ?_
    ⟨_, hj, rfl, nofun, fun left hleft => by cases hleft; exact Nat.le_refl _⟩
  rintro events t e u ⟨q, hq, hcancels⟩ hstep
  obtain ⟨rfl, hturn⟩ | ⟨rfl, htimeout⟩ | ⟨rfl, hdrop⟩ | ⟨hne, hsame | hheard⟩ :=
    step_shutdown hstep hq
  · obtain ⟨q', hq', htokens, hnext⟩ := shutdownTurn_next hturn hq hcancels.calling
    generalize hold : q.stage = old at hnext
    refine ⟨q', hq', htokens.trans hcancels.held, ?_, ?_⟩
    · intro hcalling
      rw [hcalling] at hnext
      cases hnext
    · intro left hleft
      rw [hleft] at hnext
      cases hnext with
      | cancels token left =>
        have hbefore := hcancels.left _ hold
        rw [countP_shutdownTurn_self]
        simp only [List.length_cons] at hbefore
        omega
  · exact ⟨_, timeout_get htimeout hq, hcancels.held, nofun, nofun⟩
  · exact ⟨_, dropShutdown_get hdrop hq, hcancels.held, nofun, nofun⟩
  · rw [countP_shutdownTurn events hne]
    exact ⟨q, hsame, hcancels⟩
  · rw [countP_shutdownTurn events hne]
    refine ⟨_, hheard, hcancels.held, ?_, ?_⟩
    · have hcalling := hcancels.calling
      revert hcalling
      cases q.stage <;> simp [ShutdownStage.hear]
    · have hbefore := hcancels.left
      revert hbefore
      cases q.stage <;> simp [ShutdownStage.hear]

/-- After one turn for each token it took, a shutdown has cancelled them all. -/
theorem cancelled_of_turns (h : w.Sound) (hrun : system.Run w (.shutdownTurn j :: rest) w')
    (hw' : w'.Sound) (hj : w.shutdowns[j]? = some s) (hs : s.stage = .calling)
    (hturns : w.active.values.length ≤ rest.countP (isShutdownTurn j)) {id : Nat}
    (hi : w.requests[i]? = some r) (hr : r.stage.active = some id) : w'.cancelled i = true := by
  have hcut : system.Run w ([ServiceEvent.shutdownTurn j] ++ rest) w' := hrun
  obtain ⟨u, hlock, hrest⟩ := hcut.of_append
  have hone : system.Run w ([] ++ [ServiceEvent.shutdownTurn j]) u := hlock
  obtain ⟨t, hnil, hstep⟩ := hone.of_snoc
  obtain rfl : t = w := by
    generalize hlabels : ([] : List ServiceEvent) = labels at hnil
    cases hnil with
    | nil => rfl
    | snoc => simp at hlabels
  have hu : u = { t with accepting := false }.setShutdown j
      ⟨.cancelling t.active.values, t.active.values⟩ := by
    simp only [system, step, hj, Option.bind_some, shutdownTurn, hs, Option.some.injEq] at hstep
    exact hstep.symm
  obtain ⟨s', hs', hcancels⟩ := cancels_of_turns hrest (by rw [hu]; exact get_set_self hj)
  have hagrees := hw'.waits s' (List.mem_of_getElem? hs')
  have hmem : i ∈ s'.tokens := by
    rw [hcancels.held, Keyed.Map.mem_values]
    exact ⟨id, (h.owned id i).mpr ⟨r, hi, hr⟩⟩
  obtain htold | ⟨left, hleft, hi⟩ := hagrees.told i hmem
  · exact htold
  · have hlength := hcancels.left left hleft
    obtain rfl : left = [] := List.length_eq_zero_iff.mp (by omega)
    cases hi

/-- Once nothing is active, each turn of a shutdown brings it nearer to `Ok`. -/
theorem returned_of_turns (h : system.Run w rest w') (hclosed : w.accepting = false)
    (hempty : w.active.entries = []) (hj : w.shutdowns[j]? = some s)
    (hs : s.stage.draining = true) (habandons : ∀ e ∈ rest, e.abandons j = false)
    (hturns : s.stage.turnsLeft ≤ rest.countP (isShutdownTurn j)) :
    ∃ s', w'.shutdowns[j]? = some s' ∧ s'.stage = .returned (.ok ()) := by
  have hall := h.history (fun events u => (∀ e ∈ events, e.abandons j = false) →
    (u.accepting = false ∧ u.active.entries = []) ∧ ∃ q, u.shutdowns[j]? = some q ∧
      (q.stage = .returned (.ok ()) ∨ q.stage.draining = true ∧
        q.stage.turnsLeft + events.countP (isShutdownTurn j) ≤ s.stage.turnsLeft))
    ?_ fun _ => ⟨⟨hclosed, hempty⟩, s, hj, .inr ⟨hs, Nat.le_refl _⟩⟩
  · obtain ⟨-, q, hq, hok | ⟨hdraining, hleft⟩⟩ := hall habandons
    · exact ⟨q, hq, hok⟩
    · have hpos : 0 < q.stage.turnsLeft := by
        revert hdraining
        cases q.stage <;> first | exact fun _ => Nat.succ_pos _ | exact nofun
      omega
  · intro events t e u ih hstep hevents
    obtain ⟨⟨hclosed, hempty⟩, q, hq, hstage⟩ :=
      ih fun e he => hevents e (List.mem_append_left _ he)
    have hkept := hevents e (List.mem_append_right _ (List.mem_singleton.mpr rfl))
    refine ⟨step_closed hstep hclosed hempty, ?_⟩
    obtain ⟨rfl, hturn⟩ | ⟨rfl, -⟩ | ⟨rfl, -⟩ | ⟨hne, hsame | hheard⟩ := step_shutdown hstep hq
    · have hcalling : q.stage ≠ .calling := by
        intro hcalling
        simp [hcalling, ShutdownStage.draining] at hstage
      obtain ⟨q', hq', -, hnext⟩ := shutdownTurn_next hturn hq hcalling
      refine ⟨q', hq', ?_⟩
      rw [countP_shutdownTurn_self]
      rw [hempty] at hnext
      revert hstage
      generalize q.stage = old at hnext
      generalize q'.stage = fresh at hnext
      cases hnext with
      | drains heard => exact fun _ => .inl rfl
      | waits heard hfull => cases hfull
      | cancels | cancelled | registers | wakes =>
        simp only [ShutdownStage.draining, ShutdownStage.turnsLeft, List.length_cons, List.length_nil,
          reduceCtorEq, false_or, true_and]
        omega
    · simp [abandons] at hkept
    · simp [abandons] at hkept
    · rw [countP_shutdownTurn events hne]
      exact ⟨q, hsame, hstage⟩
    · rw [countP_shutdownTurn events hne]
      refine ⟨_, hheard, ?_⟩
      revert hstage
      cases q.stage <;> simp [ShutdownStage.hear, ShutdownStage.draining, ShutdownStage.turnsLeft]

/-- A shutdown that waits although nothing is active is about to be woken. -/
theorem Sound.woken (h : w.Sound) (hj : w.shutdowns[j]? = some s) (hs : s.stage = .waiting false)
    (hempty : w.active.entries = []) : ∃ i r result, w.requests[i]? = some r ∧
      r.stage = .removed true result ∧ ∀ given, ∃ u, w.step (.turn i given) = some u ∧
        u.shutdowns[j]? = some { s with stage := .waiting true } := by
  obtain hfull | ⟨i, r, hi, result, hr⟩ := (h.waits s (List.mem_of_getElem? hj)).awaited hs
  · exact absurd hempty hfull
  · refine ⟨i, r, result, hi, hr, fun given =>
      ⟨w.notifyWaiters.setRequest i { r with stage := .notified result }, ?_, ?_⟩⟩
    · simp only [Service.step, hi, Option.bind_some, Service.turn, hr, if_true]
    · simp only [Service.setRequest, Service.notifyWaiters, List.getElem?_map, hj, Option.map_some, hs,
        ShutdownStage.hear]

/-- A shutdown on its way is held up by nothing but an unheard wait. -/
theorem shutdownTurn_isSome (hj : w.shutdowns[j]? = some s) (hs : s.stage.draining = true)
    (hwaiting : s.stage ≠ .waiting false) : (w.step (.shutdownTurn j)).isSome = true := by
  simp only [step, hj, Option.bind_some, shutdownTurn]
  revert hs hwaiting
  cases s.stage with
  | cancelling left => cases left <;> exact fun _ _ => rfl
  | waiting heard =>
    cases heard with
    | true => exact fun _ _ => rfl
    | false => exact fun _ h => absurd rfl h
  | looping => exact fun _ _ => rfl
  | checking heard => exact fun _ _ => rfl
  | calling => exact nofun
  | returned result => exact nofun
  | dropped => exact nofun

/-- What holds of a run in two parts, whatever the order of its events. -/
structure Drains (first : List ServiceEvent) (w : Service) (rest : List ServiceEvent)
    (w' : Service) : Prop where
  /-- After `Ok`, no request is between its admission and its removal, so no relay runs. -/
  quiet : ∀ s ∈ w.shutdowns, s.stage = .returned (.ok ()) →
    ∀ r ∈ w'.requests, r.stage.active = none
  /-- An entry is removed once, and only of a request whose relay run has ended. -/
  once : w.removals.Nodup
  ended : ∀ i ∈ w.removals, ∃ result, EndsIn first i result
  /-- An accepted request is never held up, and its turns remove it, caller or not. -/
  unblocked : ∀ (i : Nat) r id result, w.requests[i]? = some r → r.stage.active = some id →
    (w.step (.turn i result)).isSome = true
  removed : ∀ (i : Nat) r, w.requests[i]? = some r → r.stage.accepted = true →
    r.stage.turnsLeft ≤ rest.countP (isTurn i) → w'.removals.count i = 1
  /-- A shutdown that takes the lock cancels what is then active, one token a turn. -/
  told : ∀ (j : Nat) s later, w.shutdowns[j]? = some s → s.stage = .calling →
    rest = .shutdownTurn j :: later →
    w.active.values.length ≤ later.countP (isShutdownTurn j) →
    ∀ (i : Nat) r id, w.requests[i]? = some r → r.stage.active = some id → w'.cancelled i = true
  /-- With nothing active, a wait that has not heard is about to hear. -/
  woken : ∀ (j : Nat) s, w.shutdowns[j]? = some s → s.stage = .waiting false →
    w.active.entries = [] → ∃ i r result, w.requests[i]? = some r ∧
      r.stage = .removed true result ∧ ∀ given, ∃ u, w.step (.turn i given) = some u ∧
        u.shutdowns[j]? = some { s with stage := .waiting true }
  /-- Nothing else holds a shutdown up, and with nothing active its turns lead to `Ok`. -/
  free : ∀ (j : Nat) s, w.shutdowns[j]? = some s → s.stage.draining = true →
    s.stage ≠ .waiting false → (w.step (.shutdownTurn j)).isSome = true
  returns : ∀ (j : Nat) s, w.shutdowns[j]? = some s → s.stage.draining = true →
    w.active.entries = [] → (∀ e ∈ rest, e.abandons j = false) →
    s.stage.turnsLeft ≤ rest.countP (isShutdownTurn j) →
    ∃ s', w'.shutdowns[j]? = some s' ∧ s'.stage = .returned (.ok ())

/-- The shutdown drains the service in every run of fewer than `2 ^ 64` requests. -/
theorem shutdown_drains (hfirst : system.Run new first w) (hrest : system.Run w rest w')
    (hfew : w'.requests.length < 2 ^ 64) : Drains first w rest w' := by
  have hlength : w.requests.length ≤ w'.requests.length :=
    hrest.invariant (fun u => w.requests.length ≤ u.requests.length)
      (fun _ _ _ ht hstep => Nat.le_trans ht (step_length hstep)) (Nat.le_refl _)
  have hw : w.Sound := sound_of_run hfirst (by omega)
  have hw' : w'.Sound := sound_of_run (hfirst.append hrest) hfew
  have hentered : ∀ {s : Shutdown}, s ∈ w.shutdowns → s.stage.draining = true →
      w.accepting = false := by
    intro s hs hdraining
    apply (hw.waits s hs).closed
    revert hdraining
    cases s.stage <;> first | exact fun _ => rfl | exact nofun
  constructor
  · intro s hs hok
    have hagrees := hw.waits s hs
    obtain ⟨-, hempty⟩ := closed_of_run hrest (hagrees.closed (by rw [hok]; rfl))
      (hagrees.drained hok)
    exact hw'.inactive hempty
  · exact hw.removedOnce
  · intro i hi
    obtain ⟨r, hr, hremoved⟩ := (hw.removed i).mp hi
    obtain ⟨result, hresult⟩ := result_of_isRemoved hremoved
    exact ⟨result, ends_of_result hfirst hr hresult⟩
  · exact fun i r id result hi hr => turn_isSome hi hr result
  · intro i r hi hr hturns
    exact List.count_eq_one_of_mem hw'.removedOnce
      ((hw'.removed i).mpr (removed_of_turns hrest hi hr hturns))
  · rintro j s later hj hs rfl hturns i r id hi hr
    exact cancelled_of_turns hw hrest hw' hj hs hturns hi hr
  · exact fun j s hj hs hempty => hw.woken hj hs hempty
  · exact fun j s hj hs hwaiting => shutdownTurn_isSome hj hs hwaiting
  · intro j s hj hs hempty habandons hturns
    exact returned_of_turns hrest (hentered (List.mem_of_getElem? hj) hs) hempty hj hs habandons
      hturns

/-- A shutdown that comes while a relay runs. -/
theorem shutdown_drains_running :
    ∃ w w', Drains [.call, .turn 0 (.ok ""), .turn 0 (.ok ""), .turn 0 (.ok ""), .shutdown] w
        [.shutdownTurn 0, .shutdownTurn 0, .shutdownTurn 0, .shutdownTurn 0, .shutdownTurn 0,
          .turn 0 (.error .cancelled), .turn 0 (.ok ""), .turn 0 (.ok ""), .turn 0 (.ok ""),
          .shutdownTurn 0, .shutdownTurn 0, .shutdownTurn 0] w' ∧
      w'.shutdowns.map Shutdown.stage = [.returned (.ok ())] :=
  ⟨_, _, shutdown_drains (System.run_of_foldlM (fun _ _ _ h => h) rfl)
    (System.run_of_foldlM (fun _ _ _ h => h) rfl) (by decide), rfl⟩

end Service

end Subscription
