import IDoris.ProcessOwner.Methods

/-!
# The owners inside the machines

The relay of a subscription runs a reaper, and the adapter of a local runtime shuts a process
down. Each of their steps in there is a step of the method of the owner, question by question.
-/
namespace ProcessOwner

open Interaction

section Relay

open ProcessGroupReaper Subscription

/-- The rest of a sweep that began with `sweep`. -/
def swept (ending : Ending) (escalated : Bool) (sweep : Reaping Bool) : Reaping ControlledOutcome :=
  outcome ending.reason (andThen sweep fun killed => disarmed ending.code (killed || escalated))

/-- What is left of `runControlled` where the relay is. -/
inductive Reaps (polls : Nat) : Subscription.Pc → Reaping ControlledOutcome → Prop where
  | selecting : Reaps polls .selecting (runControlled polls)
  | terminating (reason : Reason) :
      Reaps polls (.terminating reason) (outcome reason (terminate polls))
  | termWait (reason : Reason) : Reaps polls (.termWait reason)
      (outcome reason (andThen (waitOr killAndWait) (cleanUp polls)))
  | killing (reason : Reason) : Reaps polls (.killing reason)
      (outcome reason (andThen killAndWait (cleanUp polls)))
  | killWait (reason : Reason) : Reaps polls (.killWait reason)
      (outcome reason (andThen waitKilled (cleanUp polls)))
  | probing (ending : Ending) (escalated : Bool) : Reaps polls (.probing ending)
      (swept ending escalated (cleanupDescendants polls))
  | sweepTerm (ending : Ending) (escalated : Bool) : Reaps polls (.sweepTerm ending)
      (swept ending escalated (terminateDescendants polls))
  | sweepWait (ending : Ending) (escalated : Bool) : Reaps polls (.sweepWait ending)
      (swept ending escalated (goneOrKilled polls))
  | sweepKill (ending : Ending) (escalated : Bool) : Reaps polls (.sweepKill ending)
      (swept ending escalated (killDescendants polls))
  | sweepKillWait (ending : Ending) (escalated : Bool) : Reaps polls (.sweepKillWait ending)
      (swept ending escalated (goneOrFailed polls))
  | joining (ending : Ending) (escalated : Bool) : Reaps polls (.joiningStdin ending)
      (.ret (.ok ⟨⟨ending.code, escalated⟩, ending.reason⟩))
  | failed : Reaps polls (.returned (.error .cleanupFailed)) (.ret (.error cleanupError))

variable {polls : Nat} {s t : Relay} {event : Subscription.Event} {reason : Reason}
  {method : Reaping ControlledOutcome}

/-- The method goes on to something that fits the place. -/
def ReapsOn (polls : Nat) (method : Reaping ControlledOutcome) (pc : Subscription.Pc) : Prop :=
  ∃ trace rest, Leads method trace rest ∧ Reaps polls pc rest

theorem awaitLeader_cases {result : Wait} {timedOut : Relay}
    (h : s.awaitLeader result reason timedOut = some t) :
    t.pc = .returned (.error .cleanupFailed) ∨ result = .timedOut ∧ t = timedOut ∨
      ∃ code, t.pc = .probing ⟨reason, code⟩ := by
  unfold Relay.awaitLeader at h
  cases result with
  | failed =>
    cases h
    exact .inl rfl
  | timedOut =>
    cases h
    exact .inr (.inl ⟨rfl, rfl⟩)
  | reaped =>
    simp only at h
    split at h
    · cases h
      exact .inr (.inr ⟨_, rfl⟩)
    · cases h

theorem lookFor_cases {gone : Option Bool} {ending : Ending} {present : Relay}
    (h : s.lookFor gone ending present = some t) :
    t.pc = .returned (.error .cleanupFailed) ∨ t = present ∨ t.pc = .joiningStdin ending := by
  unfold Relay.lookFor at h
  split at h
  · cases h
    exact .inl rfl
  · cases h
    exact .inr (.inl rfl)
  · simp only [Option.ite_none_left_eq_some, Option.some.injEq] at h
    exact .inr (.inr (h.2 ▸ rfl))

/-- The call gives up, and so does the method with its last answer. -/
theorem ReapsOn.fail {pc : Subscription.Pc} (trace : List (Exchange Op Op.Answer))
    (h : Leads method trace (.ret (.error cleanupError)))
    (hpc : pc = .returned (.error .cleanupFailed)) : ReapsOn polls method pc :=
  ⟨trace, _, h, hpc ▸ .failed⟩

/-- A look at the group, with what the deadline says when the group is still there. -/
theorem reapsOn_look {ending : Ending} {escalated : Bool} {sweep : Bool → Reaping Bool}
    {present : Relay} {gone : Option Bool}
    (h : s.lookFor gone ending present = some t) {killed : Bool}
    (hgone : sweep true = .ret (.ok killed))
    (hpresent : ReapsOn polls (swept ending escalated (sweep false)) present.pc) :
    ReapsOn polls (swept ending escalated (andThen (waitGroupGone polls) sweep)) t.pc := by
  obtain hfail | rfl | hjoin := lookFor_cases h
  · refine ReapsOn.fail [⟨.killpg none, .error .other⟩] ?_ hfail
    cases polls <;> exact .ask (.refl _)
  · obtain ⟨trace, rest, hrest, hpc⟩ := hpresent
    cases polls with
    | zero => exact ⟨⟨.killpg none, .ok ()⟩ :: trace, rest, .ask hrest, hpc⟩
    | succ polls =>
      exact ⟨⟨.killpg none, .ok ()⟩ :: ⟨.deadlinePassed, true⟩ :: trace, rest, .ask (.ask hrest),
        hpc⟩
  · rw [hjoin]
    refine ⟨[⟨.killpg none, .error .esrch⟩, ⟨.disarm, ()⟩], _, ?_,
      .joining ending (killed || escalated)⟩
    have hleads : Leads (swept ending escalated (sweep true)) [⟨.disarm, ()⟩]
        (.ret (.ok ⟨⟨ending.code, killed || escalated⟩, ending.reason⟩)) := by
      rw [hgone]
      exact .ask (.refl _)
    cases polls <;> exact .ask hleads

/-- A signal that can fail, and what the relay does when it does not. -/
theorem reapsOn_signal {signal : Signal} {ok : Bool} {place : Subscription.Pc}
    {next : Reaping ControlledOutcome} (hnext : Reaps polls place next)
    (hok : Leads method [⟨.killpg (some signal), .ok ()⟩] next)
    (hother : Leads method [⟨.killpg (some signal), .error .other⟩] (.ret (.error cleanupError)))
    (h : (if ok then s.goto place else s.fail .cleanupFailed) = t) :
    ReapsOn polls method t.pc := by
  cases ok with
  | true => exact h ▸ ⟨_, next, hok, hnext⟩
  | false => exact ReapsOn.fail _ hother (h ▸ rfl)

/-- A wait for the leader, and what the method does when it elapses. -/
theorem reapsOn_wait {result : Wait} {timedOut : Relay}
    (h : s.awaitLeader result reason timedOut = some t)
    (hfailed : Leads method [⟨.wait, .failed⟩] (.ret (.error cleanupError)))
    (helapsed : ReapsOn polls method timedOut.pc)
    (hexited : ∀ code, ReapsOn polls method (.probing ⟨reason, code⟩)) :
    ReapsOn polls method t.pc := by
  obtain hfail | ⟨-, rfl⟩ | ⟨code, hcode⟩ := awaitLeader_cases h
  · exact ReapsOn.fail _ hfailed hfail
  · exact helapsed
  · exact hcode ▸ hexited code

theorem reapsOn_selecting (hpc : s.pc = .selecting) (hstep : s.advance event = some t)
    (hevent : event ≠ .drop) : ReapsOn polls (runControlled polls) t.pc := by
  cases event <;> simp only [Relay.advance, hpc, reduceCtorEq] at hstep
  case exits ok =>
    obtain hfail | ⟨hresult, -⟩ | ⟨code, hcode⟩ := awaitLeader_cases hstep
    · exact ReapsOn.fail [⟨.select, .failed⟩] (.ask (.refl _)) hfail
    · cases ok <;> cases hresult
    · rw [hcode]
      exact ⟨[⟨.select, .parent code⟩], _, .ask (.refl _), .probing ⟨.exited, code⟩ false⟩
  case seesCancel =>
    simp only [Option.ite_none_right_eq_some, Option.some.injEq] at hstep
    exact hstep.2 ▸ ⟨[⟨.select, .cancelled⟩], _, .ask (.refl _), .terminating .cancelled⟩
  case timesOut =>
    exact Option.some.inj hstep ▸
      ⟨[⟨.select, .timeout⟩], _, .ask (.refl _), .terminating .timeout⟩
  case seesLimit =>
    simp only [Option.ite_none_right_eq_some, Option.some.injEq] at hstep
    exact hstep.2 ▸ ⟨[⟨.select, .outputLimit⟩], _, .ask (.refl _), .terminating .outputLimit⟩
  case drop => exact absurd rfl hevent

/-- Until its reaper is done, each step of the relay is one of `runControlled`. -/
theorem relay_reaps (h : Reaps polls s.pc method) (hstep : s.advance event = some t)
    (hevent : event ≠ .drop) :
    ReapsOn polls method t.pc ∨ ∃ result, method = .ret result := by
  generalize hpc : s.pc = pc at h
  cases h with
  | selecting => exact .inl (reapsOn_selecting hpc hstep hevent)
  | terminating reason =>
    left
    cases event <;> simp only [Relay.advance, hpc, reduceCtorEq] at hstep
    case signal ok =>
      exact reapsOn_signal (.termWait reason) (.ask (.refl _)) (.ask (.refl _))
        (Option.some.inj hstep)
    case drop => exact absurd rfl hevent
  | termWait reason =>
    left
    cases event <;> simp only [Relay.advance, hpc, reduceCtorEq] at hstep
    case wait result =>
      refine reapsOn_wait hstep (.ask (.refl _)) ?_ fun code => ?_
      · exact ⟨[⟨.wait, .elapsed⟩], _, .ask (.refl _), .killing reason⟩
      · exact ⟨[⟨.wait, .exited code⟩], _, .ask (.refl _), .probing ⟨reason, code⟩ false⟩
    case drop => exact absurd rfl hevent
  | killing reason =>
    left
    cases event <;> simp only [Relay.advance, hpc, reduceCtorEq] at hstep
    case signal ok =>
      exact reapsOn_signal (.killWait reason) (.ask (.refl _)) (.ask (.refl _))
        (Option.some.inj hstep)
    case drop => exact absurd rfl hevent
  | killWait reason =>
    left
    cases event <;> simp only [Relay.advance, hpc, reduceCtorEq] at hstep
    case wait result =>
      refine reapsOn_wait hstep (.ask (.refl _)) ?_ fun code => ?_
      · exact ⟨[⟨.wait, .elapsed⟩], _, .ask (.refl _), .failed⟩
      · exact ⟨[⟨.wait, .exited code⟩], _, .ask (.refl _), .probing ⟨reason, code⟩ true⟩
    case drop => exact absurd rfl hevent
  | probing ending escalated =>
    left
    cases event <;> simp only [Relay.advance, hpc, reduceCtorEq] at hstep
    case probe gone =>
      obtain hfail | rfl | hjoin := lookFor_cases hstep
      · exact ReapsOn.fail [⟨.killpg none, .error .other⟩] (.ask (.refl _)) hfail
      · exact ⟨[⟨.killpg none, .ok ()⟩], _, .ask (.refl _), .sweepTerm ending escalated⟩
      · rw [hjoin]
        exact ⟨[⟨.killpg none, .error .esrch⟩, ⟨.disarm, ()⟩], _, .ask (.ask (.refl _)),
          .joining ending _⟩
    case drop => exact absurd rfl hevent
  | sweepTerm ending escalated =>
    left
    cases event <;> simp only [Relay.advance, hpc, reduceCtorEq] at hstep
    case signal ok =>
      exact reapsOn_signal (.sweepWait ending escalated) (.ask (.refl _)) (.ask (.refl _))
        (Option.some.inj hstep)
    case drop => exact absurd rfl hevent
  | sweepWait ending escalated =>
    left
    cases event <;> simp only [Relay.advance, hpc, reduceCtorEq] at hstep
    case probe gone =>
      exact reapsOn_look hstep rfl ⟨[], _, .refl _, .sweepKill ending escalated⟩
    case drop => exact absurd rfl hevent
  | sweepKill ending escalated =>
    left
    cases event <;> simp only [Relay.advance, hpc, reduceCtorEq] at hstep
    case signal ok =>
      exact reapsOn_signal (.sweepKillWait ending escalated) (.ask (.refl _)) (.ask (.refl _))
        (Option.some.inj hstep)
    case drop => exact absurd rfl hevent
  | sweepKillWait ending escalated =>
    left
    cases event <;> simp only [Relay.advance, hpc, reduceCtorEq] at hstep
    case probe gone => exact reapsOn_look hstep rfl ⟨[], _, .refl _, .failed⟩
    case drop => exact absurd rfl hevent
  | joining ending escalated => exact .inr ⟨_, rfl⟩
  | failed => exact .inr ⟨_, rfl⟩

end Relay

section Adapter

open ManagedRuntimeProcess LocalRuntime

/-- What is left of `shutdown` where a call is. The check of the group is one step of a call. -/
inductive Shuts (polls : Nat) :
    Platform → LocalRuntime.Pc → Method (Except String Unit) → Prop where
  | terminating (platform : Platform) (g : Nat) :
      Shuts polls platform (.terminating g) (shutdown platform polls)
  | waiting (platform : Platform) (g : Nat) : Shuts polls platform (.waiting g)
      (andThen (waitChildExitWithoutReap polls) (sweepAndReap platform polls))
  | sweeping (platform : Platform) (g : Nat) (leaderExited : Bool) :
      Shuts polls platform (.sweeping g) (sweepAndReap platform polls leaderExited)
  | cleaning (g : Nat) : Shuts polls .linux (.cleaning g) (reapAndConfirm polls .linux)
  | reaping (g : Nat) (clean : Except String Bool) :
      Shuts polls .linux (.reaping g clean.toOption) (reapAfter clean)
  | reapingFirst (g : Nat) :
      Shuts polls .otherUnix (.reaping g none) (reapAndConfirm polls .otherUnix)
  | cleaningLast (g : Nat) : Shuts polls .otherUnix (.cleaning g) (confirmAfter polls)
  | failing (platform : Platform) (g : Nat) (error : String) :
      Shuts polls platform (.failing g) (.ret (.error error))

variable {polls : Nat} {platform : Platform} {s t u : Adapter} {event : LocalRuntime.Event}
  {i g : Nat} {kind : LocalRuntime.Kind} {pc : LocalRuntime.Pc}
  {method : Method (Except String Unit)}

/-- The method goes on to something that fits the place of the call, or ends and the call goes on
without a process. -/
inductive ShutsOn (polls : Nat) (platform : Platform) (i : Nat) (kind : LocalRuntime.Kind)
    (t : Adapter) (method : Method (Except String Unit)) : Prop where
  | goes {trace : List (Exchange Op Op.Answer)} {rest : Method (Except String Unit)} (u : Adapter)
      (pc : LocalRuntime.Pc) (hleads : Leads method trace rest) (h : Shuts polls platform pc rest)
      (ht : u.goto i kind pc = t)
  | ends {trace : List (Exchange Op Op.Answer)} (u : Adapter)
      (hleads : Leads method trace (.ret (.ok ()))) (ht : u.stopped i kind = t)

/-- What the last check says decides how the shutdown ends. -/
theorem shutsOn_shutDown {trace : List (Exchange Op Op.Answer)} {clean : Except String Bool}
    (hleads : Leads method trace (.ret (confirmClean clean)))
    (ht : u.shutDown i kind g clean.toOption = t) : ShutsOn polls platform i kind t method := by
  rcases clean with error | _ | _
  · exact .goes u _ hleads (.failing platform g error) ht
  · exact .goes u _ hleads (.failing platform g _) ht
  · exact .ends u hleads ht

/-- The answers with which the check of the group ends as the call says. -/
theorem leads_waitGroupCleanup (platform : Platform) (polls : Nat) (clean : Option Bool)
    {β : Type} (next : Except String Bool → Method β) :
    ∃ trace result, result.toOption = clean ∧
      Leads ((waitGroupCleanup platform polls).bind next) trace (next result) := by
  rcases clean with _ | _ | _
  · refine ⟨[⟨.killpg none, .error .other⟩], .error groupError, rfl, ?_⟩
    cases platform <;> cases polls <;> exact .ask (.refl _)
  · cases platform with
    | linux =>
      cases polls with
      | zero =>
        exact ⟨[⟨.killpg none, .ok ()⟩, ⟨.procScan, some true⟩], .ok false, rfl,
          .ask (.ask (.refl _))⟩
      | succ polls =>
        exact ⟨[⟨.killpg none, .ok ()⟩, ⟨.procScan, some true⟩, ⟨.deadlinePassed, true⟩], .ok false,
          rfl, .ask (.ask (.ask (.refl _)))⟩
    | otherUnix =>
      cases polls with
      | zero => exact ⟨[⟨.killpg none, .ok ()⟩], .ok false, rfl, .ask (.refl _)⟩
      | succ polls =>
        exact ⟨[⟨.killpg none, .ok ()⟩, ⟨.deadlinePassed, true⟩], .ok false, rfl,
          .ask (.ask (.refl _))⟩
  · refine ⟨[⟨.killpg none, .error .esrch⟩], .ok true, rfl, ?_⟩
    cases platform <;> cases polls <;> exact .ask (.refl _)

theorem shutsOn_terminating {ok : Bool}
    (ht : s.goto i kind (if ok then .waiting g else .failing g) = t) :
    ShutsOn polls platform i kind t (shutdown platform polls) := by
  cases ok with
  | true =>
    have hleads : Leads (shutdown platform polls) [⟨.killpg (some .sigterm), .ok ()⟩]
        (andThen (waitChildExitWithoutReap polls) (sweepAndReap platform polls)) := .ask (.refl _)
    exact .goes s _ hleads (.waiting platform g) ht
  | false =>
    have hleads : Leads (shutdown platform polls) [⟨.killpg (some .sigterm), .error .other⟩]
        (.ret (.error signalError)) := .ask (.refl _)
    exact .goes s _ hleads (.failing platform g signalError) ht

theorem shutsOn_waiting {exited : Option Bool}
    (ht : s.goto i kind (if exited.isSome then .sweeping g else .failing g) = t) :
    ShutsOn polls platform i kind t
      (andThen (waitChildExitWithoutReap polls) (sweepAndReap platform polls)) := by
  rcases exited with _ | _ | _
  · have hleads : Leads (andThen (waitChildExitWithoutReap polls) (sweepAndReap platform polls))
        [⟨.waitid, none⟩] (.ret (.error processError)) := by
      cases polls <;> exact .ask (.refl _)
    exact .goes s _ hleads (.failing platform g processError) ht
  · have hleads : ∃ trace, Leads
        (andThen (waitChildExitWithoutReap polls) (sweepAndReap platform polls)) trace
        (sweepAndReap platform polls false) := by
      cases polls with
      | zero => exact ⟨[⟨.waitid, some true⟩], .ask (.refl _)⟩
      | succ polls =>
        exact ⟨[⟨.waitid, some true⟩, ⟨.deadlinePassed, true⟩], .ask (.ask (.refl _))⟩
    obtain ⟨trace, hleads⟩ := hleads
    exact .goes s _ hleads (.sweeping platform g false) ht
  · have hleads : Leads (andThen (waitChildExitWithoutReap polls) (sweepAndReap platform polls))
        [⟨.waitid, some false⟩] (sweepAndReap platform polls true) := by
      cases polls <;> exact .ask (.refl _)
    exact .goes s _ hleads (.sweeping platform g true) ht

/-- A sweep that does not fail goes on to the reaping, whether it had to signal or not. -/
theorem leads_sweep (platform : Platform) (polls : Nat) (leaderExited : Bool) : ∃ trace,
    Leads (sweepAndReap platform polls leaderExited) trace (reapAndConfirm polls platform) := by
  cases leaderExited with
  | false => exact ⟨[⟨.killpg (some .sigkill), .ok ()⟩], .ask (.refl _)⟩
  | true =>
    exact ⟨[⟨.killpg none, .ok ()⟩, ⟨.killpg (some .sigkill), .ok ()⟩], .ask (.ask (.refl _))⟩

theorem leads_sweep_failed (platform : Platform) (polls : Nat) (leaderExited : Bool) :
    ∃ trace error,
    Leads (sweepAndReap platform polls leaderExited) trace (.ret (.error error)) := by
  cases leaderExited with
  | false => exact ⟨[⟨.killpg (some .sigkill), .error .other⟩], signalError, .ask (.refl _)⟩
  | true => exact ⟨[⟨.killpg none, .error .other⟩], groupError, .ask (.refl _)⟩

/-- Until its process is shut down, each step of a call is one of `shutdown`. -/
theorem adapter_shuts (h : Shuts polls platform pc method)
    (hstep : s.next platform i kind pc event = some t) (hevent : ∀ j, event ≠ .drop j) :
    ShutsOn polls platform i kind t method ∨ ∃ error, method = .ret (.error error) := by
  cases h with
  | terminating _ g =>
    left
    cases event <;> simp only [Adapter.next, reduceCtorEq, if_false] at hstep
    case terminate j ok => exact shutsOn_terminating (Option.some.inj hstep)
    case drop j => exact absurd rfl (hevent j)
  | waiting _ g =>
    left
    cases event <;> simp only [Adapter.next, reduceCtorEq, if_false] at hstep
    case leaderWait j exited =>
      simp only [Option.ite_none_left_eq_some, Option.some.injEq] at hstep
      exact shutsOn_waiting hstep.2
    case drop j => exact absurd rfl (hevent j)
  | sweeping _ g leaderExited =>
    left
    cases event <;> simp only [Adapter.next, reduceCtorEq, if_false] at hstep
    case sweep j ok =>
      cases ok with
      | false =>
        obtain ⟨trace, error, hleads⟩ := leads_sweep_failed platform polls leaderExited
        exact .goes s _ hleads (.failing platform g error) (Option.some.inj hstep)
      | true =>
        obtain ⟨trace, hleads⟩ := leads_sweep platform polls leaderExited
        cases platform with
        | linux => exact .goes s _ hleads (.cleaning g) (Option.some.inj hstep)
        | otherUnix => exact .goes s _ hleads (.reapingFirst g) (Option.some.inj hstep)
    case drop j => exact absurd rfl (hevent j)
  | cleaning g =>
    left
    cases event <;> simp only [Adapter.next, reduceCtorEq, if_false] at hstep
    case cleanup j clean =>
      simp only [Option.ite_none_left_eq_some, Option.some.injEq] at hstep
      obtain ⟨trace, result, rfl, hleads⟩ := leads_waitGroupCleanup .linux polls clean reapAfter
      exact .goes s _ hleads (.reaping g result) hstep.2
    case drop j => exact absurd rfl (hevent j)
  | reaping g clean =>
    left
    cases event <;> simp only [Adapter.next, reduceCtorEq, if_false] at hstep
    case reap j ok =>
      cases ok with
      | false =>
        have hleads : Leads (reapAfter clean) [⟨.wait, .failed⟩]
            (.ret (.error "failed to reap local runtime process")) := .ask (.refl _)
        exact .goes s _ hleads (.failing .linux g _) (Option.some.inj hstep)
      | true =>
        obtain ⟨group, -, ht⟩ := Option.map_eq_some_iff.mp hstep
        have hleads : Leads (reapAfter clean) [⟨.wait, .exited none⟩, ⟨.disarm, ()⟩]
            (.ret (confirmClean clean)) := .ask (.ask (.refl _))
        exact shutsOn_shutDown hleads ht
    case drop j => exact absurd rfl (hevent j)
  | reapingFirst g =>
    left
    cases event <;> simp only [Adapter.next, reduceCtorEq, if_false] at hstep
    case reap j ok =>
      cases ok with
      | false =>
        have hleads : Leads (reapAndConfirm polls .otherUnix) [⟨.wait, .failed⟩]
            (.ret (.error "failed to reap local runtime process")) := .ask (.refl _)
        exact .goes s _ hleads (.failing .otherUnix g _) (Option.some.inj hstep)
      | true =>
        obtain ⟨group, -, ht⟩ := Option.map_eq_some_iff.mp hstep
        have hleads : Leads (reapAndConfirm polls .otherUnix)
            [⟨.wait, .exited none⟩, ⟨.disarm, ()⟩] (confirmAfter polls) := .ask (.ask (.refl _))
        exact .goes _ _ hleads (.cleaningLast g) ht
    case drop j => exact absurd rfl (hevent j)
  | cleaningLast g =>
    left
    cases event <;> simp only [Adapter.next, reduceCtorEq, if_false] at hstep
    case cleanup j clean =>
      simp only [Option.ite_none_left_eq_some, Option.some.injEq] at hstep
      obtain ⟨trace, result, rfl, hleads⟩ := leads_waitGroupCleanup .otherUnix polls clean
        fun clean => .ret (confirmClean clean)
      exact shutsOn_shutDown hleads hstep.2
    case drop j => exact absurd rfl (hevent j)
  | failing _ g error => exact .inr ⟨error, rfl⟩

end Adapter

end ProcessOwner
