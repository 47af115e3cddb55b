import IDoris.Dispatch.Finalised
import IDoris.Dispatch.ProxyChat
import IDoris.Proxy.Course

/-!
# What a paid chat through the proxy costs

A log records the reservations of a paid chat, its charges and what its POST can have done. At
every await and at every return the log and the budget that is dropped agree: what may have been
executed is charged or kept, and what was not is neither.
-/
namespace Dispatch

open Bounded Http Interaction Ledger Policy Program Proxy

section Log

/-- What is known of the POST. A refusal proves that it was not billed, with its whole answer or
with the status line alone. -/
inductive Post where
  | unsent
  | possible
  | refused (status : Nat) (complete : Bool)
  | success (body : Body)

/-- `charges` has every charge that was asked for, and `failed` says that a release failed. -/
structure PaidLog where
  created : List Reservation
  released : List Reservation
  charges : List (Reservation × I64)
  failed : Bool
  post : Post

def ChatOp.waiting : ChatOp → Option ProxyBudget
  | .ledger _ => none
  | .forward budget op => if op.awaits then some budget else none
  | .append budget _ => some budget
  | .stream budget => some budget

/-- The pause before the next attempt. -/
def ChatOp.pauses : ChatOp → Bool
  | .forward _ (.sleepRetry _) => true
  | _ => false

namespace Post

def sent (post : Post) : Sent → Post
  | .response resp =>
    if isUpstreamAuthStatus resp.status then .refused resp.status false else .possible
  | .connectFailed _ => post
  | .failed _ | .headerTimeout => .possible

def received (resp : Response) : Except Nat Body → Post
  | .error _ => .possible
  | .ok body =>
    if isSuccess resp.status then .success body
    else if isUncertainStatus resp.status then .possible
    else .refused resp.status true

/-- It may have been executed. -/
def MayBill (post : Post) : Prop := post = .possible ∨ ∃ body, post = .success body

/-- It was not executed, or the upstream refused it. -/
def Unbilled (post : Post) : Prop :=
  post = .unsent ∨ ∃ status complete, post = .refused status complete

theorem MayBill.not_unbilled {post : Post} (h : post.MayBill) : ¬post.Unbilled := by
  rintro (hunsent | ⟨status, complete, hrefused⟩)
  · obtain hpossible | ⟨body, hsuccess⟩ := h
    · cases hunsent.symm.trans hpossible
    · cases hunsent.symm.trans hsuccess
  · obtain hpossible | ⟨body, hsuccess⟩ := h
    · cases hrefused.symm.trans hpossible
    · cases hrefused.symm.trans hsuccess

end Post

namespace PaidLog

def empty : PaidLog := ⟨[], [], [], false, .unsent⟩

variable {S : Type}

def called (log : PaidLog) : (call : LedgerCall) → call.Answer → PaidLog
  | .reserve scope _, .ok id => { log with created := log.created ++ [(scope.tenantId, id)] }
  | .replaySettlement tenantId id actualCostMinor, _ =>
    { log with charges := log.charges ++ [((tenantId, id), actualCostMinor)] }
  | .release tenantId id, .ok () => { log with released := log.released ++ [(tenantId, id)] }
  | .release _ _, .error _ => { log with failed := true }
  | _, _ => log

def asked (log : PaidLog) : ChatOp → PaidLog
  | .forward _ .send => { log with post := .possible }
  | _ => log

def next (log : PaidLog) : (op : ChatOp) → op.Answer S → PaidLog
  | .ledger call, answer => log.called call answer
  | .forward _ .send, sent => { log with post := log.post.sent sent }
  | .forward _ (.read resp), body => { log with post := .received resp body }
  | _, _ => log

/-- The releases of a drop succeed. -/
def dropped (log : PaidLog) : LedgerCall → PaidLog
  | .release tenantId id => log.called (.release tenantId id) (.ok ())
  | _ => log

def drops (log : PaidLog) (budget : ProxyBudget) : PaidLog := budget.drop.foldl dropped log

def heard (trace : List (Exchange ChatOp (ChatOp.Answer S))) : PaidLog :=
  trace.foldl (fun log e => log.next e.1 e.2) .empty

end PaidLog

/-- A charge is made at most once, for a 2xx answer with usage and at the price of that usage. -/
def ChargedOnce {F : Type} [Charges F] (cost : Cost F) (log : PaidLog) : Prop :=
  log.charges = [] ∨ ∃ r body usage price, log.created = [r] ∧ log.charges = [(r, price)] ∧
    log.post = .success body ∧ parseOpenaiUsage body = .ok usage ∧
    actualCostFromUsage cost usage = .ok price

theorem ChargedOnce.charges_of_created {F : Type} [Charges F] {cost : Cost F} {log : PaidLog}
    (h : ChargedOnce cost log) (hcreated : log.created = []) : log.charges = [] := by
  obtain hnone | ⟨r, _, _, _, hone, -⟩ := h
  · exact hnone
  · cases hcreated.symm.trans hone

/-- What may have been executed is not released; of what was not, nothing is charged and nothing
stays reserved, but for a drop in a pause. -/
structure Accounted {F : Type} [Charges F] (cost : Cost F) (paused : Bool) (log : PaidLog) :
    Prop where
  once : ChargedOnce cost log
  kept : log.post.MayBill → log.released = []
  clean : log.post.Unbilled → log.charges = [] ∧ (paused = false → log.released = log.created)

def paidMonitor {F : Type} [Charges F] (S : Type) (cost : Cost F) :
    Monitor ChatOp (ChatOp.Answer S) PaidLog where
  allowed log op := ∀ budget, op.waiting = some budget →
    Accounted cost op.pauses ((log.asked op).drops budget)
  next := PaidLog.next

/-- How a request ends, and what is in the log then: its future is dropped before it is polled, or
it returns, or its future is dropped where it waits. -/
inductive PaidEnds {S : Type} (p : ProxyProgram S (ProxyReply S)) :
    Option (ProxyReply S) → Bool → PaidLog → Prop where
  | unpolled : PaidEnds p none false .empty
  | returned {trace : List (Exchange ChatOp (ChatOp.Answer S))} {reply : ProxyReply S}
      (h : Leads p trace (.ret reply)) : PaidEnds p (some reply) false (.heard trace)
  | dropped {trace : List (Exchange ChatOp (ChatOp.Answer S))} {op : ChatOp}
      {next : op.Answer S → ProxyProgram S (ProxyReply S)} {budget : ProxyBudget}
      (h : Leads p trace (.ask op next)) (hwaiting : op.waiting = some budget) :
      PaidEnds p none op.pauses (((PaidLog.heard trace).asked op).drops budget)

end Log

section Funds

variable {budget : ProxyBudget} {log : PaidLog}

/-- What the budget still has reserved. -/
def ProxyBudget.held (budget : ProxyBudget) : List Reservation :=
  (budget.paid.bind fun guard => guard.id.map fun id => (tenantOf guard.tenantId, id)).toList

/-- The budget has whatever was reserved, and nothing was charged or released. -/
structure Funds (log : PaidLog) (budget : ProxyBudget) : Prop where
  admission : budget.admission.id = none
  ledger : ∀ guard id, budget.paid = some guard → guard.id = some id → guard.ledger = true
  created : log.created = budget.held
  charges : log.charges = []
  released : log.released = []
  failed : log.failed = false

/-- A drop releases what is reserved. -/
def Loose (budget : ProxyBudget) : Prop :=
  ∀ guard, budget.paid = some guard → guard.releaseOnDrop = true

/-- A drop releases nothing. -/
def Closed (budget : ProxyBudget) : Prop := budget.drop = []

theorem admission_dropped (h : budget.admission.id = none) : budget.admission.dropped = [] := by
  simp [ReservationGuard.dropped, ReservationGuard.drop, h]

theorem closed_of_paid (hadmission : budget.admission.id = none)
    (h : ∀ guard, budget.paid = some guard → guard.id = none ∨ guard.releaseOnDrop = false) :
    Closed budget := by
  unfold Closed ProxyBudget.drop
  rw [admission_dropped hadmission]
  cases hpaid : budget.paid with
  | none => rfl
  | some guard =>
    obtain hid | hkept := h guard hpaid
    · simp [ReservationGuard.dropped, ReservationGuard.drop, hid]
    · simp [ReservationGuard.dropped, ReservationGuard.drop, hkept]

theorem Closed.drops (h : Closed budget) (log : PaidLog) : log.drops budget = log := by
  unfold PaidLog.drops
  rw [h]
  rfl

theorem drop_of_loose (hadmission : budget.admission.id = none)
    (hledger : ∀ guard id, budget.paid = some guard → guard.id = some id → guard.ledger = true)
    (hloose : Loose budget) :
    budget.drop = budget.held.map fun r => .release r.1 r.2 := by
  unfold ProxyBudget.drop ProxyBudget.held
  rw [admission_dropped hadmission]
  cases hpaid : budget.paid with
  | none => rfl
  | some guard =>
    have harmed := hloose guard hpaid
    cases hid : guard.id with
    | none => simp [ReservationGuard.dropped, ReservationGuard.drop, hid]
    | some id =>
      have hguard := hledger guard id hpaid hid
      simp [ReservationGuard.dropped, ReservationGuard.drop, hguard, harmed, hid]

theorem foldl_dropped (log : PaidLog) (rs : List Reservation) :
    (rs.map fun r => LedgerCall.release r.1 r.2).foldl PaidLog.dropped log =
      { log with released := log.released ++ rs } := by
  induction rs generalizing log with
  | nil => simp
  | cons r rs ih => simp [ih, PaidLog.dropped, PaidLog.called]

/-- Before the POST a drop gives back all there is. -/
theorem Funds.drops_loose (h : Funds log budget) (hloose : Loose budget) :
    log.drops budget = { log with released := log.created } := by
  unfold PaidLog.drops
  rw [drop_of_loose h.admission h.ledger hloose, foldl_dropped, h.released, h.created,
    List.nil_append]

end Funds

section Guards

variable {F S : Type} [Charges F] {cost : Cost F} {budget : ProxyBudget} {log : PaidLog}

theorem accounted_unbilled {paused : Bool} (hcharges : log.charges = [])
    (hpost : log.post.Unbilled) (hreleased : paused = false → log.released = log.created) :
    Accounted cost paused log where
  once := .inl hcharges
  kept hbill := absurd hpost hbill.not_unbilled
  clean _ := ⟨hcharges, hreleased⟩

theorem accounted_kept {paused : Bool} (hcharges : log.charges = []) (hpost : log.post.MayBill)
    (hreleased : log.released = []) : Accounted cost paused log where
  once := .inl hcharges
  kept _ := hreleased
  clean hunbilled := absurd hunbilled hpost.not_unbilled

/-- A drop before the POST leaves nothing behind. -/
theorem Funds.accounted_loose (h : Funds log budget) (hloose : Loose budget)
    (hpost : log.post.Unbilled) : Accounted cost false (log.drops budget) := by
  rw [h.drops_loose hloose]
  exact accounted_unbilled h.charges hpost fun _ => rfl

/-- What is left of the budget is given back, or the release has failed. -/
structure GivenBack (before log : PaidLog) : Prop where
  charges : log.charges = before.charges
  post : log.post = before.post
  created : log.created = before.created
  released : log.failed = false → log.released = log.created

theorem allowed_ledger (call : LedgerCall) : (paidMonitor S cost).allowed log (.ledger call) := by
  intro waiting hwaiting
  cases hwaiting

theorem releaseNow_none {guard : ReservationGuard} (h : guard.id = none) :
    (guard.releaseNow : ProxyProgram S _) = .ret (.ok (), guard.taken) := by
  unfold ReservationGuard.releaseNow
  rw [h]
  cases guard.ledger <;> rfl

theorem releaseNow_some {guard : ReservationGuard} {id : String} (hledger : guard.ledger = true)
    (hid : guard.id = some id) : (guard.releaseNow : ProxyProgram S _) =
      .ask (.ledger (.release (tenantOf guard.tenantId) id)) fun answer =>
        .ret (answer, guard.taken) := by
  unfold ReservationGuard.releaseNow
  rw [hledger, hid]

theorem releaseUnsent_none (hadmission : budget.admission.id = none) (hpaid : budget.paid = none) :
    (budget.releaseUnsent : ProxyProgram S _) =
      .ret (.ok (), { budget with admission := budget.admission.taken }) := by
  unfold ProxyBudget.releaseUnsent
  rw [releaseNow_none hadmission, hpaid]
  rfl

theorem releaseUnsent_some {guard : ReservationGuard} (hadmission : budget.admission.id = none)
    (hpaid : budget.paid = some guard) : (budget.releaseUnsent : ProxyProgram S _) =
      guard.releaseNow.bind fun released => .ret (released.1.mapError .ledger,
        { budget with admission := budget.admission.taken, paid := some released.2 }) := by
  unfold ProxyBudget.releaseUnsent
  rw [releaseNow_none hadmission, hpaid]
  rfl

theorem safe_releaseUnsent (h : Funds log budget) :
    Safe (paidMonitor S cost) (fun result after => GivenBack log after ∧ Closed result.2 ∧
      (result.1.toBool = true → after.failed = false)) budget.releaseUnsent log := by
  cases hpaid : budget.paid with
  | none =>
    rw [releaseUnsent_none h.admission hpaid]
    refine ⟨⟨rfl, rfl, rfl, fun _ => ?_⟩, closed_of_paid rfl ?_, fun _ => h.failed⟩
    · rw [h.released, h.created]
      simp [ProxyBudget.held, hpaid]
    · intro guard hguard
      cases hpaid.symm.trans hguard
  | some guard =>
    rw [releaseUnsent_some h.admission hpaid]
    have hclosed : Closed { budget with
        admission := budget.admission.taken, paid := some guard.taken } := by
      apply closed_of_paid rfl
      rintro _ ⟨⟩
      exact .inl rfl
    cases hid : guard.id with
    | none =>
      rw [releaseNow_none hid]
      refine ⟨⟨rfl, rfl, rfl, fun _ => ?_⟩, hclosed, fun _ => h.failed⟩
      rw [h.released, h.created]
      simp [ProxyBudget.held, hpaid, hid]
    | some id =>
      rw [releaseNow_some (h.ledger guard id hpaid hid) hid]
      refine ⟨allowed_ledger _, fun answer => ?_⟩
      cases answer with
      | ok _ =>
        refine ⟨⟨rfl, rfl, rfl, fun _ => ?_⟩, hclosed, fun _ => h.failed⟩
        simp [paidMonitor, PaidLog.next, PaidLog.called, h.released, h.created, ProxyBudget.held,
          hpaid, hid]
      | error _ => exact ⟨⟨rfl, rfl, rfl, nofun⟩, hclosed, nofun⟩

end Guards

section Handlers

variable {F S : Type} [Charges F] {chat : ProxyChat F} {cost : Cost F} {state : ChatState}
  {log : PaidLog} {course : Course}

/-- A drop keeps what is reserved. -/
def Armed (budget : ProxyBudget) : Prop :=
  ∀ guard, budget.paid = some guard → guard.releaseOnDrop = false

/-- What the gate leaves: at most one charge, and nothing that a drop would release. -/
structure Charged (cost : Cost F) (log : PaidLog) (budget : ProxyBudget) : Prop where
  admission : budget.admission.id = none
  kept : ∀ guard, budget.paid = some guard → guard.id = none ∨ guard.releaseOnDrop = false
  once : ChargedOnce cost log
  bill : log.post.MayBill
  released : log.released = []
  failed : log.failed = false

/-- The budget and the log where the POST stands. -/
def Stands (cost : Cost F) (course : Course) (state : ChatState) (log : PaidLog) : Prop :=
  match course with
  | .idle => Funds log state.budget ∧ state.budget.paid = none ∧ log.post = .unsent
  | .unobserved => Funds log state.budget ∧ Loose state.budget ∧ log.post = .unsent
  | .observed => Funds log state.budget ∧ Armed state.budget ∧ log.post = .unsent
  | .possible => Funds log state.budget ∧ Armed state.budget ∧ log.post.MayBill
  | .refused => Funds log state.budget ∧ Armed state.budget ∧ log.post.Unbilled
  | .answered body => Funds log state.budget ∧ Armed state.budget ∧ log.post = .success body
  | .gated => Charged cost log state.budget
  | .uncompleted => False

theorem Funds.closed_of_armed {budget : ProxyBudget} (h : Funds log budget)
    (harmed : Armed budget) : Closed budget :=
  closed_of_paid h.admission fun guard hguard => .inr (harmed guard hguard)

theorem Funds.charged {budget : ProxyBudget} (h : Funds log budget) (harmed : Armed budget)
    (hbill : log.post.MayBill) : Charged cost log budget where
  admission := h.admission
  kept guard hguard := .inr (harmed guard hguard)
  once := .inl h.charges
  bill := hbill
  released := h.released
  failed := h.failed

theorem loose_of_none {budget : ProxyBudget} (h : budget.paid = none) : Loose budget := by
  intro guard hguard
  cases h.symm.trans hguard

theorem armed_of_none {budget : ProxyBudget} (h : budget.paid = none) : Armed budget := by
  intro guard hguard
  cases h.symm.trans hguard

theorem created_of_none {budget : ProxyBudget} (h : Funds log budget) (hpaid : budget.paid = none) :
    log.created = [] := by
  rw [h.created]
  simp [ProxyBudget.held, hpaid]

/-- Events are announced while a drop would give everything back. -/
theorem safe_announce {wanted : Bool} {budget : ProxyBudget} {event : ProxyEvent}
    (h : Accounted cost false (log.drops budget)) :
    Safe (paidMonitor S cost) (fun _ after => after = log)
      (ProxyChat.announce wanted budget event) log := by
  unfold ProxyChat.announce
  split
  · refine ⟨?_, fun _ => rfl⟩
    rintro _ ⟨⟩
    exact h
  · rfl

/-- The reservation is made before the POST, and only then is there something to give back. -/
theorem safe_prepareForPost {budget : ProxyBudget} (h : Funds log budget)
    (hpaid : budget.paid = none) (hpost : log.post = .unsent) :
    Safe (paidMonitor S cost) (fun prepared after => Funds after prepared.2 ∧ Loose prepared.2 ∧
      after.post = .unsent) budget.prepareForPost log := by
  obtain ⟨ledger, tenantId, providerId, estimate, admission, paid, settlement⟩ := budget
  cases hpaid
  have hadmission : admission.id = none := h.admission
  have hloose : Loose ⟨ledger, tenantId, providerId, estimate, admission.taken, none, settlement⟩ :=
    nofun
  have hfunds : Funds log
      ⟨ledger, tenantId, providerId, estimate, admission.taken, none, settlement⟩ :=
    { h with admission := rfl, ledger := nofun }
  unfold ProxyBudget.prepareForPost
  simp only [Option.isSome_none, Bool.false_eq_true, if_false]
  rw [releaseNow_none hadmission]
  change Safe _ _ (Program.bind (ReservationGuard.reserve ledger tenantId providerId estimate) _)
    log
  unfold ReservationGuard.reserve
  split
  · refine ⟨allowed_ledger _, fun answer => ?_⟩
    cases answer with
    | error error => exact ⟨hfunds, hloose, hpost⟩
    | ok id =>
      refine ⟨⟨rfl, ?_, ?_, h.charges, h.released, h.failed⟩, ?_, hpost⟩
      · rintro _ _ ⟨⟩ ⟨⟩
        rfl
      · change log.created ++ _ = _
        rw [created_of_none h rfl]
        rfl
      · rintro _ ⟨⟩
        rfl
  · split
    · exact ⟨hfunds, hloose, hpost⟩
    · refine ⟨⟨rfl, ?_, ?_, h.charges, h.released, h.failed⟩, ?_, hpost⟩
      · rintro _ _ ⟨⟩ ⟨⟩
      · exact created_of_none h rfl
      · rintro _ ⟨⟩
        rfl

/-- The observer arms the reservation when everything else has succeeded. -/
theorem safe_observePaid (hfunds : Funds log state.budget) (hpaid : state.budget.paid = none)
    (hpost : log.post = .unsent) : Safe (paidMonitor S cost)
      (fun answered after => Stands cost (if answered.1.toBool then .observed else .unobserved)
        answered.2 after) (chat.observePaid state) log := by
  apply (safe_prepareForPost hfunds hpaid hpost).bind
  rintro ⟨prepared, budget⟩ log ⟨hfunds, hloose, hpost⟩
  have hunbilled : log.post.Unbilled := .inl hpost
  have hdrop : Accounted cost false (log.drops budget) := hfunds.accounted_loose hloose hunbilled
  cases prepared with
  | error error => exact ⟨hfunds, hloose, hpost⟩
  | ok _ =>
    apply (safe_announce hdrop).bind
    rintro stored _ rfl
    cases stored with
    | false => exact ⟨hfunds, hloose, hpost⟩
    | true =>
      apply (safe_announce hdrop).bind
      rintro stored _ rfl
      cases stored with
      | false => exact ⟨hfunds, hloose, hpost⟩
      | true =>
        obtain ⟨ledger, tenantId, providerId, estimate, admission, paid, settlement⟩ := budget
        cases paid with
        | none => exact ⟨hfunds, hloose, hpost⟩
        | some guard =>
          refine ⟨⟨hfunds.admission, ?_, hfunds.created, hfunds.charges, hfunds.released,
            hfunds.failed⟩, ?_, hpost⟩
          · rintro _ id ⟨⟩ hid
            exact hfunds.ledger guard id rfl hid
          · rintro _ ⟨⟩
            rfl

theorem safe_settleReplayable (guard : ReservationGuard) (price : I64) :
    Safe (paidMonitor S cost) (fun settled after => settled.2 = guard.taken ∧
        (after = log ∨ ∃ id, guard.id = some id ∧
          after = { log with charges := log.charges ++ [((tenantOf guard.tenantId, id), price)] }))
      (guard.settleReplayable price) log := by
  unfold ReservationGuard.settleReplayable
  split
  · next id _ hid =>
    refine ⟨allowed_ledger _, fun answer => ?_⟩
    cases answer with
    | ok _ => exact ⟨rfl, .inr ⟨id, hid, rfl⟩⟩
    | error _ => exact ⟨rfl, .inr ⟨id, hid, rfl⟩⟩
  · exact ⟨rfl, .inl rfl⟩

/-- The gate charges once, at the price of the usage it has parsed, or not at all. -/
theorem safe_settleResponse {outcome : ForwardOutcome} {budget : ProxyBudget}
    (h : Funds log budget) (harmed : Armed budget) (hpost : log.post = .success outcome.body) :
    Safe (paidMonitor S cost) (fun settled after => Charged cost after settled.2)
      (budget.settleResponse cost outcome) log := by
  have hcharged : Charged cost log budget := h.charged harmed (.inr ⟨_, hpost⟩)
  have htaken : ∀ (guard : ReservationGuard) settlement,
      Charged cost log { budget with paid := some guard.taken, settlement := settlement } := by
    intro guard settlement
    refine ⟨hcharged.admission, ?_, hcharged.once, hcharged.bill, hcharged.released,
      hcharged.failed⟩
    rintro _ ⟨⟩
    exact .inl rfl
  unfold ProxyBudget.settleResponse
  split
  · exact hcharged
  · next usage husage =>
    split
    · exact hcharged
    · next guard hpaid =>
      split
      · exact htaken guard _
      · next price hprice =>
        apply (safe_settleReplayable guard price).bind
        rintro ⟨charged, guard'⟩ after ⟨hguard, hlog⟩
        cases hguard
        have hspent : ∀ settlement, Charged cost after
            { budget with paid := some guard.taken, settlement := settlement } := by
          intro settlement
          obtain rfl | ⟨id, hid, rfl⟩ := hlog
          · exact htaken guard settlement
          · have hcreated : log.created = [(tenantOf guard.tenantId, id)] := by
              simp [h.created, ProxyBudget.held, hpaid, hid]
            have hcharges : log.charges ++ [((tenantOf guard.tenantId, id), price)] =
                [((tenantOf guard.tenantId, id), price)] := by
              rw [h.charges, List.nil_append]
            exact { htaken guard settlement with
              once := .inr ⟨_, _, usage, price, hcreated, hcharges, hpost, husage, hprice⟩ }
        rcases charged with error | _ | charged
        · exact hspent _
        · exact hspent _
        · exact hspent _

/-- Attempts and reads move what is known of the POST with the course of the forward. -/
theorem stands_sent (hfunds : Funds log state.budget) (harmed : Armed state.budget)
    (hpost : log.post = .unsent) (sent : Sent) :
    Stands cost (Course.observed.sent sent) state { log with post := log.post.sent sent } := by
  have hfunds' : ∀ post, Funds { log with post := post } state.budget := fun post => { hfunds with }
  cases sent with
  | response resp =>
    by_cases hauth : isUpstreamAuthStatus resp.status = true
    · simp only [Course.sent, Post.sent, hauth, if_true]
      exact ⟨hfunds' _, harmed, .inr ⟨_, _, rfl⟩⟩
    · simp only [Course.sent, Post.sent, hauth]
      exact ⟨hfunds' _, harmed, .inl rfl⟩
  | connectFailed timeout => exact ⟨hfunds' _, harmed, hpost⟩
  | failed _ | headerTimeout => exact ⟨hfunds' _, harmed, .inl rfl⟩

theorem stands_received (hfunds : Funds log state.budget) (harmed : Armed state.budget)
    (resp : Response) (body : Except Nat Body) :
    Stands cost (Course.received resp body) state { log with post := .received resp body } := by
  have hfunds' : ∀ post, Funds { log with post := post } state.budget := fun post => { hfunds with }
  cases body with
  | error status => exact ⟨hfunds' _, harmed, .inl rfl⟩
  | ok body =>
    unfold Course.received Post.received
    dsimp only
    split
    · split
      · exact ⟨hfunds' _, harmed, rfl⟩
      · exact ⟨hfunds' _, harmed, .inr ⟨body, rfl⟩⟩
    · split
      · exact ⟨hfunds' _, harmed, .inl rfl⟩
      · exact ⟨hfunds' _, harmed, .inr ⟨_, _, rfl⟩⟩

/-- A question that is passed on leaves the budget, and moves the POST and the log alike. -/
theorem safe_forward {op : Action} (hallowed : course.Allows op)
    (h : Stands cost course state log) (hobserve : op ≠ .observe)
    (hgate : ∀ outcome, op ≠ .gate outcome) (hcompleted : ∀ outcome, op ≠ .completed outcome) :
    Safe (paidMonitor S cost) (fun answered after => Stands cost (course.next op answered.1)
        answered.2 after)
      (.ask (.forward state.budget op) fun answer => .ret (answer, state)) log := by
  cases op with
  | observe => exact absurd rfl hobserve
  | gate outcome => exact absurd rfl (hgate outcome)
  | completed outcome => exact absurd rfl (hcompleted outcome)
  | lockOutcome =>
    cases course with
    | idle =>
      refine ⟨?_, fun _ => h⟩
      rintro _ ⟨⟩
      exact h.1.accounted_loose (loose_of_none h.2.1) (.inl h.2.2)
    | uncompleted => exact h.elim
    | _ => cases hallowed
  | send =>
    cases course with
    | observed =>
      obtain ⟨hfunds, harmed, hpost⟩ := h
      refine ⟨?_, fun sent => stands_sent hfunds harmed hpost sent⟩
      rintro _ ⟨⟩
      rw [(hfunds.closed_of_armed harmed).drops]
      exact accounted_kept hfunds.charges (.inl rfl) hfunds.released
    | uncompleted => exact h.elim
    | _ => cases hallowed
  | sleepRetry attempt =>
    cases course with
    | observed =>
      obtain ⟨hfunds, harmed, hpost⟩ := h
      refine ⟨?_, fun _ => ⟨hfunds, harmed, hpost⟩⟩
      rintro _ ⟨⟩
      rw [(hfunds.closed_of_armed harmed).drops]
      exact accounted_unbilled hfunds.charges (.inl hpost) nofun
    | uncompleted => exact h.elim
    | _ => cases hallowed
  | read resp =>
    cases course with
    | possible =>
      obtain ⟨hfunds, harmed, hbill⟩ := h
      refine ⟨?_, fun body => stands_received hfunds harmed resp body⟩
      rintro _ ⟨⟩
      rw [(hfunds.closed_of_armed harmed).drops]
      exact accounted_kept hfunds.charges hbill hfunds.released
    | uncompleted => exact h.elim
    | _ => cases hallowed
  | _ =>
    refine ⟨?_, fun _ => h⟩
    rintro _ ⟨⟩

/-- Every answer keeps the budget and the log where the POST stands. -/
theorem safe_handle (hpaid : chat.isPaid = true) (op : Action) (hallowed : course.Allows op)
    (h : Stands chat.selected.card.provider.cost course state log) :
    Safe (paidMonitor S chat.selected.card.provider.cost)
      (fun answered after =>
        Stands chat.selected.card.provider.cost (course.next op answered.1) answered.2 after)
      (chat.handle op state) log := by
  cases op with
  | observe =>
    cases course with
    | idle =>
      obtain ⟨hfunds, hnone, hpost⟩ := h
      simp only [ProxyChat.handle, hpaid, if_true]
      apply (safe_observePaid hfunds hnone hpost).mono
      rintro ⟨answer, state⟩ after hstands
      cases answer with
      | error _ => exact hstands
      | ok _ => exact hstands
    | uncompleted => exact h.elim
    | _ => cases hallowed
  | gate outcome =>
    simp only [ProxyChat.handle, hpaid, if_true]
    cases course with
    | idle =>
      obtain ⟨hfunds, hnone, hpost⟩ := h
      have hrefused : ∃ error, (state.budget.settleResponse chat.selected.card.provider.cost
          outcome : ProxyProgram S _) = .ret (.error error, state.budget) := by
        unfold ProxyBudget.settleResponse
        rw [hnone]
        split
        · exact ⟨_, rfl⟩
        · exact ⟨_, rfl⟩
      obtain ⟨error, heq⟩ := hrefused
      rw [heq]
      exact ⟨hfunds, hnone, hpost⟩
    | answered body =>
      obtain ⟨hfunds, harmed, hpost⟩ := h
      have hbody : body = outcome.body := by
        obtain hidle | hanswered := hallowed
        · cases hidle
        · exact Course.answered.inj hanswered
      subst hbody
      exact (safe_settleResponse hfunds harmed hpost).bind fun _ _ hcharged => hcharged
    | uncompleted => exact h.elim
    | _ => obtain hidle | hanswered := hallowed <;> contradiction
  | completed outcome =>
    simp only [ProxyChat.handle, hpaid, if_true]
    exact h
  | _ => exact safe_forward hallowed h nofun (fun _ => nofun) (fun _ => nofun)

end Handlers

section Ends

variable {F S : Type} [Charges F] {chat : ProxyChat F} {cost : Cost F} {state : ChatState}
  {budget : ProxyBudget} {log : PaidLog} {course : Course} {outcome : ForwardOutcome}

theorem Charged.closed (h : Charged cost log budget) : Closed budget :=
  closed_of_paid h.admission h.kept

theorem Charged.accounted (h : Charged cost log budget) {paused : Bool} :
    Accounted cost paused log where
  once := h.once
  kept _ := h.released
  clean hunbilled := absurd hunbilled h.bill.not_unbilled

theorem GivenBack.accounted {after : PaidLog} (h : GivenBack log after)
    (hcharges : log.charges = []) (hpost : log.post.Unbilled) (hfailed : after.failed = false) :
    Accounted cost false after :=
  accounted_unbilled (h.charges.trans hcharges) (h.post ▸ hpost) fun _ => h.released hfailed

/-- The budget is closed, and the log is in order unless a release has failed. -/
structure Settled (cost : Cost F) (replay : Prop) (log : PaidLog) (budget : ProxyBudget) :
    Prop where
  closed : Closed budget
  accounted : log.failed = false → Accounted cost false log
  replayed : replay → log.created = []

theorem finish_release (h : outcome.mayBill = false) :
    (budget.finish outcome : ProxyProgram S _) = budget.releaseUnsent := by
  unfold ProxyBudget.finish
  cases hexecution : outcome.execution with
  | notExecuted => rfl
  | replay => rfl
  | uncertain => simp [ForwardOutcome.mayBill, hexecution] at h
  | executed =>
    simp only [ForwardOutcome.mayBill, hexecution] at h
    simp [h]

theorem finish_keep (budget : ProxyBudget) (h : outcome.mayBill = true) : ∃ paid,
    (budget.finish outcome : ProxyProgram S _) = .ret (.ok (), { budget with paid := paid }) ∧
      (paid = budget.paid ∨ paid = budget.paid.map ReservationGuard.retainUntilExpiry) := by
  unfold ProxyBudget.finish
  cases hexecution : outcome.execution with
  | notExecuted => simp [ForwardOutcome.mayBill, hexecution] at h
  | replay => simp [ForwardOutcome.mayBill, hexecution] at h
  | uncertain => exact ⟨_, rfl, .inr rfl⟩
  | executed =>
    simp only [ForwardOutcome.mayBill, hexecution] at h
    refine ⟨budget.paid, ?_, .inl rfl⟩
    simp [h]

theorem safe_finish_release (h : Funds log budget) (hpost : log.post.Unbilled)
    (hbill : outcome.mayBill = false) {replay : Prop} (hreplay : replay → log.created = []) :
    Safe (paidMonitor S cost) (fun finished after => Settled cost replay after finished.2 ∧
      (finished.1.toBool = true → after.failed = false)) (budget.finish outcome) log := by
  rw [finish_release hbill]
  apply (safe_releaseUnsent h).mono
  rintro finished after ⟨hback, hclosed, hok⟩
  refine ⟨⟨hclosed, hback.accounted h.charges hpost, fun hr => ?_⟩, hok⟩
  rw [hback.created]
  exact hreplay hr

theorem safe_finish_keep (h : Charged cost log budget) (hbill : outcome.mayBill = true)
    {replay : Prop} (hreplay : ¬replay) :
    Safe (paidMonitor S cost) (fun finished after => Settled cost replay after finished.2 ∧
      (finished.1.toBool = true → after.failed = false)) (budget.finish outcome) log := by
  obtain ⟨paid, hfinish, hpaid⟩ := finish_keep (S := S) budget hbill
  rw [hfinish]
  have hkept : ∀ guard, paid = some guard → guard.id = none ∨ guard.releaseOnDrop = false := by
    intro guard hguard
    obtain rfl | rfl := hpaid
    · exact h.kept guard hguard
    · obtain ⟨before, -, rfl⟩ := Option.map_eq_some_iff.mp hguard
      exact .inl rfl
  exact ⟨⟨closed_of_paid h.admission hkept, fun _ => h.accounted, fun hr => absurd hr hreplay⟩,
    fun _ => h.failed⟩

/-- The outcome says whether the reservation is given back or kept. -/
theorem safe_finish (hended : course.Ended outcome) (h : Stands cost course state log) :
    Safe (paidMonitor S cost) (fun finished after =>
        Settled cost (outcome.execution = .replay) after finished.2 ∧
          (finished.1.toBool = true → after.failed = false))
      (state.budget.finish outcome) log := by
  have hbilled : outcome.mayBill = true → ¬outcome.execution = .replay := by
    intro hbill hreplay
    simp [ForwardOutcome.mayBill, hreplay] at hbill
  cases course with
  | idle =>
    obtain ⟨hfunds, hnone, hpost⟩ := h
    have hcreated := created_of_none hfunds hnone
    by_cases hbill : outcome.mayBill = true
    · obtain ⟨paid, hfinish, hpaid⟩ := finish_keep (S := S) state.budget hbill
      rw [hnone] at hpaid
      have hempty : paid = none := by
        obtain rfl | rfl := hpaid
        · rfl
        · rfl
      subst hempty
      rw [hfinish]
      refine ⟨⟨closed_of_paid hfunds.admission (by rintro _ ⟨⟩), fun _ => ?_, fun _ => hcreated⟩,
        fun _ => hfunds.failed⟩
      exact accounted_unbilled hfunds.charges (.inl hpost) fun _ =>
        hfunds.released.trans hcreated.symm
    · exact safe_finish_release hfunds (.inl hpost) (Bool.eq_false_iff.mpr hbill) fun _ => hcreated
  | observed =>
    obtain ⟨hfunds, -, hpost⟩ := h
    exact safe_finish_release hfunds (.inl hpost) hended.1 fun hreplay => absurd hreplay hended.2
  | refused =>
    obtain ⟨hfunds, -, hpost⟩ := h
    exact safe_finish_release hfunds hpost hended.1 fun hreplay => absurd hreplay hended.2
  | possible =>
    obtain ⟨hfunds, harmed, hpost⟩ := h
    exact safe_finish_keep (hfunds.charged harmed hpost) hended (hbilled hended)
  | gated => exact safe_finish_keep h hended (hbilled hended)
  | unobserved | answered _ => exact hended.elim
  | uncompleted => exact h.elim

/-- What a reply leaves: it replays nothing that this request has reserved. -/
def Concluded (cost : Cost F) (reply : ProxyReply S) (budget : ProxyBudget) (log : PaidLog) :
    Prop :=
  Settled cost (∃ outcome settlement, reply = .response outcome settlement ∧
    outcome.execution = .replay) log budget

theorem concluded_of_settled {reply : ProxyReply S} {replay : Prop}
    (h : Settled cost replay log budget) (hreply : ∀ outcome settlement,
      reply = .response outcome settlement → outcome.execution = .replay → replay) :
    Concluded cost reply budget log where
  closed := h.closed
  accounted := h.accounted
  replayed := by
    rintro ⟨outcome, settlement, hresponse, hreplay⟩
    exact h.replayed (hreply outcome settlement hresponse hreplay)

theorem safe_conclude (h : Settled cost (outcome.execution = .replay) log state.budget)
    (hfailed : log.failed = false) : Safe (paidMonitor S cost)
      (fun concluded after => Concluded cost concluded.1 concluded.2 after)
      (chat.conclude outcome state) log := by
  have hdrop : Accounted cost false (log.drops state.budget) := by
    rw [h.closed.drops]
    exact h.accounted hfailed
  apply (safe_announce hdrop).bind
  rintro stored _ rfl
  split
  · refine concluded_of_settled h ?_
    rintro _ _ ⟨⟩
  · refine concluded_of_settled h ?_
    rintro _ _ ⟨⟩ hreplay
    exact hreplay

/-- An error of the observer gives everything back, and an outcome is finished. -/
theorem safe_settleForward (hpaid : chat.isPaid = true)
    {result : Except ProxyObserverError ForwardOutcome} (hended : course.EndedAll result)
    (h : Stands cost course state log) : Safe (paidMonitor S cost)
      (fun concluded after => Concluded cost concluded.1 concluded.2 after)
      (chat.settleForward state result) log := by
  cases result with
  | error error =>
    obtain rfl | rfl := hended
    · obtain ⟨hfunds, -, hpost⟩ := h
      simp only [ProxyChat.settleForward, hpaid, if_true]
      apply (safe_releaseUnsent hfunds).bind
      rintro ⟨released, budget⟩ after ⟨hback, hclosed, -⟩
      have hsettled : Settled cost False after budget :=
        ⟨hclosed, hback.accounted hfunds.charges (.inl hpost), False.elim⟩
      refine concluded_of_settled hsettled ?_
      intro outcome settlement hreply
      split at hreply
      · cases error <;> cases hreply
      · cases hreply
    · exact h.elim
  | ok outcome =>
    simp only [ProxyChat.settleForward, hpaid, if_true]
    apply (safe_finish hended h).bind
    rintro ⟨finished, budget⟩ after ⟨hsettled, hok⟩
    cases finished with
    | error error =>
      refine concluded_of_settled hsettled ?_
      rintro _ _ ⟨⟩
    | ok _ => exact safe_conclude hsettled (hok rfl)

theorem safe_chatViaProxyBuffered (hpaid : chat.isPaid = true) (hfunds : Funds log budget)
    (hnone : budget.paid = none) (hpost : log.post = .unsent) :
    Safe (paidMonitor S chat.selected.card.provider.cost)
      (fun concluded after =>
        Concluded chat.selected.card.provider.cost concluded.1 concluded.2 after)
      (chat.chatViaProxyBuffered budget) log := by
  have husage : chat.call.opts.requireOpenaiUsage = true := hpaid
  have hstart : Stands chat.selected.card.provider.cost .idle ⟨budget, false⟩ log :=
    ⟨hfunds, hnone, hpost⟩
  have hcoursed : Safe (Course.watch ProxyObserverError) Course.EndedAll
      (forwardBuffered chat.config chat.call) .idle := coursed_forwardBuffered chat.call husage
  apply (hcoursed.interpret (fun op course state log hallowed hstands =>
    safe_handle (S := S) hpaid op hallowed hstands) hstart).bind
  rintro ⟨result, state⟩ after ⟨course, hended, hstands⟩
  exact safe_settleForward hpaid hended hstands

/-- A closed budget is dropped without a call. -/
theorem leave_closed {reply : ProxyReply S} (h : Closed budget) :
    ProxyChat.leave reply budget.drop = .ret reply := by
  rw [h]
  rfl

/-- What is in the log when the request returns. -/
structure Returned (cost : Cost F) (reply : ProxyReply S) (log : PaidLog) : Prop where
  accounted : log.failed = false → Accounted cost false log
  replayed : ∀ outcome settlement, reply = .response outcome settlement →
    outcome.execution = .replay → log.created = []

theorem accounted_empty {paused : Bool} : Accounted cost paused .empty :=
  accounted_unbilled rfl (.inl rfl) fun _ => rfl

/-- A paid request is only admitted at first. -/
theorem safe_new {ledger : Bool} {tenantId : Option String} {providerId : String} {estimate : I64}
    (hpaid : Pricing.isPaid (some estimate) = true) : Safe (paidMonitor S cost)
      (fun made after => after = .empty ∧ ∀ budget, made = .ok budget →
        budget.admission.id = none ∧ budget.paid = none)
      (ProxyBudget.new ledger tenantId providerId estimate) .empty := by
  unfold ProxyBudget.new
  simp only [hpaid, if_true]
  split
  · refine ⟨allowed_ledger _, fun admitted => ?_⟩
    cases admitted with
    | error error =>
      refine ⟨rfl, ?_⟩
      rintro _ ⟨⟩
    | ok _ =>
      refine ⟨rfl, ?_⟩
      rintro _ ⟨⟩
      exact ⟨rfl, rfl⟩
  · refine ⟨rfl, ?_⟩
    rintro _ ⟨⟩

theorem safe_chatViaProxy (hpaid : chat.isPaid = true) :
    Safe (paidMonitor S chat.selected.card.provider.cost)
      (Returned chat.selected.card.provider.cost) chat.chatViaProxy .empty := by
  apply (safe_new hpaid).bind
  rintro made _ ⟨rfl, hmade⟩
  cases made with
  | error error =>
    refine ⟨fun _ => accounted_empty, ?_⟩
    rintro _ _ ⟨⟩
  | ok budget =>
    obtain ⟨hadmission, hnone⟩ := hmade budget rfl
    have hclosed : Closed budget := closed_of_paid hadmission fun guard hguard => by
      cases hnone.symm.trans hguard
    dsimp only
    split
    · rw [leave_closed hclosed]
      refine ⟨fun _ => accounted_empty, ?_⟩
      rintro _ _ ⟨⟩
    · have hfunds : Funds .empty budget := by
        refine ⟨hadmission, ?_, ?_, rfl, rfl, rfl⟩
        · intro guard _ hguard
          cases hnone.symm.trans hguard
        · simp [PaidLog.empty, ProxyBudget.held, hnone]
      apply (safe_chatViaProxyBuffered hpaid hfunds hnone rfl).bind
      rintro ⟨reply, budget⟩ after hconcluded
      dsimp only
      rw [leave_closed hconcluded.closed]
      exact ⟨hconcluded.accounted, fun outcome settlement hreply hreplay =>
        hconcluded.replayed ⟨outcome, settlement, hreply, hreplay⟩⟩

/-- However a paid chat through the proxy ends, it is neither free nor phantom-charged, and what
it replays has reserved nothing. -/
theorem paid_proxy_accounted (chat : ProxyChat F) (hpaid : chat.isPaid = true)
    {reply : Option (ProxyReply S)} {paused : Bool}
    (h : PaidEnds chat.chatViaProxy reply paused log) (hreleases : log.failed = false) :
    Accounted chat.selected.card.provider.cost paused log ∧
      ∀ outcome settlement, reply = some (.response outcome settlement) →
        outcome.execution = .replay → log.created = [] ∧ log.charges = [] := by
  have hsafe := safe_chatViaProxy (S := S) hpaid
  cases h with
  | unpolled =>
    refine ⟨accounted_empty, ?_⟩
    rintro _ _ ⟨⟩
  | returned hleads =>
    have hreturned : Returned chat.selected.card.provider.cost _ _ := hsafe.leads hleads
    have haccounted := hreturned.accounted hreleases
    refine ⟨haccounted, ?_⟩
    rintro outcome settlement ⟨⟩ hreplay
    have hcreated := hreturned.replayed outcome settlement rfl hreplay
    exact ⟨hcreated, haccounted.once.charges_of_created hcreated⟩
  | dropped hleads hwaiting =>
    refine ⟨(hsafe.leads hleads).1 _ hwaiting, ?_⟩
    rintro _ _ ⟨⟩

end Ends

section Sample

/-- A resident service of another host, at one and two minor units for a token. -/
def remoteCard : ComponentCard Pricing.Rate where
  provider := ⟨"cloud", .remote, [.chat], .any, ⟨.finite 1000000, .finite 2000000⟩, .remote⟩
  form := .httpService
  endpoint := "https://cloud.test"
  privacyClass := .any
  allowedEgress := [.internet]
  loadPolicy := some ⟨.resident, .pinned true, .coexist⟩
  extensions := none

def paidChat : ProxyChat Pricing.Rate where
  config :=
    { window := 60
      maxEntries := 8
      maxBodyBytes := 1024
      maxCacheBytes := 1024
      maxFlightBytes := 4096
      retries := 1
      layout := ⟨200, 32, 8, 100, String.utf8ByteSize⟩ }
  selected := ⟨⟨"cloud", [], []⟩, .remote, remoteCard, ⟨.resident, .pinned true, .coexist⟩,
    .lit 2049⟩
  headers := []
  profile := ⟨⟨some .any, none, none, none, none⟩, none, none⟩
  fingerprint := some 0
  streamRequested := false
  recordId := "record"
  ledger := true
  budgetReservedEvent := true
  dispatchedEvent := true
  completedEvent := true

/-- A request without a key whose ledger and log never fail; `sent` is how its POST ends. -/
def answering (sent : Sent) (body : Body) : (op : ChatOp) → op.Answer Unit
  | .ledger (.checkAdmission _ _) => .ok ()
  | .ledger (.reserve _ _) => .ok "r1"
  | .ledger (.replaySettlement _ _ _) => .ok ()
  | .ledger (.release _ _) => .ok ()
  | .append _ _ => true
  | .stream _ => ()
  | .forward _ .acquirePermit => true
  | .forward _ .lookup => none
  | .forward _ .enter => .full
  | .forward _ .lockOutcome => none
  | .forward _ .begin => ()
  | .forward _ .claimSend => true
  | .forward _ .observe => .ok ()
  | .forward _ .send => sent
  | .forward _ (.sleepRetry _) => ()
  | .forward _ (.read _) => .ok body
  | .forward _ (.gate _) => .ok ()
  | .forward _ (.completed _) => .ok ()
  | .forward _ (.remember _) => ()
  | .forward _ (.resize _) => true
  | .forward _ .retainCompleted => ()
  | .forward _ .disarm => ()
  | .forward _ .reset => ()
  | .forward _ (.publish _) => ()

def emptyBody : Body := ⟨0, none⟩

/-- One token in and four out. -/
def usedBody : Body :=
  ⟨60, some (.object [("usage", .object [("prompt_tokens", .number (some 1)),
    ("completion_tokens", .number (some 4))])])⟩

def paidRun (sent : Sent) (body : Body) (n : Nat) :
    List (Exchange ChatOp (ChatOp.Answer Unit)) × ProxyProgram Unit (ProxyReply Unit) :=
  replay (answering sent body) n paidChat.chatViaProxy

def isResponse : ProxyProgram Unit (ProxyReply Unit) → Bool
  | .ret (.response _ _) => true
  | _ => false

theorem ends_of_isResponse (sent : Sent) (body : Body) (n : Nat)
    (h : isResponse (paidRun sent body n).2 = true) : ∃ reply : ProxyReply Unit,
      PaidEnds paidChat.chatViaProxy (some reply) false (.heard (paidRun sent body n).1) := by
  have hleads : Leads paidChat.chatViaProxy (paidRun sent body n).1 (paidRun sent body n).2 :=
    leads_replay (answering sent body) n paidChat.chatViaProxy
  generalize paidRun sent body n = run at h hleads
  obtain ⟨trace, p⟩ := run
  cases p with
  | ret reply => exact ⟨reply, .returned hleads⟩
  | ask op next => cases h

/-- The charged call: five units are not more than the reservation. -/
theorem paid_proxy_accounted_charged : ∃ log, log.charges = [(("personal", "r1"), .lit 9)] ∧
    Accounted remoteCard.provider.cost false log := by
  obtain ⟨reply, hends⟩ := ends_of_isResponse (.response ⟨200, none, none⟩) usedBody 20
    (by decide +kernel)
  exact ⟨_, by decide +kernel, (paid_proxy_accounted paidChat (by decide +kernel) hends
    (by decide +kernel)).1⟩

/-- What the log has when the run is dropped in a pause. -/
def pausedLog (run : List (Exchange ChatOp (ChatOp.Answer Unit)) ×
    ProxyProgram Unit (ProxyReply Unit)) : Option PaidLog :=
  match run.2 with
  | .ask op _ =>
    if op.pauses then op.waiting.map fun budget => ((PaidLog.heard run.1).asked op).drops budget
    else none
  | .ret _ => none

theorem ends_of_pausedLog {sent : Sent} {body : Body} {n : Nat} {log : PaidLog}
    (h : pausedLog (paidRun sent body n) = some log) :
    PaidEnds (paidChat.chatViaProxy : ProxyProgram Unit _) none true log := by
  have hleads : Leads paidChat.chatViaProxy (paidRun sent body n).1 (paidRun sent body n).2 :=
    leads_replay (answering sent body) n paidChat.chatViaProxy
  generalize paidRun sent body n = run at h hleads
  obtain ⟨trace, p⟩ := run
  cases p with
  | ret reply => cases h
  | ask op next =>
    simp only [pausedLog, Option.ite_none_right_eq_some, Option.map_eq_some_iff] at h
    obtain ⟨hpauses, budget, hwaiting, rfl⟩ := h
    exact hpauses ▸ .dropped hleads hwaiting

/-- Not to be billed because of a connection that failed, or of a whole 4xx answer that is not a
timeout. -/
def Post.Proven : Post → Prop
  | .unsent => True
  | .refused status complete => complete = true ∧ 400 ≤ status ∧ status < 500 ∧ status ≠ 408
  | .possible | .success _ => False

instance : (post : Post) → Decidable post.Proven
  | .unsent => .isTrue trivial
  | .refused _ _ => inferInstanceAs (Decidable (_ ∧ _))
  | .possible | .success _ => .isFalse id

/-- A drop in the pause after a failed connection keeps the reservation, and an answer 600, or the
status line of a 401, releases it. -/
theorem paid_proxy_exceptions :
    (∃ log, PaidEnds (paidChat.chatViaProxy : ProxyProgram Unit _) none true log ∧
      log.failed = false ∧ log.post.Proven ∧ log.released ≠ log.created) ∧
    ∀ status ∈ [401, 600], ∃ reply log,
      PaidEnds (paidChat.chatViaProxy : ProxyProgram Unit _) (some reply) false log ∧
        log.failed = false ∧ ¬log.post.Proven ∧ log.charges = [] ∧ log.released ≠ [] := by
  constructor
  · obtain ⟨log, hlog⟩ : ∃ log, pausedLog (paidRun (.connectFailed false) emptyBody 7) = some log :=
      Option.isSome_iff_exists.mp (by decide +kernel)
    have hfacts : (pausedLog (paidRun (.connectFailed false) emptyBody 7)).all fun log =>
        decide (log.failed = false ∧ log.post.Proven ∧ log.released ≠ log.created) := by
      decide +kernel
    rw [hlog] at hfacts
    exact ⟨log, ends_of_pausedLog hlog, of_decide_eq_true hfacts⟩
  · intro status hstatus
    obtain rfl | rfl : status = 401 ∨ status = 600 := by simpa using hstatus
    · obtain ⟨reply, hends⟩ := ends_of_isResponse (.response ⟨401, none, none⟩) emptyBody 20
        (by decide +kernel)
      exact ⟨reply, _, hends, by decide +kernel⟩
    · obtain ⟨reply, hends⟩ := ends_of_isResponse (.response ⟨600, none, none⟩) emptyBody 20
        (by decide +kernel)
      exact ⟨reply, _, hends, by decide +kernel⟩

end Sample

end Dispatch
