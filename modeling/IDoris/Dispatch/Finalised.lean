import IDoris.Dispatch.Local

/-!
# Every exit of a local dispatch

A log records what was taken and given back. At every await the drop of the guards would leave
nothing open, and every return drops them; so whatever the answers and wherever the future is
dropped, the reservation, the ticket and the token are finalised.
-/
namespace Dispatch

open Bounded Interaction Policy Program Proxy Supervisor

section Log

/-- The tenant and the id of a reservation. -/
abbrev Reservation := String × String

inductive Final where
  | settled (reservation : Reservation)
  | released (reservation : Reservation)
  deriving DecidableEq

/-- What a dispatch has taken, given back and been told. `given`: the backend has the token. -/
structure Log where
  created : List Reservation
  finals : List Final
  begun : List ProviderCapture
  reports : List (ProviderCapture × ProviderOutcome)
  chatOk : Bool
  given : Bool
  cancelled : Bool

namespace Log

def empty : Log := ⟨[], [], [], [], false, false, false⟩

/-- The calls that take nothing. -/
def final (log : Log) : Call → Log
  | .settle tenantId id _ => { log with finals := log.finals ++ [.settled (tenantId, id)] }
  | .release tenantId id => { log with finals := log.finals ++ [.released (tenantId, id)] }
  | .finishProvider capture outcome => { log with reports := log.reports ++ [(capture, outcome)] }
  | .cancel => { log with cancelled := true }
  | .reserve _ _ | .beginProvider _ _ => log

def call (log : Log) : (c : Call) → c.Answer → Log
  | .reserve scope _, .ok id => { log with created := log.created ++ [(scope.tenantId, id)] }
  | .beginProvider _ _, capture => { log with begun := log.begun ++ [capture] }
  | c, _ => log.final c

variable {G : Type}

def asked (log : Log) : Await G → Log
  | .chat _ => { log with given := true }
  | _ => log

def answered (log : Log) : (a : Await G) → a.Answer → Log
  | .chat _, .ok _ => { log with chatOk := true }
  | _, _ => log

def next (log : Log) : (op : Op G) → op.Answer → Log
  | .call c, answer => log.call c answer
  | .await _ a, answer => (log.asked a).answered a answer

def drops (log : Log) (frame : Frame) : Log := frame.drop.foldl Log.final log

end Log

/-- Every reservation is settled once after a chat that succeeded and released once otherwise,
every ticket is reported once, as a success only after such a chat, and a token that the backend
has is cancelled with a drop. -/
structure Finalised (dropped : Bool) (log : Log) : Prop where
  reservations : log.finals =
    log.created.map fun r => if log.chatOk then .settled r else .released r
  tickets : log.reports.map Prod.fst = log.begun
  successes : ∀ report ∈ log.reports, report.2 = .success → log.chatOk = true
  token : dropped = true → log.given = true → log.cancelled = true

def finalMonitor (G : Type) : Monitor (Op G) Op.Answer Log where
  allowed log
    | .call _ => True
    | .await frame a => Finalised true ((log.asked a).drops frame)
  next := Log.next

/-- The ways in which a dispatch ends, and what is in the log then: its future is dropped before
it is polled, or it returns, or its future is dropped at an await. -/
inductive Ends {G : Type} (p : LocalDispatch G) : Bool → Log → Prop where
  | unpolled : Ends p true Log.empty
  | returned {trace : List (Exchange (Op G) Op.Answer)}
      {result : Except ObservedDispatchError ChatOutcome} (h : Leads p trace (.ret result)) :
      Ends p false ((finalMonitor G).follow Log.empty trace)
  | dropped {trace : List (Exchange (Op G) Op.Answer)} {frame : Frame} {a : Await G}
      {next : a.Answer → LocalDispatch G} (h : Leads p trace (.ask (.await frame a) next)) :
      Ends p true ((((finalMonitor G).follow Log.empty trace).asked a).drops frame)

end Log

section Guards

variable {log : Log} {frame : Frame} {d : Bool}

def ReservationGuard.pending (guard : ReservationGuard) : List Reservation :=
  if guard.releaseOnDrop && guard.ledger then
    (guard.id.map fun id => (tenantOf guard.tenantId, id)).toList
  else []

/-- With what the drop of the guards adds, nothing is open. -/
structure Owes (log : Log) (frame : Frame) : Prop where
  reservations : log.finals ++ frame.reservation.pending.map .released =
    log.created.map fun r => if log.chatOk then .settled r else .released r
  tickets : log.reports.map Prod.fst ++ frame.provider.toList = log.begun
  successes : ∀ report ∈ log.reports, report.2 = .success → log.chatOk = true
  token : log.given = true → frame.cancelOnDrop = true ∨ log.cancelled = true

theorem drops_eq (log : Log) (frame : Frame) :
    log.drops frame = { log with
      finals := log.finals ++ frame.reservation.pending.map .released
      reports := log.reports ++ frame.provider.toList.map fun capture => (capture, .ignored)
      cancelled := log.cancelled || frame.cancelOnDrop } := by
  obtain ⟨⟨ledger, tenantId, id, releaseOnDrop⟩, provider, cancelOnDrop⟩ := frame
  cases ledger <;> cases id <;> cases releaseOnDrop <;> cases provider <;> cases cancelOnDrop <;>
    simp [Log.drops, Frame.drop, ReservationGuard.drop, ReservationGuard.pending, Log.final]

theorem Owes.drops (h : Owes log frame) : Finalised d (log.drops frame) := by
  rw [drops_eq]
  constructor
  · exact h.reservations
  · simpa [Function.comp_def] using h.tickets
  · intro report hreport
    obtain hold | hdropped := List.mem_append.mp hreport
    · exact h.successes report hold
    · obtain ⟨capture, -, rfl⟩ := List.mem_map.mp hdropped
      exact nofun
  · intro _ hgiven
    obtain hguard | hcancelled := h.token hgiven
    · simp [hguard]
    · simp [hcancelled]

/-- Before the charge: nothing is finalised, and the guard has what was created. -/
structure Holds (log : Log) (frame : Frame) (tenantId : Option String) : Prop where
  finals : log.finals = []
  created : log.created = frame.reservation.pending
  tenant : frame.reservation.tenantId = tenantId
  armed : frame.reservation.releaseOnDrop = true
  tickets : log.reports.map Prod.fst ++ frame.provider.toList = log.begun
  successes : ∀ report ∈ log.reports, report.2 = .success → log.chatOk = true
  token : log.given = true → frame.cancelOnDrop = true ∨ log.cancelled = true

theorem Holds.owes {tenantId : Option String} (h : Holds log frame tenantId)
    (hchat : log.chatOk = false) : Owes log frame where
  reservations := by simp [h.finals, h.created, hchat]
  tickets := h.tickets
  successes := h.successes
  token := h.token

end Guards

section Rules

variable {F G : Type} {log : Log} {frame : Frame} {job : Job F G}
  {result : Except ObservedDispatchError ChatOutcome}

/-- The dispatch ends with everything finalised. -/
abbrev Ok (p : LocalDispatch G) (log : Log) : Prop :=
  Safe (finalMonitor G) (fun _ log => Finalised false log) p log

theorem ok_performAll {calls : List Call} (hcalls : ∀ c ∈ calls, ∀ log answer,
      Log.call log c answer = log.final c) (h : Finalised false (calls.foldl Log.final log)) :
    Ok (performAll (G := G) result calls) log := by
  induction calls generalizing log with
  | nil => exact h
  | cons c rest ih =>
    refine ⟨trivial, fun answer => ?_⟩
    have hcall : (finalMonitor G).next log (.call c) answer = log.final c :=
      hcalls c List.mem_cons_self log answer
    rw [hcall]
    exact ih (fun c hc => hcalls c (List.mem_cons_of_mem _ hc)) h

/-- A drop takes nothing. -/
theorem drop_final {c : Call} (h : c ∈ frame.drop) (log : Log) (answer : c.Answer) :
    log.call c answer = log.final c := by
  simp only [Frame.drop, ReservationGuard.drop, List.mem_append, Option.mem_toList,
    Option.map_eq_some_iff] at h
  obtain (hcancel | ⟨capture, -, rfl⟩) | hrelease := h
  · split at hcancel
    · rw [List.mem_singleton] at hcancel
      subst hcancel
      rfl
    · cases hcancel
  · rfl
  · split at hrelease
    · obtain ⟨id, -, rfl⟩ := Option.map_eq_some_iff.mp (Option.mem_toList.mp hrelease)
      rfl
    · cases hrelease

theorem Owes.leave (h : Owes log frame) : Ok (leave (G := G) frame result) log :=
  ok_performAll (fun _ hc log answer => drop_final hc log answer) h.drops

theorem Owes.fails (h : Owes log frame) (error : BackendError) : Ok (job.fails frame error) log :=
  h.leave

/-- Waiting for anything but the chat changes nothing in the log. -/
theorem Owes.await {a : Await G} {next : a.Answer → LocalDispatch G} (h : Owes log frame)
    (hasked : log.asked a = log) (hanswered : ∀ answer, log.answered a answer = log)
    (hnext : ∀ answer, Ok (next answer) log) : Ok (.ask (.await frame a) next) log := by
  refine ⟨?_, fun answer => ?_⟩
  · have hdrops : Finalised true (log.drops frame) := h.drops
    simpa only [finalMonitor, hasked] using hdrops
  · have hsame : (finalMonitor G).next log (.await frame a) answer = log := by
      simp only [finalMonitor, Log.next, hasked, hanswered]
    rw [hsame]
    exact hnext answer

theorem ok_reply (h : Owes log frame) (chatResult : Except BackendError ChatResponse)
    (actualCostMinor : Option I64) : Ok (job.reply frame chatResult actualCostMinor) log := by
  cases chatResult with
  | error err => exact h.fails err
  | ok response => exact h.leave

theorem ok_announceSettled (h : Owes log frame) (chatResult : Except BackendError ChatResponse)
    (actualCostMinor : Option I64) :
    Ok (job.announceSettled frame chatResult actualCostMinor) log := by
  unfold Job.announceSettled
  cases actualCostMinor with
  | none => exact ok_reply h chatResult none
  | some settledMinor =>
    dsimp only
    split
    · exact h.await rfl (fun _ => rfl) fun _ => ok_reply h chatResult _
    · exact ok_reply h chatResult _

theorem ok_announceCompleted (h : Owes log frame) (chatResult : Except BackendError ChatResponse)
    (actualCostMinor : Option I64) :
    Ok (job.announceCompleted frame chatResult actualCostMinor) log := by
  have hthen : ∀ ok : Bool, Ok (if ok then job.announceSettled frame chatResult actualCostMinor
      else Job.unobserved frame) log := by
    intro ok
    cases ok with
    | true => exact ok_announceSettled h chatResult actualCostMinor
    | false => exact h.leave
  unfold Job.announceCompleted
  split
  · cases chatResult with
    | ok response => exact h.await rfl (fun _ => rfl) hthen
    | error err => exact h.await rfl (fun _ => rfl) hthen
  · exact ok_announceSettled h chatResult actualCostMinor

variable {tenantId : Option String}

/-- A failed call never counts as a success of the provider. -/
theorem nativeProviderOutcome_ne_success (error : BackendError) (requested : String)
    (loading : Bool) : nativeProviderOutcome error requested loading ≠ .success := by
  unfold nativeProviderOutcome
  cases error <;> dsimp only <;> (try split) <;> (try split) <;> nofun

/-- The ticket is reported, or there was none. -/
theorem ok_finishProvider {outcome : ProviderOutcome} {next : Frame → LocalDispatch G}
    (h : Holds log frame tenantId) (hsuccess : outcome = .success → log.chatOk = true)
    (hnext : ∀ log' frame', Holds log' frame' tenantId → log'.chatOk = log.chatOk →
      Ok (next frame') log') : Ok (Job.finishProvider frame outcome next) log := by
  unfold Job.finishProvider
  cases hprovider : frame.provider with
  | none => exact hnext log frame h rfl
  | some capture =>
    refine ⟨trivial, fun _ => hnext _ _ ?_ rfl⟩
    have htickets := h.tickets
    rw [hprovider] at htickets
    constructor
    · exact h.finals
    · exact h.created
    · exact h.tenant
    · exact h.armed
    · simpa [finalMonitor, Log.next, Log.call, Log.final] using htickets
    · intro report hreport
      obtain hold | hnew := List.mem_append.mp hreport
      · exact h.successes report hold
      · rw [List.mem_singleton.mp hnew]
        exact hsuccess
    · exact h.token

variable [Charges F]

/-- The charge finalises what was created before anything else can fail. -/
theorem ok_charge {chatResult : Except BackendError ChatResponse}
    (h : Holds log frame job.profile.tenantId) (hchat : log.chatOk = chatResult.toBool) :
    Ok (job.charge frame chatResult) log := by
  unfold Job.charge
  cases chatResult with
  | error err => exact ok_announceCompleted (h.owes hchat) _ _
  | ok response =>
    have hcreated := h.created
    simp only [ReservationGuard.pending, h.armed, Bool.true_and] at hcreated
    have hopen : ∀ log', log'.created = log.created → log'.reports = log.reports →
        log'.begun = log.begun → log'.chatOk = log.chatOk → log'.given = log.given →
        log'.cancelled = log.cancelled → log'.finals = log.created.map .settled →
        Owes log' { frame with reservation := { frame.reservation with id := none } } := by
      intro log' hcreated hreports hbegun hok hgiven hcancelled hfinals
      constructor
      · simp [ReservationGuard.pending, hfinals, hcreated, hok, hchat, Except.toBool]
      · rw [hreports, hbegun]
        exact h.tickets
      · rw [hreports, hok]
        exact h.successes
      · rw [hgiven, hcancelled]
        exact h.token
    dsimp only
    split
    · rename_i id hledger hid
      refine ⟨trivial, fun settled => ?_⟩
      apply ok_announceCompleted
      refine hopen _ rfl rfl rfl rfl rfl rfl ?_
      simp [finalMonitor, Log.next, Log.call, Log.final, h.finals, hcreated, hledger, hid, h.tenant]
    · rename_i hnone
      apply ok_announceCompleted
      refine hopen _ rfl rfl rfl rfl rfl rfl ?_
      rw [h.finals, hcreated]
      cases hledger : frame.reservation.ledger with
      | false => rfl
      | true =>
        cases hid : frame.reservation.id with
        | none => rfl
        | some id => exact absurd hid (hnone id hledger)

/-- Before the chat the guards own everything; the backend gets a token that a guard cancels. -/
structure Ready (log : Log) (frame : Frame) (tenantId : Option String) : Prop extends
    Holds log frame tenantId where
  waiting : log.chatOk = false
  guarded : frame.cancelOnDrop = true

theorem ok_chat (h : Ready log frame job.profile.tenantId) : Ok (job.chat frame) log := by
  have hasked : Holds { log with given := true } frame job.profile.tenantId :=
    { h.toHolds with token := fun _ => .inl h.guarded }
  refine ⟨(hasked.owes h.waiting).drops, fun chatResult => ?_⟩
  cases chatResult with
  | ok response =>
    have hholds : Holds { log with given := true, chatOk := true } frame job.profile.tenantId :=
      { hasked with successes := fun _ _ _ => rfl }
    refine ok_finishProvider hholds (fun _ => rfl) fun log' frame' hafter hok => ?_
    exact ok_charge hafter hok
  | error err =>
    refine ok_finishProvider hasked (fun hsuccess => ?_) fun log' frame' hafter hok => ?_
    · exact absurd hsuccess (nativeProviderOutcome_ne_success err _ _)
    · exact ok_charge hafter (hok.trans h.waiting)

variable [Gigabytes G]

theorem Ready.owes (h : Ready log frame tenantId) : Owes log frame := h.toHolds.owes h.waiting

theorem ok_load (h : Ready log frame job.profile.tenantId) (memoryGb : G) :
    Ok (job.load frame memoryGb) log := by
  unfold Job.load
  split
  · exact h.owes.fails _
  · refine h.owes.await rfl (fun _ => rfl) fun loaded => ?_
    cases loaded with
    | error err =>
      refine ok_finishProvider h.toHolds (fun hsuccess => ?_) fun log' frame' hafter hok => ?_
      · exact absurd hsuccess (nativeProviderOutcome_ne_success err _ _)
      · exact (hafter.owes (hok.trans h.waiting)).fails err
    | ok _ =>
      dsimp only
      split
      · refine h.owes.await rfl (fun _ => rfl) fun ok => ?_
        cases ok with
        | true => exact ok_chat h
        | false => exact h.owes.leave
      · exact ok_chat h

theorem ok_admission (h : Holds log frame job.profile.tenantId) (hchat : log.chatOk = false)
    (supervisor : BoundSupervisor G) : Ok (job.admission frame supervisor) log := by
  have hready : Ready log { frame with cancelOnDrop := true } job.profile.tenantId :=
    { h with token := fun _ => .inl rfl, waiting := hchat, guarded := rfl }
  unfold Job.admission
  dsimp only
  split
  · exact ok_load hready _
  · refine hready.owes.await rfl (fun _ => rfl) fun listed => ?_
    cases listed with
    | error err => exact hready.owes.fails err
    | ok catalog =>
      dsimp only
      split
      · exact ok_load hready _
      · exact hready.owes.fails _

theorem ok_supervised (h : Holds log frame job.profile.tenantId) (hchat : log.chatOk = false) :
    Ok (job.supervised frame) log := by
  unfold Job.supervised
  split
  · exact ok_admission h hchat _
  · exact (h.owes hchat).fails _

theorem ok_reserved {guard : ReservationGuard}
    (h : Holds log ⟨guard, none, false⟩ job.profile.tenantId) (hchat : log.chatOk = false) :
    Ok (job.reserved guard) log := by
  have hannounce : ∀ log' frame, Holds log' frame job.profile.tenantId → log'.chatOk = false →
      Ok (if job.isPaid && job.execution.budgetEvent then
        .ask (.await frame .appendBudgetReserved) fun ok =>
          if ok then job.supervised frame else Job.unobserved frame
        else job.supervised frame) log' := by
    intro log' frame hheld hwaiting
    split
    · refine (hheld.owes hwaiting).await rfl (fun _ => rfl) fun ok => ?_
      cases ok with
      | true => exact ok_supervised hheld hwaiting
      | false => exact (hheld.owes hwaiting).leave
    · exact ok_supervised hheld hwaiting
  unfold Job.reserved
  dsimp only
  split
  · refine ⟨trivial, fun capture => hannounce _ _ ?_ hchat⟩
    have htickets := h.tickets
    simp only [Option.toList_none, List.append_nil] at htickets
    exact { h with tickets := by simp [finalMonitor, Log.next, Log.call, htickets] }
  · exact hannounce _ _ h hchat

theorem ok_reserve (job : Job F G) : Ok job.reserve Log.empty := by
  have hstart : Finalised false Log.empty := ⟨rfl, rfl, nofun, nofun⟩
  unfold Job.reserve
  dsimp only
  split
  · refine ⟨trivial, fun answer => ?_⟩
    cases answer with
    | error err => exact hstart
    | ok id => exact ok_reserved ⟨rfl, rfl, rfl, rfl, rfl, nofun, nofun⟩ rfl
  · split
    · exact hstart
    · exact ok_reserved ⟨rfl, rfl, rfl, rfl, rfl, nofun, nofun⟩ rfl

/-- However a local dispatch ends, it has finalised what it took. -/
theorem dispatch_finalises (selection : LocalSelection F) (execution : LocalExecutionContext G)
    (profile : ParsedProfile) (input : DispatchInput) (messages : List ChatMessage)
    {p : LocalDispatch G}
    (hp : dispatchLocalInner selection execution profile input messages = some p) {dropped : Bool}
    {log : Log} (h : Ends p dropped log) : Finalised dropped log := by
  have hok : Ok p Log.empty := by
    unfold dispatchLocalInner at hp
    split at hp
    · cases hp
      exact ⟨rfl, rfl, nofun, nofun⟩
    · cases hp
    · split at hp
      · cases hp
        exact ⟨rfl, rfl, nofun, nofun⟩
      · split at hp
        · cases hp
          exact ⟨rfl, rfl, nofun, nofun⟩
        · cases hp
          exact ok_reserve _
  cases h with
  | unpolled => exact ⟨rfl, rfl, nofun, nofun⟩
  | returned hleads => exact hok.leads hleads
  | dropped hleads => exact (hok.leads hleads).1

end Rules

section Sample

/-- A paid local runtime, bound with its footprint. -/
def paidCard : ComponentCard Pricing.Rate where
  provider := ⟨"p", .local, [.chat], .any, ⟨.finite 1000000, .finite 2000000⟩, .loopback⟩
  form := .bundledBinary
  endpoint := "http://127.0.0.1:8740"
  privacyClass := .any
  allowedEgress := [.loopback]
  loadPolicy := none
  extensions := none

def paidJob : Job Pricing.Rate Int where
  selected := ⟨⟨"p", [], []⟩, .loopback, paidCard, defaultLoadPolicy, .lit 2049⟩
  execution :=
    { providerAdmission := false
      native := none
      supervisor := some ⟨"p", "http://127.0.0.1:8740", .loopback, some ("p", 1)⟩
      budgetLedger := true
      budgetEvent := false
      dispatchedEvent := false
      completedEvent := false
      budgetSettledEvent := false
      headroomBreachConfirmed := false }
  profile := ⟨⟨none, none, none, none, none⟩, none, none⟩
  input := ⟨none, "hi", none⟩
  messages := [⟨"user", "hi"⟩]
  backendModelId := "p"

theorem paidJob_dispatch : dispatchLocalInner (.preselected paidJob.selected) paidJob.execution
    paidJob.profile paidJob.input paidJob.messages = some paidJob.reserve := rfl

/-- The future is dropped while the chat runs. -/
theorem paidJob_ends : Ends paidJob.reserve true
    ⟨[("personal", "r1")], [.released ("personal", "r1")], [], [], false, true, true⟩ := by
  have hchat : Leads paidJob.reserve
      [⟨.call (.reserve (budgetScope none "p") (.lit 2049)), .ok "r1"⟩,
        ⟨.await ⟨⟨true, none, some "r1", true⟩, none, true⟩
          (.loadWithHeadroom "p" 1 defaultLoadPolicy false), .ok ()⟩]
      (paidJob.chat ⟨⟨true, none, some "r1", true⟩, none, true⟩) := .ask (.ask (.refl _))
  exact .dropped hchat

theorem dispatch_finalises_mid_chat : Finalised true
    ⟨[("personal", "r1")], [.released ("personal", "r1")], [], [], false, true, true⟩ :=
  dispatch_finalises (.preselected paidJob.selected) paidJob.execution paidJob.profile paidJob.input
    paidJob.messages paidJob_dispatch paidJob_ends

end Sample

end Dispatch
