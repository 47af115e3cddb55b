import IDoris.Chat.Completions
import IDoris.Chat.Scanned
import IDoris.Dispatch.GateFallback

/-!
# What a completion may reach

An observer of the handler remembers who the caller is, which events were stored and what the
inspection heard. It knows, of everything the handler asks for, what must have happened before.
-/
namespace Chat

open Dispatch Interaction Json Policy Transaction VirtualKey
open Inspect (Entropy)
open Proxy (PrivacyClass)

section Watch

variable {F R : Type}

/-- What was heard so far. `unscanned`: a scan off the worker was not finished. -/
structure Watch (F : Type) where
  identity : Option AuthenticatedVirtualKey
  stored : List (String × Event F)
  refused : Bool
  killSwitch : Option Bool
  unscanned : Bool

def Watch.start : Watch F := ⟨none, [], false, none, false⟩

def identified : (op : Op F) → op.Answer R → Option AuthenticatedVirtualKey
  | .authenticate => Except.toOption
  | _ => fun _ => none

/-- The event that an answer stored. -/
def storedEvent : (op : Op F) → op.Answer R → Option (String × Event F)
  | .append tenantId _ event => fun stored => if stored then some (tenantId, event) else none
  | _ => fun _ => none

def refuses : (op : Op F) → op.Answer R → Bool
  | .append _ _ _ => fun stored => !stored
  | _ => fun _ => false

def switched : (op : Op F) → op.Answer R → Option Bool
  | .readKillSwitch => some
  | _ => fun _ => none

def abandons : (op : Op F) → op.Answer R → Bool
  | .scanOffWorker => fun joined => !joined
  | _ => fun _ => false

def Watch.next (w : Watch F) (op : Op F) (answer : op.Answer R) : Watch F where
  identity := (identified op answer).elim w.identity some
  stored := (storedEvent op answer).elim w.stored fun entry => w.stored ++ [entry]
  refused := refuses op answer || w.refused
  killSwitch := (switched op answer).elim w.killSwitch some
  unscanned := abandons op answer || w.unscanned

/-- The caller may make the request: it is local and needs no key, a key admits it, or nothing
in the deployment asks for a key. -/
def Authorized (state : AppState F) (request : Request) (profile : Profile)
    (identity : Option AuthenticatedVirtualKey) : Prop :=
  isDevNoKeyRequest state request = true ∧ profile.privacy = .localOnly ∨
    isDevNoKeyRequest state request = false ∧
      (∃ key, identity = some key ∧ Admits key profile.parsed) ∨
    state.authenticator = false ∧ state.devNoKeyEnabled = false

/-- The request was read, and its caller may make it. -/
structure Standing (job : Job F) (declared : Profile) (identity : Option AuthenticatedVirtualKey) :
    Prop where
  json : job.request.json = some (.object job.fields)
  parsed : parseProfile job.request.headers ((job.fields.lookup "model").bind Value.asStr)
    job.state.deployMode = .ok declared
  authorized : Authorized job.state job.request declared identity
  tenant : eventTenant job.state declared = .ok job.tenantId
  dev : job.devNoKeyRequest = isDevNoKeyRequest job.state job.request

/-- The events of one request, as far as it came. -/
inductive Lifecycle : List (Event F) → Prop where
  | fresh : Lifecycle []
  | received (requestId : String) : Lifecycle [.requestReceived requestId]
  | inspected (requestId : String) (inspection : Inspection) :
    Lifecycle [.requestReceived requestId, .inspected inspection]
  | profiled (requestId : String) {inspection : Inspection} {profile : Profile}
    (h : profile.privacy = inspection.effective) :
    Lifecycle [.requestReceived requestId, .inspected inspection, .profiled profile]
  | decided (requestId : String) {inspection : Inspection} {profile : Profile}
    (h : profile.privacy = inspection.effective) (route : RouteDecision)
    (selected : Option (Selected F)) (reason : Option String) :
    Lifecycle [.requestReceived requestId, .inspected inspection, .profiled profile,
      .decided route selected reason]

/-- What is stored of some events of a request. -/
def Job.log (job : Job F) (events : List (Event F)) : List (String × Event F) :=
  match job.tenantId with
  | some tenantId => events.map (Prod.mk tenantId)
  | none => []

def Job.watch (job : Job F) (identity : Option AuthenticatedVirtualKey) (events : List (Event F))
    (killSwitch : Option Bool) (unscanned : Bool) : Watch F :=
  ⟨identity, job.log events, false, killSwitch, unscanned⟩

variable [Quotes F] [Entropy]

/-- The inspection is that of the body under the kill switch that was read, or a failed one. -/
def Heard (job : Job F) (declared : Profile) (killSwitch : Option Bool) (unscanned : Bool)
    (inspection : Inspection) : Prop :=
  ∃ on, killSwitch = some on ∧
    (inspectBody (.object job.fields) declared.privacy on = some inspection ∧ unscanned = false ∨
      inspection = failedInspection declared.privacy)

/-- The profile after the inspection and the detector. -/
structure Settled (declared : Profile) (inspection : Inspection) (final : Profile) : Prop where
  privacy : final.privacy = inspection.effective
  role : final.parsed.role = declared.parsed.role
  tenant : final.parsed.tenantId = declared.parsed.tenantId
  fallback : final.parsed.task.fallback = declared.parsed.task.fallback

/-- What led to the choice of a backend. -/
structure Chosen (job : Job F) (declared : Profile) (inspection : Inspection) (final : Profile)
    (selected : Selected F) : Prop where
  settled : Settled declared inspection final
  listed : selected.card ∈
    (policyCards job.state.cards job.state.routingPolicy final.parsed).cards
  serves : Serves final.parsed job.prompt job.completion
    (inspection.tightened && !inspection.killed) selected.card

/-- All that a request with this profile has behind it when it reaches its backend. -/
def Reached (job : Job F) (declared : Profile) (events : List (Event F))
    (killSwitch : Option Bool) (unscanned : Bool) (selected : Selected F)
    (profile : ParsedProfile) : Prop :=
  ∃ requestId inspection final, Heard job declared killSwitch unscanned inspection ∧
    Chosen job declared inspection final selected ∧ profile = final.parsed ∧
    (job.devNoKeyRequest = true → outsideDevScope selected = false) ∧
    events = [.requestReceived requestId, .inspected inspection, .profiled final,
      .decided (job.state.routingPolicy.decide final.parsed.task) (some selected) none]

/-- When a question is due. -/
def Due (job : Job F) (declared : Profile) (events : List (Event F)) (killSwitch : Option Bool)
    (unscanned : Bool) : Op F → Prop
  | .authenticate => False
  | .append tenantId _ event => job.tenantId = some tenantId ∧ Lifecycle (events ++ [event])
  | .readKillSwitch => killSwitch = none
  | .detect _ => ∃ inspection, Heard job declared killSwitch unscanned inspection ∧
    (job.state.detector = .remote → inspection.effective = .any)
  | .relay selected _ => ∃ profile, Reached job declared events killSwitch unscanned selected
      profile ∧ selected.card.provider.id = subscriptionProviderId ∧
    profile.task.privacy.getD .localOnly = .any ∧
    ∃ peer, job.request.peer = some peer ∧ peer.isLoopback = true
  | .chatViaProxy selected profile _ =>
    Reached job declared events killSwitch unscanned selected profile
  | .dispatchLocal request =>
    Reached job declared events killSwitch unscanned request.selected request.profile
  | _ => True

/-- A caller is identified first; everything else waits for that. -/
def Allowed (state : AppState F) (request : Request) (w : Watch F) : Op F → Prop
  | .authenticate => w = .start
  | op => ∃ job declared identity events killSwitch unscanned, job.state = state ∧
    job.request = request ∧ Standing job declared identity ∧
    w = job.watch identity events killSwitch unscanned ∧ Lifecycle events ∧
    Due job declared events killSwitch unscanned op

def observer (R : Type) (state : AppState F) (request : Request) :
    Monitor (Op F) (Op.Answer R) (Watch F) := ⟨Allowed state request, Watch.next⟩

end Watch

section Steps

variable {F R : Type} [Quotes F] [Entropy] {job : Job F} {declared : Profile}
  {identity : Option AuthenticatedVirtualKey} {events : List (Event F)}
  {killSwitch : Option Bool} {unscanned : Bool}

/-- Nothing is asked that is not due, whatever is answered. -/
abbrev Watched (job : Job F) (p : Completion F R) (w : Watch F) : Prop :=
  Safe (observer R job.state job.request) (fun _ _ => True) p w

theorem watched_refuse (envelope : Envelope) (w : Watch F) :
    Watched job (refuse (F := F) (R := R) envelope) w := trivial

/-- A question that is due may be asked. -/
theorem allowed_of_due {op : Op F} (hstanding : Standing job declared identity)
    (hlife : Lifecycle events) (hdue : Due job declared events killSwitch unscanned op) :
    Allowed job.state job.request (job.watch identity events killSwitch unscanned) op := by
  cases op with
  | authenticate => exact hdue.elim
  | _ => exact ⟨job, declared, identity, events, killSwitch, unscanned, rfl, rfl, hstanding, rfl,
      hlife, hdue⟩

/-- An event is stored, or the request ends. -/
theorem watched_append {event : Event F} {next : Completion F R}
    (hstanding : Standing job declared identity) (hlife : Lifecycle events)
    (hlater : Lifecycle (events ++ [event]))
    (hnext : Watched job next (job.watch identity (events ++ [event]) killSwitch unscanned)) :
    Watched job (job.append event next) (job.watch identity events killSwitch unscanned) := by
  unfold Job.append
  cases htenant : job.tenantId with
  | none =>
    have hsame : job.watch identity events killSwitch unscanned =
        job.watch identity (events ++ [event]) killSwitch unscanned := by
      simp only [Job.watch, Job.log, htenant]
    rw [hsame]
    exact hnext
  | some tenantId =>
    constructor
    · have hdue : Due job declared events killSwitch unscanned
          (.append tenantId job.correlation event) := ⟨htenant, hlater⟩
      exact allowed_of_due hstanding hlife hdue
    · intro stored
      cases stored with
      | false => exact watched_refuse _ _
      | true =>
        have hsame : job.watch identity (events ++ [event]) killSwitch unscanned =
            (observer R job.state job.request).next
              (job.watch identity events killSwitch unscanned)
              (.append tenantId job.correlation event) true := by
          simp only [Job.watch, Job.log, htenant, List.map_append, List.map_cons, List.map_nil]
          rfl
        exact hsame ▸ hnext

variable {inspection : Inspection} {final : Profile} {selected : Selected F} {requestId : String}

theorem watched_relay (hstanding : Standing job declared identity) (hlife : Lifecycle events)
    (hreached : Reached job declared events killSwitch unscanned selected final.parsed)
    (hid : selected.card.provider.id = subscriptionProviderId) :
    Watched job (job.relay (R := R) final selected)
      (job.watch identity events killSwitch unscanned) := by
  unfold Job.relay
  cases hdispatch : dispatchSelected selected final.privacy job.request.peer
      job.state.subscriptions with
  | error error => cases error <;> trivial
  | ok modelId =>
    simp only [dispatchSelected, checkSubscriptionSource, bind_eq_ok, refuseIf_eq_ok,
      mapError_eq_ok, orRefuse_eq_ok, pure_eq_ok, Bool.not_eq_false] at hdispatch
    obtain ⟨_, -, _, hprivacy, _, ⟨peer, hpeer, _, hloopback, -⟩, -⟩ := hdispatch
    have hany : final.parsed.task.privacy.getD .localOnly = .any := by
      cases h : final.parsed.task.privacy.getD .localOnly with
      | any => rfl
      | localOnly => exact absurd h hprivacy
    constructor
    · have hdue : Due job declared events killSwitch unscanned
          (.relay selected ⟨none, modelId, job.messages⟩) :=
        ⟨_, hreached, hid, hany, peer, hpeer, hloopback⟩
      exact allowed_of_due hstanding hlife hdue
    · intro answer
      cases answer <;> trivial

theorem watched_forward (hstanding : Standing job declared identity) (hlife : Lifecycle events)
    (hreached : Reached job declared events killSwitch unscanned selected final.parsed) :
    Watched job (job.forward (R := R) final selected)
      (job.watch identity events killSwitch unscanned) := by
  unfold Job.forward
  cases boundHttpBody final.parsed job.object selected.card with
  | error rejection => trivial
  | ok body =>
    have hdue : Due job declared events killSwitch unscanned
        (.chatViaProxy selected final.parsed body) := hreached
    exact ⟨allowed_of_due hstanding hlife hdue, fun _ => trivial⟩

theorem watched_supervise (hstanding : Standing job declared identity) (hlife : Lifecycle events)
    (hreached : Reached job declared events killSwitch unscanned selected final.parsed) :
    Watched job (job.supervise (R := R) final selected)
      (job.watch identity events killSwitch unscanned) := by
  unfold Job.supervise
  cases validateStream job.object with
  | error message => trivial
  | ok _ =>
    cases validateParameters job.object with
    | error message => trivial
    | ok _ =>
      constructor
      · have hdue : Due job declared events killSwitch unscanned
            (.dispatchLocal
              { selected
                profile := final.parsed
                input := ⟨job.model, job.prompt, job.affinityKey⟩
                native := payload job.object
                messages := job.messages
                headroomBreachConfirmed := headroomBreachConfirmed job.request.headers }) :=
          hreached
        exact allowed_of_due hstanding hlife hdue
      · rintro (error | outcome)
        · cases error <;> trivial
        · trivial

theorem watched_execute (hstanding : Standing job declared identity)
    (hheard : Heard job declared killSwitch unscanned inspection)
    (hchosen : Chosen job declared inspection final selected) :
    Watched job (job.execute (R := R) final selected) (job.watch identity
      [.requestReceived requestId, .inspected inspection, .profiled final,
        .decided (job.state.routingPolicy.decide final.parsed.task) (some selected) none]
      killSwitch unscanned) := by
  unfold Job.execute
  split
  · trivial
  · rename_i hdev
    have hlife := Lifecycle.decided requestId hchosen.settled.privacy
      (job.state.routingPolicy.decide final.parsed.task) (some selected) none
    have hreached : Reached job declared _ killSwitch unscanned selected final.parsed :=
      ⟨requestId, inspection, final, hheard, hchosen, rfl, fun hkey => by simpa [hkey] using hdev,
        rfl⟩
    split
    · trivial
    · split
      · rename_i hid
        exact watched_relay hstanding hlife hreached hid
      · split
        · exact watched_forward hstanding hlife hreached
        · exact watched_supervise hstanding hlife hreached

/-- The events of a request whose profile is settled. -/
abbrev settledEvents (requestId : String) (inspection : Inspection) (final : Profile) :
    List (Event F) := [.requestReceived requestId, .inspected inspection, .profiled final]

theorem watched_reject {route : RouteDecision} {reason : Option String} {reply : Reply R}
    (hstanding : Standing job declared identity) (hsettled : Settled declared inspection final) :
    Watched job (job.append (.decided route none reason) (.ret reply)) (job.watch identity
      (settledEvents requestId inspection final) killSwitch unscanned) :=
  watched_append hstanding (.profiled requestId hsettled.privacy)
    (.decided requestId hsettled.privacy route none reason) trivial

theorem watched_select (hstanding : Standing job declared identity)
    (hheard : Heard job declared killSwitch unscanned inspection)
    (hsettled : Settled declared inspection final) (ready : List String)
    (blocked : Fin (policyCards job.state.cards job.state.routingPolicy final.parsed).cards.length →
      Bool) :
    Watched job (job.select (R := R) final inspection
        (policyCards job.state.cards job.state.routingPolicy final.parsed) ready blocked)
      (job.watch identity (settledEvents requestId inspection final) killSwitch unscanned) := by
  unfold Job.select
  split
  · trivial
  · rename_i selected hselected
    obtain ⟨hlisted, hserves⟩ := fallback_serves List.length_ofFn.symm hselected
    exact watched_append hstanding (.profiled requestId hsettled.privacy)
      (.decided requestId hsettled.privacy _ _ _)
      (watched_execute hstanding hheard ⟨hsettled, hlisted, hserves⟩)
  · exact watched_reject hstanding hsettled

theorem watched_gate (hstanding : Standing job declared identity)
    (hheard : Heard job declared killSwitch unscanned inspection)
    (hsettled : Settled declared inspection final) (ready : List String) :
    Watched job (job.gate (R := R) final inspection
        (policyCards job.state.cards job.state.routingPolicy final.parsed) ready)
      (job.watch identity (settledEvents requestId inspection final) killSwitch unscanned) := by
  have hdue : Due job declared (settledEvents requestId inspection final) killSwitch unscanned
      (.blockedCards (policyCards job.state.cards job.state.routingPolicy final.parsed).cards
        final.parsed.tenantId job.requestId) := trivial
  exact ⟨allowed_of_due hstanding (.profiled requestId hsettled.privacy) hdue,
    watched_select hstanding hheard hsettled ready⟩

theorem watched_route (hstanding : Standing job declared identity)
    (hheard : Heard job declared killSwitch unscanned inspection)
    (hsettled : Settled declared inspection final) :
    Watched job (job.route (R := R) final inspection)
      (job.watch identity (settledEvents requestId inspection final) killSwitch unscanned) := by
  unfold Job.route
  dsimp only
  split
  · split
    · exact watched_reject hstanding hsettled
    · exact watched_reject hstanding hsettled
  · unfold Job.prepare
    split
    · have hdue : ∀ targets, Due job declared (settledEvents requestId inspection final)
          killSwitch unscanned (.exactReadyProviders targets) := fun _ => trivial
      exact ⟨allowed_of_due hstanding (.profiled requestId hsettled.privacy) (hdue _),
        watched_gate hstanding hheard hsettled⟩
    · exact watched_gate hstanding hheard hsettled []

omit [Entropy] in
theorem settled_withHit (hsettled : Settled declared inspection final)
    (hit : Except String (Option String)) :
    Settled declared inspection (final.withHit hit) := by
  unfold Profile.withHit
  split
  · dsimp only
    split
    · exact ⟨hsettled.privacy, hsettled.role, hsettled.tenant, hsettled.fallback⟩
    · exact hsettled
  · exact hsettled

theorem watched_resolve (hstanding : Standing job declared identity)
    (hheard : Heard job declared killSwitch unscanned inspection)
    (hsettled : Settled declared inspection final) :
    Watched job (job.resolveProfile (R := R) inspection final)
      (job.watch identity [.requestReceived requestId, .inspected inspection] killSwitch
        unscanned) := by
  have hannounce : ∀ {profile : Profile}, Settled declared inspection profile →
      Watched job (job.announceProfile (R := R) inspection profile)
        (job.watch identity [.requestReceived requestId, .inspected inspection] killSwitch
          unscanned) := by
    intro profile hprofile
    exact watched_append hstanding (.inspected requestId inspection)
      (.profiled requestId hprofile.privacy) (watched_route hstanding hheard hprofile)
  unfold Job.resolveProfile
  split
  · rename_i hdetect
    have hdue : Due job declared [.requestReceived requestId, .inspected inspection] killSwitch
        unscanned (.detect job.messages) := by
      refine ⟨inspection, hheard, fun hremote => ?_⟩
      cases hprivacy : inspection.effective with
      | any => rfl
      | localOnly =>
        simp [Profile.isDetectable, hsettled.privacy, hprivacy, hremote] at hdetect
    exact ⟨allowed_of_due hstanding (.inspected requestId inspection) hdue,
      fun hit => hannounce (settled_withHit hsettled hit)⟩
  · exact hannounce hsettled

theorem watched_inspected (hstanding : Standing job declared identity)
    (hheard : Heard job declared killSwitch unscanned inspection) :
    Watched job (job.inspected (R := R) declared inspection)
      (job.watch identity [.requestReceived requestId] killSwitch unscanned) :=
  watched_append hstanding (.received requestId) (.inspected requestId inspection)
    (watched_resolve hstanding hheard ⟨rfl, rfl, rfl, rfl⟩)

theorem watched_inspect (hstanding : Standing job declared identity) :
    Watched job (job.inspect (R := R) declared)
      (job.watch identity [.requestReceived requestId] none false) := by
  have hfailed : ∀ (on : Bool) (unscanned : Bool), Heard job declared (some on) unscanned
      (failedInspection declared.privacy) := fun on _ => ⟨on, rfl, .inr rfl⟩
  have hread : Due job declared [.requestReceived requestId] none false .readKillSwitch := rfl
  have hscan : ∀ on, Due job declared [.requestReceived requestId] (some on) false
      .scanOffWorker := fun _ => trivial
  refine ⟨allowed_of_due hstanding (.received requestId) hread, fun (on : Bool) => ?_⟩
  by_cases hsmall : job.request.rawLen < offWorkerBytes
  · simp only [hsmall, if_true]
    cases hverdict : inspectBody (.object job.fields) declared.privacy on with
    | none => trivial
    | some inspection =>
      exact watched_inspected hstanding ⟨on, rfl, .inl ⟨hverdict, rfl⟩⟩
  · simp only [hsmall, if_false]
    refine ⟨allowed_of_due hstanding (.received requestId) (hscan on), fun (joined : Bool) => ?_⟩
    cases hverdict : inspectBody (.object job.fields) declared.privacy on with
    | none => exact watched_inspected hstanding (hfailed on (!joined || false))
    | some inspection =>
      cases joined with
      | false => exact watched_inspected hstanding (hfailed on true)
      | true => exact watched_inspected hstanding ⟨on, rfl, .inl ⟨hverdict, rfl⟩⟩

theorem watched_receive (hstanding : Standing job declared identity) :
    Watched job (job.receive (R := R) declared) (job.watch identity [] none false) :=
  watched_append hstanding .fresh (.received _) (watched_inspect hstanding)

end Steps

section Handler

variable {F R : Type} [Quotes F] [Entropy] {state : AppState F} {request : Request}
  {declared : Profile} {identity : Option AuthenticatedVirtualKey} {fields : Fields}
  {correlation : RequestCorrelation}

theorem watched_admitted (hjson : request.json = some (.object fields))
    (hparsed : parseProfile request.headers ((fields.lookup "model").bind Value.asStr)
      state.deployMode = .ok declared)
    (hauthorized : Authorized state request declared identity) :
    Safe (observer R state request) (fun _ _ => True)
      (admitted state request fields declared correlation) ⟨identity, [], false, none, false⟩ := by
  unfold admitted
  cases Pricing.completionReservationTokens (.object (eraseFields fields)) with
  | error name => trivial
  | ok completion =>
    cases htenant : eventTenant state declared with
    | error envelope => trivial
    | ok tenantId =>
      let job : Job F :=
        { state
          request
          fields
          correlation
          devNoKeyRequest := isDevNoKeyRequest state request
          completion
          tenantId }
      have hstanding : Standing job declared identity := ⟨hjson, hparsed, hauthorized, htenant, rfl⟩
      have hfresh : job.watch identity [] none false = ⟨identity, [], false, none, false⟩ := by
        cases tenantId <;> rfl
      exact hfresh ▸ watched_receive hstanding

theorem watched_authorize (hjson : request.json = some (.object fields))
    (hparsed : parseProfile request.headers ((fields.lookup "model").bind Value.asStr)
      state.deployMode = .ok declared) :
    Safe (observer R state request) (fun _ _ => True)
      (authorize state request fields declared correlation) .start := by
  unfold authorize
  split
  · rename_i hdev
    split
    · trivial
    · rename_i hprivacy
      exact watched_admitted hjson hparsed (.inl ⟨hdev, not_not.mp hprivacy⟩)
  · rename_i hdev
    split
    · refine ⟨rfl, ?_⟩
      rintro (error | key)
      · trivial
      · dsimp only
        cases hscope : enforceScope key declared.parsed with
        | error error => trivial
        | ok _ =>
          exact watched_admitted hjson hparsed
            (.inr (.inl ⟨by simpa using hdev, key, rfl, enforceScope_ok.mp hscope⟩))
    · rename_i hauthenticator
      split
      · trivial
      · rename_i hkeyless
        refine watched_admitted hjson hparsed (.inr (.inr ⟨by simpa using hauthenticator, ?_⟩))
        cases henabled : state.devNoKeyEnabled with
        | false => rfl
        | true =>
          cases hpresent : authorizationPresent request <;>
            simp [isDevNoKeyRequest, henabled, hpresent] at hdev hkeyless

/-- The handler asks for nothing before it is due. -/
theorem watched_completions : Safe (observer R state request) (fun _ _ => True)
    (chatCompletions state request) .start := by
  unfold chatCompletions
  cases hjson : request.json with
  | none => trivial
  | some value =>
    cases value with
    | object fields =>
      simp only [Value.asObject]
      cases hparsed : parseProfile request.headers ((fields.lookup "model").bind Value.asStr)
          state.deployMode with
      | error error => trivial
      | ok declared =>
        cases parseCorrelation request.headers with
        | error error => trivial
        | ok correlation => exact watched_authorize hjson hparsed
    | _ => trivial

end Handler

end Chat
