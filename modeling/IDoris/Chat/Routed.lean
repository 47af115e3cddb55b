import IDoris.Chat.Completions

/-!
# The handler and the routing of a body

The routing of a body is a function of the body and of what the rest of the router answers. The
handler asks for these answers one by one, and ends at the backend that the routing names.
-/
namespace Chat

open Dispatch Interaction Json Policy Transaction
open Inspect (Entropy)

section Routes

variable {F : Type}

/-- The backend of a question, as the routing names it. -/
def Op.route : Op F → Option (ChatRoute F)
  | .relay selected chat => some (.subscription selected chat.messages)
  | .chatViaProxy selected _ body => some (.proxied selected body)
  | .dispatchLocal request => some (.supervised request.selected request.messages)
  | _ => none

/-- What the handler has heard when a backend is selected. -/
def Job.session (job : Job F) (profile : Profile) (inspection : Inspection)
    (cards : List (ComponentCard F)) (ready : List String) (blocked : List Bool) :
    ChatSession F where
  resolveProfile _ := profile.parsed
  policyCards _ := cards
  affinityKey := job.affinityKey
  ready _ := ready
  blocked _ _ := blocked
  contentTightened := inspection.tightened && !inspection.killed
  devNoKeyRequest := job.devNoKeyRequest

/-- The body and its completion tokens, as the job has read them. -/
structure Job.Reads (job : Job F) : Prop where
  json : job.request.json = some (.object job.fields)
  completion : Pricing.completionReservationTokens (.object job.object) = .ok job.completion

variable [Quotes F]

/-- For some session, the routing of the body leads there. -/
def LeadsTo (request : Request) (route : ChatRoute F) : Prop :=
  ∃ fields session, request.json = some (.object fields) ∧
    Dispatch.chatCompletions session (eraseFields fields) = route

def router (R : Type) (request : Request) : Monitor (Op F) (Op.Answer R) Unit where
  allowed _ op := ∀ route, op.route = some route → LeadsTo request route
  next _ _ _ := ()

end Routes

section Steps

variable {F R : Type} [Quotes F] {request : Request} {job : Job F} {profile : Profile}
  {inspection : Inspection} {selected : Selected F} {session : ChatSession F}

/-- Every backend that is asked for is one that the routing leads to. -/
abbrev Routed (request : Request) (p : Completion F R) : Prop :=
  Safe (router R request) (fun _ _ => True) p ()

theorem routed_ask {op : Op F} {next : op.Answer R → Completion F R} (h : op.route = none)
    (hnext : ∀ answer, Routed request (next answer)) : Routed request (.ask op next) := by
  constructor
  · intro route hroute
    rw [h] at hroute
    cases hroute
  · exact hnext

theorem routed_append {event : Event F} {next : Completion F R} (hnext : Routed request next) :
    Routed request (job.append event next) := by
  unfold Job.append
  split
  · refine routed_ask rfl fun stored => ?_
    cases stored with
    | false => trivial
    | true => exact hnext
  · exact hnext

theorem routed_relay (h : LeadsTo job.request (.subscription selected job.messages)) :
    Routed job.request (job.relay (R := R) profile selected) := by
  unfold Job.relay
  split
  · trivial
  · trivial
  · constructor
    · rintro _ ⟨⟩
      exact h
    · intro answer
      cases answer <;> trivial

theorem routed_forward
    (h : ∀ body, boundHttpBody profile.parsed job.object selected.card = .ok body →
      LeadsTo job.request (.proxied selected body)) :
    Routed job.request (job.forward (R := R) profile selected) := by
  unfold Job.forward
  cases hbody : boundHttpBody profile.parsed job.object selected.card with
  | error rejection => trivial
  | ok body =>
    constructor
    · rintro _ ⟨⟩
      exact h body hbody
    · intro answer
      trivial

theorem routed_supervise (h : LeadsTo job.request (.supervised selected job.messages)) :
    Routed job.request (job.supervise (R := R) profile selected) := by
  unfold Job.supervise
  split
  · trivial
  · split
    · trivial
    · constructor
      · rintro _ ⟨⟩
        exact h
      · rintro (error | outcome)
        · cases error <;> trivial
        · trivial

/-- The handler takes the branch that the routing takes. -/
theorem routed_execute (hdev : session.devNoKeyRequest = job.devNoKeyRequest)
    (h : LeadsTo job.request
      (routeSelected session job.object profile.parsed job.messages selected)) :
    Routed job.request (job.execute (R := R) profile selected) := by
  unfold Job.execute
  unfold routeSelected at h
  rw [hdev] at h
  split_ifs at h ⊢
  · trivial
  · trivial
  · exact routed_relay h
  · refine routed_forward fun body hbody => ?_
    rw [hbody] at h
    exact h
  · exact routed_supervise h

/-- With what the handler has heard, the routing selects as the handler does. -/
theorem Job.Reads.leadsTo (hreads : job.Reads) {cards : List (ComponentCard F)}
    {ready : List String} {blocked : List Bool} (hcards : cards.isEmpty = false)
    (h : selectWithGateFallbackAndCompletion cards profile.parsed job.prompt job.affinityKey ready
      blocked job.completion (inspection.tightened && !inspection.killed) = .ok (some selected)) :
    LeadsTo job.request (routeSelected (job.session profile inspection cards ready blocked)
      job.object profile.parsed job.messages selected) := by
  refine ⟨job.fields, job.session profile inspection cards ready blocked, hreads.json, ?_⟩
  have hcompletion : Pricing.completionReservationTokens (.object (eraseFields job.fields)) =
      .ok job.completion := hreads.completion
  have hselected : selectWithGateFallbackAndCompletion cards profile.parsed
      (promptOf (extractMessages (eraseFields job.fields))) job.affinityKey ready blocked
      job.completion (inspection.tightened && !inspection.killed) = .ok (some selected) := h
  unfold Dispatch.chatCompletions
  simp only [hcompletion, Job.session, hcards, hselected]
  rfl

theorem routed_select (hreads : job.Reads) {policy : PolicyCards F}
    (hcards : policy.cards.isEmpty = false) (ready : List String)
    (blocked : Fin policy.cards.length → Bool) :
    Routed job.request (job.select (R := R) profile inspection policy ready blocked) := by
  unfold Job.select
  split
  · trivial
  · rename_i selected hselected
    exact routed_append (routed_execute rfl (hreads.leadsTo hcards hselected))
  · exact routed_append trivial

theorem routed_route (hreads : job.Reads) :
    Routed job.request (job.route (R := R) profile inspection) := by
  dsimp only [Job.route]
  split_ifs with hempty
  · exact routed_append trivial
  · exact routed_append trivial
  · have hgate : ∀ ready, Routed job.request (job.gate (R := R) profile inspection
        (policyCards job.state.cards job.state.routingPolicy profile.parsed) ready) :=
      fun ready => routed_ask rfl fun blocked =>
        routed_select hreads (Bool.not_eq_true _ ▸ hempty) ready blocked
    unfold Job.prepare
    split
    · exact routed_ask rfl hgate
    · exact hgate []

theorem routed_inspected (hreads : job.Reads) :
    Routed job.request (job.inspected (R := R) profile inspection) := by
  refine routed_append ?_
  unfold Job.resolveProfile
  split
  · exact routed_ask rfl fun hit => routed_append (routed_route hreads)
  · exact routed_append (routed_route hreads)

variable [Entropy]

theorem routed_receive (hreads : job.Reads) :
    Routed job.request (job.receive (R := R) profile) := by
  refine routed_append (routed_ask rfl fun killSwitch => ?_)
  split
  · split
    · exact routed_inspected hreads
    · trivial
  · refine routed_ask rfl fun joined => ?_
    split
    · exact routed_inspected hreads
    · exact routed_inspected hreads

variable {state : AppState F} {fields : Fields} {correlation : RequestCorrelation}

theorem routed_admitted (hjson : request.json = some (.object fields)) :
    Routed request (admitted (R := R) state request fields profile correlation) := by
  unfold admitted
  split
  · trivial
  · rename_i completion hcompletion
    split
    · trivial
    · rename_i tenantId _
      let job : Job F :=
        { state
          request
          fields
          correlation
          devNoKeyRequest := isDevNoKeyRequest state request
          completion
          tenantId }
      have hreads : job.Reads := ⟨hjson, hcompletion⟩
      exact routed_receive hreads

theorem routed_authorize (hjson : request.json = some (.object fields)) :
    Routed request (authorize (R := R) state request fields profile correlation) := by
  have hadmitted : Routed request (admitted (R := R) state request fields profile correlation) :=
    routed_admitted hjson
  unfold authorize
  split
  · split
    · trivial
    · exact hadmitted
  · split
    · refine routed_ask rfl fun answer => ?_
      cases answer with
      | error error => trivial
      | ok identity =>
        dsimp only
        split
        · trivial
        · exact hadmitted
    · split
      · trivial
      · exact hadmitted

theorem routed_completions : Routed request (chatCompletions (R := R) state request) := by
  unfold chatCompletions
  cases hjson : request.json with
  | none => trivial
  | some value =>
    cases value with
    | object fields =>
      dsimp only [Value.asObject]
      split
      · trivial
      · split
        · trivial
        · exact routed_authorize hjson
    | _ => trivial

end Steps

section Covered

variable {F R : Type} [Quotes F] [Entropy] {state : AppState F} {request : Request}
  {trace : List (Exchange (Op F) (Op.Answer R))}

/-- Whatever the surroundings answer, the backend that is asked for is the one to which the
routing of the body leads. -/
theorem leadsTo_of_leads {op : Op F} {next : op.Answer R → Completion F R} {route : ChatRoute F}
    (h : Leads (chatCompletions state request) trace (.ask op next))
    (hroute : op.route = some route) : LeadsTo request route :=
  (routed_completions.leads h).1 route hroute

/-- The messages of a request that is forwarded are covered by the prompt that was quoted. -/
theorem forwarded_covered {selected : Selected F} {profile : ParsedProfile}
    {body : Dispatch.Fields} {next : R → Completion F R}
    (h : Leads (chatCompletions state request) trace
      (.ask (.chatViaProxy selected profile body) next)) :
    ∃ fields completion, request.json = some (.object fields) ∧
      Pricing.completionReservationTokens (.object (eraseFields fields)) = .ok completion ∧
      selected.estimatedCostMinor = (Quotes.estimateCostMinorWithCompletion
        selected.card.provider.cost (promptOf (extractMessages (eraseFields fields)))
        completion).getD (.lit 0) ∧
      ∀ item ∈ rawMessages body, ∀ message, asMessage item = some message →
        Covers (promptOf (extractMessages (eraseFields fields))) message.content := by
  obtain ⟨fields, session, hjson, hproxied⟩ := leadsTo_of_leads h rfl
  obtain ⟨completion, hcompletion, -, hquote, hmessages⟩ := chatCompletions_proxied hproxied
  refine ⟨fields, completion, hjson, hcompletion, hquote, fun item hitem message hmessage => ?_⟩
  rw [hmessages] at hitem
  exact promptOf_covers (List.mem_filterMap.mpr ⟨item, hitem, hmessage⟩)

end Covered

end Chat
