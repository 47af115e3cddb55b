import IDoris.Dispatch.GateFallback
import IDoris.Dispatch.Local

/-!
# What a quote covers

The prompt that is quoted is put together from the messages whose role and content are strings.
A resident service gets the body of the request itself.
-/
namespace Dispatch

open Bounded Policy Proxy Supervisor Text Transaction

section Body

/-- The fields of a request. -/
abbrev Fields := List (String × Json)

def field (value : Json) (key : String) : Option Json := Pricing.Json.field value key

def Fields.insert (object : Fields) (key : String) (value : Json) : Fields :=
  (key, value) :: object.filter fun entry => entry.1 ≠ key

/-- The entries of `messages`, whatever they are. -/
def rawMessages (object : Fields) : List Json :=
  match object.lookup "messages" with
  | some (.array items) => items
  | _ => []

/-- An entry is a message when its role and its content are both strings. -/
def asMessage (item : Json) : Option ChatMessage := do
  let role ← (field item "role").bind asString
  let content ← (field item "content").bind asString
  return ⟨role, content⟩

def extractMessages (object : Fields) : List ChatMessage := (rawMessages object).filterMap asMessage

def promptOf (messages : List ChatMessage) : String :=
  "\n".intercalate (messages.map ChatMessage.content)

variable {F : Type}

/-- A request for a role is sent with the model that the card binds to the role. -/
def boundHttpBody (parsed : ParsedProfile) (object : Fields) (card : ComponentCard F) :
    Except Rejection Fields :=
  match parsed.role with
  | none => .ok object
  | some _ => do
    let target ← backendModelId parsed ((object.lookup "model").bind asString) card
    return object.insert "model" (.string target)

end Body

section Handler

/-- What the rest of the router contributes to one request. -/
structure ChatSession (F : Type) where
  resolveProfile : List ChatMessage → ParsedProfile
  policyCards : ParsedProfile → List (ComponentCard F)
  affinityKey : Option String
  ready : List (ComponentCard F) → List String
  blocked : ParsedProfile → List (ComponentCard F) → List Bool
  contentTightened : Bool
  devNoKeyRequest : Bool

/-- Where a request goes once a provider is selected, or why it goes nowhere. -/
inductive ChatRoute (F : Type) where
  | invalidCompletion (name : String)
  | noCandidate
  | rejected (rejection : Rejection)
  | internalError
  | devNoKeyScope
  | unsupportedModel (selected : Selected F)
  | subscription (selected : Selected F) (messages : List ChatMessage)
  | proxied (selected : Selected F) (body : Fields)
  | supervised (selected : Selected F) (messages : List ChatMessage)

variable {F : Type} [Quotes F]

/-- A request without a key may only reach free providers of this host. -/
def outsideDevScope (selected : Selected F) : Bool :=
  selected.servedLocality ≠ .loopback || !Quotes.isZero selected.card.provider.cost.inputPerM ||
    !Quotes.isZero selected.card.provider.cost.outputPerM

def malformedModel (object : Fields) : Bool :=
  (object.lookup "model").any fun model => (asString model).all String.isEmpty

def routeSelected (session : ChatSession F) (object : Fields) (parsed : ParsedProfile)
    (messages : List ChatMessage) (selected : Selected F) : ChatRoute F :=
  if session.devNoKeyRequest && outsideDevScope selected then .devNoKeyScope
  else if malformedModel object then .unsupportedModel selected
  else if selected.card.provider.id = subscriptionProviderId then .subscription selected messages
  else if isResidentHttpService selected.card then
    match boundHttpBody parsed object selected.card with
    | .ok body => .proxied selected body
    | .error rejection => .rejected rejection
  else .supervised selected messages

/-- The routing of a body, with the answers of the rest of the router at hand; the handler that
asks for them one by one is `Chat.chatCompletions`. -/
def chatCompletions (session : ChatSession F) (object : Fields) : ChatRoute F :=
  match Pricing.completionReservationTokens (.object object) with
  | .error name => .invalidCompletion name
  | .ok completion =>
    let messages := extractMessages object
    let parsed := session.resolveProfile messages
    let cards := session.policyCards parsed
    if cards.isEmpty then .noCandidate
    else
      match selectWithGateFallbackAndCompletion cards parsed (promptOf messages)
        session.affinityKey (session.ready cards) (session.blocked parsed cards) completion
        session.contentTightened with
      | .error rejection => .rejected rejection
      | .ok none => .internalError
      | .ok (some selected) => routeSelected session object parsed messages selected

end Handler

section Selection

variable {F : Type} [Quotes F] {cards : List (ComponentCard F)} {profile : ParsedProfile}
  {prompt : String} {affinityKey : Option String} {ready : List String} {mask : List Bool}
  {completion : Nat} {tightened : Bool} {selected : Selected F}

/-- The estimate of what is selected is that of its candidate. -/
theorem snapshot_quote
    (h : selectWithGateSnapshotAndCompletion cards profile prompt affinityKey ready mask completion
      tightened = .ok (some selected)) :
    selected.estimatedCostMinor =
      (candidate selected.card prompt completion).estimatedCostMinor.getD (.lit 0) := by
  by_cases hmask : cards.length = mask.length
  · simp only [snapshot_of_length hmask, bind_eq_ok, pure_eq_ok, Option.map_eq_some_iff,
      Prod.exists] at h
    obtain ⟨_, hdecide, decision, card, rfl, rfl⟩ := h
    have hpassed := decide_passed hdecide
    obtain ⟨component, -, -, rfl⟩ :=
      open_gateCandidate hpassed.listed (notBlocked_iff.mp hpassed.admitted)
    rfl
  · simp only [selectWithGateSnapshotAndCompletion, ne_eq, hmask, not_false_eq_true, if_true] at h
    cases h

theorem fallback_quote
    (h : selectWithGateFallbackAndCompletion cards profile prompt affinityKey ready mask completion
      tightened = .ok (some selected)) :
    selected.estimatedCostMinor =
      (candidate selected.card prompt completion).estimatedCostMinor.getD (.lit 0) := by
  unfold selectWithGateFallbackAndCompletion at h
  split at h
  · exact snapshot_quote h
  · rename_i hfirst
    obtain rfl := Except.ok.inj h
    exact snapshot_quote hfirst

end Selection

section Coverage

variable {F : Type} [Quotes F] {session : ChatSession F} {object body : Fields}
  {selected : Selected F} {parsed : ParsedProfile} {messages : List ChatMessage}
  {card : ComponentCard F}

theorem lookup_filter_ne {key other : String} (h : other ≠ key) (object : Fields) :
    (object.filter fun entry => entry.1 ≠ key).lookup other = object.lookup other := by
  induction object with
  | nil => rfl
  | cons entry rest ih =>
    obtain ⟨name, value⟩ := entry
    by_cases hname : name = key
    · have hskip : (other == name) = false := by simpa [hname] using h
      rw [List.filter_cons_of_neg (by simpa using hname), ih, List.lookup_cons, hskip]
    · rw [List.filter_cons_of_pos (by simpa using hname), List.lookup_cons, List.lookup_cons, ih]

theorem Fields.lookup_insert_of_ne {key other : String} {value : Json} (h : other ≠ key) :
    (object.insert key value).lookup other = object.lookup other := by
  have hskip : (other == key) = false := by simpa using h
  rw [Fields.insert, List.lookup_cons, hskip]
  exact lookup_filter_ne h object

omit [Quotes F] in
/-- The messages are forwarded as they came. -/
theorem boundHttpBody_messages (h : boundHttpBody parsed object card = .ok body) :
    rawMessages body = rawMessages object := by
  unfold boundHttpBody at h
  split at h
  · cases h
    rfl
  · simp only [bind_eq_ok, pure_eq_ok] at h
    obtain ⟨target, -, rfl⟩ := h
    unfold rawMessages
    rw [Fields.lookup_insert_of_ne (by decide)]

theorem routeSelected_proxied {chosen : Selected F}
    (h : routeSelected session object parsed messages chosen = .proxied selected body) :
    selected = chosen ∧ isResidentHttpService selected.card = true ∧
      rawMessages body = rawMessages object := by
  unfold routeSelected at h
  split_ifs at h with hdev hmodel hsubscription hresident
  cases hbody : boundHttpBody parsed object chosen.card with
  | error rejection =>
    rw [hbody] at h
    cases h
  | ok bound =>
    rw [hbody] at h
    cases h
    exact ⟨rfl, hresident, boundHttpBody_messages hbody⟩

/-- What is sent to a resident service was selected with a quote for the prompt. -/
theorem chatCompletions_proxied (h : chatCompletions session object = .proxied selected body) :
    ∃ completion, Pricing.completionReservationTokens (.object object) = .ok completion ∧
      isResidentHttpService selected.card = true ∧
      selected.estimatedCostMinor = (Quotes.estimateCostMinorWithCompletion
        selected.card.provider.cost (promptOf (extractMessages object)) completion).getD (.lit 0) ∧
      rawMessages body = rawMessages object := by
  unfold chatCompletions at h
  cases hcompletion : Pricing.completionReservationTokens (.object object) with
  | error name =>
    rw [hcompletion] at h
    cases h
  | ok completion =>
    rw [hcompletion] at h
    dsimp only at h
    split_ifs at h with hempty
    split at h
    · cases h
    · cases h
    · rename_i chosen hselected
      obtain ⟨rfl, hresident, hmessages⟩ := routeSelected_proxied h
      have hquote := fallback_quote hselected
      rw [candidate, if_pos hresident] at hquote
      exact ⟨completion, rfl, hresident, hquote, hmessages⟩

end Coverage

section Texts

/-- The text occurs in the prompt, and the quote counts at least the tokens of the text. -/
structure Covers (prompt text : String) : Prop where
  occurs : text.toList <:+: prompt.toList
  counted : Pricing.estimateTokens text ≤ Pricing.estimateTokens prompt

/-- The texts of a content: itself, or those of its text parts. -/
def contentTexts : Json → List String
  | .string text => [text]
  | .array parts => parts.filterMap fun part =>
    if (field part "type").bind asString = some "text" then (field part "text").bind asString
    else none
  | _ => []

def messageTexts (object : Fields) : List String :=
  (rawMessages object).flatMap fun item => ((field item "content").map contentTexts).getD []

theorem promptOf_covers {messages : List ChatMessage} {message : ChatMessage}
    (h : message ∈ messages) : Covers (promptOf messages) message.content := by
  have hoccurs := occurs_intercalate "\n" (List.mem_map_of_mem (f := ChatMessage.content) h)
  exact ⟨hoccurs, Pricing.estimateTokens_mono hoccurs⟩

variable {session : ChatSession Pricing.Rate} {object body : Fields}
  {selected : Selected Pricing.Rate}

/-- The quote of a resident service is made from a prompt that covers every message that is
forwarded, whatever stands around it. -/
theorem quote_covers (h : chatCompletions session object = .proxied selected body) :
    ∃ completion, Pricing.completionReservationTokens (.object object) = .ok completion ∧
      isResidentHttpService selected.card = true ∧
      selected.estimatedCostMinor = (Pricing.pricedMinor
        ⟨selected.card.provider.cost.inputPerM, selected.card.provider.cost.outputPerM⟩
        (Pricing.estimateTokens (promptOf (extractMessages object)))
        (max completion Pricing.reservedCompletionTokens)).getD (.lit 0) ∧
      ∀ item ∈ rawMessages body, ∀ message, asMessage item = some message →
        Covers (promptOf (extractMessages object)) message.content := by
  obtain ⟨completion, hcompletion, hresident, hquote, hmessages⟩ := chatCompletions_proxied h
  refine ⟨completion, hcompletion, hresident, hquote, fun item hitem message hmessage => ?_⟩
  rw [hmessages] at hitem
  exact promptOf_covers (List.mem_filterMap.mpr ⟨item, hitem, hmessage⟩)

/-- Every text of the messages that are forwarded is covered. -/
def CoversTexts (session : ChatSession Pricing.Rate) (object : Fields) : Prop :=
  ∀ selected body, chatCompletions session object = .proxied selected body →
    ∀ text ∈ messageTexts body, Covers (promptOf (extractMessages object)) text

end Texts

section Sample

/-- One resident service, which is open. -/
def residentSession : ChatSession Pricing.Rate where
  resolveProfile _ := dailyProfile
  policyCards _ := [residentCard]
  affinityKey := none
  ready _ := []
  blocked _ _ := [false]
  contentTightened := false
  devNoKeyRequest := false

def residentSelected : Selected Pricing.Rate :=
  ⟨⟨"resident", [.roleMatched .daily, .budgetNoTenantContext, .admissionReady], []⟩, .loopback,
    residentCard, ⟨.resident, .pinned true, .coexist⟩, .lit 0⟩

def chatBody (message : Fields) : Fields := [("messages", .array [.object message])]

def plainMessage : Fields := [("role", .string "user"), ("content", .string "hello")]

/-- The content is an array of one text part. -/
def partsMessage : Fields :=
  [("role", .string "user"),
    ("content", .array [.object [("type", .string "text"), ("text", .string "hello")]])]

def rolelessMessage : Fields := [("content", .string "hello")]

def sentBody (message : Fields) : Fields := (chatBody message).insert "model" (.string "qwen")

theorem quote_covers_plain :
    Covers (promptOf (extractMessages (chatBody plainMessage))) "hello" := by
  obtain ⟨_, -, -, -, h⟩ := @quote_covers residentSession (chatBody plainMessage)
    (sentBody plainMessage) residentSelected rfl
  exact h (.object plainMessage) (List.mem_singleton.mpr rfl) ⟨"user", "hello"⟩ rfl

theorem uncovered {message : Fields}
    (hsent : chatCompletions residentSession (chatBody message) =
      .proxied residentSelected (sentBody message))
    (hprompt : promptOf (extractMessages (chatBody message)) = "")
    (htext : "hello" ∈ messageTexts (sentBody message)) :
    ¬CoversTexts residentSession (chatBody message) := by
  intro h
  have hcovers := h _ _ hsent _ htext
  rw [hprompt] at hcovers
  exact absurd hcovers.counted (by decide)

/-- Neither a text part nor a content without a role is in the prompt. -/
theorem texts_not_covered : ¬CoversTexts residentSession (chatBody partsMessage) ∧
    ¬CoversTexts residentSession (chatBody rolelessMessage) :=
  ⟨uncovered rfl rfl (by decide), uncovered rfl rfl (by decide)⟩

end Sample

end Dispatch
