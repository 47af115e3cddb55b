import IDoris.Library.Text
import IDoris.Library.Transaction

/-!
# The credential broker

A brokered call authorizes, reveals, injects and audits, in that order. The URL
parser and the store of values are parameters; what the call reveals and the
headers it leaves are its state.
-/
namespace Policy

open Text Transaction

/-- One half of a secret's name. -/
def isSecretPart (part : String) : Bool :=
  part ≠ "" && decide (part.utf8ByteSize ≤ 64) &&
    part.toList.all fun c => c.isLower || c.isDigit || c = '-' || c = '_'

structure SecretRef where
  provider : String
  name : String
  provider_valid : isSecretPart provider = true
  name_valid : isSecretPart name = true
  deriving DecidableEq

/-- The handle as written. -/
def SecretRef.id (ref : SecretRef) : String := "secret://" ++ ref.provider ++ "/" ++ ref.name

inductive CredentialError where
  | invalidRef
  | invalidDestination
  | notGranted
  | unavailable
  deriving DecidableEq

def SecretRef.parse (raw : String) : Except CredentialError SecretRef := do
  let rest ← orRefuse (stripPrefix raw "secret://") .invalidRef
  let (provider, name) ← orRefuse (splitOnce rest '/') .invalidRef
  if h : isSecretPart provider = true ∧ isSecretPart name = true then
    pure ⟨provider, name, h.1, h.2⟩
  else
    throw .invalidRef

inductive HeaderScheme where
  | bearer | raw
  deriving DecidableEq

/-- Headers that carry credentials or select the billed account. -/
def credentialHeaders : List String :=
  ["authorization", "proxy-authorization", "x-api-key", "api-key", "x-goog-api-key",
    "openai-organization", "openai-project", "cookie"]

/-- One allowed use of one secret. -/
structure Grant where
  secret : SecretRef
  host : String
  methods : List String
  pathPrefix : String
  header : String
  scheme : HeaderScheme
  deriving DecidableEq

/-- The characters of an HTTP token. -/
def isHeaderChar (c : Char) : Bool := c.isAlphanum || "!#$%&'*+-.^_`|~".toList.contains c

namespace Grant

/-- It can be scoped, and its header can be written. -/
def isValid (grant : Grant) : Bool :=
  grant.host ≠ "" && !grant.methods.isEmpty && grant.pathPrefix.toList.head? = some '/' &&
    grant.header ≠ "" && grant.header.toList.all isHeaderChar

/-- The value the header gets. -/
def headerValue (grant : Grant) (secret : String) : String :=
  match grant.scheme with
  | .bearer => "Bearer " ++ secret
  | .raw => secret

end Grant

structure BrokerRequest where
  secret : SecretRef
  url : String
  method : String

/-- What the broker reads of a parsed URL. -/
structure Url where
  scheme : String
  username : String
  password : Option String
  hostStr : Option String
  port : Option Nat
  path : String

/-- The audit fact of one brokered use: handle and destination, never the value. -/
structure AuditRecord where
  secretId : String
  host : String
  method : String
  path : String
  deriving DecidableEq

/-- The credential of the call, kept for checks of the response. -/
structure ResponseGuard where
  credential : String
  deriving DecidableEq

abbrev Headers := List (String × String)

/-- What a brokered call changes: the outgoing headers and the list of revealed secrets. -/
structure Outgoing where
  headers : Headers
  revealed : List SecretRef

section Broker

def isSafePathChar (c : Char) : Bool := c.isAlphanum || "-._~/".toList.contains c

/-- The parts between the slashes. -/
def segments (path : String) : List (List Char) := path.toList.splitOn '/'

/-- Unreserved characters and slashes only, and no dot segments. -/
def pathIsSafe (path : String) : Bool :=
  path.toList.all isSafePathChar &&
    (segments path).all fun segment => segment ≠ ['.'] && segment ≠ ['.', '.']

/-- The path is the prefix or continues it at a segment boundary. -/
def withinPrefix (path pathPrefix : String) : Bool :=
  path = pathPrefix || (stripPrefix path pathPrefix).any fun rest =>
    pathPrefix.toList.getLast? = some '/' || rest.toList.head? = some '/'

variable (parse : String → Option Url)

/-- Host, with a port that is not the default one, and path of an HTTPS URL. -/
def destination (raw : String) : Except CredentialError (String × String) := do
  let url ← orRefuse (parse raw) .invalidDestination
  refuseIf (url.scheme ≠ "https" ∨ url.username ≠ "" ∨ url.password.isSome) .invalidDestination
  let host ← orRefuse url.hostStr .invalidDestination
  refuseIf (!pathIsSafe url.path) .invalidDestination
  pure (match url.port with
    | some port => host ++ ":" ++ toString port
    | none => host, url.path)

/-- The grant allows this use at this destination. -/
def Grant.allows (grant : Grant) (request : BrokerRequest) (host path : String) : Bool :=
  grant.isValid && grant.secret = request.secret && grant.host = host &&
    grant.methods.any (fun method => eqIgnoreAsciiCase method request.method) &&
    withinPrefix path grant.pathPrefix

/-- Decided from the request alone, before any value is touched. -/
def authorize (grants : List Grant) (request : BrokerRequest) : Except CredentialError Grant := do
  let (host, path) ← destination parse request.url
  orRefuse (grants.find? fun grant => grant.allows request host path) .notGranted

/-- A header that the injection of another one removes. -/
def displaced (name : String) (header : String × String) : Bool :=
  eqIgnoreAsciiCase (trim header.1) name ||
    credentialHeaders.any fun credential => eqIgnoreAsciiCase (trim header.1) credential

def inject (headers : Headers) (name value : String) : Headers :=
  (headers.filter fun header => !displaced name header) ++ [(name, value)]

/-- Nothing, or a value with control characters, cannot be a header. -/
def unusable (secret : String) : Bool :=
  secret = "" || secret.toList.any fun c => decide (c.toNat < 32 ∨ c.toNat = 127)

variable (source : SecretRef → Except CredentialError String)

/-- Authorize, reveal, inject, and audit. -/
def brokerGuarded (grants : List Grant) (request : BrokerRequest) (outgoing : Outgoing) :
    Except CredentialError (AuditRecord × ResponseGuard) × Outgoing :=
  match authorize parse grants request with
  | .error e => (.error e, outgoing)
  | .ok grant =>
    let outgoing := { outgoing with revealed := outgoing.revealed ++ [grant.secret] }
    match source grant.secret with
    | .error e => (.error e, outgoing)
    | .ok secret =>
      if unusable secret then (.error .unavailable, outgoing)
      else
        let outgoing :=
          { outgoing with
            headers := inject outgoing.headers grant.header (grant.headerValue secret) }
        match destination parse request.url with
        | .error e => (.error e, outgoing)
        | .ok (host, path) =>
          (.ok (⟨grant.secret.id, host, toAsciiUppercase request.method, path⟩, ⟨secret⟩), outgoing)

end Broker

section References

theorem slash_not_mem {part : String} (h : isSecretPart part = true) : '/' ∉ part.toList := by
  intro hslash
  simp only [isSecretPart, Bool.and_eq_true, List.all_eq_true] at h
  exact absurd (h.2 '/' hslash) (by decide)

/-- A handle is parsed exactly if it is written as handles are. -/
theorem SecretRef.parse_eq_ok {raw : String} {ref : SecretRef} :
    SecretRef.parse raw = .ok ref ↔ raw = ref.id := by
  obtain ⟨provider, name, hprovider, hname⟩ := ref
  have hid : SecretRef.id ⟨provider, name, hprovider, hname⟩ =
      "secret://" ++ (provider ++ "/" ++ name) := by simp [SecretRef.id, String.append_assoc]
  simp only [SecretRef.parse, bind_eq_ok, orRefuse_eq_ok, hid]
  constructor
  · rintro ⟨rest, hrest, ⟨first, second⟩, hsplit, hparsed⟩
    dsimp only at hparsed
    split at hparsed
    · cases hparsed
      rw [← String.toList_inj, stripPrefix_eq_some.mp hrest, String.toList_append,
        (splitOnce_eq_some.mp hsplit).2]
      simp
    · cases hparsed
  · rintro rfl
    refine ⟨provider ++ "/" ++ name, ?_, (provider, name), ?_, ?_⟩
    · rw [stripPrefix_eq_some, String.toList_append]
    · exact splitOnce_eq_some.mpr ⟨slash_not_mem hprovider, by simp⟩
    · exact dif_pos ⟨hprovider, hname⟩

end References

section Containment

/-- A header with this name, whatever its case and the white space around it. -/
def named (name : String) (header : String × String) : Bool :=
  eqIgnoreAsciiCase (trim header.1) name

/-- A header that carries a credential or selects the billed account. -/
def isCredential (header : String × String) : Bool :=
  credentialHeaders.any fun credential => named credential header

/-- What an injection guarantees about the headers it leaves. -/
structure Injected (name : String) (before after : Headers) : Prop where
  one : after.countP (named name) = 1
  onlyOne : ∀ header ∈ after, isCredential header = true → header.1 = name
  others : after.filter (fun header => !displaced name header) =
    before.filter fun header => !displaced name header

/-- The segments of the prefix, with the empty one after a closing slash left out, are the
first segments of the path. -/
def AtBoundary (pathPrefix path : String) : Prop :=
  segments pathPrefix <+: segments path ∨
    ∃ shorter, pathPrefix.toList = shorter ++ ['/'] ∧ shorter.splitOn '/' <+: segments path

variable {parse : String → Option Url} {source : SecretRef → Except CredentialError String}
  {grants : List Grant} {grant : Grant} {request : BrokerRequest} {name value path : String}
  {headers : Headers} {header : String × String}

theorem isAlphanum_range {c : Char} (h : c.isAlphanum = true) : 48 ≤ c.toNat ∧ c.toNat ≤ 122 := by
  unfold Char.isAlphanum Char.isAlpha Char.isUpper Char.isLower Char.isDigit at h
  simp only [Bool.or_eq_true, Bool.and_eq_true, decide_eq_true_eq, ge_iff_le, UInt32.le_iff_toNat_le] at h
  have hval : c.toNat = c.val.toNat := rfl
  have hA : 'A'.val.toNat = 65 := rfl
  have hZ : 'Z'.val.toNat = 90 := rfl
  have ha : 'a'.val.toNat = 97 := rfl
  have hz : 'z'.val.toNat = 122 := rfl
  have h0 : '0'.val.toNat = 48 := rfl
  have h9 : '9'.val.toNat = 57 := rfl
  omega

theorem isHeaderChar_not_space {c : Char} (h : isHeaderChar c = true) : isWhitespace c = false := by
  rw [isHeaderChar, Bool.or_eq_true] at h
  obtain h | h := h
  · have hrange := isAlphanum_range h
    simp only [isWhitespace, decide_eq_false_iff_not]
    omega
  · have hsymbols : ("!#$%&'*+-.^_`|~".toList.all fun c => !isWhitespace c) = true := by
      decide +kernel
    have hmem : c ∈ "!#$%&'*+-.^_`|~".toList := by
      rw [← List.contains_iff_mem]
      exact h
    have hnot := List.all_eq_true.mp hsymbols c hmem
    simpa only [Bool.not_eq_true'] using hnot

/-- The name a valid grant selects has no white space to trim. -/
theorem named_header (h : grant.isValid = true) :
    named grant.header (grant.header, value) = true := by
  simp only [Grant.isValid, Bool.and_eq_true, List.all_eq_true] at h
  have htrim : trim grant.header = grant.header :=
    trim_of_none fun c hc => isHeaderChar_not_space (h.2 c hc)
  rw [named, htrim]
  exact eqIgnoreAsciiCase_self grant.header

theorem displaced_eq : displaced name header = (named name header || isCredential header) := rfl

theorem injected (hname : named name (name, value) = true) :
    Injected name headers (inject headers name value) := by
  have hself : displaced name (name, value) = true := by
    rw [displaced_eq, hname]
    rfl
  have hkept : ∀ header ∈ headers.filter (fun header => !displaced name header),
      named name header = false ∧ isCredential header = false := by
    intro header hheader
    simpa [displaced_eq] using (List.mem_filter.mp hheader).2
  constructor
  · have hnone : (headers.filter fun header => !displaced name header).countP (named name) = 0 :=
      List.countP_eq_zero.mpr fun header hheader => by simp [(hkept header hheader).1]
    rw [inject, List.countP_append, hnone]
    simp [hname]
  · intro header hheader hcredential
    obtain hheader | hheader := List.mem_append.mp hheader
    · rw [(hkept header hheader).2] at hcredential
      cases hcredential
    · rw [List.mem_singleton.mp hheader]
  · simp [inject, List.filter_append, hself]

theorem withinPrefix_boundary {pathPrefix : String} (h : withinPrefix path pathPrefix = true) :
    AtBoundary pathPrefix path := by
  simp only [withinPrefix, Bool.or_eq_true, decide_eq_true_eq, Option.any_eq_true,
    stripPrefix_eq_some] at h
  obtain rfl | ⟨rest, hpath, hclosed | hopened⟩ := h
  · exact .inl (List.prefix_refl _)
  · obtain ⟨shorter, hshorter⟩ := List.getLast?_eq_some_iff.mp hclosed
    refine .inr ⟨shorter, hshorter, ?_⟩
    rw [segments, hpath, hshorter, List.append_assoc, List.singleton_append,
      List.splitOn_append_cons_self]
    exact List.prefix_append _ _
  · obtain ⟨after, hafter⟩ := List.head?_eq_some_iff.mp hopened
    refine .inl ?_
    rw [segments, segments, hpath, hafter, List.splitOn_append_cons_self]
    exact List.prefix_append _ _

/-- The grant an authorization finds allows the use at the destination of the URL. -/
theorem authorize_eq_ok (h : authorize parse grants request = .ok grant) :
    grant ∈ grants ∧ ∃ host path, destination parse request.url = .ok (host, path) ∧
      grant.allows request host path = true := by
  simp only [authorize, bind_eq_ok, orRefuse_eq_ok, Prod.exists] at h
  obtain ⟨host, path, hdestination, hfind⟩ := h
  have hallows := List.find?_some hfind
  exact ⟨List.mem_of_find?_eq_some hfind, host, path, hdestination, hallows⟩

theorem destination_path {host : String} (h : destination parse request.url = .ok (host, path)) :
    ∃ url, parse request.url = some url ∧ url.path = path := by
  simp only [destination, bind_eq_ok, orRefuse_eq_ok, pure_eq_ok, Prod.mk.injEq] at h
  obtain ⟨url, hurl, -, -, -, -, -, -, -, hpath⟩ := h
  exact ⟨url, hurl, hpath⟩

/-- What a call guarantees about the headers and the secrets it revealed. -/
structure Contained (parse : String → Option Url) (grants : List Grant) (request : BrokerRequest)
    (headers : Headers) (answer : Except CredentialError (AuditRecord × ResponseGuard))
    (outgoing : Outgoing) : Prop where
  refused : ∀ e, answer = .error e → outgoing.headers = headers
  revealed : ∀ ref ∈ outgoing.revealed, ∃ grant,
    authorize parse grants request = .ok grant ∧ grant.secret = ref
  granted : ∀ audit guard, answer = .ok (audit, guard) → ∃ grant ∈ grants,
    authorize parse grants request = .ok grant ∧
    Injected grant.header headers outgoing.headers ∧
    ∃ url, parse request.url = some url ∧ audit.path = url.path ∧
      AtBoundary grant.pathPrefix url.path

theorem contained_refused {e : CredentialError} {outgoing : Outgoing}
    (hheaders : outgoing.headers = headers)
    (hrevealed : ∀ ref ∈ outgoing.revealed, ∃ grant,
      authorize parse grants request = .ok grant ∧ grant.secret = ref) :
    Contained parse grants request headers (.error e) outgoing :=
  ⟨fun _ _ => hheaders, hrevealed, nofun⟩

/-- An error leaves the headers as they were, a secret is revealed only for a grant that
authorized the request, and success leaves one credential header and a path inside the grant. -/
theorem broker_contained (parse : String → Option Url)
    (source : SecretRef → Except CredentialError String) (grants : List Grant)
    (request : BrokerRequest) (headers : Headers) :
    Contained parse grants request headers
      (brokerGuarded parse source grants request ⟨headers, []⟩).1
      (brokerGuarded parse source grants request ⟨headers, []⟩).2 := by
  unfold brokerGuarded
  cases hauthorize : authorize parse grants request with
  | error e => exact contained_refused rfl nofun
  | ok grant =>
    have hrevealed : ∀ ref ∈ [grant.secret], ∃ grant,
        authorize parse grants request = .ok grant ∧ grant.secret = ref := by
      intro ref href
      exact ⟨grant, hauthorize, (List.mem_singleton.mp href).symm⟩
    cases hsource : source grant.secret with
    | error e =>
      simp only [hsource]
      exact contained_refused rfl hrevealed
    | ok secret =>
      by_cases hunusable : unusable secret = true
      · simp only [hsource, hunusable, if_true]
        exact contained_refused rfl hrevealed
      · obtain ⟨hgrant, host, path, hdestination, hallows⟩ := authorize_eq_ok hauthorize
        obtain ⟨url, hurl, hpath⟩ := destination_path hdestination
        simp only [Grant.allows, Bool.and_eq_true] at hallows
        simp only [hsource, hunusable, hdestination, Bool.false_eq_true, if_false]
        refine ⟨nofun, hrevealed, ?_⟩
        rintro audit guard ⟨⟩
        refine ⟨grant, hgrant, hauthorize, injected (named_header hallows.1.1.1.1), url, hurl,
          hpath.symm, ?_⟩
        rw [hpath]
        exact withinPrefix_boundary hallows.2

end Containment

section Sample

def openai : SecretRef := ⟨"openai", "default", by decide, by decide⟩

def chatGrant : Grant where
  secret := openai
  host := "api.openai.com"
  methods := ["POST"]
  pathPrefix := "/v1/chat"
  header := "Authorization"
  scheme := .bearer

def chatUrl : Url := ⟨"https", "", none, some "api.openai.com", none, "/v1/chat/completions"⟩

/-- Padded, misspelt and foreign credentials go; the rest stays in order. -/
example : (brokerGuarded (fun _ => some chatUrl) (fun _ => .ok "sk-real-value") [chatGrant]
    ⟨openai, "https://api.openai.com/v1/chat/completions", "post"⟩
    ⟨[("X-Api-Key", "other"), ("Content-Type", "application/json"), (" cookie", "spaced"),
      ("AUTHORIZATION ", "Bearer attacker"), ("x-trace-id", "trace")], []⟩).2.headers =
    [("Content-Type", "application/json"), ("x-trace-id", "trace"),
      ("Authorization", "Bearer sk-real-value")] := by decide +kernel

end Sample

end Policy
