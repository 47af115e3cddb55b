import IDoris.Policy.Book
import Mathlib.Data.List.DropRight

/-!
# Provider and connection gates

A proxied send owns the tickets of two gates, a native or subscription call the ticket
of one. Either ends by a finish or by a drop, at any time and in any order.
-/
namespace Proxy

open Policy

structure Url where
  scheme : String
  host : Option String
  port : Option Nat

/-- What the URL library and the address parser say. -/
class UrlParser where
  parse : String → Option Url
  isLoopbackIp : String → Bool

inductive BreakerKey where
  | provider (id : String)
  | connection (scheme host : String) (port : Nat)
  deriving DecidableEq

def providerKey (id : String) : BreakerKey := .provider id

section Urls

variable [UrlParser]

def connectionKey (url : String) : Option BreakerKey := do
  let parsed ← UrlParser.parse url
  if parsed.scheme ≠ "http" ∧ parsed.scheme ≠ "https" then none
  let host ← parsed.host
  let port ← parsed.port
  return .connection parsed.scheme host port

def trimBrackets (host : String) : String :=
  String.ofList ((host.toList.dropWhile (· = '[')).rdropWhile (· = ']'))

def isLoopbackHost (host : String) : Bool :=
  host.map Char.toLower = "localhost" || UrlParser.isLoopbackIp (trimBrackets host)

def isLoopbackUrl (url : String) : Bool :=
  match UrlParser.parse url with
  | none => false
  | some parsed => parsed.host.any isLoopbackHost

def credentialClass (url : String) : CredentialClass :=
  if isLoopbackUrl url then .local else .apiKey

end Urls

structure CapturedGate where
  key : BreakerKey
  credential : CredentialClass
  ticket : AdmissionTicket
  probe : Bool
  deriving DecidableEq

def CapturedGate.entry (gate : CapturedGate) : CredentialClass × BreakerKey :=
  (gate.credential, gate.key)

/-- The gates a proxied send has claimed. -/
structure CapturedSendClaim where
  gates : List CapturedGate

structure ProviderCapture where
  key : BreakerKey
  credential : CredentialClass
  ticket : Option AdmissionTicket
  probe : Bool

inductive ProviderOutcome where
  | success | fault | ignored
  deriving DecidableEq

def maxConnectionRetryAfterMs : Nat := 300000

def isFault (status : Nat) : Bool :=
  status = 408 || status = 429 || (500 ≤ status && status < 600)

def connectionHeader (status : Nat) (retryAfterMs : Option Nat) : Option Nat :=
  (retryAfterMs.filter fun _ => status = 429 || status = 503).map fun ms =>
    min ms maxConnectionRetryAfterMs

/-- How `finish` reports one gate, if at all. -/
def CapturedGate.outcome (gate : CapturedGate) (status : Nat) (retryAfterMs : Option Nat)
    (nowMs : Nat) : Option Report :=
  let fault := isFault status
  let header := connectionHeader status retryAfterMs
  match gate.key with
  | .provider _ => if fault then some (.failure nowMs) else some .success
  | .connection .. =>
    if fault && gate.probe then some (.failureWithRetryAfter nowMs header)
    else match header with
      | some ms => some (.retryAfter nowMs ms)
      | none => if fault then none else some .success

/-- How a dropped claim reports one gate. -/
def CapturedGate.abandoned (gate : CapturedGate) (nowMs : Nat) : Option Report :=
  if gate.probe then some (.failure nowMs) else none

/-- How `finish_provider` reports a captured ticket. -/
def ProviderOutcome.report (outcome : ProviderOutcome) (probe : Bool) (nowMs : Nat) :
    Option Report :=
  match outcome with
  | .success => some .success
  | .fault => some (.failure nowMs)
  | .ignored => if probe then some (.failure nowMs) else none

/-- A report that reached a breaker. -/
structure Delivery where
  ticket : AdmissionTicket
  issuer : Nat

/-- The breakers of one proxy. `poisoned`: a panic hit the holder of the lock. `issued`
and `delivered` record every ticket and every report. -/
structure Gates where
  book : BreakerBook BreakerKey
  next : Nat
  enabled : Bool
  poisoned : Bool
  issued : List AdmissionTicket
  delivered : List Delivery

namespace Gates

def start : Gates := ⟨BreakerBook.new, 0, true, false, [], []⟩

def panic (g : Gates) : Gates := { g with poisoned := true, next := u64Max }

def admitted (g : Gates) (book : BreakerBook BreakerKey) (next : Nat)
    (tickets : List AdmissionTicket) : Gates :=
  { g with book := book, next := next, issued := tickets ++ g.issued }

def captured (entry : CredentialClass × BreakerKey) (answer : Admit) : Option CapturedGate :=
  answer.ticket.map fun ticket => ⟨entry.2, entry.1, ticket, decide (answer.admission = .probe)⟩

/-- Both gates before anything is sent; `none` is the refusal. -/
def claimSend [UrlParser] (g : Gates) (providerId url : String) (nowMs : Nat) :
    Gates × Option CapturedSendClaim :=
  if !g.enabled then (g, some ⟨[]⟩)
  else if g.poisoned then (g, none)
  else
    let provider := (credentialClass url, providerKey providerId)
    match connectionKey url with
    | some connection =>
      let connection := (credentialClass url, connection)
      match g.book.admitPair g.next provider connection nowMs with
      | .error _ => (g, none)
      | .ok none => (g.panic, none)
      | .ok (some ((book, first, second), next)) =>
        (g.admitted book next (second.ticket.toList ++ first.ticket.toList), do
          let first ← captured provider first
          let second ← captured connection second
          return ⟨[first, second]⟩)
    | none =>
      match g.book.admitAt g.next provider nowMs with
      | none => (g.panic, none)
      | some ((book, answer), next) =>
        (g.admitted book next answer.ticket.toList, do
          let gate ← captured provider answer
          return ⟨[gate]⟩)

def beginProvider (g : Gates) (providerId : String) (credential : CredentialClass) (nowMs : Nat) :
    Gates × Option ProviderCapture :=
  let key := providerKey providerId
  if g.enabled && !g.poisoned then
    match g.book.admitAt g.next (credential, key) nowMs with
    | none => (g.panic, none)
    | some ((book, answer), next) =>
      (g.admitted book next answer.ticket.toList,
        some ⟨key, credential, answer.ticket, decide (answer.admission = .probe)⟩)
  else (g, some ⟨key, credential, none, false⟩)

/-- Hand a ticket to the breaker of an entry, or let it go. -/
def settle (g : Gates) (entry : CredentialClass × BreakerKey) (ticket : AdmissionTicket) :
    Option Report → Gates
  | none => g
  | some r =>
    match g.book.breakers.get entry with
    | none => g
    | some b =>
      { g with
        book := g.book.report entry ticket r
        delivered := ⟨ticket, b.issuer⟩ :: g.delivered }

def settleAll (g : Gates) (gates : List CapturedGate) (report : CapturedGate → Option Report) :
    Gates :=
  gates.foldl (fun g gate => g.settle gate.entry gate.ticket (report gate)) g

def finish (g : Gates) (claim : CapturedSendClaim) (status : Nat) (retryAfterMs : Option Nat)
    (nowMs : Nat) : Gates :=
  g.settleAll claim.gates fun gate => gate.outcome status retryAfterMs nowMs

def dropClaim (g : Gates) (claim : CapturedSendClaim) (nowMs : Nat) : Gates :=
  if claim.gates.any (·.probe) then
    g.settleAll claim.gates fun gate => gate.abandoned nowMs
  else g

def finishProvider (g : Gates) (capture : ProviderCapture) (outcome : ProviderOutcome)
    (nowMs : Nat) : Gates :=
  match capture.ticket with
  | none => g
  | some ticket =>
    g.settle (capture.credential, capture.key) ticket (outcome.report capture.probe nowMs)

end Gates

/-- The proxy with its requests in flight. -/
structure Traffic where
  gates : Gates
  claims : List CapturedSendClaim
  captures : List ProviderCapture

/-- `elsewhere`: another breaker of the process takes an issuer id. -/
inductive TrafficEvent where
  | setEnabled (enabled : Bool)
  | elsewhere
  | claimSend (providerId url : String) (nowMs : Nat)
  | finish (i : Nat) (status : Nat) (retryAfterMs : Option Nat) (nowMs : Nat)
  | drop (i : Nat) (nowMs : Nat)
  | beginProvider (providerId : String) (credential : CredentialClass) (nowMs : Nat)
  | finishProvider (i : Nat) (outcome : ProviderOutcome) (nowMs : Nat)
  | dropProvider (i : Nat) (nowMs : Nat)

namespace Traffic

def start : Traffic := ⟨Gates.start, [], []⟩

variable [UrlParser]

def step (w : Traffic) : TrafficEvent → Traffic
  | .setEnabled enabled => { w with gates := { w.gates with enabled := enabled } }
  | .elsewhere => { w with gates := { w.gates with next := (nextIssuer w.gates.next).getD u64Max } }
  | .claimSend providerId url nowMs =>
    let (gates, claim) := w.gates.claimSend providerId url nowMs
    { w with gates := gates, claims := claim.toList ++ w.claims }
  | .finish i status retryAfterMs nowMs =>
    match w.claims[i]? with
    | none => w
    | some claim =>
      { w with
        gates := w.gates.finish claim status retryAfterMs nowMs
        claims := w.claims.eraseIdx i }
  | .drop i nowMs =>
    match w.claims[i]? with
    | none => w
    | some claim =>
      { w with gates := w.gates.dropClaim claim nowMs, claims := w.claims.eraseIdx i }
  | .beginProvider providerId credential nowMs =>
    let (gates, capture) := w.gates.beginProvider providerId credential nowMs
    { w with gates := gates, captures := capture.toList ++ w.captures }
  | .finishProvider i outcome nowMs =>
    match w.captures[i]? with
    | none => w
    | some capture =>
      { w with
        gates := w.gates.finishProvider capture outcome nowMs
        captures := w.captures.eraseIdx i }
  | .dropProvider i nowMs =>
    match w.captures[i]? with
    | none => w
    | some capture =>
      { w with
        gates := w.gates.finishProvider capture .ignored nowMs
        captures := w.captures.eraseIdx i }

def run (w : Traffic) (events : List TrafficEvent) : Traffic := events.foldl step w

end Traffic

end Proxy
