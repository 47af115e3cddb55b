import IDoris.Library.ByteText
import IDoris.Library.Decimal
import IDoris.Library.Interaction
import IDoris.Library.Json
import IDoris.Library.Text
import IDoris.Supervisor.Types

/-!
# The oMLX adapter's load

Every request of a load and every answer the engine can give to it: a status code with its body,
a transport failure, or none in time. The admin session is shared with other calls.
-/
namespace Omlx

open Interaction Json Program Supervisor

/-- `is_timeout`, `is_connect`, `is_decode`, or none of them. -/
inductive TransportFailure where
  | timeout
  | connect
  | decode
  | other
  deriving DecidableEq

/-- `body`: what parses as JSON. The headers are those of `set-cookie`. -/
structure Response (N : Type) where
  status : Nat
  setCookies : List (List UInt8)
  body : Option (Value N)

inductive Answer (N : Type) where
  | elapsed
  | failed (failure : TransportFailure)
  | answered (response : Response N)

inductive Method where
  | get
  | post
  | put
  deriving DecidableEq

structure HttpRequest (N : Type) where
  method : Method
  url : String
  bearer : Option String
  cookie : Option String
  body : Option (Value N)

/-- What a call asks of its surroundings: the engine, and the session under its lock. -/
inductive Op (N : Type) where
  | send (request : HttpRequest N)
  | session
  | setSession (cookie : Option String)

def Op.Ans {N : Type} : Op N → Type
  | .send _ => Answer N
  | .session => Option String
  | .setSession _ => Unit

abbrev Call (N α : Type) := Program (Op N) Op.Ans α

def sendRequest {N : Type} (request : HttpRequest N) : Call N (Answer N) := .ask (.send request) .ret

def lockSession {N : Type} : Call N (Option String) := .ask .session .ret

def setSession {N : Type} (cookie : Option String) : Call N Unit := .ask (.setSession cookie) .ret

/-- `callTimeout` is in nanoseconds. -/
structure OmlxAdapter where
  baseUrl : String
  apiKey : Option String
  callTimeout : Nat

structure ModelState where
  pinned : Bool
  deriving DecidableEq

inductive AdminRequestError where
  | definite (err : BackendError)
  | unknown (err : BackendError)

section Texts

/-- A fraction of at most `width` digits, without the zeros at its end. -/
def fraction (width n : Nat) : String :=
  match ((Decimal.padded width n).reverse.dropWhile (· = '0')).reverse with
  | [] => ""
  | digits => "." ++ String.ofList digits

/-- `Duration` as its `Debug` writes it. -/
def debugDuration (nanos : Nat) : String :=
  if 10 ^ 9 ≤ nanos then toString (nanos / 10 ^ 9) ++ fraction 9 (nanos % 10 ^ 9) ++ "s"
  else if 10 ^ 6 ≤ nanos then toString (nanos / 10 ^ 6) ++ fraction 6 (nanos % 10 ^ 6) ++ "ms"
  else if 10 ^ 3 ≤ nanos then toString (nanos / 10 ^ 3) ++ fraction 3 (nanos % 10 ^ 3) ++ "µs"
  else toString nanos ++ "ns"

/-- The bytes `PATH_SEGMENT` leaves as they are. -/
def unescaped (b : UInt8) : Bool :=
  (48 ≤ b && b ≤ 57) || (65 ≤ b && b ≤ 90) || (97 ≤ b && b ≤ 122) ||
    "-_.!~*'()".toList.any fun c => c.toNat = b.toNat

def hexDigit (n : Nat) : Char := "0123456789ABCDEF".toList.getD n '0'

def percentEncode (text : String) : String :=
  String.ofList ((ByteText.utf8 text).flatMap fun b =>
    if unescaped b then [Char.ofNat b.toNat]
    else ['%', hexDigit (b.toNat / 16), hexDigit (b.toNat % 16)])

def encodedPath (pre id suffix : String) : String := pre ++ percentEncode id ++ suffix

def Method.name : Method → String
  | .get => "GET"
  | .post => "POST"
  | .put => "PUT"

def transportError (method : Method) (path : String) (failure : TransportFailure) : BackendError :=
  let kind := match failure with
    | .timeout => "timed out"
    | .connect => "could not connect"
    | .decode => "returned an undecodable body"
    | .other => "failed"
  .upstream ("oMLX " ++ method.name ++ " " ++ path ++ " " ++ kind ++ " (transport error)")

def OmlxAdapter.elapsedError (adapter : OmlxAdapter) (method : Method) (path : String) :
    BackendError :=
  .upstream ("oMLX " ++ method.name ++ " " ++ path ++ " timed out after " ++
    debugDuration adapter.callTimeout)

end Texts

section Answers

variable {N : Type}

def isSuccess (status : Nat) : Bool := 200 ≤ status && status < 300

def isClientError (status : Nat) : Bool := 400 ≤ status && status < 500

def checkStatus (method : Method) (path : String) (response : Response N) :
    Except BackendError Unit :=
  if isSuccess response.status then .ok ()
  else .error (.upstream ("oMLX " ++ method.name ++ " " ++ path ++ " failed: HTTP " ++
    toString response.status))

def unconfirmedLoadError (loadId : Option String) (err : BackendError) : BackendError :=
  match loadId with
  | some id => .loadUnconfirmed id err.display
  | none => err

def isDefiniteRejection (status : Nat) : Bool := isClientError status && status ≠ 408

def adminCheckStatus (response : Response N) : Except AdminRequestError Unit :=
  if isSuccess response.status then .ok ()
  else
    let err := .upstream ("oMLX admin request failed: HTTP " ++ toString response.status)
    if isDefiniteRejection response.status then .error (.definite err) else .error (.unknown err)

/-- `HeaderValue::to_str`: visible ASCII, or none. -/
def headerText (header : List UInt8) : Option String :=
  if header.all fun b => (32 ≤ b && b < 127) || b = 9 then
    some (String.ofList (header.map fun b => Char.ofNat b.toNat))
  else none

def sessionPair (header : String) : String :=
  String.ofList (header.toList.takeWhile (· ≠ ';'))

/-- The first pair that is a session cookie with a value. -/
def sessionCookie (response : Response N) : Option String :=
  ((response.setCookies.filterMap headerText).map sessionPair).find? fun pair =>
    (Text.stripPrefix pair "omlx_admin_session=").any fun value => !value.isEmpty

/-- The entries of the models array that have this id. -/
def entries (models : List (Value N)) (id : String) : List (Value N) :=
  models.filter fun m => (m.get "id").bind Value.asStr = some id

def parseModelState (raw : Value N) (id : String) : Except BackendError ModelState :=
  let refuse (text : String) : Except BackendError ModelState :=
    .error (.upstream ("oMLX GET /v1/models/status" ++ text))
  match (raw.get "models").bind Value.asArray with
  | none => refuse (" response is missing a models array (checking " ++ id ++ ")")
  | some models =>
    match entries models id with
    | [] => refuse (" has no entry for " ++ id)
    | _ :: _ :: _ => refuse (" has duplicate entries for " ++ id)
    | [entry] =>
      match (entry.get "loaded").bind Value.asBool with
      | none => refuse ("'s loaded field for " ++ id ++ " is not a boolean")
      | some false => refuse (" reports " ++ id ++ " as not loaded (evicted concurrently?)")
      | some true =>
        match (entry.get "pinned").bind Value.asBool with
        | none => refuse ("'s pinned field for " ++ id ++ " is not a boolean")
        | some pinned => .ok ⟨pinned⟩

end Answers

namespace OmlxAdapter

variable {N : Type} (adapter : OmlxAdapter)

/-- A request with the main key as its bearer. -/
def request (method : Method) (path : String) : HttpRequest N where
  method := method
  url := adapter.baseUrl ++ path
  bearer := adapter.apiKey
  cookie := none
  body := none

def sendAndDiscard (method : Method) (path : String) (loadId : Option String) :
    Call N (Except BackendError Unit) := do
  match ← sendRequest (adapter.request method path) with
  | .elapsed => return .error (unconfirmedLoadError loadId (adapter.elapsedError method path))
  | .failed failure =>
    return .error (unconfirmedLoadError loadId (transportError method path failure))
  | .answered response =>
    let result := checkStatus method path response
    if isClientError response.status && response.status ≠ 408 then return result
    else return result.mapError (unconfirmedLoadError loadId)

/-- The deadline covers the body too: what is not read in time is `elapsed`. -/
def sendAndParse (method : Method) (path : String) : Call N (Except BackendError (Value N)) := do
  match ← sendRequest (adapter.request method path) with
  | .elapsed => return .error (adapter.elapsedError method path)
  | .failed failure => return .error (transportError method path failure)
  | .answered response =>
    match checkStatus method path response, response.body with
    | .error err, _ => return .error err
    | .ok (), some body => return .ok body
    | .ok (), none =>
      return .error (.upstream ("oMLX " ++ method.name ++ " " ++ path ++
        " returned a body that was not valid JSON"))

def loadPath (id : String) : String := encodedPath "/v1/models/" id "/load"

def settingsPath (id : String) : String := encodedPath "/admin/api/models/" id "/settings"

def statusPath : String := "/v1/models/status"

def loginPath : String := "/admin/api/login"

def loginRequest (key : String) : HttpRequest N where
  method := .post
  url := adapter.baseUrl ++ loginPath
  bearer := none
  cookie := none
  body := some (.object [("api_key", .string key)])

def adminLogin : Call N (Except AdminRequestError String) := do
  match adapter.apiKey with
  | none => return .error (.definite (.upstream "oMLX admin login requires the main API key"))
  | some key =>
    match ← sendRequest (adapter.loginRequest key) with
    | .elapsed | .failed _ =>
      return .error (.unknown (.upstream "oMLX admin login transport failure"))
    | .answered response =>
      match adminCheckStatus response, sessionCookie response, response.body with
      | .error err, _, _ => return .error err
      | .ok (), none, _ =>
        return .error (.unknown (.upstream "oMLX admin login returned no session cookie"))
      | .ok (), some _, none =>
        return .error (.unknown (.upstream "oMLX admin login returned invalid JSON"))
      | .ok (), some cookie, some body =>
        if (body.get "success").bind Value.asBool = some true then return .ok cookie
        else return .error (.unknown (.upstream "oMLX admin login was not successful"))

def adminRequest (method : Method) (path : String) (body : Option (Value N)) (cookie : String) :
    HttpRequest N where
  method := method
  url := adapter.baseUrl ++ path
  bearer := none
  cookie := some cookie
  body := body

/-- The cookie of the session, from a login where there is none. -/
def adminCookie (session : Option String) : Call N (Except AdminRequestError String) := do
  match session with
  | some cookie => return .ok cookie
  | none =>
    match ← adapter.adminLogin with
    | .error err => return .error err
    | .ok cookie =>
      setSession (some cookie)
      return .ok cookie

def adminResult (method : Method) (response : Response N) : Except AdminRequestError (Value N) :=
  match adminCheckStatus response with
  | .error err => .error err
  | .ok () =>
    if method = .get then
      match response.body with
      | some body => .ok body
      | none => .error (.unknown (.upstream "oMLX admin request returned invalid JSON"))
    else .ok .null

def adminAttempts (method : Method) (path : String) (body : Option (Value N)) :
    List Nat → Option String → Call N (Except AdminRequestError (Value N))
  | [], _ => .ret (.error (.unknown (.upstream "oMLX admin session unavailable")))
  | attempt :: rest, session => do
    match ← adapter.adminCookie session with
    | .error err => return .error err
    | .ok cookie =>
      match ← sendRequest (adapter.adminRequest method path body cookie) with
      | .elapsed | .failed _ =>
        return .error (.unknown (.upstream "oMLX admin request transport failure"))
      | .answered response =>
        if response.status = 401 then
          setSession none
          if attempt = 0 then adminAttempts method path body rest none
          else return adminResult method response
        else return adminResult method response

/-- The session's lock is held from here to the end. -/
def adminRequestClassified (method : Method) (path : String) (body : Option (Value N)) :
    Call N (Except AdminRequestError (Value N)) := do
  let session ← lockSession
  adapter.adminAttempts method path body (List.range 2) session

def verifyModelState (id : String) : Call N (Except BackendError ModelState) := do
  match ← adapter.sendAndParse .get statusPath with
  | .error err => return .error err
  | .ok raw => return parseModelState raw id

def pin (id : String) : Call N (Except BackendError Unit) := do
  match ← adapter.adminRequestClassified .put (settingsPath id)
      (some (.object [("is_pinned", .bool true)])) with
  | .error (.definite err) =>
    match ← adapter.verifyModelState id with
    | .error verifyErr =>
      return .error (.upstream ("oMLX pin rejection was definite (" ++ err.display ++
        "), but loaded state could not be verified (" ++ verifyErr.display ++ ")"))
    | .ok _ =>
      return .error (.loadPostconditionFailed id ("oMLX confirmed " ++ id ++
        " loaded, but pin policy was rejected: " ++ err.display))
  | .error (.unknown err) =>
    return .error (.upstream ("oMLX pin state unconfirmed for " ++ id ++ ": " ++ err.display ++
      " (admin mutation outcome is unknown)"))
  | .ok _ =>
    match ← adapter.verifyModelState id with
    | .error err =>
      return .error (.upstream ("oMLX pin state unverified for " ++ id ++
        ": PUT succeeded but the follow-up GET /v1/models/status failed (" ++ err.display ++
        ") — pin status is unknown, not confirmed either way"))
    | .ok state =>
      if state.pinned then return .ok ()
      else
        return .error (.loadPostconditionFailed id ("oMLX pin unavailable for " ++ id ++
          ": PUT succeeded but GET /v1/models/status still reports pinned=false"))

def checkNotUnexpectedlyPinned (id : String) : Call N (Except BackendError Unit) := do
  match ← adapter.verifyModelState id with
  | .error err => return .error err
  | .ok state =>
    if state.pinned then
      return .error (.loadPostconditionFailed id ("oMLX model " ++ id ++
        " is unexpectedly pinned: loaded with a non-resident policy but oMLX reports" ++
        " pinned=true (external pin state drift)"))
    else return .ok ()

/-- What is no postcondition failure after the engine's acceptance leaves the load unconfirmed. -/
def confirmError (id : String) : BackendError → BackendError
  | .loadPostconditionFailed modelId message => .loadPostconditionFailed modelId message
  | other => .loadUnconfirmed id other.display

/-- Pinned for a resident policy, and not pinned for any other. -/
def confirm (id : String) (policy : Option LoadPolicy) : Call N (Except BackendError Unit) :=
  if policy.map LoadPolicy.mode = some .resident then adapter.pin id
  else adapter.checkNotUnexpectedlyPinned id

def load (id : String) (policy : Option LoadPolicy) : Call N (Except BackendError Unit) := do
  match ← adapter.sendAndDiscard .post (loadPath id) (some id) with
  | .error err => return .error err
  | .ok () =>
    let confirmed ← adapter.confirm id policy
    return confirmed.mapError (confirmError id)

end OmlxAdapter

end Omlx
