import Tollgate.Http.MediaType
import Tollgate.Http.Uri
import Tollgate.Json.Field

/-! # Requests and responses

* `Headers` — header lines; names are compared in small letters and the first line of a name
  counts;
* `Request`, `Response` — messages, as far as the services look at them;
* `Response.json`, `Response.failure` — answers with a JSON body;
* `Request.jsonBody` — a body as a value of a known type, or why it is not one.
-/

namespace Tollgate

/-! ## Headers -/

/-- Header lines in their order: names in small letters, and the octets of their values. -/
abbrev Headers := List (String × Octets)

namespace Headers

/-- Header lines whose names may have capitals. -/
def ofLines (lines : List (String × Octets)) : Headers :=
  lines.map fun l => (lowered l.1, l.2)

def first? (h : Headers) (name : String) : Option Octets :=
  (h.find? fun l => l.1 = name).map (·.2)

end Headers

/-- Whether an octet is a visible ASCII character, a space or a tab. -/
def isReadableOctet (b : UInt8) : Bool := (32 ≤ b && b ≤ 126) || b = 9

/-- A header value as text; values with other octets have none. -/
def readable? (value : Octets) : Option String :=
  if value.all isReadableOctet then
    some (String.ofList (value.map fun b => Char.ofNat b.toNat))
  else none

/-! ## Messages -/

structure Request where
  method : String
  target : Uri
  headers : Headers
  body : Octets := []
  deriving Repr

structure Response where
  status : Nat
  headers : List (String × String) := []
  body : Octets := []
  deriving DecidableEq, Repr

namespace Response

def empty (status : Nat) : Response := { status }

def plain (status : Nat) (text : String) : Response :=
  { status, headers := [("content-type", "text/plain; charset=utf-8")],
    body := Octets.ofString text }

def json (status : Nat) (body : Octets) : Response :=
  { status, headers := [("content-type", "application/json")], body }

/-- The body of every failure: a message for people and a code for programs. -/
def failureBody (message code : String) : Octets :=
  Json.renderMembers [("error", Json.renderText message), ("code", Json.renderText code)]

def failure (status : Nat) (message code : String) : Response :=
  json status (failureBody message code)

def withHeader (r : Response) (name value : String) : Response :=
  { r with headers := r.headers ++ [(name, value)] }

/-- The response to a request that asked for the head alone. -/
def withoutBody (r : Response) : Response := { r with body := [] }

def isSuccess (r : Response) : Bool := 200 ≤ r.status && r.status < 300

end Response

/-! ## Bodies -/

inductive BodyFault where
  /-- The request does not say that its body is JSON. -/
  | notJson
  | tooLong
  | unreadable
  /-- The body is JSON, but not of the wanted type. -/
  | unfit (fault : Json.Fault)
  deriving DecidableEq, Repr

def BodyFault.message : BodyFault → String
  | .notJson => "Expected request with `Content-Type: application/json`"
  | .tooLong => "Failed to buffer the request body: length limit exceeded"
  | .unreadable => "Failed to parse the request body as JSON"
  | .unfit fault =>
    "Failed to deserialize the JSON body into the target type: " ++ fault.message

def bodyLimit : Nat := 2 * 1024 * 1024

namespace Request

def saysJson (r : Request) : Bool :=
  match r.headers.first? "content-type" with
  | none => false
  | some value =>
    value.all isReadableOctet
      && match MediaType.ofText? value with
        | some m => m.isJson
        | none => false

def jsonBody {α : Type} (reader : Nat → Json.Reader α) (r : Request) : Except BodyFault α :=
  if !r.saysJson then .error .notJson
  else if bodyLimit < r.body.length then .error .tooLong
  else
    match Json.document reader r.body with
    | .ok a => .ok a
    | .error .truncated => .error .unreadable
    | .error .malformed => .error .unreadable
    | .error fault => .error (.unfit fault)

end Request

/-! ## Methods -/

/-- Whether a path that is served with one method takes a request with another: a request for
    the head alone is answered like one for the whole. -/
def takesMethod (served requested : String) : Bool :=
  requested = served || (served = "GET" && requested = "HEAD")

/-- The methods that a path takes, as the `allow` header lists them. -/
def allowedMethods (served : String) : String := if served = "GET" then "GET,HEAD" else served

def wrongMethod (served : String) : Response :=
  (Response.empty 405).withHeader "allow" (allowedMethods served)

/-- The answer as it is sent: one to a request for the head alone has no body. -/
def Response.sentTo (r : Response) (request : Request) : Response :=
  if request.method = "HEAD" then r.withoutBody else r

end Tollgate
