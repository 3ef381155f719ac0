import Tollgate.Control.Client
import Tollgate.Control.Endpoint
import Tollgate.Http.Wire

/-! # An exchange with the control server

A question goes to the control server on a connection of its own, and all that comes back until
the connection ends is the answer.

* `plainDestination?` — where a question goes;
* `ClientRequest.wire` — the octets of a question;
* `Delivery.take`, `transportOf` — the answer.
-/

namespace Tollgate

/-! ## Asking -/

/-- What a URL without encryption leads to: an authority, and a path there. -/
def plainDestination? (url : String) : Option (Uri.Authority × String) :=
  match Endpoint.afterStart? "http://".toList url.toList, Uri.ofOctets (Octets.ofString url) with
  | some _, .ok ⟨some authority, path⟩ => some (authority, path)
  | _, _ => none

/-- A request to be sent to an authority, for a path there. -/
def ClientRequest.wire (r : ClientRequest) (authority : Uri.Authority) (path : String) : Octets :=
  let authorization := (r.authorization.map fun value => ("authorization", value)).toList
  let body := match r.body with
    | some body =>
      [("content-type", "application/json"), ("content-length", body.length.repr)]
    | none => []
  headWire (r.method ++ " " ++ path ++ " HTTP/1.1")
      ([("host", authority.text)] ++ authorization ++ body ++ [("connection", "close")])
    ++ r.body.getD []

/-! ## Answers -/

def statusOfLine? (line : Octets) : Option Nat :=
  match wordsOf line with
  | version :: status :: _ => if isVersion version then decimal? status else none
  | _ => none

/-- The answer that is all of what came back on a connection. -/
def Delivery.take (o : Octets) : Arrival Delivery :=
  (Head.take o).andThen fun head rest =>
    match statusOfLine? head.first, Framing.ofHeaders? head.headers .untilEnd with
    | some status, some framing =>
      (framing.take true rest).andThen fun body rest => .complete ⟨status, body⟩ rest
    | _, _ => .malformed

/-- What all octets that came back amount to. -/
def transportOf (o : Octets) : Transport :=
  match Delivery.take o with
  | .complete d _ => .ok d
  | .incomplete => .error "connection closed before message completed"
  | .malformed => .error "invalid HTTP message"

end Tollgate
