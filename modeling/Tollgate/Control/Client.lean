import Tollgate.Fleet.Server
import Tollgate.Key.Directory

/-! # Asking the control server

A proxy asks its control server over HTTP.  What is asked and how answers are read is here;
carrying a request there is left to someone else.

* `ControlClient` — where the control server is, and the secret for admin routes;
* `Question` — the requests of a proxy: `ControlClient.request`;
* `ClientFault` — why an answer is of no use;
* `readServers`, `readRemovalToken`, `readRevoked`, `readKeys` — the answers;
* `keyAnswer` — the control server as a source of keys.
-/

namespace Tollgate

/-- A control server as its clients know it. -/
structure ControlClient where
  /-- What stands before every path; it does not end in a slash. -/
  baseUrl : String
  sharedSecret : String
  deriving DecidableEq, Repr

def withoutFinalSlashes (s : String) : String :=
  String.ofList (s.toList.reverse.dropWhile (· = '/')).reverse

inductive Question where
  | alive
  | servers
  | register (server : ProxyServer)
  | deregister (token : RemovalToken)
  | revoked
  | publishedKeys
  deriving DecidableEq, Repr

namespace Question

def method : Question → String
  | .register _ => "POST"
  | .deregister _ => "DELETE"
  | _ => "GET"

def path : Question → String
  | .alive => "/api/v1/health"
  | .servers => "/api/v1/servers"
  | .register _ => "/api/v1/server"
  | .deregister token => "/api/v1/server/" ++ token.text
  | .revoked => "/api/v1/revoked"
  | .publishedKeys => "/.well-known/jwks.json"

def needsSecret : Question → Bool
  | .register _ | .deregister _ | .revoked => true
  | _ => false

def body? : Question → Option Octets
  | .register server => some server.render
  | _ => none

end Question

structure ClientRequest where
  method : String
  url : String
  authorization : Option String
  body : Option Octets
  deriving DecidableEq, Repr

namespace ControlClient

def ofUrl (url sharedSecret : String) : ControlClient := ⟨withoutFinalSlashes url, sharedSecret⟩

def patience : Span := .ofSeconds 10

def url (c : ControlClient) (path : String) : String := c.baseUrl ++ path

def request (c : ControlClient) (q : Question) : ClientRequest :=
  { method := q.method
    url := c.url q.path
    authorization := if q.needsSecret then some ("Bearer " ++ c.sharedSecret) else none
    body := q.body? }

end ControlClient

/-! ## Answers -/

structure Delivery where
  status : Nat
  body : Octets
  deriving DecidableEq, Repr

def Delivery.isSuccess (d : Delivery) : Bool := 200 ≤ d.status && d.status < 300

/-- Why an answer is of no use. -/
inductive ClientFault where
  /-- Nothing came back. -/
  | transport (reason : String)
  /-- The control server refused. -/
  | status (code : Nat) (body : String)
  /-- The body is not what was asked for. -/
  | undecodable (fault : Json.Fault)
  deriving DecidableEq, Repr

def ClientFault.message : ClientFault → String
  | .transport reason => "Control server request failed: " ++ reason
  | .status code body => "Control server returned " ++ code.repr ++ ": " ++ body
  | .undecodable fault => "Control server request failed: " ++ fault.message

/-- What the way to the control server and back gave: a reason why nothing came back, or what
    came back. -/
abbrev Transport := Except String Delivery

def doneBody : Transport → Except ClientFault Octets
  | .error reason => .error (.transport reason)
  | .ok d =>
    if d.isSuccess then .ok d.body else .error (.status d.status d.body.toTextLossy)

/-- Read a record whose only known member has a given name. -/
def readOnlyMember {α : Type} (name record : String) (reader : Nat → Json.Reader α)
    (rounds : Nat) : Json.Reader α :=
  Json.readRecord ("struct " ++ record)
    (fun s => do
      let (seen, s) ← Json.members (fun (seen : Option α) member =>
        if member = name then
          Json.unlessSeen seen name (Json.into some (reader rounds))
        else Json.ignore seen rounds) rounds true none s
      let value ← Json.require seen name
      return (value, s))
    (Json.nextField 0 ("struct " ++ record ++ " with 1 element") (reader rounds))
    rounds

def readDone {α : Type} (reader : Nat → Json.Reader α) (t : Transport) : Except ClientFault α :=
  match doneBody t with
  | .error e => .error e
  | .ok body =>
    match Json.document reader body with
    | .ok a => .ok a
    | .error e => .error (.undecodable e)

def readAlive : Transport → Bool
  | .ok d => d.isSuccess
  | .error _ => false

def readServers : Transport → Except ClientFault (List ProxyServer) :=
  readDone (readOnlyMember "servers" "ServersResponse" fun rounds =>
    Json.readList (ProxyServer.read rounds) rounds)

def readRemovalToken : Transport → Except ClientFault RemovalToken :=
  readDone (readOnlyMember "revocationToken" "RegisterResponse" fun rounds =>
    Json.into RemovalToken.mk (Json.readString rounds))

def readRemoved (t : Transport) : Except ClientFault Unit :=
  match doneBody t with
  | .ok _ => .ok ()
  | .error e => .error e

def readRevoked : Transport → Except ClientFault (List TokenId) :=
  readDone (readOnlyMember "revoked" "RevokedResponse" fun rounds =>
    Json.readList (TokenId.read rounds) rounds)

def readKeys : Transport → Except ClientFault (List PublishedKey) :=
  readDone (readOnlyMember "keys" "JwksResponse" fun rounds =>
    Json.readList (PublishedKey.read rounds) rounds)

/-- The control server as a source of keys. -/
def keyAnswer (t : Transport) : KeyAnswer :=
  match readKeys t with
  | .ok keys => .ok (keyMap keys)
  | .error (.undecodable fault) => .error (.invalidResponse fault.message)
  | .error other => .error (.unavailable other.message)

end Tollgate
