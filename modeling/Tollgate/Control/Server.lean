import Tollgate.Admission.Revocation
import Tollgate.Control.Catalog
import Tollgate.Control.Config

/-! # The control server

The control server publishes the keys of its authority, issues tokens, keeps the registry of
proxies, and keeps the list of revoked tokens.  Its state changes with each request; what
chance supplies to a request is an argument.

* `ControlServer` — the state;
* `Draws` — what chance supplies;
* `ControlServer.perform` — one operation;
* `ControlServer.serve` — a request: who may ask, and what is answered.
-/

namespace Tollgate

/-- A control server.  Its authority keeps keys in the same store that registrations are kept
    in. -/
structure ControlServer where
  config : ControlConfig
  authority : Authority FleetStore
  revoked : RevokedSet := .empty

/-- What chance supplies to a request, if it is needed. -/
structure Draws where
  key : NewKey
  tokenId : TokenId
  removal : RemovalToken

namespace ControlServer

def start (config : ControlConfig) (authority : AuthorityConfig) : ControlServer :=
  { config, authority := { config := authority, store := FleetStore.keyStore, stored := {} } }

/-- The server with a key that signs, if one can be had. -/
def prepare (s : ControlServer) (now : Instant) (fresh : NewKey) : ControlServer :=
  { s with authority := (s.authority.currentKey now fresh).2 }

def guard (s : ControlServer) : AdminGuard := ⟨s.config.adminSecret⟩

def fleet (s : ControlServer) : FleetStore := s.authority.stored

def withFleet (s : ControlServer) (f : FleetStore) : ControlServer :=
  { s with authority := { s.authority with stored := f } }

/-! ## Operations -/

def listing (name : String) (items : List Octets) : Octets :=
  Json.renderMembers [(name, Json.renderItems items)]

def keySet (s : ControlServer) (now : Instant) (d : Draws) : Response × ControlServer :=
  match s.authority.publishableKeys now d.key with
  | (.error _, authority) =>
    (Response.failure 500 "Failed to retrieve signing keys" "KEY_STORE_ERROR",
      { s with authority })
  | (.ok [], authority) =>
    (Response.failure 404 "No signing keys found" "NO_KEYS", { s with authority })
  | (.ok keys, authority) =>
    (Response.json 200 (listing "keys" (keys.map PublishedKey.render)), { s with authority })

def issue (s : ControlServer) (now : Instant) (d : Draws) : Response × ControlServer :=
  match s.authority.issueToken now d.key d.tokenId s.config.tokenValidity
      s.config.tokenCapabilities with
  | (.error _, authority) =>
    (Response.failure 500 "Failed to sign token" "SIGNING_FAILED", { s with authority })
  | (.ok token, authority) =>
    (Response.json 200 (Json.renderMembers [("token", Json.renderText token.toTextLossy)]),
      { s with authority })

def servers (s : ControlServer) (now : Instant) : Response × ControlServer :=
  let (servers, fleet) := s.fleet.servers now
  (Response.json 200 (listing "servers" (servers.map ProxyServer.render)), s.withFleet fleet)

def register (s : ControlServer) (now : Instant) (d : Draws) (request : Request) :
    Response × ControlServer :=
  match request.jsonBody ProxyServer.read with
  | .error _ => (Response.failure 400 "Invalid request payload" "INVALID_BODY", s)
  | .ok server =>
    match server.validate with
    | .error e => (Response.failure 400 e.message "INVALID_SERVER", s)
    | .ok () =>
      (Response.json 200
          (Json.renderMembers [("revocationToken", Json.renderText d.removal.text)]),
        s.withFleet (s.fleet.addServer now ⟨server, d.removal⟩ s.config.serverTtl))

def deregister (s : ControlServer) (segment : String) : Response × ControlServer :=
  match Octets.toText? (percentDecode (Octets.ofString segment)) with
  | none => (Response.plain 400 "Invalid URL: Invalid UTF-8 in `revocation_token`", s)
  | some token =>
    match s.fleet.removeServer ⟨token⟩ with
    | (true, fleet) => (Response.empty 200, s.withFleet fleet)
    | (false, _) => (Response.failure 404 "Server not found" "NOT_FOUND", s)

def revokedList (s : ControlServer) : Response :=
  Response.json 200
    (listing "revoked" (s.revoked.snapshot.map TokenId.render))

def perform (s : ControlServer) (now : Instant) (d : Draws) (request : Request) :
    Endpoint → Response × ControlServer
  | .keySet => s.keySet now d
  | .health => (Response.plain 200 "OK", s)
  | .token => s.issue now d
  | .servers => s.servers now
  | .catalog => (Response.json 200 Catalog.document.render, s)
  | .register => s.register now d request
  | .deregister segment => s.deregister segment
  | .revoked => (s.revokedList, s)
  | .revoke =>
    let (response, revoked) := Tollgate.revoke s.revoked request
    (response, { s with revoked })

/-! ## Requests -/

/-- What a request may have: its endpoint, or the answer that takes its place.  Whoever asks for
    a path that is not served has to pass the guard to learn that. -/
def route (s : ControlServer) (request : Request) : Except Response Endpoint :=
  match Endpoint.ofPath? request.target.path with
  | none =>
    match s.guard.check request.headers with
    | .ok () => .error (Response.empty 404)
    | .error e => .error e.response
  | some endpoint =>
    if endpoint.isPublic then
      if takesMethod endpoint.method request.method then .ok endpoint
      else .error (wrongMethod endpoint.method)
    else
      match s.guard.protect endpoint.method request with
      | .ok () => .ok endpoint
      | .error refusal => .error refusal

/-- Whether answering a request takes a new signing key. -/
def needsKey (s : ControlServer) (now : Instant) (request : Request) : Bool :=
  match s.route request with
  | .ok .keySet | .ok .token => (s.authority.current.live? now).isNone
  | _ => false

def serve (s : ControlServer) (now : Instant) (d : Draws) (request : Request) :
    Response × ControlServer :=
  match s.route request with
  | .error refusal => (refusal.sentTo request, s)
  | .ok endpoint =>
    let (response, s) := s.perform now d request endpoint
    (response.sentTo request, s)

end ControlServer

end Tollgate
