/-! # What the control server serves

Every path has one method.  Five paths are public; the others stand behind the guard.

* `Endpoint` — what is served;
* `Endpoint.ofPath?` — the endpoint that a path names;
* `Endpoint.method`, `Endpoint.isPublic` — how it is asked for, and by whom;
* `Operation` — the description of an endpoint for those who write clients.
-/

namespace Tollgate

inductive Endpoint where
  | keySet
  | health
  | token
  | servers
  /-- The description of all operations. -/
  | catalog
  | register
  /-- The end of a registration; the path names its removal token, with percent signs. -/
  | deregister (segment : String)
  | revoked
  | revoke
  deriving DecidableEq, Repr

namespace Endpoint

def removalPath : String := "/api/v1/server/"

def afterStart? : List Char → List Char → Option (List Char)
  | [], cs => some cs
  | _ :: _, [] => none
  | a :: start, c :: cs => if a = c then afterStart? start cs else none

/-- The removal token that a path names: one segment that is not empty. -/
def removalSegment? (path : String) : Option String :=
  match afterStart? removalPath.toList path.toList with
  | some segment =>
    if segment.isEmpty || segment.contains '/' then none else some (String.ofList segment)
  | none => none

def ofPath? (path : String) : Option Endpoint :=
  match path with
  | "/.well-known/jwks.json" => some .keySet
  | "/api/v1/health" => some .health
  | "/api/v1/token" => some .token
  | "/api/v1/servers" => some .servers
  | "/api/openapi.json" => some .catalog
  | "/api/v1/server" => some .register
  | "/api/v1/revoked" => some .revoked
  | "/api/v1/revoke" => some .revoke
  | other => (removalSegment? other).map .deregister

def method : Endpoint → String
  | .keySet | .health | .token | .servers | .catalog | .revoked => "GET"
  | .register | .revoke => "POST"
  | .deregister _ => "DELETE"

def isPublic : Endpoint → Bool
  | .keySet | .health | .token | .servers | .catalog => true
  | .register | .deregister _ | .revoked | .revoke => false

end Endpoint

structure Operation where
  method : String
  path : String
  tag : String
  summary : String
  /-- The statuses of its answers, with what they mean. -/
  answers : List (Nat × String)
  deriving DecidableEq, Repr

/-- The operations, in the order of their paths. -/
def operations : List Operation :=
  [ { method := "get", path := "/.well-known/jwks.json", tag := "keys"
      summary := "Published verification keys, including retired keys still in their grace period"
      answers := [(200, "Key set"), (404, "No keys published"), (500, "Key store failure")] },
    { method := "get", path := "/api/v1/health", tag := "system"
      summary := "Liveness probe"
      answers := [(200, "Service is up")] },
    { method := "post", path := "/api/v1/revoke", tag := "admin"
      summary := "Revoke a token by its identifier"
      answers :=
        [(200, "Token revoked"), (400, "Invalid body or missing identifier"),
          (401, "Missing or wrong admin secret")] },
    { method := "get", path := "/api/v1/revoked", tag := "admin"
      summary := "Every revoked token id, for proxies to mirror"
      answers := [(200, "Revoked token ids"), (401, "Missing or wrong admin secret")] },
    { method := "post", path := "/api/v1/server", tag := "fleet"
      summary := "Register a proxy server"
      answers :=
        [(200, "Registered"), (400, "Invalid registration"),
          (401, "Missing or wrong admin secret")] },
    { method := "delete", path := "/api/v1/server/\x7brevocation_token\x7d", tag := "fleet"
      summary := "Remove the registration owning a revocation token"
      answers :=
        [(200, "Removed"), (401, "Missing or wrong admin secret"), (404, "Unknown token")] },
    { method := "get", path := "/api/v1/servers", tag := "fleet"
      summary := "Public fleet listing"
      answers := [(200, "Registered proxy servers"), (500, "Directory failure")] },
    { method := "get", path := "/api/v1/token", tag := "tokens"
      summary := "Issue a short-lived capability token"
      answers := [(200, "Signed token"), (500, "Key rotation or signing failed")] } ]

end Tollgate
