import Tollgate.Control.Endpoint
import Tollgate.Json.Printer

/-! # The catalog

A description of the control server's operations in the OpenAPI format: what can be asked
for, which statuses the answers have, and the names of the records in bodies.
-/

namespace Tollgate.Catalog

def title : String := "Waypost Control API"

def version : String := "0.1.0"

def description : String := "Signing keys, capability tokens and proxy fleet registry"

/-- The records that stand in bodies, in the order of their names. -/
def records : List String :=
  ["ErrorResponse", "Jwks", "ProxyServer", "RegisterResponse", "RevokeRequest",
    "RevokeResponse", "RevokedList", "ServerList", "TokenResponse"]

/-- The groups of operations with what they are about. -/
def tags : List (String × String) :=
  [("keys", "Published verification keys"), ("tokens", "Capability token issuance"),
    ("fleet", "Proxy server registry"), ("admin", "Token revocation"),
    ("system", "System health")]

def ofOperation (o : Operation) : String × Json.Value :=
  (o.method, .ofMembers
    [("tags", .list [.text o.tag]), ("summary", .text o.summary),
      ("responses", .ofMembers
        (o.answers.map fun a => (a.1.repr, .ofMembers [("description", .text a.2)])))])

def document : Json.Value :=
  .ofMembers
    [("openapi", .text "3.1.0"),
      ("info", .ofMembers
        [("title", .text title), ("version", .text version),
          ("description", .text description)]),
      ("paths", .ofMembers (operations.map fun o => (o.path, .ofMembers [ofOperation o]))),
      ("components", .ofMembers
        [("schemas", .ofMembers
          (records.map fun name => (name, .ofMembers [("type", .text "object")])))]),
      ("tags", .list (tags.map fun t =>
        .ofMembers [("name", .text t.1), ("description", .text t.2)]))]

end Tollgate.Catalog
