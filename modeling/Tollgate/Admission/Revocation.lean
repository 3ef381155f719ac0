import Tollgate.Admission.Guard
import Tollgate.Revoked

/-! # The revocation route

* `RevokeRequest.read` — the body: an identifier as a string or a number; any other value
  counts as none;
* `revoke` — the handler;
* `serveAdmin` — the route alone behind the guard, as a proxy serves it.
-/

namespace Tollgate

structure RevokeRequest where
  tokenId : Option TokenId
  deriving DecidableEq, Repr

namespace RevokeRequest

/-- The scalar that a value is, or its kind. -/
def shapeOf : Json.Value → Json.Shape
  | .null => .null
  | .bool b => .bool b
  | .number n => .number n
  | .text s => .text s
  | .list _ => .sequence
  | .object _ => .map

def tokenIdOf? (v : Json.Value) : Option TokenId :=
  match judgeIdentifier "token id" (shapeOf v) with
  | .ok text => some ⟨text⟩
  | .error _ => none

def readTokenId (rounds : Nat) : Json.Reader (Option TokenId) :=
  Json.into tokenIdOf? (Json.readValue rounds (Json.maxLevels - 1))

/-- Read the value of a member, after the identifier was read or not. -/
def readMember (rounds : Nat) (seen : Option (Option TokenId)) (name : String) :
    Json.Reader (Option (Option TokenId)) :=
  match name with
  | "jti" => Json.unlessSeen seen name (Json.into some (readTokenId rounds))
  | _ => Json.ignore seen rounds

/-- Read a request written as an object, after its opening brace. -/
def readObject (rounds : Nat) : Json.Reader RevokeRequest :=
  Json.into (fun seen => ⟨seen.join⟩) (Json.members (readMember rounds) rounds true none)

/-- Read a request written as a list, after its opening bracket. -/
def readFields (rounds : Nat) : Json.Reader RevokeRequest :=
  Json.into RevokeRequest.mk (Json.nextFieldOr 0 none (readTokenId rounds))

def read (rounds : Nat) : Json.Reader RevokeRequest :=
  Json.readRecord "struct RevokeRequest" (readObject rounds) (readFields rounds) rounds

end RevokeRequest

def revokedResponse : Response :=
  Response.json 200
    (Json.renderMembers
      [("status", Json.renderText "success"), ("message", Json.renderText "Token revoked")])

def revoke (r : RevokedSet) (request : Request) : Response × RevokedSet :=
  match request.jsonBody RevokeRequest.read with
  | .error e => (Response.failure 400 ("Invalid JSON payload: " ++ e.message) "INVALID_BODY", r)
  | .ok ⟨none⟩ => (Response.failure 400 "Missing jti field" "MISSING_JTI", r)
  | .ok ⟨some id⟩ => (revokedResponse, (r.revoke id).2)

/-- The answer of the revocation route alone.  Paths that are not served are answered without
    the guard. -/
def answerAdmin (g : AdminGuard) (r : RevokedSet) (request : Request) : Response × RevokedSet :=
  if request.target.path = "/revoke" then
    match g.protect "POST" request with
    | .ok () => revoke r request
    | .error refusal => (refusal, r)
  else (Response.empty 404, r)

/-- The revocation route alone, as a proxy serves it. -/
def serveAdmin (g : AdminGuard) (r : RevokedSet) (request : Request) : Response × RevokedSet :=
  let (answer, r) := answerAdmin g r request
  (answer.sentTo request, r)

end Tollgate
