import Tollgate.Time
import Tollgate.Token.Identifier

/-! # Claims

The payload of a token: who issued it, until when it is valid, its identifier, the key that
signed it, and any further claims.  Capabilities are further claims that are true.

* `Claims.read`, `Claims.decode` — claims from JSON: an object whose known members have
  their types and occur once; every other member is kept as data;
* `Claims.render` — claims as JSON, the known members first;
* `Claims.grants` — which capabilities the claims carry;
* `Claims.isExpired` — the end of validity is not part of it.
-/

namespace Tollgate

structure Capability where
  name : String
  deriving DecidableEq, Repr, Inhabited

def Capability.connectTcp : Capability := ⟨"connect-tcp"⟩

structure Claims where
  issuer : Option String
  /-- The timestamp at which the token ceases to be valid. -/
  expires : Int
  /-- The name by which the token can be revoked. -/
  tokenId : Option TokenId
  keyId : Option KeyId
  /-- All further claims, in the order of their names. -/
  extra : List (String × Json.Value)
  deriving Repr, Inhabited

namespace Claims

/-! ## Reading -/

structure Draft where
  issuer : Option (Option String) := none
  expires : Option Int := none
  tokenId : Option (Option TokenId) := none
  keyId : Option (Option KeyId) := none
  extra : List (String × Json.Value) := []

def readMember (rounds : Nat) (d : Draft) (name : String) : Json.Reader Draft :=
  match name with
  | "iss" => Json.unlessSeen d.issuer name
      (Json.into (fun v => { d with issuer := some v })
        (Json.readOptional (Json.readString rounds)))
  | "exp" => Json.unlessSeen d.expires name
      (Json.into (fun v => { d with expires := some v }) (Json.readInt64 rounds))
  | "jti" => Json.unlessSeen d.tokenId name
      (Json.into (fun v => { d with tokenId := some v })
        (Json.readOptional (TokenId.read rounds)))
  | "kid" => Json.unlessSeen d.keyId name
      (Json.into (fun v => { d with keyId := some v }) (Json.readOptional (KeyId.read rounds)))
  -- The last of equally named members is kept.
  | _ =>
      Json.into (fun v => { d with extra := Sorted.insert name v d.extra })
        (Json.readValue rounds (Json.maxLevels - 1))

/-- The claims that were read; the end of validity has to be among them. -/
def ofDraft (d : Draft) : Except Json.Fault Claims :=
  match Json.require d.expires "exp" with
  | .ok expires => .ok ⟨d.issuer.join, expires, d.tokenId.join, d.keyId.join, d.extra⟩
  | .error e => .error e

def read (rounds : Nat) : Json.Reader Claims := fun s =>
  match Json.readScalar rounds s with
  | .error e => .error e
  | .ok (.map, s) =>
    match Json.members (readMember rounds) rounds true {} (s.drop 1) with
    | .error e => .error e
    | .ok (d, s) =>
      match ofDraft d with
      | .ok c => .ok (c, s)
      | .error e => .error e
  | .ok (found, _) => .error (.wrongType found "struct TokenClaims")

def decode (s : Octets) : Except Json.Fault Claims := Json.document read s

/-! ## Writing -/

/-- The known members in their order, absent ones left out. -/
def knownMembers (c : Claims) : List (String × Octets) :=
  (c.issuer.map fun s => ("iss", Json.renderText s)).toList
    ++ [("exp", Json.renderInt c.expires)]
    ++ (c.tokenId.map fun t => ("jti", t.render)).toList
    ++ (c.keyId.map fun k => ("kid", k.render)).toList

def render (c : Claims) : Octets :=
  Json.renderMembers (c.knownMembers ++ Json.renderNamed c.extra)

/-! ## Making and using claims -/

/-- Claims that are valid for a span from now on, under a fresh identifier. -/
def mint (issuer : String) (validity : Span) (now : Instant) (id : TokenId) : Claims :=
  { issuer := some issuer
    expires := (now.add validity).seconds
    tokenId := some id
    keyId := none
    extra := [] }

def withKeyId (c : Claims) (k : KeyId) : Claims := { c with keyId := some k }

def withTokenId (c : Claims) (t : Option TokenId) : Claims := { c with tokenId := t }

def withCapability (c : Claims) (cap : Capability) : Claims :=
  { c with extra := Sorted.insert cap.name (.bool true) c.extra }

def withCapabilities (c : Claims) (caps : List Capability) : Claims :=
  caps.foldl withCapability c

/-- Whether the claims carry a capability: as `true`, or as the string `true`. -/
def grants (c : Claims) (cap : Capability) : Bool :=
  match Sorted.find? cap.name c.extra with
  | some (.bool b) => b
  | some (.text s) => s == "true"
  | _ => false

def isExpired (c : Claims) (now : Instant) : Bool := c.expires ≤ now.seconds

end Claims

end Tollgate
