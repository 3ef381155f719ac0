import Tollgate.Rsa.Encoding
import Tollgate.Token.Identifier
import Tollgate.Time

/-! # Published keys

The public half of a signing key as it is served to those who check tokens.

* `PublishedKey.read`, `PublishedKey.render` — the record as JSON;
* `PublishedKey.verifyingKey` — the key in it, if it is one that can check tokens;
* `keyMap` — the usable keys of a list of records, by identifier.
-/

namespace Tollgate

/-- Why a key cannot be made, written or read. -/
inductive KeyFault where
  | generation (reason : String)
  | encoding
  | badText (fault : Base64.Fault)
  /-- The octets of a published key are not a public key. -/
  | badPublicKey
  | unsupportedType (name : String)
  deriving DecidableEq, Repr

def KeyFault.message : KeyFault → String
  | .generation reason => "Key generation failed: " ++ reason
  | .encoding => "Key encoding failed: bad public key"
  | .badText fault => "Key decoding failed: " ++ fault.message
  | .badPublicKey => "Key decoding failed: bad public key"
  | .unsupportedType name => "Unsupported key type '" ++ name ++ "'"

/-- The public record of a signing key. -/
structure PublishedKey where
  kind : String
  encoded : String
  keyId : KeyId
  /-- The timestamp at which the key ceases to sign. -/
  expires : Int
  deriving DecidableEq, Repr, Inhabited

def keyType : String := "RSA"

namespace PublishedKey

/-! ## JSON -/

structure Draft where
  kind : Option String := none
  encoded : Option String := none
  keyId : Option KeyId := none
  expires : Option Int := none

def readMember (rounds : Nat) (d : Draft) (name : String) : Json.Reader Draft :=
  match name with
  | "kty" => Json.unlessSeen d.kind name
      (Json.into (fun v => { d with kind := some v }) (Json.readString rounds))
  | "k" => Json.unlessSeen d.encoded name
      (Json.into (fun v => { d with encoded := some v }) (Json.readString rounds))
  | "kid" => Json.unlessSeen d.keyId name
      (Json.into (fun v => { d with keyId := some v }) (KeyId.read rounds))
  | "expiresAt" => Json.unlessSeen d.expires name
      (Json.into (fun v => { d with expires := some v }) (Json.readInt64 rounds))
  | _ => Json.ignore d rounds

/-- Read a record written as an object, after its opening brace. -/
def readObject (rounds : Nat) : Json.Reader PublishedKey := fun s => do
  let (d, s) ← Json.members (readMember rounds) rounds true {} s
  let kind ← Json.require d.kind "kty"
  let encoded ← Json.require d.encoded "k"
  let keyId ← Json.require d.keyId "kid"
  let expires ← Json.require d.expires "expiresAt"
  return (⟨kind, encoded, keyId, expires⟩, s)

/-- Read a record written as a list, after its opening bracket. -/
def readFields (rounds : Nat) : Json.Reader PublishedKey := fun s => do
  let wanted := "struct PublishedKey with 4 elements"
  let (kind, s) ← Json.nextField 0 wanted (Json.readString rounds) s
  let (encoded, s) ← Json.nextField 1 wanted (Json.readString rounds) s
  let (keyId, s) ← Json.nextField 2 wanted (KeyId.read rounds) s
  let (expires, s) ← Json.nextField 3 wanted (Json.readInt64 rounds) s
  return (⟨kind, encoded, keyId, expires⟩, s)

def read (rounds : Nat) : Json.Reader PublishedKey :=
  Json.readRecord "struct PublishedKey" (readObject rounds) (readFields rounds) rounds

def decode (s : Octets) : Except Json.Fault PublishedKey := Json.document read s

def render (k : PublishedKey) : Octets :=
  Json.renderMembers
    [("kty", Json.renderText k.kind), ("k", Json.renderText k.encoded),
      ("kid", k.keyId.render), ("expiresAt", Json.renderInt k.expires)]

/-! ## Expiry -/

/-- The point in time at which the key ceases to sign, if a date can name it. -/
def expiresAt? (k : PublishedKey) : Option Instant := Instant.ofSeconds? k.expires

/-- Whether the record is out of date: its end lies before 1970 or before now.  In the very
    second of its end it still counts. -/
def isExpired (k : PublishedKey) (now : Instant) : Bool :=
  k.expires < 0 || k.expires < now.seconds

/-! ## The key -/

def verifyingKey (k : PublishedKey) : Except KeyFault Rsa.PublicKey :=
  if equalIgnoringCase k.kind keyType then
    match Base64.decode .standard .required (Octets.ofString k.encoded) with
    | .error e => .error (.badText e)
    | .ok octets =>
      match Rsa.PublicKey.ofDer? octets with
      | some key => .ok key
      | none => .error .badPublicKey
  else .error (.unsupportedType k.kind)

end PublishedKey

/-- Keys that can check tokens, by identifier and in the order of identifiers. -/
abbrev KeyMap := List (KeyId × Rsa.PublicKey)

def KeyMap.addRecord (m : KeyMap) (k : PublishedKey) : KeyMap :=
  match k.verifyingKey with
  | .ok key => Sorted.insert k.keyId key m
  | .error _ => m

/-- The usable keys of a list of records; the last usable record of an identifier counts. -/
def keyMap (records : List PublishedKey) : KeyMap := records.foldl KeyMap.addRecord []

end Tollgate
