import Tollgate.Key.Published
import Tollgate.Token.Compact

/-! # Signing keys

* `SigningKey.published` — the record of the public half;
* `SigningKey.sign` — a token: the key's own identifier replaces any other in the claims;
* `SigningKey.isExpired` — the end of validity is not part of it.
-/

namespace Tollgate

/-- A private key with its identifier and its end of validity. -/
structure SigningKey where
  keyId : KeyId
  secret : Rsa.PrivateKey
  expiresAt : Instant
  deriving DecidableEq, Repr

namespace SigningKey

def isExpired (k : SigningKey) (now : Instant) : Bool := k.expiresAt.nanos ≤ now.nanos

/-- The record of the public half. -/
def published (k : SigningKey) : PublishedKey :=
  { kind := keyType
    encoded := (Base64.encode .standard .required k.secret.toPublic.toDer).toTextLossy
    keyId := k.keyId
    expires := k.expiresAt.seconds }

/-- The public half in lines of base64, if it can be read back. -/
def publicPem (k : SigningKey) : Except KeyFault String :=
  match Rsa.PublicKey.ofDer? k.secret.toPublic.toDer with
  | some key => .ok key.toPem
  | none => .error .encoding

def sign (k : SigningKey) (c : Claims) : Except TokenFault Octets :=
  (c.withKeyId k.keyId).sign k.secret k.keyId

/-- What may be shown of the key: its identifier and its end, and nothing secret. -/
def describe (k : SigningKey) : String :=
  "SigningKey \x7b kid: KeyId(" ++ quoted k.keyId.text ++ "), expires_at: "
    ++ (Civil.ofSeconds k.expiresAt.seconds).withLetter ++ ", .. \x7d"

end SigningKey

end Tollgate
