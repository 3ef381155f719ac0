import Tollgate.Rsa.Encoding
import Tollgate.Token.Claims

/-! # Tokens in compact form

A token is three base64 segments between dots: a header, the claims and a signature.  It is
read in two steps: the header first, which tells the key to look up, and then the claims
under that key.

* `TokenHeader` — what of the header matters;
* `UnverifiedToken.parse` — a token whose header is decoded and nothing is trusted;
* `UnverifiedToken.verify` — the claims, if the signature is right and they are valid;
* `UnverifiedToken.unsignedClaims` — the claims of a token that says it is unsigned;
* `Claims.encodeUnsigned`, `Claims.sign` — making tokens.
-/

namespace Tollgate

/-! ## Faults -/

inductive FormFault where
  | segments
  | headerEncoding (fault : Base64.Fault)
  | payloadEncoding (fault : Base64.Fault)
  | header (fault : Json.Fault)
  deriving DecidableEq, Repr

def FormFault.message : FormFault → String
  | .segments => "expected three segments"
  | .headerEncoding fault => "header encoding: " ++ fault.message
  | .payloadEncoding fault => "payload encoding: " ++ fault.message
  | .header fault => "header: " ++ fault.message

/-- Why a token was refused, or could not be made. -/
inductive TokenFault where
  | malformed (fault : FormFault)
  | unsupportedAlgorithm (name : String)
  | badSignature
  | expired
  | invalidClaims (fault : Json.Fault)
  | signatureEncoding (fault : Base64.Fault)
  | unfitKey
  deriving DecidableEq, Repr

def TokenFault.message : TokenFault → String
  | .malformed fault => "Malformed token: " ++ fault.message
  | .unsupportedAlgorithm name => "Unsupported signing algorithm '" ++ name ++ "'"
  | .badSignature => "Signature verification failed"
  | .expired => "Token expired"
  | .invalidClaims fault => "Invalid claims: " ++ fault.message
  | .signatureEncoding _ => "JWT error: Base64 error"
  | .unfitKey => "JWT error: RSA key invalid"

/-! ## Header -/

structure TokenHeader where
  algorithm : String
  kind : Option String
  keyId : Option KeyId
  deriving DecidableEq, Repr

namespace TokenHeader

structure Draft where
  algorithm : Option String := none
  kind : Option (Option String) := none
  keyId : Option (Option KeyId) := none

def readMember (rounds : Nat) (d : Draft) (name : String) : Json.Reader Draft :=
  match name with
  | "alg" => Json.unlessSeen d.algorithm name
      (Json.into (fun v => { d with algorithm := some v }) (Json.readString rounds))
  | "typ" => Json.unlessSeen d.kind name
      (Json.into (fun v => { d with kind := some v }) (Json.readOptional (Json.readString rounds)))
  | "kid" => Json.unlessSeen d.keyId name
      (Json.into (fun v => { d with keyId := some v }) (Json.readOptional (KeyId.read rounds)))
  | _ => Json.ignore d rounds

/-- Read a header written as an object, after its opening brace. -/
def readObject (rounds : Nat) : Json.Reader TokenHeader := fun s =>
  match Json.members (readMember rounds) rounds true {} s with
  | .error e => .error e
  | .ok (d, s) =>
    match Json.require d.algorithm "alg" with
    | .ok algorithm => .ok (⟨algorithm, d.kind.join, d.keyId.join⟩, s)
    | .error e => .error e

/-- Read a header written as a list, after its opening bracket. -/
def readFields (rounds : Nat) : Json.Reader TokenHeader := fun s => do
  let (algorithm, s) ←
    Json.nextField 0 "struct TokenHeader with 3 elements" (Json.readString rounds) s
  let (kind, s) ← Json.nextFieldOr 1 none (Json.readOptional (Json.readString rounds)) s
  let (keyId, s) ← Json.nextFieldOr 2 none (Json.readOptional (KeyId.read rounds)) s
  return (⟨algorithm, kind, keyId⟩, s)

def read (rounds : Nat) : Json.Reader TokenHeader :=
  Json.readRecord "struct TokenHeader" (readObject rounds) (readFields rounds) rounds

def isUnsigned (h : TokenHeader) : Bool := equalIgnoringCase h.algorithm "none"

end TokenHeader

/-- The digest that an accepted signing algorithm uses. -/
def acceptedAlgorithm? (name : String) : Option Rsa.Digest :=
  match name with
  | "RS256" => some .sha256
  | "RS384" => some .sha384
  | "RS512" => some .sha512
  | _ => none

/-! ## Parsing -/

def dot : UInt8 := 46

def splitDots : Octets → List Octets
  | [] => [[]]
  | b :: s =>
    if b = dot then [] :: splitDots s
    else
      match splitDots s with
      | [] => [[b]]
      | part :: parts => (b :: part) :: parts

/-- A token whose segments were separated and whose header was decoded. -/
structure UnverifiedToken where
  /-- The first two segments with the dot between them, over which the signature is made. -/
  signingInput : Octets
  signature : Octets
  header : TokenHeader
  payload : Octets
  deriving DecidableEq, Repr

namespace UnverifiedToken

/-- Take a token apart.  The header's text is decoded first, then the payload's, and then
    the header is read. -/
def parse (raw : Octets) : Except TokenFault UnverifiedToken :=
  match splitDots raw with
  | [h, p, s] =>
    if h.isEmpty || p.isEmpty then .error (.malformed .segments)
    else
      match Base64.decode .urlSafe .absent h with
      | .error e => .error (.malformed (.headerEncoding e))
      | .ok header =>
        match Base64.decode .urlSafe .absent p with
        | .error e => .error (.malformed (.payloadEncoding e))
        | .ok payload =>
          match Json.document TokenHeader.read header with
          | .error e => .error (.malformed (.header e))
          | .ok header => .ok ⟨h ++ dot :: p, s, header, payload⟩
  | _ => .error (.malformed .segments)

def claims (t : UnverifiedToken) : Except TokenFault Claims :=
  match Claims.decode t.payload with
  | .ok c => .ok c
  | .error e => .error (.invalidClaims e)

def unexpiredClaims (t : UnverifiedToken) (now : Instant) : Except TokenFault Claims :=
  match t.claims with
  | .error e => .error e
  | .ok c => if c.isExpired now then .error .expired else .ok c

/-- The claims of a signed token: the algorithm is an accepted one, the signature is right
    under the key, and the claims are still valid. -/
def verify (t : UnverifiedToken) (key : Rsa.PublicKey) (now : Instant) :
    Except TokenFault Claims :=
  match acceptedAlgorithm? t.header.algorithm with
  | none => .error (.unsupportedAlgorithm t.header.algorithm)
  | some digest =>
    match Base64.decode .urlSafe .absent t.signature with
    | .error e => .error (.signatureEncoding e)
    | .ok signature =>
      if key.accepts digest t.signingInput signature then t.unexpiredClaims now
      else .error .badSignature

def unsignedClaims (t : UnverifiedToken) (now : Instant) : Except TokenFault Claims :=
  if t.header.isUnsigned then t.unexpiredClaims now
  else .error (.unsupportedAlgorithm t.header.algorithm)

end UnverifiedToken

/-! ## Making tokens -/

/-- A segment: base64 without padding in the URL-safe alphabet. -/
def segment (o : Octets) : Octets := Base64.encode .urlSafe .absent o

def unsignedHeader : Octets :=
  Json.renderMembers [("alg", Json.renderText "none"), ("typ", Json.renderText "JWT")]

def signedHeader (k : KeyId) : Octets :=
  Json.renderMembers
    [("typ", Json.renderText "JWT"), ("alg", Json.renderText "RS256"), ("kid", k.render)]

namespace Claims

/-- An unsigned token: its signature is empty. -/
def encodeUnsigned (c : Claims) : Octets :=
  segment unsignedHeader ++ dot :: (segment c.render ++ [dot])

/-- The claims signed by a private key under a key identifier. -/
def sign (c : Claims) (key : Rsa.PrivateKey) (kid : KeyId) : Except TokenFault Octets :=
  let input := segment (signedHeader kid) ++ dot :: segment c.render
  match key.sign? .sha256 input with
  | some signature => .ok (input ++ dot :: segment signature)
  | none => .error .unfitKey

end Claims

end Tollgate
