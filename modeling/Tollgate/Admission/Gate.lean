import Tollgate.Http.Message
import Tollgate.Key.Directory
import Tollgate.Revoked
import Tollgate.Token.Compact

/-! # The gate

Every tunnel request carries a token in a header.  The gate lets a request through after a
fixed list of checks, and the first check that fails decides the refusal.

* `GateConfig.extract` — the token in the header;
* `GateConfig.present` — the token, parsed, and whether a key has to be looked up for it;
* `GateConfig.judge` — the checks on verified claims: identifier, revocation, capabilities;
* `GateConfig.authorize` — all of it, with a lookup that nobody interrupts;
* `Refusal` — the reasons, their codes, and what a client is told.
-/

namespace Tollgate

structure GateConfig where
  /-- The header that carries the token, in small letters. -/
  header : String := "proxy-authorization"
  scheme : String := "Bearer"
  /-- Capabilities that every token has to carry. -/
  required : List Capability := [.connectTcp]
  allowUnsigned : Bool := false
  deriving DecidableEq, Repr, Inhabited

structure AuthorizedToken where
  tokenId : TokenId
  keyId : Option KeyId
  claims : Claims
  unsigned : Bool
  deriving Repr

/-! ## Refusals -/

inductive InvalidToken where
  | emptyToken
  | missingKeyId
  | rejected (fault : TokenFault)
  deriving DecidableEq, Repr

def InvalidToken.message : InvalidToken → String
  | .emptyToken => "empty token"
  | .missingKeyId => "missing kid"
  | .rejected fault => fault.message

inductive Refusal where
  | noHeader
  | invalidScheme
  | invalidToken (reason : InvalidToken)
  | missingTokenId
  | revoked
  | missingPermission (capability : Capability)
  | keyNotFound (fault : ResolveFault)
  deriving DecidableEq, Repr

namespace Refusal

def code : Refusal → String
  | .noHeader => "NO_AUTH_HEADER"
  | .invalidScheme => "INVALID_AUTH_SCHEME"
  | .invalidToken _ => "INVALID_TOKEN"
  | .missingTokenId => "MISSING_JTI"
  | .revoked => "TOKEN_REVOKED"
  | .missingPermission _ => "MISSING_PERMISSION"
  | .keyNotFound _ => "KEY_NOT_FOUND"

/-- The full wording, for those who run the service. -/
def message : Refusal → String
  | .noHeader => "No authorization header"
  | .invalidScheme => "Invalid authorization scheme"
  | .invalidToken reason => "Invalid token: " ++ reason.message
  | .missingTokenId => "Token has no jti"
  | .revoked => "Token revoked"
  | .missingPermission capability => "Missing permission: " ++ capability.name
  | .keyNotFound fault => "Signing key not found: " ++ fault.message

/-- What a client is told: no details of tokens and keys. -/
def publicMessage : Refusal → String
  | .invalidToken _ => "Invalid token"
  | .keyNotFound _ => "Unknown signing key"
  | other => other.message

def response (r : Refusal) : Response :=
  (Response.failure 401 r.publicMessage r.code).withHeader "www-authenticate" "Bearer"

end Refusal

/-! ## The checks -/

def isBlank (c : Char) : Bool := c = ' ' || c = '\t'

def trimBlanks (cs : List Char) : List Char :=
  ((cs.dropWhile isBlank).reverse.dropWhile isBlank).reverse

inductive Presented where
  | unsigned (token : UnverifiedToken) (claims : Claims)
  | signed (token : UnverifiedToken) (key : KeyId)

namespace GateConfig

/-- The token in the header: what follows the scheme and a space. -/
def extract (g : GateConfig) (h : Headers) : Except Refusal String :=
  match h.first? g.header with
  | none => .error .noHeader
  | some value =>
    match readable? value with
    | none => .error .invalidScheme
    | some text =>
      let scheme := text.toList.takeWhile (· ≠ ' ')
      match text.toList.dropWhile (· ≠ ' ') with
      | [] => .error .invalidScheme
      | _ :: rest =>
        if !equalIgnoringCase (String.ofList scheme) g.scheme then .error .invalidScheme
        else
          let token := trimBlanks rest
          if token.isEmpty then .error (.invalidToken .emptyToken)
          else .ok (String.ofList token)

/-- The token of a request, as far as it can be judged without a key. -/
def present (g : GateConfig) (h : Headers) (now : Instant) : Except Refusal Presented :=
  match g.extract h with
  | .error e => .error e
  | .ok raw =>
    match UnverifiedToken.parse (Octets.ofString raw) with
    | .error e => .error (.invalidToken (.rejected e))
    | .ok token =>
      if g.allowUnsigned && token.header.isUnsigned then
        match token.unsignedClaims now with
        | .ok claims => .ok (.unsigned token claims)
        | .error e => .error (.invalidToken (.rejected e))
      else
        -- Only what is to be verified has to name its key.
        match token.header.keyId with
        | some key => .ok (.signed token key)
        | none => .error (.invalidToken .missingKeyId)

/-- The checks on the claims of a token whose signature is right or not needed. -/
def judge (g : GateConfig) (r : RevokedSet) (claims : Claims) (key : Option KeyId)
    (unsigned : Bool) : Except Refusal AuthorizedToken :=
  match claims.tokenId with
  | none => .error .missingTokenId
  | some id =>
    if r.isRevoked id then .error .revoked
    else
      match g.required.find? fun capability => !claims.grants capability with
      | some capability => .error (.missingPermission capability)
      | none => .ok ⟨id, key, claims, unsigned⟩

def judgeSigned (g : GateConfig) (r : RevokedSet) (now : Instant) (token : UnverifiedToken)
    (key : KeyId) (resolution : Resolution) : Except Refusal AuthorizedToken :=
  match resolution with
  | .error e => .error (.keyNotFound e)
  | .ok k =>
    match token.verify k now with
    | .error e => .error (.invalidToken (.rejected e))
    | .ok claims => g.judge r claims (some key) false

/-- Whether a request passes.  `answer` is what the source of keys answers if it is asked;
    the last part of the result tells whether it was. -/
def authorize (g : GateConfig) (h : Headers) (cache : KeyCache) (r : RevokedSet)
    (now : Instant) (answer : KeyAnswer) : Except Refusal AuthorizedToken × KeyCache × Bool :=
  match g.present h now with
  | .error e => (.error e, cache, false)
  | .ok (.unsigned token claims) => (g.judge r claims token.header.keyId true, cache, false)
  | .ok (.signed token key) =>
    let (resolution, cache, fetched) := cache.resolve key answer
    (g.judgeSigned r now token key resolution, cache, fetched)

end GateConfig

end Tollgate
