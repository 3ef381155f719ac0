import Tollgate.Http.Message

/-! # The admin guard

Operators present a shared secret in a header of its own, so that it is never mistaken for
a token.  A guard without a secret admits everyone.
-/

namespace Tollgate

inductive GuardFault where
  | missingHeader
  | invalidFormat
  | wrongSecret
  deriving DecidableEq, Repr

namespace GuardFault

def message : GuardFault → String
  | .missingHeader => "Unauthorized"
  | .invalidFormat => "Invalid authorization format"
  | .wrongSecret => "Unauthorized"

def code : GuardFault → String
  | .missingHeader => "MISSING_AUTH"
  | .invalidFormat => "INVALID_AUTH_FORMAT"
  | .wrongSecret => "INVALID_ADMIN_SECRET"

def response (f : GuardFault) : Response := Response.failure 401 f.message f.code

end GuardFault

/-- A guard with its secret; without one it admits everyone. -/
structure AdminGuard where
  secret : Option String
  deriving DecidableEq, Repr

def bearerMark : Octets := [66, 101, 97, 114, 101, 114, 32]

namespace AdminGuard

def isInsecure (g : AdminGuard) : Bool := g.secret.isNone

/-- Whether a request is admitted: its first authorization line is readable text and is the
    mark followed by the secret. -/
def check (g : AdminGuard) (h : Headers) : Except GuardFault Unit :=
  match g.secret with
  | none => .ok ()
  | some secret =>
    match h.first? "authorization" with
    | none => .error .missingHeader
    | some value =>
      if !value.all isReadableOctet then .error .invalidFormat
      else if !bearerMark.isPrefixOf value then .error .invalidFormat
      else if value.drop bearerMark.length = Octets.ofString secret then .ok ()
      else .error .wrongSecret

/-- The answer of a guarded path that is served with one method.  The guard speaks first; to a
    method that the path does not take, its refusal also lists those it takes. -/
def protect (g : AdminGuard) (served : String) (request : Request) : Except Response Unit :=
  match g.check request.headers with
  | .ok () => if takesMethod served request.method then .ok () else .error (wrongMethod served)
  | .error e =>
    .error (if takesMethod served request.method then e.response
      else e.response.withHeader "allow" (allowedMethods served))

def describe (g : AdminGuard) : String :=
  match g.secret with
  | none => "AdminGuard \x7b secret: None \x7d"
  | some _ => "AdminGuard \x7b secret: Some(\"<redacted>\") \x7d"

end AdminGuard

end Tollgate
