import Tollgate.Http.Message

/-! # The target of a tunnel

A tunnel leads to the authority of the request target.  A request whose target has none is
asked for its host header instead.  Either way a host and a port have to be there.
-/

namespace Tollgate

inductive TargetFault where
  | missing
  | invalid (fault : UriFault)
  | noPort (authority : Uri.Authority)
  deriving DecidableEq, Repr

def TargetFault.message : TargetFault → String
  | .missing => "missing target"
  | .invalid fault => "invalid target: " ++ fault.message
  | .noPort authority => "target " ++ authority.text ++ " has no port"

namespace Request

/-- The text of the host header, if it is readable and not empty. -/
def hostText? (r : Request) : Option String :=
  match r.headers.first? "host" with
  | none => none
  | some value => (readable? value).filter fun text => !text.isEmpty

def namedAuthority (r : Request) : Except TargetFault Uri.Authority :=
  match r.target.authority with
  | some authority => .ok authority
  | none =>
    match r.hostText? with
    | none => .error .missing
    | some text =>
      match Uri.Authority.ofText text with
      | .ok authority => .ok authority
      | .error e => .error (.invalid e)

/-- The authority that a request asks to be connected with: it has a host and a port. -/
def tunnelTarget (r : Request) : Except TargetFault Uri.Authority :=
  match r.namedAuthority with
  | .error e => .error e
  | .ok authority =>
    if authority.host.isEmpty || authority.port?.isNone then .error (.noPort authority)
    else .ok authority

end Request

end Tollgate
