import Tollgate.Control.Server

/-! # Requests that break off

Tokens, keys and registrations end a span from now on, and that has to be a date that can be named.
Where it is none, the request that asks for one breaks off: it is never answered, and what was done
before stays done.

* `AuthorityConfig.datesKey`, `Authority.lacksDates` — whether a key that is made now has its dates;
* `ControlServer.breaksOff?` — the server that an operation leaves behind when it breaks off;
* `ControlServer.attempt` — what becomes of a request.
-/

namespace Tollgate

/-- Whether a key that is made now has a date at which it ceases to sign, and one at which the store
    drops it. -/
def AuthorityConfig.datesKey (c : AuthorityConfig) (now : Instant) : Bool :=
  (now.add? c.keyValidity).isSome &&
    match c.keyValidity.add? c.gracePeriod with
    | none => false
    -- The store refuses a span that is not positive before it looks for a date.
    | some lifetime => lifetime.nanos ≤ 0 || (now.add? lifetime).isSome

/-- Whether a key has to be made now and cannot be for want of a date.  Where the key itself is not to
    be had, no date is asked for. -/
def Authority.lacksDates {σ : Type} (a : Authority σ) (now : Instant) (fresh : NewKey) : Bool :=
  (a.current.live? now).isNone && fresh.isOk && !a.config.datesKey now

namespace ControlServer

/-- The server that an operation leaves behind when it breaks off, if it does. -/
def breaksOff? (s : ControlServer) (now : Instant) (d : Draws) (request : Request) :
    Endpoint → Option ControlServer
  | .keySet => if s.authority.lacksDates now d.key then some s else none
  | .token =>
    if s.authority.lacksDates now d.key then some s
    else
      match s.authority.currentKey now d.key with
      | (.error _, _) => none
      -- A key that was made for the token stays, whatever becomes of the token.
      | (.ok _, authority) =>
        if (now.add? s.config.tokenValidity).isNone then some { s with authority } else none
  | .register =>
    match request.jsonBody ProxyServer.read with
    | .error _ => none
    | .ok server =>
      if server.validate.isOk && s.config.serverTtl.any fun ttl => (now.add? ttl).isNone then some s
      else none
  | .health | .servers | .catalog | .deregister _ | .revoked | .revoke => none

/-- The server that a request leaves behind when it breaks off, if it does. -/
def interrupted? (s : ControlServer) (now : Instant) (d : Draws) (request : Request) :
    Option ControlServer :=
  match s.route request with
  | .error _ => none
  | .ok endpoint => s.breaksOff? now d request endpoint

/-- What becomes of a request: it is answered, or breaks off without an answer. -/
def attempt (s : ControlServer) (now : Instant) (d : Draws) (request : Request) :
    Option Response × ControlServer :=
  match s.interrupted? now d request with
  | some s => (none, s)
  | none =>
    let (response, s) := s.serve now d request
    (some response, s)

end ControlServer

end Tollgate
