import Tollgate.Admission.Revocation
import Tollgate.Control.Client
import Tollgate.Proxy.Config
import Tollgate.Tunnel.Engine

/-! # A proxy

Every request to a proxy passes the gate before it reaches the tunnel engine.

* `ProxyNode` — the state of a proxy;
* `ProxyNode.ofConfig`, `ProxyNode.withKeySource` — a proxy that gets its keys from the control
  server, or from elsewhere;
* `ProxyNode.screen`, `ProxyNode.serve` — a request at the gate, and a request as a whole;
* `ProxyNode.sync` — taking over the revoked tokens of the control server;
* `ServiceRun`, `ProxyNode.run` — the life of a proxy from its registration to its end.
-/

namespace Tollgate

structure ProxyNode where
  config : ProxyConfig
  cache : KeyCache := .empty
  revoked : RevokedSet := .empty
  engine : TunnelEngine := {}

namespace ProxyNode

/-- A proxy that gets its keys from the control server; a proxy without one has no keys. -/
def ofConfig (c : ProxyConfig) : Except ProxyFault ProxyNode :=
  match c.validate with
  | .ok () => .ok { config := c }
  | .error e => .error e

/-- A proxy that gets its keys from elsewhere, and so needs no control server. -/
def withKeySource (c : ProxyConfig) : Except ProxyFault ProxyNode :=
  match c.validate with
  | .ok () => .ok { config := c }
  -- This fault is found first: what comes after it was not looked at.
  | .error .noKeySource => .ok { config := c }
  | .error e => .error e

def client? (p : ProxyNode) : Option ControlClient :=
  p.config.control.map fun link => ControlClient.ofUrl link.url link.sharedSecret

/-- What the key source of a proxy answers, when it was made without another one: the control
    server's answer, or no keys. -/
def keyAnswer (p : ProxyNode) (t : Transport) : KeyAnswer :=
  match p.config.control with
  | some _ => Tollgate.keyAnswer t
  | none => .ok []

/-! ## Requests -/

/-- What the world around the proxy does while it serves a request. -/
structure Surroundings where
  now : Instant
  /-- What the key source answers, if it is asked. -/
  keys : KeyAnswer
  /-- How dialing the target ends, if it is dialed. -/
  dial : DialOutcome
  /-- Whether the connection of the client can be taken over. -/
  takeover : Bool

structure Served where
  response : Response
  node : ProxyNode
  fetched : Bool
  dialed : Option Dial

/-- Let a request through the gate or refuse it.  The last part of the result tells whether the
    key source was asked. -/
def screen (p : ProxyNode) (now : Instant) (keys : KeyAnswer) (request : Request) :
    Except Refusal AuthorizedToken × ProxyNode × Bool :=
  let (verdict, cache, fetched) :=
    p.config.gateConfig.authorize request.headers p.cache p.revoked now keys
  (verdict, { p with cache }, fetched)

/-- Whether the gate has to ask the key source about a request. -/
def needsKeys (p : ProxyNode) (now : Instant) (request : Request) : Bool :=
  match p.config.gateConfig.present request.headers now with
  | .ok (.signed _ key) =>
    match p.cache.glance key with
    | .found _ => false
    | .missed _ => true
  | _ => false

/-- Serve a request: the gate first, then the tunnel engine. -/
def serve (p : ProxyNode) (w : Surroundings) (request : Request) : Served :=
  let (verdict, p, fetched) := p.screen w.now w.keys request
  match verdict with
  | .error refusal => ⟨refusal.response.sentTo request, p, fetched, none⟩
  | .ok _ =>
    let (response, engine, dialed) := p.engine.handle request w.dial w.takeover
    ⟨response.sentTo request, { p with engine }, fetched, dialed⟩

/-! ## Revoked tokens -/

/-- Take over the revoked tokens of the control server: how many were new.  A proxy without a
    control server has nothing to take over. -/
def sync (p : ProxyNode) (t : Transport) : Except ClientFault Nat × ProxyNode :=
  match p.config.control with
  | none => (.ok 0, p)
  | some _ =>
    match readRevoked t with
    | .error e => (.error e, p)
    | .ok ids =>
      let (count, revoked) := p.revoked.extend ids
      (.ok count, { p with revoked })

def serveAdmin (p : ProxyNode) (request : Request) : Response × ProxyNode :=
  let (response, revoked) := Tollgate.serveAdmin p.config.adminGuard p.revoked request
  (response, { p with revoked })

end ProxyNode

/-! ## The life of a proxy -/

/-- A step in the life of a proxy that others can see. -/
inductive ServiceStep where
  | register
  /-- Revoked tokens are fetched from now on, until the shutdown is signalled. -/
  | startSync
  /-- The admin route is open from now on. -/
  | listenAdmin (address : SocketAddress) (guard : AdminGuard)
  | serve
  | signalShutdown
  | deregister (token : RemovalToken)
  deriving DecidableEq, Repr

structure SystemFault where
  reason : String
  deriving DecidableEq, Repr

def SystemFault.message (f : SystemFault) : String := "I/O error: " ++ f.reason

/-- What the world around the proxy does during its life. -/
structure ServiceSurroundings where
  registration : Transport
  /-- Whether the admin route could be opened. -/
  adminListen : Except SystemFault Unit
  served : Except SystemFault Unit

/-- The life of a proxy: what it did, in order, and how it ended. -/
structure ServiceRun where
  steps : List ServiceStep
  outcome : Except SystemFault Unit

namespace ProxyNode

/-- What a proxy does before it serves: whether it is registered, and what it did. -/
def announce (p : ProxyNode) (w : ServiceSurroundings) :
    Option RemovalToken × List ServiceStep :=
  match p.config.control with
  | none => (none, [])
  | some _ =>
    match readRemovalToken w.registration with
    | .ok token => (some token, [.register, .startSync])
    -- A proxy that could not be registered goes on all the same.
    | .error _ => (none, [.register, .startSync])

/-- How a proxy opens its admin route, if it is told to. -/
def openAdmin (p : ProxyNode) (w : ServiceSurroundings) :
    Except SystemFault Unit × List ServiceStep :=
  match p.config.adminAddress with
  | none => (.ok (), [])
  | some address => (w.adminListen, [.listenAdmin address p.config.adminGuard])

/-- The life of a proxy.  If the admin route cannot be opened it ends there. -/
def run (p : ProxyNode) (w : ServiceSurroundings) : ServiceRun :=
  let (registration, announced) := p.announce w
  let (admin, opened) := p.openAdmin w
  match admin with
  -- The life ends here, and what was announced is not taken back.
  | .error e => ⟨announced ++ opened, .error e⟩
  | .ok () =>
    let farewell := (registration.map ServiceStep.deregister).toList
    ⟨announced ++ opened ++ [.serve, .signalShutdown] ++ farewell, w.served⟩

end ProxyNode

end Tollgate
