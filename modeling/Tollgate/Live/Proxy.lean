import Std.Sync.Mutex
import Tollgate.Live.Tunnel
import Tollgate.Proxy.Node

/-! # Running a proxy

* `LiveProxy` — a proxy that is being served from;
* `LiveProxy.verdictOn` — a request at the gate: the key source is asked only about a key that is
  not known, and by one request at a time;
* `LiveProxy.serve` — a connection;
* `runProxy` — the life of a proxy.
-/

namespace Tollgate.Live

open Std.Async (Async Selectable)

structure LiveProxy where
  node : Std.Mutex ProxyNode
  /-- Held by the request that asks the key source. -/
  asking : Std.Mutex Unit
  stop : Stop

namespace LiveProxy

def update {α : Type} (p : LiveProxy) (change : ProxyNode → α × ProxyNode) : IO α :=
  p.node.atomically do
    let (result, node) := change (← get)
    set node
    return result

/-! ## Requests -/

/-- What the gate says to a request with what the key source has answered.  Without an answer it
    says nothing where one is needed. -/
def screen? (p : LiveProxy) (answer : Option KeyAnswer) (request : Request) :
    IO (Option (Except Refusal AuthorizedToken)) := do
  let time ← now
  p.update fun node =>
    if answer.isNone && node.needsKeys time request then (none, node)
    else
      let (verdict, node, _) := node.screen time (answer.getD (.ok [])) request
      (some verdict, node)

def fetchKeys (p : LiveProxy) : IO KeyAnswer := do
  let node ← p.update fun node => (node, node)
  match node.client? with
  | none => return .ok []
  | some client => return node.keyAnswer (← ask client .publishedKeys)

/-- Let a request through the gate or refuse it. -/
def verdictOn (p : LiveProxy) (request : Request) : IO (Except Refusal AuthorizedToken) := do
  if let some verdict ← p.screen? none request then return verdict
  p.asking.atomically do
    if let some verdict ← p.screen? none request then return verdict
    let answer ← p.fetchKeys
    match ← p.screen? (some answer) request with
    | some verdict => return verdict
    | none => return .error (.keyNotFound (.provider (.unavailable "no answer")))

def refuse (c : Connection) (request : Request) (response : Response) : IO Unit := do
  transmit c ((response.sentTo request).wire (request.method = "HEAD"))
  c.shutdown.block

/-- Dial the target of a request, and carry octets if it answers.  `early` is what the client has
    sent after the request. -/
def tunnel (p : LiveProxy) (c : Connection) (request : Request) (d : Dial) (early : Octets) :
    IO Unit := do
  let limit ← p.update fun node => (node.config.dialTimeout, node)
  let (outcome, target) ← dial limit d.address
  let result ← p.update fun node =>
    let (result, engine) := node.engine.conclude d outcome true
    (result, { node with engine })
  match result, target with
  | .ok (), some target =>
    try
      transmit c (TunnelEngine.answer result).tunnelWire
      carry p.stop c target early
    finally p.update fun node => ((), { node with engine := node.engine.leave })
  | _, _ => refuse c request (TunnelEngine.answer result)

def serve (p : LiveProxy) (c : Connection) : IO Unit := do
  match ← receive Request.take p.stop c [] with
  | .incomplete => return ()
  | .malformed => transmit c ((Response.empty 400).wire false)
  | .complete request rest =>
    match ← p.verdictOn request with
    | .error refusal => refuse c request refusal.response
    | .ok _ =>
      let begun ← p.update fun node =>
        let (result, engine) := node.engine.begin request
        (result, { node with engine })
      match begun with
      | .error fault => refuse c request fault.response
      | .ok d => p.tunnel c request d rest

/-! ## Revoked tokens -/

/-- Wait for a span; tells whether it passed before the program was stopped. -/
def pause (p : LiveProxy) (span : Span) : Async Bool := do
  let passed ← Std.Async.Selector.sleep (Std.Time.Millisecond.Offset.ofInt span.millis)
  Selectable.one #[
    .case p.stop.selector fun _ => return false,
    .case passed fun _ => return true]

/-- Take over the revoked tokens of the control server from time to time. -/
partial def keepSynced (p : LiveProxy) (client : ControlClient) (interval : Span) : IO Unit := do
  let answer ← ask client .revoked
  let _ ← p.update fun node => node.sync answer
  if ← (p.pause interval).block then p.keepSynced client interval

def answerAdmin (p : LiveProxy) (request : Request) : IO Response :=
  p.update fun node => node.serveAdmin request

def openAdmin (p : LiveProxy) (address : Option SocketAddress) : IO (Except String Unit) := do
  match address with
  | none => return .ok ()
  | some address =>
    match ← listenAt address with
    | .error reason => return .error reason
    | .ok listener =>
      aside (serveEach p.stop listener (answerOnce p.stop p.answerAdmin))
      return .ok ()

end LiveProxy

/-! ## The life of a proxy -/

def register (node : ProxyNode) : IO (Option RemovalToken) := do
  match node.client? with
  | none => return none
  | some client =>
    match readRemovalToken (← ask client (.register node.config.server)) with
    | .ok token => return some token
    | .error _ => return none

def deregister (node : ProxyNode) (registration : Option RemovalToken) : IO Unit := do
  match node.client?, registration with
  | some client, some token => discard (ask client (.deregister token))
  | _, _ => return ()

/-- Run a proxy until the program is stopped, or tell why its admin route could not be opened. -/
def runProxy (stop : Stop) (listener : Listener) (node : ProxyNode) : IO (Except String Unit) := do
  let p : LiveProxy := ⟨← Std.Mutex.new node, ← Std.Mutex.new (), stop⟩
  let registration ← register node
  if let some client := node.client? then
    aside (p.keepSynced client node.config.syncInterval)
  match ← p.openAdmin node.config.adminAddress with
  | .error reason =>
    stop.cancel
    return .error reason
  | .ok () =>
    serveEach stop listener p.serve
    deregister node registration
    return .ok ()

end Tollgate.Live
