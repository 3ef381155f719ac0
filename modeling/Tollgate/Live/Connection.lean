import Std.Async.DNS
import Std.Async.TCP
import Std.Async.Timer
import Std.Sync.CancellationToken
import Tollgate.Control.Exchange
import Tollgate.Live.Surroundings
import Tollgate.SocketAddress
import Tollgate.Tunnel.Engine

/-! # Connections

* `listenAt`, `serveEach` — connections that others open;
* `receive`, `transmit` — messages on a connection;
* `dial` — a connection to an address;
* `ask` — a question to the control server.

Every connection is served on a thread of its own.  When the program is stopped, no connection is
accepted and nothing is received any more.
-/

namespace Tollgate.Live

open Std.Async (Async Selectable)

abbrev Connection := Std.Async.TCP.Socket.Client

abbrev Listener := Std.Async.TCP.Socket.Server

abbrev Stop := Std.CancellationToken

def systemAddress (a : SocketAddress) : Std.Net.SocketAddress :=
  let port := UInt16.ofNat a.port
  match a.host with
  | .v4 octets =>
    let octet (i : Nat) : UInt8 := UInt8.ofNat (octets.getD i 0)
    .v4 ⟨.ofParts (octet 0) (octet 1) (octet 2) (octet 3), port⟩
  | .v6 groups _ =>
    let group (i : Nat) : UInt16 := UInt16.ofNat (groups.getD i 0)
    .v6 ⟨.ofParts (group 0) (group 1) (group 2) (group 3) (group 4) (group 5) (group 6)
      (group 7), port⟩

/-! ## Connections that others open -/

def listenAt (address : SocketAddress) : IO (Except String Listener) := do
  try
    let listener ← Std.Async.TCP.Socket.Server.mk
    listener.bind (systemAddress address)
    listener.listen 1024
    return .ok listener
  catch e => return .error (reasonOf e)

/-- Do something on a thread of its own; a failure ends that thread only. -/
def aside (task : IO Unit) : IO Unit := do
  let _ ← IO.asTask task .dedicated

/-- The next connection that is opened; none when the program is stopped. -/
def nextConnection (stop : Stop) (listener : Listener) : Async (Option Connection) :=
  Selectable.one #[
    .case stop.selector fun _ => return none,
    .case listener.acceptSelector fun c => return some c]

partial def serveEach (stop : Stop) (listener : Listener) (serve : Connection → IO Unit) :
    IO Unit := do
  match ← (nextConnection stop listener).block with
  | none => return ()
  | some c =>
    aside (serve c)
    serveEach stop listener serve

/-! ## Messages -/

/-- The octets that are taken from a connection at once. -/
def chunkSize : UInt64 := 65536

/-- The octets that may arrive before a message is complete. -/
def receiveLimit : Nat := 2 * bodyLimit

/-- The next octets that arrive; none at the end, or when the program is stopped. -/
def nextOctets (stop : Stop) (c : Connection) : Async (Option ByteArray) :=
  Selectable.one #[
    .case stop.selector fun _ => return none,
    .case (c.recvSelector chunkSize) fun arrived => return arrived]

/-- Receive a message.  `received` is what has arrived before. -/
partial def receive {α : Type} (take : Octets → Arrival α) (stop : Stop) (c : Connection)
    (received : Octets) : IO (Arrival α) := do
  match take received with
  | .incomplete =>
    if receiveLimit < received.length then return .malformed
    match ← (nextOctets stop c).block with
    | some more => receive take stop c (received ++ more.toList)
    | none => return .incomplete
  | arrived => return arrived

def transmit (c : Connection) (o : Octets) : IO Unit := (c.send ⟨o.toArray⟩).block

/-- Receive a request and send what is answered to it. -/
def answerOnce (stop : Stop) (answer : Request → IO Response) (c : Connection) : IO Unit := do
  match ← receive Request.take stop c [] with
  | .complete request _ =>
    transmit c ((← answer request).wire (request.method = "HEAD"))
    c.shutdown.block
  | .malformed =>
    transmit c ((Response.empty 400).wire false)
    c.shutdown.block
  | .incomplete => return ()

/-! ## Targets -/

/-- What an address leads to: itself, if it is one in numbers, and otherwise what its name stands
    for. -/
def addressesOf (address : String) : Async (List Std.Net.SocketAddress) := do
  if let some address := SocketAddress.ofText? address then return [systemAddress address]
  match Uri.Authority.nameAndPort? address with
  | none => throw (IO.userError "invalid socket address")
  | some (name, port) =>
    let port := UInt16.ofNat port
    let found ← Std.Async.DNS.getAddrInfo name ""
    return found.toList.map fun
      | .v4 address => .v4 ⟨address, port⟩
      | .v6 address => .v6 ⟨address, port⟩

/-- Connect to the first address that answers. -/
def connectFirst (last : IO.Error) : List Std.Net.SocketAddress → Async Connection
  | [] => throw last
  | address :: rest => do
    let c ← Std.Async.TCP.Socket.Client.mk
    try
      c.connect address
      return c
    catch e => connectFirst e rest

def connect (address : String) : Async Connection := do
  connectFirst (IO.userError "no address found") (← addressesOf address)

/-- Do something for no longer than a span; none if that is over before. -/
def within {α : Type} (limit : Span) (act : Async α) : IO (Option α) := do
  let timer : Async (Option α) := do
    Std.Async.sleep (Std.Time.Millisecond.Offset.ofInt limit.millis)
    return none
  (Async.race (some <$> act) timer).block

/-- Dial an address, for no longer than a span. -/
def dial (limit : Span) (address : String) : IO (DialOutcome × Option Connection) := do
  try
    match ← within limit (connect address) with
    | some c => return (.connected, some c)
    | none => return (.timedOut, none)
  catch e => return (.failed (reasonOf e), none)

/-! ## Questions -/

/-- Everything that arrives until the connection ends, after what has arrived before. -/
partial def receiveAll (c : Connection) (received : Octets) : Async Octets := do
  match ← c.recv? chunkSize with
  | some more => receiveAll c (received ++ more.toList)
  | none => return received

def exchange (target : Uri.Authority) (request : Octets) : Async Octets := do
  let c ← connect (target.host ++ ":" ++ (target.port?.getD 80).repr)
  c.send ⟨request.toArray⟩
  receiveAll c []

/-- Ask the control server.  Connections are not encrypted. -/
def ask (client : ControlClient) (q : Question) : IO Transport := do
  let request := client.request q
  match plainDestination? request.url with
  | none => return .error "the URL cannot be reached without encryption"
  | some (target, path) =>
    try
      match ← within ControlClient.patience (exchange target (request.wire target path)) with
      | some received => return transportOf received
      | none => return .error "operation timed out"
    catch e => return .error (reasonOf e)

end Tollgate.Live
