import Tollgate.Live.Connection
import Tollgate.Tunnel.Relay

/-! # Carrying octets through a tunnel

Two pumps run at the same time.  What each of them does next is read off the state of the
relay, and what happened to it is told to the relay.  Stopping the program ends the relay from
outside.
-/

namespace Tollgate.Live

open Std.Async (Async Selectable)

structure Tunnel where
  stop : Stop
  relay : IO.Ref Relay
  signal : Std.CancellationToken
  client : Connection
  target : Connection

namespace Tunnel

def source (t : Tunnel) : Direction → Connection
  | .toTarget => t.client
  | .toClient => t.target

def sink (t : Tunnel) : Direction → Connection
  | .toTarget => t.target
  | .toClient => t.client

/-- Tell the relay what happened to a pump. -/
def tell (t : Tunnel) (d : Direction) (event : PumpEvent) : Async Unit :=
  t.relay.modify fun r => (r.step (.pump d event)).getD r

def cancel (t : Tunnel) : Async PumpEvent := do
  t.relay.modify Relay.cancel
  t.signal.cancel
  return .signalled

/-- The next chunk, the end, or the signal. -/
def nextChunk (t : Tunnel) (d : Direction) (buffer : Nat) : Async PumpEvent := do
  let arriving := (t.source d).recvSelector (UInt64.ofNat buffer)
  try
    Selectable.one #[
      .case t.stop.selector fun _ => t.cancel,
      .case t.signal.selector fun _ => return .signalled,
      .case arriving fun
        | some chunk => return .received chunk.toList
        | none => return .endOfStream]
  catch _ => return .readFailed

def writeChunk (t : Tunnel) (d : Direction) (rest : Octets) : Async PumpEvent := do
  if ← t.signal.isCancelled then return .signalled
  try
    (t.sink d).send ⟨rest.toArray⟩
    return .wrote rest.length
  catch _ => return .writeFailed

def shutDown (t : Tunnel) (d : Direction) : Async PumpEvent := do
  try
    (t.sink d).shutdown
    return .shutDown
  catch _ => return .shutdownFailed

/-- Run the pump of a direction to its end, which sets the signal. -/
partial def pump (t : Tunnel) (d : Direction) : Async Unit := do
  let r ← t.relay.get
  match (r.pump d).stage with
  | .reading => t.tell d (← t.nextChunk d r.buffer); t.pump d
  | .writing _ rest => t.tell d (← t.writeChunk d rest); t.pump d
  | .ended =>
    t.signal.cancel
    t.tell d (← t.shutDown d)
    t.pump d
  | .closed => return ()

end Tunnel

/-- Carry octets both ways until either side ends.  `early` is what the client has sent
    already. -/
def carry (stop : Stop) (client target : Connection) (early : Octets) : IO Unit := do
  let t : Tunnel := ⟨stop, ← IO.mkRef {}, ← Std.CancellationToken.new, client, target⟩
  if !early.isEmpty then transmit target early
  let _ ← (Async.concurrently (t.pump .toTarget) (t.pump .toClient)).block

end Tollgate.Live
