import Tollgate.Octets

/-! # The relay

An open tunnel carries octets both ways.  Two pumps share one signal: each reads a chunk from
its side, writes it to the other side as a whole, and reads again.  A pump that ends sets the
signal, which ends the other one too, and then shuts down the side it writes to.  The relay is
finished when both sides were shut down.

* `Pump` — one direction: `Pump.step` is one event that happens to it;
* `Relay` — both directions and the signal: `Relay.step`;
* `Relay.stats` — the octets of chunks that were written as a whole.
-/

namespace Tollgate

inductive PumpStage where
  | reading
  /-- A chunk of `size` octets is being written, of which `rest` is left. -/
  | writing (size : Nat) (rest : Octets)
  /-- Nothing more is carried, and the side that is written is being shut down. -/
  | ended
  /-- The side that is written was shut down, or refused to be. -/
  | closed
  deriving DecidableEq, Repr

structure Pump where
  stage : PumpStage := .reading
  /-- The octets of chunks that were written as a whole. -/
  total : Nat := 0
  deriving DecidableEq, Repr

inductive PumpEvent where
  | received (chunk : Octets)
  /-- The side that is read has come to its end. -/
  | endOfStream
  | readFailed
  /-- So many octets of the chunk were written. -/
  | wrote (count : Nat)
  | writeFailed
  | signalled
  | shutDown
  | shutdownFailed
  deriving DecidableEq, Repr

namespace Pump

/-- Whether the pump carries no more. -/
def isEnded (p : Pump) : Bool := p.stage = .ended || p.stage = .closed

/-- Whether the pump is done with both of its sides. -/
def isClosed (p : Pump) : Bool := p.stage = .closed

def finish (p : Pump) : Pump := { p with stage := .ended }

/-- The pump after an event, if the event can happen to it: a chunk has at least one octet and
    at most `buffer`, and no more than what is left of it can be written. -/
def step (buffer : Nat) (p : Pump) : PumpEvent → Option Pump
  | .received chunk =>
    if p.stage = .reading ∧ chunk ≠ [] ∧ chunk.length ≤ buffer then
      some { p with stage := .writing chunk.length chunk }
    else none
  | .endOfStream | .readFailed => if p.stage = .reading then some p.finish else none
  | .wrote count =>
    match p.stage with
    | .writing size rest =>
      if count = 0 ∨ rest.length < count then none
      -- A chunk counts when the last of it was written.
      else if rest.length = count then some ⟨.reading, p.total + size⟩
      else some { p with stage := .writing size (rest.drop count) }
    | _ => none
  | .writeFailed =>
    match p.stage with
    | .writing _ _ => some p.finish
    | _ => none
  | .signalled => if p.isEnded then none else some p.finish
  | .shutDown | .shutdownFailed =>
    if p.stage = .ended then some { p with stage := .closed } else none

end Pump

inductive Direction where
  | toTarget
  | toClient
  deriving DecidableEq, Repr

structure Relay where
  buffer : Nat := 8192
  toTarget : Pump := {}
  toClient : Pump := {}
  cancelled : Bool := false
  deriving DecidableEq, Repr

inductive RelayEvent where
  | pump (direction : Direction) (event : PumpEvent)
  | cancel
  deriving DecidableEq, Repr

structure RelayStats where
  clientToTarget : Nat
  targetToClient : Nat
  deriving DecidableEq, Repr

namespace Relay

def pump (r : Relay) : Direction → Pump
  | .toTarget => r.toTarget
  | .toClient => r.toClient

/-- The relay with another pump in a direction; a pump that has ended sets the signal. -/
def withPump (r : Relay) (d : Direction) (p : Pump) : Relay :=
  let r := { r with cancelled := r.cancelled || p.isEnded }
  match d with
  | .toTarget => { r with toTarget := p }
  | .toClient => { r with toClient := p }

def cancel (r : Relay) : Relay := { r with cancelled := true }

/-- The relay after an event, if the event can happen to it: a pump sees the signal only when it
    is set. -/
def step (r : Relay) : RelayEvent → Option Relay
  | .cancel => some r.cancel
  | .pump d .signalled =>
    if r.cancelled then ((r.pump d).step r.buffer .signalled).map (r.withPump d) else none
  | .pump d event => ((r.pump d).step r.buffer event).map (r.withPump d)

def isFinished (r : Relay) : Bool := r.toTarget.isClosed && r.toClient.isClosed

/-- The octets of chunks that were written as a whole. -/
def stats (r : Relay) : RelayStats := ⟨r.toTarget.total, r.toClient.total⟩

end Relay

end Tollgate
