import Tollgate.Tunnel.Relay

/-! # A relay between pipes

Pipes of limited capacity connect the relay with a client and a target in memory.

* `Pipe` — octets on their way: written at one end as far as there is room, read at the other;
* `PipedRelay` — a relay with its four pipes;
* `PipedRelay.settle` — everything moves that can move;
* `PipedRelay.send`, `PipedRelay.receive`, `PipedRelay.shutdown`, `PipedRelay.drop`,
  `PipedRelay.cancel` — what those at the ends do.
-/

namespace Tollgate

structure Pipe where
  capacity : Nat
  content : Octets := []
  /-- Nothing more can be written; what is in the pipe can still be read. -/
  closed : Bool := false
  deriving DecidableEq, Repr

namespace Pipe

def room (p : Pipe) : Nat := p.capacity - p.content.length

/-- Write as much as there is room for, and tell how much that was; none if the pipe is
    closed. -/
def write? (p : Pipe) (o : Octets) : Option (Nat × Pipe) :=
  if p.closed then none
  else
    let count := min p.room o.length
    some (count, { p with content := p.content ++ o.take count })

/-- Take at most so many octets from the front. -/
def read (p : Pipe) (limit : Nat) : Octets × Pipe :=
  (p.content.take limit, { p with content := p.content.drop limit })

/-- Whether nothing is left and nothing will come. -/
def isExhausted (p : Pipe) : Bool := p.closed && p.content.isEmpty

def close (p : Pipe) : Pipe := { p with closed := true }

end Pipe

structure PipedRelay where
  relay : Relay
  fromClient : Pipe
  toTarget : Pipe
  fromTarget : Pipe
  toClient : Pipe
  deriving DecidableEq, Repr

inductive Party where
  | client
  | target
  deriving DecidableEq, Repr

def Party.outward : Party → Direction
  | .client => .toTarget
  | .target => .toClient

def Party.inward : Party → Direction
  | .client => .toClient
  | .target => .toTarget

namespace PipedRelay

/-! ## Pipes by direction -/

/-- The pipe that the pump of a direction reads. -/
def source (r : PipedRelay) : Direction → Pipe
  | .toTarget => r.fromClient
  | .toClient => r.fromTarget

/-- The pipe that the pump of a direction writes. -/
def sink (r : PipedRelay) : Direction → Pipe
  | .toTarget => r.toTarget
  | .toClient => r.toClient

def withSource (r : PipedRelay) (d : Direction) (p : Pipe) : PipedRelay :=
  match d with
  | .toTarget => { r with fromClient := p }
  | .toClient => { r with fromTarget := p }

def withSink (r : PipedRelay) (d : Direction) (p : Pipe) : PipedRelay :=
  match d with
  | .toTarget => { r with toTarget := p }
  | .toClient => { r with toClient := p }

/-! ## Movement -/

/-- What happens to a pump next, and the pipes after it; none if it has to wait.  A pump with an
    empty buffer reads nothing, which it takes for the end. -/
def nextEvent? (r : PipedRelay) (d : Direction) : Option (PumpEvent × PipedRelay) :=
  match (r.relay.pump d).stage with
  | .closed => none
  | .ended => some (.shutDown, r.withSink d (r.sink d).close)
  | .reading =>
    if r.relay.cancelled then some (.signalled, r)
    else if r.relay.buffer = 0 then some (.endOfStream, r)
    else if r.source d |>.isExhausted then some (.endOfStream, r)
    else
      match (r.source d).read r.relay.buffer with
      | ([], _) => none
      | (chunk, pipe) => some (.received chunk, r.withSource d pipe)
  | .writing _ rest =>
    if r.relay.cancelled then some (.signalled, r)
    else
      match (r.sink d).write? rest with
      | none => some (.writeFailed, r)
      | some (0, _) => none
      | some (count, pipe) => some (.wrote count, r.withSink d pipe)

/-- A relay that is finished lets go of all pipes. -/
def release (r : PipedRelay) : PipedRelay :=
  if r.relay.isFinished then
    { r with
      fromClient := r.fromClient.close
      toTarget := r.toTarget.close
      fromTarget := r.fromTarget.close
      toClient := r.toClient.close }
  else r

/-- Let the pump of a direction make one move, if it can. -/
def move? (r : PipedRelay) (d : Direction) : Option PipedRelay :=
  match r.nextEvent? d with
  | none => none
  | some (event, next) =>
    match r.relay.step (.pump d event) with
    | none => none
    | some relay => some { next with relay }.release

/-- Let pumps move, the one toward the target first, at most so many times. -/
def moveMany : Nat → PipedRelay → PipedRelay
  | 0, r => r
  | fuel + 1, r =>
    match r.move? .toTarget with
    | some next => moveMany fuel next
    | none =>
      match r.move? .toClient with
      | some next => moveMany fuel next
      | none => r

def inHand (p : Pump) : Nat :=
  match p.stage with
  | .writing _ rest => rest.length
  | _ => 0

/-- No more moves than this can follow one another: each move takes octets one place further, ends
    a pump, or shuts down the side that it writes. -/
def moveBound (r : PipedRelay) : Nat :=
  2 * (r.fromClient.content.length + r.fromTarget.content.length)
    + inHand r.relay.toTarget + inHand r.relay.toClient + 4

/-- Everything moves that can move. -/
def settle (r : PipedRelay) : PipedRelay := moveMany r.moveBound r

/-! ## The ends -/

/-- A relay between a client and a target whose pipes have the given capacities, each way. -/
def start (buffer clientCapacity targetCapacity : Nat) : PipedRelay :=
  { relay := { buffer }
    fromClient := ⟨clientCapacity, [], false⟩
    toTarget := ⟨targetCapacity, [], false⟩
    fromTarget := ⟨targetCapacity, [], false⟩
    toClient := ⟨clientCapacity, [], false⟩ : PipedRelay }.settle

/-- A party writes: how many octets its pipe takes at once, or none if it is closed. -/
def send (r : PipedRelay) (who : Party) (o : Octets) : Option Nat × PipedRelay :=
  match (r.source who.outward).write? o with
  | none => (none, r)
  | some (count, pipe) => (some count, (r.withSource who.outward pipe).settle)

/-- Read on as long as something is there, at most so many octets in at most so many goes.
    While the party reads, everything moves.  Also tells whether the end was met. -/
def drain (who : Party) : Nat → Nat → PipedRelay → Octets × Bool × PipedRelay
  | 0, _, r => ([], false, r)
  | _, 0, r => ([], false, r)
  | goes + 1, limit, r =>
    let pipe := r.sink who.inward
    match pipe.read limit with
    | ([], _) => ([], pipe.closed, r)
    | (chunk, pipe) =>
      let (more, ended, r) :=
        drain who goes (limit - chunk.length) (r.withSink who.inward pipe).settle
      (chunk ++ more, ended, r)

/-- A party reads at most so many octets. -/
def receive (r : PipedRelay) (who : Party) (limit : Nat) : Octets × Bool × PipedRelay :=
  drain who limit limit r

def shutdown (r : PipedRelay) (who : Party) : PipedRelay :=
  let d := who.outward
  (r.withSource d (r.source d).close).settle

/-- A party goes away: it neither sends nor receives any more. -/
def drop (r : PipedRelay) (who : Party) : PipedRelay :=
  let r := r.withSource who.outward (r.source who.outward).close
  let r := r.withSink who.inward (r.sink who.inward).close
  r.settle

def cancel (r : PipedRelay) : PipedRelay :=
  { r with relay := r.relay.cancel }.settle

end PipedRelay

end Tollgate
