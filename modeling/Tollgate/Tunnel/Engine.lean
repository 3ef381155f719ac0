import Tollgate.Tunnel.Target

/-! # The tunnel engine

A request for a tunnel gets a number, its target is dialed, and its connection is taken over.
From then on the tunnel counts as active until its task ends.

* `TunnelFault` — why a request got no tunnel, and what it is answered;
* `TunnelEngine.begin`, `TunnelEngine.conclude`, `TunnelEngine.leave` — the moments of a tunnel;
* `TunnelEngine.handle` — a request whose dial ends before anything else happens;
* `TunnelRun` — requests at the same time: each `TunnelMove` is one moment of one of them.
-/

namespace Tollgate

inductive TunnelFault where
  | methodNotAllowed
  | badRequest (fault : TargetFault)
  | dialFailure (target : Uri.Authority) (reason : String)
  | takeoverUnsupported
  deriving DecidableEq, Repr

namespace TunnelFault

def message : TunnelFault → String
  | .methodNotAllowed => "Method not allowed"
  | .badRequest fault => "Bad request: " ++ fault.message
  | .dialFailure target reason => "Failed to connect to " ++ target.text ++ ": " ++ reason
  | .takeoverUnsupported => "Connection cannot be taken over"

/-- What a client is told: nothing about the network behind the proxy. -/
def publicMessage : TunnelFault → String
  | .dialFailure _ _ => "Failed to connect to target"
  | other => other.message

def status : TunnelFault → Nat
  | .methodNotAllowed => 405
  | .badRequest _ => 400
  | .dialFailure _ _ => 502
  | .takeoverUnsupported => 500

def code : TunnelFault → String
  | .methodNotAllowed => "METHOD_NOT_ALLOWED"
  | .badRequest _ => "BAD_REQUEST"
  | .dialFailure _ _ => "DIAL_FAILED"
  | .takeoverUnsupported => "UPGRADE_UNSUPPORTED"

def response (f : TunnelFault) : Response := Response.failure f.status f.publicMessage f.code

end TunnelFault

inductive DialOutcome where
  | connected
  | failed (reason : String)
  | timedOut
  deriving DecidableEq, Repr

/-- A request for a tunnel whose target is being dialed. -/
structure Dial where
  tunnelId : UInt64
  target : Uri.Authority
  deriving DecidableEq, Repr

/-- The address to connect with: the target as it was written. -/
def Dial.address (d : Dial) : String := d.target.text

structure TunnelEngine where
  nextId : UInt64 := 1
  active : Nat := 0
  deriving DecidableEq, Repr

namespace TunnelEngine

/-- Take a request: it has to ask for a tunnel and to name a target, and gets a number. -/
def begin (e : TunnelEngine) (request : Request) : Except TunnelFault Dial × TunnelEngine :=
  if request.method = "CONNECT" then
    match request.tunnelTarget with
    | .error fault => (.error (.badRequest fault), e)
    -- The number is taken even if the dial leads to nothing.
    | .ok target => (.ok ⟨e.nextId, target⟩, { e with nextId := e.nextId + 1 })
  else (.error .methodNotAllowed, e)

/-- Take the end of a dial.  Only a connection that can be taken over becomes a tunnel, and
    whether it can is asked only after the dial succeeded. -/
def conclude (e : TunnelEngine) (d : Dial) (outcome : DialOutcome) (takeover : Bool) :
    Except TunnelFault Unit × TunnelEngine :=
  match outcome with
  | .failed reason => (.error (.dialFailure d.target reason), e)
  | .timedOut => (.error (.dialFailure d.target "timed out"), e)
  | .connected =>
    if takeover then (.ok (), { e with active := e.active + 1 })
    else (.error .takeoverUnsupported, e)

/-- The task of a tunnel has ended. -/
def leave (e : TunnelEngine) : TunnelEngine := { e with active := e.active - 1 }

def answer : Except TunnelFault Unit → Response
  | .ok () => Response.empty 200
  | .error fault => fault.response

/-- Handle a request whose dial ends before anything else happens.  The last part of the
    result is what was dialed. -/
def handle (e : TunnelEngine) (request : Request) (outcome : DialOutcome) (takeover : Bool) :
    Response × TunnelEngine × Option Dial :=
  match e.begin request with
  | (.error fault, e) => (fault.response, e, none)
  | (.ok dial, e) =>
    let (result, e) := e.conclude dial outcome takeover
    (answer result, e, some dial)

/-! ### What the moments do -/

theorem begin_eq_ok_iff {e e' : TunnelEngine} {request : Request} {d : Dial} :
    e.begin request = (.ok d, e') ↔
      request.method = "CONNECT" ∧ request.tunnelTarget = .ok d.target ∧ d.tunnelId = e.nextId ∧
        e' = { e with nextId := e.nextId + 1 } := by
  unfold begin
  by_cases connect : request.method = "CONNECT"
  · cases d with
    | mk tunnelId target =>
      cases request.tunnelTarget with
      | error fault => simp [connect]
      | ok target' =>
        simp only [connect, if_true, Prod.mk.injEq, Except.ok.injEq, Dial.mk.injEq, true_and]
        constructor
        · rintro ⟨⟨rfl, rfl⟩, rfl⟩
          exact ⟨rfl, rfl, rfl⟩
        · rintro ⟨rfl, rfl, rfl⟩
          exact ⟨⟨rfl, rfl⟩, rfl⟩
  · simp [connect]

/-- A request that is not dialed gets no number. -/
theorem eq_of_begin_error {e e' : TunnelEngine} {request : Request} {fault : TunnelFault}
    (begun : e.begin request = (.error fault, e')) : e' = e := by
  unfold begin at begun
  split at begun
  · split at begun <;> cases begun
    rfl
  · cases begun
    rfl

/-- A dial that leads to no tunnel leaves nothing behind. -/
theorem eq_of_conclude_error {e e' : TunnelEngine} {d : Dial} {outcome : DialOutcome}
    {takeover : Bool} {fault : TunnelFault}
    (concluded : e.conclude d outcome takeover = (.error fault, e')) : e' = e := by
  unfold conclude at concluded
  split at concluded
  · cases concluded
    rfl
  · cases concluded
    rfl
  · split at concluded <;> cases concluded
    rfl

end TunnelEngine

/-! ## Requests at the same time -/

inductive TunnelStage where
  /-- It asks for no tunnel, or names no target. -/
  | declined (fault : TunnelFault)
  | dialing (dial : Dial)
  /-- The dial led to no tunnel. -/
  | failed (dial : Dial) (fault : TunnelFault)
  /-- The client went away while its target was dialed. -/
  | abandoned (dial : Dial)
  /-- It was answered with success, and a task waits for its connection to be handed over. -/
  | takingOver (dial : Dial)
  | carrying (dial : Dial)
  | ended (dial : Dial)
  deriving DecidableEq, Repr

structure TunnelRequest where
  request : Request
  /-- The request holds the means to take its connection over. -/
  takeover : Bool
  stage : TunnelStage

/-- Requests under way on one engine, in the order in which they came. -/
structure TunnelRun where
  engine : TunnelEngine := {}
  requests : List TunnelRequest := []

inductive TunnelMove where
  | arrive (request : Request) (takeover : Bool)
  | dialed (index : Nat) (outcome : DialOutcome)
  | abandon (index : Nat)
  /-- The connection is handed over, or cannot be. -/
  | takenOver (index : Nat) (succeeded : Bool)
  | taskEnded (index : Nat)
  deriving Repr

namespace TunnelRun

def put (r : TunnelRun) (index : Nat) (q : TunnelRequest) : TunnelRun :=
  { r with requests := r.requests.set index q }

/-- Make a move, if it can be made. -/
def step (r : TunnelRun) : TunnelMove → Option TunnelRun
  | .arrive request takeover =>
    match r.engine.begin request with
    | (.error fault, engine) =>
      some ⟨engine, r.requests ++ [⟨request, takeover, .declined fault⟩]⟩
    | (.ok dial, engine) => some ⟨engine, r.requests ++ [⟨request, takeover, .dialing dial⟩]⟩
  | .dialed i outcome =>
    match r.requests[i]? with
    | some ⟨request, takeover, .dialing dial⟩ =>
      match r.engine.conclude dial outcome takeover with
      | (.error fault, engine) =>
        some { r.put i ⟨request, takeover, .failed dial fault⟩ with engine }
      | (.ok (), engine) => some { r.put i ⟨request, false, .takingOver dial⟩ with engine }
    | _ => none
  | .abandon i =>
    match r.requests[i]? with
    | some ⟨request, takeover, .dialing dial⟩ =>
      some (r.put i ⟨request, takeover, .abandoned dial⟩)
    | _ => none
  | .takenOver i succeeded =>
    match r.requests[i]? with
    | some ⟨request, takeover, .takingOver dial⟩ =>
      if succeeded then some (r.put i ⟨request, takeover, .carrying dial⟩)
      else some { r.put i ⟨request, takeover, .ended dial⟩ with engine := r.engine.leave }
    | _ => none
  | .taskEnded i =>
    match r.requests[i]? with
    | some ⟨request, takeover, .carrying dial⟩ =>
      some { r.put i ⟨request, takeover, .ended dial⟩ with engine := r.engine.leave }
    | _ => none

end TunnelRun

end Tollgate
