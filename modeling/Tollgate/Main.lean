import Std.Async.Signal
import Tollgate.Cli.Plan
import Tollgate.Live.Control
import Tollgate.Live.Proxy

/-! # The program

The program works out what its arguments ask for, asks the system for what remains, and ends
with a status.
-/

namespace Tollgate

/-- The part of the environment that the program looks at. -/
def readEnvironment : IO Cli.Environment := do
  let mut found : Cli.Environment := []
  for name in Cli.environmentNames do
    if let some value ← IO.getEnv name then found := (name, value) :: found
  return found

/-- Print what the program prints, and give its status. -/
def conclude (r : Cli.Result) : IO UInt32 := do
  IO.print r.stdout
  IO.eprint r.stderr
  return UInt32.ofNat r.status

/-- What is set when someone interrupts the program. -/
def stopOnInterrupt : IO Live.Stop := do
  let stop ← Std.CancellationToken.new
  let waiter ← Std.Async.Signal.Waiter.mk .sigint false
  let interrupt ← waiter.wait
  let _ ← interrupt.mapIO fun _ => stop.cancel
  return stop

/-- Run a service until someone interrupts the program, or tell why it could not go on. -/
def runService (listener : Live.Listener) (service : Cli.Service) : IO (Except String Unit) := do
  let stop ← stopOnInterrupt
  match service with
  | .control server => return .ok (← Live.runControl stop listener server)
  | .proxy node => Live.runProxy stop listener node

def execute (plan : Cli.Plan) : IO UInt32 := do
  match plan with
  | .finish result => conclude result
  | .writeFile path content next =>
    let failure : Option String ←
      try
        IO.FS.writeFile path content
        pure none
      catch e => pure (some (Live.reasonOf e))
    conclude (next failure)
  | .listen address service failed =>
    match ← Live.listenAt address with
    | .error reason => conclude (failed reason)
    | .ok listener =>
      match ← runService listener service with
      | .ok () => return 0
      | .error reason => conclude (failed reason)

end Tollgate

def main (args : List String) : IO UInt32 := do
  let env ← Tollgate.readEnvironment
  let fresh ← Tollgate.Live.drawKey (Tollgate.Cli.needsKey env args)
  Tollgate.execute
    (Tollgate.Cli.plan env args (← Tollgate.Live.now) (← Tollgate.Live.drawTokenId) fresh)
