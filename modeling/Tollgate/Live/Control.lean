import Std.Sync.Mutex
import Tollgate.Control.Dates
import Tollgate.Live.Connection

/-! # Running a control server

Requests change the state of the server one after the other.  One that breaks off ends its
connection, and nothing else.
-/

namespace Tollgate.Live

def answerControl (state : Std.Mutex ControlServer) (request : Request) : IO Response :=
  state.atomically do
    let server ← get
    let time ← now
    let draws ← drawFor (server.needsKey time request)
    let (outcome, server) := server.attempt time draws request
    set server
    match outcome with
    | some response => return response
    | none => throw (IO.userError "no date can be named for what was asked for")

/-- Run a control server until the program is stopped.  It has a key before the first request
    comes. -/
def runControl (stop : Stop) (listener : Listener) (server : ControlServer) : IO Unit := do
  let state ← Std.Mutex.new (server.prepare (← now) (← drawKey true))
  serveEach stop listener (answerOnce stop (answerControl state))

end Tollgate.Live
