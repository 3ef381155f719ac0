import Tollgate.Proxy.Node

/-! # Keeping the revoked tokens fresh

While a proxy lives, a task of its own takes over the revoked tokens of the control server from
time to time.

* `SyncTask` — how far the task has come, and whether the shutdown was signalled;
* `SyncTask.step` — its moves: a task that waits goes on when its time has come, and ends when it
  notices the signal.  Where both are due, either may happen.
-/

namespace Tollgate

inductive SyncStage where
  | waiting
  | asking
  | ended
  deriving DecidableEq, Repr

structure SyncTask where
  node : ProxyNode
  stage : SyncStage := .waiting
  signalled : Bool := false

inductive SyncMove where
  | tick
  | answered (transport : Transport)
  | signal
  | notice

namespace SyncTask

/-- Make a move, if it can be made.  A fault of the control server changes nothing, and the task
    goes on. -/
def step (t : SyncTask) : SyncMove → Option SyncTask
  | .tick => if t.stage = .waiting then some { t with stage := .asking } else none
  | .answered transport =>
    if t.stage = .asking then
      some { t with stage := .waiting, node := (t.node.sync transport).2 }
    else none
  | .signal => some { t with signalled := true }
  -- The signal is seen only between two fetches.
  | .notice =>
    if t.stage = .waiting && t.signalled then some { t with stage := .ended } else none

/-- Make a move, or none where it cannot be made. -/
def advance (t : SyncTask) (m : SyncMove) : SyncTask := (t.step m).getD t

def run (t : SyncTask) (moves : List SyncMove) : SyncTask := moves.foldl advance t

end SyncTask

end Tollgate
