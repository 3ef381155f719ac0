/-! # Failures of a command

A failure is what could not be done, with the causes behind it.

* `Failure.report` — the text that is shown: what could not be done, and below it the causes,
  numbered if there are several.
-/

namespace Tollgate.Cli

/-- What could not be done, and the causes, each one behind the one before it. -/
structure Failure where
  message : String
  causes : List String := []
  deriving DecidableEq, Repr

namespace Failure

/-- A text whose lines after the first are set in. -/
def indented (indent : String) (s : String) : String :=
  String.join (s.toList.map fun c => if c = '\n' then "\n" ++ indent else String.singleton c)

/-- A number in a column of five. -/
def column (n : Nat) : String :=
  String.ofList (List.replicate (5 - n.repr.length) ' ') ++ n.repr

def causeLines : List String → List String
  | [] => []
  | [cause] => ["    " ++ indented "    " cause]
  | causes => causes.zipIdx.map fun c => column c.2 ++ ": " ++ indented "       " c.1

def report (f : Failure) : String :=
  let behind := match f.causes with
    | [] => ""
    | causes => "\n\nCaused by:" ++ String.join ((causeLines causes).map ("\n" ++ ·))
  "Error: " ++ f.message ++ behind ++ "\n"

end Failure

end Tollgate.Cli
