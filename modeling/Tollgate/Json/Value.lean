import Tollgate.Binary64.Shortest
import Tollgate.Sorted
import Tollgate.Octets

/-! # Data in JSON

* `Json.Number` — an integer of 64 bits, signed or unsigned, or a binary64 number;
* `Json.Value` — a JSON value; the members of an object are in strictly increasing
  order of their names.
-/

namespace Tollgate.Json

/-- A number as data: integers from `-2 ^ 63` up to `2 ^ 64 - 1` stay integers, every
    other number is a binary64 number. -/
inductive Number where
  | int (z : Int)
  | float (x : Binary64)
  deriving DecidableEq, Repr

/-- The binary64 number nearest to a number. -/
def Number.toBinary64 : Number → Binary64
  | .int z => Binary64.ofInt z
  | .float x => x

inductive Value where
  | null
  | bool (b : Bool)
  | number (n : Number)
  | text (s : String)
  | list (items : List Value)
  | object (members : List (String × Value))
  deriving Repr, Inhabited

namespace Value

/-- An object with the given members; the last of equally named members wins. -/
def ofMembers (members : List (String × Value)) : Value := .object (Sorted.ofList members)

def ofInt (z : Int) : Value := .number (.int z)

def member? (name : String) : Value → Option Value
  | .object members => Sorted.find? name members
  | _ => none

end Value

end Tollgate.Json
