import Tollgate.Json.Value
import Tollgate.Json.Printer
import Tollgate.Text.Quoted

/-! # What can be wrong with a JSON text

A reader stops at the first fault it meets.  `Fault` lists the causes; `Fault.message`
is the one place that words them.
-/

namespace Tollgate.Json

/-- The kind of value that stands where another one is wanted. -/
inductive Shape where
  | null
  | bool (b : Bool)
  | number (n : Number)
  | text (s : String)
  | sequence
  | map
  deriving DecidableEq, Repr

def Shape.describe : Shape → String
  | .null => "null"
  | .bool b => "boolean `" ++ (if b then "true" else "false") ++ "`"
  | .number (.int z) => "integer `" ++ toString z ++ "`"
  | .number (.float x) => "floating point `" ++ floatText x ++ "`"
  | .text s => "string " ++ quoted s
  | .sequence => "sequence"
  | .map => "map"

inductive Fault where
  /-- The text ends too early. -/
  | truncated
  /-- The text is not JSON, or nests too deeply. -/
  | malformed
  /-- A value of another kind is wanted. -/
  | wrongType (found : Shape) (wanted : String)
  /-- An integer does not fit the wanted type. -/
  | outOfRange (found : Int) (wanted : String)
  /-- A member without a default is absent. -/
  | missing (field : String)
  | duplicate (field : String)
  /-- A record written as a list has too few items. -/
  | tooShort (count : Nat) (wanted : String)
  /-- A value of the right kind is refused for its own reason. -/
  | refused (reason : String)
  deriving DecidableEq, Repr

def Fault.message : Fault → String
  | .truncated => "eof"
  | .malformed => "syntax"
  | .wrongType found wanted => "invalid type: " ++ found.describe ++ ", expected " ++ wanted
  | .outOfRange found wanted =>
    "invalid value: integer `" ++ toString found ++ "`, expected " ++ wanted
  | .missing field => "missing field `" ++ field ++ "`"
  | .duplicate field => "duplicate field `" ++ field ++ "`"
  | .tooShort count wanted => "invalid length " ++ toString count ++ ", expected " ++ wanted
  | .refused reason => reason

end Tollgate.Json
