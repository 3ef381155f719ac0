import Tollgate.Json.Value

/-! # Writing JSON

JSON is written without blanks.  Strings escape the quote, the backslash and control
characters only; a float has the shortest digits that read back, in positional form
from `0.00001` up to below `10 ^ 16` and in scientific form outside.

* `escapeOctet`, `renderText` — strings, octet by octet: every escaped character is ASCII,
  and the octets of other characters are never equal to those of an ASCII character;
* `floatText`, `Number.render` — numbers;
* `Value.render` — a value, members in name order;
* `renderMembers` — an object from members that are rendered already, in the given order.
-/

namespace Tollgate.Json

/-! ## Strings -/

/-- How an octet of a string is written between the quotes. -/
def escapeOctet (b : UInt8) : Octets :=
  if b = 34 then [92, 34]
  else if b = 92 then [92, 92]
  else if b = 8 then [92, 98]
  else if b = 9 then [92, 116]
  else if b = 10 then [92, 110]
  else if b = 12 then [92, 102]
  else if b = 13 then [92, 114]
  else if b < 32 then
    [92, 117, 48, 48, Octets.hexDigit (b.toNat / 16), Octets.hexDigit (b.toNat % 16)]
  else [b]

def renderText (s : String) : Octets := 34 :: ((Octets.ofString s).flatMap escapeOctet ++ [34])

/-! ## Numbers -/

/-- A float as JSON text; numbers that JSON cannot write become `null`. -/
def floatText : Binary64 → String
  | .finite negative x =>
    let d := x.shortest
    let magnitude :=
      if x.isZero then "0.0"
      else if -5 ≤ d.leading && d.leading < 16 then
        (if 0 ≤ d.power then d.plain ++ ".0" else d.plain)
      else d.scientific
    (if negative then "-" else "") ++ magnitude
  | _ => "null"

def digitOctets (n : Nat) : Octets := (Nat.toDigits 10 n).map fun c => UInt8.ofNat c.toNat

def renderInt (z : Int) : Octets :=
  if z < 0 then 45 :: digitOctets z.natAbs else digitOctets z.natAbs

def Number.render : Number → Octets
  | .int z => renderInt z
  | .float x => Octets.ofString (floatText x)

/-! ## Values -/

/-- The word `null`. -/
def nullWord : Octets := [110, 117, 108, 108]

/-- The word `true`. -/
def trueWord : Octets := [116, 114, 117, 101]

/-- The word `false`. -/
def falseWord : Octets := [102, 97, 108, 115, 101]

def renderBool (b : Bool) : Octets := if b then trueWord else falseWord

def commaSeparated : List Octets → Octets
  | [] => []
  | [part] => part
  | part :: parts => part ++ 44 :: commaSeparated parts

def renderItems (items : List Octets) : Octets := 91 :: (commaSeparated items ++ [93])

def renderMember (name : String) (value : Octets) : Octets := renderText name ++ 58 :: value

/-- An object from members that are rendered already, in the given order. -/
def renderMembers (members : List (String × Octets)) : Octets :=
  123 :: (commaSeparated (members.map fun m => renderMember m.1 m.2) ++ [125])

mutual

def Value.render : Value → Octets
  | .null => nullWord
  | .bool b => renderBool b
  | .number n => n.render
  | .text s => renderText s
  | .list items => renderItems (renderEach items)
  | .object members => renderMembers (renderNamed members)

def renderEach : List Value → List Octets
  | [] => []
  | v :: rest => v.render :: renderEach rest

def renderNamed : List (String × Value) → List (String × Octets)
  | [] => []
  | m :: rest => renderMemberValue m :: renderNamed rest

def renderMemberValue : String × Value → String × Octets
  | (name, v) => (name, v.render)

end

/-- Octets that were rendered as JSON, as text; they are well-formed UTF-8. -/
def textOf (o : Octets) : String := o.toTextLossy

end Tollgate.Json
