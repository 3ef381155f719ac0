import Tollgate.Power

/-! # Addresses to listen on

An address is a host in numbers and a port: `127.0.0.1:8080`, `[::1]:8080`, `[fe80::1%3]:80`.

* `SocketAddress` — the numbers;
* `SocketAddress.ofText?` — the address that a text writes, and nothing else.
-/

namespace Tollgate

inductive HostAddress where
  | v4 (octets : List Nat)
  /-- Eight groups of 16 bits, and the scope in which they count. -/
  | v6 (groups : List Nat) (scope : Nat)
  deriving DecidableEq, Repr

structure SocketAddress where
  host : HostAddress
  port : Nat
  deriving DecidableEq, Repr

namespace SocketAddress

/-! ## Taking from the front of a text

Each of these answers what it took and what is left. -/

def isHexDigit (c : Char) : Bool :=
  c.isDigit || ('a' ≤ c && c ≤ 'f') || ('A' ≤ c && c ≤ 'F')

def digitValue (c : Char) : Nat :=
  if c.isDigit then c.toNat - 48 else if 'a' ≤ c then c.toNat - 87 else c.toNat - 55

def numberOf (radix : Nat) (digits : List Char) : Nat :=
  digits.foldl (fun n d => n * radix + digitValue d) 0

/-- All digits at the front; there is at least one. -/
def takeDigits (isDigit : Char → Bool) (cs : List Char) : Option (List Char × List Char) :=
  let digits := cs.takeWhile isDigit
  if digits.isEmpty then none else some (digits, cs.drop digits.length)

def takeChar (c : Char) : List Char → Option (Unit × List Char)
  | [] => none
  | d :: cs => if d = c then some ((), cs) else none

/-- A decimal number below a limit; it may begin with zeros. -/
def takeNumber (limit : Nat) (cs : List Char) : Option (Nat × List Char) := do
  let (digits, cs) ← takeDigits Char.isDigit cs
  if numberOf 10 digits < limit then some (numberOf 10 digits, cs) else none

/-- An octet: at most three digits without a leading zero. -/
def takeOctet (cs : List Char) : Option (Nat × List Char) := do
  let (digits, cs) ← takeDigits Char.isDigit cs
  if digits.length ≤ 3 && (digits.length = 1 || digits.head? ≠ some '0')
      && numberOf 10 digits < 256 then
    some (numberOf 10 digits, cs)
  else none

/-- Four octets with dots between them. -/
def takeOctets (cs : List Char) : Option (List Nat × List Char) := do
  let (a, cs) ← takeOctet cs
  let (_, cs) ← takeChar '.' cs
  let (b, cs) ← takeOctet cs
  let (_, cs) ← takeChar '.' cs
  let (c, cs) ← takeOctet cs
  let (_, cs) ← takeChar '.' cs
  let (d, cs) ← takeOctet cs
  some ([a, b, c, d], cs)

/-- A group: at most four hexadecimal digits. -/
def takeGroup (cs : List Char) : Option (Nat × List Char) := do
  let (digits, cs) ← takeDigits isHexDigit cs
  if digits.length ≤ 4 then some (numberOf 16 digits, cs) else none

/-- What stands before a group: a colon, except before the first. -/
def takeSeparator (first : Bool) (cs : List Char) : Option (Unit × List Char) :=
  if first then some ((), cs) else takeChar ':' cs

/-- As many groups as there are, at most `limit`.  The last two may be written as four octets;
    also tells whether they are. -/
def takeGroups (first : Bool) : Nat → List Char → List Nat × Bool × List Char
  | 0, cs => ([], false, cs)
  | limit + 1, cs =>
    let octets := if limit = 0 then none else (takeSeparator first cs).bind (takeOctets ·.2)
    match octets with
    | some ([a, b, c, d], cs) => ([a * 256 + b, c * 256 + d], true, cs)
    | _ =>
      match (takeSeparator first cs).bind (takeGroup ·.2) with
      | some (group, cs) =>
        let (groups, octets, cs) := takeGroups false limit cs
        (group :: groups, octets, cs)
      | none => ([], false, cs)

/-- Eight groups, of which a run of zeros may be left out between two colons. -/
def takeAllGroups (cs : List Char) : Option (List Nat × List Char) :=
  match takeGroups true 8 cs with
  | (front, octets, rest) =>
    if front.length = 8 then some (front, rest)
    else if octets then none
    else do
      let (_, rest) ← takeChar ':' rest
      let (_, rest) ← takeChar ':' rest
      let (back, _, rest) := takeGroups true (7 - front.length) rest
      some (front ++ List.replicate (8 - front.length - back.length) 0 ++ back, rest)

/-- The scope after a percent sign, or zero. -/
def takeScope (cs : List Char) : Option (Nat × List Char) :=
  match cs with
  | '%' :: cs => takeNumber (twoTo 32) cs
  | cs => some (0, cs)

def takePort (cs : List Char) : Option (Nat × List Char) := do
  let (_, cs) ← takeChar ':' cs
  takeNumber (twoTo 16) cs

def takeV4 (cs : List Char) : Option (SocketAddress × List Char) := do
  let (octets, cs) ← takeOctets cs
  let (port, cs) ← takePort cs
  some (⟨.v4 octets, port⟩, cs)

/-- Eight groups in brackets and a port. -/
def takeV6 (cs : List Char) : Option (SocketAddress × List Char) := do
  let (_, cs) ← takeChar '[' cs
  let (groups, cs) ← takeAllGroups cs
  let (scope, cs) ← takeScope cs
  let (_, cs) ← takeChar ']' cs
  let (port, cs) ← takePort cs
  some (⟨.v6 groups scope, port⟩, cs)

def ofText? (s : String) : Option SocketAddress :=
  match takeV4 s.toList <|> takeV6 s.toList with
  | some (address, []) => some address
  | _ => none

end SocketAddress

end Tollgate
