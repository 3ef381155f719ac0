import Tollgate.Octets

/-! # Request targets

* `Uri.Authority` — a host with an optional port: which texts are authorities, what their host
  and port are;
* `Uri` — a request target: an absolute path, an authority alone, or an absolute URI;
* `percentDecode` — the octets behind percent signs.
-/

namespace Tollgate

/-! ## Authorities -/

inductive UriFault where
  | empty
  | invalidCharacter
  | invalidAuthority
  | invalidFormat
  deriving DecidableEq, Repr

def UriFault.message : UriFault → String
  | .empty => "empty string"
  | .invalidCharacter => "invalid uri character"
  | .invalidAuthority => "invalid authority"
  | .invalidFormat => "invalid format"

/-- Whether a character may stand in a URI: letters, digits, and the marks that separate
    or are reserved.  The percent sign is not among them. -/
def isUriChar (b : UInt8) : Bool :=
  Octets.isLetter b || Octets.isDigit b
    || [33, 35, 36, 38, 39, 40, 41, 42, 43, 44, 45, 46, 47, 58, 59, 61, 63, 64, 91, 93, 95,
        126].contains b

structure AuthorityScan where
  /-- Colons since the last bracket or `@`. -/
  colons : Nat := 0
  opened : Bool := false
  closed : Bool := false
  /-- A percent sign since the last bracket or `@`. -/
  percent : Bool := false
  endsWithAt : Bool := false

namespace AuthorityScan

def next (a : AuthorityScan) (b : UInt8) : Except UriFault AuthorityScan :=
  if b = 58 then
    if 8 ≤ a.colons then .error .invalidAuthority
    else .ok { a with colons := a.colons + 1, endsWithAt := false }
  else if b = 91 then
    if a.percent || a.opened then .error .invalidAuthority
    else .ok { a with opened := true, endsWithAt := false }
  -- Colons and percent signs up to a closing bracket or an `@` do not count.
  else if b = 93 then
    if !a.opened || a.closed then .error .invalidAuthority
    else .ok { a with closed := true, colons := 0, percent := false, endsWithAt := false }
  else if b = 64 then .ok { a with colons := 0, percent := false, endsWithAt := true }
  else if b = 37 then .ok { a with percent := true, endsWithAt := false }
  else if isUriChar b then .ok { a with endsWithAt := false }
  else .error .invalidCharacter

/-- Whether an authority may end here: brackets match, at most one colon stands before the
    port, something follows an `@`, and no percent sign is in the host. -/
def finish (a : AuthorityScan) : Except UriFault Unit :=
  if a.opened ≠ a.closed || 1 < a.colons || a.endsWithAt || a.percent then
    .error .invalidAuthority
  else .ok ()

end AuthorityScan

/-- Whether an octet ends an authority: `/`, `?` or `#`. -/
def endsAuthority (b : UInt8) : Bool := b = 47 || b = 63 || b = 35

def splitAuthority (s : Octets) : Except UriFault (Octets × Octets) := do
  let front := s.takeWhile fun b => !endsAuthority b
  let scan ← front.foldlM AuthorityScan.next {}
  scan.finish
  return (front, s.drop front.length)

/-- A host with an optional port, as it was written. -/
structure Uri.Authority where
  text : String
  deriving DecidableEq, Repr

namespace Uri.Authority

def ofText (s : String) : Except UriFault Uri.Authority :=
  let o := Octets.ofString s
  if o.isEmpty then .error .empty
  else
    match splitAuthority o with
    | .error e => .error e
    | .ok (_, rest) => if rest.isEmpty then .ok ⟨s⟩ else .error .invalidCharacter

/-- What follows the last `@`. -/
def afterUser (a : Uri.Authority) : List Char :=
  (a.text.toList.reverse.takeWhile (· ≠ '@')).reverse

/-- The host: up to and with the closing bracket of an address in brackets, otherwise up to
    the colon. -/
def host (a : Uri.Authority) : String :=
  match a.afterUser with
  | '[' :: rest => String.ofList ('[' :: rest.takeWhile (· ≠ ']') ++ [']'])
  | cs => String.ofList (cs.takeWhile (· ≠ ':'))

def shortOf? (digits : List Char) : Option Nat :=
  if digits.isEmpty || !digits.all Char.isDigit then none
  else
    let n := digits.foldl (fun n d => n * 10 + (d.toNat - 48)) 0
    if n < 65536 then some n else none

/-- A number of 16 bits: digits, with an optional plus sign. -/
def portOf? : List Char → Option Nat
  | '+' :: digits => shortOf? digits
  | digits => shortOf? digits

/-- The port: what follows the last colon, if it is a number of 16 bits. -/
def port? (a : Uri.Authority) : Option Nat :=
  if a.text.toList.contains ':' then
    portOf? (a.text.toList.reverse.takeWhile (· ≠ ':')).reverse
  else none

/-- The name and the port in an address to connect with: what stands before its last colon, and
    the number of 16 bits behind it. -/
def nameAndPort? (address : String) : Option (String × Nat) :=
  match address.toList.reverse.dropWhile (· ≠ ':') with
  | [] => none
  | _ :: name =>
    (portOf? (address.toList.reverse.takeWhile (· ≠ ':')).reverse).map fun port =>
      (String.ofList name.reverse, port)

end Uri.Authority

/-! ## Targets -/

structure Uri where
  authority : Option Uri.Authority
  /-- The path without query and fragment; a target that is an authority alone has none. -/
  path : String
  deriving DecidableEq, Repr

namespace Uri

/-- Whether an octet may stand in a path.  Quotes and braces may, although they should be
    escaped, and so may octets of non-ASCII characters. -/
def isPathOctet (b : UInt8) : Bool :=
  b = 0x21 || (0x24 ≤ b && b ≤ 0x3B) || b = 0x3D || (0x40 ≤ b && b ≤ 0x5F)
    || (0x61 ≤ b && b ≤ 0x7A) || b = 0x7C || 0x7E ≤ b || b = 0x22 || b = 0x7B || b = 0x7D

def isQueryOctet (b : UInt8) : Bool :=
  b = 0x21 || (0x24 ≤ b && b ≤ 0x3B) || b = 0x3D || 0x3F ≤ b

/-- The path at the front of a text whose rest is a query and a fragment. -/
def pathOf (s : Octets) : Except UriFault String :=
  let path := s.takeWhile fun b => b ≠ 63 && b ≠ 35
  let query := match s.drop path.length with
    | 63 :: q => q.takeWhile (· ≠ 35)
    | _ => []
  if path.all isPathOctet && query.all isQueryOctet then
    match Octets.toText? (path ++ query), Octets.toText? path with
    | some _, some text => .ok (if text.isEmpty then "/" else text)
    | _, _ => .error .invalidCharacter
  else .error .invalidCharacter

def isSchemeOctet (b : UInt8) : Bool :=
  Octets.isLetter b || Octets.isDigit b || b = 43 || b = 45 || b = 46

/-- What follows the scheme and its marks, if there is a scheme. -/
def afterScheme? (s : Octets) : Option Octets :=
  let name := s.takeWhile isSchemeOctet
  match s.drop name.length with
  | 58 :: 47 :: 47 :: rest => if name.length ≤ 64 then some rest else none
  | _ => none

def ofOctets (s : Octets) : Except UriFault Uri :=
  match s with
  | [] => .error .empty
  | [42] => .ok ⟨none, "*"⟩
  | 47 :: _ =>
    match pathOf s with
    | .ok path => .ok ⟨none, path⟩
    | .error e => .error e
  | _ =>
    match afterScheme? s with
    | none =>
      match splitAuthority s with
      | .error e => .error e
      | .ok (authority, rest) =>
        if rest.isEmpty then .ok ⟨some ⟨authority.toTextLossy⟩, ""⟩ else .error .invalidFormat
    | some s =>
      match splitAuthority s with
      | .error e => .error e
      | .ok (authority, rest) =>
        if authority.isEmpty then .error .invalidFormat
        else
          match pathOf rest with
          | .ok path => .ok ⟨some ⟨authority.toTextLossy⟩, path⟩
          | .error e => .error e

end Uri

/-! ## Percent signs -/

/-- The octets of a text in which a percent sign before two hexadecimal digits stands for
    the octet they write. -/
def percentDecode : Octets → Octets
  | [] => []
  | [a] => [a]
  | [a, b] => [a, b]
  | a :: b :: c :: rest =>
    if a = 37 then
      match Octets.hexValue? b, Octets.hexValue? c with
      | some high, some low => UInt8.ofNat (high * 16 + low) :: percentDecode rest
      | _, _ => a :: percentDecode (b :: c :: rest)
    else a :: percentDecode (b :: c :: rest)

end Tollgate
