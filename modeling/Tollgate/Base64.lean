import Tollgate.Octets

/-! # Base64

Three octets are four symbols of six bits.  Tokens use the URL-safe alphabet without
padding, published keys the standard alphabet with padding.

* `sextets`, `ofSextets` — regrouping octets into six-bit numbers and back;
* `Alphabet.symbol`, `Alphabet.value?` — symbols of six-bit numbers;
* `encode`, `decode` — the texts.  Decoding accepts one text per octet string: unused
  low bits of the last symbol have to be zero, and padding is all there or not there.
-/

namespace Tollgate.Base64

/-- Which symbols stand for 62 and 63. -/
inductive Alphabet where
  | standard
  | urlSafe
  deriving DecidableEq, Repr

/-- Whether the last group is filled up with `=`. -/
inductive Padding where
  | required
  | absent
  deriving DecidableEq, Repr

inductive Fault where
  /-- An octet outside the alphabet, or a padding sign in the wrong place. -/
  | invalidByte (byte : UInt8) (offset : Nat)
  /-- The last symbol has bits set that no octet uses. -/
  | invalidLastSymbol (byte : UInt8) (offset : Nat)
  /-- Padding is missing, incomplete or unwanted. -/
  | invalidPadding
  /-- A single symbol is left over. -/
  | sixBitRemainder
  deriving DecidableEq, Repr

def Fault.message : Fault → String
  | .invalidByte byte offset =>
    "Invalid byte " ++ toString byte.toNat ++ ", offset " ++ toString offset ++ "."
  | .invalidLastSymbol byte offset =>
    "Invalid last symbol " ++ toString byte.toNat ++ ", offset " ++ toString offset ++ "."
  | .invalidPadding => "Invalid padding"
  | .sixBitRemainder => "Encoded text cannot have a 6-bit remainder."

/-! ## Symbols -/

def Alphabet.symbol (a : Alphabet) (n : Nat) : UInt8 :=
  if n < 26 then UInt8.ofNat (65 + n)
  else if n < 52 then UInt8.ofNat (71 + n)
  else if n < 62 then UInt8.ofNat (n - 4)
  else if n = 62 then (match a with | .standard => 43 | .urlSafe => 45)
  else (match a with | .standard => 47 | .urlSafe => 95)

def Alphabet.value? (a : Alphabet) (b : UInt8) : Option Nat :=
  if 65 ≤ b && b ≤ 90 then some (b.toNat - 65)
  else if 97 ≤ b && b ≤ 122 then some (b.toNat - 71)
  else if 48 ≤ b && b ≤ 57 then some (b.toNat + 4)
  else if b = a.symbol 62 then some 62
  else if b = a.symbol 63 then some 63
  else none

def padSign : UInt8 := 61

/-! ## Regrouping -/

/-- The six-bit numbers of an octet string; the last one is filled up with zero bits. -/
def sextets : Octets → List Nat
  | [] => []
  | [x] => [x.toNat / 4, x.toNat % 4 * 16]
  | [x, y] => [x.toNat / 4, x.toNat % 4 * 16 + y.toNat / 16, y.toNat % 16 * 4]
  | x :: y :: z :: rest =>
    x.toNat / 4 :: (x.toNat % 4 * 16 + y.toNat / 16) :: (y.toNat % 16 * 4 + z.toNat / 64)
      :: z.toNat % 64 :: sextets rest

/-- The octets of six-bit numbers; bits that make no whole octet are dropped. -/
def ofSextets : List Nat → Octets
  | a :: b :: c :: d :: rest =>
    UInt8.ofNat (a * 4 + b / 16) :: UInt8.ofNat (b % 16 * 16 + c / 4)
      :: UInt8.ofNat (c % 4 * 64 + d) :: ofSextets rest
  | [a, b, c] => [UInt8.ofNat (a * 4 + b / 16), UInt8.ofNat (b % 16 * 16 + c / 4)]
  | [a, b] => [UInt8.ofNat (a * 4 + b / 16)]
  | _ => []

/-- The value of the bits of the last six-bit number that make no whole octet. -/
def spareBits : List Nat → Nat
  | _ :: _ :: _ :: _ :: rest => spareBits rest
  | [_, _, c] => c % 4
  | [_, b] => b % 16
  | _ => 0

/-! ## Texts -/

def encode (a : Alphabet) (p : Padding) (o : Octets) : Octets :=
  let symbols := (sextets o).map a.symbol
  match p with
  | .absent => symbols
  | .required => symbols ++ List.replicate ((4 - symbols.length % 4) % 4) padSign

/-- The six-bit numbers of symbols, of which the first one stands at an offset. -/
def values (a : Alphabet) (offset : Nat) : Octets → Except Fault (List Nat)
  | [] => .ok []
  | b :: rest =>
    match a.value? b with
    | none => .error (.invalidByte b offset)
    | some n => (values a (offset + 1) rest).map (n :: ·)

/-- Whether a single symbol would be left over; the last octet is looked at first. -/
def remainderFault? (a : Alphabet) (s : Octets) : Option Fault :=
  if s.length % 4 = 1 then
    match s.getLast? with
    | some b =>
      if b ≠ padSign && (a.value? b).isNone then some (.invalidByte b (s.length - 1))
      else some .sixBitRemainder
    | none => some .sixBitRemainder
  else none

/-- What is wrong with the padding signs `pads` after `count` symbols. -/
def paddingFault? (p : Padding) (count : Nat) (pads : Octets) : Option Fault :=
  if pads.isEmpty then
    (match p with
     | .absent => none
     | .required => if count % 4 = 0 then none else some .invalidPadding)
  else if count % 4 < 2 || 4 < count % 4 + pads.length || pads.any (· ≠ padSign) then
    some (.invalidByte padSign count)
  else
    match p with
    | .absent => some .invalidPadding
    | .required => if (count + pads.length) % 4 = 0 then none else some .invalidPadding

def decode (a : Alphabet) (p : Padding) (s : Octets) : Except Fault Octets :=
  match remainderFault? a s with
  | some e => .error e
  | none =>
    let symbols := s.takeWhile (· ≠ padSign)
    match values a 0 symbols with
    | .error e => .error e
    | .ok ns =>
      match paddingFault? p symbols.length (s.dropWhile (· ≠ padSign)) with
      | some e => .error e
      | none =>
        if spareBits ns = 0 then .ok (ofSextets ns)
        else .error (.invalidLastSymbol (symbols.getLastD 0) (symbols.length - 1))

end Tollgate.Base64
