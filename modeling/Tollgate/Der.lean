import Tollgate.Octets

/-! # Tagged values

Keys are written as nested tagged values (DER): a tag octet, the length of the content,
and the content.  There is one way to write a value, and readers accept no other.

* `tagged`, `readTagged` — one value with a given tag;
* `lengthOctets`, `readLength` — the length, in as few octets as possible;
* `natural`, `readNatural` — non-negative integers, in as few octets as possible.
-/

namespace Tollgate.Der

def integerTag : UInt8 := 0x02
def bitStringTag : UInt8 := 0x03
def nullTag : UInt8 := 0x05
def identifierTag : UInt8 := 0x06
def sequenceTag : UInt8 := 0x30

/-- The octets that write a length: one for a length below 128, otherwise their number
    and then the big-endian length. -/
def lengthOctets (n : Nat) : Octets :=
  if n < 128 then [UInt8.ofNat n]
  else UInt8.ofNat (128 + Octets.width n) :: Octets.ofNat (Octets.width n) n

/-- A length of at most four octets, written as short as possible. -/
def readLength : Octets → Option (Nat × Octets)
  | [] => none
  | b :: s =>
    if b < 128 then some (b.toNat, s)
    else
      let size := b.toNat - 128
      let n := Octets.toNat (s.take size)
      if 1 ≤ size && size ≤ 4 && size ≤ s.length && 128 ≤ n && Octets.width n = size then
        some (n, s.drop size)
      else none

/-- A value with its tag and length. -/
def tagged (tag : UInt8) (content : Octets) : Octets :=
  tag :: (lengthOctets content.length ++ content)

/-- The content of the value at the front, which has a given tag, and what follows it. -/
def readTagged (tag : UInt8) : Octets → Option (Octets × Octets)
  | [] => none
  | b :: s =>
    if b ≠ tag then none
    else
      match readLength s with
      | some (n, s) => if n ≤ s.length then some (s.take n, s.drop n) else none
      | none => none

/-- The content of the only value of a text. -/
def readOnly (tag : UInt8) (s : Octets) : Option Octets :=
  match readTagged tag s with
  | some (content, []) => some content
  | _ => none

/-- The content of a non-negative integer: big-endian, with one zero octet in front where
    the highest bit is set. -/
def naturalContent (n : Nat) : Octets :=
  let o := Octets.ofNat (Octets.width n) n
  match o with
  | [] => [0]
  | b :: _ => if 128 ≤ b then 0 :: o else o

def natural (n : Nat) : Octets := tagged integerTag (naturalContent n)

/-- The non-negative integer that a content writes in the shortest way. -/
def naturalOf? : Octets → Option Nat
  | [] => none
  | [b] => if b < 128 then some b.toNat else none
  | b :: c :: rest =>
    if b = 0 then (if c < 128 then none else some (Octets.toNat (c :: rest)))
    else if b < 128 then some (Octets.toNat (b :: c :: rest))
    else none

def readNatural (s : Octets) : Option (Nat × Octets) :=
  match readTagged integerTag s with
  | some (content, s) => (naturalOf? content).map (·, s)
  | none => none

end Tollgate.Der
