import Tollgate.Power

/-! # Octet strings

Tokens, keys and messages travel as octets.  An `Octets` is the list of them, so
that readers consume it from the front by pattern matching.

* `Octets.ofString` and `Octets.toText?` — UTF-8 both ways; decoding refuses
  anything that is not well formed;
* `Octets.toTextLossy` — decoding that replaces each ill-formed stretch by U+FFFD;
* `asciiLower`, `lowered`, `equalIgnoringCase` — the ASCII case folding that names of schemes
  and algorithms are compared with;
* `Octets.ofHex?` — pairs of hexadecimal digits;
* `Octets.toNat` and `Octets.ofNat` — big-endian numbers.
-/

namespace Tollgate

abbrev Octets := List UInt8

namespace Octets

/-! ## Text -/

def ofString (s : String) : Octets := s.toUTF8.data.toList

/-- The text an octet string encodes, if it is well-formed UTF-8. -/
def toText? (o : Octets) : Option String := String.fromUTF8? ⟨o.toArray⟩

theorem toText?_ofString (s : String) : toText? (ofString s) = some s := by
  have hb : (⟨(ofString s).toArray⟩ : ByteArray) = s.toUTF8 := by
    simp [ofString]
  unfold toText? String.fromUTF8?
  rw [hb]
  split
  · rfl
  · next h => exact absurd s.isValidUTF8 h

/-- The character whose UTF-8 encoding starts an octet string, with its length. -/
def leadingChar? (o : Octets) : Option (Char × Nat) :=
  [1, 2, 3, 4].findSome? fun n =>
    if o.length < n then none
    else match toText? (o.take n) with
      | some s => s.toList.head?.map (·, n)
      | none => none

/-- Whether an octet continues a multi-octet UTF-8 sequence that starts with `lead`
    and already has `seen` octets. -/
def continues (lead : UInt8) (seen : Nat) (next : UInt8) : Bool :=
  let low : UInt8 := if seen = 1 then
    (if lead = 0xE0 then 0xA0 else if lead = 0xF0 then 0x90 else 0x80) else 0x80
  let high : UInt8 := if seen = 1 then
    (if lead = 0xED then 0x9F else if lead = 0xF4 then 0x8F else 0xBF) else 0xBF
  low ≤ next && next ≤ high

/-- The length of the longest start of `o` that is a cut-off UTF-8 sequence; at
    least one octet is always taken. -/
def brokenLength (o : Octets) : Nat :=
  match o with
  | [] => 0
  | lead :: rest =>
    let want : Nat :=
      if 0xC2 ≤ lead && lead ≤ 0xDF then 2
      else if 0xE0 ≤ lead && lead ≤ 0xEF then 3
      else if 0xF0 ≤ lead && lead ≤ 0xF4 then 4 else 1
    let rec grow (seen : Nat) : Octets → Nat
      | [] => seen
      | next :: more =>
        if seen + 1 < want && continues lead seen next then grow (seen + 1) more else seen
    grow 1 rest

/-- The text of an octet string in which every ill-formed stretch is shown as the
    replacement character. -/
def toTextLossy (o : Octets) : String :=
  match toText? o with
  | some s => s
  | none => String.ofList (go o.length o)
where
  /-- Decode character by character; the fuel is the number of octets left. -/
  go : Nat → Octets → List Char
    | 0, _ => []
    | _, [] => []
    | fuel + 1, o =>
      match leadingChar? o with
      | some (c, n) => c :: go fuel (o.drop n)
      | none => '\uFFFD' :: go fuel (o.drop (max 1 (brokenLength o)))

/-! ## ASCII -/

/-- The lower-case form of an ASCII capital; every other octet is itself. -/
def lower (b : UInt8) : UInt8 := if 65 ≤ b && b ≤ 90 then b + 32 else b

def isDigit (b : UInt8) : Bool := 48 ≤ b && b ≤ 57

def isLetter (b : UInt8) : Bool := (65 ≤ b && b ≤ 90) || (97 ≤ b && b ≤ 122)

def hexValue? (b : UInt8) : Option Nat :=
  if isDigit b then some (b.toNat - 48)
  else if 97 ≤ lower b && lower b ≤ 102 then some ((lower b).toNat - 87)
  else none

/-- The lower-case hexadecimal digit of a value below sixteen. -/
def hexDigit (n : Nat) : UInt8 := UInt8.ofNat (if n < 10 then 48 + n else 87 + n)

/-- The octets a text of hexadecimal digit pairs stands for. -/
def ofHex? : Octets → Option Octets
  | [] => some []
  | [_] => none
  | a :: b :: rest => do
    let high ← hexValue? a
    let low ← hexValue? b
    let more ← ofHex? rest
    return UInt8.ofNat (high * 16 + low) :: more

/-! ## Numbers -/

/-- The number whose big-endian octets these are. -/
def toNat (o : Octets) : Nat := o.foldl (fun n b => n * 256 + b.toNat) 0

/-- The big-endian octets of a number, exactly `size` of them; a number that needs
    more loses its high octets. -/
def ofNat (size n : Nat) : Octets :=
  (List.range size).map fun i => UInt8.ofNat (n / twoTo (8 * (size - 1 - i)) % 256)

/-- The number of octets a number needs; zero needs none. -/
def width (n : Nat) : Nat := if n = 0 then 0 else n.log2 / 8 + 1

end Octets

/-- An ASCII capital becomes its small letter; every other character stays. -/
def asciiLower (c : Char) : Char := if 'A' ≤ c ∧ c ≤ 'Z' then Char.ofNat (c.toNat + 32) else c

/-- A text with its ASCII capitals as small letters. -/
def lowered (s : String) : String := String.ofList (s.toList.map asciiLower)

/-- Two texts are the same up to the case of ASCII letters. -/
def equalIgnoringCase (a b : String) : Bool := lowered a == lowered b

end Tollgate
