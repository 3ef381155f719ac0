import Tollgate.Json.Fault
import Tollgate.Power

/-! # Reading JSON from the front

A reader takes octets and answers what it read together with the octets that are left, or
the first fault it meets.  Nothing is looked at before its turn, so of two faults in a text
the earlier one is reported.

Loops take a bound on their number of rounds.  Every round consumes at least one octet, so
the length of the whole text is always enough; `document` supplies it.

* `readText` — a string after its opening quote;
* `readNumber` — a number and how its value is found;
* `elements`, `members` — lists and objects, with a reader for what they hold;
* `readValue` — any value, kept as data;
* `skipValue` — any value, only scanned.
-/

namespace Tollgate.Json

abbrev Reader (α : Type) := Octets → Except Fault (α × Octets)

/-- Blanks between tokens: space, tab, line feed, carriage return. -/
def isBlank (b : UInt8) : Bool := b == 32 || b == 9 || b == 10 || b == 13

def skipBlanks (s : Octets) : Octets := s.dropWhile isBlank

/-- The rest of a word whose first letters were seen. -/
def readWord : Octets → Octets → Except Fault Octets
  | [], s => .ok s
  | _ :: _, [] => .error .truncated
  | e :: expected, b :: s => if b = e then readWord expected s else .error .malformed

/-! ## Strings -/

def readUnit : Reader Nat
  | a :: b :: c :: d :: s =>
    match Octets.hexValue? a, Octets.hexValue? b, Octets.hexValue? c, Octets.hexValue? d with
    | some a, some b, some c, some d => .ok (((a * 16 + b) * 16 + c) * 16 + d, s)
    | _, _, _, _ => .error .malformed
  | _ => .error .truncated

/-- The second half of a surrogate pair, after the first half `high`. -/
def readLowSurrogate (high : Nat) : Reader Char
  | [] => .error .truncated
  | [b] => .error (if b = 92 then .truncated else .malformed)
  | b :: u :: s =>
    if b ≠ 92 || u ≠ 117 then .error .malformed
    else
      match readUnit s with
      | .error e => .error e
      | .ok (low, s) =>
        if low < 0xDC00 || 0xDFFF < low then .error .malformed
        else .ok (Char.ofNat ((high - 0xD800) * 0x400 + (low - 0xDC00) + 0x10000), s)

/-- The character written after the escape letter `u`; surrogates come in pairs. -/
def readCodePoint (s : Octets) : Except Fault (Char × Octets) :=
  match readUnit s with
  | .error e => .error e
  | .ok (unit, s) =>
    if 0xDC00 ≤ unit && unit ≤ 0xDFFF then .error .malformed
    else if unit < 0xD800 || 0xDBFF < unit then .ok (Char.ofNat unit, s)
    else readLowSurrogate unit s

def escaped? (b : UInt8) : Option UInt8 :=
  if b = 34 || b = 92 || b = 47 then some b
  else if b = 98 then some 8
  else if b = 102 then some 12
  else if b = 110 then some 10
  else if b = 114 then some 13
  else if b = 116 then some 9
  else none

/-- What stands after a backslash, as the octets it means. -/
def readEscape : Reader Octets
  | [] => .error .truncated
  | b :: s =>
    match escaped? b with
    | some c => .ok ([c], s)
    | none =>
      if b = 117 then
        match readCodePoint s with
        | .ok (c, s) => .ok (String.utf8EncodeChar c, s)
        | .error e => .error e
      else .error .malformed

/-- The octets of a string up to its closing quote, in front of which `seen` stand
    reversed. -/
def readOctets : Nat → Octets → Reader Octets
  | 0, _, _ => .error .truncated
  | _ + 1, _, [] => .error .truncated
  | rounds + 1, seen, b :: s =>
    if b = 34 then .ok (seen.reverse, s)
    else if b = 92 then
      match readEscape s with
      | .error e => .error e
      | .ok (o, s) => readOctets rounds (o.reverseAux seen) s
    else if b < 32 then .error .malformed
    else readOctets rounds (b :: seen) s

def readText (rounds : Nat) (s : Octets) : Except Fault (String × Octets) :=
  match readOctets rounds [] s with
  | .error e => .error e
  | .ok (o, s) =>
    match Octets.toText? o with
    | some t => .ok (t, s)
    | none => .error .malformed

/-! ## Numbers -/

structure Numeral where
  negative : Bool
  whole : List Nat
  fraction : List Nat
  power : Int
  /-- Whether the number has neither a point nor a power. -/
  isInteger : Bool
  deriving DecidableEq, Repr

def leadingDigits (s : Octets) : List Nat :=
  (s.takeWhile Octets.isDigit).map fun b => b.toNat - 48

def afterDigits (s : Octets) : Octets := s.dropWhile Octets.isDigit

/-- One digit or more, where at least one has to stand. -/
def readDigits (s : Octets) : Except Fault (List Nat × Octets) :=
  match s with
  | [] => .error .truncated
  | b :: _ => if Octets.isDigit b then .ok (leadingDigits s, afterDigits s) else .error .malformed

/-- The digits before the point: a single zero, or no leading zero. -/
def readWhole (s : Octets) : Except Fault (List Nat × Octets) :=
  match readDigits s with
  | .ok (0 :: _ :: _, _) => .error .malformed
  | other => other

/-- The digits after a point, if there is one. -/
def readFraction : Octets → Except Fault (Option (List Nat) × Octets)
  | 46 :: s =>
    match readDigits s with
    | .ok (ds, s) => .ok (some ds, s)
    | .error e => .error e
  | s => .ok (none, s)

def digitsNat (ds : List Nat) : Nat := ds.foldl (fun n d => n * 10 + d) 0

def readPower : Octets → Except Fault (Int × Octets)
  | 43 :: s =>
    match readDigits s with
    | .ok (ds, s) => .ok (digitsNat ds, s)
    | .error e => .error e
  | 45 :: s =>
    match readDigits s with
    | .ok (ds, s) => .ok (-(digitsNat ds : Int), s)
    | .error e => .error e
  | s =>
    match readDigits s with
    | .ok (ds, s) => .ok (digitsNat ds, s)
    | .error e => .error e

def readPower? : Octets → Except Fault (Option Int × Octets)
  | b :: s =>
    if b = 101 || b = 69 then
      match readPower s with
      | .ok (e, s) => .ok (some e, s)
      | .error e => .error e
    else .ok (none, b :: s)
  | [] => .ok (none, [])

def readUnsigned (negative : Bool) (s : Octets) : Except Fault (Numeral × Octets) :=
  match readWhole s with
  | .error e => .error e
  | .ok (whole, s) =>
    match readFraction s with
    | .error e => .error e
    | .ok (fraction, s) =>
      match readPower? s with
      | .error e => .error e
      | .ok (power, s) =>
        .ok (⟨negative, whole, fraction.getD [], power.getD 0,
          fraction.isNone && power.isNone⟩, s)

/-- A number, from its sign or first digit on. -/
def readNumeral : Reader Numeral
  | 45 :: s => readUnsigned true s
  | s => readUnsigned false s

/-- Take further digits into a significand as long as it stays below `2 ^ 64`; answers
    the significand and the digits that did not fit. -/
def fitDigits (significand : Nat) : List Nat → Nat × List Nat
  | [] => (significand, [])
  | d :: ds =>
    if significand * 10 + d < twoTo 64 then fitDigits (significand * 10 + d) ds
    else (significand, d :: ds)

def powerOfTen? (power : Nat) : Option Magnitude := Magnitude.nearest? (tenTo power) 1

/-- The largest power of ten that is a finite number. -/
def largestPower : Nat := 308

/-- Divide by the largest power of ten a number of times; zero stays zero. -/
def shrink : Nat → Magnitude → Option Magnitude
  | 0, x => some x
  | times + 1, x =>
    if x.isZero then some x
    else
      match (powerOfTen? largestPower).bind x.over? with
      | some y => shrink times y
      | none => none

/-- Divide by a power of ten: by the largest one as long as the power is larger, and then
    by what is left. -/
def scaleDown (x : Magnitude) (power : Nat) : Option Magnitude :=
  let times := (power - 1) / largestPower
  match shrink times x with
  | none => none
  | some y => if y.isZero then some y else (powerOfTen? (power - times * largestPower)).bind y.over?

/-- A significand times a power of ten: the significand, the power and their product are
    each rounded.  None where the result is beyond the largest number. -/
def scale (significand : Nat) (power : Int) : Option Magnitude :=
  match Magnitude.nearest? significand 1 with
  | none => none
  | some x =>
    if power < 0 then scaleDown x power.natAbs
    else if power ≤ largestPower then (powerOfTen? power.toNat).bind x.times?
    else if x.isZero then some x
    else none

/-- The value of a number.  An integer of 64 bits is itself.  Any other number is its
    leading digits, as many as fit 64 bits, scaled by a power of ten; digits before the
    point that do not fit count as places, and digits after it are dropped. -/
def Numeral.value? (n : Numeral) : Option Number :=
  let (head, excess) := fitDigits 0 n.whole
  -- Minus zero, and what does not fit 64 bits, is a float.
  if n.isInteger && excess.isEmpty && !(n.negative && (head = 0 || twoTo 63 < head)) then
    some (.int (if n.negative then -(head : Int) else head))
  else
    let (significand, dropped) := fitDigits head n.fraction
    let places : Int := (excess.length : Int) - (n.fraction.length - dropped.length)
    (scale significand (places + n.power)).map fun x => .float (.finite n.negative x)

def readNumber (s : Octets) : Except Fault (Number × Octets) :=
  match readNumeral s with
  | .error e => .error e
  | .ok (n, s) =>
    match n.value? with
    | some x => .ok (x, s)
    | none => .error .malformed

/-! ## Lists and objects -/

/-- Whether a list goes on: the text of its next item, or none at its closing bracket. -/
def nextItem (first : Bool) (s : Octets) : Except Fault (Option Octets) :=
  match skipBlanks s with
  | [] => .error .truncated
  | b :: rest =>
    if b = 93 then .ok none
    else if first then .ok (some (b :: rest))
    else if b = 44 then
      match skipBlanks rest with
      | [] => .error .truncated
      -- No comma stands before the closing bracket.
      | c :: rest => if c = 93 then .error .malformed else .ok (some (c :: rest))
    else .error .malformed

/-- The closing bracket of a list whose items were all read. -/
def closeList (s : Octets) : Except Fault Octets :=
  match skipBlanks s with
  | [] => .error .truncated
  | b :: rest => if b = 93 then .ok rest else .error .malformed

/-- The items of a list after its opening bracket, in front of which `seen` stand
    reversed. -/
def elements {α : Type} (item : Reader α) : Nat → Bool → List α → Reader (List α)
  | 0, _, _, _ => .error .truncated
  | rounds + 1, first, seen, s =>
    match nextItem first s with
    | .error e => .error e
    | .ok none =>
      match closeList s with
      | .ok s => .ok (seen.reverse, s)
      | .error e => .error e
    | .ok (some s) =>
      match item s with
      | .error e => .error e
      | .ok (a, s) => elements item rounds false (a :: seen) s

/-- Whether an object goes on: the text after the opening quote of its next name, or none
    at its closing brace. -/
def nextName (first : Bool) (s : Octets) : Except Fault (Option Octets) :=
  match skipBlanks s with
  | [] => .error .truncated
  | b :: rest =>
    if b = 125 then .ok none
    else if first then (if b = 34 then .ok (some rest) else .error .malformed)
    else if b = 44 then
      match skipBlanks rest with
      | [] => .error .truncated
      | c :: rest => if c = 34 then .ok (some rest) else .error .malformed
    else .error .malformed

def readColon (s : Octets) : Except Fault Octets :=
  match skipBlanks s with
  | [] => .error .truncated
  | b :: rest => if b = 58 then .ok rest else .error .malformed

/-- The text after the closing brace that `nextName` found. -/
def afterBrace (s : Octets) : Octets := (skipBlanks s).drop 1

/-- The members of an object after its opening brace.  `member` gets what was read so far
    and a name, and reads the value of that name. -/
def members {σ : Type} (member : σ → String → Reader σ) : Nat → Bool → σ → Reader σ
  | 0, _, _, _ => .error .truncated
  | rounds + 1, first, state, s =>
    match nextName first s with
    | .error e => .error e
    | .ok none => .ok (state, afterBrace s)
    | .ok (some s) =>
      match readText (rounds + 1) s with
      | .error e => .error e
      | .ok (name, s) =>
        match readColon s with
        | .error e => .error e
        | .ok s =>
          match member state name s with
          | .error e => .error e
          | .ok (state, s) => members member rounds false state s

/-! ## Values -/

/-- Read a word and answer what it stands for. -/
def readConstant {α : Type} (expected : Octets) (a : α) (s : Octets) :
    Except Fault (α × Octets) :=
  match readWord expected s with
  | .ok s => .ok (a, s)
  | .error e => .error e

/-- Any value as data.  The first bound counts rounds of loops, the second one levels of
    nesting: a list or object needs a level for itself and one for what it holds. -/
def readValue (rounds : Nat) : Nat → Reader Value
  | 0, _ => .error .malformed
  | levels + 1, s =>
    match skipBlanks s with
    | [] => .error .truncated
    | b :: rest =>
      if b = 110 then readConstant nullWord.tail .null rest
      else if b = 116 then readConstant trueWord.tail (.bool true) rest
      else if b = 102 then readConstant falseWord.tail (.bool false) rest
      else if b = 34 then
        match readText rounds rest with
        | .ok (t, s) => .ok (.text t, s)
        | .error e => .error e
      else if b = 45 || Octets.isDigit b then
        match readNumber (b :: rest) with
        | .ok (n, s) => .ok (.number n, s)
        | .error e => .error e
      else if b = 91 then
        if levels = 0 then .error .malformed
        else
          match elements (readValue rounds levels) rounds true [] rest with
          | .ok (items, s) => .ok (.list items, s)
          | .error e => .error e
      else if b = 123 then
        if levels = 0 then .error .malformed
        else
          let member := fun (seen : List (String × Value)) (name : String) (s : Octets) =>
            match readValue rounds levels s with
            | .ok (v, s) => Except.ok (Sorted.insert name v seen, s)
            | .error e => .error e
          match members member rounds true [] rest with
          | .ok (ms, s) => .ok (.object ms, s)
          | .error e => .error e
      else .error .malformed

/-- A text that holds one value and nothing after it.  The reader gets the bound on rounds
    that is enough for the text. -/
def document {α : Type} (reader : Nat → Reader α) (s : Octets) : Except Fault α :=
  match reader (s.length + 1) s with
  | .error e => .error e
  | .ok (a, rest) => if (skipBlanks rest).isEmpty then .ok a else .error .malformed

/-- The number of nesting levels a text may have, its outermost value included. -/
def maxLevels : Nat := 128

def parse (s : Octets) : Except Fault Value := document (fun n => readValue n maxLevels) s

end Tollgate.Json
