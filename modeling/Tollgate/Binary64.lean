import Tollgate.Power

/-! # Binary64 numbers

Coordinates and free claim values are binary64 floating-point numbers.  They are
kept here as an exact sign, mantissa and exponent, so that reading, writing and
comparing them is arithmetic on integers.

* `Magnitude` — a non-negative finite value `mantissa · 2 ^ exponent` in normal form;
* `Magnitude.nearest?` — the magnitude nearest to a quotient of naturals, a tie going
  to the even mantissa;
* `Magnitude.times?` and `Magnitude.over?` — exact product and quotient, rounded once;
* `Binary64` — a signed magnitude, an infinity, or not a number;
* `Binary64.units` — the value of a finite number counted in the smallest positive
  binary64, which turns comparisons into comparisons of integers.
-/

namespace Tollgate

/-- A non-negative binary64 value `mantissa · 2 ^ exponent`.  In normal form the
    mantissa is below `2 ^ 53`, the exponent lies between -1074 and 971, and a mantissa
    below `2 ^ 52` goes with the exponent -1074 only. -/
structure Magnitude where
  mantissa : Nat
  exponent : Int
  deriving DecidableEq, Repr

namespace Magnitude

def zero : Magnitude := ⟨0, -1074⟩

def isZero (x : Magnitude) : Bool := x.mantissa == 0

/-- The quotient of two naturals rounded to nearest; a half goes to the even neighbour. -/
def roundDiv (num den : Nat) : Nat :=
  let quotient := num / den
  let twice := 2 * (num % den)
  if twice < den then quotient
  else if den < twice then quotient + 1
  else if quotient % 2 = 0 then quotient else quotient + 1

/-- The exponent of the last place of `num / den`: the quotient counted in that power
    of two has 53 bits, unless the smallest exponent is reached first. -/
def lastPlace (num den : Nat) : Int :=
  let guess : Int := (num.log2 : Int) - (den.log2 : Int) - 52
  let exact : Int :=
    if num * twoTo (-guess).toNat < twoTo 52 * (den * twoTo guess.toNat) then guess - 1 else guess
  max exact (-1074)

/-- The magnitude nearest to `num / den`; none where that lies beyond the largest one. -/
def nearest? (num den : Nat) : Option Magnitude :=
  if num = 0 then some zero
  else
    let place := lastPlace num den
    let rounded := roundDiv (num * twoTo (-place).toNat) (den * twoTo place.toNat)
    -- rounding up may carry into a 54th bit
    let x : Magnitude := if rounded = twoTo 53 then ⟨twoTo 52, place + 1⟩ else ⟨rounded, place⟩
    if 971 < x.exponent then none else some x

/-- The numerator of the value written as a fraction over `denominator`. -/
def numerator (x : Magnitude) : Nat := x.mantissa * twoTo x.exponent.toNat

def denominator (x : Magnitude) : Nat := twoTo (-x.exponent).toNat

/-- The product, rounded once. -/
def times? (x y : Magnitude) : Option Magnitude :=
  nearest? (x.numerator * y.numerator) (x.denominator * y.denominator)

/-- The quotient, rounded once.  The divisor is not zero. -/
def over? (x y : Magnitude) : Option Magnitude :=
  nearest? (x.numerator * y.denominator) (x.denominator * y.numerator)

/-- The magnitude nearest to `coefficient · 10 ^ power`. -/
def ofDecimal? (coefficient : Nat) (power : Int) : Option Magnitude :=
  if coefficient = 0 then some zero
  else if 400 < power then none
  else if power < -(400 + coefficient.log2 : Int) then some zero
  else nearest? (coefficient * tenTo power.toNat) (tenTo (-power).toNat)

/-- The value in units of `2 ^ -1074`, always a whole number. -/
def units (x : Magnitude) : Nat := x.mantissa * twoTo (x.exponent + 1074).toNat

end Magnitude

inductive Binary64 where
  | finite (negative : Bool) (size : Magnitude)
  | infinite (negative : Bool)
  | nan
  deriving DecidableEq, Repr

namespace Binary64

def ofInt (z : Int) : Binary64 :=
  match Magnitude.nearest? z.natAbs 1 with
  | some x => .finite (z < 0) x
  | none => .infinite (z < 0)

def zero : Binary64 := .finite false .zero

instance : Inhabited Binary64 := ⟨zero⟩

/-- A finite value in units of `2 ^ -1074`. -/
def units? : Binary64 → Option Int
  | .finite negative x => some (if negative then -(x.units : Int) else x.units)
  | _ => none

/-- Whether a number lies between two integers, ends included. -/
def between (low high : Int) (x : Binary64) : Bool :=
  match x.units? with
  | some u => low * twoTo 1074 ≤ u && u ≤ high * twoTo 1074
  | none => false

def toInt? (x : Binary64) : Option Int :=
  match x.units? with
  | some u => if u % twoTo 1074 = 0 then some (u / twoTo 1074) else none
  | none => none

/-! ## Reading decimals -/

def digitsValue (ds : List Char) : Nat := ds.foldl (fun n d => n * 10 + (d.toNat - 48)) 0

/-- The power of ten after the mark `e`: an optional sign and at least one digit. -/
def powerOf? : List Char → Option Int
  | '-' :: ds => if ds.isEmpty || !ds.all Char.isDigit then none else some (-(digitsValue ds : Int))
  | '+' :: ds => if ds.isEmpty || !ds.all Char.isDigit then none else some (digitsValue ds)
  | ds => if ds.isEmpty || !ds.all Char.isDigit then none else some (digitsValue ds)

/-- The number that an unsigned decimal text stands for: digits with an optional
    point, at least one digit in all, and an optional power of ten. -/
def ofUnsigned? (negative : Bool) (cs : List Char) : Option Binary64 :=
  let whole := cs.takeWhile Char.isDigit
  let rest := cs.dropWhile Char.isDigit
  let (fraction, rest) := match rest with
    | '.' :: more => (more.takeWhile Char.isDigit, more.dropWhile Char.isDigit)
    | other => ([], other)
  if whole.isEmpty && fraction.isEmpty then none
  else do
    let power ← match rest with
      | [] => some 0
      | 'e' :: ds => powerOf? ds
      | 'E' :: ds => powerOf? ds
      | _ => none
    return match Magnitude.ofDecimal? (digitsValue (whole ++ fraction)) (power - fraction.length) with
      | some x => .finite negative x
      | none => .infinite negative

/-- The number a text stands for: a signed decimal, an infinity or `nan`. -/
def ofText? (s : String) : Option Binary64 :=
  match s.toList with
  | '-' :: cs => unsigned true cs
  | '+' :: cs => unsigned false cs
  | cs => unsigned false cs
where
  unsigned (negative : Bool) (cs : List Char) : Option Binary64 :=
    let word := String.ofList (cs.map asciiLowerLetter)
    if word = "inf" || word = "infinity" then some (.infinite negative)
    else if word = "nan" then some .nan
    else ofUnsigned? negative cs
  asciiLowerLetter (c : Char) : Char := if 'A' ≤ c ∧ c ≤ 'Z' then Char.ofNat (c.toNat + 32) else c

end Binary64

end Tollgate
