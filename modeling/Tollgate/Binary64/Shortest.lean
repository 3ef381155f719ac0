import Tollgate.Binary64
import Tollgate.Power

/-! # The shortest decimal of a binary64 number

A number is written with the fewest significant digits that read back as the same
number; of two such decimals the nearer one is taken, and of two equally near ones
the even one.

* `Decimal` — `coefficient · 10 ^ power`;
* `Magnitude.shortest` — the choice, by exact arithmetic on naturals;
* `Decimal.plain` — all places written out, no exponent;
* `Decimal.scientific` — one digit before the point and a power of ten.
-/

namespace Tollgate

/-- The value `coefficient · 10 ^ power`. -/
structure Decimal where
  coefficient : Nat
  power : Int
  deriving DecidableEq, Repr

namespace Decimal

def trim (d : Decimal) : Decimal :=
  if h : d.coefficient ≠ 0 ∧ d.coefficient % 10 = 0 then
    trim ⟨d.coefficient / 10, d.power + 1⟩
  else d
termination_by d.coefficient
decreasing_by
  omega

def digits (d : Decimal) : List Char := d.coefficient.repr.toList

/-- The power of ten of the first digit. -/
def leading (d : Decimal) : Int := d.power + d.digits.length - 1

/-- All places written out: no exponent, and a point only before a fraction. -/
def plain (d : Decimal) : String :=
  let ds := d.digits
  if 0 ≤ d.power then String.ofList (ds ++ List.replicate d.power.toNat '0')
  else
    let places := (-d.power).toNat
    if places < ds.length then
      String.ofList (ds.take (ds.length - places) ++ '.' :: ds.drop (ds.length - places))
    else String.ofList ('0' :: '.' :: List.replicate (places - ds.length) '0' ++ ds)

/-- One digit before the point and a signed power of ten. -/
def scientific (d : Decimal) : String :=
  let mantissa := match d.digits with
    | [] => []
    | [c] => [c]
    | c :: cs => c :: '.' :: cs
  let e := d.leading
  String.ofList mantissa ++ "e" ++ (if e < 0 then "-" else "+") ++ e.natAbs.repr

end Decimal

namespace Magnitude

/-- `c · 10 ^ power` in the common unit in which it is compared with quarters of the
    last place of a magnitude with this exponent. -/
def decimalSide (exponent power : Int) (c : Nat) : Nat :=
  c * tenTo power.toNat * twoTo (2 - exponent).toNat

/-- `x` quarters of the last place in the same unit. -/
def binarySide (exponent power : Int) (x : Nat) : Nat :=
  x * twoTo (exponent - 2).toNat * tenTo (-power).toNat

/-- Whether `c · 10 ^ power` reads back as `x`: it lies between the midpoints to the
    two neighbours of `x`, a midpoint itself counting when the mantissa is even. -/
def readsBack (x : Magnitude) (power : Int) (c : Nat) : Bool :=
  -- Below a power of two the neighbour is only half as far away.
  let below := if x.mantissa = twoTo 52 ∧ -1074 < x.exponent then 1 else 2
  let low := binarySide x.exponent power (4 * x.mantissa - below)
  let high := binarySide x.exponent power (4 * x.mantissa + 2)
  let value := decimalSide x.exponent power c
  if x.mantissa % 2 = 0 then low ≤ value && value ≤ high else low < value && value < high

/-- The power of ten of the first significant digit of a positive magnitude. -/
def leadingPower (x : Magnitude) : Int :=
  -- From the logarithm of two to the base ten; the guess is put right by trying.
  let guess : Int := ((x.mantissa.log2 + x.exponent : Int) * 30103) / 100000
  let reaches (e : Int) : Bool :=
    x.denominator * tenTo e.toNat ≤ x.numerator * tenTo (-e).toNat
  ([guess + 2, guess + 1, guess, guess - 1].find? reaches).getD (guess - 2)

/-- The decimal with `count` significant digits that reads back as `x` and is nearest
    to it, if one of the two neighbours of `x` on that grid reads back. -/
def withDigits? (x : Magnitude) (leading : Int) (count : Nat) : Option Decimal :=
  let power := leading - count + 1
  let value := binarySide x.exponent power (4 * x.mantissa)
  let step := decimalSide x.exponent power 1
  let floor := value / step
  match readsBack x power floor, readsBack x power (floor + 1) with
  | false, false => none
  | true, false => some ⟨floor, power⟩
  | false, true => some ⟨floor + 1, power⟩
  | true, true => some ⟨roundDiv value step, power⟩

/-- The shortest decimal that reads back as `x`; seventeen digits always do. -/
def shortest (x : Magnitude) : Decimal :=
  if x.isZero then ⟨0, 0⟩
  else
    let leading := x.leadingPower
    match (List.range' 1 17).findSome? (x.withDigits? leading) with
    | some d => d.trim
    | none => ⟨x.numerator / x.denominator, 0⟩

end Magnitude

namespace Binary64

/-- Every digit written out and never an exponent: `1.5`, `1000`, `0.001`. -/
def plain : Binary64 → String
  | .finite negative x => (if negative then "-" else "") ++ x.shortest.plain
  | .infinite negative => if negative then "-inf" else "inf"
  | .nan => "NaN"

end Binary64

end Tollgate
