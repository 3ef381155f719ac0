import Tollgate.Power
import Tollgate.Rsa

/-! # Making RSA keys

A key is made from two primes, which are found by going up from two random starting
points.

* `isProbablePrime` — trial division and Miller-Rabin rounds;
* `primeFrom?` — the first usable prime from a starting point on;
* `ofPrimes?`, `generate?` — the key.
-/

namespace Tollgate.Rsa

/-- The public exponent of every key that is made here. -/
def standardExponent : Nat := 65537

/-- The first primes, for trial division and as bases of the rounds. -/
def smallPrimes : List Nat :=
  [2, 3, 5, 7, 11, 13, 17, 19, 23, 29, 31, 37, 41, 43, 47, 53, 59, 61, 67, 71, 73, 79, 83, 89, 97]

/-- Halve an even number as often as it goes, at most `bound` times: how often it went and
    what is left. -/
def splitTwos : Nat → Nat → Nat × Nat
  | 0, n => (0, n)
  | bound + 1, n =>
    if n ≠ 0 ∧ n % 2 = 0 then
      let (twos, odd) := splitTwos bound (n / 2)
      (twos + 1, odd)
    else (0, n)

/-- Whether one of `x`, `x ^ 2`, `x ^ 4`, … (so many squarings) is `-1` modulo `n`. -/
def reachesMinusOne (n : Nat) : Nat → Nat → Bool
  | 0, _ => false
  | squarings + 1, x => x + 1 == n || reachesMinusOne n squarings (x * x % n)

/-- Whether an odd number passes a Miller-Rabin round with a base. -/
def passesRound (n base : Nat) : Bool :=
  let (twos, odd) := splitTwos n.log2 (n - 1)
  let x := powMod base odd n
  x == 1 || reachesMinusOne n twos x

/-- Whether a number above the small primes has none of them as a factor and passes the
    round with each of them. -/
def isProbablePrime (n : Nat) : Bool :=
  smallPrimes.all (fun p => n % p ≠ 0) && smallPrimes.all (passesRound n)

/-- The first of so many odd numbers from `start` on that is prime and is not one more than
    a multiple of the public exponent. -/
def primeFrom? : Nat → Nat → Option Nat
  | 0, _ => none
  | tries + 1, start =>
    if start % standardExponent ≠ 1 && isProbablePrime start then some start
    else primeFrom? tries (start + 2)

/-- The coefficient of `a` in a linear combination of `a` and `b` that is their greatest
    common divisor. -/
def bezout (a b : Nat) : Int × Int :=
  if _h : b = 0 then (1, 0)
  else
    let (x, y) := bezout b (a % b)
    (y, x - (a / b : Nat) * y)
termination_by b
decreasing_by exact Nat.mod_lt _ (by omega)

/-- The inverse of `a` modulo `m`, for numbers without common factor. -/
def inverse (a m : Nat) : Nat := ((bezout a m).1 % (m : Int)).toNat

def ofPrimes? (p q : Nat) : Option PrivateKey :=
  let order := (p - 1) * (q - 1) / Nat.gcd (p - 1) (q - 1)
  let d := inverse standardExponent order
  if p ≠ q && standardExponent * d % order = 1 then
    some ⟨p * q, standardExponent, d, p, q⟩
  else none

/-- A starting point for a prime with `bits` bits whose two highest bits and lowest bit are
    set, so that the product of two such primes has twice as many bits. -/
def startingPoint (bits random : Nat) : Nat :=
  let n := random % twoTo bits
  twoTo (bits - 1) + twoTo (bits - 2) + n % twoTo (bits - 2) / 2 * 2 + 1

/-- A key whose modulus has twice `bits` bits, from two random numbers.  It fails if no
    prime is near a starting point. -/
def generate? (bits first second : Nat) : Option PrivateKey := do
  let p ← primeFrom? (bits * 32) (startingPoint bits first)
  let q ← primeFrom? (bits * 32) (startingPoint bits second)
  ofPrimes? p q

end Tollgate.Rsa
