import Tollgate.Power
import Tollgate.Sha2

/-! # RSA signatures

A signature is the padded digest of the message raised to the private exponent; whoever
has the public key raises it to the public exponent and compares.

* `PublicKey`, `PrivateKey` — the numbers of a key;
* `powMod` — modular powers by repeated squaring;
* `Digest` — the digests that can be signed;
* `encodeDigest` — the padding (PKCS #1, version 1.5);
* `PrivateKey.sign?`, `PublicKey.accepts` — the signature and its check, with the limits
  on key sizes that each of them has.
-/

namespace Tollgate.Rsa

structure PublicKey where
  modulus : Nat
  exponent : Nat
  deriving DecidableEq, Repr

/-- The public numbers of a key, its private exponent and the two primes. -/
structure PrivateKey where
  modulus : Nat
  publicExponent : Nat
  privateExponent : Nat
  firstPrime : Nat
  secondPrime : Nat
  deriving DecidableEq, Repr

def PrivateKey.toPublic (k : PrivateKey) : PublicKey := ⟨k.modulus, k.publicExponent⟩

def bitLength (n : Nat) : Nat := if n = 0 then 0 else n.log2 + 1

/-- `base ^ exponent` modulo `modulus`. -/
def powMod (base exponent modulus : Nat) : Nat :=
  if _h : exponent = 0 then 1 % modulus
  else
    let half := powMod (base * base % modulus) (exponent / 2) modulus
    if exponent % 2 = 0 then half else base * half % modulus
termination_by exponent

/-! ## Padding -/

inductive Digest where
  | sha256
  | sha384
  | sha512
  deriving DecidableEq, Repr

namespace Digest

def apply : Digest → Octets → Octets
  | .sha256 => Sha2.digest256
  | .sha384 => Sha2.digest384
  | .sha512 => Sha2.digest512

/-- What stands in front of the digest inside the padding: the tagged name of the digest
    and the length of its octets. -/
def label : Digest → Octets
  | .sha256 => [0x30, 0x31, 0x30, 0x0d, 0x06, 0x09, 0x60, 0x86, 0x48, 0x01, 0x65, 0x03, 0x04,
      0x02, 0x01, 0x05, 0x00, 0x04, 0x20]
  | .sha384 => [0x30, 0x41, 0x30, 0x0d, 0x06, 0x09, 0x60, 0x86, 0x48, 0x01, 0x65, 0x03, 0x04,
      0x02, 0x02, 0x05, 0x00, 0x04, 0x30]
  | .sha512 => [0x30, 0x51, 0x30, 0x0d, 0x06, 0x09, 0x60, 0x86, 0x48, 0x01, 0x65, 0x03, 0x04,
      0x02, 0x03, 0x05, 0x00, 0x04, 0x40]

end Digest

/-- The padded digest of a message in `size` octets. -/
def encodeDigest (digest : Digest) (size : Nat) (message : Octets) : Octets :=
  let tail := digest.label ++ digest.apply message
  0 :: 1 :: (List.replicate (size - tail.length - 3) 0xff ++ 0 :: tail)

/-! ## Signing and checking -/

def signatureSize (modulus : Nat) : Nat := Octets.width modulus

/-- Whether a public key may check signatures: an odd modulus of 2048 bits, counted in
    whole octets, up to 8192 bits, and an odd exponent from 3 up to `2 ^ 33 - 1`. -/
def PublicKey.mayCheck (k : PublicKey) : Bool :=
  2048 ≤ Octets.width k.modulus * 8 && bitLength k.modulus ≤ 8192 && k.modulus % 2 = 1
    && 3 ≤ k.exponent && k.exponent < twoTo 33 && k.exponent % 2 = 1

def PublicKey.accepts (k : PublicKey) (digest : Digest) (message signature : Octets) : Bool :=
  k.mayCheck && signature.length = signatureSize k.modulus
    && Octets.toNat signature < k.modulus
    && Octets.ofNat (signatureSize k.modulus)
        (powMod (Octets.toNat signature) k.exponent k.modulus)
      == encodeDigest digest (signatureSize k.modulus) message

/-- Whether the secret numbers of a key are of the lengths that signing needs: two primes of half
    the length of the modulus, which is a multiple of 512 bits, and an odd private exponent
    that is longer than that and below the modulus. -/
def PrivateKey.isBalanced (k : PrivateKey) : Bool :=
  let half := (bitLength k.modulus + 1) / 2
  half % 512 = 0 && bitLength k.firstPrime = half && bitLength k.secondPrime = half
    && half < bitLength k.privateExponent && k.privateExponent < k.modulus
    && k.privateExponent % 2 = 1

/-- Whether a private key may sign: a modulus of 2048 bits, counted in whole octets, up to
    4096 bits, a public exponent from 65537 on, and secret numbers of the right lengths. -/
def PrivateKey.maySign (k : PrivateKey) : Bool :=
  2048 ≤ Octets.width k.modulus * 8 && bitLength k.modulus ≤ 4096 && k.modulus % 2 = 1
    && 65537 ≤ k.publicExponent && k.publicExponent < twoTo 33 && k.publicExponent % 2 = 1
    && k.isBalanced

/-- The signature of a message; none if the key may not sign. -/
def PrivateKey.sign? (k : PrivateKey) (digest : Digest) (message : Octets) : Option Octets :=
  if k.maySign then
    let padded := encodeDigest digest (signatureSize k.modulus) message
    some (Octets.ofNat (signatureSize k.modulus)
      (powMod (Octets.toNat padded) k.privateExponent k.modulus))
  else none

end Tollgate.Rsa
