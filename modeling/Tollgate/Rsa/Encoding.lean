import Tollgate.Base64
import Tollgate.Der
import Tollgate.Power
import Tollgate.Rsa

/-! # RSA keys as octets and as text

* `PublicKey.toDer` — the subject public key: the name of the algorithm and the two public
  numbers in a bit string;
* `PublicKey.ofDer?` — the same back, only in that one form and only for numbers that can
  be a public key;
* `PrivateKey.ofDer?` — a private key with its nine numbers;
* `PublicKey.toPem` — the subject public key in lines of base64.
-/

namespace Tollgate.Rsa

/-- The tagged name of the RSA algorithm with its empty parameters. -/
def algorithmName : Octets :=
  Der.tagged Der.sequenceTag
    (Der.tagged Der.identifierTag [0x2a, 0x86, 0x48, 0x86, 0xf7, 0x0d, 0x01, 0x01, 0x01]
      ++ Der.tagged Der.nullTag [])

def PublicKey.toDer (k : PublicKey) : Octets :=
  let numbers := Der.tagged Der.sequenceTag (Der.natural k.modulus ++ Der.natural k.exponent)
  Der.tagged Der.sequenceTag (algorithmName ++ Der.tagged Der.bitStringTag (0 :: numbers))

/-- Whether two numbers can be a public key: a modulus of at most 4096 bits, an exponent
    from 2 up to `2 ^ 33 - 1` and below the modulus, both odd. -/
def PublicKey.isSound (k : PublicKey) : Bool :=
  bitLength k.modulus ≤ 4096 && k.exponent < k.modulus && k.modulus % 2 = 1
    && k.exponent % 2 = 1 && 2 ≤ k.exponent && k.exponent < twoTo 33

/-- The two public numbers in the bit string of a subject public key. -/
def PublicKey.ofNumbers? (s : Octets) : Option PublicKey := do
  let content ← Der.readOnly Der.sequenceTag s
  let (modulus, rest) ← Der.readNatural content
  let (exponent, rest) ← Der.readNatural rest
  if rest.isEmpty && PublicKey.isSound ⟨modulus, exponent⟩ then some ⟨modulus, exponent⟩ else none

def PublicKey.ofDer? (s : Octets) : Option PublicKey := do
  let content ← Der.readOnly Der.sequenceTag s
  let rest ←
    if algorithmName.isPrefixOf content then some (content.drop algorithmName.length) else none
  match ← Der.readOnly Der.bitStringTag rest with
  | 0 :: numbers => PublicKey.ofNumbers? numbers
  | _ => none

/-- Further integers of a private key, of which nothing is kept. -/
def readNaturals : Nat → Octets → Option Octets
  | 0, s => some s
  | n + 1, s => do
    let (_, s) ← Der.readNatural s
    readNaturals n s

/-- A private key: version zero, the public numbers, the private exponent, two primes and
    three numbers that follow from them. -/
def PrivateKey.ofDer? (s : Octets) : Option PrivateKey := do
  let content ← Der.readOnly Der.sequenceTag s
  let (version, s) ← Der.readNatural content
  let (modulus, s) ← Der.readNatural s
  let (publicExponent, s) ← Der.readNatural s
  let (privateExponent, s) ← Der.readNatural s
  let (firstPrime, s) ← Der.readNatural s
  let (secondPrime, s) ← Der.readNatural s
  let rest ← readNaturals 3 s
  if version = 0 && rest.isEmpty && firstPrime * secondPrime = modulus then
    some ⟨modulus, publicExponent, privateExponent, firstPrime, secondPrime⟩
  else none

/-- A text cut into lines of at most 64 symbols; the bound is on the number of lines. -/
def pemLines : Nat → List Char → List String
  | 0, _ => []
  | _, [] => []
  | n + 1, cs => String.ofList (cs.take 64) :: pemLines n (cs.drop 64)

/-- The subject public key in lines of base64 between marks. -/
def PublicKey.toPem (k : PublicKey) : String :=
  let body := (Base64.encode .standard .required k.toDer).map fun b => Char.ofNat b.toNat
  let lines := "-----BEGIN PUBLIC KEY-----" :: pemLines body.length body
    ++ ["-----END PUBLIC KEY-----"]
  String.join (lines.map (· ++ "\n"))

end Tollgate.Rsa
