import Tollgate.Octets

/-! # The SHA-2 digests

Signatures are made over digests of 32, 48 or 64 octets.  All three work alike: the
message is padded to whole blocks, each block is expanded to a schedule of words, and every
word is mixed into eight working words.

* `Rounds` — what distinguishes the two word sizes;
* `digest256`, `digest384`, `digest512` — the digests.
-/

namespace Tollgate.Sha2

/-! ## Constants -/

/-- The first 64 bits of the fractional parts of the cube roots of the first eighty
    primes; words of 32 bits take the upper halves. -/
def roundConstants : Array UInt64 := #[
  0x428a2f98d728ae22, 0x7137449123ef65cd, 0xb5c0fbcfec4d3b2f, 0xe9b5dba58189dbbc,
  0x3956c25bf348b538, 0x59f111f1b605d019, 0x923f82a4af194f9b, 0xab1c5ed5da6d8118,
  0xd807aa98a3030242, 0x12835b0145706fbe, 0x243185be4ee4b28c, 0x550c7dc3d5ffb4e2,
  0x72be5d74f27b896f, 0x80deb1fe3b1696b1, 0x9bdc06a725c71235, 0xc19bf174cf692694,
  0xe49b69c19ef14ad2, 0xefbe4786384f25e3, 0x0fc19dc68b8cd5b5, 0x240ca1cc77ac9c65,
  0x2de92c6f592b0275, 0x4a7484aa6ea6e483, 0x5cb0a9dcbd41fbd4, 0x76f988da831153b5,
  0x983e5152ee66dfab, 0xa831c66d2db43210, 0xb00327c898fb213f, 0xbf597fc7beef0ee4,
  0xc6e00bf33da88fc2, 0xd5a79147930aa725, 0x06ca6351e003826f, 0x142929670a0e6e70,
  0x27b70a8546d22ffc, 0x2e1b21385c26c926, 0x4d2c6dfc5ac42aed, 0x53380d139d95b3df,
  0x650a73548baf63de, 0x766a0abb3c77b2a8, 0x81c2c92e47edaee6, 0x92722c851482353b,
  0xa2bfe8a14cf10364, 0xa81a664bbc423001, 0xc24b8b70d0f89791, 0xc76c51a30654be30,
  0xd192e819d6ef5218, 0xd69906245565a910, 0xf40e35855771202a, 0x106aa07032bbd1b8,
  0x19a4c116b8d2d0c8, 0x1e376c085141ab53, 0x2748774cdf8eeb99, 0x34b0bcb5e19b48a8,
  0x391c0cb3c5c95a63, 0x4ed8aa4ae3418acb, 0x5b9cca4f7763e373, 0x682e6ff3d6b2b8a3,
  0x748f82ee5defb2fc, 0x78a5636f43172f60, 0x84c87814a1f0ab72, 0x8cc702081a6439ec,
  0x90befffa23631e28, 0xa4506cebde82bde9, 0xbef9a3f7b2c67915, 0xc67178f2e372532b,
  0xca273eceea26619c, 0xd186b8c721c0c207, 0xeada7dd6cde0eb1e, 0xf57d4f7fee6ed178,
  0x06f067aa72176fba, 0x0a637dc5a2c898a6, 0x113f9804bef90dae, 0x1b710b35131c471b,
  0x28db77f523047d84, 0x32caab7b40c72493, 0x3c9ebe0a15c9bebc, 0x431d67c49c100d4c,
  0x4cc5d4becb3e42b6, 0x597f299cfc657e2a, 0x5fcb6fab3ad6faec, 0x6c44198c4a475817]

/-- The first 64 bits of the fractional parts of the square roots of the first eight
    primes. -/
def firstRoots : List UInt64 := [
  0x6a09e667f3bcc908, 0xbb67ae8584caa73b, 0x3c6ef372fe94f82b, 0xa54ff53a5f1d36f1,
  0x510e527fade682d1, 0x9b05688c2b3e6c1f, 0x1f83d9abfb41bd6b, 0x5be0cd19137e2179]

/-- The same for the ninth to the sixteenth prime. -/
def nextRoots : List UInt64 := [
  0xcbbb9d5dc1059ed8, 0x629a292a367cd507, 0x9159015a3070dd17, 0x152fecd8f70e5939,
  0x67332667ffc00b31, 0x8eb44a8768581511, 0xdb0c2e0d64f98fa7, 0x47b5481dbefa4fa4]

/-! ## Words -/

/-- Three amounts by which a word is rotated, or rotated twice and shifted once. -/
structure Amounts where
  first : Nat
  second : Nat
  third : Nat

/-- A word size with its rotation amounts and number of rounds. -/
structure Rounds where
  bits : Nat
  /-- Rounds of mixing, and words of a schedule. -/
  count : Nat
  /-- Mixing of the first working word. -/
  upper : Amounts
  /-- Mixing of the fifth working word. -/
  lower : Amounts
  /-- Expansion from fifteen words back; the third amount is a shift. -/
  near : Amounts
  /-- Expansion from two words back; the third amount is a shift. -/
  far : Amounts

def narrow : Rounds :=
  ⟨32, 64, ⟨2, 13, 22⟩, ⟨6, 11, 25⟩, ⟨7, 18, 3⟩, ⟨17, 19, 10⟩⟩

def wide : Rounds :=
  ⟨64, 80, ⟨28, 34, 39⟩, ⟨14, 18, 41⟩, ⟨1, 8, 7⟩, ⟨19, 61, 6⟩⟩

namespace Rounds

variable (r : Rounds)

def cut (x : UInt64) : UInt64 := if r.bits = 64 then x else x &&& 0xffffffff

def rotate (x : UInt64) (n : Nat) : UInt64 :=
  r.cut ((x >>> UInt64.ofNat n) ||| (x <<< UInt64.ofNat (r.bits - n)))

def mix (a : Amounts) (x : UInt64) : UInt64 :=
  r.rotate x a.first ^^^ r.rotate x a.second ^^^ r.rotate x a.third

/-- Two rotations and a shift of a word combined. -/
def expand (a : Amounts) (x : UInt64) : UInt64 :=
  r.rotate x a.first ^^^ r.rotate x a.second ^^^ (x >>> UInt64.ofNat a.third)

def constant (i : Nat) : UInt64 :=
  let k := roundConstants.getD i 0
  if r.bits = 64 then k else k >>> 32

def blockSize : Nat := r.bits * 2

def words : Nat → Octets → List UInt64
  | 0, _ => []
  | n + 1, o =>
    UInt64.ofNat (Octets.toNat (o.take (r.bits / 8))) :: words n (o.drop (r.bits / 8))

def nextWord (w : Array UInt64) : UInt64 :=
  let i := w.size
  r.cut (r.expand r.far (w.getD (i - 2) 0) + w.getD (i - 7) 0
    + r.expand r.near (w.getD (i - 15) 0) + w.getD (i - 16) 0)

def schedule (block : Octets) : Array UInt64 :=
  (List.range (r.count - 16)).foldl (fun w _ => w.push (r.nextWord w)) (r.words 16 block).toArray

/-- Mix one word of a schedule into the working words. -/
def round (schedule : Array UInt64) (state : List UInt64) (i : Nat) : List UInt64 :=
  match state with
  | [a, b, c, d, e, f, g, h] =>
    let choice := (e &&& f) ^^^ (~~~e &&& g)
    let majority := (a &&& b) ^^^ (a &&& c) ^^^ (b &&& c)
    let t := h + r.mix r.lower e + choice + r.constant i + schedule.getD i 0
    [r.cut (t + r.mix r.upper a + majority), a, b, c, r.cut (d + t), e, f, g]
  | other => other

/-- Mix a block into the chaining value. -/
def compress (state : List UInt64) (block : Octets) : List UInt64 :=
  let schedule := r.schedule block
  let mixed := (List.range r.count).foldl (r.round schedule) state
  List.zipWith (fun x y => r.cut (x + y)) state mixed

/-- The message followed by a one bit, zeros up to the end of a block, and its length in
    bits. -/
def pad (message : Octets) : Octets :=
  let lengthSize := r.bits / 4
  let used := (message.length + 1 + lengthSize) % r.blockSize
  message ++ 128 :: (List.replicate ((r.blockSize - used) % r.blockSize) 0
    ++ Octets.ofNat lengthSize (message.length * 8))

/-- Mix all blocks of a padded message. -/
def blocks : Nat → List UInt64 → Octets → List UInt64
  | 0, state, _ => state
  | n + 1, state, o => blocks n (r.compress state (o.take r.blockSize)) (o.drop r.blockSize)

/-- The digest of a message: the first `size` octets of the last chaining value. -/
def digest (initial : List UInt64) (size : Nat) (message : Octets) : Octets :=
  let padded := r.pad message
  let state := r.blocks (padded.length / r.blockSize) initial padded
  (state.flatMap fun x => Octets.ofNat (r.bits / 8) x.toNat).take size

end Rounds

/-! ## Digests -/

def digest256 (message : Octets) : Octets :=
  narrow.digest (firstRoots.map fun (x : UInt64) => x >>> 32) 32 message

def digest384 (message : Octets) : Octets := wide.digest nextRoots 48 message

def digest512 (message : Octets) : Octets := wide.digest firstRoots 64 message

end Tollgate.Sha2
