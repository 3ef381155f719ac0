import Mathlib.FieldTheory.Finite.Basic
import Mathlib.NumberTheory.LucasPrimality
import Mathlib.Tactic.NormNum.Prime
import Tollgate.Proofs.Octets
import Tollgate.Rsa.Generation

/-! # A key accepts what it signs

Raising to the private exponent and then to the public one gives a number back, if the modulus is a
product of two different primes and the exponents undo each other modulo each prime less one
(`PrivateKey.Genuine`).  The padded digest begins with a zero and so is smaller than the modulus,
which makes `PrivateKey.Genuine.vouches` out of that: whatever such a key signs is accepted under its
public half.

Keys that are made of two primes are genuine (`genuine_of_ofPrimes?`).  One of the size that may sign
is `sampleKey`: its primes are shown to be prime by Lucas's test, for which the powers are computed.
-/

namespace Tollgate.Rsa

/-! ## Powers -/

theorem powMod_eq (base exponent modulus : Nat) :
    powMod base exponent modulus = base ^ exponent % modulus := by
  induction exponent using Nat.strongRecOn generalizing base with
  | ind exponent ih =>
    unfold powMod
    split
    · next zero => rw [zero, Nat.pow_zero]
    · next nonzero =>
      have half : powMod (base * base % modulus) (exponent / 2) modulus =
          base ^ (2 * (exponent / 2)) % modulus := by
        rw [ih _ (by omega), ← Nat.pow_mod, Nat.pow_mul, Nat.pow_two]
      simp only [half]
      split
      · next even => rw [show 2 * (exponent / 2) = exponent by omega]
      · next odd =>
        rw [Nat.mul_mod_mod, ← Nat.pow_succ', show (2 * (exponent / 2)).succ = exponent by omega]

/-- Fermat: modulo a prime, an exponent that is one modulo the prime less one changes nothing. -/
theorem pow_modEq_self {p exponent : Nat} (prime : p.Prime) (one : exponent ≡ 1 [MOD p - 1])
    (positive : 0 < exponent) (x : Nat) : x ^ exponent ≡ x [MOD p] := by
  by_cases multiple : p ∣ x
  · have power : p ∣ x ^ exponent := dvd_pow multiple (Nat.ne_of_gt positive)
    exact (Nat.modEq_zero_iff_dvd.mpr power).trans (Nat.modEq_zero_iff_dvd.mpr multiple).symm
  · have coprime : x.Coprime p := ((Nat.Prime.coprime_iff_not_dvd prime).mpr multiple).symm
    have fermat : x ^ (p - 1) ≡ 1 [MOD p] := by
      simpa [Nat.totient_prime prime] using Nat.ModEq.pow_totient coprime
    obtain ⟨rounds, rest⟩ := (Nat.modEq_iff_dvd' positive).mp one.symm
    have split : exponent = (p - 1) * rounds + 1 := by omega
    calc x ^ exponent = (x ^ (p - 1)) ^ rounds * x := by rw [split, Nat.pow_succ, Nat.pow_mul]
      _ ≡ 1 ^ rounds * x [MOD p] := (fermat.pow rounds).mul_right x
      _ = x := by rw [Nat.one_pow, Nat.one_mul]

/-! ## Genuine keys -/

namespace PrivateKey

/-- A key of two different primes, whose exponents undo each other. -/
structure Genuine (k : PrivateKey) : Prop where
  first : k.firstPrime.Prime
  second : k.secondPrime.Prime
  different : k.firstPrime ≠ k.secondPrime
  modulus : k.modulus = k.firstPrime * k.secondPrime
  undoes : 0 < k.privateExponent * k.publicExponent
  undoesFirst : k.privateExponent * k.publicExponent ≡ 1 [MOD k.firstPrime - 1]
  undoesSecond : k.privateExponent * k.publicExponent ≡ 1 [MOD k.secondPrime - 1]

/-- Whatever the key signs is accepted under its public half. -/
def Vouches (k : PrivateKey) : Prop :=
  ∀ digest message signature, k.sign? digest message = some signature →
    k.toPublic.accepts digest message signature = true

variable {k : PrivateKey}

theorem Genuine.powMod_powMod (genuine : k.Genuine) {x : Nat} (small : x < k.modulus) :
    powMod (powMod x k.privateExponent k.modulus) k.publicExponent k.modulus = x := by
  have coprime : k.firstPrime.Coprime k.secondPrime :=
    (Nat.coprime_primes genuine.first genuine.second).mpr genuine.different
  -- Modulo each of the primes the two exponents together change nothing.
  have back : x ^ (k.privateExponent * k.publicExponent) ≡ x [MOD k.modulus] := by
    rw [genuine.modulus, ← Nat.modEq_and_modEq_iff_modEq_mul coprime]
    exact ⟨pow_modEq_self genuine.first genuine.undoesFirst genuine.undoes x,
      pow_modEq_self genuine.second genuine.undoesSecond genuine.undoes x⟩
  rw [powMod_eq, powMod_eq, ← Nat.pow_mod, ← Nat.pow_mul]
  exact Nat.mod_eq_of_modEq back small

end PrivateKey

/-! ## Padding -/

theorem length_label_apply_le (digest : Digest) (message : Octets) :
    (digest.label ++ digest.apply message).length ≤ 83 := by
  have short : (digest.apply message).length ≤ 64 := by
    cases digest with
    | sha256 => exact Nat.le_trans (List.length_take_le _ _) (by decide)
    | sha384 => exact Nat.le_trans (List.length_take_le _ _) (by decide)
    | sha512 => exact List.length_take_le _ _
  have label : digest.label.length = 19 := by cases digest <;> rfl
  rw [List.length_append, label]
  omega

theorem length_encodeDigest (digest : Digest) (message : Octets) {size : Nat} (large : 86 ≤ size) :
    (encodeDigest digest size message).length = size := by
  have tail := length_label_apply_le digest message
  simp only [encodeDigest, List.length_cons, List.length_append, List.length_replicate] at tail ⊢
  omega

/-- The padding begins with a zero, so that it is smaller than a modulus of its length. -/
theorem toNat_encodeDigest_lt (digest : Digest) (message : Octets) {modulus : Nat}
    (large : 86 ≤ signatureSize modulus) :
    Octets.toNat (encodeDigest digest (signatureSize modulus) message) < modulus := by
  have length := length_encodeDigest digest message large
  cases written : encodeDigest digest (signatureSize modulus) message with
  | nil => cases written
  | cons b rest =>
    obtain rfl : b = 0 := (List.cons.inj written).1.symm
    rw [written, List.length_cons] at length
    have same : Octets.toNat (0 :: rest) = Octets.toNat rest := by simp [Octets.toNat]
    rw [same]
    exact Nat.lt_of_lt_of_le (Octets.toNat_lt rest)
      (Octets.pow_le_of_width (by rw [signatureSize] at length; omega))

theorem PublicKey.accepts_iff {k : PublicKey} {digest : Digest} {message signature : Octets} :
    k.accepts digest message signature = true ↔
      k.mayCheck = true ∧ signature.length = signatureSize k.modulus ∧
        Octets.toNat signature < k.modulus ∧
        Octets.ofNat (signatureSize k.modulus)
            (powMod (Octets.toNat signature) k.exponent k.modulus) =
          encodeDigest digest (signatureSize k.modulus) message := by
  simp [accepts, and_assoc]

namespace PrivateKey

variable {k : PrivateKey}

theorem mayCheck_toPublic (fit : k.maySign = true) : k.toPublic.mayCheck = true := by
  simp only [maySign, Bool.and_eq_true, decide_eq_true_eq] at fit
  obtain ⟨⟨⟨⟨⟨⟨long, short⟩, odd⟩, least⟩, most⟩, oddExponent⟩, -⟩ := fit
  show PublicKey.mayCheck ⟨k.modulus, k.publicExponent⟩ = true
  simp only [PublicKey.mayCheck, Bool.and_eq_true, decide_eq_true_eq]
  exact ⟨⟨⟨⟨⟨long, by omega⟩, odd⟩, by omega⟩, most⟩, oddExponent⟩

theorem maySign_of_sign? {digest : Digest} {message signature : Octets}
    (signed : k.sign? digest message = some signature) : k.maySign = true := by
  unfold sign? at signed
  split at signed
  · assumption
  · contradiction

theorem signatureSize_of_maySign (fit : k.maySign = true) : 256 ≤ signatureSize k.modulus := by
  simp only [maySign, Bool.and_eq_true, decide_eq_true_eq] at fit
  rw [signatureSize]
  omega

theorem Genuine.vouches (genuine : k.Genuine) : k.Vouches := by
  intro digest message signature signed
  have fit := maySign_of_sign? signed
  have size := signatureSize_of_maySign fit
  have large : 86 ≤ signatureSize k.modulus := Nat.le_trans (by decide) size
  have padded := toNat_encodeDigest_lt digest message large
  have length := length_encodeDigest digest message large
  unfold sign? at signed
  rw [if_pos fit, Option.some.injEq] at signed
  subst signed
  refine PublicKey.accepts_iff.mpr ⟨mayCheck_toPublic fit, Octets.length_ofNat _ _, ?_⟩
  show Octets.toNat _ < k.modulus ∧ Octets.ofNat (signatureSize k.modulus)
    (powMod (Octets.toNat _) k.publicExponent k.modulus) =
      encodeDigest digest (signatureSize k.modulus) message
  generalize encodeDigest digest (signatureSize k.modulus) message = octets at padded length ⊢
  -- The signature is a number below the modulus, in as many octets as the modulus has.
  have below : powMod (Octets.toNat octets) k.privateExponent k.modulus < k.modulus := by
    rw [powMod_eq]
    exact Nat.mod_lt _ (Nat.lt_of_le_of_lt (Nat.zero_le _) padded)
  have read : Octets.toNat (Octets.ofNat (signatureSize k.modulus)
      (powMod (Octets.toNat octets) k.privateExponent k.modulus)) =
        powMod (Octets.toNat octets) k.privateExponent k.modulus :=
    Octets.toNat_ofNat (Nat.lt_trans below (Octets.lt_pow_width _))
  rw [read, genuine.powMod_powMod padded]
  refine ⟨below, ?_⟩
  rw [← length]
  exact Octets.ofNat_toNat octets

end PrivateKey

/-! ## Making keys -/

/-- A key that is made of two odd primes is genuine. -/
theorem genuine_of_ofPrimes? {p q : Nat} {k : PrivateKey} (first : p.Prime) (second : q.Prime)
    (odd : 2 < p) (odd' : 2 < q) (made : ofPrimes? p q = some k) : k.Genuine := by
  have order : (p - 1) * (q - 1) / Nat.gcd (p - 1) (q - 1) = Nat.lcm (p - 1) (q - 1) := rfl
  simp only [ofPrimes?, order] at made
  generalize inverse standardExponent (Nat.lcm (p - 1) (q - 1)) = d at made
  split at made
  · next fits =>
    simp only [Bool.and_eq_true, decide_eq_true_eq] at fits
    obtain ⟨different, inverse⟩ := fits
    cases made
    have large : 1 < Nat.lcm (p - 1) (q - 1) :=
      Nat.lt_of_lt_of_le (by omega) (Nat.le_of_dvd
        (Nat.lcm_pos (by omega) (by omega)) (Nat.dvd_lcm_left (p - 1) (q - 1)))
    have undoes : d * standardExponent ≡ 1 [MOD Nat.lcm (p - 1) (q - 1)] := by
      rw [Nat.mul_comm, Nat.ModEq, inverse, Nat.mod_eq_of_lt large]
    refine ⟨first, second, different, rfl, ?_, undoes.of_dvd (Nat.dvd_lcm_left _ _),
      undoes.of_dvd (Nat.dvd_lcm_right _ _)⟩
    refine Nat.pos_of_ne_zero fun zero => ?_
    rw [Nat.mul_comm, zero, Nat.zero_mod] at inverse
    contradiction
  · contradiction

/-! ## Primes -/

/-- Lucas's test, for a prime that is one more than a prime times a power of two. -/
theorem prime_of_powers {k twos : Nat} (base : Nat) (prime : k.Prime) (even : 0 < twos)
    (whole : powMod base (k * 2 ^ twos) (k * 2 ^ twos + 1) = 1)
    (withoutTwo : powMod base (k * 2 ^ (twos - 1)) (k * 2 ^ twos + 1) ≠ 1)
    (withoutPrime : powMod base (2 ^ twos) (k * 2 ^ twos + 1) ≠ 1) :
    (k * 2 ^ twos + 1).Prime := by
  have large : 1 < k * 2 ^ twos + 1 :=
    Nat.succ_lt_succ (Nat.mul_pos prime.pos (Nat.two_pow_pos twos))
  -- In the residues a power is one when the computed power is.
  have one : ∀ n, (base : ZMod (k * 2 ^ twos + 1)) ^ n = 1 ↔
      powMod base n (k * 2 ^ twos + 1) = 1 := by
    intro n
    have cast := ZMod.natCast_eq_natCast_iff' (base ^ n) 1 (k * 2 ^ twos + 1)
    rwa [Nat.cast_pow, Nat.cast_one, Nat.mod_eq_of_lt large, ← powMod_eq] at cast
  refine lucas_primality _ (base : ZMod (k * 2 ^ twos + 1)) ((one _).mpr whole)
    fun q primeFactor divides => ?_
  rw [ne_eq, one, Nat.add_sub_cancel]
  -- The predecessor has two prime factors, the given one and two.
  rcases (Nat.Prime.dvd_mul primeFactor).mp divides with factor | factor
  · rw [(Nat.prime_dvd_prime_iff_eq primeFactor prime).mp factor,
      Nat.mul_div_cancel_left _ prime.pos]
    exact withoutPrime
  · rw [(Nat.prime_dvd_prime_iff_eq primeFactor Nat.prime_two).mp
      (primeFactor.dvd_of_dvd_pow factor)]
    have half : k * 2 ^ twos / 2 = k * 2 ^ (twos - 1) := by
      rw [← Nat.sub_add_cancel even, Nat.pow_succ, ← Nat.mul_assoc, Nat.add_sub_cancel,
        Nat.mul_div_cancel _ Nat.two_pos]
    rw [half]
    exact withoutTwo

/-- A key of 2048 bits.  Its primes are one more than a small prime times a power of two. -/
def sampleKey : PrivateKey :=
  let p := 3931 * 2 ^ 1012 + 1
  let q := 7547 * 2 ^ 1011 + 1
  ⟨p * q, standardExponent, inverse standardExponent (Nat.lcm (p - 1) (q - 1)), p, q⟩

theorem maySign_sampleKey : sampleKey.maySign = true := by decide +kernel

theorem genuine_sampleKey : sampleKey.Genuine := by
  have first : (3931 * 2 ^ 1012 + 1).Prime := prime_of_powers 3 (by norm_num) (by decide)
    (by decide +kernel) (by decide +kernel) (by decide +kernel)
  have second : (7547 * 2 ^ 1011 + 1).Prime := prime_of_powers 3 (by norm_num) (by decide)
    (by decide +kernel) (by decide +kernel) (by decide +kernel)
  have made : ofPrimes? (3931 * 2 ^ 1012 + 1) (7547 * 2 ^ 1011 + 1) = some sampleKey := by
    decide +kernel
  exact genuine_of_ofPrimes? first second (by decide +kernel) (by decide +kernel) made

end Tollgate.Rsa
