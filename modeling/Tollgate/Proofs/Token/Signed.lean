import Tollgate.Proofs.Key.Encoding
import Tollgate.Proofs.Rsa
import Tollgate.Proofs.Token.Issued
import Tollgate.Proofs.Token.RoundTrip
import Tollgate.Proofs.Token.Verification

/-! # Tokens under the record of their key

A key signs claims, and publishes a record of its public half.  Whoever has the record gets that half
from it, whatever key of a common size it is, and gets the claims from the token, with the key's
identifier in place of any other.

Not every key of a common size signs, though: of its primes each has to have half the length of the
modulus, in a multiple of 512 bits.  `SigningKey.published_verifies_signed` says for all keys and
claims what comes of it, and `SigningKey.refused_2560` shows a key of 2560 bits that is published and
never signs.
-/

namespace Tollgate

namespace Rsa

theorem bitLength_le (n : Nat) : bitLength n ≤ Octets.width n * 8 := by
  unfold bitLength Octets.width
  split <;> omega

namespace PrivateKey

variable {k : PrivateKey}

/-- A modulus of 2048 to 4096 bits, and a public exponent from 65537 on. -/
structure HasCommonSize (k : PrivateKey) : Prop where
  long : 2048 ≤ bitLength k.modulus
  short : bitLength k.modulus ≤ 4096
  odd : k.modulus % 2 = 1
  least : 65537 ≤ k.publicExponent
  most : k.publicExponent ≤ 2 ^ 33 - 1
  oddExponent : k.publicExponent % 2 = 1

theorem HasCommonSize.below (common : k.HasCommonSize) : k.publicExponent < twoTo 33 := by
  have most := common.most
  have limit : twoTo 33 = 2 ^ 33 := rfl
  omega

theorem HasCommonSize.isSound_toPublic (common : k.HasCommonSize) :
    k.toPublic.isSound = true :=
  PublicKey.isSound_of_long (Nat.le_trans common.long (bitLength_le _)) common.short common.odd
    (Nat.le_trans (by decide) common.least) common.below common.oddExponent

/-- What a key of a common size needs to sign is about its secret numbers. -/
theorem HasCommonSize.maySign_iff (common : k.HasCommonSize) :
    k.maySign = true ↔ k.isBalanced = true := by
  have long := Nat.le_trans common.long (bitLength_le k.modulus)
  simp [maySign, long, common.short, common.odd, common.least, common.below, common.oddExponent]

end PrivateKey

end Rsa

namespace SigningKey

open Rsa (PrivateKey)

variable {k : SigningKey} {c : Claims} {s token : Octets} {now : Instant}

theorem sign_of_unfit (unfit : k.secret.maySign = false) : k.sign c = .error .unfitKey := by
  simp [sign, Claims.sign, PrivateKey.sign?, unfit]

/-- Claims that were decoded are read back from a token with the key's identifier in them. -/
theorem decode_withKeyId (named : k.keyId.text ≠ "") (decoded : Claims.decode s = .ok c)
    (exact : ¬c.HoldsFloat) :
    Claims.decode (c.withKeyId k.keyId).render = .ok (c.withKeyId k.keyId) := by
  have legible := Claims.legible_of_decode decoded exact
  have stamped : (c.withKeyId k.keyId).Legible := {
    idNamed := legible.idNamed
    keyNamed := by
      rintro key held
      cases held
      exact named
    notBefore := legible.notBefore
    notAfter := legible.notAfter
    increasing := legible.increasing
    within := legible.within
    exact := exact }
  have unknown := Claims.unknown_of_decode decoded
  exact stamped.decode_render unknown

theorem signedUnder_readBack {signature : Octets} (vouches : k.secret.Vouches)
    (made : k.secret.sign? .sha256 (k.signingInput c) = some signature) :
    (k.readBack c signature).SignedUnder k.secret.toPublic :=
  ⟨.sha256, signature, List.mem_cons_self, Base64.decode_encode _ _ _, vouches _ _ _ made⟩

/-- A token that the key has signed is taken apart, and the public half gives the claims back. -/
theorem verify_signed (named : k.keyId.text ≠ "") (vouches : k.secret.Vouches)
    (decoded : Claims.decode s = .ok c) (exact : ¬c.HoldsFloat) (unexpired : c.isExpired now = false)
    (signed : k.sign c = .ok token) :
    ∃ t, UnverifiedToken.parse token = .ok t ∧ t.header.keyId = some k.keyId ∧
      t.verify k.secret.toPublic now = .ok (c.withKeyId k.keyId) := by
  obtain ⟨signature, made, rfl⟩ := sign_eq_ok_iff.mp signed
  have parsed := UnverifiedToken.parse_of_written (written_readBack (c := c) named signature)
  have lasting : now.seconds < c.expires := by simpa [Claims.isExpired] using unexpired
  have valid : (k.readBack c signature).unexpiredClaims now = .ok (c.withKeyId k.keyId) :=
    UnverifiedToken.unexpiredClaims_eq_ok_iff.mpr ⟨decode_withKeyId named decoded exact, lasting⟩
  exact ⟨k.readBack c signature, parsed, rfl,
    UnverifiedToken.verify_eq_ok_iff.mpr ⟨signedUnder_readBack vouches made, valid⟩⟩

/-- The record of a key of a common size gives its modulus and its exponent.  If the key is
    balanced, it signs all claims, and these two give them back from the token, with the key's
    identifier in place of any other.  Otherwise it signs none. -/
theorem published_verifies_signed (named : k.keyId.text ≠ "") (common : k.secret.HasCommonSize)
    (vouches : k.secret.Vouches) (decoded : Claims.decode s = .ok c) (exact : ¬c.HoldsFloat)
    (unexpired : c.isExpired now = false) :
    k.published.verifyingKey = .ok ⟨k.secret.modulus, k.secret.publicExponent⟩ ∧
      (k.secret.isBalanced = true ∧
          (∃ token t, k.sign c = .ok token ∧ UnverifiedToken.parse token = .ok t ∧
            t.header.keyId = some k.keyId ∧
            t.verify ⟨k.secret.modulus, k.secret.publicExponent⟩ now =
              .ok (c.withKeyId k.keyId)) ∨
        k.secret.isBalanced = false ∧ k.sign c = .error .unfitKey) := by
  refine ⟨verifyingKey_published_of_isSound common.isSound_toPublic, ?_⟩
  -- With a size that is common, the balance of the two primes is all that signing asks for.
  cases balanced : k.secret.isBalanced with
  | true =>
    have fit : k.secret.maySign = true := common.maySign_iff.mpr balanced
    obtain ⟨signature, made⟩ : ∃ signature,
        k.secret.sign? .sha256 (k.signingInput c) = some signature := by
      simp [PrivateKey.sign?, fit]
    have signed := sign_eq_ok_iff.mpr ⟨signature, made, rfl⟩
    obtain ⟨t, parsed, keyed, verified⟩ := verify_signed named vouches decoded exact unexpired signed
    exact .inl ⟨rfl, _, t, signed, parsed, keyed, verified⟩
  | false =>
    have unfit : k.secret.maySign = false := by
      rw [Bool.eq_false_iff, ne_eq, common.maySign_iff, balanced]
      exact Bool.false_ne_true
    exact .inr ⟨rfl, sign_of_unfit unfit⟩

/-! ### Claims of another key -/

def foreignPayload : Octets := Octets.ofString "\x7b\"exp\":4102444800,\"kid\":\"b\"\x7d"

def foreignClaims : Claims where
  issuer := none
  expires := 4102444800
  tokenId := none
  keyId := some ⟨"b"⟩
  extra := []

theorem decode_foreignPayload : Claims.decode foreignPayload = .ok foreignClaims := rfl

theorem not_holdsFloat_foreignClaims : ¬foreignClaims.HoldsFloat := by
  simp [Claims.HoldsFloat, foreignClaims]

theorem published_verifies_foreign :
    let k : SigningKey := ⟨⟨"a"⟩, Rsa.sampleKey, .ofSeconds 4102444800⟩
    k.published.verifyingKey = .ok ⟨k.secret.modulus, k.secret.publicExponent⟩ ∧
      ∃ token t, k.sign foreignClaims = .ok token ∧ UnverifiedToken.parse token = .ok t ∧
        t.header.keyId = some ⟨"a"⟩ ∧
        t.verify ⟨k.secret.modulus, k.secret.publicExponent⟩ (.ofSeconds 0) =
          .ok ⟨none, 4102444800, none, some ⟨"a"⟩, []⟩ := by
  intro k
  have named : k.keyId.text ≠ "" := by decide
  have common : k.secret.HasCommonSize := by constructor <;> decide +kernel
  have balanced : k.secret.isBalanced = true := common.maySign_iff.mp Rsa.maySign_sampleKey
  obtain ⟨published, ⟨-, signs⟩ | ⟨unbalanced, -⟩⟩ := published_verifies_signed named common
    Rsa.genuine_sampleKey.vouches decode_foreignPayload not_holdsFloat_foreignClaims
    (show foreignClaims.isExpired (.ofSeconds 0) = false by decide)
  · exact ⟨published, signs⟩
  · rw [balanced] at unbalanced
    contradiction

/-! ### A key that does not sign -/

def broadKey : Rsa.PrivateKey :=
  let p := 14767 * 2 ^ 1266 + 1
  let q := 23879 * 2 ^ 1265 + 1
  ⟨p * q, Rsa.standardExponent, Rsa.inverse Rsa.standardExponent (Nat.lcm (p - 1) (q - 1)), p, q⟩

theorem genuine_broadKey : broadKey.Genuine := by
  have first : (14767 * 2 ^ 1266 + 1).Prime := Rsa.prime_of_powers 3 (by norm_num) (by decide)
    (by decide +kernel) (by decide +kernel) (by decide +kernel)
  have second : (23879 * 2 ^ 1265 + 1).Prime := Rsa.prime_of_powers 3 (by norm_num) (by decide)
    (by decide +kernel) (by decide +kernel) (by decide +kernel)
  have made : Rsa.ofPrimes? (14767 * 2 ^ 1266 + 1) (23879 * 2 ^ 1265 + 1) = some broadKey := by
    decide +kernel
  exact Rsa.genuine_of_ofPrimes? first second (by decide +kernel) (by decide +kernel) made

theorem refused_2560 :
    let k : SigningKey := ⟨⟨"a"⟩, broadKey, .ofSeconds 4102444800⟩
    k.keyId.text ≠ "" ∧ k.secret.HasCommonSize ∧ k.secret.Genuine ∧ k.secret.Vouches ∧
      Claims.decode foreignPayload = .ok foreignClaims ∧ ¬foreignClaims.HoldsFloat ∧
      foreignClaims.isExpired (.ofSeconds 0) = false ∧
      ∀ token, k.sign foreignClaims ≠ .ok token := by
  intro k
  have common : k.secret.HasCommonSize := by constructor <;> decide +kernel
  have unfit : k.secret.maySign = false := by decide +kernel
  refine ⟨by decide, common, genuine_broadKey, genuine_broadKey.vouches, decode_foreignPayload,
    not_holdsFloat_foreignClaims, by decide, fun token signed => ?_⟩
  cases (sign_of_unfit unfit).symm.trans signed

end SigningKey

end Tollgate
