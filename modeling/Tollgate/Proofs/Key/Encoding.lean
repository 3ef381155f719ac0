import Tollgate.Key.Signing
import Tollgate.Proofs.Base64
import Tollgate.Proofs.Octets

/-! # A published key is the key

The record of a signing key holds its public half as tagged values in base64.  Readers take tagged
values apart as they were put together, with whatever follows them (`Der.readTagged_tagged`,
`Der.readNatural_natural`), so that the key in the record is the public half itself,
`SigningKey.verifyingKey_published`.  A key that may sign is small enough for every length in it to
be written.
-/

namespace Tollgate

namespace Der

/-! ## Tagged values -/

variable {n : Nat} {content : Octets}

theorem readLength_lengthOctets (short : n < 256 ^ 4) (rest : Octets) :
    readLength (lengthOctets n ++ rest) = some (n, rest) := by
  have width : Octets.width n ≤ 4 := Octets.width_le_iff.mpr short
  by_cases small : n < 128
  -- The short form: one octet that is the length.
  · have octet : (UInt8.ofNat n).toNat = n := by
      rw [UInt8.toNat_ofNat']
      omega
    have below : UInt8.ofNat n < 128 := by
      rw [UInt8.lt_iff_toNat_lt, octet]
      exact small
    simp [lengthOctets, small, readLength, below, octet]
  -- The long form: an octet that says in how many more the length is written.
  · have octet : (UInt8.ofNat (128 + Octets.width n)).toNat = 128 + Octets.width n := by
      rw [UInt8.toNat_ofNat']
      omega
    have above : ¬UInt8.ofNat (128 + Octets.width n) < 128 := by
      rw [UInt8.lt_iff_toNat_lt, octet]
      exact Nat.not_lt.mpr (Nat.le_add_right 128 _)
    have positive : 1 ≤ Octets.width n := by
      refine Nat.one_le_iff_ne_zero.mpr fun none => ?_
      have fits := Octets.lt_pow_width n
      rw [none] at fits
      omega
    have taken : (Octets.ofNat (Octets.width n) n ++ rest).take (Octets.width n) =
        Octets.ofNat (Octets.width n) n := List.take_left' (Octets.length_ofNat _ _)
    have dropped : (Octets.ofNat (Octets.width n) n ++ rest).drop (Octets.width n) = rest :=
      List.drop_left' (Octets.length_ofNat _ _)
    have value := Octets.toNat_ofNat (Octets.lt_pow_width n)
    have fits : Octets.width n ≤ (Octets.ofNat (Octets.width n) n ++ rest).length := by simp
    simp only [lengthOctets, if_neg small, List.cons_append, readLength]
    generalize UInt8.ofNat (128 + Octets.width n) = b at octet above ⊢
    simp only [if_neg above, octet, Nat.add_sub_cancel_left, taken, dropped, value]
    simp only [positive, width, fits, Nat.not_lt.mp small, decide_true, Bool.and_self, if_true]

theorem readTagged_tagged (tag : UInt8) (short : content.length < 256 ^ 4) (rest : Octets) :
    readTagged tag (tagged tag content ++ rest) = some (content, rest) := by
  have length := readLength_lengthOctets short (content ++ rest)
  simp [readTagged, tagged, length]

theorem readOnly_tagged (tag : UInt8) (content : Octets) (short : content.length < 256 ^ 4) :
    readOnly tag (tagged tag content) = some content := by
  have read := readTagged_tagged tag short []
  rw [List.append_nil] at read
  simp only [readOnly, read]

/-! ## Integers -/

theorem naturalOf?_naturalContent (n : Nat) : naturalOf? (naturalContent n) = some n := by
  obtain rfl | positive := Nat.eq_zero_or_pos n
  · rfl
  · have value := Octets.toNat_ofNat (Octets.lt_pow_width n)
    obtain ⟨b, rest, written, nonzero⟩ := Octets.exists_ofNat_width positive
    rw [written] at value
    simp only [naturalContent, written]
    -- Where the first octet looks like a sign, a zero stands before it.
    split
    · next high => simp [naturalOf?, UInt8.not_lt.mpr high, value]
    · next low =>
      have below : b < 128 := UInt8.not_le.mp low
      cases rest with
      | nil =>
        have single : b.toNat = n := by simpa [Octets.toNat] using value
        simp [naturalOf?, below, single]
      | cons c rest => simp [naturalOf?, nonzero, below, value]

theorem length_naturalContent_le (n : Nat) :
    (naturalContent n).length ≤ Octets.width n + 1 := by
  have length := Octets.length_ofNat (Octets.width n) n
  simp only [naturalContent]
  split
  · exact Nat.le_add_left 1 _
  · split
    · exact Nat.le_of_eq (congrArg (· + 1) length)
    · exact Nat.le_succ_of_le (Nat.le_of_eq length)

theorem readNatural_natural (short : Octets.width n + 1 < 256 ^ 4) (rest : Octets) :
    readNatural (natural n ++ rest) = some (n, rest) := by
  have read := readTagged_tagged integerTag
    (Nat.lt_of_le_of_lt (length_naturalContent_le n) short) rest
  simp only [readNatural, natural, read, naturalOf?_naturalContent, Option.map_some]

theorem length_tagged_le (tag : UInt8) (content : Octets) (short : content.length < 256 ^ 4) :
    (tagged tag content).length ≤ content.length + 6 := by
  -- One octet of tag, and at most five of length.
  have width : Octets.width content.length ≤ 4 := Octets.width_le_iff.mpr short
  simp only [tagged, lengthOctets, List.length_cons, List.length_append]
  split
  · simp
    omega
  · simp only [List.length_cons, Octets.length_ofNat]
    omega

end Der

/-! ## Public keys -/

namespace Rsa

theorem width_le_of_bitLength {n bits : Nat} (short : bitLength n ≤ bits) :
    Octets.width n ≤ bits / 8 + 1 := by
  unfold bitLength at short
  unfold Octets.width
  split
  · exact Nat.zero_le _
  · next nonzero =>
    rw [if_neg nonzero] at short
    omega

namespace PublicKey

variable {k : PublicKey}

theorem width_le_of_isSound (sound : k.isSound = true) :
    Octets.width k.modulus ≤ 513 ∧ Octets.width k.exponent ≤ 5 := by
  simp only [isSound, Bool.and_eq_true, decide_eq_true_eq] at sound
  have small : k.exponent < 256 ^ 5 := by
    have limit : twoTo 33 < 256 ^ 5 := by decide
    omega
  exact ⟨width_le_of_bitLength sound.1.1.1.1.1, Octets.width_le_iff.mpr small⟩

theorem length_numbers_le (sound : k.isSound = true) :
    (Der.natural k.modulus ++ Der.natural k.exponent).length ≤ 600 := by
  have natural : ∀ n : Nat, Octets.width n ≤ 513 → (Der.natural n).length ≤ Octets.width n + 7 := by
    intro n width
    have content := Der.length_naturalContent_le n
    have tagged := Der.length_tagged_le Der.integerTag (Der.naturalContent n)
      (by omega)
    rw [Der.natural]
    omega
  obtain ⟨modulus, exponent⟩ := width_le_of_isSound sound
  have := natural k.modulus modulus
  have := natural k.exponent (by omega)
  rw [List.length_append]
  omega

theorem ofNumbers?_tagged (sound : k.isSound = true) :
    ofNumbers? (Der.tagged Der.sequenceTag (Der.natural k.modulus ++ Der.natural k.exponent)) =
      some k := by
  obtain ⟨modulus, exponent⟩ := width_le_of_isSound sound
  have whole := Der.readOnly_tagged Der.sequenceTag _
    (Nat.lt_of_le_of_lt (length_numbers_le sound) (by decide))
  have first := Der.readNatural_natural (n := k.modulus) (by omega) (Der.natural k.exponent)
  have second := Der.readNatural_natural (n := k.exponent) (by omega) []
  rw [List.append_nil] at second
  simp [ofNumbers?, whole, first, second, sound]

/-- A public key is read as it was written. -/
theorem ofDer?_toDer (sound : k.isSound = true) : ofDer? k.toDer = some k := by
  have read := ofNumbers?_tagged sound
  have length := Der.length_tagged_le Der.sequenceTag _
    (Nat.lt_of_le_of_lt (length_numbers_le sound) (by decide))
  have short := length_numbers_le sound
  simp only [ofDer?, toDer]
  generalize Der.tagged Der.sequenceTag (Der.natural k.modulus ++ Der.natural k.exponent) =
    numbers at read length ⊢
  have bits := Der.length_tagged_le Der.bitStringTag (0 :: numbers)
    (by rw [List.length_cons]; omega)
  have name : algorithmName.length = 15 := by decide
  have outer := Der.readOnly_tagged Der.sequenceTag
    (algorithmName ++ Der.tagged Der.bitStringTag (0 :: numbers))
    (by rw [List.length_append, name]; simp only [List.length_cons] at bits; omega)
  have inner := Der.readOnly_tagged Der.bitStringTag (0 :: numbers)
    (by rw [List.length_cons]; omega)
  simp [outer, inner, read]

end PublicKey

theorem PublicKey.isSound_of_long {k : PublicKey} (long : 2048 ≤ Octets.width k.modulus * 8)
    (short : bitLength k.modulus ≤ 4096) (odd : k.modulus % 2 = 1) (least : 2 ≤ k.exponent)
    (most : k.exponent < twoTo 33) (oddExponent : k.exponent % 2 = 1) : k.isSound = true := by
  have large : 256 ^ 255 ≤ k.modulus := Octets.pow_le_of_width (by omega)
  have below : twoTo 33 ≤ 256 ^ 255 := by decide
  have exponent : k.exponent < k.modulus := Nat.lt_of_lt_of_le most (Nat.le_trans below large)
  simp only [isSound, Bool.and_eq_true, decide_eq_true_eq]
  exact ⟨⟨⟨⟨⟨short, exponent⟩, odd⟩, oddExponent⟩, least⟩, most⟩

theorem PrivateKey.isSound_toPublic {k : PrivateKey} (fit : k.maySign = true) :
    k.toPublic.isSound = true := by
  simp only [maySign, Bool.and_eq_true, decide_eq_true_eq] at fit
  obtain ⟨⟨⟨⟨⟨⟨long, short⟩, odd⟩, least⟩, most⟩, oddExponent⟩, -⟩ := fit
  exact PublicKey.isSound_of_long long short odd (Nat.le_trans (by decide) least) most oddExponent

end Rsa

/-! ## Records -/

/-- Whoever reads the record of a key gets its public half. -/
theorem SigningKey.verifyingKey_published_of_isSound {k : SigningKey}
    (sound : k.secret.toPublic.isSound = true) :
    k.published.verifyingKey = .ok k.secret.toPublic := by
  have ascii : ∀ b ∈ Base64.encode .standard .required k.secret.toPublic.toDer, b < 128 :=
    fun _ => Base64.lt_of_mem_encode
  have text : Octets.ofString k.published.encoded =
      Base64.encode .standard .required k.secret.toPublic.toDer := by
    rw [published, Octets.toTextLossy_of_ascii ascii, Octets.ofString_asciiText ascii]
  have kind : equalIgnoringCase k.published.kind keyType = true := by
    show equalIgnoringCase keyType keyType = true
    decide
  rw [PublishedKey.verifyingKey, if_pos kind, text, Base64.decode_encode]
  simp only [Rsa.PublicKey.ofDer?_toDer sound]

theorem SigningKey.verifyingKey_published {k : SigningKey} (fit : k.secret.maySign = true) :
    k.published.verifyingKey = .ok k.secret.toPublic :=
  verifyingKey_published_of_isSound (Rsa.PrivateKey.isSound_toPublic fit)

end Tollgate
