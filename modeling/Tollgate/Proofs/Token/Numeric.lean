import Tollgate.Proofs.Json.Numbers
import Tollgate.Proofs.Token.Identifier

/-! # Numbers as identifiers

An identifier may be written as a number.  A number that denotes an integer is refused or becomes the
decimal text of that integer, except where numbers are misread (`judged_of_text`): with a point or a
power of ten, integers from `4611686018427413` to `2 ^ 53 + 1` may be taken for their neighbours.
Written out, integers are never misread, and those of 64 bits never refused.
-/

namespace Tollgate

open Json (NumberText)

theorem toDigits_injective : Function.Injective (Nat.toDigits 10) :=
  Function.LeftInverse.injective (g := (Nat.ofDigitChars 10 · 0))
    fun _ => Nat.ofDigitChars_ten_toDigits

theorem toList_decimalText (z : ℤ) :
    (decimalText z).toList = (if z < 0 then ['-'] else []) ++ Nat.toDigits 10 z.natAbs := by
  simp only [decimalText, Nat.repr_eq_ofList_toDigits]
  split <;> simp

theorem decimalText_injective : Function.Injective decimalText := by
  intro z z' same
  have same : (if z < 0 then ['-'] else []) ++ Nat.toDigits 10 z.natAbs =
      (if z' < 0 then ['-'] else []) ++ Nat.toDigits 10 z'.natAbs := by
    rw [← toList_decimalText, ← toList_decimalText, same]
  have unsigned : ∀ n : ℕ, '-' ∉ Nat.toDigits 10 n := fun n among =>
    absurd (Nat.isDigit_of_mem_toDigits (by decide) (by decide) among) (by decide)
  -- A sign is no digit, so that there is one before both or before none.
  split at same <;> split at same
  · have digits := toDigits_injective (List.append_cancel_left same)
    omega
  · rw [List.nil_append] at same
    exact absurd (same ▸ List.mem_cons_self) (unsigned z'.natAbs)
  · rw [List.nil_append] at same
    exact absurd (same.symm ▸ List.mem_cons_self) (unsigned z.natAbs)
  · have digits := toDigits_injective (List.append_cancel_left same)
    omega

namespace Json.NumberText

variable {n : NumberText} {z : ℤ}

/-- The number is written out, or it is too small or too large to be misread. -/
def Unmistakable (n : NumberText) : Prop :=
  n.isInteger = true ∨ |n.value| < 4611686018427413 ∨ 2 ^ 53 + 1 < |n.value|

theorem not_unmistakable_of_misread {y : ℕ} (value : n.value = z) (mark : n.isInteger = false)
    (misread : Misread z.natAbs y) : ¬n.Unmistakable := by
  obtain ⟨low, high, -⟩ := misread
  have low : (4611686018427413 : ℚ) ≤ |n.value| := by
    rw [value, ← Int.cast_abs, ← Nat.cast_natAbs]
    exact_mod_cast low
  have high : |n.value| ≤ 2 ^ 53 + 1 := by
    rw [value, ← Int.cast_abs, ← Nat.cast_natAbs]
    exact_mod_cast high
  rintro (integer | small | large)
  · rw [mark] at integer
    contradiction
  · linarith
  · linarith

/-- A number is a scalar if it has a value, and nothing is left of its text. -/
theorem value?_of_readScalar {rounds : ℕ} {shape : Shape} {rest : Octets}
    (read : readScalar rounds n.text = .ok (shape, rest)) :
    ∃ number, shape = .number number ∧ n.numeral.value? = some number := by
  obtain ⟨b, s, written, mark⟩ := n.exists_text_eq
  have start : skipBlanks n.text = b :: s := by
    rw [written]
    exact List.dropWhile_cons_of_neg (by simp [isBlank_of_mark mark])
  rw [readScalar_of_mark rounds start mark, ← written, readNumber, readNumeral_text] at read
  cases value : n.numeral.value? with
  | none => simp [value, Except.map] at read
  | some number =>
    simp only [value, Except.map] at read
    cases read
    exact ⟨number, rfl, rfl⟩

theorem abs_signed_sub (negative : Bool) {m V : ℕ} (next : m + 1 = V ∨ m = V + 1) :
    |(if negative then -(m : ℤ) else m) - (if negative then -(V : ℤ) else V)| = 1 := by
  rw [abs_eq one_pos.le]
  cases negative <;> simp only [if_true, Bool.false_eq_true, if_false] <;> omega

/-- What a number becomes that denotes an integer. -/
theorem judged_of_text {label text : String} {rounds : ℕ} {rest : Octets} (value : n.value = z)
    (read : readJudged (judgeIdentifier label) rounds n.text = .ok (text, rest)) :
    ∃ y, text = decimalText y ∧ (y = z ∨ |y - z| = 1 ∧ ¬n.Unmistakable) := by
  obtain ⟨shape, scalar, judged⟩ := readJudged_eq_ok_iff.mp read
  obtain ⟨number, rfl, found⟩ := value?_of_readScalar scalar
  obtain ⟨digits, signed⟩ := n.eq_of_value value
  obtain rfl | ⟨x, rfl, placed, taken⟩ := value?_cases n.digits_numeral n.plain_numeral digits found
  · cases judged
    exact ⟨_, rfl, .inl signed.symm⟩
  · simp only [judgeIdentifier] at judged
    split at judged
    · next y whole =>
      cases judged
      split at whole
      · next fits =>
        obtain ⟨m, exact, limit, rfl⟩ := Binary64.exists_of_toInt? placed fits whole
        refine ⟨_, rfl, ?_⟩
        -- The sign is that of the number, so that only the size may be another.
        obtain rfl | ⟨mark, misread⟩ := taken m exact limit
        · exact .inl signed.symm
        · have next := abs_signed_sub n.negative misread.2.2
          rw [← signed] at next
          exact .inr ⟨next, not_unmistakable_of_misread value mark misread⟩
      · contradiction
    · contradiction

theorem value?_of_written_out (value : n.value = z) (mark : n.isInteger = true) (low : -2 ^ 63 ≤ z)
    (high : z < 2 ^ 64) : n.numeral.value? = some (.int z) ∨
      z = 0 ∧ n.numeral.value? = some (.float (.finite true .zero)) := by
  obtain ⟨digits, signed⟩ := n.eq_of_value value
  obtain ⟨none, zero⟩ := n.plain_numeral mark
  have whole : digitsNat n.numeral.whole = z.natAbs := by
    rw [none, zero, List.append_nil, List.length_nil, Nat.cast_zero, sub_zero, zpow_zero,
      mul_one] at digits
    exact_mod_cast digits
  have fits : fitDigits 0 n.numeral.whole = (z.natAbs, []) := by
    have all : digitsNat n.numeral.whole < 2 ^ 64 → fitDigits 0 n.numeral.whole = _ := fitDigits_eq
    rw [show List.foldl _ 0 _ = digitsNat n.numeral.whole from rfl, whole] at all
    exact all (by omega)
  have integer : n.numeral.isInteger = true := mark
  have sign : n.numeral.negative = n.negative := rfl
  -- A zero with a sign is read as a float, which is zero as well.
  by_cases zeroes : n.negative = true ∧ z = 0
  · obtain ⟨negative, rfl⟩ := zeroes
    refine .inr ⟨rfl, ?_⟩
    simp only [Numeral.value?, fits, integer, none, zero, sign, negative, fitDigits]
    rfl
  · left
    have within : (n.negative && (z.natAbs = 0 || twoTo 63 < z.natAbs)) = false := by
      apply Bool.eq_false_iff.mpr
      intro beyond
      simp only [Bool.and_eq_true, Bool.or_eq_true, decide_eq_true_eq] at beyond
      obtain ⟨negative, beyond⟩ := beyond
      change _ ∨ 2 ^ 63 < z.natAbs at beyond
      rw [if_pos negative] at signed
      exact zeroes ⟨negative, by omega⟩
    simp only [Numeral.value?, fits, integer, sign, within, List.isEmpty_nil, Bool.and_true,
      Bool.not_false, if_true, ← signed]

/-- The digits fit a binary64 number, and they stand near the point. -/
def Short (n : NumberText) : Prop :=
  digitsNat (n.numeral.whole ++ n.numeral.fraction) ≤ 2 ^ 53 ∧
    (n.numeral.power - n.numeral.fraction.length).natAbs ≤ 22

theorem value?_of_short (value : n.value = z) (mark : n.isInteger = false) (short : n.Short)
    (small : z.natAbs ≤ 2 ^ 53) :
    ∃ x, n.numeral.value? = some (.float (.finite n.negative x)) ∧ -1074 ≤ x.exponent ∧
      x.value = z.natAbs := by
  obtain ⟨digits, few⟩ := short
  obtain ⟨exact, -⟩ := n.eq_of_value value
  have size : digitsNat (n.numeral.whole ++ n.numeral.fraction) < 2 ^ 64 := by omega
  have whole : fitDigits 0 n.numeral.whole = (digitsNat n.numeral.whole, []) := by
    -- The digits before the point alone are no more than all digits.
    have unit : 1 ≤ 10 ^ n.numeral.fraction.length := Nat.one_le_pow _ _ (by decide)
    rw [digitsNat_append] at size
    exact fitDigits_eq (lt_of_le_of_lt (by change digitsNat n.numeral.whole ≤ _; nlinarith) size)
  have all : fitDigits (digitsNat n.numeral.whole) n.numeral.fraction =
      (digitsNat (n.numeral.whole ++ n.numeral.fraction), []) := by
    have same : digitsNat (n.numeral.whole ++ n.numeral.fraction) =
        n.numeral.fraction.foldl (fun n d => n * 10 + d) (digitsNat n.numeral.whole) :=
      List.foldl_append
    rw [same] at size ⊢
    exact fitDigits_eq size
  obtain ⟨x, scaled, same⟩ := exists_scale digits few exact small
  refine ⟨x, ?_, placed_of_scale scaled, same⟩
  have float : n.numeral.isInteger = false := mark
  have place : (([] : List ℕ).length : ℤ) - (n.numeral.fraction.length - ([] : List ℕ).length) +
      n.numeral.power = n.numeral.power - n.numeral.fraction.length := by
    simp only [List.length_nil]
    omega
  simp only [Numeral.value?, whole, float, Bool.false_and, Bool.false_eq_true, if_false, all, place,
    scaled]
  rfl

theorem reads_written_out (label : String) (value : n.value = z) (mark : n.isInteger = true)
    (low : -2 ^ 63 ≤ z) (high : z < 2 ^ 64) :
    Reads (readJudged (judgeIdentifier label)) n.text (decimalText z) := by
  obtain ⟨b, s, written, begins⟩ := n.exists_text_eq
  obtain found | ⟨rfl, found⟩ := value?_of_written_out value mark low high
  · exact (reads_numeral written begins n.readNumeral_text found).judged rfl
  · have zero : (if (Binary64.finite true .zero).between (-exactLimit) exactLimit then
        (Binary64.finite true .zero).toInt? else none) = some 0 := by decide +kernel
    exact (reads_numeral written begins n.readNumeral_text found).judged
      (by simp only [judgeIdentifier, zero])

theorem reads_short (label : String) (value : n.value = z) (short : n.Short)
    (small : z.natAbs ≤ 2 ^ 53) : Reads (readJudged (judgeIdentifier label)) n.text (decimalText z) := by
  cases mark : n.isInteger with
  | true => exact reads_written_out label value mark (by omega) (by omega)
  | false =>
    obtain ⟨b, s, written, begins⟩ := n.exists_text_eq
    obtain ⟨x, found, placed, same⟩ := value?_of_short value mark short small
    obtain ⟨-, signed⟩ := n.eq_of_value value
    have limit : z.natAbs ≤ twoTo 53 := small
    have whole := Binary64.toInt?_of_value n.negative placed same limit
    rw [← signed] at whole
    have judged : judgeIdentifier label (.number (.float (.finite n.negative x))) =
        .ok (decimalText z) := by
      simp only [judgeIdentifier]
      rw [show (Binary64.finite n.negative x).between (-exactLimit) exactLimit = true from whole.1,
        if_pos rfl, whole.2]
    exact (reads_numeral written begins n.readNumeral_text found).judged judged

end Json.NumberText

/-! ## Identifiers -/

/-- How a decoder of identifiers takes a number that denotes an integer, where `text` is the text of
    an identifier. -/
structure KeepsNumber {α : Type} (decode : Octets → Except Json.Fault α) (text : α → String)
    (n : NumberText) (z : ℤ) : Prop where
  /-- The number is refused or becomes the integer, or a neighbour of it if it can be mistaken. -/
  exact : ∀ a, decode n.text = .ok a →
    ∃ y, text a = decimalText y ∧ (y = z ∨ |y - z| = 1 ∧ ¬n.Unmistakable)
  /-- No number that denotes another integer becomes the same identifier. -/
  distinct : ∀ (n' : NumberText) (z' : ℤ) (a : α), n'.value = z' → n.Unmistakable →
    n'.Unmistakable → decode n.text = .ok a → decode n'.text = .ok a → z' = z
  /-- Written out, it is not refused if it has 64 bits. -/
  writtenOut : n.isInteger = true → -2 ^ 63 ≤ z → z < 2 ^ 64 →
    ∃ a, decode n.text = .ok a ∧ text a = decimalText z
  /-- With a point or a power, it is not refused if it is short and has 53 bits. -/
  short : n.Short → z.natAbs ≤ 2 ^ 53 → ∃ a, decode n.text = .ok a ∧ text a = decimalText z

section Decoders

variable {α : Type} {put : String → α} {text : α → String} {label : String} {n : NumberText} {z : ℤ}

theorem judged_of_document (inverse : ∀ t, text (put t) = t) {a : α} (denotes : n.value = z)
    (decoded : Json.document (fun rounds => Json.into put
      (Json.readJudged (judgeIdentifier label) rounds)) n.text = .ok a) :
    ∃ y, text a = decimalText y ∧ (y = z ∨ |y - z| = 1 ∧ ¬n.Unmistakable) := by
  obtain ⟨rest, read, -⟩ := Json.document_eq_ok_iff.mp decoded
  obtain ⟨t, found, rfl⟩ := Json.into_eq_ok_iff.mp read
  rw [inverse]
  exact Json.NumberText.judged_of_text denotes found

theorem keepsNumber (label : String) (inverse : ∀ t, text (put t) = t) (denotes : n.value = z) :
    KeepsNumber (Json.document fun rounds => Json.into put
      (Json.readJudged (judgeIdentifier label) rounds)) text n z where
  exact _ decoded := judged_of_document inverse denotes decoded
  distinct n' z' a denotes' clear clear' decoded decoded' := by
    obtain ⟨y, same, own⟩ := judged_of_document inverse denotes decoded
    obtain ⟨y', same', own'⟩ := judged_of_document inverse denotes' decoded'
    obtain rfl : y = y' := decimalText_injective (same.symm.trans same')
    obtain rfl | ⟨-, mistaken⟩ := own
    · obtain rfl | ⟨-, mistaken⟩ := own'
      · rfl
      · contradiction
    · contradiction
  writtenOut mark low high :=
    ⟨_, (Json.NumberText.reads_written_out label denotes mark low high).into.document, inverse _⟩
  short short small :=
    ⟨_, (Json.NumberText.reads_short label denotes short small).into.document, inverse _⟩

end Decoders

/-- Identifiers of keys and of tokens keep the integers that they are written as. -/
theorem identifiers_keep_numbers {n : NumberText} {z : ℤ} (denotes : n.value = z) :
    KeepsNumber (Json.document KeyId.read) KeyId.text n z ∧
      KeepsNumber (Json.document TokenId.read) TokenId.text n z :=
  ⟨keepsNumber "key id" (fun _ => rfl) denotes, keepsNumber "token id" (fun _ => rfl) denotes⟩

def scaledNumber : NumberText where
  negative := false
  whole := ⟨[1, 2], by decide⟩
  unpadded := by simp
  fraction := some ⟨[5, 0], by decide⟩
  power := some ⟨false, none, ⟨[1], by decide⟩⟩

theorem identifiers_keep_numbers_scaled : scaledNumber.value = (125 : ℤ) ∧
    Json.document KeyId.read scaledNumber.text = .ok ⟨"125"⟩ ∧
    ∃ y : ℤ, "125" = decimalText y ∧ y = 125 := by
  have digits : scaledNumber.whole.value = 12 ∧ (⟨[5, 0], by decide⟩ : Json.Digits).value = 50 ∧
      (⟨[1], by decide⟩ : Json.Digits).value = 1 := by decide +kernel
  have value : scaledNumber.value = (125 : ℤ) := by
    rw [Json.NumberText.value, Json.NumberText.fractionValue, digits.1]
    norm_num [scaledNumber, Json.PowerText.value, digits.2.1, digits.2.2]
  have decoded : Json.document KeyId.read scaledNumber.text = .ok ⟨"125"⟩ := by decide +kernel
  refine ⟨value, decoded, ?_⟩
  obtain ⟨y, text, exact | ⟨-, mistaken⟩⟩ :=
    (identifiers_keep_numbers value).1.exact ⟨"125"⟩ decoded
  · exact ⟨y, text, exact⟩
  · exact absurd (.inr (.inl (by rw [value]; norm_num))) mistaken

/-! ## Misread numbers -/

/-- The first integer that is no binary64 number, with a power of ten: `9007199254740993e0`. -/
def firstInexact : NumberText where
  negative := false
  whole := ⟨[9, 0, 0, 7, 1, 9, 9, 2, 5, 4, 7, 4, 0, 9, 9, 3], by decide⟩
  unpadded := by simp
  fraction := none
  power := some ⟨false, none, ⟨[0], by decide⟩⟩

/-- The first integer that is rounded twice in the wrong direction: `4611686018427413.000`. -/
def firstMisread : NumberText where
  negative := false
  whole := ⟨[4, 6, 1, 1, 6, 8, 6, 0, 1, 8, 4, 2, 7, 4, 1, 3], by decide⟩
  unpadded := by simp
  fraction := some ⟨[0, 0, 0], by decide⟩
  power := none

/-- At both ends of the range in which numbers may be misread they are. -/
theorem neighbours_mistaken :
    (firstInexact.text = Octets.ofString "9007199254740993e0" ∧
      firstInexact.value = (9007199254740993 : ℤ) ∧
      Json.document KeyId.read firstInexact.text = .ok ⟨"9007199254740992"⟩ ∧
      Json.document TokenId.read firstInexact.text = .ok ⟨"9007199254740992"⟩ ∧
      Json.document TokenId.read (Octets.ofString "9007199254740992") =
        .ok ⟨"9007199254740992"⟩) ∧
    firstMisread.text = Octets.ofString "4611686018427413.000" ∧
    firstMisread.value = (4611686018427413 : ℤ) ∧
      Json.document KeyId.read firstMisread.text = .ok ⟨"4611686018427414"⟩ ∧
      Json.document TokenId.read firstMisread.text = .ok ⟨"4611686018427414"⟩ := by
  -- What the text means is computed from its digits, over the rationals.
  have value : firstInexact.value = (9007199254740993 : ℤ) := by
    have digits : firstInexact.whole.value = 9007199254740993 ∧
        (⟨[0], by decide⟩ : Json.Digits).value = 0 := by decide +kernel
    rw [Json.NumberText.value, Json.NumberText.fractionValue, digits.1]
    norm_num [firstInexact, Json.PowerText.value, digits.2]
  have value' : firstMisread.value = (4611686018427413 : ℤ) := by
    have digits : firstMisread.whole.value = 4611686018427413 ∧
        (⟨[0, 0, 0], by decide⟩ : Json.Digits).value = 0 := by decide +kernel
    rw [Json.NumberText.value, Json.NumberText.fractionValue, digits.1]
    norm_num [firstMisread, digits.2]
  exact ⟨⟨by decide +kernel, value, by decide +kernel, by decide +kernel, by decide +kernel⟩,
    by decide +kernel, value', by decide +kernel, by decide +kernel⟩

end Tollgate
